import SumCluster.Proofs.Network.Listening

/-!
What comes first on a connection. Without a deadline, what waiting for a message comes to depends on
the stream alone, and not on the pieces in which it arrives: a frame with a message at its front is
heard, and all that is behind the frame is left to be read next, in order and without a gap.
-/

namespace SumCluster.Network

open Wire (Bytes Message)
open Wire.Frame (front)

/-- A far end that never disappears. -/
def Peer.Stays (p : Peer) : Prop := ∀ frames, ∀ a ∈ p.react frames, a.event ≠ .hangUp

namespace Link

variable {l l' : Link} {m m' : Message} {rest rest' : Bytes}

/-! ### Connections that stay -/

/-- The far end is gone, or on its way out. -/
def Leaving (l : Link) : Prop := l.gone = true ∨ ∃ a ∈ l.coming, a.event = .hangUp

theorem Keeps.leaving (h : Keeps l l.coming l') (hl : l'.Leaving) : l.Leaving := by
  rcases hl with hgone | ⟨a, ha, he⟩
  · exact h.gone hgone
  · exact .inr ⟨a, h.coming.subset ha, he⟩

/-! ### The first frame -/

/-- A frame with some message comes first, and then the rest of the stream. -/
def Begins (l : Link) (m : Message) (rest : Bytes) : Prop :=
  ∃ body, l.stream = Wire.Frame.wrap body ++ rest ∧ body.length ≤ l.limit ∧
    Message.ofBody body = .ok m

theorem begins_iff (hl : l.connection.Sound) : l.Begins m rest ↔
    ∃ body, front l.limit l.stream = .whole body rest ∧ Message.ofBody body = .ok m := by
  constructor
  · rintro ⟨body, hstream, hfits, hbody⟩
    refine ⟨body, ?_, hbody⟩
    rw [hstream]
    exact Wire.Frame.front_wrap hfits hl.decoder.limit_le rest
  · rintro ⟨body, hfront, hbody⟩
    obtain ⟨hstream, hfits⟩ := Wire.Frame.eq_wrap_of_front hfront
    exact ⟨body, hstream, hfits, hbody⟩

theorem Begins.unique (hl : l.connection.Sound) (h : l.Begins m rest) (h' : l.Begins m' rest') :
    m = m' ∧ rest = rest' := by
  obtain ⟨body, hfront, hbody⟩ := (begins_iff hl).mp h
  obtain ⟨body', hfront', hbody'⟩ := (begins_iff hl).mp h'
  obtain ⟨rfl, rfl⟩ := Wire.Frame.Front.whole.inj (hfront.symm.trans hfront')
  exact ⟨Except.ok.inj (hbody.symm.trans hbody'), rfl⟩

/-- A message that the far end has written comes first. -/
theorem begins_of_stream (hl : l.connection.Sound) (hs : l.stream = m.frame ++ rest)
    (fits : m.toBody.length ≤ l.limit) : l.Begins m rest :=
  ⟨m.toBody, hs, fits, Message.ofBody_toBody_of_le (Nat.le_trans fits hl.decoder.limit_le)⟩

theorem not_begins_of_front (hl : l.connection.Sound)
    (h : ∀ body rest, front l.limit l.stream ≠ .whole body rest) (m : Message) (rest : Bytes) :
    ¬l.Begins m rest := by
  intro hb
  obtain ⟨body, hfront, _⟩ := (begins_iff hl).mp hb
  exact h body rest hfront

/-- All that waiting for the first message can come to. -/
inductive First (l : Link) : Heard × Link → Prop where
  /-- A message comes first. -/
  | message {m : Message} {rest : Bytes} {l' : Link} (begins : l.Begins m rest)
      (keeps : Keeps l l.coming l') (stream : l'.stream = rest) (sound : l'.connection.Sound) :
      First l (.answer (.ok (some m)), l')
  /-- Something else comes first, the end of the stream included. -/
  | other {outcome : Wire.Frame.Outcome} {l' : Link} (begins : ∀ m rest, ¬l.Begins m rest)
      (none : ∀ m, outcome ≠ .ok (some m)) (keeps : Keeps l l.coming l') :
      First l (.answer outcome, l')
  /-- More may still come. -/
  | waits {l' : Link} (begins : ∀ m rest, ¬l.Begins m rest) (hopen : l.closing = false)
      (keeps : Keeps l l.coming l') : First l (.silence, l')

theorem recv_first (hl : l.connection.Sound) : First l (l.recv none) := by
  have hears := recv_hears hl none
  have hnone {f : Wire.Frame.Front} (hf : front l.limit l.stream = f)
      (hne : ∀ body rest, f ≠ .whole body rest) : ∀ m rest, ¬l.Begins m rest :=
    not_begins_of_front hl fun body rest => hf ▸ hne body rest
  generalize l.recv none = result at hears ⊢
  cases hears with
  | @whole body rest l' hf keeps hstream hsound =>
    cases hbody : Message.ofBody body with
    | ok m =>
      exact .message ((begins_iff hl).mpr ⟨body, hf, hbody⟩) keeps hstream (hsound m hbody)
    | error e =>
      -- A frame that holds no message is an answer too, so nothing behind it is heard instead.
      refine .other (fun m rest' hb => ?_) nofun keeps
      obtain ⟨body', hfront, hbody'⟩ := (begins_iff hl).mp hb
      obtain ⟨rfl, rfl⟩ := Wire.Frame.Front.whole.inj (hf.symm.trans hfront)
      cases hbody.symm.trans hbody'
  | tooLong hf keeps => exact .other (hnone hf nofun) nofun keeps
  | ended hf _ houtcome keeps =>
    refine .other (hnone hf nofun) (fun m => ?_) keeps
    rcases houtcome with rfl | rfl <;> exact nofun
  | silence hf hopen _ keeps => exact .waits (hnone hf nofun) hopen keeps
  | expired hd => cases hd

/-- A message that comes first is heard, and the rest is left to be read. -/
theorem Begins.recv (hl : l.connection.Sound) (h : l.Begins m rest) : ∃ l',
    l.recv none = (.answer (.ok (some m)), l') ∧ Keeps l l.coming l' ∧ l'.stream = rest ∧
      l'.connection.Sound := by
  have hfirst := recv_first hl
  generalize l.recv none = result at hfirst ⊢
  cases hfirst with
  | message begins keeps stream sound =>
    obtain ⟨rfl, rfl⟩ := h.unique hl begins
    exact ⟨_, rfl, keeps, stream, sound⟩
  | other hno => exact absurd h (hno m rest)
  | waits hno => exact absurd h (hno m rest)

end Link

end SumCluster.Network
