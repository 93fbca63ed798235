import SumCluster.Network.Link
import SumCluster.Proofs.Wire.Receiving

/-!
What sending and waiting on a two-way connection come to. The stream of a connection is what has
arrived and was not handed out, and then all that is still on its way up to the first end of the
stream; when its pieces come does not matter to it. Waiting answers with the frame at the front of
the stream, or says why there is none; only a deadline makes it depend on time.
-/

namespace SumCluster.Network

open Wire
open Wire.Frame (front)

/-! ### What is on its way -/

/-- Whether the stream ends with an event. -/
def Event.ends : Event → Bool
  | .bytes _ => false
  | .finish => true
  | .hangUp => true

/-- The bytes that arrivals bring before the stream ends. -/
def spoken : List Arrival → Bytes
  | [] => []
  | ⟨_, .bytes chunk⟩ :: rest => chunk ++ spoken rest
  | _ :: _ => []

/-- Whether the stream ends with some arrivals. -/
def ends (as : List Arrival) : Bool := as.any (·.event.ends)

theorem spoken_append (as bs : List Arrival) :
    spoken (as ++ bs) = spoken as ++ if ends as then [] else spoken bs := by
  induction as with
  | nil => rfl
  | cons a as ih =>
    rcases a with ⟨_, chunk | _ | _⟩
    · rw [List.cons_append, spoken, ih, spoken, List.append_assoc]
      rfl
    · rfl
    · rfl

/-- When arrivals happen does not matter to what they bring. -/
theorem spoken_map_due (f : Nanos → Nanos) (as : List Arrival) :
    spoken (as.map fun a => { a with due := f a.due }) = spoken as := by
  induction as with
  | nil => rfl
  | cons a as ih =>
    rcases a with ⟨_, chunk | _ | _⟩
    · rw [List.map_cons, spoken, ih, spoken]
    · rfl
    · rfl

namespace Link

/-! ### The stream of a connection -/

/-- All that is to be read while some arrivals are on their way. -/
def streamWith (l : Link) (as : List Arrival) : Bytes :=
  l.connection.stream ++ if l.connection.closed then [] else spoken as

/-- Whether the stream has ended or ends with some arrivals. -/
def closingWith (l : Link) (as : List Arrival) : Bool := l.connection.closed || ends as

/-- All that is to be read. -/
def stream (l : Link) : Bytes := l.streamWith l.coming

/-- Whether the stream has an end. -/
def closing (l : Link) : Bool := l.closingWith l.coming

/-- What waiting changes: some arrivals have happened, and nothing else. -/
structure Keeps (l : Link) (as : List Arrival) (l' : Link) : Prop where
  peer : l'.peer = l.peer
  taken : l'.taken = l.taken
  limit : l'.limit = l.limit
  coming : l'.coming <:+ as
  gone : l'.gone = true → l.gone = true ∨ ∃ a ∈ as, a.event = .hangUp
  closing : l'.closing = l.closingWith as

variable {l l' : Link} {as : List Arrival}

/-! ### Deliveries -/

theorem sound_deliver (hl : l.connection.Sound) : ∀ e : Event, (l.deliver e).connection.Sound
  | .bytes chunk => hl.arrive chunk
  | .finish => hl.close
  | .hangUp => hl.close

theorem limit_deliver (l : Link) : ∀ e : Event, (l.deliver e).limit = l.limit
  | .bytes chunk => Connection.limit_arrive l.connection chunk
  | .finish => rfl
  | .hangUp => rfl

theorem peer_deliver (l : Link) (e : Event) : (l.deliver e).peer = l.peer := by cases e <;> rfl

theorem taken_deliver (l : Link) (e : Event) : (l.deliver e).taken = l.taken := by cases e <;> rfl

theorem now_deliver (l : Link) (e : Event) : (l.deliver e).now = l.now := by cases e <;> rfl

theorem gone_deliver (l : Link) : ∀ e : Event, (l.deliver e).gone = true →
    l.gone = true ∨ e = .hangUp
  | .bytes _, h => .inl h
  | .finish, h => .inl h
  | .hangUp, _ => .inr rfl

/-- What has arrived and what is on its way make up the same stream before and after. -/
theorem streamWith_deliver (l : Link) (as : List Arrival) : ∀ a : Arrival,
    (l.deliver a.event).streamWith as = l.streamWith (a :: as)
  | ⟨_, .bytes chunk⟩ => by
    simp only [streamWith, deliver, spoken, Connection.stream_arrive, Connection.closed_arrive]
    cases l.connection.closed <;> simp
  | ⟨_, .finish⟩ => by
    cases h : l.connection.closed <;>
      simp [streamWith, deliver, spoken, Connection.close, h] <;> rfl
  | ⟨_, .hangUp⟩ => by
    cases h : l.connection.closed <;>
      simp [streamWith, deliver, spoken, Connection.close, h] <;> rfl

theorem closingWith_deliver (l : Link) (as : List Arrival) : ∀ a : Arrival,
    (l.deliver a.event).closingWith as = l.closingWith (a :: as)
  | ⟨_, .bytes chunk⟩ => by simp [closingWith, ends, deliver, Event.ends]
  | ⟨_, .finish⟩ => by simp [closingWith, ends, deliver, Event.ends, Connection.close]
  | ⟨_, .hangUp⟩ => by simp [closingWith, ends, deliver, Event.ends, Connection.close]

/-- One arrival happens, and then others. -/
theorem Keeps.cons {a : Arrival} (h : Keeps (l.deliver a.event) as l') : Keeps l (a :: as) l' where
  peer := h.peer.trans (peer_deliver ..)
  taken := h.taken.trans (taken_deliver ..)
  limit := h.limit.trans (limit_deliver ..)
  coming := h.coming.trans (List.suffix_cons a as)
  gone hg := by
    rcases h.gone hg with hg | ⟨b, hb, he⟩
    · rcases gone_deliver l a.event hg with hg | he
      · exact .inl hg
      · exact .inr ⟨a, List.mem_cons_self, he⟩
    · exact .inr ⟨b, List.mem_cons_of_mem a hb, he⟩
  closing := h.closing.trans (closingWith_deliver ..)

/-- What settling leaves: the same stream, part of it moved to what has arrived. -/
structure Settles (l : Link) (as : List Arrival) (l' : Link) : Prop extends Keeps l as l' where
  sound : l.connection.Sound → l'.connection.Sound
  stream : l'.stream = l.streamWith as
  now : l'.now = l.now

theorem settleFrom_settles (l : Link) (as : List Arrival) : Settles l as (l.settleFrom as) := by
  induction as generalizing l with
  | nil => exact ⟨⟨rfl, rfl, rfl, List.suffix_refl _, .inl, rfl⟩, id, rfl, rfl⟩
  | cons a as ih =>
    unfold settleFrom
    split
    · have h := ih (l.deliver a.event)
      exact ⟨h.toKeeps.cons, fun hl => h.sound (sound_deliver hl _),
        h.stream.trans (streamWith_deliver ..), h.now.trans (now_deliver ..)⟩
    · exact ⟨⟨rfl, rfl, rfl, List.suffix_refl _, .inl, rfl⟩, id, rfl, rfl⟩

theorem settle_settles (l : Link) : Settles l l.coming l.settle := settleFrom_settles l l.coming

/-- A far end that disappears leaves what has arrived, and no more. -/
theorem cut_quiet (hl : l.connection.Sound) (hquiet : l.stream = []) (t : Nanos) :
    (l.cut t).connection.Sound ∧ (l.cut t).stream = [] ∧ (l.cut t).taken = l.taken := by
  have h := settle_settles (l.advance t)
  have hnil : (l.advance t).settle.stream = [] := h.stream.trans hquiet
  refine ⟨(h.sound hl).close, ?_, h.taken⟩
  change (l.advance t).settle.connection.stream ++ [] = []
  rw [List.append_nil]
  exact (List.append_eq_nil_iff.mp hnil).1

theorem peer_cut (l : Link) (t : Nanos) : (l.cut t).peer = l.peer :=
  (settle_settles (l.advance t)).peer

/-! ### Sending -/

/-- What is read after a frame was handed over: what was on its way, and then what it sets off. -/
theorem stream_hand (l : Link) (frame : Bytes) :
    (l.hand frame).stream =
      l.stream ++ if l.closing then [] else spoken (l.peer.react (l.taken ++ [frame])) := by
  simp only [stream, streamWith, hand, closing, closingWith, spoken_append]
  rw [spoken_map_due (l.now + ·)]
  by_cases h : l.connection.closed = true <;> simp [h]

theorem send_of_lt {m : Message} (h : l.limit < m.toBody.length) :
    l.send m = (.error .frameTooBig, l) := by
  rw [send, Frame.encode, if_neg (Nat.not_le.mpr h)]

theorem send_of_le {m : Message} (h : m.toBody.length ≤ l.limit) :
    l.send m = if l.settle.gone then (.error .brokenPipe, l.settle)
      else (.ok (), l.settle.hand m.frame) := by
  rw [send, Frame.encode, if_pos h]
  rfl

/-! ### Waiting -/

/-- All that waiting for a message can come to while some arrivals are on their way. -/
inductive Hears (deadline : Option Nanos) (l : Link) (as : List Arrival) : Heard × Link → Prop where
  /-- The frame at the front is handed out, or found to be no message. -/
  | whole {body rest : Bytes} {l' : Link} (h : front l.limit (l.streamWith as) = .whole body rest)
      (keeps : Keeps l as l') (stream : l'.stream = rest)
      (sound : ∀ m, Message.ofBody body = .ok m → l'.connection.Sound) :
      Hears deadline l as (.answer ((Message.ofBody body).map some), l')
  /-- The length at the front is too large. -/
  | tooLong {l' : Link} (h : front l.limit (l.streamWith as) = .tooLong) (keeps : Keeps l as l') :
      Hears deadline l as (.answer (.error .frameTooBig), l')
  /-- The stream ends, and no whole frame is left. -/
  | ended {outcome : Frame.Outcome} {l' : Link} (h : front l.limit (l.streamWith as) = .short)
      (hclosing : l.closingWith as = true)
      (houtcome : outcome = .ok none ∨ outcome = .error .strayBytes) (keeps : Keeps l as l') :
      Hears deadline l as (.answer outcome, l')
  /-- Nothing more comes. -/
  | silence {l' : Link} (h : front l.limit (l.streamWith as) = .short)
      (hopen : l.closingWith as = false) (hdeadline : deadline = none) (keeps : Keeps l as l') :
      Hears deadline l as (.silence, l')
  /-- The deadline passes before something that is on its way, or nothing more comes. -/
  | expired {t : Nanos} {l' : Link} (hdeadline : deadline = some t)
      (late : (∃ a ∈ as, t < a.due) ∨
        front l.limit (l.streamWith as) = .short ∧ l.closingWith as = false)
      (keeps : Keeps l as l') : Hears deadline l as (.expired, l')

theorem Hears.keeps {deadline : Option Nanos} {heard : Heard}
    (h : Hears deadline l as (heard, l')) : Keeps l as l' := by
  cases h <;> assumption

theorem Hears.unbounded {deadline : Option Nanos} (h : Hears deadline l as (.silence, l')) :
    deadline = none := by
  cases h
  assumption

/-- With a whole frame on its way in time, waiting ends with it. -/
theorem Hears.of_whole {deadline : Option Nanos} {r : Heard × Link} {body rest : Bytes}
    (h : Hears deadline l as r) (hfront : front l.limit (l.streamWith as) = .whole body rest)
    (prompt : ∀ t, deadline = some t → ∀ a ∈ as, a.due ≤ t) :
    ∃ l', r = (.answer ((Message.ofBody body).map some), l') ∧ Keeps l as l' ∧ l'.stream = rest ∧
      ∀ m, Message.ofBody body = .ok m → l'.connection.Sound := by
  cases h with
  | whole hf keeps hstream hsound =>
    obtain ⟨rfl, rfl⟩ := Frame.Front.whole.inj (hfront.symm.trans hf)
    exact ⟨_, rfl, keeps, hstream, hsound⟩
  | tooLong hf => exact absurd (hfront.symm.trans hf) nofun
  | ended hf => exact absurd (hfront.symm.trans hf) nofun
  | silence hf => exact absurd (hfront.symm.trans hf) nofun
  | expired hdeadline late =>
    rcases late with ⟨a, ha, hlate⟩ | ⟨hf, _⟩
    · exact absurd hlate (Nat.not_lt.mpr (prompt _ hdeadline a ha))
    · exact absurd (hfront.symm.trans hf) nofun

/-- A message that was heard stood at the front of the stream. -/
theorem Hears.message {deadline : Option Nanos} {m : Message}
    (h : Hears deadline l as (.answer (.ok (some m)), l')) :
    ∃ body rest, front l.limit (l.streamWith as) = .whole body rest ∧ Message.ofBody body = .ok m ∧
      l'.stream = rest ∧ l'.connection.Sound := by
  generalize hheard : Heard.answer (.ok (some m)) = heard at h
  cases h with
  | @whole body rest _ hfront _ hrest hsound =>
    have hm : Message.ofBody body = .ok m := Message.ofBody_of_map (Heard.answer.inj hheard).symm
    exact ⟨body, rest, hfront, hm, hrest, hsound m hm⟩
  | tooLong => cases hheard
  | ended _ _ houtcome =>
    rcases houtcome with rfl | rfl <;> cases hheard
  | silence => cases hheard
  | expired => cases hheard

/-- A receive that has an answer answers the waiting. -/
theorem hears_of_receives {deadline : Option Nanos} {outcome : Frame.Outcome} {c : Connection}
    (hl : l.connection.Sound) (h : l.connection.Receives (some outcome, c)) :
    Hears deadline l as (.answer outcome, { l with connection := c, coming := as }) := by
  have keeps (hlimit : c.limit = l.connection.limit) (hclosed : c.closed = l.connection.closed) :
      Keeps l as { l with connection := c, coming := as } :=
    ⟨rfl, rfl, hlimit, List.suffix_refl _, .inl, by simp only [closing, closingWith, hclosed]⟩
  cases h with
  | whole h hlimit hclosed hstream hsound =>
    refine .whole (Frame.front_append_whole hl.decoder.limit_le h _) (keeps hlimit hclosed) ?_
      hsound
    rw [stream, streamWith, hstream, hclosed]
  | tooLong h hlimit hclosed =>
    exact .tooLong (Frame.front_append_tooLong h _) (keeps hlimit hclosed)
  | ended h hend houtcome hlimit hclosed =>
    refine .ended ?_ (by rw [closingWith, hend, Bool.true_or]) houtcome (keeps hlimit hclosed)
    rw [streamWith, hend, if_pos rfl, List.append_nil]
    exact h

/-- Waiting goes on after one arrival. -/
theorem Hears.cons {deadline : Option Nanos} {a : Arrival} {r : Heard × Link}
    (h : Hears deadline (l.deliver a.event) as r) : Hears deadline l (a :: as) r := by
  have hfront : front (l.deliver a.event).limit ((l.deliver a.event).streamWith as) =
      front l.limit (l.streamWith (a :: as)) := by
    rw [limit_deliver, streamWith_deliver]
  have hclosing := closingWith_deliver l as a
  cases h with
  | whole h keeps stream sound => exact .whole (hfront ▸ h) keeps.cons stream sound
  | tooLong h keeps => exact .tooLong (hfront ▸ h) keeps.cons
  | ended h hend houtcome keeps => exact .ended (hfront ▸ h) (hclosing ▸ hend) houtcome keeps.cons
  | silence h hopen hnone keeps => exact .silence (hfront ▸ h) (hclosing ▸ hopen) hnone keeps.cons
  | expired hsome late keeps =>
    refine .expired hsome ?_ keeps.cons
    rcases late with ⟨b, hb, ht⟩ | ⟨h, hopen⟩
    · exact .inl ⟨b, List.mem_cons_of_mem a hb, ht⟩
    · exact .inr ⟨hfront ▸ h, hclosing ▸ hopen⟩

/-- Waiting is told by what can be read, whatever else a connection keeps. -/
theorem Hears.of_eq {deadline : Option Nanos} {l₁ : Link} {r : Heard × Link}
    (h : Hears deadline l₁ as r) (hlimit : l₁.limit = l.limit)
    (hstream : l₁.streamWith as = l.streamWith as)
    (hclosing : l₁.closingWith as = l.closingWith as) (hpeer : l₁.peer = l.peer)
    (htaken : l₁.taken = l.taken) (hgone : l₁.gone = l.gone) : Hears deadline l as r := by
  have keeps {l' : Link} (hk : Keeps l₁ as l') : Keeps l as l' :=
    ⟨hk.peer.trans hpeer, hk.taken.trans htaken, hk.limit.trans hlimit, hk.coming,
      hgone ▸ hk.gone, hk.closing.trans hclosing⟩
  cases h with
  | whole h hk stream sound => exact .whole (by rw [← hlimit, ← hstream, h]) (keeps hk) stream sound
  | tooLong h hk => exact .tooLong (by rw [← hlimit, ← hstream, h]) (keeps hk)
  | ended h hend houtcome hk =>
    exact .ended (by rw [← hlimit, ← hstream, h]) (hclosing ▸ hend) houtcome (keeps hk)
  | silence h hopen hnone hk =>
    exact .silence (by rw [← hlimit, ← hstream, h]) (hclosing ▸ hopen) hnone (keeps hk)
  | expired hsome late hk =>
    refine .expired hsome ?_ (keeps hk)
    rw [hlimit, hstream, hclosing] at late
    exact late

theorem hear_hears (deadline : Option Nanos) (as : List Arrival) (hl : l.connection.Sound) :
    Hears deadline l as (hear deadline l as) := by
  induction as generalizing l with
  | nil =>
    have h := hl.recv
    unfold hear
    revert h
    rcases l.connection.recv with ⟨_ | outcome, c⟩ <;> intro h
    · cases h with
      | waits hfront hopen stays =>
        have hshort : front l.limit (l.streamWith []) = .short := by
          rw [streamWith, hopen, if_neg (by decide), spoken, List.append_nil]
          exact hfront
        have hclosing : l.closingWith [] = false := by rw [closingWith, hopen]; rfl
        have keeps (now : Nanos) :
            Keeps l [] { l with connection := c, coming := [], now := now } :=
          ⟨rfl, rfl, stays.limit, List.suffix_refl _, .inl,
            by simp only [closing, closingWith, stays.closed]⟩
        cases deadline with
        | none => exact .silence hshort hclosing rfl (keeps l.now)
        | some t => exact .expired rfl (.inr ⟨hshort, hclosing⟩) (keeps _)
    · exact hears_of_receives hl h
  | cons a as ih =>
    have h := hl.recv
    unfold hear
    revert h
    rcases l.connection.recv with ⟨_ | outcome, c⟩ <;> intro h
    · cases h with
      | waits hfront hopen stays =>
        -- The clock moves on to the next arrival, which joins the stream that was read so far.
        have next : Hears deadline l (a :: as)
            (hear deadline (({ l with connection := c }.advance a.due).deliver a.event) as) := by
          have hrec := ih
            (sound_deliver (l := { l with connection := c }.advance a.due) stays.sound a.event)
          refine hrec.cons.of_eq stays.limit ?_ ?_ rfl rfl rfl
          · simp only [streamWith, advance, stays.stream, stays.closed]
          · simp only [closingWith, advance, stays.closed]
        cases deadline with
        | none => exact next
        | some t =>
          simp only
          split
          · rename_i hlate
            exact .expired rfl (.inl ⟨a, List.mem_cons_self, hlate⟩) ⟨rfl, rfl, stays.limit,
              List.suffix_refl _, .inl, by simp only [closing, closingWith, advance, stays.closed]⟩
          · exact next
    · exact hears_of_receives hl h

/-- With a deadline, waiting comes to an end. -/
theorem hear_of_deadline (t : Nanos) (as : List Arrival) (l l' : Link) :
    hear (some t) l as ≠ (.silence, l') := by
  induction as generalizing l with
  | nil =>
    unfold hear
    split <;> exact nofun
  | cons a as ih =>
    unfold hear
    split
    · exact nofun
    · simp only
      split
      · exact nofun
      · exact ih _

/-- What waiting for a message on a connection on which nothing has gone wrong can come to. -/
theorem recv_hears (hl : l.connection.Sound) (deadline : Option Nanos) :
    Hears deadline l l.coming (l.recv deadline) :=
  hear_hears deadline l.coming hl

end Link

end SumCluster.Network
