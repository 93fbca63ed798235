import SumCluster.Proofs.Wire.Course

/-!
When the end of a stream is reported. Main statement: as long as no receive has failed, a clean end
is reported exactly if the stream was ended, all its frames were handed out and nothing is left of
it but, at most, a length whose body has not begun; any other rest is an error. After a failure the
next receive reports an end in any case, and otherwise only a stream that was ended has one.
-/

namespace SumCluster.Wire.Connection

open Wire.Frame (front told ending outcome cut Cuts limitOf headerSize)

variable {c c₁ c' : Connection} {limit : Nat} {closed : Bool} {bytes : Bytes} {handed : List Bytes}
  {u : Course}

/-! ### Whatever happened before -/

/-- The end is read last. -/
def ReadsEndLast (c : Connection) : Prop := c.ended = true → c.closed = true ∧ c.waiting = []

/-- What a receive that gives this answer, or none, comes to in any state. -/
structure Gives (c : Connection) (answer : Option Frame.Outcome) (c' : Connection) : Prop where
  closed : c'.closed = c.closed
  failed : c'.failed = true ↔ ∃ e, answer = some (.error e)
  last : ReadsEndLast c'
  silent : answer = some (.ok none) → c.closed = true

theorem gives_none (hlast : c.ReadsEndLast) (hf : c.failed = false) : Gives c none c :=
  ⟨rfl, by simp [hf], hlast, nofun⟩

theorem Gives.of_closed {answer : Option Frame.Outcome} (h : Gives c₁ answer c')
    (hclosed : c₁.closed = c.closed) : Gives c answer c' :=
  ⟨h.closed.trans hclosed, h.failed, h.last, fun hanswer => hclosed ▸ h.silent hanswer⟩

theorem Gives.healthy (h : Gives c none c') : c'.failed = false := by
  have hnone := mt h.failed.mp nofun
  exact Bool.eq_false_iff.mpr hnone

theorem gives_afterStep (hlast : c.ReadsEndLast) (r : Frame.Outcome × Frame.Decoder × Bytes)
    (hr : r.1 = .ok none → c.closed = true) :
    Gives c (some (c.afterStep r).1) (c.afterStep r).2 := by
  obtain ⟨outcome, decoder, buffer⟩ := r
  refine ⟨rfl, ?_, hlast, fun h => hr (Option.some.inj h)⟩
  cases outcome <;> simp [afterStep]

/-- What reading comes to that may have to be gone on with. -/
def Tried (c : Connection) : Answer ⊕ Connection → Prop
  | .inl (outcome, c') => Gives c (some outcome) c'
  | .inr c' => Gives c none c'

theorem tried_fromBuffer (hlast : c.ReadsEndLast) (hf : c.failed = false) :
    Tried c c.fromBuffer := by
  unfold fromBuffer
  split_ifs with hr hended
  · exact gives_afterStep hlast _ fun _ => (hlast hended).1
  · obtain ⟨outcome, decoder, buffer⟩ := c.decoder.decode c.buffer
    match outcome with
    | .ok none => exact ⟨rfl, by simp, hlast, nofun⟩
    | .ok (some _) | .error _ => exact gives_afterStep hlast (_, decoder, buffer) nofun
  · exact gives_none hlast hf

theorem tried_fromWaiting (hlast : c.ReadsEndLast) (hf : c.failed = false) :
    Tried c c.fromWaiting := by
  unfold fromWaiting
  split_ifs
  · exact gives_none hlast hf
  · have hread := tried_fromBuffer (c := { c with
      buffer := c.buffer ++ c.waiting, waiting := [], ended := false, readable := true })
      (fun h => nomatch h) hf
    revert hread
    cases fromBuffer _ with
    | inl => exact fun h => h.of_closed rfl
    | inr => exact fun h => h.of_closed rfl

theorem waiting_fromBuffer (h : c.fromBuffer = .inr c') : c'.waiting = c.waiting := by
  unfold fromBuffer at h
  split_ifs at h
  · split at h
    · rename_i hstep
      obtain ⟨-, rfl⟩ := Prod.mk.inj hstep
      rw [← Sum.inr.inj h]
    · cases h
  · rw [Sum.inr.inj h]

/-- When all of it was read, nothing waits any more. -/
theorem waiting_fromWaiting (h : c.fromWaiting = .inr c') : c'.waiting = [] := by
  unfold fromWaiting at h
  split_ifs at h with hw
  · rw [← Sum.inr.inj h, hw]
  · exact waiting_fromBuffer h

theorem gives_fromEnd (hlast : c.ReadsEndLast) (hf : c.failed = false) (hw : c.waiting = []) :
    Gives c c.fromEnd.1 c.fromEnd.2 := by
  unfold fromEnd
  split_ifs with hclosed hended
  · exact ⟨rfl, by simp [hf], hlast, fun _ => hclosed⟩
  · have hend : ReadsEndLast { c with ended := true, readable := true } := fun _ => ⟨hclosed, hw⟩
    exact (gives_afterStep hend _ fun _ => hclosed).of_closed rfl
  · exact gives_none hlast hf

theorem gives_recv (hlast : c.ReadsEndLast) (hf : c.failed = false) :
    Gives c c.recv.1 c.recv.2 := by
  have h₁ := tried_fromBuffer hlast hf
  rcases hbuffer : c.fromBuffer with answer | c₁ <;> rw [hbuffer] at h₁
  · rw [recv_of_buffer hf hbuffer]
    exact h₁
  have h₂ := tried_fromWaiting h₁.last h₁.healthy
  rcases hwaiting : c₁.fromWaiting with answer | c₂ <;> rw [hwaiting] at h₂
  · rw [recv_of_waiting hf hbuffer hwaiting]
    exact h₂.of_closed h₁.closed
  · rw [recv_of_passed hf hbuffer hwaiting]
    have hend := gives_fromEnd h₂.last h₂.healthy (waiting_fromWaiting hwaiting)
    exact hend.of_closed (h₂.closed.trans h₁.closed)

/-- What a connection and its answers have in common after any steps. -/
structure Course.Kept (closed : Bool) (u : Course) : Prop where
  closed : u.connection.closed = closed
  failed : u.connection.failed = true ↔ ∃ e, u.answers.getLast? = some (.error e)
  last : u.connection.ReadsEndLast

theorem Course.Kept.step (h : u.Kept closed) (s : Step) :
    (u.step s).Kept (closed || closes [s]) := by
  obtain ⟨c, answers⟩ := u
  obtain ⟨rfl, hfailed, hlast⟩ := h
  cases s with
  | arrive bytes =>
    have harrive : (c.arrive bytes).failed = c.failed ∧ (c.arrive bytes).ReadsEndLast := by
      unfold arrive
      split_ifs with hclosed
      · exact ⟨rfl, hlast⟩
      · exact ⟨rfl, fun hended => absurd (hlast hended).1 hclosed⟩
    refine ⟨?_, ?_, harrive.2⟩
    · exact (closed_arrive c bytes).trans (Bool.or_false _).symm
    · exact harrive.1 ▸ hfailed
  | close =>
    exact ⟨(Bool.or_true _).symm, hfailed, fun hended => ⟨rfl, (hlast hended).2⟩⟩
  | recv =>
    by_cases hf : c.failed = true
    · rw [Course.step, recv_of_failed hf]
      exact ⟨(Bool.or_false _).symm, by simp, hlast⟩
    · have hgives := gives_recv hlast (Bool.eq_false_iff.mpr hf)
      refine ⟨hgives.closed.trans (Bool.or_false _).symm, hgives.failed.trans ?_, hgives.last⟩
      -- A receive that had to wait leaves the answers as they are, and none of them failed last.
      cases hanswer : c.recv.1 with
      | none => simpa [Course.step, hanswer, hf] using hfailed
      | some outcome => simp [Course.step, hanswer]

theorem kept_course (setting : Nat) (steps : List Step) :
    (course setting steps).Kept (closes steps) := by
  induction steps using List.reverseRecOn with
  | nil => exact ⟨rfl, by simp [course, fresh], nofun⟩
  | append_singleton steps s ih =>
    rw [course_concat, closes_concat]
    exact ih.step s

/-! ### What the next receive says -/

/-- What is left when a stream is over, or cannot be told from it. -/
def Blank (limit : Nat) (rest : Bytes) : Prop :=
  rest = [] ∨ ∃ n ≤ limit, rest = bigEndian headerSize n

/-- What the next receive says of a stream with these frames and this rest, of which some answers
were given. -/
structure Reports (limit : Nat) (closed : Bool) (bodies : List Bytes) (rest : Bytes) (u : Course) :
    Prop where
  said : ∃ n, u.answers <+: bodies.map outcome ++ List.replicate n (.ok none)
  clean : u.connection.recv.1 = some (.ok none) ↔
    closed = true ∧ bodies.length ≤ u.answers.length ∧ Blank limit rest
  next : ∀ h : u.answers.length < bodies.length,
    u.connection.recv.1 = some (outcome bodies[u.answers.length])
  broken : closed = true → bodies.length ≤ u.answers.length → ¬Blank limit rest →
    ∃ e, u.connection.recv.1 = some (.error e)

/-- The frames that were handed out are the first of the stream, and the next receive says what
comes behind them. -/
theorem Going.cuts (hl : limit ≤ Frame.longest) (h : Going limit closed bytes c handed) :
    ∃ more rest, Cuts limit bytes (handed ++ more) rest ∧
      (front limit rest = .tooLong ∨ front limit rest = .short) ∧
      c.recv.1 = (more.map outcome ++
        if closed then [ending limit rest] else Frame.refusal limit rest).head? := by
  obtain ⟨hjoin, hfit, hstop⟩ := Frame.cuts_cut hl c.stream
  refine ⟨(cut limit c.stream).1, (cut limit c.stream).2,
    ⟨?_, List.forall_mem_append.mpr ⟨h.fit, hfit⟩, hstop⟩, Frame.front_cut limit c.stream, ?_⟩
  · rw [List.flatMap_append, List.append_assoc, hjoin, h.stream]
  · rw [h.recv_told, Frame.told_eq_cut]

theorem Going.reports (hl : limit ≤ Frame.longest) (h : Going limit closed bytes c handed) :
    ∃ bodies rest, Cuts limit bytes bodies rest ∧
      Reports limit closed bodies rest ⟨c, handed.map outcome⟩ := by
  obtain ⟨more, rest, hcuts, hrest, hrecv⟩ := h.cuts hl
  refine ⟨handed ++ more, rest, hcuts, ?_⟩
  have hsaid : handed.map outcome <+:
      (handed ++ more).map outcome ++ List.replicate 0 (.ok none) := by
    rw [List.replicate_zero, List.append_nil, List.map_append]
    exact List.prefix_append ..
  cases more with
  | cons body more =>
    have hanswer : c.recv.1 = some (outcome body) := hrecv
    have hleft : ¬(handed ++ body :: more).length ≤ (handed.map outcome).length := by
      simp only [List.length_append, List.length_cons, List.length_map]
      omega
    refine ⟨⟨0, hsaid⟩, ⟨fun hnone => ?_, fun hall => absurd hall.2.1 hleft⟩, fun _ => ?_,
      fun _ hall => absurd hall hleft⟩
    · exact absurd (Option.some.inj (hanswer.symm.trans hnone)) (Frame.outcome_ne_none body)
    · simp [hanswer]
  | nil =>
    have hblank : ending limit rest = .ok none ↔ Blank limit rest :=
      Frame.ending_eq_none_iff hl hrest
    have hall : (handed ++ []).length ≤ (handed.map outcome).length := by simp
    cases closed with
    | true =>
      have hanswer : c.recv.1 = some (ending limit rest) := hrecv
      refine ⟨⟨0, hsaid⟩, ⟨fun hnone => ?_, fun hend => ?_⟩,
        fun hlt => absurd hall (Nat.not_le.mpr hlt), fun _ _ hnot => ?_⟩
      · exact ⟨rfl, hall, hblank.mp (Option.some.inj (hanswer.symm.trans hnone))⟩
      · rw [hanswer, hblank.mpr hend.2.2]
      · have hend := Frame.ending_eq_none_or_error limit rest
        obtain ⟨e, he⟩ := hend.resolve_left (mt hblank.mp hnot)
        exact ⟨e, by rw [hanswer, he]⟩
    | false =>
      have hanswer : c.recv.1 = (Frame.refusal limit rest).head? := hrecv
      refine ⟨⟨0, hsaid⟩, ⟨fun hnone => ?_, fun hend => absurd hend.1 nofun⟩,
        fun hlt => absurd hall (Nat.not_le.mpr hlt), nofun⟩
      rw [hanswer, Frame.refusal] at hnone
      split_ifs at hnone
      · exact absurd (Option.some.inj hnone) nofun
      · exact absurd hnone nofun

theorem Done.reports (hl : limit ≤ Frame.longest) (n : Nat) (h : Done limit closed bytes c handed) :
    ∃ bodies rest, Cuts limit bytes bodies rest ∧ Reports limit closed bodies rest
      ⟨c, handed.map outcome ++ List.replicate (n + 1) (.ok none)⟩ := by
  obtain ⟨rest, hcuts, hclean⟩ := h.clean
  have hfront := Frame.front_cut limit bytes
  rw [Frame.cut_of_cuts hl hcuts] at hfront
  have hblank : Blank limit rest := (Frame.ending_eq_none_iff hl hfront).mp hclean
  have hall : handed.length ≤
      (handed.map outcome ++ List.replicate (n + 1) (Except.ok none)).length := by simp
  refine ⟨handed, rest, hcuts, ⟨n + 1, List.prefix_rfl⟩, ⟨fun _ => ?_, fun _ => ?_⟩,
    fun hlt => absurd hall (Nat.not_le.mpr hlt), fun _ _ hnot => absurd hblank hnot⟩
  · exact ⟨h.closed, hall, hblank⟩
  · rw [h.isOver.recv]

theorem Stands.reports (hl : limit ≤ Frame.longest) (h : Stands limit closed bytes u) :
    ∃ bodies rest, Cuts limit bytes bodies rest ∧
      Reports limit closed bodies rest u := by
  cases h with
  | going h => exact h.reports hl
  | done n h => exact h.reports hl n

/-- As long as no receive has failed, the clean end is reported exactly if the far end has ended its
stream, all frames of it were handed out and nothing is left but, at most, a length whose body has
not begun. Any other rest is an error, and until then the next frame is handed out. After a failure
the next receive reports an end even if the stream goes on; otherwise an end is only reported of a
stream that was ended. -/
theorem recv_reports_end (setting : Nat) (steps : List Step) :
    let u := course setting steps
    ((∀ e, .error e ∉ u.answers) → ∃ bodies rest,
      Cuts (limitOf setting) (sent steps) bodies rest ∧
      Reports (limitOf setting) (closes steps) bodies rest u) ∧
    (∀ e, u.answers.getLast? = some (.error e) → u.connection.recv.1 = some (.ok none)) ∧
    (u.connection.recv.1 = some (.ok none) →
      closes steps = true ∨ ∃ e, u.answers.getLast? = some (.error e)) := by
  intro u
  have hkept : u.Kept (closes steps) := kept_course setting steps
  refine ⟨fun healthy => ?_, fun e he => ?_, fun hnone => ?_⟩
  · have hl : limitOf setting ≤ Frame.longest := Frame.limitOf_le setting
    have hstands : Stands (limitOf setting) (closes steps) (sent steps) u :=
      stands_course setting healthy
    exact hstands.reports hl
  · rw [recv_of_failed (hkept.failed.mpr ⟨e, he⟩)]
  · by_cases hf : u.connection.failed = true
    · exact .inr (hkept.failed.mp hf)
    · have hgives := gives_recv hkept.last (Bool.eq_false_iff.mpr hf)
      exact .inl (hkept.closed.symm.trans (hgives.silent hnone))

/-- A message in two pieces, then a length, and the end of the stream. -/
def greetingAndLength : List Step :=
  [.arrive [0, 0, 0, 2, 0], .recv, .arrive [0, 0, 0, 0, 3], .close, .recv]

theorem recv_reports_end_greetingAndLength :
    (course 16 greetingAndLength).answers = [.ok (some (.handshake ⟨""⟩))] ∧
    (course 16 greetingAndLength).connection.recv.1 = some (.ok none) := by
  have hanswers : (course 16 greetingAndLength).answers = [.ok (some (.handshake ⟨""⟩))] := by
    decide
  have hcuts : Cuts (limitOf 16) (sent greetingAndLength) [[0, 0]] [0, 0, 0, 3] :=
    Cuts.cons rfl (Cuts.nil (Frame.limitOf_le 16) (fun _ _ => nofun))
  obtain ⟨bodies, rest, hcuts', hreports⟩ :=
    (recv_reports_end 16 greetingAndLength).1 (by simp [hanswers])
  obtain ⟨rfl, rfl⟩ : bodies = [[0, 0]] ∧ rest = [0, 0, 0, 3] :=
    Prod.mk.inj ((Frame.cut_of_cuts (Frame.limitOf_le 16) hcuts').symm.trans
      (Frame.cut_of_cuts (Frame.limitOf_le 16) hcuts))
  exact ⟨hanswers, hreports.clean.mpr ⟨rfl, by simp [hanswers], .inr ⟨3, by decide, rfl⟩⟩⟩

/-- Right after a length the end is reported as a clean one, although the stream ends inside a
frame. -/
theorem end_reported_inside_frame : ¬∀ steps,
    (course 16 steps).connection.recv.1 = some (.ok none) →
      closes steps = true ∧ ∃ bodies : List Bytes, sent steps = bodies.flatMap Frame.wrap := by
  intro h
  obtain ⟨-, bodies, hbodies⟩ := h [.arrive [0, 0, 0, 3], .close] (by decide)
  cases bodies with
  | nil => exact absurd hbodies nofun
  | cons body bodies =>
    -- Only an empty body would be as short as that, but its length is another.
    have hlength : 4 = 4 + body.length + (bodies.flatMap Frame.wrap).length := by
      have hboth := congrArg List.length hbodies
      rwa [List.flatMap_cons, List.length_append, Frame.length_wrap] at hboth
    obtain rfl : body = [] := List.length_eq_zero_iff.mp (by omega)
    have hwrap : Frame.wrap [] = [0, 0, 0, 0] := rfl
    rw [List.flatMap_cons, hwrap] at hbodies
    simp [sent] at hbodies

end SumCluster.Wire.Connection
