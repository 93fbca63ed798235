import SumCluster.Proofs.Wire.Ending

/-!
A connection in use: bytes arrive, the far end ends its stream, messages are asked for, in any
order. Main statement: as long as no receive has failed, a receive says what comes next of all that
there is to say about the stream, however its bytes arrived; the clean end is repeated for ever.
-/

namespace SumCluster.Wire.Connection

open Wire.Frame (front told ending outcome outcomes cut Cuts limitOf headerSize)

/-- Something that happens on a connection. -/
inductive Step where
  /-- Some bytes arrive. -/
  | arrive (bytes : Bytes)
  /-- The far end ends its stream. -/
  | close
  /-- The next message is asked for. -/
  | recv
  deriving DecidableEq, Repr

/-- A connection, and what its receives have answered so far, oldest first. -/
structure Course where
  connection : Connection
  answers : List Frame.Outcome
  deriving DecidableEq, Repr

/-- What one step comes to. A receive that has to wait gives no answer. -/
def Course.step (u : Course) : Step → Course
  | .arrive bytes => { u with connection := u.connection.arrive bytes }
  | .close => { u with connection := u.connection.close }
  | .recv => ⟨u.connection.recv.2, u.answers ++ u.connection.recv.1.toList⟩

/-- A fresh connection after some steps. -/
def course (setting : Nat) (steps : List Step) : Course :=
  steps.foldl Course.step ⟨fresh setting, []⟩

/-- What the far end sends before it ends its stream. -/
def sent : List Step → Bytes
  | [] => []
  | .arrive bytes :: steps => bytes ++ sent steps
  | .close :: _ => []
  | .recv :: steps => sent steps

/-- Whether the far end ends its stream. -/
def closes (steps : List Step) : Bool := steps.contains .close

@[simp] theorem sent_arrive (bytes : Bytes) : sent [.arrive bytes] = bytes := List.append_nil _

@[simp] theorem sent_close : sent [.close] = [] := rfl

@[simp] theorem sent_recv : sent [.recv] = [] := rfl

@[simp] theorem closes_arrive (bytes : Bytes) : closes [.arrive bytes] = false := rfl

@[simp] theorem closes_close : closes [.close] = true := rfl

@[simp] theorem closes_recv : closes [.recv] = false := rfl

theorem course_concat (setting : Nat) (steps : List Step) (s : Step) :
    course setting (steps ++ [s]) = (course setting steps).step s := by
  simp [course]

theorem sent_concat (steps : List Step) (s : Step) :
    sent (steps ++ [s]) = sent steps ++ if closes steps then [] else sent [s] := by
  induction steps with
  | nil => rfl
  | cons s' steps ih =>
    cases s' with
    | arrive bytes =>
      rw [List.cons_append, sent, ih, sent, List.append_assoc]
      rfl
    | close => rfl
    | recv =>
      rw [List.cons_append, sent, ih, sent]
      rfl

theorem closes_concat (steps : List Step) (s : Step) :
    closes (steps ++ [s]) = (closes steps || closes [s]) := by
  simp [closes]

theorem answers_isPrefix_step (u : Course) (s : Step) : u.answers <+: (u.step s).answers := by
  cases s with
  | arrive | close => exact List.prefix_rfl
  | recv => exact List.prefix_append ..

variable {c : Connection} {limit : Nat} {closed : Bool} {bytes : Bytes} {handed : List Bytes}
  {steps : List Step} {u : Course}

/-! ### As long as no receive has failed -/

theorem Open.arrive (hc : c.Open) (bytes : Bytes) : (c.arrive bytes).Open := by
  refine ⟨hc.toSound.arrive bytes, ?_⟩
  unfold Connection.arrive
  split_ifs <;> exact hc.unended

theorem Open.close (hc : c.Open) : c.close.Open := ⟨hc.toSound.close, hc.unended⟩

theorem Over.arrive (hc : c.Over) (bytes : Bytes) : c.arrive bytes = c := if_pos hc.closed

theorem Over.close (hc : c.Over) : c.close = c := by
  rw [Connection.close, ← hc.closed]

/-- Of the bytes that came, some frames were handed out, and what follows them is still there. -/
structure Going (limit : Nat) (closed : Bool) (bytes : Bytes) (c : Connection)
    (handed : List Bytes) : Prop where
  isOpen : c.Open
  atLimit : c.limit = limit
  closed : c.closed = closed
  fit : ∀ body ∈ handed, body.length ≤ limit
  stream : handed.flatMap Frame.wrap ++ c.stream = bytes

/-- All frames of what came were handed out, and then a clean end. -/
structure Done (limit : Nat) (closed : Bool) (bytes : Bytes) (c : Connection)
    (handed : List Bytes) : Prop where
  isOver : c.Over
  closed : closed = true
  /-- What the end was reported for. -/
  clean : ∃ rest, Cuts limit bytes handed rest ∧ ending limit rest = .ok none

theorem going_fresh (setting : Nat) : Going (limitOf setting) false [] (fresh setting) [] :=
  ⟨⟨sound_fresh setting, nofun⟩, rfl, rfl, nofun, rfl⟩

theorem Going.arrive (h : Going limit closed bytes c handed) (chunk : Bytes) :
    Going limit closed (bytes ++ if closed then [] else chunk) (c.arrive chunk) handed where
  isOpen := h.isOpen.arrive chunk
  atLimit := (limit_arrive ..).trans h.atLimit
  closed := (closed_arrive ..).trans h.closed
  fit := h.fit
  stream := by rw [stream_arrive, ← List.append_assoc, h.stream, h.closed]

theorem Going.close (h : Going limit closed bytes c handed) :
    Going limit true bytes c.close handed :=
  ⟨h.isOpen.close, h.atLimit, rfl, h.fit, h.stream⟩

/-! ### One receive -/

/-- All that a receive can come to. -/
inductive Goes (limit : Nat) (closed : Bool) (bytes : Bytes) (handed : List Bytes) :
    Option Frame.Outcome × Connection → Prop where
  /-- One more message is handed out. -/
  | message {body : Bytes} {m : Message} {c : Connection} (outcome : outcome body = .ok (some m))
      (going : Going limit closed bytes c (handed ++ [body])) :
      Goes limit closed bytes handed (some (.ok (some m)), c)
  /-- More has to come. -/
  | waits {c : Connection} (isOpen : closed = false) (going : Going limit closed bytes c handed) :
      Goes limit closed bytes handed (none, c)
  /-- The end is clean. -/
  | ends {c : Connection} (done : Done limit closed bytes c handed) :
      Goes limit closed bytes handed (some (.ok none), c)
  | fails {e : ProtocolError} {c : Connection} :
      Goes limit closed bytes handed (some (.error e), c)

theorem Going.recv (h : Going limit closed bytes c handed) :
    Goes limit closed bytes handed c.recv := by
  cases hf : front c.limit c.stream with
  | whole body rest =>
    obtain ⟨c', hrecv, hlimit, hclosed, hstream, hsound⟩ := h.isOpen.toSound.recv.of_whole hf
    obtain ⟨hbytes, hbody⟩ := Frame.eq_wrap_of_front hf
    cases hm : Message.ofBody body with
    | ok m =>
      rw [hm] at hrecv
      rw [hrecv]
      have hopen : c'.Open := ⟨hsound m hm, fun _ => readable_of_message hrecv⟩
      refine .message (by rw [outcome, hm]; rfl) ⟨hopen, hlimit.trans h.atLimit,
        hclosed.trans h.closed, ?_, ?_⟩
      · rw [List.forall_mem_append, List.forall_mem_singleton]
        exact ⟨h.fit, h.atLimit ▸ hbody⟩
      · rw [← h.stream, hbytes, hstream, List.flatMap_append, List.flatMap_singleton,
          List.append_assoc]
    | error e =>
      rw [hm] at hrecv
      rw [hrecv]
      exact .fails
  | tooLong =>
    obtain ⟨c', hrecv⟩ := h.isOpen.toSound.recv.of_tooLong hf
    rw [hrecv]
    exact .fails
  | short =>
    cases hclosed : c.closed with
    | false =>
      obtain ⟨c', hrecv, stays⟩ := h.isOpen.toSound.recv.of_short hf hclosed
      rw [hrecv]
      exact .waits (h.closed.symm.trans hclosed) ⟨stays.isOpen hclosed, stays.limit.trans h.atLimit,
        stays.closed.trans h.closed, h.fit, by rw [stays.stream, h.stream]⟩
    | true =>
      obtain ⟨o, c', hrecv, hend, hover⟩ := h.isOpen.recv_of_closed hclosed hf
      rw [hrecv]
      rcases Frame.ending_eq_none_or_error c.limit c.stream with hnone | ⟨e, he⟩
      · obtain rfl := hend.symm.trans hnone
        have hstop : Cuts c.limit c.stream [] c.stream :=
          Cuts.nil h.isOpen.decoder.limit_le (by simp [hf])
        exact .ends ⟨hover rfl, h.closed.symm.trans hclosed, c.stream,
          ⟨h.stream, h.fit, h.atLimit ▸ hstop.stop⟩, h.atLimit ▸ hnone⟩
      · obtain rfl := hend.symm.trans he
        exact .fails

/-! ### All that is said -/

theorem Going.told_eq (hl : limit ≤ Frame.longest) (h : Going limit closed bytes c handed) :
    told limit closed bytes = handed.map outcome ++ told limit closed c.stream := by
  rw [← h.stream, Frame.told_frames hl _ h.fit]

theorem Going.recv_told (h : Going limit closed bytes c handed) :
    c.recv.1 = (told limit closed c.stream).head? := by
  rw [h.isOpen.recv_told, h.atLimit, h.closed]

theorem Done.told_eq (hl : limit ≤ Frame.longest) (h : Done limit closed bytes c handed) :
    told limit closed bytes = handed.map outcome ++ [.ok none] := by
  obtain ⟨rest, hcuts, hclean⟩ := h.clean
  rw [told, h.closed, if_pos rfl, Frame.cut_of_cuts hl hcuts, hclean]

/-- Where a connection stands on which no receive has failed. -/
inductive Stands (limit : Nat) (closed : Bool) (bytes : Bytes) : Course → Prop where
  | going {c : Connection} {handed : List Bytes} (h : Going limit closed bytes c handed) :
      Stands limit closed bytes ⟨c, handed.map outcome⟩
  | done {c : Connection} {handed : List Bytes} (n : Nat) (h : Done limit closed bytes c handed) :
      Stands limit closed bytes ⟨c, handed.map outcome ++ List.replicate (n + 1) (.ok none)⟩

theorem Going.step (h : Going limit closed bytes c handed) (s : Step)
    (healthy : ∀ e, .error e ∉ (Course.step ⟨c, handed.map outcome⟩ s).answers) :
    Stands limit (closed || closes [s]) (bytes ++ if closed then [] else sent [s])
      (Course.step ⟨c, handed.map outcome⟩ s) := by
  cases s with
  | arrive chunk =>
    rw [closes_arrive, Bool.or_false, sent_arrive]
    exact .going (h.arrive chunk)
  | close =>
    rw [closes_close, Bool.or_true, sent_close, ite_self, List.append_nil]
    exact .going h.close
  | recv =>
    rw [closes_recv, Bool.or_false, sent_recv, ite_self, List.append_nil]
    rw [Course.step] at healthy ⊢
    have hgoes := h.recv
    generalize c.recv = r at hgoes healthy ⊢
    cases hgoes with
    | message houtcome hgoing =>
      rw [← houtcome, Option.toList_some, ← List.map_singleton, ← List.map_append]
      exact .going hgoing
    | waits _ hgoing =>
      rw [Option.toList_none, List.append_nil]
      exact .going hgoing
    | ends hdone => exact .done 0 hdone
    | fails => exact absurd (List.mem_append_right _ (List.mem_singleton_self _)) (healthy _)

/-- After a clean end nothing changes any more, and a receive repeats it. -/
theorem Done.step (n : Nat) (h : Done limit closed bytes c handed) (s : Step) :
    Stands limit (closed || closes [s]) (bytes ++ if closed then [] else sent [s])
      (Course.step ⟨c, handed.map outcome ++ List.replicate (n + 1) (.ok none)⟩ s) := by
  obtain ⟨hover, rfl, hclean⟩ := h
  rw [Bool.true_or, if_pos rfl, List.append_nil]
  cases s with
  | arrive chunk =>
    rw [Course.step, hover.arrive]
    exact .done n ⟨hover, rfl, hclean⟩
  | close =>
    rw [Course.step, hover.close]
    exact .done n ⟨hover, rfl, hclean⟩
  | recv =>
    rw [Course.step, hover.recv, Option.toList_some, List.append_assoc, ← List.replicate_succ']
    exact .done (n + 1) ⟨hover, rfl, hclean⟩

theorem Stands.step (h : Stands limit closed bytes u) (s : Step)
    (healthy : ∀ e, .error e ∉ (u.step s).answers) :
    Stands limit (closed || closes [s]) (bytes ++ if closed then [] else sent [s]) (u.step s) := by
  cases h with
  | going h => exact h.step s healthy
  | done n h => exact h.step n s

theorem stands_course (setting : Nat) {steps : List Step}
    (healthy : ∀ e, .error e ∉ (course setting steps).answers) :
    Stands (limitOf setting) (closes steps) (sent steps) (course setting steps) := by
  induction steps using List.reverseRecOn with
  | nil => exact .going (going_fresh setting)
  | append_singleton steps s ih =>
    rw [course_concat] at healthy ⊢
    rw [closes_concat, sent_concat]
    exact (ih fun e he => healthy e ((answers_isPrefix_step _ s).subset he)).step s healthy

/-- A receive says what comes next. -/
theorem Stands.recv_eq (hl : limit ≤ Frame.longest) (h : Stands limit closed bytes u) :
    u.connection.recv.1 = (told limit closed bytes)[u.answers.length]?.or
      (if closed then some (.ok none) else none) := by
  cases h with
  | @going c handed h =>
    have hnext : (handed.map outcome ++ told limit closed c.stream)[(handed.map outcome).length]? =
        (told limit closed c.stream).head? := by
      rw [List.getElem?_append_right (Nat.le_refl _), Nat.sub_self, List.head?_eq_getElem?]
    rw [h.told_eq hl, hnext, h.recv_told]
    cases closed with
    | false => exact Option.or_none.symm
    | true => rw [told, if_pos rfl, List.head?_append]; simp
  | @done c handed n h =>
    rw [h.told_eq hl, h.isOver.recv, h.closed, List.getElem?_eq_none (by simp)]
    rfl

end SumCluster.Wire.Connection
