import SumCluster.Proofs.Admission
import SumCluster.Proofs.Dispatch.Outcome
import SumCluster.Proofs.Partition
import SumCluster.Proofs.Session.Stages

/-!
The answer to a task. With enough workers that do their work, whichever way each of them computes,
the client gets the sum of what they make of their shares, or a refusal if two of them come to the
same. If all of them add, the sum is the one that a single worker would come to.
-/

namespace SumCluster

open Network (Link)
open Wire (Message TaskRequest)

/-- What the workers of a snapshot, each in its own mode, make of their shares of a task. -/
def shareValues (mode : HandleId → ComputeMode) (task : TaskRequest) (snapshot : List HandleId) :
    List Int32 :=
  List.zipWith (fun slice h => (compute (mode h) slice task.delayMs).value)
    (split task.values snapshot.length) snapshot

variable {mode : HandleId → ComputeMode} {task : TaskRequest} {snapshot : List HandleId}

theorem length_shareValues (mode : HandleId → ComputeMode) (task : TaskRequest)
    (snapshot : List HandleId) : (shareValues mode task snapshot).length =
    min task.values.length snapshot.length := by
  rw [shareValues, List.length_zipWith, length_split]
  omega

/-- Workers that all add come to the sums of the shares. -/
theorem shareValues_of_honest (h : ∀ h ∈ snapshot, mode h = .honest) :
    shareValues mode task snapshot = (split task.values snapshot.length).map wrappingSum := by
  have hlength : (split task.values snapshot.length).length ≤ snapshot.length := by
    rw [length_split]
    exact Nat.min_le_left _ _
  conv_rhs => rw [← List.map_fst_zip hlength, List.map_map]
  rw [shareValues, ← List.map_uncurry_zip_eq_zipWith]
  refine List.map_congr_left fun p hp => ?_
  change (compute (mode p.2) p.1 task.delayMs).value = wrappingSum p.1
  rw [h p.2 (List.of_mem_zip hp).2, compute_honest_value]

/-- The sum over the shares of workers that all add is the sum over the whole. -/
theorem wrappingSum_shareValues (hsome : 0 < snapshot.length)
    (h : ∀ h ∈ snapshot, mode h = .honest) : wrappingSum (shareValues mode task snapshot) =
      (baseline task.values task.delayMs).value := by
  rw [shareValues_of_honest h, wrappingSum_map_wrappingSum, flatten_split _ hsome, baseline,
    compute_honest_value]

/-- The workers of a snapshot can all do their shares of a task. -/
structure Registry.Manages (r : Registry) (mode : HandleId → ComputeMode) (task : TaskRequest)
    (limit : Option Nanos) : Prop where
  /-- Every handle is at rest on a worker. -/
  employs : ∀ h ∈ r.snapshot, ∃ handle, r.handles[h]? = some handle ∧ handle.Employs (mode h)
  /-- Every share goes through. -/
  carries : ∀ (i : Nat) h handle slice, r.snapshot[i]? = some h → r.handles[h]? = some handle →
    (split task.values r.snapshot.length)[i]? = some slice →
      handle.Carries (mode h) limit ⟨slice, task.delayMs⟩

variable {r : Registry} {limit : Option Nanos}

theorem Registry.Manages.served (hm : r.Manages mode task limit) (start : Nanos) :
    Dispatch.Served r (Round.errands ⟨task, r.snapshot, start, limit⟩ 0)
      (fun h q => ∀ handle, r.handles[h]? = some handle → handle.Carries (mode h) limit q)
      (fun h q => (compute (mode h) q.values q.delayMs).value) limit := by
  refine ⟨?_, ?_, ?_⟩
  · intro e he
    obtain ⟨i, p, h, _, hh, rfl⟩ := Round.of_mem_errands he
    obtain ⟨handle, hhandle, hemploys⟩ := hm.employs h (List.mem_of_getElem? hh)
    exact ⟨handle, hhandle, (hemploys.serves limit).mono fun q hq => hq handle hhandle⟩
  · intro e he handle hhandle
    obtain ⟨i, p, h, hp, hh, rfl⟩ := Round.of_mem_errands he
    refine hm.carries i h handle (p.slice task.values) hh hhandle ?_
    rw [split, List.getElem?_map, hp]
    rfl
  · intro e he
    obtain ⟨i, p, h, _, _, rfl⟩ := Round.of_mem_errands he
    rfl

/-- The outcome of a round whose workers can all do their shares. -/
theorem Registry.Manages.dispatch (hm : r.Manages mode task limit) (start : Nanos) :
    ∃ o, (r.dispatch ⟨task, r.snapshot, start, limit⟩).1 = some o ∧
      o.partials.map (·.value) = shareValues mode task r.snapshot := by
  obtain ⟨elapsed, houtcome, _⟩ := Registry.dispatch_answers (hm.served start)
  exact ⟨_, houtcome, Registry.map_value_partials ..⟩

/-- The answer of a cluster to a task. -/
theorem Session.serve_answers {d : Dispatcher} {client : Link} (sound : client.connection.Sound)
    (opens : Opens client task) (positive : 1 ≤ d.minWorkers)
    (quorum : d.minWorkers ≤ r.snapshot.length) (manages : r.Manages mode task d.limit) :
    ∃ record client' r', ∃ m : Message, serve d r client = ((some record, client'), r') ∧
      (m.toBody.length ≤ client.limit →
        client'.taken = client.taken ++ if client'.gone then [] else [m.frame]) ∧
      (client'.gone = true → client.Leaving) ∧
      ((shareValues mode task r.snapshot).Nodup → ∃ baselineMs distributedMs, m = .clientResponse
        ⟨wrappingSum (shareValues mode task r.snapshot), baselineMs, distributedMs⟩) ∧
      (¬(shareValues mode task r.snapshot).Nodup → m = .errorResponse
        ⟨3, (ClusterError.consensusFailed (shareValues mode task r.snapshot).toFinset.card
          (min task.values.length r.snapshot.length)).message⟩) ∧
      ((∀ h ∈ r.snapshot, mode h = .honest) → ∀ response, m = .clientResponse response →
        response.sum = (baseline task.values task.delayMs).value) := by
  obtain ⟨client', hread, keeps⟩ := opens.read sound
  obtain ⟨o, hround, hvalues⟩ := manages.dispatch
    (client'.now + (baseline task.values task.delayMs).slept)
  -- The reply is one of two, whichever way the values fall.
  by_cases hnodup : (shareValues mode task r.snapshot).Nodup
  · have hm := reply?_of_nodup task (hvalues ▸ hnodup)
    obtain ⟨record, client'', hserve, hreplies⟩ :=
      serve_of_task hread keeps quorum hround hm
    refine ⟨record, client'', _, _, hserve, hreplies.taken, hreplies.leaving,
      ?_, ?_, ?_⟩
    · intro _
      exact ⟨_, _, by rw [hvalues]⟩
    · intro h
      exact absurd hnodup h
    · intro hhonest response hresponse
      obtain rfl := Message.clientResponse.inj hresponse
      rw [hvalues]
      exact wrappingSum_shareValues (Nat.lt_of_lt_of_le positive quorum) hhonest
  · have hm := reply?_of_not_nodup task (hvalues ▸ hnodup)
    obtain ⟨record, client'', hserve, hreplies⟩ :=
      serve_of_task hread keeps quorum hround hm
    refine ⟨record, client'', _, _, hserve, hreplies.taken, hreplies.leaving,
      ?_, ?_, ?_⟩
    · intro h
      exact absurd h hnodup
    · intro _
      rw [← length_shareValues mode, ← hvalues, List.length_map]
      rfl
    · intro _ response hresponse
      cases hresponse

/-- The connection of a worker that has said its handshake. -/
def Admission.greeted (workerId : String) (mode : ComputeMode) : Link :=
  .fresh 1000 (Worker.peer workerId mode) [⟨0, .bytes (Worker.handshake workerId).frame⟩] 0

/-- A registry that two workers have joined, one that adds and one that multiplies. -/
def Registry.addingAndMultiplying : Registry :=
  (Admission.register (Admission.register .empty (Admission.greeted "adder" .honest)).2.1
    (Admission.greeted "multiplier" .faulty)).2.1

/-- The modes of the two. -/
def addingThenMultiplying (h : HandleId) : ComputeMode := if h = 0 then .honest else .faulty

theorem Admission.greets_greeted (workerId : String) (mode : ComputeMode)
    (fits : (Worker.handshake workerId).toBody.length ≤ 1000) :
    Greets workerId mode (greeted workerId mode) := by
  refine ⟨⟨_, _, _, rfl⟩, ?_, List.append_nil _, fits⟩
  intro a ha
  obtain rfl := List.mem_singleton.mp ha
  exact ⟨_, rfl, Message.frame_ne_nil _⟩

theorem Registry.addingAndMultiplying_handles : ∃ first second,
    Registry.addingAndMultiplying = ⟨[.fresh "adder" first, .fresh "multiplier" second], [0, 1]⟩ ∧
      (Handle.fresh "adder" first).Employs .honest ∧ first.limit = 1000 ∧
      (Handle.fresh "multiplier" second).Employs .faulty ∧ second.limit = 1000 := by
  obtain ⟨first, hfirst, hadds, hlimit⟩ := (Admission.greets_greeted "adder" .honest
    (by decide)).register (by decide) .empty
  obtain ⟨second, hsecond, hmultiplies, hlimit'⟩ := (Admission.greets_greeted
    "multiplier" .faulty (by decide)).register (by decide)
      (Registry.empty.register "adder" first).2
  refine ⟨first, second, ?_, hadds, hlimit, hmultiplies, hlimit'⟩
  rw [addingAndMultiplying, hfirst, hsecond]
  rfl

theorem Registry.snapshot_addingAndMultiplying :
    Registry.addingAndMultiplying.snapshot = [0, 1] := by
  obtain ⟨first, second, hr, _⟩ := Registry.addingAndMultiplying_handles
  rw [hr]
  rfl

/-- The two workers can do their shares of a small task. -/
theorem Registry.addingAndMultiplying_manages :
    Registry.addingAndMultiplying.Manages addingThenMultiplying ⟨[1, 2, 4], 0⟩ none := by
  obtain ⟨first, second, hr, hadds, hlimit, hmultiplies, hlimit'⟩ :=
    Registry.addingAndMultiplying_handles
  rw [hr]
  have hsnapshot : Registry.snapshot ⟨[.fresh "adder" first, .fresh "multiplier" second], [0, 1]⟩ =
      [0, 1] := rfl
  constructor
  · intro h hh
    rw [hsnapshot] at hh
    obtain rfl | rfl : h = 0 ∨ h = 1 := by simpa using hh
    · exact ⟨_, rfl, hadds⟩
    · exact ⟨_, rfl, hmultiplies⟩
  · intro i h handle slice hi hhandle hslice
    rw [hsnapshot] at hi hslice
    match i with
    | 0 =>
      obtain rfl : 0 = h := Option.some.inj hi
      obtain rfl : Handle.fresh "adder" first = handle := Option.some.inj hhandle
      obtain rfl : [1, 2] = slice := Option.some.inj hslice
      exact Handle.carries_of_short hlimit (by decide) (by decide)
        (show 15 + "adder".utf8ByteSize ≤ 1000 by decide)
    | 1 =>
      obtain rfl : 1 = h := Option.some.inj hi
      obtain rfl : Handle.fresh "multiplier" second = handle := Option.some.inj hhandle
      obtain rfl : [4] = slice := Option.some.inj hslice
      exact Handle.carries_of_short hlimit' (by decide) (by decide)
        (show 15 + "multiplier".utf8ByteSize ≤ 1000 by decide)
    | i + 2 => simp at hi

/-- A client that sends one task and then listens. -/
def Session.asking (task : TaskRequest) : Link :=
  .fresh 1000 .silent [⟨0, .bytes (Message.taskRequest task).frame⟩] 0

theorem Session.opens_asking {task : TaskRequest}
    (fits : (Message.taskRequest task).toBody.length ≤ 1000) : Opens (asking task) task :=
  ⟨_, [], rfl, fits, Message.ofBody_toBody_of_le (Nat.le_trans fits (by decide))⟩

/-- Three values for two workers: one adds up the first two, the other has the last one. -/
theorem Session.serve_answers_adding_and_multiplying :
    ∃ record client' r', ∃ m : Message,
      serve ⟨2, none⟩ Registry.addingAndMultiplying (asking ⟨[1, 2, 4], 0⟩) =
        ((some record, client'), r') ∧
      (∃ baselineMs distributedMs, m = .clientResponse ⟨7, baselineMs, distributedMs⟩) ∧
      client'.taken = [m.frame] := by
  have hsnapshot := Registry.snapshot_addingAndMultiplying
  obtain ⟨record, client', r', m, hserve, htaken, hgone, hsum, _⟩ :=
    Session.serve_answers (d := ⟨2, none⟩) (Wire.Connection.sound_fresh 1000)
      (opens_asking (by decide)) (by decide) (by rw [hsnapshot]; decide)
      Registry.addingAndMultiplying_manages
  rw [hsnapshot] at hsum
  obtain ⟨baselineMs, distributedMs, rfl⟩ := hsum (by decide)
  refine ⟨record, client', r', _, hserve, ⟨baselineMs, distributedMs, rfl⟩, ?_⟩
  have hstays : client'.gone = false := by
    rw [Bool.eq_false_iff]
    intro h
    rcases hgone h with h | ⟨a, ha, he⟩
    · cases h
    · obtain rfl := List.mem_singleton.mp ha
      cases he
  rw [htaken (Nat.le_trans (Message.length_clientResponse_le _) (by decide)), hstays]
  rfl

end SumCluster
