import SumCluster.Proofs.Registry.History
import SumCluster.Proofs.Session.Protocol

/-!
The quorum. A round counts the handles that are registered and alive; members whose handles are
dead, because a call outside of any round has failed, do not count. Main statement: with fewer of
them than the quorum asks for, a round and a session are refused with the two numbers and leave
every handle as it was; otherwise the round goes to exactly these handles, in the order of the
registry.
-/

namespace SumCluster

open Network (Link)
open Wire (Message TaskRequest)

namespace Registry

/-- How many handles are registered and alive. -/
def available (r : Registry) : Nat :=
  ((Finset.range r.handles.length).filter fun h => h ∈ r.members ∧ r.isAlive h = true).card

variable {r : Registry}

/-- A snapshot holds each of them once. -/
theorem length_snapshot (hr : r.Sound) : r.snapshot.length = r.available := by
  have hnodup : r.snapshot.Nodup := hr.distinct.filter _
  rw [← List.toFinset_card_of_nodup hnodup, available]
  congr 1
  ext h
  rw [List.mem_toFinset, snapshot, List.mem_filter, Finset.mem_filter, Finset.mem_range]
  constructor
  · rintro ⟨hm, ha⟩
    exact ⟨hr.numbered h hm, hm, ha⟩
  · rintro ⟨-, hm, ha⟩
    exact ⟨hm, ha⟩

end Registry

namespace Dispatcher

variable {d : Dispatcher} {r : Registry}

theorem runRound_of_lt (h : r.snapshot.length < d.minWorkers) (start : Nanos) (task : TaskRequest) :
    d.runRound r start task =
      (.error (.insufficientWorkers r.snapshot.length d.minWorkers), r) := by
  rw [runRound, Session.checkedSnapshot_of_lt h]

theorem runRound_of_le (h : d.minWorkers ≤ r.snapshot.length) (start : Nanos) (task : TaskRequest) :
    d.runRound r start task = (.ok (r.dispatch ⟨task, r.snapshot, start, d.limit⟩).1,
      (r.dispatch ⟨task, r.snapshot, start, d.limit⟩).2) := by
  rw [runRound, Session.checkedSnapshot_of_le h]

end Dispatcher

namespace Session

variable {d : Dispatcher} {r : Registry}

/-- Whatever a client sends, a session without enough workers hands nothing out. -/
theorem registry_serve_of_lt (h : r.snapshot.length < d.minWorkers) (client : Link) :
    (serve d r client).2 = r := by
  rw [serve]
  rcases read client with ⟨_ | _ | task, client'⟩
  · rfl
  · rfl
  · simp only [enter, checkedSnapshot_of_lt h]
    rfl

end Session

/-- A round is refused exactly if fewer handles are registered and alive than the quorum asks for,
with both numbers and without touching a handle; otherwise it is the round over these handles in the
order of the registry. A session that finds too few hands nothing out either, whatever its client
sends, and a client that opens with a task and listens gets the refusal. -/
theorem quorum_gates {r : Registry} (hr : r.Reachable) (d : Dispatcher) (start : Nanos)
    (task : TaskRequest) :
    ((d.runRound r start task).1 = .error (.insufficientWorkers r.available d.minWorkers) ↔
      r.available < d.minWorkers) ∧
    (r.available < d.minWorkers → (d.runRound r start task).2 = r) ∧
    (d.minWorkers ≤ r.available →
      let round : Round := ⟨task, r.members.filter r.isAlive, start, d.limit⟩
      d.runRound r start task = (.ok (r.dispatch round).1, (r.dispatch round).2)) ∧
    (r.available < d.minWorkers → ∀ client, (Session.serve d r client).2 = r) ∧
    (r.available < d.minWorkers → d.minWorkers < Word.limit64 →
      ∀ client moment, Session.Asks client task moment → ∃ client',
        Session.serve d r client = ((some ⟨Session.refusedPath, none⟩, client'), r) ∧
        client'.taken = client.taken ++ [(Message.errorResponse ⟨1,
          (ClusterError.insufficientWorkers r.available d.minWorkers).message⟩).frame]) := by
  rw [← Registry.length_snapshot hr.consistent.sound]
  refine ⟨⟨fun hrefused => ?_, fun hfew => ?_⟩, fun hfew => ?_, fun henough => ?_,
    fun hfew => ?_, fun hfew word client moment asks => ?_⟩
  · by_contra hnot
    rw [Dispatcher.runRound_of_le (Nat.not_lt.mp hnot)] at hrefused
    exact absurd hrefused nofun
  · rw [Dispatcher.runRound_of_lt hfew]
  · rw [Dispatcher.runRound_of_lt hfew]
  · exact Dispatcher.runRound_of_le henough start task
  · exact Session.registry_serve_of_lt hfew
  · exact asks.refused word hfew

/-- Two members: a call on the first has run into its deadline, so its handle is dead. -/
def oneDead : List Registry.Act :=
  [.register "a" (.fresh 100 .silent [] 0), .register "b" (.fresh 100 .silent [] 0),
    .call 0 0 ⟨[1], 0⟩ (some 5)]

theorem quorum_gates_oneDead :
    let r := Registry.after oneDead
    r.members = [0, 1] ∧ r.available = 1 ∧
    (Dispatcher.runRound ⟨2, none⟩ r 5 ⟨[1, 2, 3], 0⟩).1 = .error (.insufficientWorkers 1 2) ∧
    ∃ client', Session.serve ⟨2, none⟩ r (Session.asking ⟨[1, 2, 3], 0⟩) =
        ((some ⟨Session.refusedPath, none⟩, client'), r) ∧
      client'.taken =
        [(Message.errorResponse ⟨1, (ClusterError.insufficientWorkers 1 2).message⟩).frame] := by
  intro r
  have havailable : r.available = 1 := rfl
  obtain ⟨hrefused, -, -, -, htold⟩ :=
    quorum_gates (r := r) ⟨oneDead, rfl⟩ ⟨2, none⟩ 5 ⟨[1, 2, 3], 0⟩
  rw [havailable] at hrefused htold
  have asks : Session.Asks (Session.asking ⟨[1, 2, 3], 0⟩) ⟨[1, 2, 3], 0⟩ _ :=
    Session.asks_fresh (by decide) (by decide) (Session.opens_asking (by decide))
  exact ⟨rfl, havailable, hrefused.mpr (by decide), htold (by decide) (by decide) _ _ asks⟩

end SumCluster
