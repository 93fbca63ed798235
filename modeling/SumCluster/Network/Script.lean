import SumCluster.Network.Link

/-!
Far ends that follow a script. A scripted worker takes one action for each message that it gets, and
answers honestly when the script is used up; a scripted leader says its piece after the first frame
and then ends its stream, or disappears.
-/

namespace SumCluster.Network

open Wire

/-- What a scripted worker does about one message. -/
inductive Action where
  /-- Answers with the sum of the values under its own id. -/
  | sum
  /-- Answers with the sum under another id. -/
  | sumAs (workerId : String)
  /-- Answers with some number. -/
  | value (n : Int32)
  /-- Writes some bytes, and then disappears or not. -/
  | send (bytes : Bytes) (leave : Bool)
  /-- Disappears without an answer. -/
  | close
  /-- Never answers again. -/
  | hang
  /-- Answers with the sum after some time. -/
  | slow (pause : Nanos)
  deriving DecidableEq, Repr

namespace Script

/-- The message in a frame that was sent whole. -/
def message? (frame : Bytes) : Option Message :=
  match Message.ofBody (frame.drop Frame.headerSize) with
  | .ok m => some m
  | .error _ => none

/-- The values that a message is about. -/
def values : Option Message → List Int32
  | some (.subtaskRequest s) => s.values
  | some (.taskRequest t) => t.values
  | _ => []

/-- The values of a message added up; 32-bit overflow wraps. -/
def total (m : Option Message) : Int32 := (values m).foldl (· + ·) 0

/-- The frame of a result. -/
def result (workerId : String) (sum : Int32) : Event :=
  .bytes (Frame.wrap (Message.toBody (.subtaskResult ⟨sum, workerId⟩)))

/-- What one action about one message sets off. -/
def act (workerId : String) (m : Option Message) : Action → List Arrival
  | .sum => [⟨0, result workerId (total m)⟩]
  | .sumAs other => [⟨0, result other (total m)⟩]
  | .value n => [⟨0, result workerId n⟩]
  | .send bytes leave => ⟨0, .bytes bytes⟩ :: if leave then [⟨0, .hangUp⟩] else []
  | .close => [⟨0, .hangUp⟩]
  | .hang => []
  | .slow pause => [⟨pause, result workerId (total m)⟩]

/-- A worker that follows a script. -/
def worker (workerId : String) (script : List Action) : Peer where
  react frames :=
    if (script.take (frames.length - 1)).contains .hang then []
    else act workerId (frames.getLast?.bind message?) (script[frames.length - 1]?.getD .sum)

/-- A far end that writes some bytes after the first frame, and then does one more thing. -/
def reply (bytes : Bytes) (last : Event) : Peer where
  react frames := if frames.length = 1 then [⟨0, .bytes bytes⟩, ⟨0, last⟩] else []

/-- The messages that a far end has taken. -/
def seen (l : Link) : List Message := l.taken.filterMap message?

end Script

end SumCluster.Network
