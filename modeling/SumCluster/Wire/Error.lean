import SumCluster.Text.Integer
import SumCluster.Wire.Message

/-!
What can go wrong on a connection: the stream itself fails, a message cannot be written, a frame
cannot be read, or a message is well formed but out of place. After any of these the connection is
given up.
-/

namespace SumCluster.Wire

open Text (natText)

/-- A failure on a connection. `causes` are the texts of what lies behind it, nearest first. -/
inductive ProtocolError where
  | io (cause : String)
  | encode (detail : String) (causes : List String)
  | malformed (detail : String) (causes : List String)
  | unexpected (expected actual : String)
  deriving DecidableEq, Repr

namespace ProtocolError

/-- The text of the error. -/
def message : ProtocolError → String
  | io cause => "Connection I/O failed: " ++ cause
  | encode detail _ => "Failed to encode message: " ++ detail
  | malformed detail _ => "Malformed frame: " ++ detail
  | unexpected expected actual =>
    "Unexpected message: expected " ++ expected ++ ", got " ++ actual

/-- The texts of what lies behind the error, nearest first. -/
def causes : ProtocolError → List String
  | io cause => [cause]
  | encode _ causes => causes
  | malformed _ causes => causes
  | unexpected _ _ => []

/-- A frame is longer than the connection allows. -/
def frameTooBig : ProtocolError := io "frame size too big"

/-- The stream ended inside a frame. -/
def strayBytes : ProtocolError := io "bytes remaining on stream"

/-- The far end takes nothing more. -/
def brokenPipe : ProtocolError := io "Broken pipe (os error 32)"

/-- The reader's own account of why a body is no message is not kept; this stands for it. -/
def unreadableBody : String := String.ofList ('{' :: "bincode".toList ++ ['}'])

/-- A body of `length` bytes is not the form of any message. -/
def undecodable (length : Nat) : ProtocolError :=
  malformed ("undecodable " ++ natText length ++ "-byte frame") [unreadableBody]

/-- A body goes on for `extra` bytes after its message. -/
def trailing (extra : Nat) (kind : Kind) : ProtocolError :=
  malformed (natText extra ++ " trailing bytes after " ++ kind.name) []

/-- A message of one kind came where another was due. -/
def outOfPlace (expected actual : Kind) : ProtocolError :=
  unexpected expected.name actual.name

end ProtocolError

namespace Message

/-- The handshake that is due here. -/
def asHandshake : Message → Except ProtocolError Handshake
  | handshake h => .ok h
  | m => .error (.outOfPlace .handshake m.kind)

/-- The task that is due here. -/
def asTaskRequest : Message → Except ProtocolError TaskRequest
  | taskRequest t => .ok t
  | m => .error (.outOfPlace .taskRequest m.kind)

/-- The subtask that is due here. -/
def asSubtaskRequest : Message → Except ProtocolError SubtaskRequest
  | subtaskRequest s => .ok s
  | m => .error (.outOfPlace .subtaskRequest m.kind)

/-- The subtask result that is due here. -/
def asSubtaskResult : Message → Except ProtocolError SubtaskResult
  | subtaskResult r => .ok r
  | m => .error (.outOfPlace .subtaskResult m.kind)

end Message

end SumCluster.Wire
