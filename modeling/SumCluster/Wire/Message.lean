/-!
What leader, workers and clients say to each other. A worker opens with a handshake and then answers
subtasks; a client sends one task and gets back either a response or an error.
-/

namespace SumCluster.Wire

/-- A worker's first words: who it is. -/
structure Handshake where
  workerId : String
  deriving DecidableEq, Repr

/-- A client's task: the values to add up, and a pause in milliseconds for each of them. -/
structure TaskRequest where
  values : List Int32
  delayMs : Int32
  deriving DecidableEq, Repr

/-- One worker's share of a task. -/
structure SubtaskRequest where
  values : List Int32
  delayMs : Int32
  deriving DecidableEq, Repr

/-- A worker's answer to its share. -/
structure SubtaskResult where
  sum : Int32
  workerId : String
  deriving DecidableEq, Repr

/-- The leader's answer to a task, with the times of the sequential and the distributed run. -/
structure ClientResponse where
  sum : Int32
  baselineMs : Int32
  distributedMs : Int32
  deriving DecidableEq, Repr

/-- The leader's refusal of a task. -/
structure ErrorResponse where
  code : Int32
  message : String
  deriving DecidableEq, Repr

/-- Anything that a frame can carry. -/
inductive Message where
  | handshake (h : Handshake)
  | taskRequest (t : TaskRequest)
  | subtaskRequest (s : SubtaskRequest)
  | subtaskResult (r : SubtaskResult)
  | clientResponse (r : ClientResponse)
  | errorResponse (e : ErrorResponse)
  deriving DecidableEq, Repr

/-- The kinds of message, in the order of their numbers on the wire. -/
inductive Kind where
  | handshake
  | taskRequest
  | subtaskRequest
  | subtaskResult
  | clientResponse
  | errorResponse
  deriving DecidableEq, Repr

namespace Kind

/-- The name of a kind in messages to people and in JSON. -/
def name : Kind → String
  | handshake => "Handshake"
  | taskRequest => "TaskRequest"
  | subtaskRequest => "SubtaskRequest"
  | subtaskResult => "SubtaskResult"
  | clientResponse => "ClientResponse"
  | errorResponse => "ErrorResponse"

/-- All kinds, each at the place of its number. -/
def all : List Kind :=
  [handshake, taskRequest, subtaskRequest, subtaskResult, clientResponse, errorResponse]

/-- The number of a kind on the wire. -/
def number : Kind → Nat
  | handshake => 0
  | taskRequest => 1
  | subtaskRequest => 2
  | subtaskResult => 3
  | clientResponse => 4
  | errorResponse => 5

/-- The kind with a number. -/
def ofNumber? (n : Nat) : Option Kind := all[n]?

end Kind

/-- The kind of a message. -/
def Message.kind : Message → Kind
  | handshake _ => .handshake
  | taskRequest _ => .taskRequest
  | subtaskRequest _ => .subtaskRequest
  | subtaskResult _ => .subtaskResult
  | clientResponse _ => .clientResponse
  | errorResponse _ => .errorResponse

end SumCluster.Wire
