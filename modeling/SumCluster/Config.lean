import SumCluster.Clock
import SumCluster.Compute
import SumCluster.Address
import SumCluster.Error
import SumCluster.Wire.Frame

/-!
The settings of a leader and of a worker. A leader's settings make sense if it asks for at least one
worker, gives its workers some time if it limits their time at all, and allows frames of some
length.
-/

namespace SumCluster

/-- What is wrong with a leader's settings. -/
inductive ConfigError where
  | noQuorum
  | noTime
  | noFrames
  deriving DecidableEq, Repr

namespace ConfigError

/-- The complaint. -/
def detail : ConfigError → String
  | noQuorum => "min_workers must be at least 1"
  | noTime => "dispatch timeout must be positive when set"
  | noFrames => "max_frame_length must be positive"

/-- The complaint as a failure of the cluster. -/
def toError (e : ConfigError) : ClusterError := .configuration e.detail

end ConfigError

/-- The settings of a leader. -/
structure LeaderConfig where
  /-- Where clients connect. -/
  clientAddr : Endpoint
  /-- Where workers register. -/
  workerAddr : Endpoint
  /-- How many workers a round needs. -/
  minWorkers : Nat
  /-- How long each call to a worker may take; without it, as long as it likes. -/
  dispatchTimeout : Option Nanos
  /-- The longest frame body. -/
  maxFrameLength : Nat
  deriving DecidableEq, Repr

namespace LeaderConfig

/-- How many workers a round needs when nobody says otherwise. -/
def defaultMinWorkers : Nat := 3

/-- The settings when nobody says otherwise. -/
def default : LeaderConfig where
  clientAddr := ⟨.v4 127 0 0 1, 0, 8000⟩
  workerAddr := ⟨.v4 127 0 0 1, 0, 8001⟩
  minWorkers := defaultMinWorkers
  dispatchTimeout := none
  maxFrameLength := Wire.Frame.defaultLimit

/-- The default settings at other addresses. -/
def listening (clientAddr workerAddr : Endpoint) : LeaderConfig :=
  { default with clientAddr, workerAddr }

/-- Checks the settings; the quorum is looked at first, then the time, then the frames. -/
def validate (c : LeaderConfig) : Except ConfigError Unit :=
  if c.minWorkers = 0 then .error .noQuorum
  else if c.dispatchTimeout = some 0 then .error .noTime
  else if c.maxFrameLength = 0 then .error .noFrames
  else .ok ()

end LeaderConfig

/-- The settings of a worker. -/
structure WorkerConfig where
  /-- Where the leader registers workers, as `host:port`. -/
  leaderAddr : String
  /-- The id that the worker gives. -/
  workerId : String
  mode : ComputeMode
  deriving DecidableEq, Repr

namespace WorkerConfig

/-- An id made from 122 random bits: 32 hexadecimal digits in groups of 8, 4, 4, 4 and 12, of which
one names the version, four, and the two top bits of another the variant. -/
def randomId (bits : Nat) : String :=
  "worker-" ++ "-".intercalate
    ([Text.hexFixed 8 bits, Text.hexFixed 4 (bits >>> 32), '4' :: Text.hexFixed 3 (bits >>> 48),
      Text.hexChar (8 + (bits >>> 60) % 4) :: Text.hexFixed 3 (bits >>> 62),
      Text.hexFixed 12 (bits >>> 74)].map String.ofList)

/-- Whether a text is some lower-case hexadecimal digits. -/
def isHex (cs : List Char) : Bool := cs.all fun c => (c.isDigit || ('a' ≤ c && c ≤ 'f'))

/-- Whether an id has the form of a random one. -/
def isRandomId (id : String) : Bool :=
  match Text.splitOn '-' id.toList with
  | [word, a, b, '4' :: c, v :: d, e] =>
    word == "worker".toList && [a, b, c, d, e].map List.length == [8, 4, 3, 3, 12] &&
      isHex (a ++ b ++ c ++ d ++ e) && "89ab".toList.contains v
  | _ => false

/-- The settings of a worker that has not chosen its id. -/
def fresh (leaderAddr : String) (bits : Nat) : WorkerConfig := ⟨leaderAddr, randomId bits, .honest⟩

end WorkerConfig

end SumCluster
