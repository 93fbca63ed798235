import SumCluster.Wire.Frame

/-!
The receiving side of a connection. Bytes arrive whenever the far end sends them and wait; a receive
decodes what was read before, and only when that is no whole frame reads what waits. After an error
the next receive reports no message, and the one after it reads on before it decodes again. Once the
far end has ended its stream, the frames still in the buffer are handed out, a rest that is no frame
is an error, and from then on there is no message.
-/

namespace SumCluster.Wire

/-- The receiving side of a connection. -/
structure Connection where
  /-- Cuts the buffer into frames. -/
  decoder : Frame.Decoder
  /-- What was read and not yet decoded. -/
  buffer : Bytes
  /-- What arrived and was not yet read. -/
  waiting : Bytes
  /-- The far end has ended its stream. -/
  closed : Bool
  /-- The end of the stream was read. -/
  ended : Bool
  /-- The buffer may hold a frame, so it is decoded before anything is read. -/
  readable : Bool
  /-- The last receive failed. -/
  failed : Bool
  deriving DecidableEq, Repr

namespace Connection

/-- A connection on which nothing has arrived. -/
def fresh (setting : Nat) : Connection :=
  ⟨.fresh setting, [], [], false, false, false, false⟩

/-- More bytes arrive; a stream that has ended takes none. -/
def arrive (c : Connection) (bytes : Bytes) : Connection :=
  if c.closed then c else { c with waiting := c.waiting ++ bytes }

/-- The far end ends its stream. -/
def close (c : Connection) : Connection := { c with closed := true }

/-- A receive that has an answer. -/
abbrev Answer : Type := Frame.Outcome × Connection

/-- Keeps what a decoding step left behind, and the way on from there. -/
def afterStep (c : Connection) : Frame.Outcome × Frame.Decoder × Bytes → Answer
  | (outcome, decoder, buffer) =>
    (outcome, { c with
      decoder := decoder
      buffer := buffer
      readable := match outcome with
        | .ok none => false
        | _ => c.readable
      failed := match outcome with
        | .error _ => true
        | .ok _ => false })

/-- Decodes the buffer at the end of the stream, which always gives an answer. -/
def drain (c : Connection) : Answer := c.afterStep (c.decoder.decodeEnd c.buffer)

/-- Decodes the buffer; `inr` is the connection that has to read before it can answer. -/
def fromBuffer (c : Connection) : Answer ⊕ Connection :=
  if c.readable then
    if c.ended then .inl c.drain
    else match c.afterStep (c.decoder.decode c.buffer) with
      | (.ok none, c) => .inr c
      | answer => .inl answer
  else .inr c

/-- Reads all that waits and decodes again. -/
def fromWaiting (c : Connection) : Answer ⊕ Connection :=
  if c.waiting = [] then .inr c
  else fromBuffer { c with
    buffer := c.buffer ++ c.waiting, waiting := [], ended := false, readable := true }

/-- Reads the end of the stream, if it has come; otherwise there is nothing to say yet. -/
def fromEnd (c : Connection) : Option Frame.Outcome × Connection :=
  if c.closed then
    if c.ended then (some (.ok none), c)
    else let (outcome, c) := drain { c with ended := true, readable := true }
      (some outcome, c)
  else (none, c)

/-- Waits for the next message; no outcome means that it would have to go on waiting. -/
def recv (c : Connection) : Option Frame.Outcome × Connection :=
  if c.failed then (some (.ok none), { c with readable := false, failed := false })
  else match c.fromBuffer with
    | .inl (outcome, c) => (some outcome, c)
    | .inr c => match c.fromWaiting with
      | .inl (outcome, c) => (some outcome, c)
      | .inr c => c.fromEnd

end Connection

end SumCluster.Wire
