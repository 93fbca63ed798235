import SumCluster.Wire.Body

/-!
Frames: a body after its length in four big-endian bytes. A decoder works on a buffer that fills bit
by bit. It takes a length off as soon as its four bytes are there and remembers it, so the body
alone is awaited from then on; a length above the limit is left where it is and refused every time.
A body that is no message is taken off all the same, so the frames after it are not lost.
-/

namespace SumCluster.Wire

namespace Frame

/-- The longest body that is allowed when nobody says otherwise. -/
def defaultLimit : Nat := 8388608

/-- How many bytes the length takes. -/
def headerSize : Nat := 4

/-- The longest body that a four-byte length can announce. -/
def longest : Nat := Word.limit32 - 1

/-- The longest body that a connection with this setting takes or sends. -/
def limitOf (setting : Nat) : Nat := min setting longest

/-- A body behind its length. -/
def wrap (body : Bytes) : Bytes := bigEndian headerSize body.length ++ body

/-- The frame that carries a message, unless its body is too long. -/
def encode (limit : Nat) (m : Message) : Except ProtocolError Bytes :=
  if m.toBody.length ≤ limit then .ok (wrap m.toBody) else .error .frameTooBig

/-- Puts bytes behind what a buffer holds. -/
def put (bs : Bytes) : ExceptT ProtocolError (StateM Bytes) Unit := modify (· ++ bs)

/-- Writes the frame of a message: its length, then its body. What is in the buffer when writing fails
stays there. -/
def write (limit : Nat) (m : Message) : ExceptT ProtocolError (StateM Bytes) Unit := do
  let body := m.toBody
  if limit < body.length then throw .frameTooBig
  put (bigEndian headerSize body.length)
  put body

/-- The buffer with the frame of a message behind what it holds. -/
def append (limit : Nat) (buffer : Bytes) (m : Message) : Except ProtocolError Bytes :=
  match (write limit m).run.run buffer with
  | (.ok (), buffer) => .ok buffer
  | (.error e, _) => .error e

/-- Reads frames off the front of a buffer; `awaited` is a length that it has taken off already. -/
structure Decoder where
  limit : Nat
  awaited : Option Nat
  deriving DecidableEq, Repr

/-- What one attempt to read a frame comes to: a message, nothing yet, or an error. -/
abbrev Outcome : Type := Except ProtocolError (Option Message)

namespace Decoder

/-- A decoder at the start of a stream. -/
def fresh (setting : Nat) : Decoder := ⟨limitOf setting, none⟩

/-- Takes a body of known length off the buffer once it is all there. -/
def takeBody (d : Decoder) (n : Nat) (buffer : Bytes) : Outcome × Decoder × Bytes :=
  if n ≤ buffer.length then
    ((Message.ofBody (buffer.take n)).map some, { d with awaited := none }, buffer.drop n)
  else (.ok none, { d with awaited := some n }, buffer)

/-- Tries to read one frame. -/
def decode (d : Decoder) (buffer : Bytes) : Outcome × Decoder × Bytes :=
  match d.awaited with
  | some n => d.takeBody n buffer
  | none =>
    if buffer.length < headerSize then (.ok none, d, buffer)
    else if d.limit < ofBigEndian (buffer.take headerSize) then (.error .frameTooBig, d, buffer)
    else d.takeBody (ofBigEndian (buffer.take headerSize)) (buffer.drop headerSize)

/-- Tries to read one frame when nothing more will come: what is left over is an error. -/
def decodeEnd (d : Decoder) (buffer : Bytes) : Outcome × Decoder × Bytes :=
  match d.decode buffer with
  | (.ok none, d, rest) => (if rest = [] then .ok none else .error .strayBytes, d, rest)
  | r => r

end Decoder

end Frame

end SumCluster.Wire
