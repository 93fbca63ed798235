import SumCluster.Wire.Error
import SumCluster.Wire.Varint

/-!
The body of a frame: the number of the message's kind, then its fields in order. A 32-bit integer is
folded onto the naturals so that small magnitudes stay small, a text is its length and its UTF-8
bytes, a list its length and its items. Reading refuses a body that goes on after the message.
-/

namespace SumCluster.Wire

/-- Folds the integers onto the naturals: 0, -1, 1, -2, 2 become 0, 1, 2, 3, 4. -/
def zigzag (v : Int32) : Nat :=
  if 0 ≤ v.toInt then 2 * v.toInt.natAbs else 2 * v.toInt.natAbs - 1

/-- Unfolds a natural into the integer it stands for. -/
def unzigzag (n : Nat) : Int32 :=
  if n % 2 = 0 then Int32.ofInt (n / 2) else Int32.ofInt (-(n / 2) - 1)

namespace Body

/-- An integer on the wire. -/
def encodeInt (v : Int32) : Bytes := Varint.encode (zigzag v)

/-- Takes an integer off the front. -/
def decodeInt (bs : Bytes) : Option (Int32 × Bytes) :=
  (Varint.decode .word32 bs).map fun (n, rest) => (unzigzag n, rest)

/-- The UTF-8 bytes of a text. -/
def utf8 (s : String) : Bytes := s.toUTF8.data.toList

/-- The text that some bytes are the UTF-8 form of. -/
def ofUtf8? (bs : Bytes) : Option String := String.fromUTF8? ⟨bs.toArray⟩

/-- A text on the wire. -/
def encodeText (s : String) : Bytes := Varint.encode (utf8 s).length ++ utf8 s

/-- Takes a text off the front. One that announces more bytes than are there is refused. That goes for
any number that it may announce, which is an idealisation: memory is taken to have room for it. -/
def decodeText (bs : Bytes) : Option (String × Bytes) := do
  let (n, rest) ← Varint.decode .word64 bs
  if n ≤ rest.length then
    let s ← ofUtf8? (rest.take n)
    some (s, rest.drop n)
  else none

/-- A list of integers on the wire. -/
def encodeInts (vs : List Int32) : Bytes := Varint.encode vs.length ++ vs.flatMap encodeInt

/-- Takes so many integers off the front. -/
def decodeMany : Nat → Bytes → Option (List Int32 × Bytes)
  | 0, bs => some ([], bs)
  | n + 1, bs => do
    let (v, rest) ← decodeInt bs
    let (vs, rest) ← decodeMany n rest
    some (v :: vs, rest)

/-- Takes a list of integers off the front. One that announces more items than are there is refused, as
a text is; here too memory is taken to have room for any number of them. -/
def decodeInts (bs : Bytes) : Option (List Int32 × Bytes) := do
  let (n, rest) ← Varint.decode .word64 bs
  decodeMany n rest

/-- The fields of a message, in order. -/
def encodeFields : Message → Bytes
  | .handshake h => encodeText h.workerId
  | .taskRequest t => encodeInts t.values ++ encodeInt t.delayMs
  | .subtaskRequest s => encodeInts s.values ++ encodeInt s.delayMs
  | .subtaskResult r => encodeInt r.sum ++ encodeText r.workerId
  | .clientResponse r => encodeInt r.sum ++ encodeInt r.baselineMs ++ encodeInt r.distributedMs
  | .errorResponse e => encodeInt e.code ++ encodeText e.message

/-- Takes the fields of a message of some kind off the front. -/
def decodeFields (bs : Bytes) : Kind → Option (Message × Bytes)
  | .handshake => do
    let (workerId, rest) ← decodeText bs
    some (.handshake ⟨workerId⟩, rest)
  | .taskRequest => do
    let (values, rest) ← decodeInts bs
    let (delayMs, rest) ← decodeInt rest
    some (.taskRequest ⟨values, delayMs⟩, rest)
  | .subtaskRequest => do
    let (values, rest) ← decodeInts bs
    let (delayMs, rest) ← decodeInt rest
    some (.subtaskRequest ⟨values, delayMs⟩, rest)
  | .subtaskResult => do
    let (sum, rest) ← decodeInt bs
    let (workerId, rest) ← decodeText rest
    some (.subtaskResult ⟨sum, workerId⟩, rest)
  | .clientResponse => do
    let (sum, rest) ← decodeInt bs
    let (baselineMs, rest) ← decodeInt rest
    let (distributedMs, rest) ← decodeInt rest
    some (.clientResponse ⟨sum, baselineMs, distributedMs⟩, rest)
  | .errorResponse => do
    let (code, rest) ← decodeInt bs
    let (message, rest) ← decodeText rest
    some (.errorResponse ⟨code, message⟩, rest)

/-- Takes a message off the front. -/
def decodePrefix (bs : Bytes) : Option (Message × Bytes) := do
  let (n, rest) ← Varint.decode .word32 bs
  let kind ← Kind.ofNumber? n
  decodeFields rest kind

end Body

namespace Message

/-- The body of the frame that carries the message. -/
def toBody (m : Message) : Bytes := Varint.encode m.kind.number ++ Body.encodeFields m

/-- The message that a body is the form of, with nothing left over. -/
def ofBody (body : Bytes) : Except ProtocolError Message :=
  match Body.decodePrefix body with
  | none => .error (.undecodable body.length)
  | some (m, []) => .ok m
  | some (m, extra) => .error (.trailing extra.length m.kind)

end Message

end SumCluster.Wire
