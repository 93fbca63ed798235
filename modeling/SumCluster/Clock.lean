/-!
Lengths of time. Delays and measured times cross the wire as 32-bit milliseconds, the clock itself
counts nanoseconds; the two conversions round down, take a negative delay for none, and write a
time too long for 32 bits as the longest there is.
-/

namespace SumCluster

/-- A length of time, or a moment since the start of a run, in nanoseconds. -/
abbrev Nanos : Type := Nat

namespace Nanos

/-- One millisecond. -/
def milli : Nanos := 1000000

/-- One second. -/
def second : Nanos := 1000000000

/-- The longest time that the wire can name, in milliseconds. -/
def maxMillis : Nat := 2147483647

/-- So many seconds and nanoseconds. -/
def ofParts (secs nanos : Nat) : Nanos := secs * second + nanos

/-- The whole seconds of a time and the nanoseconds left over. -/
def toParts (d : Nanos) : Nat × Nat := (d / second, d % second)

/-- The whole milliseconds of a time, at most `maxMillis`. -/
def toMillis (d : Nanos) : Int32 := Int32.ofNat (min (d / milli) maxMillis)

/-- A delay as the wire names it; a negative one is no delay. -/
def ofMillis (m : Int32) : Nanos := m.toInt.toNat * milli

/-- A delay of so many milliseconds. -/
def ofNatMillis (m : Nat) : Nanos := m * milli

end Nanos

end SumCluster
