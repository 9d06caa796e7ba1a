import Protovalidate.Standard

/-!
# How rule values print in violation messages

A message quotes the rule's value the way CEL's `%s` and `%x` print it: decimal
integers, lists in brackets, durations as seconds with an `s`, timestamps in
RFC 3339.
-/

namespace Protovalidate

/-- A list: the elements, comma separated, in brackets. -/
def displayList {α : Type} (display : α → String) (items : List α) : String :=
  "[" ++ String.intercalate ", " (items.map display) ++ "]"

def digits (n : Nat) : List Char := Nat.toDigits 10 n

/-- `n` in `width` digits, with zeros before it. -/
def padded (width n : Nat) : String :=
  String.ofList (List.replicate (width - (digits n).length) '0' ++ digits n)

/-- Drops the zeros a fraction of `width` digits ends in. -/
def trimZeros : Nat → Nat → Nat × Nat
  | 0, n => (0, n)
  | width + 1, n => if n % 10 = 0 then trimZeros width (n / 10) else (width + 1, n)

/-- A fraction of a second, in the digits it needs; nothing for zero. -/
def fraction (nanos : Nat) : String :=
  if nanos = 0 then ""
  else
    let (width, n) := trimZeros 9 nanos
    "." ++ padded width n

/-- `1.5s`, `-0.000001s`, `0s`. -/
def displayDuration (nanos : Int) : String :=
  (if nanos < 0 then "-" else "") ++
    toString (nanos.natAbs / NANOS_PER_SECOND.natAbs) ++
    fraction (nanos.natAbs % NANOS_PER_SECOND.natAbs) ++ "s"

namespace Timestamp

/-- `0001-01-01T00:00:00Z`, the earliest value a `Timestamp` may hold. -/
def MIN : Int := -62135596800 * NANOS_PER_SECOND

/-- `9999-12-31T23:59:59.999999999Z`, the latest. -/
def MAX : Int := 253402300799 * NANOS_PER_SECOND + 999999999

/-- Whether the value is in the range `google.protobuf.Timestamp` allows. -/
def inRange (nanos : Int) : Bool := decide (MIN ≤ nanos) && decide (nanos ≤ MAX)

end Timestamp

variable (B : Backend)

/-- RFC 3339 in UTC. A value outside the range a `Timestamp` allows prints as
seconds since the epoch. -/
def displayTimestamp (nanos : Int) : String :=
  let civil :=
    if Timestamp.inRange nanos then
      B.civil (nanos.ediv NANOS_PER_SECOND) (nanos.emod NANOS_PER_SECOND)
    else none
  match civil with
  | some civil => civil ++ "Z"
  | none => displayDuration nanos ++ " since the epoch"

/-- `Infinity`, `-Infinity`, or the shortest form that reads back to the value. -/
def displayDouble (value : Double) : String :=
  if value.isInfinite then (if value.negative then "-Infinity" else "Infinity")
  else B.shortest value

def hexDigit (n : Nat) : Char := "0123456789abcdef".toList.getD n '0'

/-- Bytes as `%x` prints them: lowercase hex. -/
def displayHex (b : Bytes) : String :=
  String.ofList (b.flatMap (fun byte => [hexDigit (byte.toNat / 16), hexDigit (byte.toNat % 16)]))

/-- A fraction prints without the zeros it would end in. -/
example : displayDuration (-1500000) = "-0.0015s" := by decide

end Protovalidate
