import Protovalidate.Comparison
import Protovalidate.Lib.Signed

/-!
# Nanoseconds in 128 bits

Durations and timestamps are compared as one integer of 128 bits, and the bounds of
`within` are computed in it. Arithmetic that overflows has no result here; none of
it does, so that the integers of the other modules stand for those of the code.
-/

namespace Protovalidate

namespace Nanos

open Signed

abbrev I128 := BitVec 128

instance : NanOrder I128 Int where
  rank x := some x.toInt

def NANOS_PER_SECOND : I128 := 1000000000

/-- The `seconds` and `nanos` of a `Duration` or `Timestamp` in nanoseconds. -/
def totalNanos (seconds nanos : Int64) : Option I128 := do
  let whole ← mul (seconds.toBitVec.signExtend 128) NANOS_PER_SECOND
  add whole (nanos.toBitVec.signExtend 128)

/-- `google.protobuf.Duration`. -/
structure DurationPb where
  seconds : Int64
  nanos : Int32
  deriving DecidableEq

/-- `google.protobuf.Timestamp`. -/
structure TimestampPb where
  seconds : Int64
  nanos : Int32
  deriving DecidableEq

def duration (d : DurationPb) : Option I128 := totalNanos d.seconds d.nanos.toInt64

def timestamp (t : TimestampPb) : Option I128 := totalNanos t.seconds t.nanos.toInt64

namespace Timestamp

def MIN : I128 := -62135596800 * NANOS_PER_SECOND

def MAX : I128 := 253402300799 * NANOS_PER_SECOND + 999999999

def inRange (nanos : I128) : Bool := MIN.sle nanos && nanos.sle MAX

end Timestamp

/-- Rejects a timestamp rule value outside the range a `Timestamp` allows. -/
def checkTimestamp (B : Backend) (t : TimestampPb) : Option (Except String Unit) := do
  let allowed ←
    if 0 ≤ t.nanos && t.nanos ≤ 999999999 then (timestamp t).map Timestamp.inRange
    else some false
  if allowed then return .ok ()
  else
    return .error ("timestamp rule value out of range: seconds " ++ toString t.seconds ++
      " nanos " ++ toString t.nanos ++ " is not between " ++
      displayTimestamp B Timestamp.MIN.toInt ++ " and " ++ displayTimestamp B Timestamp.MAX.toInt)

/-! ### The clock -/

/-- A span of time as the standard library has it. -/
structure Elapsed where
  secs : UInt64
  nanos : UInt32
  below : nanos.toNat < 1000000000

/-- The nanoseconds of a span, in 128 bits without a sign. -/
def Elapsed.asNanos (span : Elapsed) : BitVec 128 :=
  BitVec.ofNat 128 (span.secs.toNat * 1000000000 + span.nanos.toNat)

/-- How long after the epoch the clock is, or the error of how long before. -/
abbrev Reading := Except Elapsed Elapsed

def now (reading : Reading) : Option I128 :=
  match reading with
  | .ok since => some ((ofUnsigned since.asNanos).getD (BitVec.intMax 128))
  | .error before => neg ((ofUnsigned before.asNanos).getD (BitVec.intMax 128))

inductive NowTest
  | ltNow
  | gtNow
  | within (duration : I128)
  deriving DecidableEq

inductive TimestampTest
  | cmp (test : Cmp I128)
  | now (test : NowTest)
  deriving DecidableEq

/-- The test of a value against the time it is. The later bound is only computed if
the value is not too early. -/
def NowTest.fails (now : I128) (test : NowTest) (value : I128) : Option Bool :=
  match test with
  | .ltNow => some (now.slt value)
  | .gtNow => some (value.slt now)
  | .within width => do
    let earliest ← sub now width
    if value.slt earliest then return true
    else
      let latest ← add now width
      return latest.slt value

def TimestampTest.fails (reading : Reading) (test : TimestampTest) (value : I128) :
    Option (Except String Bool) :=
  match test with
  | .cmp test => some (test.fails value)
  | .now test => do return .ok (← test.fails (← Nanos.now reading) value)

/-! ### The integers they stand for -/

def DurationPb.wide (d : DurationPb) : Protovalidate.DurationPb := ⟨d.seconds.toInt, d.nanos.toInt⟩

def TimestampPb.wide (t : TimestampPb) : Protovalidate.TimestampPb :=
  ⟨t.seconds.toInt, t.nanos.toInt⟩

def NowTest.wide : NowTest → Protovalidate.NowTest
  | .ltNow => .ltNow
  | .gtNow => .gtNow
  | .within width => .within width.toInt

def TimestampTest.wide : TimestampTest → Protovalidate.TimestampTest
  | .cmp test => .cmp (test.map BitVec.toInt)
  | .now test => .now test.wide

def Elapsed.total (span : Elapsed) : Int := span.secs.toNat * 1000000000 + span.nanos.toNat

/-- The nanoseconds from the epoch to a reading. -/
def Reading.total : Reading → Int
  | .ok since => since.total
  | .error before => -before.total

theorem toInt_wide (x : Int64) : (x.toBitVec.signExtend 128).toInt = x.toInt :=
  BitVec.toInt_signExtend_of_le (by decide)

theorem toInt_toInt64 (x : Int32) : x.toInt64.toInt = x.toInt :=
  BitVec.toInt_signExtend_of_le (by decide)

/-- Far less than 128 bits are needed. -/
theorem totalNanos_bounds (seconds nanos : Int64) :
    -2 ^ 94 ≤ Protovalidate.totalNanos seconds.toInt nanos.toInt ∧
      Protovalidate.totalNanos seconds.toInt nanos.toInt < 2 ^ 94 := by
  have := seconds.le_toInt
  have := seconds.toInt_lt
  have := nanos.le_toInt
  have := nanos.toInt_lt
  unfold Protovalidate.totalNanos Protovalidate.NANOS_PER_SECOND
  omega

/-- The fields are combined exactly. -/
theorem totalNanos_gives (seconds nanos : Int64) :
    Gives (totalNanos seconds nanos) (Protovalidate.totalNanos seconds.toInt nanos.toInt) := by
  have per : BitVec.toInt NANOS_PER_SECOND = Protovalidate.NANOS_PER_SECOND := by decide
  have whole := mul_gives (x := seconds.toBitVec.signExtend 128) (y := NANOS_PER_SECOND)
  rw [toInt_wide, per] at whole
  refine (whole ?_).bind fun z same => ?_
  · have := seconds.le_toInt
    have := seconds.toInt_lt
    unfold Protovalidate.NANOS_PER_SECOND
    exact ⟨by omega, by omega⟩
  · have sum := add_gives (x := z) (y := nanos.toBitVec.signExtend 128)
    rw [toInt_wide, same] at sum
    obtain ⟨above, below⟩ := totalNanos_bounds seconds nanos
    unfold Protovalidate.totalNanos at above below
    exact sum ⟨by omega, by omega⟩

example : (totalNanos Int64.minValue Int64.minValue).map BitVec.toInt =
    some (-9223372046078147844854775808) := by decide

theorem duration_gives (d : DurationPb) : Gives (duration d) (Protovalidate.duration d.wide) := by
  have gives := totalNanos_gives d.seconds d.nanos.toInt64
  rwa [toInt_toInt64] at gives

theorem duration_bounds (d : DurationPb) :
    -2 ^ 94 ≤ Protovalidate.duration d.wide ∧ Protovalidate.duration d.wide < 2 ^ 94 := by
  have bounds := totalNanos_bounds d.seconds d.nanos.toInt64
  rwa [toInt_toInt64] at bounds

theorem timestamp_gives (t : TimestampPb) :
    Gives (timestamp t) (Protovalidate.timestamp t.wide) := by
  have gives := totalNanos_gives t.seconds t.nanos.toInt64
  rwa [toInt_toInt64] at gives

theorem inRange_eq (nanos : I128) :
    Timestamp.inRange nanos = Protovalidate.Timestamp.inRange nanos.toInt := by
  have least : Timestamp.MIN.toInt = Protovalidate.Timestamp.MIN := by decide
  have latest : Timestamp.MAX.toInt = Protovalidate.Timestamp.MAX := by decide
  rw [Timestamp.inRange, BitVec.sle_eq_decide, BitVec.sle_eq_decide, least, latest]
  rfl

/-- The check of a rule value never overflows. -/
theorem checkTimestamp_eq (B : Backend) (t : TimestampPb) :
    checkTimestamp B t = some (Protovalidate.checkTimestamp B t.wide) := by
  obtain ⟨n, given, same⟩ := timestamp_gives t
  have fields : (decide (0 ≤ t.nanos) && decide (t.nanos ≤ 999999999)) =
      (decide (0 ≤ t.wide.nanos) && decide (t.wide.nanos ≤ 999999999)) := by
    simp only [Int32.le_iff_toInt_le]
    rfl
  unfold checkTimestamp Protovalidate.checkTimestamp
  rw [fields, given]
  cases small : decide (0 ≤ t.wide.nanos) && decide (t.wide.nanos ≤ 999999999) with
  | false => rfl
  | true =>
    rw [if_pos rfl, Option.map_some, inRange_eq, same, Bool.true_and]
    cases Protovalidate.Timestamp.inRange (Protovalidate.timestamp t.wide) <;> rfl

theorem asNanos_gives (span : Elapsed) : Gives (ofUnsigned span.asNanos) span.total := by
  have := span.below
  have := span.secs.toNat_lt
  have same : span.asNanos.toNat = span.secs.toNat * 1000000000 + span.nanos.toNat := by
    rw [Elapsed.asNanos, BitVec.toNat_ofNat]
    omega
  have gives := ofUnsigned_gives (x := span.asNanos)
  rw [same] at gives
  exact_mod_cast gives (by omega)

theorem Reading.total_bounds (reading : Reading) :
    -2 ^ 94 < reading.total ∧ reading.total < 2 ^ 94 := by
  have small : ∀ span : Elapsed, 0 ≤ span.total ∧ span.total < 2 ^ 94 := by
    intro span
    have := span.below
    have := span.secs.toNat_lt
    unfold Elapsed.total
    omega
  cases reading with
  | ok since =>
    have := small since
    change -2 ^ 94 < since.total ∧ since.total < 2 ^ 94
    omega
  | error before =>
    have := small before
    change -2 ^ 94 < -before.total ∧ -before.total < 2 ^ 94
    omega

/-- The clock is read exactly. -/
theorem now_gives (reading : Reading) : Gives (now reading) reading.total := by
  cases reading with
  | ok since =>
    obtain ⟨z, converted, same⟩ := asNanos_gives since
    refine ⟨z, ?_, same⟩
    rw [now, converted]
    rfl
  | error before =>
    obtain ⟨z, converted, same⟩ := asNanos_gives before
    have bounds : -2 ^ 94 < -before.total ∧ -before.total < 2 ^ 94 :=
      Reading.total_bounds (.error before)
    have gives := neg_gives (x := z)
    rw [same] at gives
    rw [now, converted]
    exact gives (by omega)

/-- The bounds of `within` do not overflow, nor does anything of this size. -/
theorem bounds_give {now width : I128} {reading : Reading} (read : now.toInt = reading.total)
    (small : -2 ^ 94 ≤ width.toInt ∧ width.toInt < 2 ^ 94) :
    Gives (sub now width) (reading.total - width.toInt) ∧
      Gives (add now width) (reading.total + width.toInt) := by
  have := reading.total_bounds
  have earliest := sub_gives (x := now) (y := width)
  have latest := add_gives (x := now) (y := width)
  rw [read] at earliest latest
  exact ⟨earliest ⟨by omega, by omega⟩, latest ⟨by omega, by omega⟩⟩

/-- A timestamp test, the width of `within` being that of a rule value. -/
def TimestampTest.FromRules (test : TimestampTest) : Prop :=
  ∀ width, test = .now (.within width) → ∃ d, duration d = some width

theorem toInt_embeds : NanOrder.Embeds (BitVec.toInt : I128 → Int) :=
  .of_ranks (fun _ => rfl) (fun _ => rfl) fun _ _ => Iff.rfl

theorem NowTest.fails_within {now width value : I128} {earliest latest : Int}
    (first : Gives (sub now width) earliest) (last : Gives (add now width) latest) :
    NowTest.fails now (.within width) value =
      some (decide (value.toInt < earliest) || decide (latest < value.toInt)) := by
  obtain ⟨lower, computed, rfl⟩ := first
  obtain ⟨upper, computed', rfl⟩ := last
  simp only [NowTest.fails, computed, computed', Option.bind_eq_bind, Option.bind_some,
    BitVec.slt_eq_decide]
  by_cases early : value.toInt < lower.toInt
  · simp [early]
  · simp [early]

/-- A timestamp test never overflows, and decides what it does of integers. -/
theorem fails_eq {test : TimestampTest} (built : test.FromRules) (B : Backend)
    (reading : Reading) (value : I128) :
    test.fails reading value =
      some (test.wide.fails { B with now := reading.total } value.toInt) := by
  cases test with
  | cmp test => exact congrArg some (Cmp.fails_map toInt_embeds test value).symm
  | now test =>
    obtain ⟨clock, read, same⟩ := now_gives reading
    rw [TimestampTest.fails, read, Option.bind_eq_bind, Option.bind_some]
    cases test with
    | ltNow =>
      rw [NowTest.fails, BitVec.slt_eq_decide, same]
      rfl
    | gtNow =>
      rw [NowTest.fails, BitVec.slt_eq_decide, same]
      rfl
    | within width =>
      obtain ⟨d, given⟩ := built width rfl
      obtain ⟨_, given', combined⟩ := duration_gives d
      cases given.symm.trans given'
      have small := duration_bounds d
      rw [← combined] at small
      obtain ⟨first, last⟩ := bounds_give same small
      rw [NowTest.fails_within first last]
      rfl

end Nanos

end Protovalidate
