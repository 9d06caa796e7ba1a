import Protovalidate.Agreement
import Protovalidate.Nanos
import Protovalidate.Lib.Units

/-!
# The order of durations and timestamps

Normalised values are in the order of their seconds, and of their nanos where the
seconds are the same. Their nanoseconds are in this order, so that the rules decide
on these what they say of the values. The fields of a timestamp rule are normalised
if it is built at all.
-/

namespace Protovalidate

/-- A timestamp rule value is taken if its nanos are less than a second and its
seconds are those of the years 1 to 9999. -/
theorem checkTimestamp_ok {B : Backend} {t : TimestampPb} :
    checkTimestamp B t = .ok () ↔ (0 ≤ t.nanos ∧ t.nanos ≤ 999999999) ∧
      -62135596800 ≤ t.seconds ∧ t.seconds ≤ 253402300799 := by
  have range : Timestamp.inRange (timestamp t) = true ↔
      -62135596800 * 1000000000 ≤ t.seconds * 1000000000 + t.nanos ∧
        t.seconds * 1000000000 + t.nanos ≤ 253402300799 * 1000000000 + 999999999 := by
    rw [Timestamp.inRange, Bool.and_eq_true, decide_eq_true_iff, decide_eq_true_iff]
    rfl
  -- With the nanos below a second, the bounds of the sum are those of the seconds.
  have taken : (decide (0 ≤ t.nanos) && decide (t.nanos ≤ 999999999) &&
      Timestamp.inRange (timestamp t)) = true ↔ (0 ≤ t.nanos ∧ t.nanos ≤ 999999999) ∧
      -62135596800 ≤ t.seconds ∧ t.seconds ≤ 253402300799 := by
    rw [Bool.and_eq_true, Bool.and_eq_true, range, decide_eq_true_iff, decide_eq_true_iff]
    omega
  rw [← taken, checkTimestamp]
  cases decide (0 ≤ t.nanos) && decide (t.nanos ≤ 999999999) &&
    Timestamp.inRange (timestamp t) with
  | false => exact ⟨fun same => (by cases same), fun same => (by cases same)⟩
  | true => exact ⟨fun _ => rfl, fun _ => rfl⟩

namespace Nanos

open Signed

/-- The `seconds` and `nanos` of a message in a normal form, as the runtime widens
them. -/
structure Normal (form : Set (ℤ ×ₗ ℤ)) where
  seconds : Int64
  nanos : Int64
  normal : toLex (seconds.toInt, nanos.toInt) ∈ form

/-- The nanos of a timestamp count on from its seconds. -/
abbrev timestamps : Set (ℤ ×ₗ ℤ) := Units.floored 1000000000

/-- The nanos of a duration have the sign of its seconds. -/
abbrev durations : Set (ℤ ×ₗ ℤ) := Units.truncated 1000000000

theorem totalNanos_isSome (seconds nanos : Int64) : (totalNanos seconds nanos).isSome := by
  obtain ⟨_, combined, -⟩ := totalNanos_gives seconds nanos
  rw [combined]
  rfl

namespace Normal
variable {form : Set (ℤ ×ₗ ℤ)} (self : Normal form)

/-- The seconds, then the nanos. -/
def fields : ℤ ×ₗ ℤ := toLex (self.seconds.toInt, self.nanos.toInt)

instance : NanOrder (Normal form) (ℤ ×ₗ ℤ) where
  rank self := some self.fields

def total : I128 := (totalNanos self.seconds self.nanos).get (totalNanos_isSome _ _)

theorem total_eq : totalNanos self.seconds self.nanos = some self.total := (Option.some_get _).symm

theorem toInt_total : self.total.toInt = Units.total 1000000000 self.fields := by
  obtain ⟨_, combined, same⟩ := totalNanos_gives self.seconds self.nanos
  cases self.total_eq.symm.trans combined
  exact same

variable (separated : Units.Separated 1000000000 form)
include separated

theorem total_lt_iff (p q : Normal form) :
    p.total.toInt < q.total.toInt ↔ p.fields < q.fields := by
  rw [toInt_total, toInt_total]
  exact (separated.strictMonoOn (by decide)).lt_iff_lt p.normal q.normal

theorem total_injective : Function.Injective (total : Normal form → I128) := by
  intro p q same
  have fields : p.fields = q.fields := by
    refine (separated.strictMonoOn (by decide)).injOn p.normal q.normal ?_
    change Units.total _ p.fields = Units.total _ q.fields
    rw [← toInt_total, ← toInt_total, same]
  obtain ⟨seconds, nanos, _⟩ := p
  obtain ⟨seconds', nanos', _⟩ := q
  have both := Prod.mk.inj (toLex.injective fields)
  cases Int64.toInt_inj.mp both.1
  cases Int64.toInt_inj.mp both.2
  rfl

theorem total_embeds : NanOrder.Embeds (total : Normal form → I128) :=
  .of_ranks (fun _ => rfl) (fun _ => rfl) (total_lt_iff separated)

end Normal

/-- What is decided on nanoseconds is what the seconds and nanos say: whether values
are the same, which is earlier, and what breaks the rules of a rules message. -/
structure Chronological (form : Set (ℤ ×ₗ ℤ)) : Prop where
  injective : Function.Injective (Normal.total : Normal form → I128)
  ordered : ∀ p q : Normal form, p.total.slt q.total = true ↔ p.fields < q.fields
  compared : ∀ (test : Cmp (Normal form)) (value : Normal form),
    (test.map Normal.total).fails value.total = test.fails value
  checked : ∀ (display : I128 → String) (kind : String) (first : Nat)
    (rules : OrderedRules (Normal form)) (value : Normal form),
    reports (fun test => Cmp.fails test value.total)
        ((bounds Normal.total rules).checks display kind first) =
      reports (fun test => Cmp.fails test value)
        ((bounds id rules).checks (fun v => display v.total) kind first)

theorem chronological {form : Set (ℤ ×ₗ ℤ)} (separated : Units.Separated 1000000000 form) :
    Chronological form where
  injective := Normal.total_injective separated
  ordered p q := by
    rw [BitVec.slt_eq_decide, decide_eq_true_iff]
    exact Normal.total_lt_iff separated p q
  compared := Cmp.fails_map (Normal.total_embeds separated)
  checked display kind first rules value := by
    rw [checks_map (Normal.total_embeds separated)]
    refine reports_map (fun test => ?_) _
    exact Cmp.fails_map (Normal.total_embeds separated) test value

/-- The whole seconds and the nanos of a reading of the clock. -/
def Reading.fields (reading : Reading) : ℤ ×ₗ ℤ := Units.floor 1000000000 reading.total

/-- A timestamp is before or after a reading of the clock as its seconds and nanos
are. -/
theorem reading_order (reading : Reading) (value : Normal timestamps) :
    (reading.total < value.total.toInt ↔ reading.fields < value.fields) ∧
      (value.total.toInt < reading.total ↔ value.fields < reading.fields) := by
  have monotone : StrictMonoOn (Units.total 1000000000) timestamps :=
    Units.floored_separated.strictMonoOn (by decide)
  have clock : reading.fields ∈ timestamps := Units.floor_floored (by decide) reading.total
  have same : reading.total = Units.total 1000000000 reading.fields :=
    (Units.total_floor reading.total).symm
  rw [same, value.toInt_total]
  exact ⟨monotone.lt_iff_lt clock value.normal, monotone.lt_iff_lt value.normal clock⟩

/-- The rules on now decide on the seconds and nanos of the clock. -/
theorem now_fails (reading : Reading) (value : Normal timestamps) :
    (TimestampTest.now .ltNow).fails reading value.total =
        some (.ok (decide (reading.fields < value.fields))) ∧
      (TimestampTest.now .gtNow).fails reading value.total =
        some (.ok (decide (value.fields < reading.fields))) := by
  obtain ⟨later, earlier⟩ := reading_order reading value
  have ltNow : (TimestampTest.now .ltNow).FromRules := fun _ same => by cases same
  have gtNow : (TimestampTest.now .gtNow).FromRules := fun _ same => by cases same
  rw [fails_eq ltNow .bare, fails_eq gtNow .bare, ← decide_eq_decide.mpr later,
    ← decide_eq_decide.mpr earlier]
  exact ⟨rfl, rfl⟩

/-- Combining seconds and nanos never overflows, nor do the bounds of `within`
around any reading of the clock. Comparison rules decide on the nanoseconds of
normalised values what they say of their seconds and nanos, and a timestamp rule
value is taken exactly in the range of `Timestamp`. -/
theorem totals_chronological :
    (∀ seconds nanos : Int64,
      Gives (totalNanos seconds nanos) (Protovalidate.totalNanos seconds.toInt nanos.toInt)) ∧
    (∀ (d : DurationPb) (reading : Reading), ∃ width clock,
      duration d = some width ∧ width.toInt = Protovalidate.duration d.wide ∧
      now reading = some clock ∧ clock.toInt = reading.total ∧
      Gives (sub clock width) (reading.total - width.toInt) ∧
      Gives (add clock width) (reading.total + width.toInt) ∧
      ∀ value : I128, (TimestampTest.now (.within width)).fails reading value =
        some (.ok (decide (value.toInt < reading.total - width.toInt) ||
          decide (reading.total + width.toInt < value.toInt)))) ∧
    Chronological timestamps ∧ Chronological durations ∧
    (∀ (reading : Reading) (value : Normal timestamps),
      (TimestampTest.now .ltNow).fails reading value.total =
        some (.ok (decide (reading.fields < value.fields))) ∧
      (TimestampTest.now .gtNow).fails reading value.total =
        some (.ok (decide (value.fields < reading.fields)))) ∧
    ∀ (B : Backend) (t : TimestampPb),
      (checkTimestamp B t).isSome ∧
      (checkTimestamp B t = some (.ok ()) ↔
        (0 ≤ t.nanos.toInt ∧ t.nanos.toInt ≤ 999999999) ∧
          -62135596800 ≤ t.seconds.toInt ∧ t.seconds.toInt ≤ 253402300799) := by
  refine ⟨totalNanos_gives, fun d reading => ?_, chronological Units.floored_separated,
    chronological Units.truncated_separated, now_fails, fun B t => ?_⟩
  · obtain ⟨width, combined, same⟩ := duration_gives d
    obtain ⟨clock, read, same'⟩ := now_gives reading
    have small := duration_bounds d
    rw [← same] at small
    obtain ⟨earliest, latest⟩ := bounds_give same' small
    refine ⟨width, clock, combined, same, read, same', earliest, latest, fun value => ?_⟩
    rw [TimestampTest.fails, read, Option.bind_eq_bind, Option.bind_some,
      NowTest.fails_within earliest latest]
    rfl
  · rw [checkTimestamp_eq, Option.isSome_some, Option.some.injEq]
    exact ⟨rfl, checkTimestamp_ok⟩

end Nanos

end Protovalidate
