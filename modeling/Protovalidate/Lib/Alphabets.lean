import Mathlib.Data.List.Nodup
import Mathlib.Data.List.Flatten
import Mathlib.Tactic.Ring

/-!
# Numbers in a fixed number of digits

The digits of a base are the characters of an alphabet. As many digits, the most
significant first, are what exactly one number below a power of the base is written as.
-/

/-- The digits of a base, in the order of their values. -/
structure Alphabet where
  digits : List Char
  distinct : digits.Nodup
  nonempty : 0 < digits.length

namespace Alphabet
variable (alphabet : Alphabet)

def base : Nat := alphabet.digits.length

/-- The digit of a value, which is taken as one below the base. -/
def digit (n : Nat) : Char :=
  alphabet.digits.get ⟨n % alphabet.base, Nat.mod_lt n alphabet.nonempty⟩

/-- The last digits of a number, as many as a width. -/
def write : Nat → Nat → List Char
  | 0, _ => []
  | width + 1, n => write width (n / alphabet.base) ++ [alphabet.digit n]

variable {alphabet} {width n n' : Nat} {s : List Char}

theorem digit_mem (n : Nat) : alphabet.digit n ∈ alphabet.digits := List.get_mem _ _

theorem digit_inj : alphabet.digit n = alphabet.digit n' ↔
    n % alphabet.base = n' % alphabet.base := by
  exact alphabet.distinct.get_inj_iff.trans Fin.mk.inj_iff

theorem digit_of_mem {c : Char} (member : c ∈ alphabet.digits) :
    ∃ n < alphabet.base, alphabet.digit n = c := by
  obtain ⟨⟨n, less⟩, rfl⟩ := List.get_of_mem member
  refine ⟨n, less, ?_⟩
  have same : n % alphabet.base = n := Nat.mod_eq_of_lt less
  simp only [digit, same]

theorem write_length (width n : Nat) : (alphabet.write width n).length = width := by
  induction width generalizing n with
  | zero => rfl
  | succ width ih => rw [write, List.length_append, ih, List.length_singleton]

theorem write_digits (width n : Nat) : ∀ c ∈ alphabet.write width n, c ∈ alphabet.digits := by
  induction width generalizing n with
  | zero => simp [write]
  | succ width ih =>
    intro c member
    rcases List.mem_append.mp member with before | last
    · exact ih _ c before
    · rw [List.mem_singleton.mp last]
      exact digit_mem n

/-- A number is the only one below the power that is written as it is. -/
theorem write_inj (less : n < alphabet.base ^ width) (less' : n' < alphabet.base ^ width)
    (same : alphabet.write width n = alphabet.write width n') : n = n' := by
  induction width generalizing n n' with
  | zero =>
    rw [pow_zero] at less less'
    omega
  | succ width ih =>
    rw [pow_succ] at less less'
    obtain ⟨before, last⟩ := List.append_inj' same rfl
    have upper : n / alphabet.base = n' / alphabet.base :=
      ih (Nat.div_lt_of_lt_mul (by rwa [Nat.mul_comm])) (Nat.div_lt_of_lt_mul (by
        rwa [Nat.mul_comm])) before
    have lower := digit_inj.mp (List.singleton_inj.mp last)
    rw [← Nat.div_add_mod n alphabet.base, ← Nat.div_add_mod n' alphabet.base, upper, lower]

/-- As many digits are what a number is written as. -/
theorem exists_write (length : s.length = width) (digits : ∀ c ∈ s, c ∈ alphabet.digits) :
    ∃ n < alphabet.base ^ width, s = alphabet.write width n := by
  induction width generalizing s with
  | zero => exact ⟨0, by simp, List.length_eq_zero_iff.mp length⟩
  | succ width ih =>
    rcases List.eq_nil_or_concat s with rfl | ⟨front, c, rfl⟩
    · cases length
    · rw [List.concat_eq_append] at length digits ⊢
      obtain ⟨m, less, rfl⟩ := ih (by simpa using length)
        fun c member => digits c (List.mem_append_left _ member)
      obtain ⟨d, small, rfl⟩ := digit_of_mem (digits c (by simp))
      have positive : 0 < alphabet.base := alphabet.nonempty
      refine ⟨alphabet.base * m + d, ?_, ?_⟩
      · calc alphabet.base * m + d < alphabet.base * m + alphabet.base := by omega
          _ = alphabet.base * (m + 1) := by rw [Nat.mul_succ]
          _ ≤ alphabet.base * alphabet.base ^ width := Nat.mul_le_mul_left _ less
          _ = alphabet.base ^ (width + 1) := (pow_succ' _ _).symm
      · have upper : (alphabet.base * m + d) / alphabet.base = m := by
          rw [Nat.mul_add_div positive, Nat.div_eq_of_lt small, Nat.add_zero]
        have lower : alphabet.digit (alphabet.base * m + d) = alphabet.digit d := by
          rw [digit_inj, Nat.mul_add_mod]
        rw [write, upper, lower]

theorem written_iff : (s.length = width ∧ ∀ c ∈ s, c ∈ alphabet.digits) ↔
    ∃! n, n < alphabet.base ^ width ∧ s = alphabet.write width n := by
  constructor
  · rintro ⟨length, digits⟩
    obtain ⟨n, less, rfl⟩ := exists_write length digits
    refine ⟨n, ⟨less, rfl⟩, ?_⟩
    rintro n' ⟨less', same⟩
    exact write_inj less' less same.symm
  · rintro ⟨n, ⟨-, rfl⟩, -⟩
    exact ⟨write_length width n, write_digits width n⟩

/-- The digits of two widths, those of the first width being of the higher part. -/
theorem write_append (width width' n : Nat) : alphabet.write (width + width') n =
    alphabet.write width (n / alphabet.base ^ width') ++ alphabet.write width' n := by
  induction width' generalizing n with
  | zero => simp [write]
  | succ width' ih =>
    rw [Nat.add_succ, write, ih, Nat.div_div_eq_div_mul, ← pow_succ', List.append_assoc]
    rfl

theorem write_first (width n : Nat) : alphabet.write (width + 1) n =
    alphabet.digit (n / alphabet.base ^ width) :: alphabet.write width n := by
  rw [Nat.add_comm, write_append]
  rfl

/-- Digits of which the first is below a bound are those of exactly one number below as
many powers. -/
theorem bounded_iff {bound : Nat} (le : bound ≤ alphabet.base) :
    (∃ first < bound, ∃ rest : List Char, rest.length = width ∧
      (∀ c ∈ rest, c ∈ alphabet.digits) ∧ s = alphabet.digit first :: rest) ↔
      ∃! n, n < bound * alphabet.base ^ width ∧ s = alphabet.write (width + 1) n := by
  have within : bound * alphabet.base ^ width ≤ alphabet.base ^ (width + 1) := by
    rw [pow_succ']
    exact Nat.mul_le_mul_right _ le
  constructor
  · rintro ⟨first, less, rest, length, digits, rfl⟩
    have whole : (alphabet.digit first :: rest).length = width + 1 ∧
        ∀ c ∈ alphabet.digit first :: rest, c ∈ alphabet.digits :=
      ⟨by rw [List.length_cons, length], List.forall_mem_cons.mpr ⟨digit_mem first, digits⟩⟩
    obtain ⟨n, ⟨small, same⟩, only⟩ := written_iff.mp whole
    rw [write_first, List.cons.injEq, digit_inj] at same
    have upper : n / alphabet.base ^ width < alphabet.base := by
      apply Nat.div_lt_of_lt_mul
      rwa [← pow_succ]
    rw [Nat.mod_eq_of_lt upper, Nat.mod_eq_of_lt (by omega)] at same
    have power : 0 < alphabet.base ^ width := Nat.pow_pos alphabet.nonempty
    refine ⟨n, ⟨(Nat.div_lt_iff_lt_mul power).mp (same.1 ▸ less), ?_⟩, ?_⟩
    · rw [write_first, ← same.1, ← same.2]
    · rintro n' ⟨less', same'⟩
      exact only n' ⟨by omega, same'⟩
  · rintro ⟨n, ⟨less, rfl⟩, -⟩
    have power : 0 < alphabet.base ^ width := Nat.pow_pos alphabet.nonempty
    exact ⟨n / alphabet.base ^ width, (Nat.div_lt_iff_lt_mul power).mpr less, _,
      write_length width n, write_digits width n, write_first width n⟩

/-! ### Groups of digits -/

variable (alphabet) in
/-- The digits of a number in groups of some widths. -/
def groups : List Nat → Nat → List (List Char)
  | [], _ => []
  | width :: widths, n => alphabet.write width (n / alphabet.base ^ widths.sum) :: groups widths n

variable {widths : List Nat} {parts : List (List Char)}

theorem groups_flatten (widths : List Nat) (n : Nat) :
    (alphabet.groups widths n).flatten = alphabet.write widths.sum n := by
  induction widths with
  | nil => rfl
  | cons width widths ih => rw [groups, List.flatten_cons, ih, List.sum_cons, write_append]

theorem groups_lengths (widths : List Nat) (n : Nat) :
    (alphabet.groups widths n).map List.length = widths := by
  induction widths with
  | nil => rfl
  | cons width widths ih => rw [groups, List.map_cons, ih, write_length]

theorem groups_digits (widths : List Nat) (n : Nat) :
    ∀ part ∈ alphabet.groups widths n, ∀ c ∈ part, c ∈ alphabet.digits := by
  intro part present c inside
  have member : c ∈ (alphabet.groups widths n).flatten :=
    List.mem_flatten.mpr ⟨part, present, inside⟩
  rw [groups_flatten] at member
  exact write_digits _ _ c member

/-- Groups of digits are those of exactly one number below the power for all of them. -/
theorem grouped_iff :
    (parts.map List.length = widths ∧ ∀ part ∈ parts, ∀ c ∈ part, c ∈ alphabet.digits) ↔
      ∃! n, n < alphabet.base ^ widths.sum ∧ parts = alphabet.groups widths n := by
  have whole : ∀ n, parts.map List.length = widths →
      (parts = alphabet.groups widths n ↔ parts.flatten = alphabet.write widths.sum n) := by
    intro n lengths
    rw [List.eq_iff_flatten_eq, groups_flatten, groups_lengths]
    exact and_iff_left lengths
  constructor
  · rintro ⟨lengths, digits⟩
    have length : parts.flatten.length = widths.sum := by rw [List.length_flatten, lengths]
    have all : ∀ c ∈ parts.flatten, c ∈ alphabet.digits := by
      intro c member
      obtain ⟨part, present, inside⟩ := List.mem_flatten.mp member
      exact digits part present c inside
    obtain ⟨n, ⟨less, same⟩, only⟩ := written_iff.mp ⟨length, all⟩
    refine ⟨n, ⟨less, (whole n lengths).mpr same⟩, ?_⟩
    rintro n' ⟨less', same'⟩
    exact only n' ⟨less', (whole n' lengths).mp same'⟩
  · rintro ⟨n, ⟨-, rfl⟩, -⟩
    exact ⟨groups_lengths widths n, groups_digits widths n⟩

/-- Groups of digits with a character between them that is none. -/
theorem separated_iff {c : Char} {text : List Char} (other : c ∉ alphabet.digits)
    (some : widths ≠ []) :
    (∃ parts : List (List Char), parts.map List.length = widths ∧
      (∀ part ∈ parts, ∀ d ∈ part, d ∈ alphabet.digits) ∧ text = [c].intercalate parts) ↔
      ∃! n, n < alphabet.base ^ widths.sum ∧ text = [c].intercalate (alphabet.groups widths n) := by
  have split : ∀ {parts : List (List Char)}, parts.map List.length = widths →
      (∀ part ∈ parts, ∀ d ∈ part, d ∈ alphabet.digits) →
      ([c].intercalate parts).splitOn c = parts := by
    intro parts lengths digits
    refine List.splitOn_intercalate c (fun part present inside => ?_) ?_
    · exact other (digits part present c inside)
    · rintro rfl
      exact some lengths.symm
  constructor
  · rintro ⟨parts, lengths, digits, rfl⟩
    obtain ⟨n, ⟨less, rfl⟩, only⟩ := grouped_iff.mp ⟨lengths, digits⟩
    refine ⟨n, ⟨less, rfl⟩, ?_⟩
    rintro n' ⟨less', same⟩
    refine only n' ⟨less', ?_⟩
    have back := split (groups_lengths widths n') (groups_digits widths n')
    rw [← split lengths digits, same, back]
  · rintro ⟨n, ⟨-, rfl⟩, -⟩
    exact ⟨_, groups_lengths widths n, groups_digits widths n, rfl⟩

end Alphabet
