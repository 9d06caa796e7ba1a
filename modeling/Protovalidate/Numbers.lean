import Protovalidate.Lib.Alphabets
import Protovalidate.Lib.Languages
import Protovalidate.Text

/-!
# Formats of numbers

A UUID is a number of 128 bits in hexadecimal, with dashes or trimmed of them. A ULID is
one in base 32, in which 26 digits can hold two bits more, so that its first digit is
at most 7. The letters are of either case.
-/

namespace Protovalidate

open Regexes

def hexadecimal : Alphabet := ⟨"0123456789abcdef".toList, by decide, by decide⟩

/-- The digits without the letters that look like others. -/
def crockford : Alphabet := ⟨"0123456789ABCDEFGHJKMNPQRSTVWXYZ".toList, by decide, by decide⟩

def hexSet : CharSet := ⟨false, [('0', '9'), ('a', 'f'), ('A', 'F')]⟩

def octalSet : CharSet := ⟨false, [('0', '7')]⟩

def crockfordSet : CharSet where
  negated := false
  ranges := [('0', '9'), ('A', 'H'), ('J', 'J'), ('K', 'K'), ('M', 'M'), ('N', 'N'), ('P', 'T'),
    ('V', 'Z'), ('a', 'h'), ('j', 'j'), ('k', 'k'), ('m', 'm'), ('n', 'n'), ('p', 't'), ('v', 'z')]

/-- The digits in each group of a UUID. -/
def UUID_GROUPS : List Nat := [8, 4, 4, 4, 12]

def uuidPattern : Pattern where
  text := UUID
  parts := (UUID_GROUPS.map (Expr.set hexSet).times).intersperse (one '-')
  plain := by decide
  parsed := by decide +kernel

def tuuidPattern : Pattern where
  text := TUUID
  parts := [(Expr.set hexSet).times 32]
  plain := by decide
  parsed := by decide +kernel

def ulidPattern : Pattern where
  text := ULID
  parts := [.set octalSet, (Expr.set crockfordSet).times 25]
  plain := by decide
  parsed := by decide +kernel

section Classes
variable {c : Char}

theorem toLower_code : c.toLower.toNat =
    if 'A'.toNat ≤ c.toNat ∧ c.toNat ≤ 'Z'.toNat then c.toNat + 32 else c.toNat := by
  delta Char.toLower
  by_cases upper : c.val ≥ 'A'.val ∧ c.val ≤ 'Z'.val
  · have codes : 'A'.toNat ≤ c.toNat ∧ c.toNat ≤ 'Z'.toNat := upper
    have small : c.val.toNat ≤ 90 := codes.2
    have shift : ('a'.val - 'A'.val).toNat = 32 := by decide
    rw [dif_pos upper, if_pos codes, Char.toNat, UInt32.toNat_add, shift, Char.toNat]
    exact Nat.mod_eq_of_lt (by omega)
  · have codes : ¬('A'.toNat ≤ c.toNat ∧ c.toNat ≤ 'Z'.toNat) := upper
    rw [dif_neg upper, if_neg codes]

theorem toUpper_code : c.toUpper.toNat =
    if 'a'.toNat ≤ c.toNat ∧ c.toNat ≤ 'z'.toNat then c.toNat - 32 else c.toNat := by
  delta Char.toUpper
  by_cases lower : 'a'.val ≤ c.val ∧ c.val ≤ 'z'.val
  · have codes : 'a'.toNat ≤ c.toNat ∧ c.toNat ≤ 'z'.toNat := lower
    have bounds : 97 ≤ c.val.toNat ∧ c.val.toNat ≤ 122 := codes
    have shift : ('A'.val - 'a'.val).toNat = 4294967264 := by decide
    rw [dif_pos lower, if_pos codes, Char.toNat, UInt32.toNat_add, shift, Char.toNat]
    omega
  · have codes : ¬('a'.toNat ≤ c.toNat ∧ c.toNat ≤ 'z'.toNat) := lower
    rw [dif_neg lower, if_neg codes]

theorem hexSet_has : hexSet.has c = true ↔ c.toLower ∈ hexadecimal.digits := by
  have listed : hexadecimal.digits = ['0', '1', '2', '3', '4', '5', '6', '7', '8', '9', 'a', 'b',
      'c', 'd', 'e', 'f'] := by decide
  rw [hexSet, ranges_has, mem_codes, toLower_code, listed]
  simp only [List.mem_cons, List.not_mem_nil, or_false, exists_eq_or_imp, exists_eq_left]
  simp only [Char.reduceToNat]
  split <;> omega

theorem crockfordSet_has : crockfordSet.has c = true ↔ c.toUpper ∈ crockford.digits := by
  have listed : crockford.digits = ['0', '1', '2', '3', '4', '5', '6', '7', '8', '9', 'A', 'B',
      'C', 'D', 'E', 'F', 'G', 'H', 'J', 'K', 'M', 'N', 'P', 'Q', 'R', 'S', 'T', 'V', 'W', 'X',
      'Y', 'Z'] := by decide
  rw [crockfordSet, ranges_has, mem_codes, toUpper_code, listed]
  simp only [List.mem_cons, List.not_mem_nil, or_false, exists_eq_or_imp, exists_eq_left]
  simp only [Char.reduceToNat]
  split <;> omega

theorem octalSet_has : octalSet.has c = true ↔
    ∃ n < 8, crockford.digit n = c := by
  have listed : ∀ n < 8, (crockford.digit n).toNat = 48 + n := by decide
  rw [octalSet, ranges_has]
  simp only [List.mem_singleton, exists_eq_left, Char.reduceToNat]
  constructor
  · rintro ⟨low, high⟩
    have small : c.toNat - 48 < 8 := by omega
    refine ⟨c.toNat - 48, small, Char.toNat_inj.mp ?_⟩
    rw [listed _ small]
    omega
  · rintro ⟨n, small, rfl⟩
    rw [listed n small]
    omega

/-- The lower case of a letter has none of its own. -/
theorem toLower_toLower : c.toLower.toLower = c.toLower := by
  rw [← Char.toNat_inj, toLower_code, toLower_code]
  simp only [Char.reduceToNat]
  split_ifs <;> omega

theorem toUpper_toUpper : c.toUpper.toUpper = c.toUpper := by
  rw [← Char.toNat_inj, toUpper_code, toUpper_code]
  simp only [Char.reduceToNat]
  split_ifs <;> omega

theorem hexSet_blind : (Expr.set hexSet).Blind Char.toLower := by
  intro c
  rw [Bool.eq_iff_iff, hexSet_has, hexSet_has, toLower_toLower]

theorem crockfordSet_blind : (Expr.set crockfordSet).Blind Char.toUpper := by
  intro c
  rw [Bool.eq_iff_iff, crockfordSet_has, crockfordSet_has, toUpper_toUpper]

theorem octalSet_blind : (Expr.set octalSet).Blind Char.toUpper := by
  intro c
  rw [Bool.eq_iff_iff, octalSet, ranges_has, ranges_has, toUpper_code]
  simp only [List.mem_singleton, exists_eq_left, Char.reduceToNat]
  split <;> omega

theorem dash_blind : (one '-').Blind Char.toLower := by
  intro c
  rw [Bool.eq_iff_iff, ranges_has, ranges_has, toLower_code]
  simp only [List.mem_singleton, exists_eq_left, Char.reduceToNat]
  split <;> omega

end Classes

section Numbers
variable {t : List Char}

/-- A part of a text in lower case is of the class if it is of digits. -/
theorem lowered_digits {c : Char} (member : c ∈ t.map Char.toLower) :
    hexSet.has c = true ↔ c ∈ hexadecimal.digits := by
  obtain ⟨d, -, rfl⟩ := List.mem_map.mp member
  rw [hexSet_has, toLower_toLower]

theorem raised_digits {c : Char} (member : c ∈ t.map Char.toUpper) :
    crockfordSet.has c = true ↔ c ∈ crockford.digits := by
  obtain ⟨d, -, rfl⟩ := List.mem_map.mp member
  rw [crockfordSet_has, toUpper_toUpper]

theorem mem_uuid : t ∈ uuidPattern.language ↔ ∃! n, n < 2 ^ 128 ∧
    t.map Char.toLower = ['-'].intercalate (hexadecimal.groups UUID_GROUPS n) := by
  have blind : ∀ part ∈ uuidPattern.parts, part.Blind Char.toLower := by
    simp [uuidPattern, UUID_GROUPS, dash_blind, blind_times hexSet_blind]
  have digits : ∀ parts : List (List Char), t.map Char.toLower = ['-'].intercalate parts →
      ((∀ part ∈ parts, ∀ d ∈ part, hexSet.has d = true) ↔
        ∀ part ∈ parts, ∀ d ∈ part, d ∈ hexadecimal.digits) := by
    intro parts same
    refine forall₄_congr fun part present d inside => ?_
    have member : d ∈ t.map Char.toLower := same ▸ mem_intercalate present inside
    exact lowered_digits member
  have power : 2 ^ 128 = hexadecimal.base ^ UUID_GROUPS.sum := by decide
  rw [power, ← hexadecimal.separated_iff (by decide) (by decide)]
  refine (mem_map_prod blind).symm.trans (mem_groups.trans ?_)
  constructor
  · rintro ⟨parts, lengths, all, same⟩
    exact ⟨parts, lengths, (digits parts same).mp all, same⟩
  · rintro ⟨parts, lengths, all, same⟩
    exact ⟨parts, lengths, (digits parts same).mpr all, same⟩

theorem mem_tuuid : t ∈ tuuidPattern.language ↔
    ∃! n, n < 2 ^ 128 ∧ t.map Char.toLower = hexadecimal.write 32 n := by
  have blind : ∀ part ∈ tuuidPattern.parts, part.Blind Char.toLower := by
    simp [tuuidPattern, blind_times hexSet_blind]
  have power : 2 ^ 128 = hexadecimal.base ^ 32 := by decide
  rw [Pattern.language, ← mem_map_prod blind, power, ← Alphabet.written_iff]
  simp only [tuuidPattern, List.map_cons, List.map_nil, List.prod_singleton, mem_times_set]
  exact and_congr_right fun _ => forall₂_congr fun _ => lowered_digits

theorem mem_ulid : t ∈ ulidPattern.language ↔
    ∃! n, n < 2 ^ 128 ∧ t.map Char.toUpper = crockford.write 26 n := by
  have blind : ∀ part ∈ ulidPattern.parts, part.Blind Char.toUpper := by
    simp [ulidPattern, octalSet_blind, blind_times crockfordSet_blind]
  have power : 2 ^ 128 = 8 * crockford.base ^ 25 := by decide
  rw [Pattern.language, ← mem_map_prod blind, power, ← Alphabet.bounded_iff (by decide)]
  simp only [ulidPattern, List.map_cons, List.map_nil, List.prod_cons, List.prod_nil, mul_one,
    Language.mem_mul, mem_set, octalSet_has, mem_times_set]
  constructor
  · rintro ⟨_, ⟨_, ⟨first, small, rfl⟩, rfl⟩, rest, ⟨length, all⟩, same⟩
    refine ⟨first, small, rest, length, fun c inside => ?_, same.symm⟩
    have member : c ∈ t.map Char.toUpper := same ▸ List.mem_append_right _ inside
    exact (raised_digits member).mp (all c inside)
  · rintro ⟨first, small, rest, length, all, same⟩
    refine ⟨_, ⟨_, ⟨first, small, rfl⟩, rfl⟩, rest, ⟨length, fun c inside => ?_⟩, same.symm⟩
    have member : c ∈ t.map Char.toUpper := same ▸ List.mem_cons_of_mem _ inside
    exact (raised_digits member).mpr (all c inside)

end Numbers

/-- Each format is of exactly one number of 128 bits, with its letters in one case. -/
theorem formats_numbers (cel : Bool) (inner : Regexes.Engine) (uuid : inner.Ordinary UUID)
    (tuuid : inner.Ordinary TUUID) (ulid : inner.Ordinary ULID) (s : String) :
    (isUuid cel inner s = .ok true ↔ ∃! n, n < 2 ^ 128 ∧
      s.toList.map Char.toLower = ['-'].intercalate (hexadecimal.groups UUID_GROUPS n)) ∧
    (isTuuid cel inner s = .ok true ↔ ∃! n, n < 2 ^ 128 ∧
      s.toList.map Char.toLower = hexadecimal.write 32 n) ∧
    (isUlid cel inner s = .ok true ↔ ∃! n, n < 2 ^ 128 ∧
      s.toList.map Char.toUpper = crockford.write 26 n) := by
  refine ⟨?_, ?_, ?_⟩
  · rw [← mem_uuid]
    exact isFormat_pattern uuidPattern (by simp [uuidPattern, PATTERNS]) uuid s
  · rw [← mem_tuuid]
    exact isFormat_pattern tuuidPattern (by simp [tuuidPattern, PATTERNS]) tuuid s
  · rw [← mem_ulid]
    exact isFormat_pattern ulidPattern (by simp [ulidPattern, PATTERNS]) ulid s

/-- A UUID in upper case, and a ULID and the first one that is of no number. -/
theorem formats_numbers_texts :
    (∃! n, n < 2 ^ 128 ∧ "123E4567-E89B-12D3-A456-426614174000".toList.map Char.toLower =
      ['-'].intercalate (hexadecimal.groups UUID_GROUPS n)) ∧
    (∃! n, n < 2 ^ 128 ∧
      "7zzzzzzzzzzzzzzzzzzzzzzzzz".toList.map Char.toUpper = crockford.write 26 n) ∧
    ¬∃! n, n < 2 ^ 128 ∧
      "80000000000000000000000000".toList.map Char.toUpper = crockford.write 26 n := by
  have ordinary := Regexes.Engine.backtracking_ordinary
  have numbers := formats_numbers false .backtracking (ordinary _) (ordinary _) (ordinary _)
  have found : isUuid false .backtracking "123E4567-E89B-12D3-A456-426614174000" = .ok true ∧
      isUlid false .backtracking "7zzzzzzzzzzzzzzzzzzzzzzzzz" = .ok true ∧
      isUlid false .backtracking "80000000000000000000000000" ≠ .ok true := by decide +kernel
  exact ⟨(numbers _).1.mp found.1, (numbers _).2.2.mp found.2.1,
    fun number => found.2.2 ((numbers _).2.2.mpr number)⟩

end Protovalidate
