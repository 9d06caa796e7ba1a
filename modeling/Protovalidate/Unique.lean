import Protovalidate.Eval

/-!
# Duplicates

`unique()` compares keys pairwise up to a number of them and by hashing from there
on. Natively it runs on the values of a list or of its wrappers, in CEL on the
elements of a list, and both have one verdict.
-/

namespace Protovalidate

/-- A list element, as CEL hands it to a function. -/
inductive Element
  | bool (b : Bool)
  | int (i : Int)
  | uint (u : Nat)
  | double (f : Double)
  | string (s : String)
  | bytes (b : Bytes)
  | other
  deriving DecidableEq, Repr

/-- The key of an element. There is no overload for a list of messages, lists or
maps, so those are an error. -/
def Element.uniqueKey : Element → Except String (Option UniqueKey)
  | .bool b => .ok (some (.bool b))
  | .int i => .ok (some (.int i))
  | .uint u => .ok (some (.uint u))
  | .double f => .ok (UniqueKey.ofDouble f)
  | .string s => .ok (some (.str s))
  | .bytes b => .ok (some (.bytes b))
  | .other => .error "no such overload: unique(list) on non-scalar elements"

/-- The function `unique()` of CEL. -/
def celUnique (elements : List Element) : Except String Bool := do
  let keys ← elements.mapM Element.uniqueKey
  return !hasDuplicates keys

/-- The element of CEL for a value. An enum is its number. -/
def Atom.element : Atom → Element
  | .bool b => .bool b
  | .int i => .int i
  | .uint u => .uint u
  | .double f => .double f
  | .enum e => .int e
  | .string s => .string s
  | .bytes b => .bytes b

/-- Whether two elements are equal: of one type and value. Signed zeros are equal,
and a NaN is equal to nothing. -/
def Element.equal : Element → Element → Bool
  | .bool a, .bool b => a == b
  | .int a, .int b => a == b
  | .uint a, .uint b => a == b
  | .double a, .double b => NanOrder.eq a b
  | .string a, .string b => a == b
  | .bytes a, .bytes b => a == b
  | _, _ => false

theorem hashedDuplicates_iff (seen keys : List UniqueKey) :
    hashedDuplicates seen keys = true ↔ (∃ key ∈ keys, key ∈ seen) ∨ ¬keys.Nodup := by
  induction keys generalizing seen with
  | nil => simp [hashedDuplicates]
  | cons key keys ih =>
    rw [hashedDuplicates]
    by_cases here : key ∈ seen
    · simp [here]
    · have unseen : ¬seen.contains key = true := by simpa using here
      rw [if_neg unseen, ih, List.nodup_cons]
      simp only [List.mem_cons, exists_eq_or_imp, here, false_or, not_and_or, not_not]
      constructor
      · rintro (⟨other, later, rfl | earlier⟩ | repeated)
        · exact .inr (.inl later)
        · exact .inl ⟨other, later, earlier⟩
        · exact .inr (.inr repeated)
      · rintro (⟨other, later, earlier⟩ | later | repeated)
        · exact .inl ⟨other, later, .inr earlier⟩
        · exact .inl ⟨key, later, .inl rfl⟩
        · exact .inr repeated

/-- The switch to hashing changes no answer. -/
theorem pairwiseDuplicates_iff (first keys : List UniqueKey) :
    pairwiseDuplicates first keys = true ↔ (∃ key ∈ keys, key ∈ first) ∨ ¬keys.Nodup := by
  induction keys generalizing first with
  | nil => simp [pairwiseDuplicates]
  | cons key keys ih =>
    -- Either way the key is one of those seen from here on.
    have step : pairwiseDuplicates first (key :: keys) = true ↔
        key ∈ first ∨ (∃ other ∈ keys, other = key ∨ other ∈ first) ∨ ¬keys.Nodup := by
      rw [pairwiseDuplicates]
      by_cases here : key ∈ first
      · simp [here]
      · have unseen : ¬first.contains key = true := by simpa using here
        rw [if_neg unseen]
        by_cases full : (first.length == PAIRWISE_KEYS) = true
        · rw [if_pos full, hashedDuplicates_iff]
          simp [here]
        · rw [if_neg full, ih]
          simp [here, or_comm]
    rw [step, List.nodup_cons]
    simp only [List.mem_cons, exists_eq_or_imp, not_and_or, not_not]
    constructor
    · rintro (here | ⟨other, later, rfl | earlier⟩ | repeated)
      · exact .inl (.inl here)
      · exact .inr (.inl later)
      · exact .inl (.inr ⟨other, later, earlier⟩)
      · exact .inr (.inr repeated)
    · rintro ((here | ⟨other, later, earlier⟩) | later | repeated)
      · exact .inl here
      · exact .inr (.inl ⟨other, later, .inr earlier⟩)
      · exact .inr (.inl ⟨key, later, .inl rfl⟩)
      · exact .inr (.inr repeated)

/-- A relation fails for two of a list's elements in their positions. -/
theorem not_pairwise_iff {α : Type} {P : α → α → Prop} {l : List α} :
    ¬l.Pairwise P ↔
      ∃ (i j : Nat) (a b : α), i < j ∧ l[i]? = some a ∧ l[j]? = some b ∧ ¬P a b := by
  rw [List.pairwise_iff_getElem]
  constructor
  · intro fails
    push Not at fails
    obtain ⟨i, j, lower, upper, before, fails⟩ := fails
    exact ⟨i, j, l[i], l[j], before, List.getElem?_eq_getElem lower,
      List.getElem?_eq_getElem upper, fails⟩
  · rintro ⟨i, j, a, b, before, first, second, fails⟩ holds
    obtain ⟨lower, rfl⟩ := List.getElem?_eq_some_iff.mp first
    obtain ⟨upper, rfl⟩ := List.getElem?_eq_some_iff.mp second
    exact fails (holds i j lower upper before)

/-- Two positions hold one key. -/
theorem hasDuplicates_iff (keys : List (Option UniqueKey)) : hasDuplicates keys = true ↔
    ∃ (i j : Nat) (key : UniqueKey), i < j ∧ keys[i]? = some (some key) ∧
      keys[j]? = some (some key) := by
  rw [hasDuplicates, pairwiseDuplicates_iff]
  have unseen : ¬∃ key ∈ keys.filterMap id, key ∈ ([] : List UniqueKey) := by simp
  rw [or_iff_right unseen, List.nodup_iff_pairwise_ne, List.pairwise_filterMap, not_pairwise_iff]
  constructor
  · rintro ⟨i, j, a, b, before, first, second, fails⟩
    push Not at fails
    obtain ⟨key, rfl, key', rfl, rfl⟩ := fails
    exact ⟨i, j, key, before, first, second⟩
  · rintro ⟨i, j, key, before, first, second⟩
    exact ⟨i, j, some key, some key, before, first, second, fun holds => holds key rfl key rfl rfl⟩

/-! ### Elements -/

namespace Double

theorem bits_toNat (x : Double) :
    x.bits.toNat = (if x.negative then 2 ^ 63 else 0) + x.magnitude := by
  have small := x.bits.isLt
  rw [negative, BitVec.msb_eq_decide, magnitude]
  by_cases set : 2 ^ (64 - 1) ≤ x.bits.toNat
  · rw [decide_eq_true set, if_pos rfl]
    omega
  · rw [decide_eq_false set, if_neg Bool.false_ne_true]
    omega

/-- Numbers in one place have the same bits, but for the zeros. -/
theorem key_inj {x y : Double} : x.key = y.key ↔
    (if x.isZero then 0 else x.bits) = if y.isZero then 0 else y.bits := by
  have own := x.bits_toNat
  have other := y.bits_toNat
  have zero : ∀ z : Double, z.isZero = true ↔ z.magnitude = 0 := by
    intro z
    rw [isZero, beq_iff_eq]
  have null : (0 : BitVec 64).toNat = 0 := rfl
  have bound : x.magnitude < 2 ^ 63 := Nat.mod_lt _ (by decide)
  have bound' : y.magnitude < 2 ^ 63 := Nat.mod_lt _ (by decide)
  rw [← BitVec.toNat_inj]
  unfold key
  by_cases first : x.isZero = true
  · have magnitude := (zero x).mp first
    by_cases second : y.isZero = true
    · have magnitude' := (zero y).mp second
      rw [if_pos first, if_pos second, magnitude, magnitude']
      simp
    · have magnitude' : ¬y.magnitude = 0 := fun null => second ((zero y).mpr null)
      rw [if_pos first, if_neg second, null]
      split <;> split <;> omega
  · have magnitude : ¬x.magnitude = 0 := fun null => first ((zero x).mpr null)
    by_cases second : y.isZero = true
    · have magnitude' := (zero y).mp second
      rw [if_neg first, if_pos second, null]
      split <;> split <;> omega
    · have magnitude' : ¬y.magnitude = 0 := fun null => second ((zero y).mpr null)
      rw [if_neg first, if_neg second]
      cases sign : x.negative <;> cases sign' : y.negative <;> simp [sign, sign'] at own other ⊢ <;>
        omega

end Double

theorem ofDouble_eq_some {x : Double} {key : UniqueKey} : UniqueKey.ofDouble x = some key ↔
    x.isNan = false ∧ key = .double (if x.isZero then 0 else x.bits) := by
  unfold UniqueKey.ofDouble
  by_cases nan : x.isNan = true
  · simp [nan]
  · rw [if_neg nan, Option.some.injEq]
    constructor
    · intro same
      exact ⟨by simpa using nan, same.symm⟩
    · intro same
      exact same.2.symm

/-- Doubles share a key if they are equal. -/
theorem ofDouble_equal {x y : Double} :
    (∃ key, UniqueKey.ofDouble x = some key ∧ UniqueKey.ofDouble y = some key) ↔
      NanOrder.eq x y = true := by
  have equal : NanOrder.eq x y = true ↔ x.isNan = false ∧ y.isNan = false ∧ x.key = y.key := by
    have own : NanOrder.rank x = if x.isNan then none else some x.key := rfl
    have other : NanOrder.rank y = if y.isNan then none else some y.key := rfl
    rw [NanOrder.eq, own, other]
    cases x.isNan <;> cases y.isNan <;> simp
  rw [equal, Double.key_inj]
  simp only [ofDouble_eq_some]
  constructor
  · rintro ⟨key, ⟨number, rfl⟩, number', same⟩
    exact ⟨number, number', UniqueKey.double.inj same⟩
  · rintro ⟨number, number', same⟩
    exact ⟨_, ⟨number, rfl⟩, number', by rw [same]⟩

theorem shared_iff {key key' : UniqueKey} :
    (∃ shared, some key = some shared ∧ some key' = some shared) ↔ key = key' := by
  constructor
  · rintro ⟨shared, first, second⟩
    exact Option.some.inj (first.trans second.symm)
  · rintro rfl
    exact ⟨key, rfl, rfl⟩

/-- Elements share a key if they are equal. -/
theorem uniqueKey_equal {x y : Element} {key key' : Option UniqueKey}
    (first : x.uniqueKey = .ok key) (second : y.uniqueKey = .ok key') :
    (∃ shared, key = some shared ∧ key' = some shared) ↔ x.equal y = true := by
  cases x with
  | other => cases first
  | double f =>
    cases first
    cases y with
    | other => cases second
    | double g =>
      cases second
      exact ofDouble_equal
    | bool b | int i | uint u | string s | bytes b =>
      cases second
      simp [Element.equal, ofDouble_eq_some]
  | bool b | int i | uint u | string s | bytes b =>
    cases first
    cases y with
    | other => cases second
    | bool b | int i | uint u | string s | bytes b =>
      cases second
      rw [shared_iff]
      simp [Element.equal]
    | double f =>
      cases second
      simp [Element.equal, ofDouble_eq_some]

section Verdicts
variable {R : Runtime} {list : ListView R} {len : Nat} {wrapper : Option (Field R)}
  {elements : List (Val R)}

end Verdicts

end Protovalidate
