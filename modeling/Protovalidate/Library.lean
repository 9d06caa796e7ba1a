import Protovalidate.Predefined
import Protovalidate.Unique

/-!
# The functions that rules can call beyond CEL's own

Each entry of `FUNCTIONS` is one overload, named and typed as CEL sees it. An overload
that is called with arguments of its kinds decides what the rules of `validate.proto`
take it to decide.
-/

namespace Protovalidate

namespace Library

/-- The type of an argument, as a function is registered. -/
inductive Kind
  | bool | int | uint | double | string | bytes | list
  deriving DecidableEq, Repr

/-- An argument, of the kind the function was registered with. -/
inductive Arg
  | bool (b : Bool)
  | int (i : Int)
  | uint (u : Nat)
  | double (d : Double)
  | string (s : String)
  | bytes (b : Bytes)
  | list (elements : List Element)
  deriving DecidableEq, Repr

def Arg.kind : Arg → Kind
  | .bool _ => .bool
  | .int _ => .int
  | .uint _ => .uint
  | .double _ => .double
  | .string _ => .string
  | .bytes _ => .bytes
  | .list _ => .list

/-- A function's implementation: a predicate, or the message of the error the
expression sees instead of a value. -/
abbrev NativeFn := List Arg → Except String Bool

/-- One library function, called as a method of its first argument. -/
structure Function where
  name : String
  args : List Kind
  call : NativeFn

def mismatch (name : String) : String := name ++ ": unexpected arguments"

def isNan : NativeFn
  | [.double value] => .ok value.isNan
  | _ => .error (mismatch "isNan")

/-- Zero, for `value > 0.0`. -/
def zero : Double := ⟨0⟩

/-- `isInf()` for either infinity, `isInf(sign)` for the positive one when `sign > 0`,
the negative one when `sign < 0`, either when zero. -/
def isInf (args : List Arg) : Except String Bool := do
  let (value, sign) ← match args with
    | [.double value] => .ok (value, 0)
    | [.double value, .int sign] => .ok (value, sign)
    | _ => .error (mismatch "isInf")
  return value.isInfinite && (sign == 0 || decide (0 < sign) == NanOrder.lt zero value)

def unique : NativeFn
  | [.list elements] => celUnique elements
  | _ => .error (mismatch "unique")

def bytesPair (args : List Arg) (name : String) : Except String (Bytes × Bytes) :=
  match args with
  | [.bytes lhs, .bytes rhs] => .ok (lhs, rhs)
  | _ => .error (mismatch name)

def contains (args : List Arg) : Except String Bool := do
  let (haystack, needle) ← bytesPair args "contains"
  return Protovalidate.contains haystack needle

def startsWith (args : List Arg) : Except String Bool := do
  let (value, first) ← bytesPair args "startsWith"
  return first.isPrefixOf value

def endsWith (args : List Arg) : Except String Bool := do
  let (value, last) ← bytesPair args "endsWith"
  return last.isSuffixOf value

def stringArg (args : List Arg) (name : String) : Except String String :=
  match args.head? with
  | some (.string value) => .ok value
  | _ => .error (mismatch name)

section Formats
variable (B : Backend)

/-- A format that has no parameters. -/
def isFormat (name : String) (accepts : String → Bool) (args : List Arg) : Except String Bool := do
  return accepts (← stringArg args name)

def isHostname : NativeFn := isFormat "isHostname" B.isHostname

def isEmail : NativeFn := isFormat "isEmail" B.isEmail

/-- `isIp()` for either version, `isIp(4)` or `isIp(6)` for one; any other version is
no IP address. -/
def isIp (args : List Arg) : Except String Bool := do
  let value ← stringArg args "isIp"
  match args[1]? with
  | none | some (.int 0) => return B.isIp value
  | some (.int 4) => return B.isIpv4 value
  | some (.int 6) => return B.isIpv6 value
  | some (.int _) => return false
  | some _ => throw (mismatch "isIp")

/-- `isIpPrefix()`, `isIpPrefix(version)`, `isIpPrefix(strict)` or
`isIpPrefix(version, strict)`; strict also requires the host bits to be zero. -/
def isIpPrefix (args : List Arg) : Except String Bool := do
  let value ← stringArg args "isIpPrefix"
  let (version, strict) ← match args.drop 1 with
    | [] => .ok (0, false)
    | [.int version] => .ok (version, false)
    | [.bool strict] => .ok (0, strict)
    | [.int version, .bool strict] => .ok (version, strict)
    | _ => .error (mismatch "isIpPrefix")
  return match (version : Int) with
    | 0 => B.isIpPrefix value strict
    | 4 => B.isIpv4Prefix value strict
    | 6 => B.isIpv6Prefix value strict
    | _ => false

def isUri : NativeFn := isFormat "isUri" B.isUri

def isUriRef : NativeFn := isFormat "isUriRef" B.isUriRef

def isHostAndPort : NativeFn
  | [.string value, .bool portRequired] => .ok (B.isHostAndPort value portRequired)
  | _ => .error (mismatch "isHostAndPort")

/-- Every function protovalidate adds to CEL, every overload a separate entry. -/
def FUNCTIONS : List Function := [
  ⟨"isNan", [.double], isNan⟩,
  ⟨"isInf", [.double], isInf⟩,
  ⟨"isInf", [.double, .int], isInf⟩,
  ⟨"unique", [.list], unique⟩,
  ⟨"contains", [.bytes, .bytes], contains⟩,
  ⟨"startsWith", [.bytes, .bytes], startsWith⟩,
  ⟨"endsWith", [.bytes, .bytes], endsWith⟩,
  ⟨"isHostname", [.string], isHostname B⟩,
  ⟨"isEmail", [.string], isEmail B⟩,
  ⟨"isIp", [.string], isIp B⟩,
  ⟨"isIp", [.string, .int], isIp B⟩,
  ⟨"isIpPrefix", [.string], isIpPrefix B⟩,
  ⟨"isIpPrefix", [.string, .int], isIpPrefix B⟩,
  ⟨"isIpPrefix", [.string, .bool], isIpPrefix B⟩,
  ⟨"isIpPrefix", [.string, .int, .bool], isIpPrefix B⟩,
  ⟨"isUri", [.string], isUri B⟩,
  ⟨"isUriRef", [.string], isUriRef B⟩,
  ⟨"isHostAndPort", [.string, .bool], isHostAndPort B⟩]

end Formats

/-! ### What the calls decide -/

/-- Why `unique()` is an error on some lists. -/
def NO_OVERLOAD : String := "no such overload: unique(list) on non-scalar elements"

/-- What a call of a method decides, `none` when there is none for its arguments. -/
def method (B : Backend) : String → List Arg → Option (Except String Bool)
  | "isNan", [.double value] => some (.ok (NanOrder.isNan value))
  | "isInf", [.double value] => some (.ok value.isInfinite)
  | "isInf", [.double value, .int sign] =>
    some (.ok (value.isInfinite && if value.negative then sign ≤ 0 else 0 ≤ sign))
  | "unique", [.list elements] =>
    some (if .other ∈ elements then .error NO_OVERLOAD
      else .ok (decide (elements.Pairwise fun x y => x.equal y = false)))
  | "contains", [.bytes value, .bytes part] => some (.ok (decide (part <:+: value)))
  | "startsWith", [.bytes value, .bytes part] => some (.ok (decide (part <+: value)))
  | "endsWith", [.bytes value, .bytes part] => some (.ok (decide (part <:+ value)))
  | "isHostname", [.string value] => some (.ok (B.isHostname value))
  | "isEmail", [.string value] => some (.ok (B.isEmail value))
  | "isIp", [.string value] => some (.ok (celIsIp B value 0))
  | "isIp", [.string value, .int version] =>
    some (.ok (0 ≤ version && celIsIp B value version.toNat))
  | "isIpPrefix", [.string value] => some (.ok (celIsIpPrefix B value 0 false))
  | "isIpPrefix", [.string value, .int version] =>
    some (.ok (0 ≤ version && celIsIpPrefix B value version.toNat false))
  | "isIpPrefix", [.string value, .bool strict] => some (.ok (celIsIpPrefix B value 0 strict))
  | "isIpPrefix", [.string value, .int version, .bool strict] =>
    some (.ok (0 ≤ version && celIsIpPrefix B value version.toNat strict))
  | "isUri", [.string value] => some (.ok (B.isUri value))
  | "isUriRef", [.string value] => some (.ok (B.isUriRef value))
  | "isHostAndPort", [.string value, .bool portRequired] =>
    some (.ok (B.isHostAndPort value portRequired))
  | _, _ => none

section Windows
variable {α : Type} {needle haystack : List α}

/-- A window is a part of the list. -/
theorem mem_windows_iff : needle ∈ windows needle.length haystack ↔ needle <:+: haystack := by
  simp only [windows, List.mem_filter, List.mem_map, List.mem_tails, beq_self_eq_true, and_true]
  constructor
  · rintro ⟨rest, suffix, taken⟩
    exact List.infix_iff_prefix_suffix.mpr ⟨rest, taken ▸ List.take_prefix .., suffix⟩
  · intro within
    obtain ⟨rest, starts, suffix⟩ := List.infix_iff_prefix_suffix.mp within
    exact ⟨rest, suffix, (List.prefix_iff_eq_take.mp starts).symm⟩

end Windows

theorem contains_eq (haystack needle : Bytes) :
    Protovalidate.contains haystack needle = decide (needle <:+: haystack) := by
  rw [Bool.eq_iff_iff, decide_eq_true_iff, ← mem_windows_iff, Protovalidate.contains,
    Bool.or_eq_true, List.any_eq_true]
  constructor
  · rintro (empty | ⟨window, member, same⟩)
    · rw [List.isEmpty_iff.mp empty]
      exact mem_windows_iff.mpr (List.nil_infix)
    · rw [eq_of_beq same] at member
      exact member
  · exact fun member => .inr ⟨needle, member, beq_self_eq_true needle⟩

/-- The keys of elements that are all scalars. -/
theorem mapM_keys (elements : List Element) :
    elements.mapM Element.uniqueKey =
      if .other ∈ elements then .error NO_OVERLOAD
      else .ok (elements.map fun element => (element.uniqueKey.toOption).join) := by
  induction elements with
  | nil => rfl
  | cons element elements ih =>
    rw [List.mapM_cons, ih]
    cases element with
    | other => simp [Element.uniqueKey, NO_OVERLOAD, bind, Except.bind]
    | bool | int | uint | double | string | bytes =>
      by_cases other : Element.other ∈ elements
      · simp [other, Element.uniqueKey, bind, Except.bind]
      · simp [other, Element.uniqueKey, bind, Except.bind, pure, Except.pure, Except.toOption]

/-- `unique()` finds whether two positions hold equal elements. -/
theorem celUnique_eq (elements : List Element) :
    celUnique elements = if .other ∈ elements then .error NO_OVERLOAD
      else .ok (decide (elements.Pairwise fun x y => x.equal y = false)) := by
  rw [celUnique, mapM_keys]
  by_cases other : Element.other ∈ elements
  · simp [other, bind, Except.bind]
  have scalar : ∀ element ∈ elements,
      element.uniqueKey = .ok (element.uniqueKey.toOption).join := by
    intro element member
    cases element with
    | other => exact absurd member other
    | bool | int | uint | double | string | bytes => rfl
  have repeats :
      hasDuplicates (elements.map fun element => element.uniqueKey.toOption.join) = true ↔
        ¬elements.Pairwise fun x y => x.equal y = false := by
    rw [hasDuplicates_iff, not_pairwise_iff]
    simp only [List.getElem?_map, Option.map_eq_some_iff]
    constructor
    · rintro ⟨i, j, key, before, ⟨x, first, own⟩, y, second, same⟩
      refine ⟨i, j, x, y, before, first, second, Bool.not_eq_false _ ▸ ?_⟩
      exact (uniqueKey_equal (scalar x (List.mem_of_getElem? first))
        (scalar y (List.mem_of_getElem? second))).mp ⟨key, own, same⟩
    · rintro ⟨i, j, x, y, before, first, second, equal⟩
      obtain ⟨key, own, same⟩ := (uniqueKey_equal (scalar x (List.mem_of_getElem? first))
        (scalar y (List.mem_of_getElem? second))).mpr (Bool.not_eq_false _ ▸ equal)
      exact ⟨i, j, key, before, ⟨x, first, own⟩, y, second, same⟩
  rw [if_neg other, if_neg other]
  refine congrArg Except.ok ?_
  rw [Bool.eq_iff_iff, Bool.not_eq_true', decide_eq_true_iff, ← Bool.not_eq_true, repeats, not_not]

/-- An infinity is above zero unless it is negative. -/
theorem lt_zero {value : Double} (infinite : value.isInfinite = true) :
    NanOrder.lt zero value = !value.negative := by
  have magnitude : value.magnitude = Double.infinite := by
    simpa [Double.isInfinite] using infinite
  have number : value.isNan = false := by simp [Double.isNan, magnitude]
  have ranked : NanOrder.rank value = some value.key := by
    change (if value.isNan then none else some value.key) = _
    rw [number, if_neg Bool.false_ne_true]
  have origin : NanOrder.rank zero = some (0 : Int) := by decide
  rw [NanOrder.lt, ranked, origin]
  have positive : (0 : Int) < Double.infinite := by decide
  cases negative : value.negative with
  | true =>
    simp only [Double.key, negative, if_true, magnitude]
    simp only [Bool.not_true, decide_eq_false_iff_not]
    omega
  | false =>
    simp only [Double.key, negative, Bool.false_eq_true, if_false, magnitude]
    simpa using positive

theorem isInf_sign (value : Double) (sign : Int) :
    (value.isInfinite && (sign == 0 || decide (0 < sign) == NanOrder.lt zero value)) =
      (value.isInfinite && if value.negative then decide (sign ≤ 0) else decide (0 ≤ sign)) := by
  cases infinite : value.isInfinite with
  | false => rfl
  | true =>
    rw [lt_zero infinite, Bool.true_and, Bool.true_and, Bool.eq_iff_iff]
    cases value.negative
    · simp
      omega
    · simp
      omega

/-- A version below zero is none of those there are. -/
theorem version_match (version : Int) (any four six : Bool) : (match version with
    | 0 => any
    | 4 => four
    | 6 => six
    | _ => false) = (decide (0 ≤ version) && match version.toNat with
    | 0 => any
    | 4 => four
    | 6 => six
    | _ => false) := by
  cases version with
  | negSucc n => rfl
  | ofNat n =>
    have natural : ∀ n : Nat, (match (Int.ofNat n) with
        | 0 => any
        | 4 => four
        | 6 => six
        | _ => false) = match n with
        | 0 => any
        | 4 => four
        | 6 => six
        | _ => false
      | 0 | 1 | 2 | 3 | 4 | 5 | 6 | _ + 7 => rfl
    rw [natural]
    simp

section Calls
variable {B : Backend}

@[simp] theorem kind_double {arg : Arg} : arg.kind = .double ↔ ∃ d, arg = .double d := by
  cases arg <;> simp [Arg.kind]

@[simp] theorem kind_int {arg : Arg} : arg.kind = .int ↔ ∃ i, arg = .int i := by
  cases arg <;> simp [Arg.kind]

@[simp] theorem kind_bool {arg : Arg} : arg.kind = .bool ↔ ∃ b, arg = .bool b := by
  cases arg <;> simp [Arg.kind]

@[simp] theorem kind_string {arg : Arg} : arg.kind = .string ↔ ∃ s, arg = .string s := by
  cases arg <;> simp [Arg.kind]

@[simp] theorem kind_bytes {arg : Arg} : arg.kind = .bytes ↔ ∃ b, arg = .bytes b := by
  cases arg <;> simp [Arg.kind]

@[simp] theorem kind_list {arg : Arg} : arg.kind = .list ↔ ∃ elements, arg = .list elements := by
  cases arg <;> simp [Arg.kind]

theorem isNan_eq (value : Double) : NanOrder.isNan value = value.isNan := by
  have rank : NanOrder.rank value = if value.isNan then none else some value.key := rfl
  rw [NanOrder.isNan, rank]
  cases value.isNan <;> rfl

theorem decide_isPrefix (first value : Bytes) : first.isPrefixOf value = decide
    (first <+: value) := by
  rw [Bool.eq_iff_iff, decide_eq_true_iff, List.isPrefixOf_iff_prefix]

theorem decide_isSuffix (last value : Bytes) : last.isSuffixOf value = decide (last <:+ value) := by
  rw [Bool.eq_iff_iff, decide_eq_true_iff, List.isSuffixOf_iff_suffix]

theorem isIp_version (value : String) (version : Int) :
    isIp B [.string value, .int version] =
      .ok (decide (0 ≤ version) && celIsIp B value version.toNat) := by
  refine Eq.trans ?_ (congrArg Except.ok (version_match version ..))
  simp only [isIp, stringArg, List.head?_cons, List.getElem?_cons_succ, List.getElem?_cons_zero]
  split
  case h_6 other same => exact absurd (Option.some.inj same).symm (other version)
  all_goals simp_all [bind, Except.bind, pure, Except.pure]

/-- A function that is called with arguments of its kinds decides what its method does. -/
theorem call_method {function : Function} (listed : function ∈ FUNCTIONS B) {args : List Arg}
    (kinds : args.map Arg.kind = function.args) :
    method B function.name args = some (function.call args) := by
  simp only [FUNCTIONS, List.mem_cons, List.not_mem_nil, or_false] at listed
  rcases listed with rfl | rfl | rfl | rfl | rfl | rfl | rfl | rfl | rfl | rfl | rfl | rfl | rfl |
    rfl | rfl | rfl | rfl | rfl <;>
    simp only [List.map_eq_cons_iff, List.map_eq_nil_iff, kind_double, kind_int, kind_bool,
      kind_string, kind_bytes, kind_list] at kinds
  · obtain ⟨_, _, rfl, ⟨value, rfl⟩, rfl⟩ := kinds
    exact congrArg (some ∘ Except.ok) (isNan_eq value)
  · obtain ⟨_, _, rfl, ⟨value, rfl⟩, rfl⟩ := kinds
    exact congrArg (some ∘ Except.ok) (Bool.and_true _).symm
  · obtain ⟨_, _, rfl, ⟨value, rfl⟩, _, _, rfl, ⟨sign, rfl⟩, rfl⟩ := kinds
    exact congrArg (some ∘ Except.ok) (isInf_sign value sign).symm
  · obtain ⟨_, _, rfl, ⟨elements, rfl⟩, rfl⟩ := kinds
    exact congrArg some (celUnique_eq elements).symm
  · obtain ⟨_, _, rfl, ⟨value, rfl⟩, _, _, rfl, ⟨part, rfl⟩, rfl⟩ := kinds
    exact congrArg (some ∘ Except.ok) (contains_eq value part).symm
  · obtain ⟨_, _, rfl, ⟨value, rfl⟩, _, _, rfl, ⟨part, rfl⟩, rfl⟩ := kinds
    exact congrArg (some ∘ Except.ok) (decide_isPrefix part value).symm
  · obtain ⟨_, _, rfl, ⟨value, rfl⟩, _, _, rfl, ⟨part, rfl⟩, rfl⟩ := kinds
    exact congrArg (some ∘ Except.ok) (decide_isSuffix part value).symm
  · obtain ⟨_, _, rfl, ⟨value, rfl⟩, rfl⟩ := kinds
    rfl
  · obtain ⟨_, _, rfl, ⟨value, rfl⟩, rfl⟩ := kinds
    rfl
  · obtain ⟨_, _, rfl, ⟨value, rfl⟩, rfl⟩ := kinds
    rfl
  · obtain ⟨_, _, rfl, ⟨value, rfl⟩, _, _, rfl, ⟨version, rfl⟩, rfl⟩ := kinds
    exact congrArg some (isIp_version value version).symm
  · obtain ⟨_, _, rfl, ⟨value, rfl⟩, rfl⟩ := kinds
    rfl
  · obtain ⟨_, _, rfl, ⟨value, rfl⟩, _, _, rfl, ⟨version, rfl⟩, rfl⟩ := kinds
    exact congrArg (some ∘ Except.ok) (version_match version ..).symm
  · obtain ⟨_, _, rfl, ⟨value, rfl⟩, _, _, rfl, ⟨strict, rfl⟩, rfl⟩ := kinds
    rfl
  · obtain ⟨_, _, rfl, ⟨value, rfl⟩, _, _, rfl, ⟨version, rfl⟩, _, _, rfl, ⟨strict, rfl⟩, rfl⟩ :=
      kinds
    exact congrArg (some ∘ Except.ok) (version_match version ..).symm
  · obtain ⟨_, _, rfl, ⟨value, rfl⟩, rfl⟩ := kinds
    rfl
  · obtain ⟨_, _, rfl, ⟨value, rfl⟩, rfl⟩ := kinds
    rfl
  · obtain ⟨_, _, rfl, ⟨value, rfl⟩, _, _, rfl, ⟨portRequired, rfl⟩, rfl⟩ := kinds
    rfl

/-- A method with arguments is a function of their kinds. -/
theorem method_listed {name : String} {args : List Arg} {outcome : Except String Bool}
    (decides : method B name args = some outcome) :
    ∃ function ∈ FUNCTIONS B, function.name = name ∧ function.args = args.map Arg.kind := by
  unfold method at decides
  split at decides
  case h_19 => cases decides
  all_goals simp [FUNCTIONS, Arg.kind]

end Calls

end Library

end Protovalidate
