import Protovalidate.Format

/-!
# Building the checks of one rules message

The checks that `validate.proto` attaches to the rule fields with a native
check, usually one a field, two for a string format with its `_empty`
companion, and one for a pair of bounds. The fields read are taken out of the
message: each function returns its checks with what is left of the rules.
-/

namespace Protovalidate

/-- A check without its rule path, which is added once the rule field it comes
from is known. -/
structure Native (τ : Type) where
  id : String
  message : String
  test : τ
  deriving DecidableEq, Repr

def Native.map {τ υ : Type} (f : τ → υ) (native : Native τ) : Native υ :=
  ⟨native.id, native.message, f native.test⟩

/-- The checks of one rules message, each with the number of the rule field it
comes from. -/
abbrev Unplaced (τ : Type) := List (Nat × Native τ)

namespace Unplaced
variable {τ υ : Type}

/-- The check of rule field `number`, with id `kind.suffix`. -/
def push (kind : String) (number : Nat) (suffix message : String) (test : τ) : Unplaced τ :=
  [(number, ⟨kind ++ "." ++ suffix, message, test⟩)]

def map (f : τ → υ) (checks : Unplaced τ) : Unplaced υ :=
  List.map (fun check => (check.1, check.2.map f)) checks

/-- Places the checks at the rule paths of their fields. -/
def place (path : Nat → List FieldPathElement) (checks : Unplaced τ) : List (Check τ) :=
  List.map (fun check => ⟨check.2.id, check.2.message, path check.1, check.2.test⟩) checks

end Unplaced

section
variable {τ α : Type}

/-- The checks of a rule field, if it is set. -/
def whenSet (value : Option α) (checks : α → Unplaced τ) : Unplaced τ :=
  match value with
  | some value => checks value
  | none => []

/-- The checks of a list rule field, if it lists something. -/
def whenListed (list : List α) (checks : List α → Unplaced τ) : Unplaced τ :=
  if list.isEmpty then [] else checks list

/-- The checks of a flag, if it is set to true. -/
def whenTrue (flag : Option Bool) (checks : Unplaced τ) : Unplaced τ :=
  if flag = some true then checks else []

end

namespace Unplaced
variable {τ α : Type} {P : Nat × Native τ → Prop} {checks more : Unplaced τ}

/-- All checks are of a kind. -/
def All (P : Nat × Native τ → Prop) (checks : Unplaced τ) : Prop := ∀ check ∈ checks, P check

theorem all_nil : All P ([] : Unplaced τ) := fun _ none => (List.not_mem_nil none).elim

theorem all_push {kind : String} {number : Nat} {suffix message : String} {test : τ}
    (one : P (number, ⟨kind ++ "." ++ suffix, message, test⟩)) :
    All P (push kind number suffix message test) := by
  intro check member
  obtain rfl := List.mem_singleton.mp member
  exact one

namespace All

theorem append (first : All P checks) (second : All P more) : All P (checks ++ more) := by
  intro check member
  rcases List.mem_append.mp member with member | member
  · exact first check member
  · exact second check member

theorem flatten {parts : List (Unplaced τ)} (each : ∀ part ∈ parts, All P part) :
    All P parts.flatten := by
  intro check member
  obtain ⟨part, present, member⟩ := List.mem_flatten.mp member
  exact each part present check member

theorem whenSet {value : Option α} {checks : α → Unplaced τ} (each : ∀ v, All P (checks v)) :
    All P (whenSet value checks) := by
  cases value with
  | none => exact all_nil
  | some v => exact each v

theorem whenListed {list : List α} {checks : List α → Unplaced τ}
    (each : ∀ list, All P (checks list)) : All P (whenListed list checks) := by
  cases list with
  | nil => exact all_nil
  | cons v rest => exact each (v :: rest)

end All

end Unplaced

/-- The comparison fields of a numeric, duration or timestamp rules message. -/
structure OrderedRules (α : Type) where
  const : Option α
  lessThan : Option (LessThan α)
  greaterThan : Option (GreaterThan α)
  isIn : List α
  notIn : List α
  deriving DecidableEq, Repr

namespace OrderedRules
variable {α : Type} (rules : OrderedRules α)

def lt : Option α :=
  match rules.lessThan with
  | some (.lt v) => some v
  | _ => none

def lte : Option α :=
  match rules.lessThan with
  | some (.lte v) => some v
  | _ => none

def gt : Option α :=
  match rules.greaterThan with
  | some (.gt v) => some v
  | _ => none

def gte : Option α :=
  match rules.greaterThan with
  | some (.gte v) => some v
  | _ => none

/-- At most one upper bound is set. -/
theorem upper_cases : (rules.lt = none ∧ rules.lte = none) ∨
    (∃ v, rules.lt = some v ∧ rules.lte = none) ∨ ∃ v, rules.lt = none ∧ rules.lte = some v := by
  unfold lt lte
  rcases rules.lessThan with _ | v | v <;> simp

/-- At most one lower bound is set. -/
theorem lower_cases : (rules.gt = none ∧ rules.gte = none) ∨
    (∃ v, rules.gt = some v ∧ rules.gte = none) ∨ ∃ v, rules.gt = none ∧ rules.gte = some v := by
  unfold gt gte
  rcases rules.greaterThan with _ | v | v <;> simp

end OrderedRules

/-- The comparison rules, with the values already in the type they are compared
in. -/
structure Bounds (α : Type) where
  const : Option α
  lt : Option α
  lte : Option α
  gt : Option α
  gte : Option α
  isIn : List α
  notIn : List α
  deriving DecidableEq, Repr

/-- One bound of a range, with the words the rule's message and id use for it. -/
structure Side (α : Type) where
  value : α
  name : String
  words : String
  number : Nat
  inclusive : Bool
  deriving DecidableEq, Repr

/-- Takes the bounds out of a rules message. -/
def bounds {α β : Type} (convert : β → α) (rules : OrderedRules β) : Bounds α where
  const := rules.const.map convert
  lt := rules.lt.map convert
  lte := rules.lte.map convert
  gt := rules.gt.map convert
  gte := rules.gte.map convert
  isIn := rules.isIn.map convert
  notIn := rules.notIn.map convert

namespace Bounds
variable {α κ : Type} [LinearOrder κ] [NanOrder α κ]
variable (display : α → String) (self : Bounds α) (kind : String) (first : Nat)

def upper : Option (Side α) :=
  match self.lt, self.lte with
  | some lt, _ => some ⟨lt, "lt", "less than", first + 1, false⟩
  | none, some lte => some ⟨lte, "lte", "less than or equal to", first + 2, true⟩
  | none, none => none

def lower : Option (Side α) :=
  match self.gt, self.gte with
  | some gt, _ => some ⟨gt, "gt", "greater than", first + 3, false⟩
  | none, some gte => some ⟨gte, "gte", "greater than or equal to", first + 4, true⟩
  | none, none => none

/-- The values between two bounds in order. -/
def between (lower upper : Side α) : Cmp α :=
  match lower.inclusive, upper.inclusive with
  | false, false => .gtLt lower.value upper.value
  | false, true => .gtLte lower.value upper.value
  | true, false => .gteLt lower.value upper.value
  | true, true => .gteLte lower.value upper.value

/-- The values outside two bounds, the upper below the lower. -/
def outside (lower upper : Side α) : Cmp α :=
  match lower.inclusive, upper.inclusive with
  | false, false => .gtLtExclusive lower.value upper.value
  | false, true => .gtLteExclusive lower.value upper.value
  | true, false => .gteLtExclusive lower.value upper.value
  | true, true => .gteLteExclusive lower.value upper.value

/-- Two bounds checked as a range, reported on the lower one: the values
between them when the bounds are in order, the values outside them when the
upper is below the lower, and none for bounds that do not order. -/
def range (lower upper : Side α) : Unplaced (Cmp α) :=
  let report := fun (tail conjunction : String) (cmp : Cmp α) =>
    Unplaced.push kind lower.number (lower.name ++ "_" ++ upper.name ++ tail)
      ("must be " ++ lower.words ++ " " ++ display lower.value ++ " " ++ conjunction ++ " " ++
        upper.words ++ " " ++ display upper.value) cmp
  if NanOrder.le lower.value upper.value then report "" "and" (between lower upper)
  else if NanOrder.lt upper.value lower.value then
    report "_exclusive" "or" (outside lower upper)
  else []

/-- The bound check. A lower or upper bound alone is checked on its own. -/
def bound : Unplaced (Cmp α) :=
  match self.lower first, self.upper first with
  | none, none => []
  | some lower, none =>
    Unplaced.push kind lower.number lower.name
      ("must be " ++ lower.words ++ " " ++ display lower.value)
      (if lower.inclusive then .gte lower.value else .gt lower.value)
  | none, some upper =>
    Unplaced.push kind upper.number upper.name
      ("must be " ++ upper.words ++ " " ++ display upper.value)
      (if upper.inclusive then .lte upper.value else .lt upper.value)
  | some lower, some upper => range display kind lower upper

/-- The comparison checks. `first` is the field number of `const`; `lt`, `lte`,
`gt`, `gte`, `in` and `not_in` follow it in that order in every rules message. -/
def checks : Unplaced (Cmp α) :=
  whenSet self.const (fun c =>
    Unplaced.push kind first "const" ("must equal " ++ display c) (.const c)) ++
  self.bound display kind first ++
  whenListed self.isIn (fun list =>
    Unplaced.push kind (first + 5) "in" ("must be in list " ++ displayList display list)
      (.isIn list)) ++
  whenListed self.notIn (fun list =>
    Unplaced.push kind (first + 6) "not_in" ("must not be in list " ++ displayList display list)
      (.notIn list))

end Bounds

def duration (d : DurationPb) : Int := totalNanos d.seconds d.nanos

def timestamp (t : TimestampPb) : Int := totalNanos t.seconds t.nanos

/-- Rejects a timestamp rule value outside the range a `Timestamp` allows. -/
def checkTimestamp (B : Backend) (t : TimestampPb) : Except String Unit :=
  if decide (0 ≤ t.nanos) && decide (t.nanos ≤ 999999999) && Timestamp.inRange (timestamp t) then
    .ok ()
  else
    .error ("timestamp rule value out of range: seconds " ++ toString t.seconds ++ " nanos " ++
      toString t.nanos ++ " is not between " ++ displayTimestamp B Timestamp.MIN ++ " and " ++
      displayTimestamp B Timestamp.MAX)

/-- Compiles the pattern of the `pattern` rule of `kind`, such as `string`. -/
def regex (B : Backend) (kind pattern : String) : Except String Regex :=
  (Regex.new B pattern).mapError
    (fun error => "failed to compile program " ++ kind ++ ".pattern: " ++ error)

/-- The check of a `pattern` rule, if it is set. -/
def patternChecks {τ : Type} (B : Backend) (kind : String) (pattern : Option String)
    (check : String → Regex → Unplaced τ) : Except String (Unplaced τ) :=
  match pattern with
  | some p => do
    let compiled ← regex B kind p
    return check p compiled
  | none => return []

/-- A `pattern` rule that is built is unset, or has a pattern that compiles. -/
theorem patternChecks_cases {τ : Type} {B : Backend} {kind : String} {pattern : Option String}
    {check : String → Regex → Unplaced τ} {checks : Unplaced τ}
    (built : patternChecks B kind pattern check = .ok checks) :
    (pattern = none ∧ checks = []) ∨
      ∃ p, pattern = some p ∧ B.regexNew p = .ok () ∧ checks = check p ⟨p⟩ := by
  cases pattern with
  | none => exact .inl ⟨rfl, (Except.ok.inj built).symm⟩
  | some p =>
    refine .inr ⟨p, rfl, ?_⟩
    cases compiled : B.regexNew p with
    | error e =>
      simp [patternChecks, regex, Regex.new, compiled, Except.map, Except.mapError, bind,
        Except.bind] at built
    | ok _ =>
      simp only [patternChecks, regex, Regex.new, compiled] at built
      exact ⟨rfl, (Except.ok.inj built).symm⟩

theorem patternChecks_builds {τ : Type} (B : Backend) (kind : String) (pattern : Option String)
    (check : String → Regex → Unplaced τ) :
    (∃ checks, patternChecks B kind pattern check = .ok checks) ↔
      ∀ p, pattern = some p → B.regexNew p = .ok () := by
  constructor
  · rintro ⟨checks, built⟩ p set
    rcases patternChecks_cases built with ⟨unset, -⟩ | ⟨q, held, compiled, -⟩
    · rw [unset] at set
      contradiction
    · rw [held] at set
      exact Option.some.inj set ▸ compiled
  · intro compiles
    cases pattern with
    | none => exact ⟨[], rfl⟩
    | some p =>
      refine ⟨check p ⟨p⟩, ?_⟩
      simp only [patternChecks, regex, Regex.new, compiles p rfl]
      rfl

section Families
variable (B : Backend) (kind : String)

def IntRules.ordered (r : IntRules) : OrderedRules Int :=
  ⟨r.const, r.lessThan, r.greaterThan, r.isIn, r.notIn⟩

/-- The checks of an integer rules message, compared as the type CEL widens the
integer to. -/
def integerChecks (r : IntRules) : Unplaced (Cmp Int) × IntRules :=
  ((bounds id r.ordered).checks toString kind 1,
    { r with const := none, lessThan := none, greaterThan := none, isIn := [], notIn := [] })

def FloatRules.ordered (r : FloatRules) : OrderedRules Double :=
  ⟨r.const, r.lessThan, r.greaterThan, r.isIn, r.notIn⟩

/-- The checks of a float or double rules message, which add `finite` to the
comparisons. -/
def floating (r : FloatRules) : Unplaced DoubleTest × FloatRules :=
  (Unplaced.map .cmp ((bounds id r.ordered).checks (displayDouble B) kind 1) ++
    whenTrue r.finite (Unplaced.push kind 8 "finite" "must be finite" .finite),
    { r with
      const := none, lessThan := none, greaterThan := none, isIn := [], notIn := []
      finite := none })

def DurationRules.ordered (r : DurationRules) : OrderedRules DurationPb :=
  ⟨r.const, r.lessThan, r.greaterThan, r.isIn, r.notIn⟩

def durationChecks (r : DurationRules) : Unplaced (Cmp Int) × DurationRules :=
  ((bounds duration r.ordered).checks displayDuration kind 2,
    { r with const := none, lessThan := none, greaterThan := none, isIn := [], notIn := [] })

def TimestampLessThan.bound : TimestampLessThan → Option (LessThan TimestampPb)
  | .lt v => some (.lt v)
  | .lte v => some (.lte v)
  | .ltNow _ => none

def TimestampGreaterThan.bound : TimestampGreaterThan → Option (GreaterThan TimestampPb)
  | .gt v => some (.gt v)
  | .gte v => some (.gte v)
  | .gtNow _ => none

def LessThan.value {α : Type} : LessThan α → α
  | .lt v => v
  | .lte v => v

def GreaterThan.value {α : Type} : GreaterThan α → α
  | .gt v => v
  | .gte v => v

def TimestampRules.ordered (r : TimestampRules) : OrderedRules TimestampPb :=
  ⟨r.const, r.lessThan.bind (·.bound), r.greaterThan.bind (·.bound), [], []⟩

/-- The `lt_now` flag, if it is the bound that is set. -/
def TimestampRules.ltNow (r : TimestampRules) : Option Bool :=
  match r.lessThan with
  | some (.ltNow b) => some b
  | _ => none

/-- The `gt_now` flag, if it is the bound that is set. -/
def TimestampRules.gtNow (r : TimestampRules) : Option Bool :=
  match r.greaterThan with
  | some (.gtNow b) => some b
  | _ => none

/-- The checks of a timestamp rules message. `lt_now` and `gt_now` take the
place of a bound in their oneofs, and are checked after the bounds. -/
def timestampChecks (r : TimestampRules) :
    Except String (Unplaced TimestampTest × TimestampRules) := do
  let values := [r.const, r.ordered.lessThan.map (·.value), r.ordered.greaterThan.map (·.value)]
  values.reduceOption.forM (checkTimestamp B)
  return (
    Unplaced.map .cmp ((bounds timestamp r.ordered).checks (displayTimestamp B) kind 2) ++
    whenTrue r.ltNow (Unplaced.push kind 7 "lt_now" "must be less than now" (.now .ltNow)) ++
    whenTrue r.gtNow
      (Unplaced.push kind 8 "gt_now" "must be greater than now" (.now .gtNow)) ++
    whenSet r.within (fun within =>
      Unplaced.push kind 9 "within"
        ("must be within " ++ displayDuration (duration within) ++ " of now")
        (.now (.within (duration within)))),
    { r with const := none, lessThan := none, greaterThan := none, within := none })

def boolChecks (r : BoolRules) : Unplaced Bool × BoolRules :=
  (whenSet r.const (fun c => Unplaced.push kind 1 "const" ("must equal " ++ toString c) c),
    { r with const := none })

/-- The enum checks. `defined_only` is checked against the values of `enum`,
the field's enum type. -/
def enumChecks (r : EnumRules) (enum : Option EnumIndex) : Unplaced EnumTest × EnumRules :=
  (whenSet r.const (fun c =>
      Unplaced.push kind 1 "const" ("must equal " ++ toString c) (.cmp (.const c))) ++
    whenTrue r.definedOnly (whenSet enum (fun enum =>
      Unplaced.push kind 2 "defined_only" "value must be one of the defined enum values"
        (.definedOnly enum))) ++
    whenListed r.isIn (fun list =>
      Unplaced.push kind 3 "in" ("must be in list " ++ displayList toString list)
        (.cmp (.isIn list))) ++
    whenListed r.notIn (fun list =>
      Unplaced.push kind 4 "not_in" ("must not be in list " ++ displayList toString list)
        (.cmp (.notIn list))),
    { r with const := none, definedOnly := none, isIn := [], notIn := [] })

/-- The checks of a bytes format rule: the format check and its `_empty`
companion. A format set to false adds nothing. -/
def bytesFormatChecks (format : BytesWellKnown) : Unplaced BytesTest :=
  let pushBoth := fun (number : Nat) (suffix what : String) (test : BytesTest) =>
    Unplaced.push kind number suffix ("must be a valid " ++ what) test ++
    Unplaced.push kind number (suffix ++ "_empty")
      ("value is empty, which is not a valid " ++ what) .empty
  match format with
  | .ip true => pushBoth 10 "ip" "IP address" .ip
  | .ipv4 true => pushBoth 11 "ipv4" "IPv4 address" .ipv4
  | .ipv6 true => pushBoth 12 "ipv6" "IPv6 address" .ipv6
  | .uuid true => pushBoth 15 "uuid" "UUID" .uuid
  | .ip false | .ipv4 false | .ipv6 false | .uuid false => []

def bytesChecks (r : BytesRules) : Except String (Unplaced BytesTest × BytesRules) := do
  let pattern ← patternChecks B kind r.pattern (fun p compiled =>
    Unplaced.push kind 4 "pattern" ("must match regex pattern `" ++ p ++ "`")
      (.pattern compiled))
  return (
    List.flatten [
      whenSet r.const (fun c =>
        Unplaced.push kind 1 "const" ("must be " ++ displayHex c) (.const c)),
      whenSet r.len (fun n =>
        Unplaced.push kind 13 "len" ("must be " ++ toString n ++ " bytes") (.len n)),
      whenSet r.minLen (fun n =>
        Unplaced.push kind 2 "min_len" ("must be at least " ++ toString n ++ " bytes") (.minLen n)),
      whenSet r.maxLen (fun n =>
        Unplaced.push kind 3 "max_len" ("must be at most " ++ toString n ++ " bytes") (.maxLen n)),
      pattern,
      whenSet r.prefixed (fun p =>
        Unplaced.push kind 5 "prefix" ("does not have prefix " ++ displayHex p) (.prefixed p)),
      whenSet r.suffix (fun p =>
        Unplaced.push kind 6 "suffix" ("does not have suffix " ++ displayHex p) (.suffix p)),
      whenSet r.contains (fun p =>
        Unplaced.push kind 7 "contains" ("does not contain " ++ displayHex p) (.contains p)),
      whenListed r.isIn (fun list =>
        Unplaced.push kind 8 "in" ("must be in list " ++ displayList B.lossyText list)
          (.isIn list)),
      whenListed r.notIn (fun list =>
        Unplaced.push kind 9 "not_in" ("must not be in list " ++ displayList B.lossyText list)
          (.notIn list)),
      whenSet r.wellKnown (bytesFormatChecks kind)],
    { r with
      const := none, len := none, minLen := none, maxLen := none, pattern := none
      prefixed := none, suffix := none, contains := none, isIn := [], notIn := []
      wellKnown := none })

/-- `items` holds the elements' rules, built on their own. -/
def repeatedChecks {φ : Type} (r : RepeatedRules φ) : Unplaced ListTest × RepeatedRules φ :=
  (whenSet r.minItems (fun n =>
      Unplaced.push kind 1 "min_items" ("must contain at least " ++ toString n ++ " item(s)")
        (.minItems n)) ++
    whenSet r.maxItems (fun n =>
      Unplaced.push kind 2 "max_items" ("must contain no more than " ++ toString n ++ " item(s)")
        (.maxItems n)) ++
    whenTrue r.unique
      (Unplaced.push kind 3 "unique" "repeated value must contain unique items" .unique),
    { r with minItems := none, maxItems := none, unique := none })

/-- `keys` and `values` hold the entries' rules, built on their own. -/
def mapChecks {φ : Type} (r : MapRules φ) : Unplaced MapTest × MapRules φ :=
  (whenSet r.minPairs (fun n =>
      Unplaced.push kind 1 "min_pairs" ("map must be at least " ++ toString n ++ " entries")
        (.minPairs n)) ++
    whenSet r.maxPairs (fun n =>
      Unplaced.push kind 2 "max_pairs" ("map must be at most " ++ toString n ++ " entries")
        (.maxPairs n)),
    { r with minPairs := none, maxPairs := none })

def fieldMaskChecks (r : FieldMaskRules) : Unplaced FieldMaskTest × FieldMaskRules :=
  (whenSet r.const (fun c =>
      Unplaced.push kind 1 "const" ("must equal paths " ++ displayList id c.paths)
        (.const c.paths)) ++
    whenListed r.isIn (fun list =>
      Unplaced.push kind 2 "in" ("must only contain paths in " ++ displayList id list)
        (.isIn list)) ++
    whenListed r.notIn (fun list =>
      Unplaced.push kind 3 "not_in" ("must not contain any paths in " ++ displayList id list)
        (.notIn list)),
    { r with const := none, isIn := [], notIn := [] })

/-- The any checks, on the type URL. -/
def anyChecks (r : AnyRules) : Unplaced AnyTest × AnyRules :=
  (whenListed r.isIn (fun list =>
      Unplaced.push kind 2 "in" "type URL must be in the allow list" (.isIn list)) ++
    whenListed r.notIn (fun list =>
      Unplaced.push kind 3 "not_in" "type URL must not be in the block list" (.notIn list)),
    { r with isIn := [], notIn := [] })

/-- The length rules. -/
def lengthChecks (r : StringRules) : Unplaced StrTest :=
  List.flatten [
    whenSet r.len (fun n =>
      Unplaced.push kind 19 "len" ("must be " ++ toString n ++ " characters") (.len n)),
    whenSet r.minLen (fun n =>
      Unplaced.push kind 2 "min_len" ("must be at least " ++ toString n ++ " characters")
        (.minLen n)),
    whenSet r.maxLen (fun n =>
      Unplaced.push kind 3 "max_len" ("must be at most " ++ toString n ++ " characters")
        (.maxLen n)),
    whenSet r.lenBytes (fun n =>
      Unplaced.push kind 20 "len_bytes" ("must be " ++ toString n ++ " bytes") (.lenBytes n)),
    whenSet r.minBytes (fun n =>
      Unplaced.push kind 4 "min_bytes" ("must be at least " ++ toString n ++ " bytes")
        (.minBytes n)),
    whenSet r.maxBytes (fun n =>
      Unplaced.push kind 5 "max_bytes" ("must be at most " ++ toString n ++ " bytes")
        (.maxBytes n))]

/-- The substring rules. -/
def substringChecks (r : StringRules) : Unplaced StrTest :=
  List.flatten [
    whenSet r.prefixed (fun p =>
      Unplaced.push kind 7 "prefix" ("does not have prefix `" ++ p ++ "`") (.prefixed p)),
    whenSet r.suffix (fun p =>
      Unplaced.push kind 8 "suffix" ("does not have suffix `" ++ p ++ "`") (.suffix p)),
    whenSet r.contains (fun p =>
      Unplaced.push kind 9 "contains" ("does not contain substring `" ++ p ++ "`")
        (.contains p)),
    whenSet r.notContains (fun p =>
      Unplaced.push kind 23 "not_contains" ("contains substring `" ++ p ++ "`")
        (.notContains p))]

/-- A well-known format rule: its field number, rule id suffix, what a value
must be, and the format. -/
structure Format where
  number : Nat
  suffix : String
  what : String
  format : WellKnown
  deriving DecidableEq, Repr

/-- The format of a well-known format rule, `none` for a format flag set to
false or a `well_known_regex` naming no format. -/
def wellKnownFormat (rule : StringWellKnown) (strict : Bool) : Option Format :=
  let enabled := fun (b : Bool) (number : Nat) (suffix what : String) (format : WellKnown) =>
    if b then some (⟨number, suffix, what, format⟩ : Format) else none
  match rule with
  | .email b => enabled b 12 "email" "email address" .email
  | .hostname b => enabled b 13 "hostname" "hostname" .hostname
  | .ip b => enabled b 14 "ip" "IP address" .ip
  | .ipv4 b => enabled b 15 "ipv4" "IPv4 address" .ipv4
  | .ipv6 b => enabled b 16 "ipv6" "IPv6 address" .ipv6
  | .uri b => enabled b 17 "uri" "URI" .uri
  | .uriRef b => enabled b 18 "uri_ref" "URI Reference" .uriRef
  | .address b => enabled b 21 "address" "hostname, or ip address" .address
  | .uuid b => enabled b 22 "uuid" "UUID" .uuid
  | .wellKnownRegex .httpHeaderName =>
    enabled true 24 "well_known_regex.header_name" "HTTP header name" (.headerName strict)
  | .wellKnownRegex .httpHeaderValue =>
    enabled true 24 "well_known_regex.header_value" "HTTP header value" (.headerValue strict)
  | .wellKnownRegex .unspecified => none
  | .ipWithPrefixlen b => enabled b 26 "ip_with_prefixlen" "IP prefix" .ipWithPrefixlen
  | .ipv4WithPrefixlen b =>
    enabled b 27 "ipv4_with_prefixlen" "IPv4 address with prefix length" .ipv4WithPrefixlen
  | .ipv6WithPrefixlen b =>
    enabled b 28 "ipv6_with_prefixlen" "IPv6 address with prefix length" .ipv6WithPrefixlen
  | .ipPrefix b => enabled b 29 "ip_prefix" "IP prefix" .ipPrefix
  | .ipv4Prefix b => enabled b 30 "ipv4_prefix" "IPv4 prefix" .ipv4Prefix
  | .ipv6Prefix b => enabled b 31 "ipv6_prefix" "IPv6 prefix" .ipv6Prefix
  | .hostAndPort b =>
    enabled b 32 "host_and_port" "host (hostname or IP address) and port pair" .hostAndPort
  | .tuuid b => enabled b 33 "tuuid" "trimmed UUID" .tuuid
  | .ulid b => enabled b 35 "ulid" "ULID" .ulid
  | .protobufFqn b => enabled b 37 "protobuf_fqn" "fully-qualified Protobuf name" .protobufFqn
  | .protobufDotFqn b =>
    enabled b 38 "protobuf_dot_fqn" "fully-qualified Protobuf name with a leading dot"
      .protobufDotFqn

/-- The checks of a well-known format rule: the format check itself, and for a
format that lets an empty string through, an `_empty` companion. -/
def wellKnownChecks (rule : StringWellKnown) (strict : Bool) : Unplaced StrTest :=
  match wellKnownFormat rule strict with
  | none => []
  | some f =>
    -- The one companion whose message says it differently.
    let empty := if f.format = .hostAndPort then "host and port pair" else f.what
    Unplaced.push kind f.number f.suffix ("must be a valid " ++ f.what) (.wellKnown f.format) ++
    if f.format.allowsEmpty then
      Unplaced.push kind f.number (f.suffix ++ "_empty")
        ("value is empty, which is not a valid " ++ empty) .empty
    else []

def stringChecks (r : StringRules) : Except String (Unplaced StrTest × StringRules) := do
  let pattern ← patternChecks B kind r.pattern (fun p compiled =>
    Unplaced.push kind 6 "pattern" ("does not match regex pattern `" ++ p ++ "`")
      (.pattern compiled))
  return (
    List.flatten [
      whenSet r.const (fun c =>
        Unplaced.push kind 1 "const" ("must equal `" ++ c ++ "`") (.const c)),
      lengthChecks kind r,
      pattern,
      substringChecks kind r,
      whenListed r.isIn (fun list =>
        Unplaced.push kind 10 "in" ("must be in list " ++ displayList id list) (.isIn list)),
      whenListed r.notIn (fun list =>
        Unplaced.push kind 11 "not_in" ("must not be in list " ++ displayList id list)
          (.notIn list)),
      -- `strict` qualifies `well_known_regex`, and is read with it.
      whenSet r.wellKnown (fun rule => wellKnownChecks kind rule (r.strict.getD true))],
    { r with
      const := none, len := none, minLen := none, maxLen := none, lenBytes := none
      minBytes := none, maxBytes := none, pattern := none, prefixed := none, suffix := none
      contains := none, notContains := none, isIn := [], notIn := [], strict := none
      wellKnown := none })

end Families

/-- The native checks of the rule fields set in `rules`, placed by `path`, and
the rules without them. `kind` is the type in the rule ids, such as `string`.
Fails for a rule that cannot be compiled, such as an invalid regex. -/
def checks (B : Backend) (kind : String) (rules : RulesType)
    (path : Nat → List FieldPathElement) (enum : Option EnumIndex) :
    Except String (Checks × RulesType) :=
  let int : (IntRules → RulesType) → IntRules → Except String (Checks × RulesType) :=
    fun rest r =>
      .ok (.int ((integerChecks kind r).1.place path), rest (integerChecks kind r).2)
  let uint : (IntRules → RulesType) → IntRules → Except String (Checks × RulesType) :=
    fun rest r =>
      .ok (.uint ((integerChecks kind r).1.place path), rest (integerChecks kind r).2)
  match rules with
  | .float r => .ok (.double ((floating B kind r).1.place path), .float (floating B kind r).2)
  | .double r => .ok (.double ((floating B kind r).1.place path), .double (floating B kind r).2)
  | .int32 r => int .int32 r
  | .int64 r => int .int64 r
  | .uint32 r => uint .uint32 r
  | .uint64 r => uint .uint64 r
  | .sint32 r => int .sint32 r
  | .sint64 r => int .sint64 r
  | .fixed32 r => uint .fixed32 r
  | .fixed64 r => uint .fixed64 r
  | .sfixed32 r => int .sfixed32 r
  | .sfixed64 r => int .sfixed64 r
  | .duration r =>
    .ok (.duration ((durationChecks kind r).1.place path), .duration (durationChecks kind r).2)
  | .timestamp r =>
    (timestampChecks B kind r).map fun built =>
      (.timestamp (built.1.place path), .timestamp built.2)
  | .bool r => .ok (.bool ((boolChecks kind r).1.place path), .bool (boolChecks kind r).2)
  | .enum r =>
    .ok (.enum ((enumChecks kind r enum).1.place path), .enum (enumChecks kind r enum).2)
  | .string r =>
    (stringChecks B kind r).map fun built => (.string (built.1.place path), .string built.2)
  | .bytes r =>
    (bytesChecks B kind r).map fun built => (.bytes (built.1.place path), .bytes built.2)
  | .repeated r =>
    .ok (.list ((repeatedChecks kind r).1.place path), .repeated (repeatedChecks kind r).2)
  | .map r => .ok (.map ((mapChecks kind r).1.place path), .map (mapChecks kind r).2)
  | .fieldMask r =>
    .ok (.fieldMask ((fieldMaskChecks kind r).1.place path), .fieldMask (fieldMaskChecks kind r).2)
  | .any r => .ok (.any ((anyChecks kind r).1.place path), .any (anyChecks kind r).2)

/-- The numbers of the rule fields that the checks are placed at, in order. Here the path
of a field is as long as its number. -/
def placedNumbers (B : Backend) (kind : String) (rules : RulesType) (enum : Option EnumIndex) :
    List Nat :=
  match checks B kind rules (fun number => List.replicate number {}) enum with
  | .ok (built, _) => built.rulePaths.map List.length
  | .error _ => []

end Protovalidate
