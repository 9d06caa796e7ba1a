import Protovalidate.Native
import Protovalidate.Rules

/-!
# The rule fields of `validate.proto`

Each rules message as the schema declares it: its fields in order, and the CEL
rules attached to each, as functions of the bound `rules` and `this`. The
native checks replace these expressions.
-/

namespace Protovalidate

/-- What a rule field is set to. -/
inductive Content
  | bool (b : Bool)
  | int (i : Int)
  | double (d : Double)
  | string (s : String)
  | bytes (b : Bytes)
  | duration (d : DurationPb)
  | timestamp (t : TimestampPb)
  | fieldMask (m : FieldMaskPb)
  | regex (regex : KnownRegex)
  | rules (r : FieldRules)
  | bools (list : List Bool)
  | ints (list : List Int)
  | doubles (list : List Double)
  | strings (list : List String)
  | bytesList (list : List Bytes)
  | durations (list : List DurationPb)
  | timestamps (list : List TimestampPb)
  | fieldMasks (list : List FieldMaskPb)

/-- A CEL rule attached to a rule field of the rules message `ρ`, evaluated
against a `ν`. An evaluation error is `none`. -/
structure Predefined (ρ ν : Type) where
  id : String
  message : String := ""
  expression : ρ → ν → Option Value

/-- A field of the rules message `ρ`, as `validate.proto` declares it. -/
structure RuleField (ρ ν : Type) where
  number : Nat
  name : String
  content : ρ → Option Content
  cel : List (Predefined ρ ν) := []

/-- What a rule reports when it fails, and the number of its rule field. -/
structure Reported where
  id : String
  message : String
  number : Nat
  deriving DecidableEq, Repr

section Evaluation
variable {ρ ν τ ι : Type}

/-- What each item reports, in order, unless one aborts. -/
def collect (report : ι → Option (List Reported)) : List ι → Option (List Reported)
  | [] => some []
  | item :: rest => do
    let first ← report item
    let later ← collect report rest
    return first ++ later

/-- The message a rule fails with, `none` inside when the value passes. -/
def Predefined.failure (self : Predefined ρ ν) (rules : ρ) (this : ν) :
    Option (Option String) := do
  match ← self.expression rules this with
  | .bool true => return none
  | .bool false => return some self.message
  | .string text => return if text == "" then none else some text
  | .other => none

def Predefined.report (number : Nat) (rules : ρ) (this : ν) (self : Predefined ρ ν) :
    Option (List Reported) := do
  match ← self.failure rules this with
  | some message => return [⟨self.id, message, number⟩]
  | none => return []

/-- The rules attached to a field are evaluated when the field is set. -/
def RuleField.report (rules : ρ) (this : ν) (self : RuleField ρ ν) : Option (List Reported) :=
  if (self.content rules).isSome then collect (Predefined.report self.number rules this) self.cel
  else some []

/-- Whether a field set in the rules lets every value through. -/
def RuleField.AcceptsAll (self : RuleField ρ ν) (rules : ρ) : Prop :=
  ∀ this, collect (Predefined.report self.number rules this) self.cel = some []

/-- What the native checks report. -/
def reports (fails : τ → Except String Bool) : Unplaced τ → Option (List Reported) :=
  collect fun check => do
    let failed ← (fails check.2.test).toOption
    return if failed then [⟨check.2.id, check.2.message, check.1⟩] else []

end Evaluation

/-- `broken ? text : ''`. -/
def failIf (broken : Bool) (text : String) : Option Value :=
  some (.string (if broken then text else ""))

/-- A rule on the field an `Option` holds, evaluated only when it is set. -/
def onSet {α : Type} (value : Option α) (expression : α → Option Value) : Option Value :=
  value.elim (some (.string "")) expression

def listContent {α : Type} (content : List α → Content) (list : List α) : Option Content :=
  if list.isEmpty then none else some (content list)

/-- `example` documents the field; its rule is `true`. -/
def exampleField {ρ ν : Type} (kind : String) (number : Nat) (content : ρ → Option Content) :
    RuleField ρ ν :=
  ⟨number, "example", content, [⟨kind ++ "." ++ "example", "", fun _ _ => some (.bool true)⟩]⟩

/-- `holds`, a rule whose message is fixed. -/
def holds {ρ ν : Type} (id message : String) (passes : ρ → ν → Bool) : Predefined ρ ν :=
  ⟨id, message, fun rules this => some (.bool (passes rules this))⟩

/-- A rule on a field, `broken ? text : ''`. -/
def breaks {ρ ν α : Type} (id : String) (get : ρ → Option α) (broken : α → ν → Bool)
    (text : α → String) : Predefined ρ ν :=
  ⟨id, "", fun rules this => onSet (get rules) fun value => failIf (broken value this) (text value)⟩

/-- A field with one rule of the form `broken ? text : ''`. -/
def breaksField {ρ ν α : Type} (kind : String) (number : Nat) (name : String)
    (get : ρ → Option α) (wrap : α → Content) (broken : α → ν → Bool) (text : α → String) :
    RuleField ρ ν :=
  ⟨number, name, fun rules => (get rules).map wrap,
    [breaks (kind ++ "." ++ name) get broken text]⟩

/-- A list field with one rule of the form `broken ? text : ''`. -/
def breaksListField {ρ ν α : Type} (kind : String) (number : Nat) (name : String)
    (get : ρ → List α) (wrap : List α → Content) (broken : List α → ν → Bool)
    (text : List α → String) : RuleField ρ ν :=
  ⟨number, name, fun rules => listContent wrap (get rules),
    [breaks (kind ++ "." ++ name) (fun rules => some (get rules)) broken text]⟩

/-- A flag, with the rules attached to it. -/
def flagField {ρ ν : Type} (number : Nat) (name : String) (get : ρ → Option Bool)
    (cel : List (Predefined ρ ν)) : RuleField ρ ν :=
  ⟨number, name, fun rules => (get rules).map .bool, cel⟩

/-- A flag with one rule of the form `flag && broken ? text : ''`. -/
def breaksFlag {ρ ν : Type} (kind : String) (number : Nat) (name : String)
    (get : ρ → Option Bool) (broken : ν → Bool) (text : String) : RuleField ρ ν :=
  flagField number name get
    [breaks (kind ++ "." ++ name) get (fun flag this => flag && broken this) (fun _ => text)]

section Comparison
variable {ρ α β κ : Type} [LinearOrder κ] [NanOrder α κ]
variable (display : α → String) (kind : String)
/- Whether the expressions test `this.isNan()`, as those of `FloatRules` and
`DoubleRules` do. -/
variable (floating : Bool)
variable (raw : ρ → OrderedRules β) (convert : β → α)
variable (wrap : β → Content) (wrapList : List β → Content)

/-- `this.isNan()`, where the expressions test it. -/
def nan (this : α) : Bool := floating && NanOrder.isNan this

/-- A rule on one bound, where the other side has none. -/
def single (suffix : String) (bound : OrderedRules β → Option β)
    (alone : OrderedRules β → Bool) (broken : α → α → Bool) (words : String) :
    Predefined ρ α where
  id := kind ++ "." ++ suffix
  expression rules this :=
    onSet (bound (raw rules)) fun limit =>
      failIf (alone (raw rules) && (nan floating this || broken (convert limit) this))
        (words ++ display (convert limit))

/-- A rule on a lower and an upper bound, when both are set and `ordered`. -/
def pair (suffix : String) (lower upper : OrderedRules β → Option β)
    (ordered : α → α → Bool) (broken : α → α → α → Bool) (words conjunction : String) :
    Predefined ρ α where
  id := kind ++ "." ++ suffix
  expression rules this :=
    onSet (lower (raw rules)) fun lo =>
      onSet (upper (raw rules)) fun hi =>
        failIf (ordered (convert lo) (convert hi) &&
            (nan floating this || broken (convert lo) (convert hi) this))
          (words ++ display (convert lo) ++ conjunction ++ display (convert hi))

def constField (number : Nat) : RuleField ρ α :=
  breaksField kind number "const" (fun rules => (raw rules).const) wrap
    (fun c this => !NanOrder.eq this (convert c)) (fun c => "must equal " ++ display (convert c))

def upperFields (first : Nat) : List (RuleField ρ α) := [
  { number := first + 1
    name := "lt"
    content := fun rules => (raw rules).lt.map wrap
    cel := [single display kind floating raw convert "lt" (·.lt)
      (fun rules => rules.gte.isNone && rules.gt.isNone)
      (fun lt this => NanOrder.le lt this) "must be less than "] },
  { number := first + 2
    name := "lte"
    content := fun rules => (raw rules).lte.map wrap
    cel := [single display kind floating raw convert "lte" (·.lte)
      (fun rules => rules.gte.isNone && rules.gt.isNone)
      (fun lte this => NanOrder.lt lte this) "must be less than or equal to "] }]

def gtCel : List (Predefined ρ α) :=
  let pair := pair (ρ := ρ) display kind floating raw convert
  [single display kind floating raw convert "gt" (·.gt)
      (fun rules => rules.lt.isNone && rules.lte.isNone)
      (fun gt this => NanOrder.le this gt) "must be greater than ",
    pair "gt_lt" (·.gt) (·.lt) (fun gt lt => NanOrder.le gt lt)
      (fun gt lt this => NanOrder.le lt this || NanOrder.le this gt)
      "must be greater than " " and less than ",
    pair "gt_lt_exclusive" (·.gt) (·.lt) (fun gt lt => NanOrder.lt lt gt)
      (fun gt lt this => NanOrder.le lt this && NanOrder.le this gt)
      "must be greater than " " or less than ",
    pair "gt_lte" (·.gt) (·.lte) (fun gt lte => NanOrder.le gt lte)
      (fun gt lte this => NanOrder.lt lte this || NanOrder.le this gt)
      "must be greater than " " and less than or equal to ",
    pair "gt_lte_exclusive" (·.gt) (·.lte) (fun gt lte => NanOrder.lt lte gt)
      (fun gt lte this => NanOrder.lt lte this && NanOrder.le this gt)
      "must be greater than " " or less than or equal to "]

def gteCel : List (Predefined ρ α) :=
  let pair := pair (ρ := ρ) display kind floating raw convert
  [single display kind floating raw convert "gte" (·.gte)
      (fun rules => rules.lt.isNone && rules.lte.isNone)
      (fun gte this => NanOrder.lt this gte) "must be greater than or equal to ",
    pair "gte_lt" (·.gte) (·.lt) (fun gte lt => NanOrder.le gte lt)
      (fun gte lt this => NanOrder.le lt this || NanOrder.lt this gte)
      "must be greater than or equal to " " and less than ",
    pair "gte_lt_exclusive" (·.gte) (·.lt) (fun gte lt => NanOrder.lt lt gte)
      (fun gte lt this => NanOrder.le lt this && NanOrder.lt this gte)
      "must be greater than or equal to " " or less than ",
    pair "gte_lte" (·.gte) (·.lte) (fun gte lte => NanOrder.le gte lte)
      (fun gte lte this => NanOrder.lt lte this || NanOrder.lt this gte)
      "must be greater than or equal to " " and less than or equal to ",
    pair "gte_lte_exclusive" (·.gte) (·.lte) (fun gte lte => NanOrder.lt lte gte)
      (fun gte lte this => NanOrder.lt lte this && NanOrder.lt this gte)
      "must be greater than or equal to " " or less than or equal to "]

def lowerFields (first : Nat) : List (RuleField ρ α) := [
  { number := first + 3
    name := "gt"
    content := fun rules => (raw rules).gt.map wrap
    cel := gtCel display kind floating raw convert },
  { number := first + 4
    name := "gte"
    content := fun rules => (raw rules).gte.map wrap
    cel := gteCel display kind floating raw convert }]

/-- `this in list`. -/
def inList (this : α) (list : List α) : Bool :=
  list.any (fun item => NanOrder.eq item this)

def inField (number : Nat) : RuleField ρ α :=
  breaksListField kind number "in" (fun rules => (raw rules).isIn) wrapList
    (fun list this => !inList this (list.map convert))
    (fun list => "must be in list " ++ displayList display (list.map convert))

def notInField (number : Nat) : RuleField ρ α :=
  breaksListField kind number "not_in" (fun rules => (raw rules).notIn) wrapList
    (fun list this => inList this (list.map convert))
    (fun list => "must not be in list " ++ displayList display (list.map convert))

/-- The comparison fields of a rules message, in the order they are declared. -/
def comparisonFields (first : Nat) : List (RuleField ρ α) :=
  [constField display kind raw convert wrap first] ++
  (upperFields display kind floating raw convert wrap first ++
    lowerFields display kind floating raw convert wrap first) ++
  [inField display kind raw convert wrapList (first + 5)] ++
  [notInField display kind raw convert wrapList (first + 6)]

end Comparison

section Families
variable (B : Backend) (kind : String)

/-- `FloatRules` and `DoubleRules`. -/
def floatFields : List (RuleField FloatRules Double) :=
  comparisonFields (displayDouble B) kind true FloatRules.ordered id .double .doubles 1 ++
  [breaksFlag kind 8 "finite" FloatRules.finite (fun this => this.isNan || this.isInfinite)
      "must be finite",
    exampleField kind 9 (fun rules => listContent .doubles rules.exampleValues)]

/-- The ten integer rules messages, whose `example` differs in its number. -/
def intFields (example_ : Nat) : List (RuleField IntRules Int) :=
  comparisonFields toString kind false IntRules.ordered id .int .ints 1 ++
  [exampleField kind example_ (fun rules => listContent .ints rules.exampleValues)]

def durationFields : List (RuleField DurationRules Int) :=
  comparisonFields displayDuration kind false DurationRules.ordered duration .duration
    .durations 2 ++
  [exampleField kind 9 (fun rules => listContent .durations rules.exampleValues)]

/-- `lt_now` and `gt_now` are declared with the bounds of their oneofs. -/
def timestampFields : List (RuleField TimestampRules Int) :=
  [constField (displayTimestamp B) kind TimestampRules.ordered timestamp .timestamp 2] ++
  upperFields (displayTimestamp B) kind false TimestampRules.ordered timestamp .timestamp 2 ++
  [breaksFlag kind 7 "lt_now" TimestampRules.ltNow (fun this => this > B.now)
    "must be less than now"] ++
  lowerFields (displayTimestamp B) kind false TimestampRules.ordered timestamp .timestamp 2 ++
  [breaksFlag kind 8 "gt_now" TimestampRules.gtNow (fun this => this < B.now)
      "must be greater than now",
    breaksField kind 9 "within" TimestampRules.within .duration
      (fun within this => this < B.now - duration within || this > B.now + duration within)
      (fun within => "must be within " ++ displayDuration (duration within) ++ " of now"),
    exampleField kind 10 (fun rules => listContent .timestamps rules.exampleValues)]

def boolFields : List (RuleField BoolRules Bool) := [
  breaksField kind 1 "const" BoolRules.const .bool (fun c this => this != c)
    (fun c => "must equal " ++ toString c),
  exampleField kind 2 (fun rules => listContent .bools rules.exampleValues)]

/-- `defined_only` has no expression. -/
def enumFields : List (RuleField EnumRules Int) := [
  breaksField kind 1 "const" EnumRules.const .int (fun c this => this != c)
    (fun c => "must equal " ++ toString c),
  flagField 2 "defined_only" EnumRules.definedOnly [],
  breaksListField kind 3 "in" EnumRules.isIn .ints (fun list this => !list.contains this)
    (fun list => "must be in list " ++ displayList toString list),
  breaksListField kind 4 "not_in" EnumRules.notIn .ints (fun list this => list.contains this)
    (fun list => "must not be in list " ++ displayList toString list),
  exampleField kind 5 (fun rules => listContent .ints rules.exampleValues)]

/-- A list as the `repeated` rules see it. -/
structure ListSubject where
  size : Nat
  unique : Bool

def repeatedFields : List (RuleField (RepeatedRules FieldRules) ListSubject) := [
  breaksField kind 1 "min_items" RepeatedRules.minItems (fun n => .int n)
    (fun n this => this.size < n)
    (fun n => "must contain at least " ++ toString n ++ " item(s)"),
  breaksField kind 2 "max_items" RepeatedRules.maxItems (fun n => .int n)
    (fun n this => this.size > n)
    (fun n => "must contain no more than " ++ toString n ++ " item(s)"),
  flagField 3 "unique" RepeatedRules.unique [
    holds (kind ++ "." ++ "unique") "repeated value must contain unique items"
      (fun rules this => !rules.unique.getD false || this.unique)],
  ⟨4, "items", fun rules => rules.items.map .rules, []⟩]

def mapFields : List (RuleField (MapRules FieldRules) Nat) := [
  breaksField kind 1 "min_pairs" MapRules.minPairs (fun n => .int n) (fun n this => this < n)
    (fun n => "map must be at least " ++ toString n ++ " entries"),
  breaksField kind 2 "max_pairs" MapRules.maxPairs (fun n => .int n) (fun n this => this > n)
    (fun n => "map must be at most " ++ toString n ++ " entries"),
  ⟨4, "keys", fun rules => rules.keys.map .rules, []⟩,
  ⟨5, "values", fun rules => rules.values.map .rules, []⟩]

/-- `p in list || list.exists(f, p.startsWith(f+'.'))`. -/
def listed (list : List String) (p : String) : Bool :=
  list.contains p || list.any (fun f => startsWith p (f ++ "."))

def fieldMaskFields : List (RuleField FieldMaskRules (List String)) := [
  breaksField kind 1 "const" FieldMaskRules.const .fieldMask (fun c this => this != c.paths)
    (fun c => "must equal paths " ++ displayList id c.paths),
  breaksListField kind 2 "in" FieldMaskRules.isIn .strings
    (fun list this => !this.all (fun p => listed list p))
    (fun list => "must only contain paths in " ++ displayList id list),
  breaksListField kind 3 "not_in" FieldMaskRules.notIn .strings
    (fun list this => !this.all (fun p => !listed list p))
    (fun list => "must not contain any paths in " ++ displayList id list),
  exampleField kind 4 (fun rules => listContent .fieldMasks rules.exampleValues)]

/-- `AnyRules` has no expressions. -/
def anyFields : List (RuleField AnyRules String) := [
  ⟨2, "in", fun rules => listContent .strings rules.isIn, []⟩,
  ⟨3, "not_in", fun rules => listContent .strings rules.notIn, []⟩]

/-- `text.matches(pattern)`, which fails for a pattern the engine rejects. -/
def celMatches (text pattern : String) : Option Bool :=
  match B.regexNew pattern with
  | .ok _ => some (B.isMatch pattern text)
  | .error _ => none

/-- `exempt || this.matches(pattern)`, a rule whose message is fixed. -/
def holdsMatching {ρ : Type} (id message : String) (exempt : ρ → String → Bool)
    (pattern : ρ → String) : Predefined ρ String :=
  ⟨id, message, fun rules this =>
    if exempt rules this then some (.bool true)
    else (celMatches B this (pattern rules)).map .bool⟩

/-- `isIp()` for either version, or for one; any other version is no IP address. -/
def celIsIp (text : String) (version : Nat) : Bool :=
  match version with
  | 0 => B.isIp text
  | 4 => B.isIpv4 text
  | 6 => B.isIpv6 text
  | _ => false

def celIsIpPrefix (text : String) (version : Nat) (strict : Bool) : Bool :=
  match version with
  | 0 => B.isIpPrefix text strict
  | 4 => B.isIpv4Prefix text strict
  | 6 => B.isIpv6Prefix text strict
  | _ => false

def stringLengthFields : List (RuleField StringRules String) := [
  breaksField kind 19 "len" StringRules.len (fun n => .int n) (fun n this => chars this != n)
    (fun n => "must be " ++ toString n ++ " characters"),
  breaksField kind 2 "min_len" StringRules.minLen (fun n => .int n) (fun n this => chars this < n)
    (fun n => "must be at least " ++ toString n ++ " characters"),
  breaksField kind 3 "max_len" StringRules.maxLen (fun n => .int n) (fun n this => chars this > n)
    (fun n => "must be at most " ++ toString n ++ " characters"),
  breaksField kind 20 "len_bytes" StringRules.lenBytes (fun n => .int n)
    (fun n this => this.utf8ByteSize != n)
    (fun n => "must be " ++ toString n ++ " bytes"),
  breaksField kind 4 "min_bytes" StringRules.minBytes (fun n => .int n)
    (fun n this => this.utf8ByteSize < n)
    (fun n => "must be at least " ++ toString n ++ " bytes"),
  breaksField kind 5 "max_bytes" StringRules.maxBytes (fun n => .int n)
    (fun n this => this.utf8ByteSize > n)
    (fun n => "must be at most " ++ toString n ++ " bytes")]

/-- A `pattern` field, matched against the text of a value. A value without
text, or a pattern that does not compile, aborts. -/
def patternField {ρ ν : Type} (number : Nat) (get : ρ → Option String)
    (text : ν → Option String) (message : String → String) : RuleField ρ ν where
  number := number
  name := "pattern"
  content rules := (get rules).map .string
  cel := [{
    id := kind ++ "." ++ "pattern"
    expression := fun rules this =>
      onSet (get rules) fun p => do
        let text ← text this
        let matched ← celMatches B text p
        failIf (!matched) (message p) }]

def substringFields : List (RuleField StringRules String) := [
  breaksField kind 7 "prefix" StringRules.prefixed .string (fun p this => !startsWith this p)
    (fun p => "does not have prefix `" ++ p ++ "`"),
  breaksField kind 8 "suffix" StringRules.suffix .string (fun p this => !endsWith this p)
    (fun p => "does not have suffix `" ++ p ++ "`"),
  breaksField kind 9 "contains" StringRules.contains .string
    (fun p this => !containsString this p)
    (fun p => "does not contain substring `" ++ p ++ "`"),
  breaksField kind 23 "not_contains" StringRules.notContains .string
    (fun p this => containsString this p)
    (fun p => "contains substring `" ++ p ++ "`")]

/-- A format that lets an empty string through, with its `_empty` companion,
which rejects it. -/
def formatField {ρ ν : Type} (number : Nat) (name : String) (get : ρ → Option Bool)
    (isEmpty : ν → Bool) (what empty : String) (passes : ν → Bool) : RuleField ρ ν :=
  flagField number name get [
    holds (kind ++ "." ++ name) ("must be a valid " ++ what)
      (fun rules this => !(get rules).getD false || isEmpty this || passes this),
    holds (kind ++ "." ++ (name ++ "_empty")) ("value is empty, which is not a valid " ++ empty)
      (fun rules this => !(get rules).getD false || !isEmpty this)]

/-- A flag of the `well_known` oneof of `StringRules`. -/
def stringFormatField (number : Nat) (name : String) (flag : StringWellKnown → Option Bool)
    (what empty : String) (passes : String → Bool) : RuleField StringRules String :=
  formatField kind number name (fun rules => rules.wellKnown.bind flag) (· == "") what empty passes

def StringRules.wellKnownRegex (rules : StringRules) : Option KnownRegex :=
  match rules.wellKnown with
  | some (.wellKnownRegex regex) => some regex
  | _ => none

def StringRules.uriRef (rules : StringRules) : Option Bool :=
  match rules.wellKnown with
  | some (.uriRef b) => some b
  | _ => none

/-- `!has(rules.strict) || rules.strict`. -/
def StringRules.isStrict (rules : StringRules) : Bool :=
  rules.strict.isNone || rules.strict.getD false

/-- The patterns of the header formats, once CEL has read the escapes in its literals. -/
def celHeaderName (strict : Bool) : String :=
  if strict then "^:?[0-9a-zA-Z!#$%&'*+-.^_|~\x60]+$" else "^[^\u0000\u000a\u000d]+$"

def celHeaderValue (strict : Bool) : String :=
  if strict then "^[^\u0000-\u0008\u000a-\u001f\u007f]*$" else "^[^\u0000\u000a\u000d]*$"

/-- The header formats, whose `strict` is read with them. A text is matched only when
nothing before the call lets it through. -/
def wellKnownRegexField : RuleField StringRules String where
  number := 24
  name := "well_known_regex"
  content rules := rules.wellKnownRegex.map .regex
  cel := [
    holdsMatching B (kind ++ "." ++ "well_known_regex.header_name")
      "must be a valid HTTP header name"
      (fun rules this => rules.wellKnownRegex != some .httpHeaderName || this == "")
      (fun rules => celHeaderName rules.isStrict),
    holds (kind ++ "." ++ "well_known_regex.header_name_empty")
      "value is empty, which is not a valid HTTP header name"
      (fun rules this => rules.wellKnownRegex != some .httpHeaderName || this != ""),
    holdsMatching B (kind ++ "." ++ "well_known_regex.header_value")
      "must be a valid HTTP header value"
      (fun rules _ => rules.wellKnownRegex != some .httpHeaderValue)
      (fun rules => celHeaderValue rules.isStrict)]

def wellKnownFields : List (RuleField StringRules String) :=
  let format := stringFormatField kind
  [format 12 "email" (fun | .email b => some b | _ => none)
      "email address" "email address" B.isEmail,
    format 13 "hostname" (fun | .hostname b => some b | _ => none)
      "hostname" "hostname" B.isHostname,
    format 14 "ip" (fun | .ip b => some b | _ => none)
      "IP address" "IP address" (celIsIp B · 0),
    format 15 "ipv4" (fun | .ipv4 b => some b | _ => none)
      "IPv4 address" "IPv4 address" (celIsIp B · 4),
    format 16 "ipv6" (fun | .ipv6 b => some b | _ => none)
      "IPv6 address" "IPv6 address" (celIsIp B · 6),
    format 17 "uri" (fun | .uri b => some b | _ => none) "URI" "URI" B.isUri,
    flagField 18 "uri_ref" StringRules.uriRef [
      holds (kind ++ "." ++ "uri_ref") "must be a valid URI Reference"
        (fun rules this => !rules.uriRef.getD false || B.isUriRef this)],
    format 21 "address" (fun | .address b => some b | _ => none)
      "hostname, or ip address" "hostname, or ip address"
      (fun this => B.isHostname this || celIsIp B this 0),
    format 22 "uuid" (fun | .uuid b => some b | _ => none) "UUID" "UUID" (B.isMatch UUID),
    format 33 "tuuid" (fun | .tuuid b => some b | _ => none)
      "trimmed UUID" "trimmed UUID" (B.isMatch TUUID),
    format 26 "ip_with_prefixlen" (fun | .ipWithPrefixlen b => some b | _ => none)
      "IP prefix" "IP prefix" (celIsIpPrefix B · 0 false),
    format 27 "ipv4_with_prefixlen" (fun | .ipv4WithPrefixlen b => some b | _ => none)
      "IPv4 address with prefix length" "IPv4 address with prefix length"
      (celIsIpPrefix B · 4 false),
    format 28 "ipv6_with_prefixlen" (fun | .ipv6WithPrefixlen b => some b | _ => none)
      "IPv6 address with prefix length" "IPv6 address with prefix length"
      (celIsIpPrefix B · 6 false),
    format 29 "ip_prefix" (fun | .ipPrefix b => some b | _ => none)
      "IP prefix" "IP prefix" (celIsIpPrefix B · 0 true),
    format 30 "ipv4_prefix" (fun | .ipv4Prefix b => some b | _ => none)
      "IPv4 prefix" "IPv4 prefix" (celIsIpPrefix B · 4 true),
    format 31 "ipv6_prefix" (fun | .ipv6Prefix b => some b | _ => none)
      "IPv6 prefix" "IPv6 prefix" (celIsIpPrefix B · 6 true),
    format 32 "host_and_port" (fun | .hostAndPort b => some b | _ => none)
      "host (hostname or IP address) and port pair" "host and port pair" (B.isHostAndPort · true),
    format 35 "ulid" (fun | .ulid b => some b | _ => none) "ULID" "ULID" (B.isMatch ULID),
    format 37 "protobuf_fqn" (fun | .protobufFqn b => some b | _ => none)
      "fully-qualified Protobuf name" "fully-qualified Protobuf name" (B.isMatch PROTOBUF_FQN),
    format 38 "protobuf_dot_fqn" (fun | .protobufDotFqn b => some b | _ => none)
      "fully-qualified Protobuf name with a leading dot"
      "fully-qualified Protobuf name with a leading dot" (B.isMatch PROTOBUF_DOT_FQN),
    wellKnownRegexField B kind]

/-- `strict` has no expression of its own. -/
def stringFields : List (RuleField StringRules String) :=
  List.flatten [
    [breaksField kind 1 "const" StringRules.const .string (fun c this => this != c)
      (fun c => "must equal `" ++ c ++ "`")],
    stringLengthFields kind,
    [patternField B kind 6 StringRules.pattern some
      (fun p => "does not match regex pattern `" ++ p ++ "`")],
    substringFields kind,
    [breaksListField kind 10 "in" StringRules.isIn .strings (fun list this => !list.contains this)
      (fun list => "must be in list " ++ displayList id list)],
    [breaksListField kind 11 "not_in" StringRules.notIn .strings
      (fun list this => list.contains this)
      (fun list => "must not be in list " ++ displayList id list)],
    wellKnownFields B kind] ++
  [flagField 25 "strict" StringRules.strict [],
    exampleField kind 34 (fun rules => listContent .strings rules.exampleValues)]

/-- A flag of the `well_known` oneof of `BytesRules`, on the size. -/
def bytesFormatField (number : Nat) (name : String) (flag : BytesWellKnown → Option Bool)
    (what : String) (sizes : List Nat) : RuleField BytesRules Bytes :=
  formatField kind number name (fun rules => rules.wellKnown.bind flag) (·.length == 0) what what
    (fun this => sizes.contains this.length)

def bytesFormatFields : List (RuleField BytesRules Bytes) := [
  bytesFormatField kind 10 "ip" (fun | .ip b => some b | _ => none) "IP address" [4, 16],
  bytesFormatField kind 11 "ipv4" (fun | .ipv4 b => some b | _ => none) "IPv4 address" [4],
  bytesFormatField kind 12 "ipv6" (fun | .ipv6 b => some b | _ => none) "IPv6 address" [16],
  bytesFormatField kind 15 "uuid" (fun | .uuid b => some b | _ => none) "UUID" [16]]

def bytesFields : List (RuleField BytesRules Bytes) :=
  List.flatten [
    [breaksField kind 1 "const" BytesRules.const .bytes (fun c this => this != c)
      (fun c => "must be " ++ displayHex c)],
    [breaksField kind 13 "len" BytesRules.len (fun n => .int n) (fun n this => this.length != n)
      (fun n => "must be " ++ toString n ++ " bytes")],
    [breaksField kind 2 "min_len" BytesRules.minLen (fun n => .int n)
      (fun n this => this.length < n) (fun n => "must be at least " ++ toString n ++ " bytes")],
    [breaksField kind 3 "max_len" BytesRules.maxLen (fun n => .int n)
      (fun n this => this.length > n) (fun n => "must be at most " ++ toString n ++ " bytes")],
    [patternField B kind 4 BytesRules.pattern fromUtf8
      (fun p => "must match regex pattern `" ++ p ++ "`")],
    [breaksField kind 5 "prefix" BytesRules.prefixed .bytes (fun p this => !p.isPrefixOf this)
      (fun p => "does not have prefix " ++ displayHex p)],
    [breaksField kind 6 "suffix" BytesRules.suffix .bytes (fun p this => !p.isSuffixOf this)
      (fun p => "does not have suffix " ++ displayHex p)],
    [breaksField kind 7 "contains" BytesRules.contains .bytes
      (fun p this => !contains this p) (fun p => "does not contain " ++ displayHex p)],
    [breaksListField kind 8 "in" BytesRules.isIn .bytesList
      (fun list this => list.length > 0 && !list.contains this)
      (fun list => "must be in list " ++ displayList B.lossyText list)],
    [breaksListField kind 9 "not_in" BytesRules.notIn .bytesList
      (fun list this => list.contains this)
      (fun list => "must not be in list " ++ displayList B.lossyText list)],
    bytesFormatFields kind] ++
  [exampleField kind 14 (fun rules => listContent .bytesList rules.exampleValues)]

end Families

end Protovalidate
