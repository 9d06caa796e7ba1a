import Protovalidate.Determined
import Protovalidate.Eval

/-!
# Two engines for patterns

Which engine compiles patterns, and matches them, depends on the `cel` feature. Backends
that differ in nothing else build the same checks, and these decide the same, where the
engines agree on the patterns that the rules set.
-/

namespace Protovalidate

open Recording

/-- The patterns of the formats. -/
def FORMAT_PATTERNS : List String :=
  [UUID, TUUID, ULID, PROTOBUF_FQN, PROTOBUF_DOT_FQN, HEADER_NAME_STRICT, HEADER_NAME_LOOSE,
    HEADER_VALUE_STRICT, HEADER_VALUE_LOOSE]

namespace Backend

/-- Two engines compile a pattern alike, or refuse it with the same message, and match
the same texts with it. -/
structure AgreeOn (B other : Backend) (pattern : String) : Prop where
  compiles : other.regexNew pattern = B.regexNew pattern
  matching : ∀ text, other.isMatch pattern text = B.isMatch pattern text

/-- Backends that differ in their engines only, which agree on some patterns and match
the same texts with those of the formats. -/
structure Agrees (B other : Backend) (patterns : String → Prop) : Prop where
  others : other = { B with regexNew := other.regexNew, isMatch := other.isMatch }
  patterns : ∀ pattern, patterns pattern → B.AgreeOn other pattern
  formats : ∀ pattern ∈ FORMAT_PATTERNS, ∀ text,
    other.isMatch pattern text = B.isMatch pattern text

end Backend

/-- The pattern that a rules message sets. -/
def RulesTypeOf.pattern {φ : Type} : RulesTypeOf φ → Option String
  | .string rules => rules.pattern
  | .bytes rules => rules.pattern
  | _ => none

/-- A pattern is set in the rules of a field, or in those of its items, keys or values. -/
inductive FieldRules.Sets (pattern : String) : FieldRules → Prop
  | own {rules : FieldRules} {standard : RulesType} : rules.type = some standard →
    standard.pattern = some pattern → Sets pattern rules
  | items {rules inner : FieldRules} : itemsOf rules.type = some inner → Sets pattern inner →
    Sets pattern rules
  | keys {rules inner : FieldRules} : (entriesOf rules.type).1 = some inner →
    Sets pattern inner → Sets pattern rules
  | values {rules inner : FieldRules} : (entriesOf rules.type).2 = some inner →
    Sets pattern inner → Sets pattern rules

/-- A pattern is set in the rules of some field of a pool. -/
def DescriptorPool.Sets (pool : DescriptorPool) (pattern : String) : Prop :=
  ∃ index, ∃ field ∈ (pool.message index).fields, ∃ rules, field.fieldRules = some rules ∧
    rules.Sets pattern

section Checks
variable {B other : Backend} {patterns : String → Prop} (agrees : B.Agrees other patterns)

theorem patternChecks_agree {τ : Type} {kind : String} {pattern : Option String}
    (compiles : ∀ p, pattern = some p → other.regexNew p = B.regexNew p)
    (check : String → Regex → Unplaced τ) :
    patternChecks other kind pattern check = patternChecks B kind pattern check := by
  cases pattern with
  | none => rfl
  | some p => simp only [patternChecks, regex, Regex.new, compiles p rfl]

include agrees

/-- The checks of rules whose pattern the engines agree on. -/
theorem checks_agree {rules : RulesType} (sets : ∀ p, rules.pattern = some p → patterns p)
    (kind : String) (path : Nat → List FieldPathElement) (enum : Option EnumIndex) :
    checks other kind rules path enum = checks B kind rules path enum := by
  have compiles : ∀ p, rules.pattern = some p → other.regexNew p = B.regexNew p :=
    fun p set => (agrees.patterns p (sets p set)).compiles
  obtain ⟨regexNew, isMatch, rfl⟩ :
      ∃ regexNew isMatch, other = { B with regexNew := regexNew, isMatch := isMatch } :=
    ⟨_, _, agrees.others⟩
  cases rules with
  | string r =>
    have same := @patternChecks_agree B _ StrTest kind r.pattern compiles
    simp only [checks, stringChecks, same]
  | bytes r =>
    have same := @patternChecks_agree B _ BytesTest kind r.pattern compiles
    simp only [checks, bytesChecks, same]
  | _ => rfl

theorem placedNumbers_agree {rules : RulesType}
    (sets : ∀ p, rules.pattern = some p → patterns p) (kind : String) (enum : Option EnumIndex) :
    placedNumbers other kind rules enum = placedNumbers B kind rules enum := by
  rw [placedNumbers, checks_agree agrees sets, placedNumbers]

theorem format_agree (format : WellKnown) (s : String) :
    format.fails other s = format.fails B s := by
  have formats := agrees.formats
  have accepts : format.accepts other s = format.accepts B s := by
    obtain ⟨regexNew, isMatch, rfl⟩ :
        ∃ regexNew isMatch, other = { B with regexNew := regexNew, isMatch := isMatch } :=
      ⟨_, _, agrees.others⟩
    cases format with
    | uuid => exact formats UUID (by simp [FORMAT_PATTERNS]) s
    | tuuid => exact formats TUUID (by simp [FORMAT_PATTERNS]) s
    | ulid => exact formats ULID (by simp [FORMAT_PATTERNS]) s
    | protobufFqn => exact formats PROTOBUF_FQN (by simp [FORMAT_PATTERNS]) s
    | protobufDotFqn => exact formats PROTOBUF_DOT_FQN (by simp [FORMAT_PATTERNS]) s
    | headerName strict =>
      cases strict with
      | true => exact formats HEADER_NAME_STRICT (by simp [FORMAT_PATTERNS]) s
      | false => exact formats HEADER_NAME_LOOSE (by simp [FORMAT_PATTERNS]) s
    | headerValue strict =>
      cases strict with
      | true => exact formats HEADER_VALUE_STRICT (by simp [FORMAT_PATTERNS]) s
      | false => exact formats HEADER_VALUE_LOOSE (by simp [FORMAT_PATTERNS]) s
    | _ => rfl
  rw [WellKnown.fails, WellKnown.fails, accepts]

/-- A string test is not on a pattern, or on one that the engines agree on. -/
theorem strTest_agree {test : StrTest}
    (on : ∀ regex, test = .pattern regex → patterns regex.pattern)
    (s : String) : test.fails other s = test.fails B s := by
  cases test with
  | pattern regex =>
    have same := (agrees.patterns _ (on regex rfl)).matching s
    simp only [StrTest.fails, Regex.isMatch, same]
  | wellKnown format => simp only [StrTest.fails, format_agree agrees]
  | _ => rfl

theorem bytesTest_agree {test : BytesTest}
    (on : ∀ regex, test = .pattern regex → patterns regex.pattern) (b : Bytes) :
    test.fails other b = test.fails B b := by
  cases test with
  | pattern regex =>
    have same := (agrees.patterns _ (on regex rfl)).matching
    simp only [BytesTest.fails, Regex.isMatch, same]
  | _ => rfl

end Checks

/-! ### The checks that rules build -/

/-- What checks decide does not depend on the engine. -/
def Checks.Agree (B other : Backend) : Checks → Prop
  | .string checks => ∀ check ∈ checks, ∀ s, check.test.fails other s = check.test.fails B s
  | .bytes checks => ∀ check ∈ checks, ∀ b, check.test.fails other b = check.test.fails B b
  | .timestamp checks => ∀ check ∈ checks, ∀ t, check.test.fails other t = check.test.fails B t
  | _ => True

section Built
variable {τ : Type} {P : τ → Prop}

/-- All tests of some checks are of a kind. -/
def Tests (P : τ → Prop) (checks : Unplaced τ) : Prop := checks.All fun check => P check.2.test

theorem Tests.placed {checks : Unplaced τ} (tests : Tests P checks)
    (path : Nat → List FieldPathElement) : ∀ check ∈ checks.place path, P check.test := by
  intro check member
  obtain ⟨native, present, rfl⟩ := List.mem_map.mp member
  exact tests native present

/-- A pattern check is on the pattern that is set. -/
theorem patternChecks_tests {B : Backend} {kind : String} {pattern : Option String}
    {check : String → Regex → Unplaced τ} {checks : Unplaced τ}
    (built : patternChecks B kind pattern check = .ok checks)
    (on : ∀ p, pattern = some p → Tests P (check p ⟨p⟩)) : Tests P checks := by
  rcases patternChecks_cases built with ⟨-, rfl⟩ | ⟨p, set, -, rfl⟩
  · exact Unplaced.all_nil
  · exact on p set

/-- A string test, on the pattern of the rules if it is on one. -/
def StrTest.Of (pattern : Option String) (test : StrTest) : Prop :=
  ∀ regex, test = .pattern regex → pattern = some regex.pattern

def BytesTest.Of (pattern : Option String) (test : BytesTest) : Prop :=
  ∀ regex, test = .pattern regex → pattern = some regex.pattern

theorem wellKnownChecks_tests (kind : String) (rule : StringWellKnown) (strict : Bool)
    (pattern : Option String) :
    Tests (StrTest.Of pattern) (wellKnownChecks kind rule strict) := by
  unfold wellKnownChecks
  split
  · exact Unplaced.all_nil
  · refine Unplaced.All.append (Unplaced.all_push fun _ => nofun) ?_
    split
    · exact Unplaced.all_push fun _ => nofun
    · exact Unplaced.all_nil

/-- One list of checks for each rule, and none on a pattern among them. -/
theorem lengthChecks_tests (kind : String) (r : StringRules) (pattern : Option String) :
    Tests (StrTest.Of pattern) (lengthChecks kind r) := by
  refine Unplaced.All.flatten ?_
  simp only [List.forall_mem_cons, List.not_mem_nil, false_imp_iff, implies_true, and_true]
  refine ⟨?_, ?_, ?_, ?_, ?_, ?_⟩ <;>
    exact .whenSet fun _ => Unplaced.all_push fun _ => nofun

theorem substringChecks_tests (kind : String) (r : StringRules) (pattern : Option String) :
    Tests (StrTest.Of pattern) (substringChecks kind r) := by
  refine Unplaced.All.flatten ?_
  simp only [List.forall_mem_cons, List.not_mem_nil, false_imp_iff, implies_true, and_true]
  refine ⟨?_, ?_, ?_, ?_⟩ <;>
    exact .whenSet fun _ => Unplaced.all_push fun _ => nofun

theorem stringChecks_tests {B : Backend} {kind : String} {r rest : StringRules}
    {checks : Unplaced StrTest} (built : stringChecks B kind r = .ok (checks, rest)) :
    Tests (StrTest.Of r.pattern) checks := by
  obtain ⟨pattern, compiled, same⟩ := bind_eq_ok.mp built
  cases same
  have patterns : Tests (StrTest.Of r.pattern) pattern :=
    patternChecks_tests compiled fun p set => Unplaced.all_push fun _ same => by
      cases same
      exact set
  refine Unplaced.All.flatten ?_
  simp only [List.forall_mem_cons, List.not_mem_nil, false_imp_iff, implies_true, and_true]
  refine ⟨.whenSet fun _ => Unplaced.all_push fun _ => nofun,
    lengthChecks_tests kind r _, patterns, substringChecks_tests kind r _,
    .whenListed fun _ => Unplaced.all_push fun _ => nofun,
    .whenListed fun _ => Unplaced.all_push fun _ => nofun,
    .whenSet fun rule => wellKnownChecks_tests kind rule _ _⟩

theorem bytesFormatChecks_tests (kind : String) (format : BytesWellKnown)
    (pattern : Option String) : Tests (BytesTest.Of pattern) (bytesFormatChecks kind format) := by
  unfold bytesFormatChecks
  dsimp only
  split <;> first
    | exact Unplaced.all_nil
    | exact Unplaced.All.append (Unplaced.all_push fun _ => nofun)
        (Unplaced.all_push fun _ => nofun)

theorem bytesChecks_tests {B : Backend} {kind : String} {r rest : BytesRules}
    {checks : Unplaced BytesTest} (built : bytesChecks B kind r = .ok (checks, rest)) :
    Tests (BytesTest.Of r.pattern) checks := by
  obtain ⟨pattern, compiled, same⟩ := bind_eq_ok.mp built
  cases same
  have patterns : Tests (BytesTest.Of r.pattern) pattern :=
    patternChecks_tests compiled fun p set => Unplaced.all_push fun _ same => by
      cases same
      exact set
  refine Unplaced.All.flatten ?_
  simp only [List.forall_mem_cons, List.not_mem_nil, false_imp_iff, implies_true, and_true]
  refine ⟨?_, ?_, ?_, ?_, patterns, ?_, ?_, ?_, ?_, ?_, .whenSet fun format =>
    bytesFormatChecks_tests kind format _⟩
  all_goals first
    | exact .whenSet fun _ => Unplaced.all_push fun _ => nofun
    | exact .whenListed fun _ => Unplaced.all_push fun _ => nofun

end Built

/-- The checks of rules whose pattern the engines agree on decide the same. -/
theorem checks_decide {B other : Backend} {patterns : String → Prop}
    (agrees : B.Agrees other patterns) {rules rest : RulesType}
    (sets : ∀ p, rules.pattern = some p → patterns p) {kind : String}
    {path : Nat → List FieldPathElement} {enum : Option EnumIndex} {built : Checks}
    (done : checks B kind rules path enum = .ok (built, rest)) : built.Agree B other := by
  cases rules with
  | string r =>
    simp only [checks] at done
    cases made : stringChecks B kind r with
    | error e => simp [made, Except.map] at done
    | ok made' =>
      simp only [made, Except.map, Except.ok.injEq, Prod.mk.injEq] at done
      obtain ⟨rfl, -⟩ := done
      intro check member s
      have on := (stringChecks_tests made).placed path check member
      exact strTest_agree agrees (fun regex same => sets _ (on regex same)) s
  | bytes r =>
    simp only [checks] at done
    cases made : bytesChecks B kind r with
    | error e => simp [made, Except.map] at done
    | ok made' =>
      simp only [made, Except.map, Except.ok.injEq, Prod.mk.injEq] at done
      obtain ⟨rfl, -⟩ := done
      intro check member b
      have on := (bytesChecks_tests made).placed path check member
      exact bytesTest_agree agrees (fun regex same => sets _ (on regex same)) b
  | timestamp r =>
    simp only [checks] at done
    cases made : timestampChecks B kind r with
    | error e => simp [made, Except.map] at done
    | ok made' =>
      simp only [made, Except.map, Except.ok.injEq, Prod.mk.injEq] at done
      obtain ⟨rfl, -⟩ := done
      intro check _ t
      rw [agrees.others]
      rfl
  | _ r =>
    simp only [checks, Except.ok.injEq, Prod.mk.injEq] at done
    obtain ⟨rfl, -⟩ := done
    trivial

section Run
variable {R : Runtime} {m : Type → Type} [Recorder m Failure FieldPathElement (Error R.Error)]

theorem run_congr {τ : Type} {checks : List (Check τ)} {fails fails' : τ → Except String Bool}
    (same : ∀ check ∈ checks, fails check.test = fails' check.test) :
    (run checks fails : m Unit) = run checks fails' := by
  induction checks with
  | nil => rfl
  | cons check rest ih =>
    have later := ih fun other later => same other (List.mem_cons_of_mem check later)
    change (evaluate (fails check.test) >>= _) >>= (fun _ => run rest fails) =
      (evaluate (fails' check.test) >>= _) >>= fun _ => run rest fails'
    rw [same check List.mem_cons_self, later]

/-- What checks report does not depend on the engine of the walk. -/
theorem Checks.check_agree (walk walk' : Walk R) (pool : walk'.pool = walk.pool)
    {self : Checks} (agree : self.Agree walk.backend walk'.backend) (value : Option (Val R))
    (wrapper : Option (Field R)) :
    (self.check walk' value wrapper : m Unit) = self.check walk value wrapper := by
  have checkValue : ∀ value wrapper,
      (self.checkValue walk' value wrapper : m Unit) = self.checkValue walk value wrapper := by
    intro value wrapper
    cases self with
    | string checks =>
      simp only [Checks.checkValue]
      congr 1
      funext s
      exact run_congr fun check member => agree check member s
    | bytes checks =>
      simp only [Checks.checkValue]
      congr 1
      funext b
      exact run_congr fun check member => agree check member b
    | timestamp checks =>
      simp only [Checks.checkValue]
      congr 1
      funext t
      exact run_congr fun check member => agree check member t
    | enum checks => simp only [Checks.checkValue, pool]
    | _ => rfl
  unfold Checks.check
  split <;> simp only [checkValue]

end Run

end Protovalidate
