import Protovalidate.BuildSpec
import Protovalidate.CelOutcomes
import Protovalidate.Shim

/-!
# Rules over the CEL backend

What a CEL rule records does not depend on the rules it is compiled with, and an
expression that calls a function of the library gets what its method decides of the
values it called it with.
-/

namespace Protovalidate

open BuildM

/-! ### Rules compiled together -/

def CelRule.toExpression (rule : CelRule) : Cel.Expression :=
  ⟨rule.expression, rule.ruleFieldNumber⟩

section Together
variable {R : Runtime} (self : Builder R) (expressions : CelExpressions)

theorem compile_succeeds (some : expressions.rules ≠ []) {program : Cel.Program}
    (done : self.env.compile expressions.bound (expressions.rules.map CelRule.toExpression) =
      .ok program) :
    Builds (self.compile expressions) (Option.some ⟨program, expressions.rules⟩) := by
  have rules : expressions.rules.isEmpty = false := by simpa using some
  have made : self.env.compile expressions.bound (expressions.rules.map fun rule =>
      (⟨rule.expression, rule.ruleFieldNumber⟩ : Cel.Expression)) = .ok program := done
  simp only [Builds, Builder.compile, rules, Bool.false_eq_true, if_false, made]
  rfl

/-- The rule that is named is the first that does not compile alone. -/
theorem compile_names {before after : List CelRule} {rule : CelRule} {together error : Cel.Error}
    (split : expressions.rules = before ++ rule :: after)
    (ended : self.env.compile expressions.bound (expressions.rules.map CelRule.toExpression) =
      .error together)
    (earlier : ∀ other ∈ before, ∃ single,
      self.env.compile expressions.bound [other.toExpression] = .ok single)
    (alone : self.env.compile expressions.bound [rule.toExpression] = .error error) :
    Fails (self.compile expressions)
      ("failed to compile expression " ++ rule.id ++ ": " ++ error.message) := by
  have rules : expressions.rules.isEmpty = false := by simp [split]
  have failed : self.env.compile expressions.bound (expressions.rules.map fun rule =>
      (⟨rule.expression, rule.ruleFieldNumber⟩ : Cel.Expression)) = .error together := ended
  have passes : ∀ other ∈ before, ∃ single, self.env.compile expressions.bound
      [⟨other.expression, other.ruleFieldNumber⟩] = .ok single := earlier
  have fault : self.env.compile expressions.bound [⟨rule.expression, rule.ruleFieldNumber⟩] =
      .error error := alone
  simp only [Fails, Builder.compile, rules, Bool.false_eq_true, if_false, failed]
  rw [split, List.findSome?_append, List.findSome?_eq_none_iff.mpr, Option.none_or,
    List.findSome?_cons, fault]
  · rfl
  · intro other member
    obtain ⟨single, done⟩ := passes other member
    rw [done]

end Together

section Each
variable {R : Runtime} {rt : Shim.Celrt} (B : Backend) (engine : Shim.CelEngine rt)

/-- Rules compiled together record what each records that is compiled alone, in order, and
one that does not compile is named with its own error. -/
theorem compile_each (self : Builder R) (shim : self.env = Shim.env B engine)
    (expressions : CelExpressions) (some : expressions.rules ≠ []) :
    (∃ programs, Builds (self.compile expressions) (Option.some programs) ∧
      (∀ rule ∈ expressions.rules, ∃ single,
        self.env.compile expressions.bound [rule.toExpression] = .ok single) ∧
      ∀ this out, (programs.run (R := R) this : WalkM R.Error Unit) out =
        Verdicts.run (expressions.rules.map fun rule => (rule, rule.verdict yielded
          (self.env.alone expressions.bound rule.toExpression this))) out) ∨
    ∃ before rule after error, expressions.rules = before ++ rule :: after ∧
      (∀ earlier ∈ before, ∃ single,
        self.env.compile expressions.bound [earlier.toExpression] = .ok single) ∧
      self.env.compile expressions.bound [rule.toExpression] = .error error ∧
      Fails (self.compile expressions)
        ("failed to compile expression " ++ rule.id ++ ": " ++ error.message) := by
  rw [shim]
  rcases Shim.env_together B engine expressions.bound
      (expressions.rules.map CelRule.toExpression) with
    ⟨program, done, each⟩ |
      ⟨error, ended, none | ⟨before, expression, after, split, earlier, alone⟩⟩
  · refine .inl ⟨⟨program, expressions.rules⟩, ?_, fun rule member => ?_, fun this out => ?_⟩
    · exact compile_succeeds self expressions some (shim ▸ done)
    · obtain ⟨index, inside, rfl⟩ := List.getElem_of_mem member
      exact (each index _ (by simp [inside])).1
    · have verdicts : (expressions.rules.zipIdx.map fun item =>
          (item.1, item.1.verdict yielded (program.eval item.2 this))) =
          expressions.rules.map fun rule => (rule, rule.verdict yielded
            ((Shim.env B engine).alone expressions.bound rule.toExpression this)) := by
        refine List.ext_getElem (by simp) fun index inside _ => ?_
        have inside' : index < expressions.rules.length := by simpa using inside
        have own := (each index (expressions.rules[index].toExpression) (by simp [inside'])).2 this
        simp [own]
      rw [← verdicts]
      exact CelPrograms.runFrom_verdicts _ this expressions.rules.zipIdx out
  · exact absurd (List.map_eq_nil_iff.mp none) some
  · obtain ⟨before', rest, split', rfl, cut⟩ := List.map_eq_append_iff.mp split
    obtain ⟨rule, after', rfl, rfl, rfl⟩ := List.map_eq_cons_iff.mp cut
    have single : ∀ other ∈ before', ∃ single,
        (Shim.env B engine).compile expressions.bound [other.toExpression] = .ok single :=
      fun other member => earlier _ (List.mem_map_of_mem member)
    refine .inr ⟨before', rule, after', error, split', single, alone, ?_⟩
    exact compile_names self expressions split' (shim ▸ ended) (shim ▸ single) (shim ▸ alone)

end Each

/-! ### Calls of the library -/

namespace Shim

open Library (Arg method FUNCTIONS)
open Wire (utf8)

section Marshalling
variable {O : Type} (B : Backend)

/-- The argument that a value is handed over as, `none` for a kind that has none. -/
def CelValue.arg? : CelValue O → Option Arg
  | .bool b => some (.bool b)
  | .int64 i => some (.int i)
  | .uint64 u => some (.uint u)
  | .double d => some (.double d)
  | .string text => some (.string (fromUtf8Lossy B text))
  | .bytes text => some (.bytes text)
  | .list elements => some (.list (elements.map (element B)))
  | _ => none

/-- What a call of a library function is in an expression, `none` when there is none for
its arguments. -/
def libraryCall (name : String) (values : List (CelValue O)) : Option (CelValue O) := do
  let args ← values.mapM (CelValue.arg? B)
  let outcome ← method B name args
  return match outcome with
    | .ok b => .bool b
    | .error message => .error (utf8 message)

def typesOf (kinds : List Library.Kind) : List CelType :=
  kinds.map fun kind => typeOfKind (kindCode kind)

variable {B}

theorem toInt_ne_zero (b : Bool) : (b.toInt != 0) = b := by
  cases b <;> rfl

theorem argument_toValue {value : CelValue O} {arg : Arg} (handed : value.arg? B = some arg) :
    argument B (toValue value) = .ok arg := by
  cases value with
  | null | error _ | other _ => cases handed
  | bool b =>
    cases handed
    exact congrArg (Except.ok ∘ Arg.bool) (toInt_ne_zero b)
  | int64 | uint64 | double | string | bytes | list =>
    cases handed
    rfl

/-- A value of the type of a kind is handed over as an argument of the kind. -/
theorem arg_of_type {value : CelValue O} {kind : Library.Kind}
    (typed : value.type = typeOfKind (kindCode kind)) :
    ∃ arg, value.arg? B = some arg ∧ arg.kind = kind := by
  cases value <;> cases kind <;> first | exact ⟨_, rfl, rfl⟩ | cases typed

theorem type_of_arg {value : CelValue O} {arg : Arg} (handed : value.arg? B = some arg) :
    value.type = typeOfKind (kindCode arg.kind) := by
  cases value <;> cases handed <;> rfl

theorem args_of_types {values : List (CelValue O)} {kinds : List Library.Kind}
    (typed : values.map CelValue.type = typesOf kinds) :
    ∃ args, values.mapM (CelValue.arg? B) = some args ∧ args.map Arg.kind = kinds ∧
      (values.map toValue).mapM (argument B) = .ok args := by
  induction values generalizing kinds with
  | nil =>
    obtain rfl : kinds = [] := List.map_eq_nil_iff.mp typed.symm
    exact ⟨[], rfl, rfl, rfl⟩
  | cons value values ih =>
    obtain ⟨kind, kinds, rfl, own, rest⟩ := List.map_eq_cons_iff.mp typed.symm
    obtain ⟨arg, handed, kindly⟩ := arg_of_type (B := B) own.symm
    obtain ⟨args, all, kinded, read⟩ := ih rest.symm
    refine ⟨arg :: args, ?_, ?_, ?_⟩
    · rw [List.mapM_cons, handed, all]
      rfl
    · rw [List.map_cons, kindly, kinded]
    · rw [List.map_cons, List.mapM_cons, argument_toValue handed, read]
      rfl

theorem types_of_args {values : List (CelValue O)} {args : List Arg}
    (handed : values.mapM (CelValue.arg? B) = some args) :
    values.map CelValue.type = typesOf (args.map Arg.kind) := by
  induction values generalizing args with
  | nil =>
    cases handed
    rfl
  | cons value values ih =>
    rw [List.mapM_cons] at handed
    cases own : value.arg? B with
    | none => simp [own] at handed
    | some arg =>
      cases rest : values.mapM (CelValue.arg? B) with
      | none => simp [own, rest] at handed
      | some args' =>
        simp only [own, rest] at handed
        cases handed
        exact congrArg₂ List.cons (type_of_arg own) (ih rest)

end Marshalling
/-- The shape that the runtime tells the overloads of the library by. -/
def shapeOf (function : Library.Function) : Overloads.Shape CelType :=
  ⟨function.name, true, typesOf function.args⟩

section Registered
variable {rt : Celrt} {B : Backend}

/-- A library function as the runtime calls it. -/
def native (B : Backend) (function : Library.Function) (values : List (CelValue rt.Other)) :
    CelValue rt.Other :=
  nativeFunction B (fun args => .ok (function.call args)) values

theorem method_error {name : String} {args : List Arg} {message : String}
    (decides : method B name args = some (.error message)) : message = Library.NO_OVERLOAD := by
  unfold method at decides
  split at decides
  case h_4 =>
    split at decides <;> cases decides
    rfl
  all_goals cases decides

/-- The message of the only error has no NUL. -/
theorem cString_noOverload : cString (utf8 Library.NO_OVERLOAD) = utf8 Library.NO_OVERLOAD := by
  decide +kernel

theorem native_call {function : Library.Function} (listed : function ∈ FUNCTIONS B)
    {values : List (CelValue rt.Other)} (typed : values.map CelValue.type = typesOf function.args) :
    libraryCall B function.name values = some (native B function values) := by
  obtain ⟨args, handed, kinds, read⟩ := args_of_types (B := B) typed
  have decided := Library.call_method listed kinds
  cases outcome : function.call args with
  | ok b =>
    rw [outcome] at decided
    simp only [libraryCall, handed, decided, native, nativeFunction, callFunction, read, outcome,
      bind, Option.bind]
    rfl
  | error message =>
    rw [outcome] at decided
    obtain rfl := method_error decided
    simp only [libraryCall, handed, decided, native, nativeFunction, callFunction, read, outcome,
      bind, Option.bind]
    exact congrArg some (congrArg CelValue.error cString_noOverload.symm)

theorem kind_types {kinds kinds' : List Library.Kind} (same : typesOf kinds = typesOf kinds') :
    kinds = kinds' := by
  refine List.map_injective_iff.mpr (fun kind kind' typed => ?_) same
  cases kind <;> cases kind' <;> first | rfl | cases typed

theorem functions_distinct : ((FUNCTIONS B).map shapeOf).Nodup := by
  have pairs : ((FUNCTIONS B).map fun function => (function.name, function.args)).Nodup := by
    simp [FUNCTIONS]
  refine List.Nodup.of_map (fun shape => (shape.name, shape.types)) ?_
  rw [List.map_map]
  have through : (fun shape : Overloads.Shape CelType => (shape.name, shape.types)) ∘ shapeOf =
      (fun pair : String × List Library.Kind => (pair.1, typesOf pair.2)) ∘
        fun function => (function.name, function.args) := rfl
  rw [through, ← List.map_map]
  refine pairs.map fun pair pair' same => ?_
  exact Prod.ext (Prod.mk.inj same).1 (kind_types (Prod.mk.inj same).2)

theorem foldlM_register (functions : List Library.Function) (engine : CelEngine rt)
    {later : rt.functions.Registry}
    (done : Overloads.registerAll rt.functions shapeOf (native B) engine.builder functions =
      .ok later) :
    functions.foldlM (fun env function => register B env function.name true function.args
      fun args => .ok (function.call args)) engine = .ok { engine with builder := later } := by
  induction functions generalizing engine with
  | nil =>
    cases done
    rfl
  | cons function functions ih =>
    rw [Overloads.registerAll, List.foldlM_cons] at done
    rw [List.foldlM_cons]
    cases registered : rt.functions.register engine.builder (shapeOf function)
        (native B function) with
    | error message => simp [registered, bind, Except.bind] at done
    | ok mid =>
      have types : (function.args.map kindCode).map typeOfKind = typesOf function.args := by
        rw [List.map_map]
        rfl
      have made : register B engine function.name true function.args
          (fun args => .ok (function.call args)) = .ok { engine with builder := mid } := by
        have same : rt.functions.register engine.builder
            ⟨function.name, true, (function.args.map kindCode).map typeOfKind⟩
            (nativeFunction B fun args => .ok (function.call args)) = .ok mid := by
          rw [types]
          exact registered
        simp only [register, celEngineRegister, same]
        rfl
      simp only [registered, bind, Except.bind] at done
      simp only [made, bind, Except.bind]
      exact ih { engine with builder := mid } done

/-- With the library registered, a call gets what its method decides of the values it
calls it with, and every other call what it got before. -/
theorem newEnv_calls {start : CelEngine rt} (created : celEngineNew rt = .ok start)
    (absent : ∀ function ∈ FUNCTIONS B, rt.functions.find start.builder (shapeOf function) = none) :
    ∃ engine, newEnv rt B = .ok engine ∧ engine.pool = start.pool ∧
      ∀ name receiver (values : List (CelValue rt.Other)),
        (rt.functions.find engine.builder ⟨name, receiver, values.map CelValue.type⟩).map
            (fun call => call values) =
          (if receiver then libraryCall B name values else none).or
            ((rt.functions.find start.builder ⟨name, receiver, values.map CelValue.type⟩).map
              fun call => call values) := by
  have registered : ∃ later, Overloads.registerAll rt.functions shapeOf (native B) start.builder
      (FUNCTIONS B) = .ok later ∧ ∀ other, rt.functions.find later other = _ :=
    Overloads.registerAll_finds start.builder (FUNCTIONS B) functions_distinct absent
  obtain ⟨later, done, finds⟩ := registered
  refine ⟨{ start with builder := later }, ?_, rfl, fun name receiver values => ?_⟩
  · have new : engineNew rt B = .ok start := by
      rw [engineNew, created]
    simp only [newEnv, new, bind, Except.bind]
    exact foldlM_register _ start done
  rw [finds]
  cases found : (FUNCTIONS B).find? fun function =>
      shapeOf function = ⟨name, receiver, values.map CelValue.type⟩ with
  | some function =>
    have listed := List.mem_of_find?_eq_some found
    have shape : shapeOf function = ⟨name, receiver, values.map CelValue.type⟩ := by
      simpa using List.find?_some found
    obtain ⟨rfl, rfl, types⟩ := Overloads.Shape.mk.inj shape
    simp [native_call listed types.symm]
  | none =>
    have missing : (if receiver then libraryCall B name values else none) = none := by
      cases receiver with
      | false => rfl
      | true =>
        rw [if_pos rfl]
        cases called : libraryCall B name values with
        | none => rfl
        | some outcome =>
          obtain ⟨args, handed, called⟩ := Option.bind_eq_some_iff.mp called
          obtain ⟨decided, decides, -⟩ := Option.bind_eq_some_iff.mp called
          obtain ⟨function, listed, rfl, kinds⟩ := Library.method_listed decides
          have shape : shapeOf function = ⟨function.name, true, values.map CelValue.type⟩ := by
            rw [shapeOf, kinds, types_of_args handed]
          exact absurd (decide_eq_true shape) (List.find?_eq_none.mp found function listed)
    rw [missing]
    rfl

end Registered

/-- A runtime whose pools know nothing, with one function of its own. -/
def sampleRuntime : Celrt where
  Other := Unit
  functions := .ofList (utf8 "already registered")
  Pool := Unit
  FileProto := Empty
  Descriptor := Empty
  FieldDescriptor := Empty
  Message := Empty
  Parsed := String
  Expression := String
  standardPool := .ok ()
  newBuilder _ := .ok [(⟨"contains", true, [.string, .string]⟩, fun _ => .bool true)]
  parseFile _ := none
  fileName := Empty.elim
  hasFile _ := fun _ => false
  buildFile _ := Empty.elim
  findMessageType _ _ := none
  fullName := Empty.elim
  parseMessage _ := Empty.elim
  descriptor := Empty.elim
  findFieldByNumber := Empty.elim
  findKnownExtension := Empty.elim
  isMap := Empty.elim
  isRepeated := Empty.elim
  createMap := Empty.elim
  createList := Empty.elim
  createSingle := Empty.elim
  createMessage := Empty.elim
  parse text := if text.isEmpty then .error (utf8 "empty expression") else .ok text
  createExpression _ _ parsed := .ok parsed
  evaluate text _ := .ok (.bool (text == "true"))
  now := .null

def sampleEngine : CelEngine sampleRuntime :=
  ⟨(), [(⟨"contains", true, [.string, .string]⟩, fun _ => .bool true)]⟩

/-- The functions of the library are found beside the one that was there. -/
theorem newEnv_calls_sample : ∃ engine, newEnv sampleRuntime Backend.bare = .ok engine ∧
    (sampleRuntime.functions.find engine.builder ⟨"unique", true, [.list]⟩).map
      (fun call => call [.list [.int64 1, .int64 1]]) = some (.bool false) ∧
    (sampleRuntime.functions.find engine.builder ⟨"contains", true, [.string, .string]⟩).map
      (fun call => call [.string [], .string []]) = some (.bool true) := by
  have absent : ∀ function ∈ FUNCTIONS Backend.bare,
      sampleRuntime.functions.find sampleEngine.builder (shapeOf function) = none := by
    intro function listed
    simp only [FUNCTIONS, List.mem_cons, List.not_mem_nil, or_false] at listed
    rcases listed with rfl | rfl | rfl | rfl | rfl | rfl | rfl | rfl | rfl | rfl | rfl | rfl |
      rfl | rfl | rfl | rfl | rfl | rfl <;> rfl
  obtain ⟨engine, made, -, calls⟩ := newEnv_calls (B := Backend.bare)
    (show celEngineNew sampleRuntime = .ok sampleEngine from rfl) absent
  refine ⟨engine, made, (calls "unique" true [.list [.int64 1, .int64 1]]).trans rfl,
    (calls "contains" true [.string [], .string []]).trans rfl⟩

end Shim

def sampleBuilder : Builder ⟨Empty, Unit⟩ where
  descriptors :=
    ⟨⟨[], [], [], fun _ member => absurd member List.not_mem_nil⟩,
      ⟨0, {}, {}, {}, {}, {}, {}, {}, {}⟩⟩
  env := Shim.env Backend.bare Shim.sampleEngine
  backend := Backend.bare
  reflection := ⟨fun _ _ => false, fun _ _ => [], fun _ => []⟩
  types _ := none

def sampleExpressions : CelExpressions where
  rules := [⟨"first", "", "true", 0, []⟩, ⟨"second", "", "false", 0, []⟩]
  bound := none

/-- Of two rules the second fails. -/
theorem compile_each_sample : ∃ programs,
    Builds (sampleBuilder.compile sampleExpressions) (some programs) ∧
    ((programs.run (R := ⟨Empty, Unit⟩) (.scalar (.bool true)) : WalkM Empty Unit)
      (Violations.new false)).2.list.map Violation.message = [some "\"false\" returned false"] := by
  rcases compile_each Backend.bare Shim.sampleEngine sampleBuilder rfl sampleExpressions
      (by simp [sampleExpressions]) with
    ⟨programs, built, -, runs⟩ | ⟨before, rule, after, error, split, -, alone, -⟩
  · refine ⟨programs, built, ?_⟩
    rw [runs]
    decide +kernel
  · have member : rule ∈ sampleExpressions.rules := split ▸ List.mem_append_cons_self
    simp only [sampleExpressions, List.mem_cons, List.not_mem_nil, or_false] at member
    rcases member with rfl | rfl <;> cases alone

end Protovalidate
