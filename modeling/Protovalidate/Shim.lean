import Protovalidate.Build
import Protovalidate.Library
import Protovalidate.Lib.Overloads
import Protovalidate.Lib.Wire

/-!
# The CEL backend

The engine, its programs and frames, and the marshalling of values across the
boundary to the CEL runtime. What the runtime and Protobuf do behind the boundary
belongs to `Celrt`. Expressions are compiled together, and each is as it would be
alone.
-/

namespace Protovalidate

namespace Shim

open Wire (utf8)

/-! ### What crosses the boundary -/

def CEL_ERR_COMPILATION : Int := 1
def CEL_ERR_RUNTIME : Int := 2
def CEL_ERR_ARGUMENT : Int := 3

def CEL_VALUE_OTHER : Int := 0
def CEL_VALUE_BOOL : Int := 1
def CEL_VALUE_INT : Int := 2
def CEL_VALUE_UINT : Int := 3
def CEL_VALUE_DOUBLE : Int := 4
def CEL_VALUE_STRING : Int := 5
def CEL_VALUE_BYTES : Int := 6
def CEL_VALUE_LIST : Int := 7

/-- A value of an expression, as far as the shim tells one from another. -/
inductive CelValue (O : Type)
  | bool (b : Bool)
  | int64 (i : Int)
  | uint64 (u : Nat)
  | double (d : Double)
  | string (text : Bytes)
  | bytes (text : Bytes)
  | list (elements : List (CelValue O))
  | null
  | error (message : Bytes)
  /-- A message, a map, a time, a type. -/
  | other (value : O)

inductive CelType
  | bool | int64 | uint64 | double | string | bytes | list | null | error | other
  deriving DecidableEq, Repr

section Values
variable {O : Type}

def CelValue.type : CelValue O → CelType
  | .bool _ => .bool
  | .int64 _ => .int64
  | .uint64 _ => .uint64
  | .double _ => .double
  | .string _ => .string
  | .bytes _ => .bytes
  | .list _ => .list
  | .null => .null
  | .error _ => .error
  | .other _ => .other

/-- A `cel_value`. The data is a pointer with a length, and `none` is null. -/
structure FfiValue (O : Type) where
  kind : Int := CEL_VALUE_OTHER
  boolValue : Int := 0
  intValue : Int := 0
  uintValue : Nat := 0
  doubleValue : Double := ⟨0⟩
  data : Option Bytes := none
  list : Option (List (CelValue O)) := none

def toFfi : ScalarValue → FfiValue O
  | .bool b => { kind := CEL_VALUE_BOOL, boolValue := b.toInt }
  | .int i => { kind := CEL_VALUE_INT, intValue := i }
  | .uint u => { kind := CEL_VALUE_UINT, uintValue := u }
  | .double d => { kind := CEL_VALUE_DOUBLE, doubleValue := d }
  | .string s => { kind := CEL_VALUE_STRING, data := some (utf8 s) }
  | .bytes b => { kind := CEL_VALUE_BYTES, data := some b }

def scalarToCelValue (value : FfiValue O) : CelValue O :=
  let text := value.data.getD []
  if value.kind = CEL_VALUE_BOOL then .bool (value.boolValue != 0)
  else if value.kind = CEL_VALUE_INT then .int64 value.intValue
  else if value.kind = CEL_VALUE_UINT then .uint64 value.uintValue
  else if value.kind = CEL_VALUE_DOUBLE then .double value.doubleValue
  else if value.kind = CEL_VALUE_STRING then .string text
  else if value.kind = CEL_VALUE_BYTES then .bytes text
  else .null

/-- The `cel_value` form of a value, `CEL_VALUE_OTHER` for a kind that has none. -/
def toValue : CelValue O → FfiValue O
  | .bool b => { kind := CEL_VALUE_BOOL, boolValue := b.toInt }
  | .int64 i => { kind := CEL_VALUE_INT, intValue := i }
  | .uint64 u => { kind := CEL_VALUE_UINT, uintValue := u }
  | .double d => { kind := CEL_VALUE_DOUBLE, doubleValue := d }
  | .string text => { kind := CEL_VALUE_STRING, data := some text }
  | .bytes text => { kind := CEL_VALUE_BYTES, data := some text }
  | .list elements => { kind := CEL_VALUE_LIST, list := some elements }
  | _ => {}

def kindCode : Library.Kind → Int
  | .bool => CEL_VALUE_BOOL
  | .int => CEL_VALUE_INT
  | .uint => CEL_VALUE_UINT
  | .double => CEL_VALUE_DOUBLE
  | .string => CEL_VALUE_STRING
  | .bytes => CEL_VALUE_BYTES
  | .list => CEL_VALUE_LIST

def typeOfKind (kind : Int) : CelType :=
  if kind = CEL_VALUE_BOOL then .bool
  else if kind = CEL_VALUE_INT then .int64
  else if kind = CEL_VALUE_UINT then .uint64
  else if kind = CEL_VALUE_DOUBLE then .double
  else if kind = CEL_VALUE_STRING then .string
  else if kind = CEL_VALUE_BYTES then .bytes
  else .list

variable (B : Backend)

/-- Text of the runtime, which is UTF-8 unless it is an error's. -/
def fromUtf8Lossy (b : Bytes) : String := (fromUtf8 b).getD (B.lossyText b)

/-- A list element, read through the shim. -/
def element (value : CelValue O) : Element :=
  let value := toValue value
  let bytes := value.data.getD []
  if value.kind = CEL_VALUE_BOOL then .bool (value.boolValue != 0)
  else if value.kind = CEL_VALUE_INT then .int value.intValue
  else if value.kind = CEL_VALUE_UINT then .uint value.uintValue
  else if value.kind = CEL_VALUE_DOUBLE then .double value.doubleValue
  else if value.kind = CEL_VALUE_STRING then .string (fromUtf8Lossy B bytes)
  else if value.kind = CEL_VALUE_BYTES then .bytes bytes
  else .other

/-- An argument of a registered function, as the shim hands it over. -/
def argument (value : FfiValue O) : Except String Library.Arg :=
  let bytes := value.data.getD []
  if value.kind = CEL_VALUE_BOOL then .ok (.bool (value.boolValue != 0))
  else if value.kind = CEL_VALUE_INT then .ok (.int value.intValue)
  else if value.kind = CEL_VALUE_UINT then .ok (.uint value.uintValue)
  else if value.kind = CEL_VALUE_DOUBLE then .ok (.double value.doubleValue)
  else if value.kind = CEL_VALUE_STRING then .ok (.string (fromUtf8Lossy B bytes))
  else if value.kind = CEL_VALUE_BYTES then .ok (.bytes bytes)
  else if value.kind = CEL_VALUE_LIST then .ok (.list ((value.list.getD []).map (element B)))
  else .error ("unsupported argument kind " ++ toString value.kind)

/-- A registered function may panic, with a message. -/
abbrev NativeFn := List Library.Arg → Except String (Except String Bool)

/-- What a text is where it is read as a C string. -/
def cString (text : Bytes) : Bytes := text.takeWhile (· != 0)

/-- The shim's entry into a registered function. A panic is reported as the call
failing. -/
def callFunction (function : NativeFn) (values : List (FfiValue O)) : Except Bytes Bool :=
  let called : Except String (Except String Bool) := do
    match values.mapM (argument B) with
    | .error error => return .error error
    | .ok arguments => function arguments
  match called with
  | .ok (.ok value) => .ok value
  | .ok (.error message) => .error (utf8 message)
  | .error panic => .error (utf8 ("function panicked: " ++ panic))

/-- A predicate implemented by the caller, as a function of the runtime. -/
def nativeFunction (function : NativeFn) (arguments : List (CelValue O)) : CelValue O :=
  match callFunction B function (arguments.map toValue) with
  | .error message => .error (cString message)
  | .ok out => .bool out

end Values

/-! ### The runtime -/

/-- What the variables of an expression are bound to. -/
abbrev Activation (O : Type) := List (String × CelValue O)

/-- The CEL runtime, and the parts of Protobuf's that the shim uses. Its functions
depend on nothing but their arguments. -/
structure Celrt where
  Other : Type
  /-- The functions that expressions can call. -/
  functions : Overloads.Table CelType (CelValue Other) Bytes
  Pool : Type
  FileProto : Type
  Descriptor : Type
  FieldDescriptor : Type
  Message : Type
  Parsed : Type
  Expression : Type
  /-- A pool with the well-known types. -/
  standardPool : Except Bytes Pool
  /-- CEL's own functions, with `getField`. -/
  newBuilder : Pool → Except Bytes functions.Registry
  parseFile : Bytes → Option FileProto
  fileName : FileProto → String
  hasFile : Pool → String → Bool
  /-- Adds a file whose imports are there, or tells what is wrong. -/
  buildFile : Pool → FileProto → Except Bytes Pool
  findMessageType : Pool → String → Option Descriptor
  fullName : Descriptor → String
  parseMessage : Pool → Descriptor → Bytes → Option Message
  descriptor : Message → Descriptor
  findFieldByNumber : Descriptor → Int → Option FieldDescriptor
  findKnownExtension : Message → Int → Option FieldDescriptor
  isMap : FieldDescriptor → Bool
  isRepeated : FieldDescriptor → Bool
  createMap : Message → FieldDescriptor → Other
  createList : Message → FieldDescriptor → List (CelValue Other)
  createSingle : Message → FieldDescriptor → Option (CelValue Other)
  createMessage : Message → CelValue Other
  parse : String → Except Bytes Parsed
  createExpression : Pool → functions.Registry → Parsed → Except Bytes Expression
  evaluate : Expression → Activation Other → Except Bytes (CelValue Other)
  /-- The system clock, as a timestamp. -/
  now : CelValue Other

variable (rt : Celrt)

/-- A failed call of the shim: its status, and the message it stores. -/
structure Failed where
  code : Int
  message : Bytes
  deriving DecidableEq, Repr

structure CelEngine where
  pool : rt.Pool
  builder : rt.functions.Registry

/-- An expression, and what `rule` is bound to while it runs. -/
structure CompiledRule where
  expression : rt.Expression
  rule : Option (CelValue rt.Other)

structure CelProgram where
  rules : CelValue rt.Other
  exprs : List (CompiledRule rt)

variable {rt}

/-- Resolves a field of a message by number, extensions included. -/
def findField (message : rt.Message) (number : Int) : Option rt.FieldDescriptor :=
  (rt.findFieldByNumber (rt.descriptor message) number).or (rt.findKnownExtension message number)

/-- The value of one field of a message: a list, a map, or the wrapped singular
value. -/
def fieldToCelValue (message : rt.Message) (field : rt.FieldDescriptor) : CelValue rt.Other :=
  if rt.isMap field then .other (rt.createMap message field)
  else if rt.isRepeated field then .list (rt.createList message field)
  else (rt.createSingle message field).getD .null

def parseMessage (engine : CelEngine rt) (descriptor : rt.Descriptor) (payload : Bytes) :
    Except Failed rt.Message :=
  match rt.parseMessage engine.pool descriptor payload with
  | some message => .ok message
  | none => .error ⟨CEL_ERR_ARGUMENT,
      utf8 ("could not parse payload as " ++ rt.fullName descriptor)⟩

variable (rt) in
def celEngineNew : Except Bytes (CelEngine rt) := do
  let pool ← rt.standardPool
  return ⟨pool, ← rt.newBuilder pool⟩

/-- Registers a function as a method or not, on arguments of the given kinds. -/
def celEngineRegister (B : Backend) (engine : CelEngine rt) (name : String) (receiver : Bool)
    (kinds : List Int) (function : NativeFn) : Except Failed (CelEngine rt) :=
  match rt.functions.register engine.builder ⟨name, receiver, kinds.map typeOfKind⟩
      (nativeFunction B function) with
  | .ok builder => .ok { engine with builder := builder }
  | .error message => .error ⟨CEL_ERR_ARGUMENT, message⟩

/-- Adds a file to the pool, unless one of its name is there. -/
def celEngineAddFile (engine : CelEngine rt) (bytes : Bytes) : Except Failed (CelEngine rt) :=
  match rt.parseFile bytes with
  | none => .error ⟨CEL_ERR_ARGUMENT, utf8 "could not parse FileDescriptorProto"⟩
  | some proto =>
    if rt.hasFile engine.pool (rt.fileName proto) then .ok engine
    else
      match rt.buildFile engine.pool proto with
      | .ok pool => .ok { engine with pool := pool }
      | .error text =>
        let message := utf8 ("could not add " ++ rt.fileName proto ++ " to descriptor pool")
        .error ⟨CEL_ERR_ARGUMENT, if text.isEmpty then message else message ++ utf8 ": " ++ text⟩

/-- The rules message that expressions share, if any. -/
def rulesMessage (engine : CelEngine rt) (typeName : String) (rules : Bytes) :
    Except Failed (Option rt.Message) :=
  if typeName.isEmpty then .ok none
  else
    match rt.findMessageType engine.pool typeName with
    | none => .error ⟨CEL_ERR_ARGUMENT, utf8 ("unknown rules type: " ++ typeName)⟩
    | some descriptor => (parseMessage engine descriptor rules).map some

/-- One expression of a program. -/
def compileRule (engine : CelEngine rt) (rules : Option rt.Message) (rule : Cel.Expression) :
    Except Failed (CompiledRule rt) :=
  match rt.parse rule.expression with
  | .error message => .error ⟨CEL_ERR_COMPILATION, message⟩
  | .ok parsed =>
    match rt.createExpression engine.pool engine.builder parsed with
    | .error message => .error ⟨CEL_ERR_COMPILATION, message⟩
    | .ok expression =>
      match rules with
      | none => .ok ⟨expression, none⟩
      | some message =>
        if rule.ruleFieldNumber = 0 then .ok ⟨expression, none⟩
        else
          match findField message rule.ruleFieldNumber with
          | some field => .ok ⟨expression, some (fieldToCelValue message field)⟩
          | none => .error ⟨CEL_ERR_ARGUMENT, utf8 ("no rule field " ++
              toString rule.ruleFieldNumber ++ " in " ++ rt.fullName (rt.descriptor message))⟩

def celProgramNew (engine : CelEngine rt) (typeName : String) (rules : Bytes)
    (exprs : List Cel.Expression) : Except Failed (CelProgram rt) := do
  let rules ← rulesMessage engine typeName rules
  return ⟨(rules.map rt.createMessage).getD .null, ← exprs.mapM (compileRule engine rules)⟩

/-- A list is mapped up to the first item that fails. -/
theorem mapM_ends {α β ε : Type} (f : α → Except ε β) (items : List α) :
    (∃ made, items.mapM f = .ok made ∧ List.Forall₂ (fun item b => f item = .ok b) items made) ∨
    ∃ before item after error, items = before ++ item :: after ∧
      (∀ earlier ∈ before, ∃ b, f earlier = .ok b) ∧ f item = .error error ∧
      items.mapM f = .error error := by
  induction items with
  | nil => exact .inl ⟨[], rfl, .nil⟩
  | cons first items ih =>
    rw [List.mapM_cons]
    cases here : f first with
    | error error =>
      exact .inr ⟨[], first, items, error, rfl, by simp, here, rfl⟩
    | ok b =>
      rcases ih with
        ⟨made, all, related⟩ | ⟨before, item, after, error, split, earlier, failed, all⟩
      · exact .inl ⟨b :: made, by rw [all]; rfl, .cons here related⟩
      · refine .inr ⟨first :: before, item, after, error, by rw [split]; rfl, ?_, failed, ?_⟩
        · rintro other member
          rcases List.mem_cons.mp member with rfl | member
          · exact ⟨b, here⟩
          · exact earlier other member
        · rw [all]
          rfl

theorem celProgramNew_length {engine : CelEngine rt} {typeName : String} {rules : Bytes}
    {exprs : List Cel.Expression} {program : CelProgram rt}
    (done : celProgramNew engine typeName rules exprs = .ok program) :
    program.exprs.length = exprs.length := by
  unfold celProgramNew at done
  cases shared : rulesMessage engine typeName rules with
  | error failed => simp [shared, bind, Except.bind] at done
  | ok message =>
    rcases mapM_ends (compileRule engine message) exprs with
      ⟨made, all, related⟩ | ⟨_, _, _, failed, _, _, _, all⟩
    · simp only [shared, all, bind, Except.bind, pure, Except.pure, Except.ok.injEq] at done
      rw [← done]
      exact related.length_eq.symm
    · simp [shared, all, bind, Except.bind] at done

def celFrameNew (engine : CelEngine rt) (typeName : String) (payload : Bytes) :
    Except Failed rt.Message :=
  match rt.findMessageType engine.pool typeName with
  | none => .error ⟨CEL_ERR_ARGUMENT, utf8 ("unknown message type: " ++ typeName)⟩
  | some descriptor => parseMessage engine descriptor payload

/-- What `this` is bound to while a program runs. -/
inductive ThisValue (rt : Celrt)
  | scalar (value : FfiValue rt.Other)
  | message (frame : rt.Message)
  | field (frame : rt.Message) (number : Int)

/-- The value of `this`. -/
def thisValue : ThisValue rt → Except Failed (CelValue rt.Other)
  | .scalar value => .ok (scalarToCelValue value)
  | .message frame => .ok (rt.createMessage frame)
  | .field frame number =>
    match findField frame number with
    | some field => .ok (fieldToCelValue frame field)
    | none => .error ⟨CEL_ERR_ARGUMENT, utf8 ("no field " ++ toString number ++ " in " ++
        rt.fullName (rt.descriptor frame))⟩

/-- Evaluates an expression of a program, given that it has one at the index. -/
def celProgramEval (rules : CelValue rt.Other) (rule : CompiledRule rt) (this : ThisValue rt) :
    Except Failed (FfiValue rt.Other) := do
  let this ← thisValue this
  let activation := [("this", this), ("rules", rules), ("now", rt.now)] ++
    (rule.rule.map fun value => ("rule", value)).toList
  match rt.evaluate rule.expression activation with
  | .error message => throw ⟨CEL_ERR_RUNTIME, message⟩
  | .ok (.error message) => throw ⟨CEL_ERR_RUNTIME, message⟩
  | .ok result =>
    let out := toValue result
    return if out.kind = CEL_VALUE_STRING ∨ out.kind = CEL_VALUE_BOOL then out
      else { out with kind := CEL_VALUE_OTHER }

/-! ### The safe interface -/

section Safe
variable (B : Backend)

/-- The text of an error that the shim allocated as a C string. -/
def takeError (message : Bytes) : String := fromUtf8Lossy B (cString message)

/-- What a status stands for. -/
def failure : Failed → Cel.Error
  | ⟨code, message⟩ =>
    if code = CEL_ERR_COMPILATION then .compilation (takeError B message)
    else if code = CEL_ERR_RUNTIME then .runtime (takeError B message)
    else if code = CEL_ERR_ARGUMENT then .argument (takeError B message)
    else .unexpected ("unknown status " ++ toString code ++ ": " ++ takeError B message)

def finish {α : Type} (outcome : Except Failed α) : Except Cel.Error α :=
  outcome.mapError (failure B)

/-- The shim takes lengths as 32-bit integers. -/
def checkLen (what : String) (bytes : Bytes) : Except Cel.Error Unit :=
  if bytes.length < 2 ^ 31 then .ok () else .error (.argument (what ++ " is too large"))

variable (rt) in
def engineNew : Except Cel.Error (CelEngine rt) :=
  match celEngineNew rt with
  | .ok engine => .ok engine
  | .error error => .error (.unexpected (takeError B error))

/-- Makes a function callable from expressions. -/
def register (engine : CelEngine rt) (name : String) (receiver : Bool) (args : List Library.Kind)
    (function : NativeFn) : Except Cel.Error (CelEngine rt) :=
  finish B (celEngineRegister B engine name receiver (args.map kindCode) function)

def addFile (engine : CelEngine rt) (bytes : Bytes) : Except Cel.Error (CelEngine rt) := do
  checkLen "FileDescriptorProto" bytes
  finish B (celEngineAddFile engine bytes)

variable (rt) in
/-- A CEL environment knowing protovalidate's functions. -/
def newEnv : Except Cel.Error (CelEngine rt) := do
  (Library.FUNCTIONS B).foldlM
    (fun env function => register B env function.name true function.args
      fun args => .ok (function.call args))
    (← engineNew rt B)

/-- A set of compiled expressions, which `eval` indexes. -/
structure Program (rt : Celrt) where
  raw : CelProgram rt
  len : Nat
  indexed : raw.exprs.length = len

/-- Compiles expressions sharing one rules message. -/
def compile (engine : CelEngine rt) (rules : Option (String × Bytes))
    (expressions : List Cel.Expression) : Except Cel.Error (Program rt) := do
  let (typeName, bytes) := rules.getD ("", [])
  checkLen "rules message" bytes
  match done : celProgramNew engine typeName bytes expressions with
  | .ok out => return ⟨out, expressions.length, celProgramNew_length done⟩
  | .error failed => finish B (.error failed)

def frame (engine : CelEngine rt) (typeName : String) (payload : Bytes) :
    Except Cel.Error rt.Message := do
  checkLen "payload" payload
  finish B (celFrameNew engine typeName payload)

/-- What an expression produces against `this`. -/
def evalRule (rules : CelValue rt.Other) (rule : CompiledRule rt) (this : ThisValue rt) :
    Except Cel.Error Value := do
  let out ← finish B (celProgramEval rules rule this)
  return if out.kind = CEL_VALUE_BOOL then .bool (out.boolValue != 0)
    else if out.kind = CEL_VALUE_STRING then .string (fromUtf8Lossy B (out.data.getD []))
    else .other

def Program.eval (self : Program rt) (index : Nat) (this : ThisValue rt) :
    Except Cel.Error Value :=
  if inside : index < self.len then
    evalRule B self.raw.rules (self.raw.exprs.get ⟨index, self.indexed ▸ inside⟩) this
  else .error (.argument ("no expression " ++ toString index ++ " in a program of " ++
    toString self.len))

/-- `this` as the engine holds it: a frame is what its payload was parsed as. -/
def toThis (engine : CelEngine rt) : This → Except Cel.Error (ThisValue rt)
  | .scalar scalar => .ok (.scalar (toFfi scalar))
  | .message held => do return .message (← frame B engine held.typeName held.payload)
  | .field held number => do return .field (← frame B engine held.typeName held.payload) number

/-- The environment that the validator compiles its rules with. -/
def env (engine : CelEngine rt) : Cel.Env where
  compile rules expressions := do
    let program ← compile B engine rules expressions
    return ⟨fun index this => do program.eval B index (← toThis B engine this)⟩
  frame typeName payload := do
    let _ ← frame B engine typeName payload
    return ⟨typeName, payload⟩

end Safe

/-! ### Expressions compiled together -/

section Together
variable {B : Backend} {engine : CelEngine rt} {bound : Option (String × Bytes)}

section Bound
variable {expressions : List Cel.Expression}
  (checked : checkLen "rules message" (bound.getD ("", [])).2 = .ok ())
include checked

theorem compile_made {out : CelProgram rt}
    (done : celProgramNew engine (bound.getD ("", [])).1 (bound.getD ("", [])).2 expressions =
      .ok out) :
    ∃ program, compile B engine bound expressions = .ok program ∧ program.raw = out := by
  simp only [compile, checked, bind, Except.bind]
  split
  · rename_i made same
    exact ⟨_, rfl, Except.ok.inj (same.symm.trans done)⟩
  · rename_i failed same
    cases same.symm.trans done

theorem compile_failed {failed : Failed}
    (ended : celProgramNew engine (bound.getD ("", [])).1 (bound.getD ("", [])).2 expressions =
      .error failed) :
    compile B engine bound expressions = .error (failure B failed) := by
  simp only [compile, checked, bind, Except.bind]
  split
  · rename_i made same
    cases same.symm.trans ended
  · rename_i failed' same
    rw [Except.error.inj (same.symm.trans ended)]
    rfl

end Bound

/-- The rules message that expressions share fails all of them, or is the same for
each. -/
theorem compile_shared (B : Backend) (engine : CelEngine rt) (bound : Option (String × Bytes)) :
    (∃ error, ∀ expressions, compile B engine bound expressions = .error error) ∨
    ∃ rules message, ∀ expressions,
      (∀ made, expressions.mapM (compileRule engine message) = .ok made →
        ∃ program, compile B engine bound expressions = .ok program ∧ program.raw = ⟨rules, made⟩) ∧
      ∀ failed, expressions.mapM (compileRule engine message) = .error failed →
        compile B engine bound expressions = .error (failure B failed) := by
  by_cases short : (bound.getD ("", [])).2.length < 2 ^ 31
  · have checked : checkLen "rules message" (bound.getD ("", [])).2 = .ok () := if_pos short
    cases shared : rulesMessage engine (bound.getD ("", [])).1 (bound.getD ("", [])).2 with
    | error failed =>
      refine .inl ⟨failure B failed, fun expressions => compile_failed checked ?_⟩
      rw [celProgramNew, shared]
      rfl
    | ok message =>
      refine .inr ⟨(message.map rt.createMessage).getD .null, message, fun expressions => ⟨?_, ?_⟩⟩
      · intro made all
        refine compile_made checked ?_
        simp only [celProgramNew, shared, all, bind, Except.bind]
        rfl
      · intro failed all
        refine compile_failed checked ?_
        simp only [celProgramNew, shared, all, bind, Except.bind]
  · refine .inl ⟨.argument "rules message is too large", fun expressions => ?_⟩
    have checked : checkLen "rules message" (bound.getD ("", [])).2 =
        .error (.argument "rules message is too large") := if_neg short
    simp only [compile, checked, bind, Except.bind]

theorem Program.eval_at {program : Program rt} {rules : CelValue rt.Other}
    {made : List (CompiledRule rt)} (raw : program.raw = ⟨rules, made⟩) {index : Nat}
    {rule : CompiledRule rt} (here : made[index]? = some rule) (this : ThisValue rt) :
    program.eval B index this = evalRule B rules rule this := by
  obtain ⟨_, len, indexed⟩ := program
  obtain rfl := raw
  obtain ⟨inside, rfl⟩ := List.getElem?_eq_some_iff.mp here
  rw [Program.eval, dif_pos (indexed ▸ inside)]
  rfl

end Together

end Shim

/-- What an expression produces that is compiled alone. -/
def Cel.Env.alone (env : Cel.Env) (bound : Option (String × Bytes)) (expression : Cel.Expression)
    (this : This) : Except Cel.Error Value := do
  (← env.compile bound [expression]).eval 0 this

namespace Shim

section Together
variable (B : Backend) {rt : Celrt} (engine : CelEngine rt) (bound : Option (String × Bytes))

/-- An expression of a program is what it is alone, and a program that does not compile
has a first expression that does not compile alone. -/
theorem env_together (expressions : List Cel.Expression) :
    (∃ program, (env B engine).compile bound expressions = .ok program ∧
      ∀ index expression, expressions[index]? = some expression →
        (∃ single, (env B engine).compile bound [expression] = .ok single) ∧
        ∀ this, program.eval index this = (env B engine).alone bound expression this) ∨
    ∃ error, (env B engine).compile bound expressions = .error error ∧
      (expressions = [] ∨ ∃ before expression after,
        expressions = before ++ expression :: after ∧
        (∀ earlier ∈ before, ∃ single, (env B engine).compile bound [earlier] = .ok single) ∧
        (env B engine).compile bound [expression] = .error error) := by
  have made : ∀ {expressions program}, compile B engine bound expressions = .ok program →
      (env B engine).compile bound expressions = .ok ⟨fun index this => do
        program.eval B index (← toThis B engine this)⟩ := by
    intro expressions program done
    simp only [env, done, bind, Except.bind]
    rfl
  have failed : ∀ {expressions error}, compile B engine bound expressions = .error error →
      (env B engine).compile bound expressions = .error error := by
    intro expressions error ended
    simp only [env, ended, bind, Except.bind]
  rcases compile_shared B engine bound with ⟨error, all⟩ | ⟨rules, message, each⟩
  · refine .inr ⟨error, failed (all expressions), ?_⟩
    cases expressions with
    | nil => exact .inl rfl
    | cons first rest => exact .inr ⟨[], first, rest, rfl, by simp, failed (all [first])⟩
  have single : ∀ {expression rule}, compileRule engine message expression = .ok rule →
      ∃ program, compile B engine bound [expression] = .ok program ∧
        program.raw = ⟨rules, [rule]⟩ := by
    intro expression rule done
    refine (each [expression]).1 [rule] ?_
    rw [List.mapM_cons, done]
    rfl
  rcases mapM_ends (compileRule engine message) expressions with
    ⟨compiled, all, related⟩ | ⟨before, expression, after, error, split, earlier, ended, all⟩
  · obtain ⟨program, done, raw⟩ := (each expressions).1 compiled all
    refine .inl ⟨_, made done, fun index expression here => ?_⟩
    obtain ⟨inside, rfl⟩ := List.getElem?_eq_some_iff.mp here
    have inside' : index < compiled.length := related.length_eq ▸ inside
    have own : compileRule engine message expressions[index] = .ok compiled[index] :=
      (List.forall₂_iff_get.mp related).2 index inside inside'
    obtain ⟨lone, alone, raw'⟩ := single own
    refine ⟨⟨_, made alone⟩, fun this => ?_⟩
    simp only [Cel.Env.alone, made alone, bind, Except.bind]
    cases toThis B engine this with
    | error error => rfl
    | ok bound =>
      exact (Program.eval_at raw (List.getElem?_eq_getElem inside') bound).trans
        (Program.eval_at raw' rfl bound).symm
  · refine .inr ⟨_, failed ((each expressions).2 error all), .inr ⟨before, expression, after, split,
      fun other member => ?_, failed ((each [expression]).2 error ?_)⟩⟩
    · obtain ⟨rule, done⟩ := earlier other member
      obtain ⟨program, alone, -⟩ := single done
      exact ⟨_, made alone⟩
    · rw [List.mapM_cons, ended]
      rfl

end Together

end Shim

end Protovalidate
