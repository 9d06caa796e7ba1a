import Protovalidate.Lib.Recording
import Protovalidate.Rules

/-!
# Walking a message with its validators

The validators drive a walk, each reading its part of the message. A violation
records the field path the walk is at and the rule path compiled into the
check. What does not touch subscripts is written over any `Recorder`; `WalkM`
records into the mutable path and violation list.
-/

namespace Protovalidate

open Recording

/-- Why a validation failed; `ε` is the runtime's own error. -/
inductive Error (ε : Type)
  | validation (violations : List Violation)
  | read (e : ε)
  | compilation (message : String)
  | evaluation (message : String)
  | argument (message : String)
  | unexpected (message : String)

/-- What a failed rule reports, before it is placed at a field path. -/
structure Failure where
  id : String
  message : String
  rulePath : List FieldPathElement
  deriving DecidableEq, Repr

/-- What one validation reads besides the message. -/
structure Walk (R : Runtime) where
  pool : DescriptorPool
  schema : Schema
  env : Cel.Env
  backend : Backend
  validators : ValidatorCache R

/-- How the CEL backend's errors map to the validator's. -/
def Error.ofCel {ε : Type} : Cel.Error → Error ε
  | .runtime message => .evaluation message
  | .argument message => .argument message
  | .compilation message => .unexpected message
  | .unexpected message => .unexpected message

/-- A message as CEL sees it, parsed when a rule first needs it. -/
structure CelFrame (R : Runtime) where
  typeName : String
  message : Message R

/-- Where a value's CEL rules get `this` from. -/
inductive CelBind (R : Runtime)
  | field (frame : CelFrame R) (field : Field R)
  | item (kind : Singular)

section Reads
variable {R : Runtime}

/-- The result of a read, as the walk's. -/
def readResult {α : Type} (r : Except R.Error α) : Except (Error R.Error) α :=
  r.mapError .read

/-- The parsed message. Parsing depends on nothing but the message, so that it
happens at most once does not show here. -/
def CelFrame.parsed (walk : Walk R) (frame : CelFrame R) : Except (Error R.Error) Frame := do
  let bytes ← readResult frame.message.encode
  (walk.env.frame frame.typeName bytes).mapError .ofCel

/-- The validator of a message type reachable from the root, or why its rules
did not compile. -/
def Walk.validator (walk : Walk R) (index : MessageIndex) :
    Except (Error R.Error) (MessageValidator R) :=
  match walk.validators index with
  | some (.ok validator) => .ok validator
  | some (.error error) => .error (.compilation error)
  | none => .error (.unexpected
      ("rules not loaded for message: " ++ (walk.pool.message index).fullName))

/-- Whether a field that does not track presence is set. A negative zero
counts as set. -/
def isSet : Option (Val R) → Except R.Error Bool
  | none => .ok false
  | some (.bool b) => .ok b
  | some (.int i) => .ok (i != 0)
  | some (.uint u) => .ok (u != 0)
  | some (.double f) => .ok (f.bits != 0)
  | some (.enum e) => .ok (e != 0)
  | some (.string s) => .ok (s != "")
  | some (.bytes b) => .ok (!b.isEmpty)
  | some (.message _) => .ok true
  | some (.list list) => do return (← list.len) != 0
  | some (.map map) => do return (← map.len) != 0

/-- Whether a field is set. -/
def has (message : Message R) (field : Field R) : Except R.Error Bool :=
  if field.hasPresence then message.has field
  else do isSet (← message.get field)

/-- Whether an item is its type's zero value, for `IGNORE_IF_ZERO_VALUE`. -/
def isEmptyItem : Val R → Except R.Error Bool
  | .bool b => .ok !b
  | .int i => .ok (i == 0)
  | .uint u => .ok (u == 0)
  | .double f => .ok f.isZero
  | .enum e => .ok (e == 0)
  | .string s => .ok (s == "")
  | .bytes b => .ok b.isEmpty
  | .message message => do return (← message.encode).isEmpty
  | .list _ => .ok false
  | .map _ => .ok false

/-- The subscript for a map entry, which is its key. -/
def keySubscript : Atom → Option Subscript
  | .bool b => some (.boolKey b)
  | .int i => some (.intKey i)
  | .uint u => some (.uintKey u)
  | .string s => some (.stringKey s)
  | .double _ => none
  | .enum _ => none
  | .bytes _ => none

/-- The keys of a map, whose types are those that can be keys, each have their
subscript. -/
theorem keySubscript_eq_some {key : Atom} {subscript : Subscript} :
    keySubscript key = some subscript ↔
      (∃ b, key = .bool b ∧ subscript = .boolKey b) ∨
      (∃ i, key = .int i ∧ subscript = .intKey i) ∨
      (∃ u, key = .uint u ∧ subscript = .uintKey u) ∨
      (∃ s, key = .string s ∧ subscript = .stringKey s) := by
  cases key <;> simp [keySubscript, eq_comm]

/-- The zero of a scalar type, as CEL sees it. -/
def celZero : Scalar → ScalarValue
  | .bool => .bool false
  | .int32 | .int64 | .sint32 | .sint64 | .sfixed32 | .sfixed64 => .int 0
  | .uint32 | .uint64 | .fixed32 | .fixed64 => .uint 0
  | .float | .double => .double ⟨0⟩
  | .string => .string ""
  | .bytes => .bytes []

/-- The CEL scalar for a value of `kind`, or the type's zero when the message
does not have the field. `none` when the kind is a message. -/
def celScalar (value : Option (Val R)) (kind : Singular) : Option ScalarValue :=
  match value with
  | some (.bool b) => some (.bool b)
  | some (.int i) => some (.int i)
  | some (.uint u) => some (.uint u)
  | some (.double f) => some (.double f)
  | some (.enum e) => some (.int e)
  | some (.string s) => some (.string s)
  | some (.bytes b) => some (.bytes b)
  | _ =>
    match kind with
    | .scalar s => some (celZero s)
    | .enum => some (.int 0)
    | .message => none

/-- What `this` is bound to: a scalar directly, and a message, list or map
through the parsed frame it lives in. -/
def celThis (walk : Walk R) (value : Option (Val R)) (bind : CelBind R)
    (child : Option (CelFrame R)) : Except (Error R.Error) This :=
  let kind : Singular :=
    match bind with
    | .field _ field =>
      match field.kind with
      | .singular kind => kind
      | _ => .message
    | .item kind => kind
  match celScalar value kind with
  | some scalar => .ok (.scalar scalar)
  | none =>
    match bind, child with
    | .field frame field, _ => do
      return .field (← frame.parsed walk) (fieldNumber field.number)
    | .item _, some child => do return .message (← child.parsed walk)
    | .item _, none => .error (.unexpected "no message to bind this to")

/-- A value of a type its descriptor does not declare. -/
def mismatch (expected : String) (got : Val R) : Error R.Error :=
  let name : String :=
    match got with
    | .bool _ => "a bool"
    | .int _ => "an int"
    | .uint _ => "a uint"
    | .double _ => "a double"
    | .enum _ => "an enum"
    | .string _ => "a string"
    | .bytes _ => "bytes"
    | .message _ => "a message"
    | .list _ => "a list"
    | .map _ => "a map"
  .unexpected ("expected " ++ expected ++ ", the runtime read " ++ name)

def boolOf : Option (Val R) → Except (Error R.Error) Bool
  | none => .ok false
  | some (.bool b) => .ok b
  | some other => .error (mismatch "a bool" other)

def intOf : Option (Val R) → Except (Error R.Error) Int
  | none => .ok 0
  | some (.int i) => .ok i
  | some (.enum e) => .ok e
  | some other => .error (mismatch "an int" other)

def uintOf : Option (Val R) → Except (Error R.Error) Nat
  | none => .ok 0
  | some (.uint u) => .ok u
  | some other => .error (mismatch "a uint" other)

def doubleOf : Option (Val R) → Except (Error R.Error) Double
  | none => .ok ⟨0⟩
  | some (.double f) => .ok f
  | some other => .error (mismatch "a double" other)

def enumOf : Option (Val R) → Except (Error R.Error) Int
  | none => .ok 0
  | some (.enum e) => .ok e
  | some other => .error (mismatch "an enum" other)

def strOf : Option (Val R) → Except (Error R.Error) String
  | none => .ok ""
  | some (.string s) => .ok s
  | some other => .error (mismatch "a string" other)

def bytesOf : Option (Val R) → Except (Error R.Error) Bytes
  | none => .ok []
  | some (.bytes b) => .ok b
  | some other => .error (mismatch "bytes" other)

/-- An integer field of a well-known type, zero when it holds anything else. -/
def wellKnownInt (message : Message R) (field : Field R) : Except R.Error Int := do
  match ← message.get field with
  | some (.int i) => return i
  | _ => return 0

/-- The nanoseconds of a `Duration` or `Timestamp` message. -/
def nanosOf : Option (Val R) → Except (Error R.Error) Int
  | none => .ok 0
  | some (.message message) => readResult do
    let seconds ← wellKnownInt message (Wkt.seconds R)
    let nanos ← wellKnownInt message (Wkt.nanos R)
    return totalNanos seconds nanos
  | some other => .error (mismatch "a message" other)

/-- The strings of a list. -/
def stringItems (list : ListView R) : Except R.Error (List String) := do
  let len ← list.len
  (List.range len).foldlM (fun paths index => do
    match ← list.get index with
    | some (.string path) => return paths ++ [path]
    | _ => return paths) []

/-- The `paths` of a `FieldMask` message. -/
def pathsOf : Option (Val R) → Except (Error R.Error) (List String)
  | none => .ok []
  | some (.message message) => readResult do
    match ← message.get (Wkt.fieldMaskPaths R) with
    | some (.list list) => stringItems list
    | _ => return []
  | some other => .error (mismatch "a message" other)

/-- The type URL of an `Any` message. -/
def typeUrlOf : Option (Val R) → Except (Error R.Error) String
  | none => .ok ""
  | some (.message any) => readResult do
    match ← any.get (Wkt.anyTypeUrl R) with
    | some (.string url) => return url
    | _ => return ""
  | some other => .error (mismatch "an Any" other)

def uniqueKey : Val R → Option UniqueKey
  | .bool b => some (.bool b)
  | .int i => some (.int i)
  | .enum e => some (.int e)
  | .uint u => some (.uint u)
  | .double f => UniqueKey.ofDouble f
  | .string s => some (.str s)
  | .bytes b => some (.bytes b)
  | .message _ => none
  | .list _ => none
  | .map _ => none

/-- The elements a list has below an index. -/
def listItems (list : ListView R) (len : Nat) : Except R.Error (List (Val R)) :=
  (List.range len).foldlM (fun items index => do
    match ← list.get index with
    | some item => return items ++ [item]
    | none => return items) []

/-- The scalar a wrapper message holds. -/
def unboxed (wrapper : Field R) : Val R → Except (Error R.Error) (Option (Val R))
  | .message message => readResult (message.get wrapper)
  | other => .error (mismatch "a wrapper message" other)

/-- Whether a list has two elements that `unique()` considers equal. Wrapper
elements are compared by the scalar in their `wrapper` field. -/
def hasDuplicateItems (list : ListView R) (len : Nat) (wrapper : Option (Field R)) :
    Except (Error R.Error) Bool := do
  let items ← readResult (listItems list len)
  match wrapper with
  | none => return hasDuplicates (items.map uniqueKey)
  | some wrapper =>
    let unboxed ← items.mapM (unboxed wrapper)
    return hasDuplicates (unboxed.map (fun value => value.bind uniqueKey))

end Reads

section Recorders
variable {R : Runtime} {m : Type → Type}
variable [Recorder m Failure FieldPathElement (Error R.Error)]

/-- A result whose error ends the walk. -/
def orAbort {α : Type} : Except (Error R.Error) α → m α
  | .ok a => pure a
  | .error e => abort e

/-- A read of the message, whose error ends the walk. -/
def read {α : Type} (r : Except R.Error α) : m α := orAbort (readResult r)

/-- Records a violation at the current path. -/
def push (id message : String) (rulePath : List FieldPathElement) : m Unit :=
  record ⟨id, message, rulePath⟩

/-- Records a violation when `broken`. -/
def pushIf (broken : Bool) (id message : String) (rulePath : List FieldPathElement) : m Unit :=
  if broken then push id message rulePath else pure ()

/-- What a rule makes of the value its expression produced: the message of a
violation, `none` for a pass, or an error for any other type. -/
def CelRule.outcome (rule : CelRule) : Value → Except (Error R.Error) (Option String)
  | .bool true => .ok none
  | .bool false =>
    if rule.message == "" then .ok (some ("\"" ++ rule.expression ++ "\" returned false"))
    else .ok (some rule.message)
  | .string text => if text == "" then .ok none else .ok (some text)
  | .other => .error (.evaluation
      ("expression " ++ rule.id ++ " outputs an unexpected type, wanted either bool or string"))

/-- Runs one expression against `this`, recording its failure. -/
def CelPrograms.runRule (self : CelPrograms) (this : This) (rule : CelRule) (index : Nat) :
    m Unit :=
  match self.program.eval index this with
  | .error error =>
    abort (.evaluation ("error evaluating " ++ rule.id ++ ": " ++ error.message))
  | .ok value => do
    match ← orAbort (rule.outcome value) with
    | none => pure ()
    | some message => push rule.id message rule.rulePath

/-- Runs each expression against `this`, recording its failures. -/
def CelPrograms.run (self : CelPrograms) (this : This) : m Unit :=
  self.rules.zipIdx.forM fun item => self.runRule this item.1 item.2

def MessageOneof.check (self : MessageOneof R) (message : Message R) : m Unit := do
  let set ← self.fields.foldlM
    (fun set field => do return if ← read (has message field) then set + 1 else set) 0
  pushIf (set > 1) "message.oneof" ("only one of " ++ self.names ++ " can be set") []
  pushIf (self.required && set == 0) "message.oneof"
    ("one of " ++ self.names ++ " must be set") []

def OneofRequired.check (self : OneofRequired R) (message : Message R) : m Unit := do
  if ← read (self.members.anyM (has message)) then
    pure ()
  else
    within self.element (push "required" "exactly one field is required in oneof" [])

/-- Whether a test fails; a test that cannot be evaluated ends the walk. -/
def evaluate (outcome : Except String Bool) : m Bool :=
  orAbort (outcome.mapError .evaluation)

/-- Runs checks, recording a violation for each one that fails. -/
def runWith {τ : Type} (checks : List (Check τ)) (fails : τ → m Bool) : m Unit :=
  checks.forM fun check => do
    pushIf (← fails check.test) check.id check.message check.rulePath

/-- Runs checks of one type against the value they test. -/
def run {τ : Type} (checks : List (Check τ)) (fails : τ → Except String Bool) : m Unit :=
  runWith checks (fun test => evaluate (fails test))

/-- `elementWrapper` is the `value` field of a list's wrapper elements. -/
def Checks.checkValue (walk : Walk R) (self : Checks) (value : Option (Val R))
    (elementWrapper : Option (Field R)) : m Unit :=
  match self with
  | .none => pure ()
  | .bool checks => do
    let value ← orAbort (boolOf value)
    run checks (fun test => boolFails test value)
  | .int checks => do
    let value ← orAbort (intOf value)
    run checks (fun test => test.fails value)
  | .uint checks => do
    let value ← orAbort (uintOf value)
    run checks (fun test => test.fails (value : Int))
  | .double checks => do
    let value ← orAbort (doubleOf value)
    run checks (fun test => test.fails value)
  | .string checks => do
    let value ← orAbort (strOf value)
    run checks (fun test => test.fails walk.backend value)
  | .bytes checks => do
    let value ← orAbort (bytesOf value)
    run checks (fun test => test.fails walk.backend value)
  | .duration checks => do
    let value ← orAbort (nanosOf value)
    run checks (fun test => test.fails value)
  | .timestamp checks => do
    let value ← orAbort (nanosOf value)
    run checks (fun test => test.fails walk.backend value)
  | .fieldMask checks => do
    let paths ← orAbort (pathsOf value)
    run checks (fun test => test.fails paths)
  | .any checks => do
    let typeUrl ← orAbort (typeUrlOf value)
    run checks (fun test => test.fails typeUrl)
  | .enum checks => do
    let number ← orAbort (enumOf value)
    run checks (fun test =>
      test.fails (fun index => (walk.pool.enumeration index).hasValue) number)
  | .list checks => do
    let view : Option (ListView R) ← orAbort (match value with
      | some (.list view) => .ok (some view)
      | .none => .ok .none
      | some other => .error (mismatch "a list" other))
    let len ← read (match view with
      | some view => view.len
      | .none => .ok 0)
    runWith checks fun test => orAbort (test.fails len (match view with
      | some view => hasDuplicateItems view len elementWrapper
      | .none => .ok false))
  | .map checks => do
    let len ← orAbort (match value with
      | some (.map view) => readResult view.len
      | .none => .ok 0
      | some other => .error (mismatch "a map" other))
    run checks (fun test => test.fails len)

/-- Runs the standard checks against a value. A wrapper message is checked
through its `value` field. For a list of wrappers, `wrapper` is the elements'
`value` field. -/
def Checks.check (walk : Walk R) (self : Checks) (value : Option (Val R))
    (wrapper : Option (Field R)) : m Unit :=
  match wrapper, value with
  | some wrapper, some (.message message) => do
    let unboxed ← read (message.get wrapper)
    self.checkValue walk unboxed .none
  | some wrapper, some (.list _) => self.checkValue walk value (some wrapper)
  | some _, _ => self.checkValue walk .none .none
  | .none, value => self.checkValue walk value .none

def runPrograms (walk : Walk R) (programs : Option CelPrograms) (value : Option (Val R))
    (bind : CelBind R) (child : Option (CelFrame R)) : m Unit :=
  match programs with
  | none => pure ()
  | some programs => do
    let this ← orAbort (celThis walk value bind child)
    programs.run this

/-- A value's own rules: custom, then standard, then predefined. -/
def ValueValidator.runRules (walk : Walk R) (self : ValueValidator R) (bind : CelBind R)
    (child : Option (CelFrame R)) (value : Option (Val R)) : m Unit := do
  runPrograms walk self.custom value bind child
  self.checks.check walk value self.wrapper
  runPrograms walk self.predefined value bind child

def runMessagePrograms (walk : Walk R) (programs : Option CelPrograms) (frame : CelFrame R) :
    m Unit :=
  match programs with
  | none => pure ()
  | some programs => do
    let parsed ← orAbort (frame.parsed walk)
    programs.run (.message parsed)

/-- A message's own rules, before those of its fields. -/
def MessageValidator.runRules (walk : Walk R) (self : MessageValidator R) (frame : CelFrame R)
    (message : Message R) : m Unit := do
  runMessagePrograms walk self.cel frame
  self.messageOneofs.forM (fun oneof => oneof.check message)
  self.oneofs.forM (fun oneof => oneof.check message)

end Recorders

/-- The validator and the frame of the message a value holds. -/
def ValueValidator.nestedMessage {R : Runtime} (walk : Walk R) (self : ValueValidator R)
    (sub : Message R) : Except (Error R.Error) (Option (MessageValidator R × CelFrame R)) :=
  match self.nested with
  | none => .ok none
  | some index => do
    let validator ← walk.validator index
    return some (validator, ⟨(walk.pool.message index).fullName, sub⟩)

/-- Whether the field is set, from the value read of it. -/
def FieldValidator.isSet {R : Runtime} (self : FieldValidator R) (message : Message R)
    (value : Option (Val R)) : Except R.Error Bool :=
  if self.field.hasPresence then message.has self.field else Protovalidate.isSet value

/-- Whether an item validator skips an item. -/
def ItemValidator.skips {R : Runtime} (self : ItemValidator R) (item : Val R) :
    Except R.Error Bool :=
  if self.ignoreEmpty then isEmptyItem item else .ok false

/-- One element of the walk's current field path. -/
structure PathElement where
  element : FieldPathElement
  subscript : Option Subscript
  deriving DecidableEq, Repr

/-- The violations found so far, and where the walk is. -/
structure Violations where
  failFast : Bool
  path : List PathElement
  forKey : Bool
  list : List Violation
  deriving DecidableEq, Repr

/-- Why a walk stopped before the end of the message. -/
inductive Abort (ε : Type)
  | error (e : Error ε)
  | failFast

def fieldPath (elements : List FieldPathElement) : Option FieldPath :=
  if elements.isEmpty then none else some ⟨elements⟩

def PathElement.resolve (at_ : PathElement) : FieldPathElement :=
  { at_.element with subscript := at_.subscript }

/-- A failure placed at a field path. -/
def Failure.violation (failure : Failure) (path : List FieldPathElement) (forKey : Bool) :
    Violation where
  field := fieldPath path
  rule := fieldPath failure.rulePath
  ruleId := some failure.id
  message := some failure.message
  forKey := if forKey then some true else none

namespace Violations

def new (failFast : Bool) : Violations := ⟨failFast, [], false, []⟩

def push {ε : Type} (failure : Failure) (out : Violations) :
    Except (Abort ε) Unit × Violations :=
  let field := out.path.map PathElement.resolve
  let out := { out with list := out.list ++ [failure.violation field out.forKey] }
  (if out.failFast then .error .failFast else .ok (), out)

/-- Sets the subscript of the container field the walk is at. -/
def subscript (subscript : Option Subscript) (out : Violations) : Violations :=
  { out with path := out.path.modifyLast (fun at_ => { at_ with subscript := subscript }) }

/-- Sets the subscript of the path element at `depth`. -/
def setSubscript (depth : Nat) (subscript : Option Subscript) (violation : Violation) :
    Violation :=
  { violation with
    field := violation.field.map fun field =>
      ⟨field.elements.modify depth (fun element => { element with subscript := subscript })⟩ }

/-- Sets the subscript of the walk's current container field in every
violation recorded since index `recorded`. -/
def subscriptSince (recorded : Nat) (subscript : Option Subscript) (out : Violations) :
    Violations :=
  if out.path.isEmpty then out
  else
    { out with
      list := out.list.take recorded ++
        (out.list.drop recorded).map (setSubscript (out.path.length - 1) subscript) }

end Violations

/-- A step of the walk, on its violations and current path. -/
def WalkM (ε α : Type) : Type := Violations → Except (Abort ε) α × Violations

namespace WalkM
variable {ε α β : Type}

def andThen (x : WalkM ε α) (f : α → WalkM ε β) : WalkM ε β := fun out =>
  match x out with
  | (.ok a, out) => f a out
  | (.error abort, out) => (.error abort, out)

instance : Monad (WalkM ε) where
  pure a := fun out => (.ok a, out)
  bind := andThen

/-- Runs `f` with `element` appended to the field path. -/
def at_ (element : FieldPathElement) (f : WalkM ε α) : WalkM ε α := fun out =>
  let (result, out) := f { out with path := out.path ++ [⟨element, element.subscript⟩] }
  (result, { out with path := out.path.dropLast })

instance : Recorder (WalkM ε) Failure FieldPathElement (Error ε) where
  record := Violations.push
  abort e := fun out => (.error (.error e), out)
  within := at_

/-- Runs `f` validating a map key. -/
def forKey (f : WalkM ε α) : WalkM ε α := fun out =>
  let (result, out) := f { out with forKey := true }
  (result, { out with forKey := false })

def subscript (subscript : Option Subscript) : WalkM ε Unit := fun out =>
  (.ok (), out.subscript subscript)

end WalkM

/-- Validates one entry of a map. Its subscript is filled in afterwards, in the
violations the entry recorded. -/
def validateEntry {ε : Type} (key : Atom) (entryValues : WalkM ε Unit) : WalkM ε Unit :=
  fun out =>
    let (result, after) := entryValues out
    (result, after.subscriptSince out.list.length (keySubscript key))

/-- A map field's entries, and their validators. -/
structure Entries (R : Runtime) where
  key : Singular
  value : Singular
  keys : Option (ItemValidator R)
  values : Option (ItemValidator R)

/-- Validates the key of an entry, a scalar without a message of its own. -/
def validateKey {R : Runtime} (walk : Walk R) (entries : Entries R) (key : Atom) :
    WalkM R.Error Unit :=
  match entries.keys with
  | none => pure ()
  | some keys => do
    if ← read (keys.skips (.atom key)) then
      pure ()
    else
      WalkM.forKey (keys.value.runRules walk (.item entries.key) none (some (.atom key)))

mutual

def MessageValidator.validate {R : Runtime} (walk : Walk R) (self : MessageValidator R)
    (frame : CelFrame R) : Message R → WalkM R.Error Unit
  | ⟨has, get, encode⟩ => do
    self.runRules walk frame ⟨has, get, encode⟩
    self.fields.forM fun field =>
      match field with
      | .error error => abort (.compilation error)
      | .ok field => field.validate walk ⟨has, get, encode⟩ frame (get field.field)

/-- Validates one field of `message`, of the value read from it. -/
def FieldValidator.validate {R : Runtime} (walk : Walk R) (self : FieldValidator R)
    (message : Message R) (frame : CelFrame R) :
    Except R.Error (Option (Val R)) → WalkM R.Error Unit
  | .error e => abort (.read e)
  | .ok value => do
    let set ← read (self.isSet message value)
    if !set && self.required then
      within self.element (push "required" "value is required" [walk.schema.required])
    else if !set && self.ignoreEmpty then
      pure ()
    else do
      within self.element (self.value.validateOption walk (.field frame self.field) value)
      self.validateItems walk value

/-- Validates the items of a container field. -/
def FieldValidator.validateItems {R : Runtime} (walk : Walk R) (self : FieldValidator R) :
    Option (Val R) → WalkM R.Error Unit
  | some (.list list) =>
    match self.kind, self.field.kind with
    | .list (some items), .list element =>
      within self.element (items.validateList walk element list)
    | _, _ => pure ()
  | some (.map map) =>
    match self.kind, self.field.kind with
    | .map element keys values, .map key entry =>
      within element (validateMap walk ⟨.scalar key, entry, keys, values⟩ map)
    | _, _ => pure ()
  | _ => pure ()

/-- Validates each element of a list, subscripted by its index. -/
def ItemValidator.validateList {R : Runtime} (walk : Walk R) (self : ItemValidator R)
    (element : Singular) : ListView R → WalkM R.Error Unit
  | ⟨len, get⟩ => do
    let len ← read len
    (List.range len).forM fun index => self.validateItem walk element index (get index)

def ItemValidator.validateItem {R : Runtime} (walk : Walk R) (self : ItemValidator R)
    (element : Singular) (index : Nat) :
    Except R.Error (Option (Val R)) → WalkM R.Error Unit
  | .error e => abort (.read e)
  | .ok none => pure ()
  | .ok (some item) => do
    if ← read (self.skips item) then
      pure ()
    else do
      WalkM.subscript (some (.index index))
      self.value.validate walk (.item element) item

/-- Validates each entry of a map, subscripted by its key. -/
def validateMap {R : Runtime} (walk : Walk R) (entries : Entries R) :
    MapView R → WalkM R.Error Unit
  | ⟨_, visited, fault⟩ => do
    validateEntries walk entries visited
    match fault with
    | some e => abort (.read e)
    | none => pure ()

def validateEntries {R : Runtime} (walk : Walk R) (entries : Entries R) :
    List (Atom × Val R) → WalkM R.Error Unit
  | [] => pure ()
  | entry :: rest => do
    validateEntry entry.1 (validateEntryValues walk entries entry)
    validateEntries walk entries rest

def validateEntryValues {R : Runtime} (walk : Walk R) (entries : Entries R) :
    Atom × Val R → WalkM R.Error Unit
  | (key, value) => do
    validateKey walk entries key
    match entries.values with
    | none => pure ()
    | some values =>
      if ← read (values.skips value) then
        pure ()
      else
        values.value.validate walk (.item entries.value) value

/-- Validates the value of a field, absent when the message has no such field. -/
def ValueValidator.validateOption {R : Runtime} (walk : Walk R) (self : ValueValidator R)
    (bind : CelBind R) : Option (Val R) → WalkM R.Error Unit
  | none => self.runRules walk bind none none
  | some value => self.validate walk bind value

/-- Validates one value, then the message it holds. -/
def ValueValidator.validate {R : Runtime} (walk : Walk R) (self : ValueValidator R)
    (bind : CelBind R) : Val R → WalkM R.Error Unit
  | .message sub => do
    let nested ← orAbort (self.nestedMessage walk sub)
    self.runRules walk bind (nested.map Prod.snd) (some (.message sub))
    match nested with
    | none => pure ()
    | some (validator, child) => validator.validate walk child sub
  | .atom a => self.runRules walk bind none (some (.atom a))
  | .list l => self.runRules walk bind none (some (.list l))
  | .map m => self.runRules walk bind none (some (.map m))

end

/-- Validates a message of a type, returning the violations. -/
def Walk.validate {R : Runtime} (walk : Walk R) (failFast : Bool)
    (validator : MessageValidator R) (message : Message R) (typeName : String) :
    Except (Error R.Error) (List Violation) :=
  match validator.validate walk ⟨typeName, message⟩ message (Violations.new failFast) with
  | (.ok (), out) => .ok out.list
  | (.error .failFast, out) => .ok out.list
  | (.error (.error e), _) => .error e

end Protovalidate
