import Protovalidate.Standard

/-!
# Compiled validation rules

The CEL backend as the validator sees it, and the validators of message types,
fields and values. A message or field whose rules did not compile is the error
instead, reported when a walk reaches it.
-/

namespace Protovalidate

/-- A scalar, as an expression's `this`. -/
inductive ScalarValue
  | bool (b : Bool)
  | int (i : Int)
  | uint (u : Nat)
  | double (f : Double)
  | string (s : String)
  | bytes (b : Bytes)
  deriving DecidableEq, Repr

/-- A parsed message. -/
structure Frame where
  typeName : String
  payload : Bytes
  deriving DecidableEq, Repr

/-- What `this` is bound to while a program runs. -/
inductive This
  | scalar (s : ScalarValue)
  | message (frame : Frame)
  | field (frame : Frame) (number : Int)
  deriving DecidableEq, Repr

/-- What an expression produced. -/
inductive Value
  | bool (b : Bool)
  | string (s : String)
  | other
  deriving DecidableEq, Repr

namespace Cel

inductive Error
  | compilation (message : String)
  | runtime (message : String)
  | argument (message : String)
  | unexpected (message : String)
  deriving DecidableEq, Repr

def Error.message : Error → String
  | .compilation m => m
  | .runtime m => m
  | .argument m => m
  | .unexpected m => m

/-- Expressions compiled together, evaluated by their index. -/
structure Program where
  eval : Nat → This → Except Error Value

structure Expression where
  expression : String
  ruleFieldNumber : Int
  deriving DecidableEq, Repr

/-- The CEL environment, its functions depending on nothing but their
arguments and the registered files. -/
structure Env where
  compile : Option (String × Bytes) → List Expression → Except Error Program
  frame : String → Bytes → Except Error Frame

end Cel

/-- A CEL expression, and what it reports when it fails. -/
structure CelRule where
  id : String
  message : String
  expression : String
  ruleFieldNumber : Int
  rulePath : List FieldPathElement
  deriving DecidableEq, Repr

/-- CEL expressions compiled together, evaluated against one `this`. -/
structure CelPrograms where
  program : Cel.Program
  rules : List CelRule

/-- A `(buf.validate.message).oneof` rule. -/
structure MessageOneof (R : Runtime) where
  fields : List (Field R)
  names : String
  required : Bool

/-- A `(buf.validate.oneof).required` rule. -/
structure OneofRequired (R : Runtime) where
  element : FieldPathElement
  members : List (Field R)

/-- The rules of one value. -/
structure ValueValidator (R : Runtime) where
  custom : Option CelPrograms := none
  checks : Checks := .none
  /-- The field a wrapper message, or a list's wrapper items, are checked
  through. -/
  wrapper : Option (Field R) := none
  predefined : Option CelPrograms := none
  /-- The message type of the value, validated after these rules. -/
  nested : Option MessageIndex := none

/-- The rules of the elements of a repeated field, or the keys or values of a
map. -/
structure ItemValidator (R : Runtime) where
  ignoreEmpty : Bool
  value : ValueValidator R

/-- How a field holds its values, and the validators of a container's items. -/
inductive FieldKind (R : Runtime)
  | singular
  | list (items : Option (ItemValidator R))
  | map (element : FieldPathElement) (keys values : Option (ItemValidator R))

/-- The rules of one field. -/
structure FieldValidator (R : Runtime) where
  field : Field R
  element : FieldPathElement
  required : Bool
  /-- Whether to skip the rules when the field is not set. -/
  ignoreEmpty : Bool
  value : ValueValidator R
  kind : FieldKind R

/-- The rules of one message type. -/
structure MessageValidator (R : Runtime) where
  messageType : R.MessageType
  cel : Option CelPrograms
  messageOneofs : List (MessageOneof R)
  oneofs : List (OneofRequired R)
  fields : List (Except String (FieldValidator R))

/-- A message type's validator, or why its rules did not compile. -/
abbrev Built (R : Runtime) := Except String (MessageValidator R)

/-- The compiled rules of message types, by index. -/
abbrev ValidatorCache (R : Runtime) := MessageIndex → Option (Built R)

end Protovalidate
