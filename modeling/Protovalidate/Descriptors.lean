import Protovalidate.Validate

/-!
# The descriptor pool, and what is read from it

A linked pool: every index a descriptor holds is in the pool, field numbers
are distinct within a message and in the range Protobuf allows, and a singular
message field tracks presence. The `buf.validate` options of a descriptor are
its decoded extensions.
-/

namespace Protovalidate

abbrev MessageIndex := Nat

abbrev EnumIndex := Nat

inductive SingularKind
  | scalar (s : Scalar)
  | enum (index : EnumIndex)
  | message (index : MessageIndex)
  deriving DecidableEq, Repr

/-- How a field descriptor holds its values. -/
inductive DescriptorKind
  | singular (kind : SingularKind)
  | list (element : SingularKind)
  | map (key : Scalar) (value : SingularKind)
  deriving DecidableEq, Repr

inductive FieldPresence
  | explicit
  | implicit
  | legacyRequired
  deriving DecidableEq, Repr

/-- The largest field number Protobuf allows. -/
def maxFieldNumber : Nat := 536870911

structure FieldDescriptor where
  number : Nat
  name : String
  kind : DescriptorKind
  presence : FieldPresence
  isDelimited : Bool
  /-- The `(buf.validate.field)` option. -/
  fieldRules : Option FieldRules
  /-- The `(buf.validate.predefined)` option. -/
  predefinedRules : Option PredefinedRules
  numberAllowed : number ≤ maxFieldNumber
  messagePresence : ∀ index, kind = .singular (.message index) → presence ≠ .implicit

theorem one_allowed : 1 ≤ maxFieldNumber := by decide

theorem thirteen_allowed : 13 ≤ maxFieldNumber := by decide

/-- A field with explicit presence tracks it, whatever it holds. -/
theorem explicit_tracked (kind : DescriptorKind) (index : MessageIndex) :
    kind = .singular (.message index) → FieldPresence.explicit ≠ .implicit := by
  intro _ same
  cases same

structure OneofDescriptor where
  name : String
  fieldIndices : List Nat
  /-- The `(buf.validate.oneof)` option. -/
  oneofRules : Option OneofRules

structure MessageDescriptor where
  fullName : String
  fields : List FieldDescriptor
  oneofs : List OneofDescriptor
  /-- The `(buf.validate.message)` option. -/
  messageRules : Option MessageRules
  numbersDistinct : (fields.map FieldDescriptor.number).Nodup
  namesDistinct : (fields.map FieldDescriptor.name).Nodup

def MessageDescriptor.field (message : MessageDescriptor) (number : Nat) :
    Option FieldDescriptor :=
  message.fields.find? (fun field => field.number == number)

def MessageDescriptor.fieldByName (message : MessageDescriptor) (name : String) :
    Option FieldDescriptor :=
  message.fields.find? (fun field => field.name == name)

structure EnumDescriptor where
  fullName : String
  /-- The numbers of the values, in the order they are declared. -/
  numbers : List Int

/-- Whether the enum has a value of this number. -/
def EnumDescriptor.hasValue (enum : EnumDescriptor) (number : Int) : Bool :=
  enum.numbers.contains number

structure ExtensionDescriptor where
  extendee : MessageIndex
  fullName : String
  field : FieldDescriptor

/-- The message type a field holds, if it is message-typed. -/
def messageType (field : FieldDescriptor) : Option MessageIndex :=
  match field.kind with
  | .singular (.message index) => some index
  | .list (.message index) => some index
  | .map _ (.message index) => some index
  | _ => none

structure DescriptorPool where
  messages : List MessageDescriptor
  enums : List EnumDescriptor
  extensions : List ExtensionDescriptor
  linked : ∀ message ∈ messages, ∀ field ∈ message.fields, ∀ index,
    messageType field = some index → index < messages.length

namespace DescriptorPool

def emptyMessage : MessageDescriptor :=
  ⟨"", [], [], none, List.nodup_nil, List.nodup_nil⟩

/-- The message at an index of the pool. -/
def message (pool : DescriptorPool) (index : MessageIndex) : MessageDescriptor :=
  pool.messages.getD index emptyMessage

/-- The enum at an index of the pool. -/
def enumeration (pool : DescriptorPool) (index : EnumIndex) : EnumDescriptor :=
  pool.enums.getD index ⟨"", []⟩

def messageIndex (pool : DescriptorPool) (name : String) : Option MessageIndex :=
  pool.messages.findIdx? (fun message => message.fullName == name)

/-- The extension of a message with a field number. -/
def extensionFor (pool : DescriptorPool) (extendee : MessageIndex) (number : Nat) :
    Option ExtensionDescriptor :=
  pool.extensions.find? (fun ext => ext.extendee == extendee && ext.field.number == number)

end DescriptorPool

def scalarType : Scalar → ProtoType
  | .double => .double
  | .float => .float
  | .int64 => .int64
  | .uint64 => .uint64
  | .int32 => .int32
  | .fixed64 => .fixed64
  | .fixed32 => .fixed32
  | .bool => .bool
  | .string => .string
  | .bytes => .bytes
  | .uint32 => .uint32
  | .sfixed32 => .sfixed32
  | .sfixed64 => .sfixed64
  | .sint32 => .sint32
  | .sint64 => .sint64

/-- The type of a field, as field paths report it. -/
def protoType (field : FieldDescriptor) : ProtoType :=
  let ofSingular : SingularKind → ProtoType := fun kind =>
    match kind with
    | .scalar s => scalarType s
    | .enum _ => .enum
    | .message _ => if field.isDelimited then .group else .message
  match field.kind with
  | .singular kind => ofSingular kind
  | .list kind => ofSingular kind
  | .map _ _ => .message

/-- The name of a type in messages, and of the `FieldRules` field of a scalar. -/
def typeName : ProtoType → String
  | .double => "double"
  | .float => "float"
  | .int64 => "int64"
  | .uint64 => "uint64"
  | .int32 => "int32"
  | .fixed64 => "fixed64"
  | .fixed32 => "fixed32"
  | .bool => "bool"
  | .string => "string"
  | .group => "group"
  | .message => "message"
  | .bytes => "bytes"
  | .uint32 => "uint32"
  | .enum => "enum"
  | .sfixed32 => "sfixed32"
  | .sfixed64 => "sfixed64"
  | .sint32 => "sint32"
  | .sint64 => "sint64"

/-- A field number as a path element carries it, an `int32`. -/
def fieldNumber (number : Nat) : Int :=
  if number ≤ 2147483647 then number else 2147483647

def pathElementNamed (field : FieldDescriptor) (name : String) : FieldPathElement where
  fieldNumber := some (fieldNumber field.number)
  fieldName := some name
  fieldType := some (protoType field)

def pathElement (field : FieldDescriptor) : FieldPathElement :=
  pathElementNamed field field.name

/-- An extension is named in brackets, as in `[pkg.name]`. -/
def extensionPathElement (ext : ExtensionDescriptor) : FieldPathElement :=
  pathElementNamed ext.field ("[" ++ ext.fullName ++ "]")

/-- A oneof carries only its name. -/
def oneofPathElement (name : String) : FieldPathElement where
  fieldName := some name

def singularOf : SingularKind → Singular
  | .scalar s => .scalar s
  | .enum _ => .enum
  | .message _ => .message

def kindOf : DescriptorKind → Kind
  | .singular kind => .singular (singularOf kind)
  | .list kind => .list (singularOf kind)
  | .map key value => .map key (singularOf value)

/-- What the validator tells a runtime about a field. -/
def Field.fromDescriptor {R : Runtime} (field : FieldDescriptor)
    (messageType : Option R.MessageType) : Field R where
  number := field.number
  name := field.name
  kind := kindOf field.kind
  messageType := messageType
  hasPresence :=
    match field.kind with
    | .singular _ => field.presence != .implicit
    | _ => false

namespace Wkt
variable (R : Runtime)

def anyTypeUrl : Field R := .wellKnown R 1 "type_url" (.singular (.scalar .string))

def seconds : Field R := .wellKnown R 1 "seconds" (.singular (.scalar .int64))

def nanos : Field R := .wellKnown R 2 "nanos" (.singular (.scalar .int32))

def fieldMaskPaths : Field R := .wellKnown R 1 "paths" (.list (.scalar .string))

end Wkt

def FIELD_RULES : String := "buf.validate.FieldRules"
def ANY : String := "google.protobuf.Any"
def DURATION : String := "google.protobuf.Duration"
def TIMESTAMP : String := "google.protobuf.Timestamp"
def FIELD_MASK : String := "google.protobuf.FieldMask"

/-- The fields of the `buf.validate` schema that rule paths name. -/
structure Schema where
  fieldRules : MessageIndex
  required : FieldPathElement
  cel : FieldPathElement
  celExpression : FieldPathElement
  repeated : FieldPathElement
  repeatedItems : FieldPathElement
  map : FieldPathElement
  mapKeys : FieldPathElement
  mapValues : FieldPathElement

/-- The schema of a pool, `none` where the code panics because the embedded
descriptor set lacks a message or a field. -/
def Schema.new (pool : DescriptorPool) : Option Schema := do
  let element : String → String → Option FieldPathElement := fun message field => do
    let index ← pool.messageIndex message
    (pool.message index).fieldByName field |>.map pathElement
  return {
    fieldRules := ← pool.messageIndex FIELD_RULES
    required := ← element FIELD_RULES "required"
    cel := ← element FIELD_RULES "cel"
    celExpression := ← element FIELD_RULES "cel_expression"
    repeated := ← element FIELD_RULES "repeated"
    repeatedItems := ← element "buf.validate.RepeatedRules" "items"
    map := ← element FIELD_RULES "map"
    mapKeys := ← element "buf.validate.MapRules" "keys"
    mapValues := ← element "buf.validate.MapRules" "values" }

/-- The `FieldRules` field holding the standard rules of one type. -/
def Schema.typeElement (schema : Schema) (pool : DescriptorPool) (name : String) :
    Option FieldPathElement :=
  (pool.message schema.fieldRules).fieldByName name |>.map pathElement

/-- The descriptors a validator reflects over. -/
structure Descriptors where
  pool : DescriptorPool
  schema : Schema

end Protovalidate
