import Protovalidate.Protobuf

/-!
# The messages of `buf/validate/validate.proto`

The rules a schema attaches to its fields, and the violations reported for
them. A rules message keeps the fields its generated type does not know as
`unknown`: an extension, or a field of a newer schema.
-/

namespace Protovalidate

/-- `google.protobuf.FieldDescriptorProto.Type`. -/
inductive ProtoType
  | double | float | int64 | uint64 | int32 | fixed64 | fixed32 | bool | string
  | group | message | bytes | uint32 | enum | sfixed32 | sfixed64 | sint32 | sint64
  deriving DecidableEq, Repr

inductive Subscript
  | index (i : Nat)
  | boolKey (b : Bool)
  | intKey (i : Int)
  | uintKey (u : Nat)
  | stringKey (s : String)
  deriving DecidableEq, Repr

structure FieldPathElement where
  fieldNumber : Option Int := none
  fieldName : Option String := none
  fieldType : Option ProtoType := none
  keyType : Option ProtoType := none
  valueType : Option ProtoType := none
  subscript : Option Subscript := none
  deriving DecidableEq, Repr

structure FieldPath where
  elements : List FieldPathElement
  deriving DecidableEq, Repr

structure Violation where
  field : Option FieldPath
  rule : Option FieldPath
  ruleId : Option String
  message : Option String
  forKey : Option Bool
  deriving DecidableEq, Repr

/-- A CEL rule. -/
structure Rule where
  id : Option String
  message : Option String
  expression : Option String
  deriving DecidableEq, Repr

structure MessageOneofRule where
  fields : List String
  required : Option Bool
  deriving DecidableEq, Repr

structure MessageRules where
  celExpression : List String
  cel : List Rule
  oneof : List MessageOneofRule
  deriving DecidableEq, Repr

structure OneofRules where
  required : Option Bool
  deriving DecidableEq, Repr

structure PredefinedRules where
  cel : List Rule
  deriving DecidableEq, Repr

inductive Ignore
  | unspecified
  | ifZeroValue
  | always
  deriving DecidableEq, Repr

/-- A field the generated type does not know, as it was parsed. -/
structure UnknownField where
  number : Nat
  data : Bytes
  deriving DecidableEq, Repr

/-- `google.protobuf.Duration`. -/
structure DurationPb where
  seconds : Int
  nanos : Int
  deriving DecidableEq, Repr

/-- `google.protobuf.Timestamp`. -/
structure TimestampPb where
  seconds : Int
  nanos : Int
  deriving DecidableEq, Repr

/-- `google.protobuf.FieldMask`. -/
structure FieldMaskPb where
  paths : List String
  deriving DecidableEq, Repr

/-- The `less_than` oneof of a comparison rules message. -/
inductive LessThan (α : Type)
  | lt (v : α)
  | lte (v : α)
  deriving DecidableEq, Repr

/-- The `greater_than` oneof of a comparison rules message. -/
inductive GreaterThan (α : Type)
  | gt (v : α)
  | gte (v : α)
  deriving DecidableEq, Repr

/-- `FloatRules` and `DoubleRules`, whose fields have the same numbers. -/
structure FloatRules where
  const : Option Double
  lessThan : Option (LessThan Double)
  greaterThan : Option (GreaterThan Double)
  isIn : List Double
  notIn : List Double
  finite : Option Bool
  exampleValues : List Double
  unknown : List UnknownField
  deriving DecidableEq, Repr

/-- The ten integer rules messages, whose fields have the same numbers. -/
structure IntRules where
  const : Option Int
  lessThan : Option (LessThan Int)
  greaterThan : Option (GreaterThan Int)
  isIn : List Int
  notIn : List Int
  exampleValues : List Int
  unknown : List UnknownField
  deriving DecidableEq, Repr

structure BoolRules where
  const : Option Bool
  exampleValues : List Bool
  unknown : List UnknownField
  deriving DecidableEq, Repr

inductive KnownRegex
  | unspecified
  | httpHeaderName
  | httpHeaderValue
  deriving DecidableEq, Repr

/-- The `well_known` oneof of `StringRules`. -/
inductive StringWellKnown
  | email (b : Bool)
  | hostname (b : Bool)
  | ip (b : Bool)
  | ipv4 (b : Bool)
  | ipv6 (b : Bool)
  | uri (b : Bool)
  | uriRef (b : Bool)
  | address (b : Bool)
  | uuid (b : Bool)
  | tuuid (b : Bool)
  | ipWithPrefixlen (b : Bool)
  | ipv4WithPrefixlen (b : Bool)
  | ipv6WithPrefixlen (b : Bool)
  | ipPrefix (b : Bool)
  | ipv4Prefix (b : Bool)
  | ipv6Prefix (b : Bool)
  | hostAndPort (b : Bool)
  | ulid (b : Bool)
  | protobufFqn (b : Bool)
  | protobufDotFqn (b : Bool)
  | wellKnownRegex (regex : KnownRegex)
  deriving DecidableEq, Repr

structure StringRules where
  const : Option String
  len : Option Nat
  minLen : Option Nat
  maxLen : Option Nat
  lenBytes : Option Nat
  minBytes : Option Nat
  maxBytes : Option Nat
  pattern : Option String
  prefixed : Option String
  suffix : Option String
  contains : Option String
  notContains : Option String
  isIn : List String
  notIn : List String
  wellKnown : Option StringWellKnown
  strict : Option Bool
  exampleValues : List String
  unknown : List UnknownField
  deriving DecidableEq, Repr

/-- The `well_known` oneof of `BytesRules`. -/
inductive BytesWellKnown
  | ip (b : Bool)
  | ipv4 (b : Bool)
  | ipv6 (b : Bool)
  | uuid (b : Bool)
  deriving DecidableEq, Repr

structure BytesRules where
  const : Option Bytes
  len : Option Nat
  minLen : Option Nat
  maxLen : Option Nat
  pattern : Option String
  prefixed : Option Bytes
  suffix : Option Bytes
  contains : Option Bytes
  isIn : List Bytes
  notIn : List Bytes
  wellKnown : Option BytesWellKnown
  exampleValues : List Bytes
  unknown : List UnknownField
  deriving DecidableEq, Repr

structure EnumRules where
  const : Option Int
  definedOnly : Option Bool
  isIn : List Int
  notIn : List Int
  exampleValues : List Int
  unknown : List UnknownField
  deriving DecidableEq, Repr

/-- `RepeatedRules`, over the rules `φ` of its items. -/
structure RepeatedRules (φ : Type) where
  minItems : Option Nat
  maxItems : Option Nat
  unique : Option Bool
  items : Option φ
  unknown : List UnknownField

/-- `MapRules`, over the rules `φ` of its keys and values. -/
structure MapRules (φ : Type) where
  minPairs : Option Nat
  maxPairs : Option Nat
  keys : Option φ
  values : Option φ
  unknown : List UnknownField

structure AnyRules where
  isIn : List String
  notIn : List String
  unknown : List UnknownField
  deriving DecidableEq, Repr

structure DurationRules where
  const : Option DurationPb
  lessThan : Option (LessThan DurationPb)
  greaterThan : Option (GreaterThan DurationPb)
  isIn : List DurationPb
  notIn : List DurationPb
  exampleValues : List DurationPb
  unknown : List UnknownField
  deriving DecidableEq, Repr

structure FieldMaskRules where
  const : Option FieldMaskPb
  isIn : List String
  notIn : List String
  exampleValues : List FieldMaskPb
  unknown : List UnknownField
  deriving DecidableEq, Repr

/-- The `less_than` oneof of `TimestampRules`. -/
inductive TimestampLessThan
  | lt (v : TimestampPb)
  | lte (v : TimestampPb)
  | ltNow (b : Bool)
  deriving DecidableEq, Repr

/-- The `greater_than` oneof of `TimestampRules`. -/
inductive TimestampGreaterThan
  | gt (v : TimestampPb)
  | gte (v : TimestampPb)
  | gtNow (b : Bool)
  deriving DecidableEq, Repr

structure TimestampRules where
  const : Option TimestampPb
  lessThan : Option TimestampLessThan
  greaterThan : Option TimestampGreaterThan
  within : Option DurationPb
  exampleValues : List TimestampPb
  unknown : List UnknownField
  deriving DecidableEq, Repr

/-- The `type` oneof of `FieldRules`, over `FieldRules` itself. -/
inductive RulesTypeOf (φ : Type)
  | float (r : FloatRules)
  | double (r : FloatRules)
  | int32 (r : IntRules)
  | int64 (r : IntRules)
  | uint32 (r : IntRules)
  | uint64 (r : IntRules)
  | sint32 (r : IntRules)
  | sint64 (r : IntRules)
  | fixed32 (r : IntRules)
  | fixed64 (r : IntRules)
  | sfixed32 (r : IntRules)
  | sfixed64 (r : IntRules)
  | bool (r : BoolRules)
  | string (r : StringRules)
  | bytes (r : BytesRules)
  | enum (r : EnumRules)
  | repeated (r : RepeatedRules φ)
  | map (r : MapRules φ)
  | any (r : AnyRules)
  | duration (r : DurationRules)
  | fieldMask (r : FieldMaskRules)
  | timestamp (r : TimestampRules)

structure FieldRules where
  celExpression : List String
  cel : List Rule
  required : Option Bool
  ignore : Option Ignore
  type : Option (RulesTypeOf FieldRules)

abbrev RulesType := RulesTypeOf FieldRules

end Protovalidate
