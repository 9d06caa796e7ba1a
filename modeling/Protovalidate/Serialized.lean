import Protovalidate.Lib.TwoPass
import Protovalidate.Lib.Wire
import Protovalidate.Validate

/-!
# Violations as serialized messages

The violations of a validation leave the core as one serialized `Violations` message,
which the runtime parses again. Single values are written and read by a `Wire.Format`.
-/

namespace Protovalidate

open Wire

/-- The number of a type. -/
def ProtoType.toI32 : ProtoType → Int
  | .double => 1
  | .float => 2
  | .int64 => 3
  | .uint64 => 4
  | .int32 => 5
  | .fixed64 => 6
  | .fixed32 => 7
  | .bool => 8
  | .string => 9
  | .group => 10
  | .message => 11
  | .bytes => 12
  | .uint32 => 13
  | .enum => 14
  | .sfixed32 => 15
  | .sfixed64 => 16
  | .sint32 => 17
  | .sint64 => 18

def ProtoType.fromI32 : Int → Option ProtoType
  | 1 => some .double
  | 2 => some .float
  | 3 => some .int64
  | 4 => some .uint64
  | 5 => some .int32
  | 6 => some .fixed64
  | 7 => some .fixed32
  | 8 => some .bool
  | 9 => some .string
  | 10 => some .group
  | 11 => some .message
  | 12 => some .bytes
  | 13 => some .uint32
  | 14 => some .enum
  | 15 => some .sfixed32
  | 16 => some .sfixed64
  | 17 => some .sint32
  | 18 => some .sint64
  | _ => none

theorem ProtoType.fromI32_toI32 (type : ProtoType) : fromI32 type.toI32 = some type := by
  cases type <;> rfl

theorem ProtoType.fits (type : ProtoType) : FitsI32 type.toI32 := by
  cases type <;> decide

/-- The bytes of a field that may be unset. -/
def putSet {α : Type} (value : Option α) (put : α → Bytes) : Bytes := (value.map put).getD []

section Encode
variable (format : Format) (encoder : Encoder)

namespace Subscript

def encodedLen : Subscript → Nat
  | .index v => format.uint64.encodedLen v
  | .boolKey _ => format.boolEncodedLen
  | .intKey v => format.int64.encodedLen v
  | .uintKey v => format.uint64.encodedLen v
  | .stringKey v => format.string.encodedLen v

def put : Subscript → Bytes
  | .index v => format.uint64.put 6 v
  | .boolKey v => format.bool.put 7 v
  | .intKey v => format.int64.put 8 v
  | .uintKey v => format.uint64.put 9 v
  | .stringKey v => format.string.put 10 v

end Subscript

namespace FieldPathElement

def computeSize (self : FieldPathElement) : Sizer encoder :=
  .saturated (.sum [
    .whenSet self.fieldNumber fun v => .const (1 + format.int32.encodedLen v),
    .whenSet self.fieldName fun v => .const (1 + format.string.encodedLen v),
    .whenSet self.fieldType fun v => .const (1 + format.int32.encodedLen v.toI32),
    .whenSet self.keyType fun v => .const (1 + format.int32.encodedLen v.toI32),
    .whenSet self.valueType fun v => .const (1 + format.int32.encodedLen v.toI32),
    .whenSet self.subscript fun v => .const (1 + v.encodedLen format)])

def writeTo (self : FieldPathElement) : Writer encoder :=
  .each [
    .whenSet self.fieldNumber fun v => .bytes (format.int32.put 1 v),
    .whenSet self.fieldName fun v => .bytes (format.string.put 2 v),
    .whenSet self.fieldType fun v => .bytes (format.int32.put 3 v.toI32),
    .whenSet self.keyType fun v => .bytes (format.int32.put 4 v.toI32),
    .whenSet self.valueType fun v => .bytes (format.int32.put 5 v.toI32),
    .whenSet self.subscript fun v => .bytes (v.put format)]

end FieldPathElement

namespace FieldPath

def computeSize (self : FieldPath) : Sizer encoder :=
  .saturated (.sum (self.elements.map fun v =>
    .nested format.varintLen (v.computeSize format encoder)))

def writeTo (self : FieldPath) : Writer encoder :=
  .each (self.elements.map fun v => .nested (format.putHeader 1) (v.writeTo format encoder))

end FieldPath

namespace Violation

def computeSize (self : Violation) : Sizer encoder :=
  .saturated (.sum [
    .whenSet self.ruleId fun v => .const (1 + format.string.encodedLen v),
    .whenSet self.message fun v => .const (1 + format.string.encodedLen v),
    .whenSet self.forKey fun _ => .const (1 + format.boolEncodedLen),
    .whenSet self.field fun v => .nested format.varintLen (v.computeSize format encoder),
    .whenSet self.rule fun v => .nested format.varintLen (v.computeSize format encoder)])

def writeTo (self : Violation) : Writer encoder :=
  .each [
    .whenSet self.ruleId fun v => .bytes (format.string.put 2 v),
    .whenSet self.message fun v => .bytes (format.string.put 3 v),
    .whenSet self.forKey fun v => .bytes (format.bool.put 4 v),
    .whenSet self.field fun v => .nested (format.putHeader 5) (v.writeTo format encoder),
    .whenSet self.rule fun v => .nested (format.putHeader 6) (v.writeTo format encoder)]

end Violation

/-- The `Violations` message over some violations. -/
def computeSize (violations : List Violation) : Sizer encoder :=
  .saturated
    (.sum (violations.map fun v => .nested format.varintLen (v.computeSize format encoder)))

def writeTo (violations : List Violation) : Writer encoder :=
  .each (violations.map fun v => .nested (format.putHeader 1) (v.writeTo format encoder))

/-- Encodes the violations as a `buf.validate.Violations`. -/
def encodeViolations (violations : List Violation) : Option Bytes :=
  encoder.encodeToVec (computeSize format encoder violations) (writeTo format encoder violations)

end Encode

section Decode
variable {format : Format} (decoder : Decoder format)

/-- Reads the value of a field that has a wire type. -/
def readAs {α : Type} {Fits : α → Prop} (codec : Codec format.decodeTag Fits) (tag : Tag)
    (bytes : Bytes) : Option (α × Bytes) :=
  if tag.wireType = codec.wireType then codec.decode bytes else none

/-- A field with a single value. -/
def mergeValue {α β : Type} {Fits : β → Prop} (codec : Codec format.decodeTag Fits) (tag : Tag)
    (set : β → α) (bytes : Bytes) (context : decoder.Context) :
    Option (α × Bytes × decoder.Context) :=
  (readAs codec tag bytes).map fun (v, rest) => (set v, rest, context)

/-- A number that is none of the types is a field that is not known. -/
def mergeType {α : Type} (tag : Tag) (set : ProtoType → α) (self : α) (bytes : Bytes)
    (context : decoder.Context) : Option (α × Bytes × decoder.Context) := do
  let (v, rest) ← readAs format.int32 tag bytes
  match ProtoType.fromI32 v with
  | some type => return (set type, rest, context)
  | none => return (self, rest, ← decoder.registerUnknownField context)

def mergeUnknown {α : Type} (tag : Tag) (self : α) (bytes : Bytes) (context : decoder.Context) :
    Option (α × Bytes × decoder.Context) :=
  (decoder.decodeUnknownField tag bytes context).map fun (rest, next) => (self, rest, next)

/-- Merges a message from a field with its length. -/
def mergeNested {α : Type} (mergeField : MergeField decoder.Context α) (tag : Tag) (message : α)
    (bytes : Bytes) (context : decoder.Context) : Option (α × Bytes × decoder.Context) :=
  if tag.wireType = .lengthDelimited then
    decoder.mergeLengthDelimited mergeField message bytes context
  else none

/-- Reads an element of a repeated field, whose memory is registered before. -/
def mergeElement {α : Type} (mergeField : MergeField decoder.Context α) (tag : Tag) (elem : α)
    (bytes : Bytes) (context : decoder.Context) : Option (α × Bytes × decoder.Context) :=
  if tag.wireType = .lengthDelimited then do
    let context ← decoder.registerElementMemory (decoder.elementFootprint elem) context
    decoder.mergeLengthDelimited mergeField elem bytes context
  else none

def FieldPathElement.mergeField : MergeField decoder.Context FieldPathElement :=
  fun tag self =>
    match tag.number with
    | 1 => mergeValue decoder format.int32 tag fun v => { self with fieldNumber := some v }
    | 2 => mergeValue decoder format.string tag fun v => { self with fieldName := some v }
    | 3 => mergeType decoder tag (fun v => { self with fieldType := some v }) self
    | 4 => mergeType decoder tag (fun v => { self with keyType := some v }) self
    | 5 => mergeType decoder tag (fun v => { self with valueType := some v }) self
    | 6 => mergeValue decoder format.uint64 tag fun v => { self with subscript := some (.index v) }
    | 7 => mergeValue decoder format.bool tag fun v => { self with subscript := some (.boolKey v) }
    | 8 => mergeValue decoder format.int64 tag fun v => { self with subscript := some (.intKey v) }
    | 9 => mergeValue decoder format.uint64 tag fun v =>
        { self with subscript := some (.uintKey v) }
    | 10 => mergeValue decoder format.string tag fun v =>
        { self with subscript := some (.stringKey v) }
    | _ => mergeUnknown decoder tag self

def FieldPath.mergeField : MergeField decoder.Context FieldPath := fun tag self bytes context =>
  match tag.number with
  | 1 => (mergeElement decoder (FieldPathElement.mergeField decoder) tag {} bytes context).map
      fun (v, rest) => (⟨self.elements ++ [v]⟩, rest)
  | _ => mergeUnknown decoder tag self bytes context

def Violation.mergeField : MergeField decoder.Context Violation := fun tag self bytes context =>
  match tag.number with
  | 2 => mergeValue decoder format.string tag (fun v => { self with ruleId := some v }) bytes
      context
  | 3 => mergeValue decoder format.string tag (fun v => { self with message := some v }) bytes
      context
  | 4 => mergeValue decoder format.bool tag (fun v => { self with forKey := some v }) bytes context
  | 5 => (mergeNested decoder (FieldPath.mergeField decoder) tag (self.field.getD ⟨[]⟩) bytes
      context).map fun (v, rest) => ({ self with field := some v }, rest)
  | 6 => (mergeNested decoder (FieldPath.mergeField decoder) tag (self.rule.getD ⟨[]⟩) bytes
      context).map fun (v, rest) => ({ self with rule := some v }, rest)
  | _ => mergeUnknown decoder tag self bytes context

/-- A violation of which nothing is set. -/
def Violation.unset : Violation := ⟨none, none, none, none, none⟩

def mergeField : MergeField decoder.Context (List Violation) := fun tag self bytes context =>
  match tag.number with
  | 1 => (mergeElement decoder (Violation.mergeField decoder) tag .unset bytes context).map
      fun (v, rest) => (self ++ [v], rest)
  | _ => mergeUnknown decoder tag self bytes context

/-- Decodes a `Violations` message, with what is left of the limits. -/
def decodeViolations (bytes : Bytes) (context : decoder.Context) :
    Option (List Violation × decoder.Context) :=
  decoder.mergeFields (mergeField decoder) [] bytes context

end Decode

/-! ### The values that the fields hold -/

def Subscript.Fits : Subscript → Prop
  | .index v => FitsU64 v
  | .boolKey _ => True
  | .intKey v => FitsI64 v
  | .uintKey v => FitsU64 v
  | .stringKey v => FitsString v

instance : ∀ v : Subscript, Decidable v.Fits
  | .index v => inferInstanceAs (Decidable (FitsU64 v))
  | .boolKey _ => .isTrue trivial
  | .intKey v => inferInstanceAs (Decidable (FitsI64 v))
  | .uintKey v => inferInstanceAs (Decidable (FitsU64 v))
  | .stringKey v => inferInstanceAs (Decidable (FitsString v))

structure FieldPathElement.Fits (element : FieldPathElement) : Prop where
  fieldNumber : ∀ v ∈ element.fieldNumber, FitsI32 v
  fieldName : ∀ v ∈ element.fieldName, FitsString v
  subscript : ∀ v ∈ element.subscript, v.Fits

def FieldPath.Fits (path : FieldPath) : Prop := ∀ v ∈ path.elements, v.Fits

structure Violation.Fits (violation : Violation) : Prop where
  ruleId : ∀ v ∈ violation.ruleId, FitsString v
  message : ∀ v ∈ violation.message, FitsString v
  field : ∀ v ∈ violation.field, v.Fits
  rule : ∀ v ∈ violation.rule, v.Fits

/-! ### What is written -/

section Plain
variable (format : Format)

/-- A message in a field, after its own length. -/
def putMessage (number : Nat) (bytes : Bytes) : Bytes :=
  format.putHeader number bytes.length ++ bytes

def FieldPathElement.encoded (self : FieldPathElement) : Bytes :=
  [putSet self.fieldNumber (format.int32.put 1),
    putSet self.fieldName (format.string.put 2),
    putSet self.fieldType fun v => format.int32.put 3 v.toI32,
    putSet self.keyType fun v => format.int32.put 4 v.toI32,
    putSet self.valueType fun v => format.int32.put 5 v.toI32,
    putSet self.subscript fun v => v.put format].flatten

def FieldPath.encoded (self : FieldPath) : Bytes :=
  self.elements.flatMap fun v => putMessage format 1 (v.encoded format)

def Violation.encoded (self : Violation) : Bytes :=
  [putSet self.ruleId (format.string.put 2),
    putSet self.message (format.string.put 3),
    putSet self.forKey (format.bool.put 4),
    putSet self.field fun v => putMessage format 5 (v.encoded format),
    putSet self.rule fun v => putMessage format 6 (v.encoded format)].flatten

/-- The bytes of the violations, each message after its length. -/
def encoded (violations : List Violation) : Bytes :=
  violations.flatMap fun v => putMessage format 1 (v.encoded format)

end Plain

section Passes
variable {format : Format} {encoder : Encoder}

theorem Subscript.put_length {v : Subscript} (fits : v.Fits) :
    (v.put format).length = 1 + v.encodedLen format := by
  cases v with
  | index v => exact format.uint64.put_length (by decide) fits
  | boolKey v =>
    rw [Subscript.encodedLen, ← format.bool_length v]
    exact format.bool.put_length (by decide) trivial
  | intKey v => exact format.int64.put_length (by decide) fits
  | uintKey v => exact format.uint64.put_length (by decide) fits
  | stringKey v => exact format.string.put_length (by decide) fits

theorem nested_twoPass {number : Nat} (short : Short number) {size : Sizer encoder}
    {write : Writer encoder} {bytes : Bytes} (inner : TwoPass size.saturated write bytes) :
    TwoPass (.nested format.varintLen size.saturated) (.nested (format.putHeader number) write)
      (putMessage format number bytes) :=
  .nested (fun n small => format.header_length short (by unfold U32_BOUND at small; omega)) inner

theorem FieldPathElement.twoPass {self : FieldPathElement} (fits : self.Fits) :
    TwoPass (self.computeSize format encoder) (self.writeTo format encoder)
      (self.encoded format) := by
  have number : ∀ n, Short n → ∀ {v : Int}, FitsI32 v →
      TwoPass (E := encoder) (.const (1 + format.int32.encodedLen v))
        (.bytes (format.int32.put n v)) (format.int32.put n v) :=
    fun n short v fits => .bytes (format.int32.put_length short fits)
  refine .saturated (.cons (.whenSet fun v set => ?_) (.cons (.whenSet fun v set => ?_)
    (.cons (.whenSet fun v _ => ?_) (.cons (.whenSet fun v _ => ?_)
      (.cons (.whenSet fun v _ => ?_) (.cons (.whenSet fun v set => ?_) .nil))))))
  · exact number 1 (by decide) (fits.fieldNumber v set)
  · exact .bytes (format.string.put_length (by decide) (fits.fieldName v set))
  · exact number 3 (by decide) v.fits
  · exact number 4 (by decide) v.fits
  · exact number 5 (by decide) v.fits
  · exact .bytes (Subscript.put_length (fits.subscript v set))

theorem FieldPath.twoPass {self : FieldPath} (fits : self.Fits) :
    TwoPass (self.computeSize format encoder) (self.writeTo format encoder) (self.encoded format) :=
  .saturated (.each self.elements fun v member =>
    nested_twoPass (by decide) (FieldPathElement.twoPass (fits v member)))

theorem Violation.twoPass {self : Violation} (fits : self.Fits) :
    TwoPass (self.computeSize format encoder) (self.writeTo format encoder)
      (self.encoded format) := by
  refine .saturated (.cons (.whenSet fun v set => ?_) (.cons (.whenSet fun v set => ?_)
    (.cons (.whenSet fun v _ => ?_) (.cons (.whenSet fun v set => ?_)
      (.cons (.whenSet fun v set => ?_) .nil)))))
  · exact .bytes (format.string.put_length (by decide) (fits.ruleId v set))
  · exact .bytes (format.string.put_length (by decide) (fits.message v set))
  · apply TwoPass.bytes
    rw [format.bool.put_length (by decide) trivial, format.bool_length]
  · exact nested_twoPass (by decide) (FieldPath.twoPass (fits.field v set))
  · exact nested_twoPass (by decide) (FieldPath.twoPass (fits.rule v set))

theorem violations_twoPass {violations : List Violation} (fits : ∀ v ∈ violations, v.Fits) :
    TwoPass (computeSize format encoder violations) (writeTo format encoder violations)
      (encoded format violations) :=
  .saturated (.each violations fun v member =>
    nested_twoPass (by decide) (Violation.twoPass (fits v member)))

end Passes

/-- A violation of a map key, and one of a message. -/
def twoViolations : List Violation :=
  [⟨some ⟨[⟨some 3, some "by_name", some .message, some .string, some .int32,
      some (.stringKey "é")⟩]⟩,
    some ⟨[⟨some 24, some "map", some .message, none, none, none⟩]⟩, some "string.min_len",
    some "too short", some true⟩,
    ⟨none, none, some "message.rule", none, none⟩]

theorem twoViolations_fit : ∀ v ∈ twoViolations ++ twoViolations, v.Fits := by
  have element : ∀ {number : Int} {name : String} {subscript : Option Subscript} {type key value},
      FitsI32 number → FitsString name → (∀ v ∈ subscript, v.Fits) →
        (⟨some number, some name, type, key, value, subscript⟩ : FieldPathElement).Fits :=
    fun number name fits => ⟨by simpa, by simpa, fits⟩
  have each : ∀ v ∈ twoViolations, v.Fits := by
    intro v member
    rcases List.mem_pair.mp member with rfl | rfl
    · refine ⟨?_, ?_, ?_, ?_⟩
      · simp only [Option.mem_some_iff, forall_eq']
        decide
      · simp only [Option.mem_some_iff, forall_eq']
        decide
      · simp only [Option.mem_some_iff, forall_eq', FieldPath.Fits, List.mem_singleton, forall_eq]
        exact element (by decide) (by decide)
          (by simp only [Option.mem_some_iff, forall_eq']; decide)
      · simp only [Option.mem_some_iff, forall_eq', FieldPath.Fits, List.mem_singleton, forall_eq]
        exact element (by decide) (by decide) (by simp)
    · refine ⟨?_, by simp, by simp, by simp⟩
      simp only [Option.mem_some_iff, forall_eq']
      decide
  exact fun v member => each v ((List.mem_append.mp member).elim id id)

/-- Every length that the first pass caches is that of the message written after it, so
that what is encoded is each message after its own length. Violations are encoded unless
they take more than the encoder lets a message take, also when lengths inside of them are
saturated. -/
theorem encodeViolations_eq (format : Format) (encoder : Encoder) {violations : List Violation}
    (fits : ∀ v ∈ violations, v.Fits) :
    encodeViolations format encoder violations =
      if (encoded format violations).length ≤ encoder.maxMessageBytes
      then some (encoded format violations) else none :=
  (violations_twoPass fits).encoded

/-- They take fewer than 200 bytes. -/
theorem encodeViolations_eq_two :
    encodeViolations .standard .listed twoViolations =
      some (encoded .standard twoViolations) := by
  have small : (encoded .standard twoViolations).length ≤ 200 := by decide +kernel
  rw [encodeViolations_eq .standard .listed fun v member =>
    twoViolations_fit v (List.mem_append_left _ member), if_pos]
  exact Nat.le_trans small (by decide)

/-! ### What is read -/

section Demands
variable {format : Format} (decoder : Decoder format)

/-- What decoding a path asks of the limits. -/
def FieldPath.demand (self : FieldPath) : decoder.Demand := fun context =>
  self.elements.foldlM (fun context _ => decoder.element ({} : FieldPathElement) some context)
    context

def Violation.demand (self : Violation) : decoder.Demand :=
  (self.field.elim some fun v => decoder.within (v.demand decoder)) >=>
    self.rule.elim some fun v => decoder.within (v.demand decoder)

def demand (violations : List Violation) : decoder.Demand := fun context =>
  violations.foldlM (fun context v => decoder.element Violation.unset (v.demand decoder) context)
    context

end Demands

section Reads
variable {format : Format} {decoder : Decoder format}

theorem readAs_put {α : Type} {Fits : α → Prop} (codec : Codec format.decodeTag Fits) {number : Nat}
    {value : α} (short : Short number) (fits : Fits value) (rest : Bytes) : ∃ body,
    format.decodeTag (codec.put number value ++ rest) = some (⟨number, codec.wireType⟩, body) ∧
      readAs codec ⟨number, codec.wireType⟩ body = some (value, rest) := by
  obtain ⟨body, tagged, read⟩ := codec.decode_put short fits rest
  refine ⟨body, tagged, ?_⟩
  rw [readAs, if_pos rfl, read]

section Fields
variable {α β : Type} {mergeField : MergeField decoder.Context α} {value : Option β}
  {effect : α → α} {number : Nat}

/-- A field with a single value. -/
theorem writes_value {Fits : β → Prop} (codec : Codec format.decodeTag Fits) (short : Short number)
    (fits : ∀ v ∈ value, Fits v) (unset : value = none → ∀ message, effect message = message)
    (merges : ∀ v, value = some v → ∀ message bytes rest context,
      readAs codec ⟨number, codec.wireType⟩ bytes = some (v, rest) →
        mergeField ⟨number, codec.wireType⟩ message bytes context =
          some (effect message, rest, context)) :
    Writes decoder mergeField (putSet value (codec.put number)) effect some := by
  have one : Writes decoder mergeField (putSet value (codec.put number)) effect
      (value.elim some fun _ => some) := by
    refine .optional unset fun v set => ⟨codec.put_pos short (fits v set), fun message rest => ?_⟩
    obtain ⟨body, tagged, read⟩ := readAs_put codec short (fits v set) rest
    exact ⟨_, body, tagged, fun context => merges v set message body rest context read⟩
  cases value <;> exact one

/-- A field with a message, which is merged into the one that is set already. -/
theorem writes_message (inner : MergeField decoder.Context β) {encoded : β → Bytes}
    {added : β → β → β} {asks : β → decoder.Demand} (short : Short number)
    (writes : ∀ v ∈ value, (encoded v).length < 2 ^ 32 ∧
      Writes decoder inner (encoded v) (added v) (asks v))
    (unset : value = none → ∀ message, effect message = message)
    (merges : ∀ v, value = some v → ∀ message bytes rest context,
      (∀ start, mergeNested decoder inner ⟨number, .lengthDelimited⟩ start bytes context =
        (decoder.within (asks v) context).map fun next => (added v start, rest, next)) →
        mergeField ⟨number, .lengthDelimited⟩ message bytes context =
          (decoder.within (asks v) context).map fun next => (effect message, rest, next)) :
    Writes decoder mergeField (putSet value fun v => putMessage format number (encoded v))
      effect (value.elim some fun v => decoder.within (asks v)) := by
  refine .optional unset fun v set => ?_
  obtain ⟨small, wrote⟩ := writes v set
  refine ⟨header_pos short small _, fun message rest => ?_⟩
  obtain ⟨body, tagged, merged⟩ := wrote.nested short small rest
  refine ⟨_, body, tagged, fun context => merges v set message body rest context fun start => ?_⟩
  rw [mergeNested, if_pos rfl, merged]

/-- A repeated field of messages. -/
theorem writes_repeated (inner : MergeField decoder.Context β) {encoded : β → Bytes}
    {push : α → β → α} {asks : β → decoder.Demand} (elem : β) {items : List β}
    (short : Short number) (writes : ∀ v ∈ items, (encoded v).length < 2 ^ 32 ∧
      ∃ effect, Writes decoder inner (encoded v) effect (asks v) ∧ effect elem = v)
    (merges : ∀ tag message bytes context, tag.number = number →
      mergeField tag message bytes context =
        (mergeElement decoder inner tag elem bytes context).map
          fun (v, rest) => (push message v, rest)) :
    Writes decoder mergeField (items.flatMap fun v => putMessage format number (encoded v))
      (fun message => items.foldl push message)
      (fun context => items.foldlM (fun context v => decoder.element elem (asks v) context)
        context) := by
  refine .each items fun v member => ?_
  obtain ⟨small, effect, wrote, done⟩ := writes v member
  refine ⟨header_pos short small _, fun message rest => ?_⟩
  obtain ⟨body, tagged, merged⟩ := wrote.nested short small rest
  refine ⟨_, body, tagged, fun context => ?_⟩
  rw [merges _ _ _ _ rfl, mergeElement, if_pos rfl, Decoder.element, Bind.kleisliRight]
  cases decoder.registerElementMemory (decoder.elementFootprint elem) context with
  | none => rfl
  | some registered =>
    simp only [Option.bind_eq_bind, Option.bind_some, merged, done]
    cases decoder.within (asks v) registered <;> rfl

end Fields

theorem length_le_flatMap {α : Type} {put : α → Bytes} {items : List α} {v : α} {number : Nat}
    (member : v ∈ items) :
    (put v).length ≤ (items.flatMap fun v => putMessage format number (put v)).length := by
  obtain ⟨before, after, rfl⟩ := List.append_of_mem member
  simp only [List.flatMap_append, List.flatMap_cons, putMessage, List.length_append]
  omega

theorem writes_type {α : Type} {mergeField : MergeField decoder.Context α}
    {value : Option ProtoType} {effect : α → α} {number : Nat} (short : Short number)
    (unset : value = none → ∀ message, effect message = message)
    (merges : ∀ v, value = some v → ∀ message bytes rest context,
      (∀ set : ProtoType → α, mergeType decoder ⟨number, format.int32.wireType⟩ set message bytes
        context = some (set v, rest, context)) →
        mergeField ⟨number, format.int32.wireType⟩ message bytes context =
          some (effect message, rest, context)) :
    Writes decoder mergeField (putSet value fun v => format.int32.put number v.toI32) effect
      some := by
  have one : Writes decoder mergeField (putSet value fun v => format.int32.put number v.toI32)
      effect (value.elim some fun _ => some) := by
    refine .optional unset fun v set => ⟨format.int32.put_pos short v.fits, fun message rest => ?_⟩
    obtain ⟨body, tagged, read⟩ := readAs_put format.int32 short v.fits rest
    refine ⟨_, body, tagged, fun context => merges v set message body rest context fun put => ?_⟩
    simp [mergeType, read, ProtoType.fromI32_toI32]
  cases value <;> exact one

theorem Subscript.put_pos {v : Subscript} (fits : v.Fits) : 0 < (v.put format).length := by
  rw [Subscript.put_length fits]
  omega

theorem Subscript.reads {v : Subscript} (fits : v.Fits) (message : FieldPathElement)
    (rest : Bytes) : ∃ tag body,
    format.decodeTag (v.put format ++ rest) = some (tag, body) ∧
      ∀ context, FieldPathElement.mergeField decoder tag message body context =
        some ({ message with subscript := some v }, rest, context) := by
  cases v with
  | index v =>
    obtain ⟨body, tagged, read⟩ := readAs_put format.uint64 (show Short 6 by decide) fits rest
    exact ⟨_, body, tagged, fun _ => by simp [FieldPathElement.mergeField, mergeValue, read]⟩
  | boolKey v =>
    obtain ⟨body, tagged, read⟩ := readAs_put format.bool (show Short 7 by decide) trivial rest
    exact ⟨_, body, tagged, fun _ => by simp [FieldPathElement.mergeField, mergeValue, read]⟩
  | intKey v =>
    obtain ⟨body, tagged, read⟩ := readAs_put format.int64 (show Short 8 by decide) fits rest
    exact ⟨_, body, tagged, fun _ => by simp [FieldPathElement.mergeField, mergeValue, read]⟩
  | uintKey v =>
    obtain ⟨body, tagged, read⟩ := readAs_put format.uint64 (show Short 9 by decide) fits rest
    exact ⟨_, body, tagged, fun _ => by simp [FieldPathElement.mergeField, mergeValue, read]⟩
  | stringKey v =>
    obtain ⟨body, tagged, read⟩ := readAs_put format.string (show Short 10 by decide) fits rest
    exact ⟨_, body, tagged, fun _ => by simp [FieldPathElement.mergeField, mergeValue, read]⟩

/-- The bytes of an element set its fields, and ask nothing. -/
theorem FieldPathElement.writes {self : FieldPathElement} (fits : self.Fits) : ∃ effect,
    Writes decoder (mergeField decoder) (self.encoded format) effect some ∧ effect {} = self := by
  have number : Writes decoder (mergeField decoder) (putSet self.fieldNumber (format.int32.put 1))
      (fun m => { m with fieldNumber := self.fieldNumber.or m.fieldNumber }) some :=
    writes_value format.int32 (by decide) fits.fieldNumber (fun none m => by simp [none])
      fun v set m bytes rest context read => by simp [mergeField, mergeValue, read, set]
  have name : Writes decoder (mergeField decoder) (putSet self.fieldName (format.string.put 2))
      (fun m => { m with fieldName := self.fieldName.or m.fieldName }) some :=
    writes_value format.string (by decide) fits.fieldName (fun none m => by simp [none])
      fun v set m bytes rest context read => by simp [mergeField, mergeValue, read, set]
  have type : Writes decoder (mergeField decoder)
      (putSet self.fieldType fun v => format.int32.put 3 v.toI32)
      (fun m => { m with fieldType := self.fieldType.or m.fieldType }) some :=
    writes_type (by decide) (fun none m => by simp [none])
      fun v set m bytes rest context read => by simp [mergeField, read, set]
  have keyType : Writes decoder (mergeField decoder)
      (putSet self.keyType fun v => format.int32.put 4 v.toI32)
      (fun m => { m with keyType := self.keyType.or m.keyType }) some :=
    writes_type (by decide) (fun none m => by simp [none])
      fun v set m bytes rest context read => by simp [mergeField, read, set]
  have valueType : Writes decoder (mergeField decoder)
      (putSet self.valueType fun v => format.int32.put 5 v.toI32)
      (fun m => { m with valueType := self.valueType.or m.valueType }) some :=
    writes_type (by decide) (fun none m => by simp [none])
      fun v set m bytes rest context read => by simp [mergeField, read, set]
  have subscript : Writes decoder (mergeField decoder)
      (putSet self.subscript fun v => v.put format)
      (fun m => { m with subscript := self.subscript.or m.subscript })
      (self.subscript.elim some fun _ => some) := by
    refine .optional (fun none m => by simp [none]) fun v set => ?_
    refine ⟨Subscript.put_pos (fits.subscript v set), fun m rest => ?_⟩
    simp only [set]
    exact Subscript.reads (fits.subscript v set) m rest
  have free : (self.subscript.elim some fun _ => some) = (some : decoder.Demand) := by
    cases self.subscript <;> rfl
  rw [free] at subscript
  refine ⟨_, number.append (name.append (type.append (keyType.append
    (valueType.append (subscript.append .nil))))), ?_⟩
  simp only [Function.comp_apply, Option.or_none]
  rfl

theorem FieldPath.foldl_push (elements : List FieldPathElement) (path : FieldPath) :
    elements.foldl (fun path v => ⟨path.elements ++ [v]⟩) path =
      ⟨path.elements ++ elements⟩ := by
  induction elements generalizing path with
  | nil => simp
  | cons v elements ih => simp [ih]

/-- The bytes of a path add its elements. -/
theorem FieldPath.writes {self : FieldPath} (fits : self.Fits)
    (small : (self.encoded format).length < 2 ^ 32) :
    Writes decoder (mergeField decoder) (self.encoded format)
      (fun path => ⟨path.elements ++ self.elements⟩) (self.demand decoder) := by
  have elements : Writes decoder (mergeField decoder) (self.encoded format)
      (fun path => self.elements.foldl (fun path v => ⟨path.elements ++ [v]⟩) path)
      (self.demand decoder) := by
    have written : ∀ v ∈ self.elements, (v.encoded format).length < 2 ^ 32 ∧
        ∃ effect, Writes decoder (FieldPathElement.mergeField decoder) (v.encoded format) effect
          some ∧ effect {} = v := by
      intro v member
      have inside : (v.encoded format).length ≤ (self.encoded format).length :=
        length_le_flatMap member
      exact ⟨by omega, FieldPathElement.writes (fits v member)⟩
    exact writes_repeated (FieldPathElement.mergeField decoder) {} (by decide) written
      fun tag path bytes context one => by simp [mergeField, one]
  simpa only [FieldPath.foldl_push] using elements

/-- The path of a violation with the elements of another one added. -/
def FieldPath.added (path : Option FieldPath) (more : Option FieldPath) : Option FieldPath :=
  (more.map fun more => ⟨(path.getD ⟨[]⟩).elements ++ more.elements⟩).or path

theorem Violation.writes {self : Violation} (fits : self.Fits)
    (small : (self.encoded format).length < 2 ^ 32) :
    ∃ effect, Writes decoder (mergeField decoder) (self.encoded format) effect
      (self.demand decoder) ∧ effect .unset = self := by
  have inside : ∀ (number : Nat) {value : Option FieldPath},
      (putSet value fun v => putMessage format number (v.encoded format)).length < 2 ^ 32 →
      (∀ v ∈ value, v.Fits) → ∀ v ∈ value, (v.encoded format).length < 2 ^ 32 ∧
        Writes decoder (FieldPath.mergeField decoder) (v.encoded format)
          (fun path => ⟨path.elements ++ v.elements⟩) (v.demand decoder) := by
    rintro number value small fits v rfl
    have inside : (v.encoded format).length < 2 ^ 32 := by
      simp only [putSet, Option.map_some, Option.getD_some, putMessage, List.length_append] at small
      omega
    exact ⟨inside, FieldPath.writes (fits v rfl) inside⟩
  simp only [encoded, List.flatten_cons, List.flatten_nil, List.length_append, List.length_nil]
    at small
  have ruleId : Writes decoder (mergeField decoder) (putSet self.ruleId (format.string.put 2))
      (fun m => { m with ruleId := self.ruleId.or m.ruleId }) some :=
    writes_value format.string (by decide) fits.ruleId (fun none m => by simp [none])
      fun v set m bytes rest context read => by simp [mergeField, mergeValue, read, set]
  have message : Writes decoder (mergeField decoder) (putSet self.message (format.string.put 3))
      (fun m => { m with message := self.message.or m.message }) some :=
    writes_value format.string (by decide) fits.message (fun none m => by simp [none])
      fun v set m bytes rest context read => by simp [mergeField, mergeValue, read, set]
  have forKey : Writes decoder (mergeField decoder) (putSet self.forKey (format.bool.put 4))
      (fun m => { m with forKey := self.forKey.or m.forKey }) some :=
    writes_value format.bool (by decide) (fun _ _ => trivial) (fun none m => by simp [none])
      fun v set m bytes rest context read => by simp [mergeField, mergeValue, read, set]
  have field : Writes decoder (mergeField decoder)
      (putSet self.field fun v => putMessage format 5 (v.encoded format))
      (fun m => { m with field := FieldPath.added m.field self.field })
      (self.field.elim some fun v => decoder.within (v.demand decoder)) :=
    writes_message (FieldPath.mergeField decoder) (by decide) (inside 5 (by omega) fits.field)
      (fun none m => by simp [none, FieldPath.added])
      fun v set m bytes rest context merged => by
        simp [mergeField, merged, set, FieldPath.added, Function.comp_def]
  have rule : Writes decoder (mergeField decoder)
      (putSet self.rule fun v => putMessage format 6 (v.encoded format))
      (fun m => { m with rule := FieldPath.added m.rule self.rule })
      (self.rule.elim some fun v => decoder.within (v.demand decoder)) :=
    writes_message (FieldPath.mergeField decoder) (by decide) (inside 6 (by omega) fits.rule)
      (fun none m => by simp [none, FieldPath.added])
      fun v set m bytes rest context merged => by
        simp [mergeField, merged, set, FieldPath.added, Function.comp_def]
  have all := ruleId.append (message.append (forKey.append (field.append (rule.append .nil))))
  rw [Demand.some_bind, Demand.some_bind, Demand.some_bind, Demand.bind_some] at all
  refine ⟨_, all, ?_⟩
  have alone : ∀ path, FieldPath.added none path = path := by
    intro path
    cases path <;> rfl
  simp only [Function.comp_apply, Violation.unset, Option.or_none, alone]
  rfl

/-- The bytes of violations add them to a list. -/
theorem violations_writes {violations : List Violation} (fits : ∀ v ∈ violations, v.Fits)
    (small : (encoded format violations).length < 2 ^ 32) :
    Writes decoder (mergeField decoder) (encoded format violations) (· ++ violations)
      (demand decoder violations) := by
  have each : Writes decoder (mergeField decoder) (encoded format violations)
      (fun before => violations.foldl (fun before v => before ++ [v]) before)
      (demand decoder violations) := by
    refine writes_repeated (Violation.mergeField decoder) .unset (by decide)
      (fun v member => ?_) fun tag before bytes context one => ?_
    · have inside : (v.encoded format).length ≤ (encoded format violations).length :=
        length_le_flatMap member
      exact ⟨by omega, Violation.writes (fits v member) (by omega)⟩
    · simp [mergeField, one]
  simpa [← List.flatMap_def] using each

theorem encodeViolations_some {encoder : Encoder} {violations : List Violation}
    (fits : ∀ v ∈ violations, v.Fits) {bytes : Bytes}
    (wrote : encodeViolations format encoder violations = some bytes) :
    (encoded format violations).length < 2 ^ 32 ∧ encoded format violations = bytes := by
  have bound := encoder.max_lt
  rw [encodeViolations, (violations_twoPass fits).encoded] at wrote
  split at wrote
  · unfold U32_BOUND at bound
    exact ⟨by omega, Option.some.inj wrote⟩
  · contradiction

end Reads

/-- Violations that were encoded are decoded as they were, by any decoder whose limits allow
what their messages ask, and by no other. The bytes of two lists one after the other are
those of both lists together. -/
theorem decodeViolations_encoded {format : Format} (encoder : Encoder) (decoder : Decoder format)
    {violations more : List Violation} (fits : ∀ v ∈ violations ++ more, v.Fits)
    {bytes rest : Bytes} (first : encodeViolations format encoder violations = some bytes)
    (second : encodeViolations format encoder more = some rest) (context : decoder.Context) :
    decodeViolations decoder bytes context =
        (demand decoder violations context).map (fun next => (violations, next)) ∧
      decodeViolations decoder (bytes ++ rest) context =
        (demand decoder (violations ++ more) context).map
          fun next => (violations ++ more, next) := by
  have fits₁ : ∀ v ∈ violations, v.Fits := fun v member => fits v (List.mem_append_left _ member)
  have fits₂ : ∀ v ∈ more, v.Fits := fun v member => fits v (List.mem_append_right _ member)
  obtain ⟨small₁, rfl⟩ := encodeViolations_some fits₁ first
  obtain ⟨small₂, rfl⟩ := encodeViolations_some fits₂ second
  have writes₁ : Writes decoder _ (encoded format violations) _ _ :=
    violations_writes fits₁ small₁
  have writes₂ : Writes decoder _ (encoded format more) _ _ := violations_writes fits₂ small₂
  have both : demand decoder (violations ++ more) =
      (demand decoder violations >=> demand decoder more) := by
    funext context
    exact List.foldlM_append
  refine ⟨?_, ?_⟩
  · rw [decodeViolations, writes₁.merge]
    rfl
  · rw [decodeViolations, (writes₁.append writes₂).merge, both]
    simp

/-- Both lists one after the other, of which the limits allow the second as well. -/
theorem decodeViolations_encoded_two : ∃ bytes left,
    encodeViolations .standard .listed twoViolations = some bytes ∧
      decodeViolations .counted (bytes ++ bytes) ⟨4096, 0, 100⟩ =
        some (twoViolations ++ twoViolations, left) := by
  have small : (encodeViolations .standard .listed twoViolations).isSome = true := by
    decide +kernel
  obtain ⟨bytes, wrote⟩ := Option.isSome_iff_exists.mp small
  have decoded := (decodeViolations_encoded .listed .counted twoViolations_fit wrote wrote
    ⟨4096, 0, 100⟩).2
  refine ⟨bytes, ⟨2048, 0, 100⟩, wrote, decoded.trans ?_⟩
  have allowed : demand .counted (twoViolations ++ twoViolations) ⟨4096, 0, 100⟩ =
      some ⟨2048, 0, 100⟩ := rfl
  rw [allowed]
  rfl

end Protovalidate
