import Mathlib.Algebra.Order.Ring.Int
import Mathlib.Data.List.Basic

/-!
# The Protobuf wire format

A message is fields one after the other, each a tag and a value that says where it
ends. What reads and writes single values is taken from elsewhere, as a `Format`; the
one that the format's documentation describes is `Format.standard`.
-/

namespace Protovalidate

namespace Wire

/-- How the value of a field says where it ends. -/
inductive WireType
  | varint
  | lengthDelimited
  deriving DecidableEq, Repr

structure Tag where
  number : Nat
  wireType : WireType
  deriving DecidableEq, Repr

/-- A field number whose tag takes one byte. -/
def Short (number : Nat) : Prop := 0 < number ∧ number < 16

instance (number : Nat) : Decidable (Short number) := instDecidableAnd

/-- How the values that fit a type are put in fields and read again. -/
structure Codec (decodeTag : List UInt8 → Option (Tag × List UInt8)) {α : Type}
    (Fits : α → Prop) where
  wireType : WireType
  put : Nat → α → List UInt8
  encodedLen : α → Nat
  decode : List UInt8 → Option (α × List UInt8)
  put_length : ∀ {number : Nat} {value : α}, Short number → Fits value →
    (put number value).length = 1 + encodedLen value
  decode_put : ∀ {number : Nat} {value : α}, Short number → Fits value → ∀ rest, ∃ body,
    decodeTag (put number value ++ rest) = some (⟨number, wireType⟩, body) ∧
      decode body = some (value, rest)

def FitsI32 (value : Int) : Prop := -2 ^ 31 ≤ value ∧ value < 2 ^ 31

def FitsI64 (value : Int) : Prop := -2 ^ 63 ≤ value ∧ value < 2 ^ 63

def FitsU64 (value : Nat) : Prop := value < 2 ^ 64

def FitsString (value : String) : Prop := value.utf8ByteSize < 2 ^ 63

instance (value : Int) : Decidable (FitsI32 value) := instDecidableAnd

instance (value : Int) : Decidable (FitsI64 value) := instDecidableAnd

instance (value : Nat) : Decidable (FitsU64 value) := Nat.decLt _ _

instance (value : String) : Decidable (FitsString value) := Nat.decLt _ _

/-- What reads and writes single values. -/
structure Format where
  decodeTag : List UInt8 → Option (Tag × List UInt8)
  int32 : Codec decodeTag FitsI32
  int64 : Codec decodeTag FitsI64
  uint64 : Codec decodeTag FitsU64
  bool : Codec decodeTag fun _ : Bool => True
  boolEncodedLen : Nat
  bool_length : ∀ b, bool.encodedLen b = boolEncodedLen
  string : Codec decodeTag FitsString
  /-- The number of bytes of a length, and the tag and the length before as many bytes. -/
  varintLen : Nat → Nat
  putHeader : Nat → Nat → List UInt8
  decodeLen : List UInt8 → Option (Nat × List UInt8)
  header_length : ∀ {number n : Nat}, Short number → n < 2 ^ 32 →
    (putHeader number n).length = 1 + varintLen n
  decode_header : ∀ {number n : Nat}, Short number → n < 2 ^ 32 → ∀ rest, ∃ body,
    decodeTag (putHeader number n ++ rest) = some (⟨number, .lengthDelimited⟩, body) ∧
      decodeLen body = some (n, rest)

/-- Merges a field into a message, from what follows its tag, in a context that may refuse. -/
abbrev MergeField (κ α : Type) := Tag → α → List UInt8 → κ → Option (α × List UInt8 × κ)

/-- What merges the fields of a message, and limits what a message may hold. The context
tells what is left of the limits. -/
structure Decoder (format : Format) where
  Context : Type
  elementFootprint : {α : Type} → α → Nat
  registerElementMemory : Nat → Context → Option Context
  registerUnknownField : Context → Option Context
  decodeUnknownField : Tag → List UInt8 → Context → Option (List UInt8 × Context)
  /-- The context of the fields in a message inside, and the one after them. -/
  enter : Context → Option Context
  leave : Context → Context
  mergeFields : {α : Type} → MergeField Context α → α → List UInt8 → Context → Option (α × Context)
  mergeLengthDelimited : {α : Type} → MergeField Context α → α → List UInt8 → Context →
    Option (α × List UInt8 × Context)
  merge_nil : ∀ {α : Type} (mergeField : MergeField Context α) message context,
    mergeFields mergeField message [] context = some (message, context)
  merge_refused : ∀ {α : Type} (mergeField : MergeField Context α) message bytes context tag body,
    format.decodeTag bytes = some (tag, body) → bytes ≠ [] →
    mergeField tag message body context = none →
      mergeFields mergeField message bytes context = none
  merge_field : ∀ {α : Type} (mergeField : MergeField Context α) message bytes context tag body
    merged rest next, format.decodeTag bytes = some (tag, body) → rest.length < bytes.length →
    mergeField tag message body context = some (merged, rest, next) →
      mergeFields mergeField message bytes context = mergeFields mergeField merged rest next
  merge_nested : ∀ {α : Type} (mergeField : MergeField Context α) message bytes context n rest,
    format.decodeLen bytes = some (n, rest) → n ≤ rest.length →
      mergeLengthDelimited mergeField message bytes context = do
        let inner ← enter context
        let (merged, inner) ← mergeFields mergeField message (rest.take n) inner
        return (merged, rest.drop n, leave inner)

/-- What decoding asks of the limits. -/
abbrev Decoder.Demand {format : Format} (decoder : Decoder format) :=
  decoder.Context → Option decoder.Context

/-- Demands one after the other. -/
theorem Demand.assoc {κ : Type} (first second third : κ → Option κ) :
    (first >=> second) >=> third = first >=> (second >=> third) := by
  funext context
  exact Option.bind_assoc _ _ _

theorem Demand.some_bind {κ : Type} (asks : κ → Option κ) : some >=> asks = asks := rfl

theorem Demand.bind_some {κ : Type} (asks : κ → Option κ) : asks >=> some = asks := by
  funext context
  simp [Bind.kleisliRight]

namespace Decoder
variable {format : Format} (decoder : Decoder format)

/-- What a message inside asks. -/
def within (inner : decoder.Demand) : decoder.Demand := fun context => do
  let inner ← (decoder.enter context).bind inner
  return decoder.leave inner

/-- What an element of a repeated field asks. -/
def element {α : Type} (elem : α) (inner : decoder.Demand) : decoder.Demand :=
  decoder.registerElementMemory (decoder.elementFootprint elem) >=> decoder.within inner

end Decoder

section Merge
variable {α β : Type} {format : Format} {decoder : Decoder format}
  {mergeField : MergeField decoder.Context α}

/-- The bytes of some fields, with what merging them does to a message, and asks of the
limits. -/
inductive Writes (decoder : Decoder format) (mergeField : MergeField decoder.Context α) :
    List UInt8 → (α → α) → decoder.Demand → Prop
  | nil : Writes decoder mergeField [] id some
  | field {bytes bytes' : List UInt8} {effect effect' : α → α} {asks asks' : decoder.Demand} :
    0 < bytes.length →
    (∀ message rest, ∃ tag body, format.decodeTag (bytes ++ rest) = some (tag, body) ∧
      ∀ context, mergeField tag message body context =
        (asks context).map fun next => (effect message, rest, next)) →
    Writes decoder mergeField bytes' effect' asks' →
    Writes decoder mergeField (bytes ++ bytes') (effect' ∘ effect) (asks >=> asks')

theorem Writes.append {bytes bytes' : List UInt8} {effect effect' : α → α}
    {asks asks' : decoder.Demand} (first : Writes decoder mergeField bytes effect asks)
    (second : Writes decoder mergeField bytes' effect' asks') :
    Writes decoder mergeField (bytes ++ bytes') (effect' ∘ effect) (asks >=> asks') := by
  induction first with
  | nil => exact second
  | field taken reads _ ih =>
    rw [List.append_assoc, ← Function.comp_assoc, Demand.assoc]
    exact .field taken reads ih

/-- One field that may be unset. -/
theorem Writes.optional {value : Option β} {put : β → List UInt8} {effect : α → α}
    {asks : β → decoder.Demand} (unset : value = none → ∀ message, effect message = message)
    (field : ∀ b, value = some b → 0 < (put b).length ∧ ∀ message rest, ∃ tag body,
      format.decodeTag (put b ++ rest) = some (tag, body) ∧
        ∀ context, mergeField tag message body context =
          (asks b context).map fun next => (effect message, rest, next)) :
    Writes decoder mergeField ((value.map put).getD []) effect (value.elim some asks) := by
  cases value with
  | none =>
    have same : effect = id := funext (unset rfl)
    rw [same]
    exact .nil
  | some b =>
    obtain ⟨taken, reads⟩ := field b rfl
    have one := Writes.field taken reads Writes.nil
    rwa [List.append_nil, Function.id_comp, Demand.bind_some] at one

/-- The fields of a repeated one. -/
theorem Writes.each {put : β → List UInt8} {effect : β → α → α} {asks : β → decoder.Demand}
    (items : List β)
    (fields : ∀ b ∈ items, 0 < (put b).length ∧ ∀ message rest, ∃ tag body,
      format.decodeTag (put b ++ rest) = some (tag, body) ∧
        ∀ context, mergeField tag message body context =
          (asks b context).map fun next => (effect b message, rest, next)) :
    Writes decoder mergeField (items.flatMap put)
      (fun message => items.foldl (fun message b => effect b message) message)
      (fun context => items.foldlM (fun context b => asks b context) context) := by
  induction items with
  | nil => exact .nil
  | cons b items ih =>
    obtain ⟨taken, reads⟩ := fields b List.mem_cons_self
    exact .field taken reads (ih fun b' later => fields b' (List.mem_cons_of_mem b later))

/-- Merging what was written has its effect, if the limits allow what it asks. -/
theorem Writes.merge {bytes : List UInt8} {effect : α → α} {asks : decoder.Demand}
    (writes : Writes decoder mergeField bytes effect asks) (message : α)
    (context : decoder.Context) :
    decoder.mergeFields mergeField message bytes context =
      (asks context).map fun next => (effect message, next) := by
  induction writes generalizing message context with
  | nil => exact decoder.merge_nil mergeField message context
  | @field first rest effect effect' asks asks' taken reads _ ih =>
    obtain ⟨tag, body, tagged, merged⟩ := reads message rest
    have shorter : rest.length < (first ++ rest).length := by
      rw [List.length_append]
      omega
    cases allowed : asks context with
    | none =>
      rw [decoder.merge_refused mergeField message _ context tag body tagged
        (List.ne_nil_of_length_pos (by omega)) (by rw [merged, allowed]; rfl)]
      simp [Bind.kleisliRight, allowed]
    | some next =>
      rw [decoder.merge_field mergeField message _ context tag body _ rest next tagged shorter
        (by rw [merged, allowed]; rfl), ih]
      simp [Bind.kleisliRight, allowed]

/-- A nested message is read from its field as it was written. -/
theorem Writes.nested {bytes : List UInt8} {effect : α → α} {asks : decoder.Demand}
    (writes : Writes decoder mergeField bytes effect asks) {number : Nat} (short : Short number)
    (small : bytes.length < 2 ^ 32) (rest : List UInt8) : ∃ body,
      format.decodeTag ((format.putHeader number bytes.length ++ bytes) ++ rest) =
        some (⟨number, .lengthDelimited⟩, body) ∧
      ∀ message context, decoder.mergeLengthDelimited mergeField message body context =
        (decoder.within asks context).map fun next => (effect message, rest, next) := by
  rw [List.append_assoc]
  obtain ⟨body, tagged, length⟩ := format.decode_header short small (bytes ++ rest)
  refine ⟨body, tagged, fun message context => ?_⟩
  have whole : bytes.length ≤ (bytes ++ rest).length := by
    rw [List.length_append]
    omega
  rw [decoder.merge_nested mergeField message body context _ _ length whole, List.take_left,
    List.drop_left, Decoder.within]
  cases decoder.enter context with
  | none => rfl
  | some inner =>
    simp only [Option.bind_eq_bind, Option.bind_some, writes.merge]
    cases asks inner <;> rfl

theorem header_pos {number n : Nat} (short : Short number) (small : n < 2 ^ 32)
    (bytes : List UInt8) : 0 < (format.putHeader number n ++ bytes).length := by
  rw [List.length_append, format.header_length short small]
  omega

end Merge

theorem Codec.put_pos {decodeTag : List UInt8 → Option (Tag × List UInt8)} {α : Type}
    {Fits : α → Prop} (codec : Codec decodeTag Fits) {number : Nat} {value : α}
    (short : Short number) (fits : Fits value) : 0 < (codec.put number value).length := by
  rw [codec.put_length short fits]
  omega

/-! ### The documented format -/

/-- A number in base 128, every digit but the last marked. -/
def varint (n : Nat) : List UInt8 :=
  if n < 128 then [UInt8.ofNat n] else UInt8.ofNat (n % 128 + 128) :: varint (n / 128)
termination_by n
decreasing_by omega

/-- Reads a number of no more than `limit` digits. -/
def readVarint : Nat → List UInt8 → Option (Nat × List UInt8)
  | 0, _ => none
  | _ + 1, [] => none
  | limit + 1, b :: rest =>
    if b.toNat < 128 then some (b.toNat, rest)
    else (readVarint limit rest).map fun read => (b.toNat - 128 + 128 * read.1, read.2)

theorem readVarint_varint {limit n : Nat} (small : n < 128 ^ (limit + 1)) (rest : List UInt8) :
    readVarint (limit + 1) (varint n ++ rest) = some (n, rest) := by
  induction limit generalizing n with
  | zero =>
    have one : n < 128 := by simpa using small
    have digit : (UInt8.ofNat n).toNat = n := by
      rw [UInt8.toNat_ofNat']
      omega
    rw [varint, if_pos one]
    simp [readVarint, digit, one]
  | succ limit ih =>
    rw [varint]
    split
    · rename_i one
      have digit : (UInt8.ofNat n).toNat = n := by
        rw [UInt8.toNat_ofNat']
        omega
      simp [readVarint, digit, one]
    · have digit : (UInt8.ofNat (n % 128 + 128)).toNat = n % 128 + 128 := by
        rw [UInt8.toNat_ofNat']
        omega
      have marked : ¬n % 128 + 128 < 128 := by omega
      have fewer : n / 128 < 128 ^ (limit + 1) := by
        rw [Nat.div_lt_iff_lt_mul (by omega), ← pow_succ]
        exact small
      rw [List.cons_append, readVarint, digit, if_neg marked, ih fewer]
      simp [Nat.mod_add_div]

theorem varint_small {n : Nat} (small : n < 128) : (varint n).length = 1 := by
  rw [varint, if_pos small]
  rfl

namespace WireType

def code : WireType → Nat
  | .varint => 0
  | .lengthDelimited => 2

def ofCode : Nat → Option WireType
  | 0 => some .varint
  | 2 => some .lengthDelimited
  | _ => none

theorem ofCode_code (wireType : WireType) : ofCode wireType.code = some wireType := by
  cases wireType <;> rfl

end WireType

def putTag (number : Nat) (wireType : WireType) : List UInt8 :=
  varint (number * 8 + wireType.code)

def readTag (bytes : List UInt8) : Option (Tag × List UInt8) := do
  let (n, rest) ← readVarint 10 bytes
  let wireType ← WireType.ofCode (n % 8)
  return (⟨n / 8, wireType⟩, rest)

theorem code_lt (wireType : WireType) : wireType.code < 8 := by
  cases wireType <;> decide

theorem putTag_length {number : Nat} (short : Short number) (wireType : WireType) :
    (putTag number wireType).length = 1 := by
  have small := code_lt wireType
  obtain ⟨-, short⟩ := short
  exact varint_small (by omega)

theorem readTag_putTag {number : Nat} (short : Short number) (wireType : WireType)
    (rest : List UInt8) :
    readTag (putTag number wireType ++ rest) = some (⟨number, wireType⟩, rest) := by
  have small := code_lt wireType
  obtain ⟨-, short⟩ := short
  have read : readVarint 10 (varint (number * 8 + wireType.code) ++ rest) =
      some (number * 8 + wireType.code, rest) :=
    readVarint_varint (by omega) rest
  have code : (number * 8 + wireType.code) % 8 = wireType.code := by omega
  have same : (number * 8 + wireType.code) / 8 = number := by omega
  simp [readTag, putTag, read, code, same, WireType.ofCode_code]

/-- A value that is written as a number of 64 bits. -/
def varintCodec {α : Type} (Fits : α → Prop) (toNat : α → Nat) (ofNat : Nat → α)
    (bounded : ∀ {value : α}, Fits value → toNat value < 2 ^ 64)
    (back : ∀ {value : α}, Fits value → ofNat (toNat value) = value) : Codec readTag Fits where
  wireType := .varint
  put number value := putTag number .varint ++ varint (toNat value)
  encodedLen value := (varint (toNat value)).length
  decode bytes := (readVarint 10 bytes).map fun read => (ofNat read.1, read.2)
  put_length short _ := by rw [List.length_append, putTag_length short]
  decode_put := by
    intro number value short fits rest
    refine ⟨varint (toNat value) ++ rest, ?_, ?_⟩
    · rw [List.append_assoc, readTag_putTag short]
    · have read : readVarint 10 (varint (toNat value) ++ rest) = some (toNat value, rest) :=
        readVarint_varint (Nat.lt_trans (bounded fits) (by decide)) rest
      simp [read, back fits]

/-- A number of 64 bits as a signed one of `w`. -/
def toSigned (w n : Nat) : Int := (n : Int).bmod (2 ^ w)

def ofSigned (value : Int) : Nat := (value % 2 ^ 64).toNat

theorem ofSigned_lt (value : Int) : ofSigned value < 2 ^ 64 := by
  unfold ofSigned
  omega

/-- Sign extension to 64 bits leaves the low ones as they are. -/
theorem toSigned_ofSigned {w : Nat} {value : Int} (width : w < 64) (low : -2 ^ w ≤ value)
    (high : value < 2 ^ w) : toSigned (w + 1) (ofSigned value) = value := by
  have positive : (0 : Int) ≤ value % 2 ^ 64 := Int.emod_nonneg _ (by decide)
  have divides : ((2 ^ (w + 1) : Nat) : Int) ∣ 2 ^ 64 := by
    rw [Nat.cast_pow]
    exact pow_dvd_pow 2 (by omega)
  have width : ((2 ^ (w + 1) : Nat) : Int) = 2 ^ w * 2 := by
    rw [Nat.cast_pow, pow_succ]
    rfl
  rw [toSigned, ofSigned, Int.toNat_of_nonneg positive, ← Int.emod_bmod,
    Int.emod_emod_of_dvd _ divides, Int.emod_bmod]
  apply Int.bmod_eq_of_le_mul_two
  · rw [width]
    omega
  · rw [width]
    omega

def utf8 (s : String) : List UInt8 := s.toByteArray.data.toList

theorem fromUTF8_utf8 (s : String) : String.fromUTF8? ⟨(utf8 s).toArray⟩ = some s := by
  have same : (⟨(utf8 s).toArray⟩ : ByteArray) = s.toByteArray := by simp [utf8]
  rw [same, String.fromUTF8?, dif_pos s.isValidUTF8]
  rfl

def stringCodec : Codec readTag FitsString where
  wireType := .lengthDelimited
  put number s := putTag number .lengthDelimited ++ (varint (utf8 s).length ++ utf8 s)
  encodedLen s := (varint (utf8 s).length).length + (utf8 s).length
  decode bytes := do
    let (n, rest) ← readVarint 10 bytes
    if rest.length < n then none
    else do
      let s ← String.fromUTF8? ⟨(rest.take n).toArray⟩
      return (s, rest.drop n)
  put_length short _ := by
    rw [List.length_append, List.length_append, putTag_length short]
  decode_put := by
    intro number s short fits rest
    refine ⟨varint (utf8 s).length ++ (utf8 s ++ rest), ?_, ?_⟩
    · rw [List.append_assoc, readTag_putTag short, List.append_assoc]
    · have read : readVarint 10 (varint (utf8 s).length ++ (utf8 s ++ rest)) =
          some ((utf8 s).length, utf8 s ++ rest) :=
        readVarint_varint (Nat.lt_trans fits (by decide)) _
      have whole : ¬(utf8 s ++ rest).length < (utf8 s).length := by
        rw [List.length_append]
        omega
      simp only [read, Option.bind_eq_bind, Option.bind_some]
      rw [if_neg whole, List.take_left, List.drop_left, fromUTF8_utf8]
      rfl

/-- Base 128 for numbers, two's complement for signed ones, and UTF-8 for text. -/
def Format.standard : Format where
  decodeTag := readTag
  int32 := varintCodec FitsI32 ofSigned (toSigned 32)
    (fun _ => ofSigned_lt _) (fun fits => toSigned_ofSigned (by omega) fits.1 fits.2)
  int64 := varintCodec FitsI64 ofSigned (toSigned 64)
    (fun _ => ofSigned_lt _) (fun fits => toSigned_ofSigned (by omega) fits.1 fits.2)
  uint64 := varintCodec FitsU64 id id (fun fits => fits) (fun _ => rfl)
  bool := varintCodec (fun _ => True) Bool.toNat (fun n => n != 0)
    (by intro value _; cases value <;> decide) (by intro value _; cases value <;> rfl)
  boolEncodedLen := 1
  bool_length b := varint_small (by cases b <;> decide)
  string := stringCodec
  varintLen n := (varint n).length
  putHeader number n := putTag number .lengthDelimited ++ varint n
  decodeLen := readVarint 10
  header_length short _ := by rw [List.length_append, putTag_length short]
  decode_header := by
    intro number n short small rest
    refine ⟨varint n ++ rest, ?_, readVarint_varint (Nat.lt_trans small (by decide)) rest⟩
    rw [List.append_assoc, readTag_putTag short]

/-! ### Limits that are counted -/

/-- What is left of the memory for elements, of the fields that are not known, and of the
depth of messages. -/
structure Limits where
  memory : Nat
  unknown : Nat
  depth : Nat
  deriving DecidableEq, Repr

/-- Merges fields until the bytes end. A field takes a byte at least. -/
def mergeUpTo {κ α : Type} (decodeTag : List UInt8 → Option (Tag × List UInt8))
    (mergeField : MergeField κ α) : Nat → α → List UInt8 → κ → Option (α × κ)
  | _, message, [], context => some (message, context)
  | 0, _, _ :: _, _ => none
  | fuel + 1, message, b :: bytes, context => do
    let (tag, body) ← decodeTag (b :: bytes)
    let (message, rest, context) ← mergeField tag message body context
    if bytes.length < rest.length then none
    else mergeUpTo decodeTag mergeField fuel message rest context

/-- As many steps as there are bytes are enough. -/
theorem mergeUpTo_enough {κ α : Type} {decodeTag : List UInt8 → Option (Tag × List UInt8)}
    {mergeField : MergeField κ α} {fuel fuel' : Nat} {message : α} {bytes : List UInt8}
    {context : κ} (enough : bytes.length ≤ fuel) (enough' : bytes.length ≤ fuel') :
    mergeUpTo decodeTag mergeField fuel message bytes context =
      mergeUpTo decodeTag mergeField fuel' message bytes context := by
  induction fuel generalizing fuel' message bytes context with
  | zero =>
    rw [List.eq_nil_of_length_eq_zero (Nat.le_zero.mp enough)]
    cases fuel' <;> rfl
  | succ fuel ih =>
    cases bytes with
    | nil => cases fuel' <;> rfl
    | cons b bytes =>
      obtain ⟨fuel', rfl⟩ := Nat.exists_eq_succ_of_ne_zero (Nat.ne_of_gt (Nat.lt_of_lt_of_le
        (Nat.zero_lt_succ _) enough'))
      rw [List.length_cons] at enough enough'
      simp only [mergeUpTo]
      congr 1
      funext ⟨tag, body⟩
      congr 1
      funext ⟨message, rest, context⟩
      dsimp only
      split
      · rfl
      · exact ih (by omega) (by omega)

namespace Limits

def registerUnknown (limits : Limits) : Option Limits :=
  if limits.unknown = 0 then none else some { limits with unknown := limits.unknown - 1 }

def enter (limits : Limits) : Option Limits :=
  if limits.depth = 0 then none else some { limits with depth := limits.depth - 1 }

def leave (limits : Limits) : Limits := { limits with depth := limits.depth + 1 }

end Limits

/-- A decoder that counts. -/
def Decoder.counted : Decoder Format.standard where
  Context := Limits
  elementFootprint _ := 256
  registerElementMemory n limits :=
    if limits.memory < n then none else some { limits with memory := limits.memory - n }
  registerUnknownField := Limits.registerUnknown
  decodeUnknownField tag bytes limits := do
    let limits ← limits.registerUnknown
    let (n, rest) ← readVarint 10 bytes
    match tag.wireType with
    | .varint => return (rest, limits)
    | .lengthDelimited => if rest.length < n then none else return (rest.drop n, limits)
  enter := Limits.enter
  leave := Limits.leave
  mergeFields mergeField message bytes :=
    mergeUpTo readTag mergeField bytes.length message bytes
  mergeLengthDelimited mergeField message bytes limits := do
    let (n, rest) ← readVarint 10 bytes
    if rest.length < n then none
    else do
      let inner ← limits.enter
      let (merged, inner) ←
        mergeUpTo readTag mergeField (rest.take n).length message (rest.take n) inner
      return (merged, rest.drop n, inner.leave)
  merge_nil _ _ _ := rfl
  merge_refused := by
    intro α mergeField message bytes limits tag body tagged some refused
    obtain ⟨b, bytes, rfl⟩ := List.exists_cons_of_ne_nil some
    simp only [Format.standard] at tagged
    simp [mergeUpTo, tagged, refused]
  merge_field := by
    intro α mergeField message bytes limits tag body merged rest next tagged shorter took
    obtain ⟨b, bytes, rfl⟩ := List.exists_cons_of_length_pos (Nat.zero_lt_of_lt shorter)
    rw [List.length_cons] at shorter
    simp only [Format.standard] at tagged
    simp only [List.length_cons, mergeUpTo, tagged, took, Option.bind_eq_bind, Option.bind_some]
    rw [if_neg (by omega)]
    exact mergeUpTo_enough (by omega) (Nat.le_refl _)
  merge_nested := by
    intro α mergeField message bytes limits n rest length whole
    simp only [Format.standard] at length
    simp only [length, Option.bind_eq_bind, Option.bind_some]
    rw [if_neg (by omega)]

end Wire

end Protovalidate
