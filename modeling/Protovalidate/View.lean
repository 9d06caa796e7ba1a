import Protovalidate.RuleValues
import Protovalidate.Lib.Vectors
import Mathlib.Data.List.Sort
import Mathlib.Logic.Function.Basic

/-!
# The validator's view of a live Python message

A view keeps the values it has fetched from its Python object in a buffer, which is
emptied when the view is dropped and used again by a later one. A message view has a
cell for each field of its type, in the order of the field numbers.
-/

namespace Protovalidate

namespace Views

/-- What the views ask of Python. Every answer may be an exception. -/
structure Python (Obj E : Type) where
  getattr : Obj → String → Except E Obj
  isNone : Obj → Bool
  eq : Obj → String → Except E Bool
  /-- What `HasField` returns for a field name. -/
  hasField : Obj → String → Except E Bool
  contains : Obj → Nat → Except E Bool
  /-- The elements of a `list`. -/
  list : Obj → Except E (List Obj)
  /-- What iterating yields, up to an exception. -/
  iterate : Obj → Except E (List (Except E Obj))
  /-- The entries of a map field, in the runtime's order. -/
  mapEntries : ProtoRuntime → Obj → Except E (List (Except E (Obj × Obj)))
  extractBool : Obj → Except E Bool
  extractInt : Obj → Except E Int
  extractUint : Obj → Except E Nat
  extractFloat : Obj → Except E Double
  extractEnum : Obj → Except E Int
  extractString : Obj → Except E String
  extractBytes : Obj → Except E Bytes
  typeError : String → E

/-- Why a read fails. -/
inductive Failure (E : Type)
  | panic
  | read (e : E)

def read {E α : Type} (result : Except E α) : Except (Failure E) α := result.mapError .read

/-- Where a message class stores one field. -/
structure FieldInfo extends Protovalidate.FieldInfo where
  number : Nat

/-- The fields of one message type, sorted by field number. -/
structure TypeInfo where
  fields : List FieldInfo
  sorted : fields.Pairwise fun x y => x.number < y.number

theorem sorted_fields {fields : List FieldInfo} (distinct : (fields.map FieldInfo.number).Nodup) :
    (fields.insertionSort fun x y => x.number ≤ y.number).Pairwise
      fun x y => x.number < y.number := by
  have sorted := List.pairwise_insertionSort (fun x y : FieldInfo => x.number ≤ y.number) fields
  have different : (fields.insertionSort fun x y => x.number ≤ y.number).Pairwise
      fun x y => x.number ≠ y.number := by
    have same := List.perm_insertionSort (fun x y : FieldInfo => x.number ≤ y.number) fields
    exact List.pairwise_map.mp ((same.map FieldInfo.number).nodup_iff.mpr distinct)
  exact (sorted.and different).imp fun both => lt_of_le_of_ne both.1 both.2

namespace TypeInfo

def build (fields : List FieldInfo) (distinct : (fields.map FieldInfo.number).Nodup) :
    TypeInfo where
  fields := fields.insertionSort fun x y => x.number ≤ y.number
  sorted := sorted_fields distinct

def find (info : TypeInfo) (number : Nat) : Option (Nat × FieldInfo) := do
  let slot ← Vectors.binarySearchByKey FieldInfo.number number info.fields
  let field ← info.fields[slot]?
  return (slot, field)

theorem find_eq_some {info : TypeInfo} {number slot : Nat} {stored : FieldInfo} :
    info.find number = some (slot, stored) ↔
      info.fields[slot]? = some stored ∧ stored.number = number := by
  simp only [find, Option.bind_eq_bind, Option.bind_eq_some_iff, Option.pure_def,
    Option.some.injEq, Prod.mk.injEq, Vectors.binarySearchByKey_eq_some info.sorted]
  constructor
  · rintro ⟨i, ⟨x, element, same⟩, _, element', rfl, rfl⟩
    rw [element] at element'
    cases element'
    exact ⟨element, same⟩
  · rintro ⟨element, same⟩
    exact ⟨slot, ⟨stored, element, same⟩, stored, element, rfl, rfl⟩

theorem find_eq_none {info : TypeInfo} {number : Nat} :
    info.find number = none ↔ ∀ stored ∈ info.fields, stored.number ≠ number := by
  constructor
  · intro missed stored member same
    obtain ⟨slot, element⟩ := List.getElem?_of_mem member
    rw [find_eq_some.mpr ⟨element, same⟩] at missed
    cases missed
  · intro absent
    cases found : info.find number with
    | none => rfl
    | some pair =>
      obtain ⟨element, same⟩ := find_eq_some.mp found
      exact absurd same (absent pair.2 (List.mem_of_getElem? element))

/-- A type has one field of a number. -/
theorem number_inj (info : TypeInfo) {one other : FieldInfo} (member : one ∈ info.fields)
    (member' : other ∈ info.fields) (same : one.number = other.number) : one = other := by
  obtain ⟨slot, element⟩ := List.getElem?_of_mem member
  obtain ⟨slot', element'⟩ := List.getElem?_of_mem member'
  have found := find_eq_some.mpr ⟨element, same⟩
  rw [find_eq_some.mpr ⟨element', rfl⟩] at found
  cases found
  rfl

end TypeInfo

section Reads
variable {Obj E : Type}

/-- The field's value, `none` when it is not set and the runtime has no default object
for it. -/
def FieldInfo.fetch (field : FieldInfo) (py : Python Obj E) (message : Obj) :
    Except E (Option Obj) :=
  match field.oneof with
  | some (oneof, name) => do
    let selected ← py.getattr message oneof
    if py.isNone selected then return none
    let same ← py.eq (← py.getattr selected "field") name
    if !same then return none
    return some (← py.getattr selected "value")
  | none => do
    let value ← py.getattr message field.attr
    return if py.isNone value then none else some value

/-- The field values a view has fetched, indexed like its type's field list. -/
abbrev Values (Obj : Type) := List (Option (Option Obj))

/-- The elements of a list, and how many its buffer has room for. -/
structure Items (Obj : Type) where
  elements : List Obj
  capacity : Nat

namespace Items

/-- A buffer that is not allocated yet. -/
def empty : Items Obj := ⟨[], 0⟩

def push (items : Items Obj) (item : Obj) : Items Obj where
  elements := items.elements ++ [item]
  capacity := max items.capacity (items.elements.length + 1)

def clear (items : Items Obj) : Items Obj := { items with elements := [] }

end Items

/-- Appends the elements of a repeated field. -/
def listItems (runtime : ProtoRuntime) (py : Python Obj E) (object : Obj) (items : Items Obj) :
    Except E (Items Obj) :=
  match runtime with
  | .protobufPy => do
    let elements ← py.list object
    return elements.foldl Items.push items
  | .google => do
    let yielded ← py.iterate object
    yielded.foldlM (fun items item => return items.push (← item)) items

/-- Whether a field that tracks presence is set. What was fetched is asked for where
the runtime does not track it. -/
def isSet {σ : Type} (runtime : ProtoRuntime) (py : Python Obj E) (message : Obj)
    (field : FieldInfo) (kind : Kind) (fetched : σ → σ × Except (Failure E) Bool) (view : σ) :
    σ × Except (Failure E) Bool :=
  match runtime with
  | .google => (view, read (py.hasField message field.attr))
  | .protobufPy =>
    if field.oneof.isSome || kind == .singular .message then fetched view
    else (view, read do py.contains (← py.getattr message "_present") field.number)

end Reads

/-! ### The views, and the buffers they share -/

/-- A value that was fetched for the field of a number. -/
structure Fetch (Obj : Type) where
  number : Nat
  value : Option Obj

/-- A message, read through its Python object. A message field that is not set has none
and reads as a message with nothing set. -/
structure MessageView (Obj : Type) where
  object : Option (Obj × TypeInfo)
  values : Values Obj
  /-- What the view has fetched, in order. Nothing reads it. -/
  fetches : List (Fetch Obj)

/-- A repeated field, whose elements are all fetched on first access. -/
structure ListView (Obj : Type) where
  element : Singular
  object : Option Obj
  messageType : Option TypeInfo
  items : Option (Items Obj)

/-- A map field. -/
structure MapView (Obj : Type) where
  key : Scalar
  element : Singular
  object : Option Obj
  messageType : Option TypeInfo

inductive View (Obj : Type)
  | message (view : MessageView Obj)
  | list (view : ListView Obj)
  | map (view : MapView Obj)

/-- A field's value, as the validator sees it. -/
inductive Val (Obj : Type)
  | atom (a : Atom)
  | view (view : View Obj)

/-- The state of one validation, with the buffers that dropped views returned. -/
structure Ctx (Obj : Type) where
  runtime : ProtoRuntime
  freeValues : List (Values Obj)
  freeItems : List (Items Obj)

/-- The exceptions and message types of the Python runtimes. -/
abbrev PyRuntime (E : Type) : Runtime := ⟨E, TypeInfo⟩

section Operations
variable {Obj E : Type}

/-- An empty value buffer with at least `len` slots, a returned one when possible. -/
def Ctx.takeValues (ctx : Ctx Obj) (len : Nat) : Values Obj × Ctx Obj :=
  if len = 0 then ([], ctx)
  else
    let fits := fun values : Values Obj => decide (len ≤ values.length)
    match (Vectors.rposition fits ctx.freeValues).bind (Vectors.swapRemove ctx.freeValues) with
    | some (values, rest) => (values, { ctx with freeValues := rest })
    | none => (List.replicate len none, ctx)

example : (⟨.google, [[none], [none, none]], []⟩ : Ctx Nat).takeValues 1 =
    ([none, none], ⟨.google, [[none]], []⟩) := rfl

/-- The last returned element buffer, or a new one. -/
def Ctx.takeItems (ctx : Ctx Obj) : Items Obj × Ctx Obj :=
  (ctx.freeItems.getLast?.getD .empty, { ctx with freeItems := ctx.freeItems.dropLast })

def MessageView.new (ctx : Ctx Obj) (object : Option (Obj × TypeInfo)) :
    MessageView Obj × Ctx Obj :=
  let (values, ctx) := ctx.takeValues ((object.map fun object => object.2.fields.length).getD 0)
  (⟨object, values, []⟩, ctx)

def scalarValue (py : Python Obj E) (scalar : Scalar) (value : Obj) : Except E Atom :=
  match scalar with
  | .bool => (py.extractBool value).map .bool
  | .int32 | .int64 | .sint32 | .sint64 | .sfixed32 | .sfixed64 => (py.extractInt value).map .int
  | .uint32 | .uint64 | .fixed32 | .fixed64 => (py.extractUint value).map .uint
  | .float | .double => (py.extractFloat value).map .double
  | .string => (py.extractString value).map .string
  | .bytes => (py.extractBytes value).map .bytes

def default : Scalar → Atom
  | .bool => .bool false
  | .int32 | .int64 | .sint32 | .sint64 | .sfixed32 | .sfixed64 => .int 0
  | .uint32 | .uint64 | .fixed32 | .fixed64 => .uint 0
  | .float | .double => .double ⟨0⟩
  | .string => .string ""
  | .bytes => .bytes []

def singular (py : Python Obj E) (ctx : Ctx Obj) (kind : Singular) (value : Option Obj)
    (messageType : Option TypeInfo) : Except (Failure E) (Val Obj × Ctx Obj) :=
  match kind, value, messageType with
  | .message, some value, some info =>
    let (view, ctx) := MessageView.new ctx (some (value, info))
    .ok (.view (.message view), ctx)
  | .message, some _, none =>
    .error (.read (py.typeError "a message field was read without its message type"))
  | .message, none, _ =>
    let (view, ctx) := MessageView.new ctx none
    .ok (.view (.message view), ctx)
  | .enum, some value, _ => read do return (.atom (.enum (← py.extractEnum value)), ctx)
  | .enum, none, _ => .ok (.atom (.enum 0), ctx)
  | .scalar scalar, some value, _ => read do return (.atom (← scalarValue py scalar value), ctx)
  | .scalar scalar, none, _ => .ok (.atom (default scalar), ctx)

/-- A field's value as the validator sees it; the default when there is none. -/
def convert (py : Python Obj E) (ctx : Ctx Obj) (kind : Kind) (value : Option Obj)
    (messageType : Option TypeInfo) : Except (Failure E) (Val Obj × Ctx Obj) :=
  match kind with
  | .singular kind => singular py ctx kind value messageType
  | .list element => .ok (.view (.list ⟨element, value, messageType, none⟩), ctx)
  | .map key element => .ok (.view (.map ⟨key, element, value, messageType⟩), ctx)

/-- A conversion's value, and the context after it. -/
def converted (ctx : Ctx Obj) (result : Except (Failure E) (Val Obj × Ctx Obj)) :
    Ctx Obj × Except (Failure E) (Option (Val Obj)) :=
  match result with
  | .ok (val, ctx) => (ctx, .ok (some val))
  | .error e => (ctx, .error e)

namespace MessageView

/-- The value of the field in a slot, fetched when it was not before. -/
def value (view : MessageView Obj) (py : Python Obj E) (object : Obj) (slot : Nat)
    (field : FieldInfo) : MessageView Obj × Except (Failure E) (Option Obj) :=
  match view.values[slot]? with
  | none => (view, .error .panic)
  | some (some value) => (view, .ok value)
  | some none =>
    match field.fetch py object with
    | .error e => (view, .error (.read e))
    | .ok fetched =>
      ({ view with
          values := view.values.set slot (some fetched)
          fetches := view.fetches ++ [⟨field.number, fetched⟩] }, .ok fetched)

def has (view : MessageView Obj) (py : Python Obj E) (ctx : Ctx Obj)
    (field : Field (PyRuntime E)) : MessageView Obj × Except (Failure E) Bool :=
  match view.object with
  | none => (view, .ok false)
  | some (object, info) =>
    match info.find field.number with
    | none => (view, .ok false)
    | some (slot, stored) =>
      isSet ctx.runtime py object stored field.kind
        (fun view =>
          let (view, value) := view.value py object slot stored
          (view, value.map Option.isSome)) view

def get (view : MessageView Obj) (py : Python Obj E) (ctx : Ctx Obj)
    (field : Field (PyRuntime E)) :
    MessageView Obj × Ctx Obj × Except (Failure E) (Option (Val Obj)) :=
  match view.object with
  | none => (view, converted ctx (convert py ctx field.kind none field.messageType))
  | some (object, info) =>
    match info.find field.number with
    | none => (view, ctx, .ok none)
    | some (slot, stored) =>
      match view.value py object slot stored with
      | (view, .error e) => (view, ctx, .error e)
      | (view, .ok value) =>
        (view, converted ctx (convert py ctx field.kind value field.messageType))

end MessageView

namespace ListView

/-- The elements. A buffer that they could not all be fetched into is lost. -/
def fetched (view : ListView Obj) (py : Python Obj E) (ctx : Ctx Obj) :
    ListView Obj × Ctx Obj × Except (Failure E) (List Obj) :=
  match view.items, view.object with
  | some items, _ => (view, ctx, .ok items.elements)
  | none, none => ({ view with items := some .empty }, ctx, .ok [])
  | none, some object =>
    let (items, ctx) := ctx.takeItems
    match listItems ctx.runtime py object items with
    | .error e => (view, ctx, .error (.read e))
    | .ok items => ({ view with items := some items }, ctx, .ok items.elements)

def get (view : ListView Obj) (py : Python Obj E) (ctx : Ctx Obj) (index : Nat) :
    ListView Obj × Ctx Obj × Except (Failure E) (Option (Val Obj)) :=
  match view.fetched py ctx with
  | (view, ctx, .error e) => (view, ctx, .error e)
  | (view, ctx, .ok elements) =>
    match elements[index]? with
    | none => (view, ctx, .ok none)
    | some item => (view, converted ctx (singular py ctx view.element (some item) view.messageType))

end ListView

/-- The entry at a place, on a turn of the loop over the entries of a map. -/
def MapView.entry (view : MapView Obj) (py : Python Obj E) (ctx : Ctx Obj) (index : Nat) :
    Ctx Obj × Except (Failure E) (Option (Atom × Val Obj)) :=
  let turn : Except E (Option (Atom × Obj)) := do
    let some object := view.object | return none
    let entries ← py.mapEntries ctx.runtime object
    let some entry := entries[index]? | return none
    let (key, value) ← entry
    return some (← scalarValue py view.key key, value)
  match turn with
  | .error e => (ctx, .error (.read e))
  | .ok none => (ctx, .ok none)
  | .ok (some (key, value)) =>
    let (ctx, val) := converted ctx (singular py ctx view.element (some value) view.messageType)
    (ctx, val.map (Option.map fun val => (key, val)))

/-- Empties the buffer of a view and returns it, unless it has no memory of its own. -/
def View.drop (view : View Obj) (ctx : Ctx Obj) : Ctx Obj :=
  match view with
  | .message view =>
    let values := view.values.map fun _ => none
    if values.isEmpty then ctx else { ctx with freeValues := ctx.freeValues ++ [values] }
  | .list view =>
    match view.items with
    | none => ctx
    | some items =>
      let items := items.clear
      if items.capacity > 0 then { ctx with freeItems := ctx.freeItems ++ [items] } else ctx
  | .map _ => ctx

end Operations

end Views

end Protovalidate
