import Protovalidate.PathsResolve

/-!
# The values of a violation, as Python reads them

The values of a violation are resolved when one of them is first read, from its
paths and from the message as it is by then. The rules that the rule path is
looked up in are those of the field that the field path ended on.
-/

namespace Protovalidate

/-- Which Python Protobuf runtime a message comes from. -/
inductive ProtoRuntime
  | protobufPy
  | google

/-- A field as a Python descriptor has it. The oneof is known by its local name,
and a synthetic one is none. -/
structure PyField where
  descriptor : FieldDescriptor
  localName : String
  oneof : Option String

namespace PyField

def number (field : PyField) : Nat := field.descriptor.number

def name (field : PyField) : String := field.descriptor.name

end PyField

/-- The fields of the Python classes for the message types of a pool. -/
structure PyTypes (pool : DescriptorPool) where
  fields : MessageIndex → List PyField
  declared : ∀ index, (fields index).map PyField.descriptor = (pool.message index).fields
  positive : ∀ index, ∀ field ∈ fields index, 0 < field.number

/-- What Python code reads. A message answers for its attributes, a list or a
map for its items; an attribute or an item that is missing is an error. -/
inductive PyObject
  | none
  | atom (a : Atom)
  | oneof (field : String) (value : PyObject)
  | message (runtime : ProtoRuntime) (index : MessageIndex) (attr : String → Option PyObject)
  | container (item : Atom → Option PyObject)

def PyObject.getItem : PyObject → Atom → Option PyObject
  | .container item, key => item key
  | _, _ => .none

/-- A subscript as the key of a Python container. -/
def Subscript.value : Subscript → Atom
  | .index i => .int i
  | .boolKey b => .bool b
  | .intKey i => .int i
  | .uintKey u => .int u
  | .stringKey s => .string s

/-- Where a message class stores one field. -/
structure FieldInfo where
  attr : String
  oneof : Option (String × String)

def ProtoRuntime.fieldInfo (runtime : ProtoRuntime) (field : PyField) : FieldInfo :=
  match runtime with
  | .google => ⟨field.name, .none⟩
  | .protobufPy => ⟨field.localName, field.oneof.map fun oneof => (oneof, field.name)⟩

/-- The field's value, `none` when it is not set and the runtime has no default
object for it, or cannot be read. -/
def FieldInfo.fetch (info : FieldInfo) (attr : String → Option PyObject) : Option PyObject :=
  match info.oneof with
  | some (oneof, name) =>
    match attr oneof with
    | some (.oneof selected value) => if selected = name then some value else none
    | _ => none
  | none =>
    match attr info.attr with
    | some .none => none
    | value => value

/-- A field, and the message type that declares it. -/
structure Leaf where
  index : MessageIndex
  field : PyField

/-- What rules are read off. -/
inductive RuleScope
  | field (leaf : Leaf)
  | message (index : MessageIndex)

namespace PyTypes
variable {pool : DescriptorPool} (types : PyTypes pool)

/-- Resolves one path element to a field of a message type. Both runtimes look
for the number first, and for the name if no field has the number. -/
def findField (index : MessageIndex) (element : FieldPathElement) : Option PyField :=
  let number := element.fieldNumber.getD 0
  let numbered :=
    if number ≠ 0 then (types.fields index).find? fun field => (field.number : Int) == number
    else none
  let named := element.fieldName.bind fun name =>
    (types.fields index).find? fun field => field.name == name
  numbered.or named

/-- One hop of a path walk: the value of the element's field, and the field. -/
def stepElement (current : PyObject) (element : FieldPathElement) : Option (PyObject × Leaf) :=
  match current with
  | .message runtime index attr => do
    let field ← types.findField index element
    let value ← (runtime.fieldInfo field).fetch attr
    return (value, ⟨index, field⟩)
  | _ => none

/-- Walks the elements of a field path from a value, and the field it is of. -/
def walkElements (forKey : Bool) : PyObject → Option Leaf → List FieldPathElement →
    PyObject × Option Leaf
  | current, leaf, [] => (current, leaf)
  | current, _, element :: rest =>
    match types.stepElement current element with
    | none => (.none, none)
    | some (value, field) =>
      match element.subscript with
      | none => walkElements forKey value (some field) rest
      | some subscript =>
        -- The key is the value in question, not a step towards it.
        if forKey && rest.isEmpty then (.atom subscript.value, some field)
        else
          match value.getItem subscript.value with
          | none => (.none, none)
          | some item => walkElements forKey item (some field) rest

/-- Walks a field path over the validated message, to the value and the field
that the path ended on. -/
def walkFieldPath (message : PyObject) (path : Option FieldPath) (forKey : Bool) :
    PyObject × Option Leaf :=
  match path with
  | none => (.none, none)
  | some path =>
    if path.elements.isEmpty then (.none, none)
    else types.walkElements forKey message none path.elements

/-- Walks the elements of a rule path. -/
def walkRules : PyObject → List FieldPathElement → PyObject
  | current, [] => current
  | current, element :: rest =>
    match types.stepElement current element with
    | none => .none
    | some (value, _) =>
      match element.subscript with
      | none => walkRules value rest
      | some subscript =>
        match value.getItem subscript.value with
        | none => .none
        | some item => walkRules item rest

end PyTypes

/-- The rules a rule path is looked up in: the leaf field's, or the message's
when there is no leaf field. -/
def ruleScope (index : MessageIndex) : Option Leaf → RuleScope
  | some leaf => .field leaf
  | none => .message index

namespace PyTypes
variable {pool : DescriptorPool} (types : PyTypes pool)

/-- Walks a rule path over the rules of `scope`, as `rulesOf` reads them off the
options. -/
def resolveRuleValue (rulesOf : RuleScope → Option PyObject) (scope : RuleScope)
    (path : Option FieldPath) : PyObject :=
  match path with
  | none => .none
  | some path =>
    if path.elements.isEmpty then .none
    else
      match rulesOf scope with
      | none => .none
      | some root => types.walkRules root path.elements

/-- Where the rule path of a violation is looked up. -/
def scopeOf (index : MessageIndex) (message : PyObject) (violation : Violation) : RuleScope :=
  ruleScope index
    (types.walkFieldPath message violation.field (violation.forKey.getD false)).2

/-- Recovers the field's value and the rule's for one violation from its
paths. -/
def resolveValues (rulesOf : RuleScope → Option PyObject) (index : MessageIndex)
    (message : PyObject) (violation : Violation) : PyObject × PyObject :=
  ((types.walkFieldPath message violation.field (violation.forKey.getD false)).1,
    types.resolveRuleValue rulesOf (types.scopeOf index message violation) violation.rule)

/-- The field of a message type with the number of an element. -/
def numberedField (index : MessageIndex) (element : FieldPathElement) : Option PyField :=
  (types.fields index).find? fun field => element.fieldNumber == some (field.number : Int)

/-- The field that a path of declared fields ends on. -/
def endsOn : MessageIndex → List FieldPathElement → Option Leaf
  | _, [] => none
  | index, [element] => (types.numberedField index element).map fun field => ⟨index, field⟩
  | index, element :: rest => do
    let field ← types.numberedField index element
    let next ← messageType field.descriptor
    endsOn next rest

end PyTypes

/-- A message holds a value in a field. A oneof member is set when the oneof
selects it, and any other field unless it is `None`. -/
inductive ProtoRuntime.Holds (attr : String → Option PyObject) (field : PyField)
    (value : PyObject) : ProtoRuntime → Prop
  | google : attr field.name = some value → value ≠ .none → Holds attr field value .google
  | plain : field.oneof = none → attr field.localName = some value → value ≠ .none →
    Holds attr field value .protobufPy
  | selected {oneof : String} : field.oneof = some oneof →
    attr oneof = some (.oneof field.name value) → Holds attr field value .protobufPy

namespace PyTypes
variable {pool : DescriptorPool} (types : PyTypes pool)

/-- Every field on a path holds a value, and every list or map the item under
its subscript, but for the key that a path may end with. -/
inductive Readable (types : PyTypes pool) (forKey : Bool) :
    PyObject → List FieldPathElement → Prop
  | done (value : PyObject) : Readable types forKey value []
  | field {runtime : ProtoRuntime} {index : MessageIndex} {attr : String → Option PyObject}
      {element : FieldPathElement} {field : PyField} {value : PyObject}
      {rest : List FieldPathElement} :
    types.numberedField index element = some field → runtime.Holds attr field value →
    element.subscript = none → Readable types forKey value rest →
    Readable types forKey (.message runtime index attr) (element :: rest)
  | item {runtime : ProtoRuntime} {index : MessageIndex} {attr : String → Option PyObject}
      {element : FieldPathElement} {field : PyField} {value item : PyObject}
      {subscript : Subscript} {rest : List FieldPathElement} :
    types.numberedField index element = some field → runtime.Holds attr field value →
    element.subscript = some subscript → value.getItem subscript.value = some item →
    Readable types forKey item rest →
    Readable types forKey (.message runtime index attr) (element :: rest)
  | key {runtime : ProtoRuntime} {index : MessageIndex} {attr : String → Option PyObject}
      {element : FieldPathElement} {field : PyField} {value : PyObject} {subscript : Subscript} :
    types.numberedField index element = some field → runtime.Holds attr field value →
    element.subscript = some subscript → forKey = true →
    Readable types forKey (.message runtime index attr) [element]

/-- A value of the kind its field declares. -/
inductive Fits (types : PyTypes pool) (runtime : ProtoRuntime) : DescriptorKind → PyObject → Prop
  | scalar (s : Scalar) (a : Atom) : Fits types runtime (.singular (.scalar s)) (.atom a)
  | enum (index : EnumIndex) (a : Atom) : Fits types runtime (.singular (.enum index)) (.atom a)
  | message {index : MessageIndex} {attr : String → Option PyObject} :
    (∀ field ∈ types.fields index, ∀ value, runtime.Holds attr field value →
      Fits types runtime field.descriptor.kind value) →
    Fits types runtime (.singular (.message index)) (.message runtime index attr)
  | list {element : SingularKind} {item : Atom → Option PyObject} :
    (∀ key value, item key = some value → Fits types runtime (.singular element) value) →
    Fits types runtime (.list element) (.container item)
  | map {key : Scalar} {value : SingularKind} {item : Atom → Option PyObject} :
    (∀ key held, item key = some held → Fits types runtime (.singular value) held) →
    Fits types runtime (.map key value) (.container item)

end PyTypes

/-- The message type that a value of a kind holds. -/
def kindMessage : DescriptorKind → Option MessageIndex
  | .singular (.message index) => some index
  | .list (.message index) => some index
  | .map _ (.message index) => some index
  | _ => none

theorem messageType_kind (field : FieldDescriptor) :
    messageType field = kindMessage field.kind := by
  unfold messageType kindMessage
  split <;> simp_all

/-- What `fetch` reads is what the message holds. -/
theorem ProtoRuntime.fetch_iff {runtime : ProtoRuntime} {field : PyField}
    {attr : String → Option PyObject} {value : PyObject} :
    (runtime.fieldInfo field).fetch attr = some value ↔ runtime.Holds attr field value := by
  constructor
  · intro fetched
    cases runtime with
    | google =>
      simp only [fieldInfo, FieldInfo.fetch] at fetched
      split at fetched
      · cases fetched
      · rename_i missing
        refine .google fetched fun none => missing ?_
        rw [fetched, none]
    | protobufPy =>
      cases member : field.oneof with
      | none =>
        simp only [fieldInfo, FieldInfo.fetch, member, Option.map_none] at fetched
        split at fetched
        · cases fetched
        · rename_i missing
          refine .plain member fetched fun none => missing ?_
          rw [fetched, none]
      | some oneof =>
        simp only [fieldInfo, FieldInfo.fetch, member, Option.map_some] at fetched
        split at fetched
        · rename_i selected held found
          split at fetched
          · rename_i same
            cases fetched
            exact .selected member (same ▸ found)
          · cases fetched
        · cases fetched
  · intro held
    cases held with
    | google found set => simp [fieldInfo, FieldInfo.fetch, found, set]
    | plain member found set => simp [fieldInfo, FieldInfo.fetch, member, found, set]
    | selected member found => simp [fieldInfo, FieldInfo.fetch, member, found]

namespace PyTypes
variable {pool : DescriptorPool} {types : PyTypes pool}

/-- A field is found by the number of an element, or else by its name. -/
theorem findField_eq {index : MessageIndex} {element : FieldPathElement} {number : Int}
    (carried : element.fieldNumber = some number) :
    types.findField index element = (types.numberedField index element).or
      (element.fieldName.bind fun name =>
        (types.fields index).find? fun field => field.name == name) := by
  simp only [findField, numberedField, carried, Option.getD_some]
  by_cases zero : number = 0
  · have unnumbered : (types.fields index).find?
        (fun field => some number == some (field.number : Int)) = none := by
      apply List.find?_eq_none.mpr
      intro field member
      have positive := types.positive index field member
      rw [beq_iff_eq, Option.some_inj]
      omega
    rw [unnumbered, if_neg (not_not.mpr zero)]
  · have same : (fun field : PyField => (field.number : Int) == number) =
        fun field => some number == some (field.number : Int) := by
      funext field
      rw [Bool.eq_iff_iff, beq_iff_eq, beq_iff_eq, Option.some_inj]
      exact eq_comm
    rw [if_pos zero, same]

theorem numberedField_carried {index : MessageIndex} {element : FieldPathElement}
    {field : PyField} (numbered : types.numberedField index element = some field) :
    element.fieldNumber = some (field.number : Int) := by
  simpa using List.find?_some numbered

/-- An element with the number of a field is resolved to it. -/
theorem findField_numbered {index : MessageIndex} {element : FieldPathElement} {field : PyField}
    (numbered : types.numberedField index element = some field) :
    types.findField index element = some field := by
  rw [findField_eq (numberedField_carried numbered), numbered, Option.some_or]

/-- An element that carries a number is resolved by it, or not at all, unless no
field has the number and one has the name. -/
theorem findField_number_iff {index : MessageIndex} {element : FieldPathElement} {number : Int}
    (carried : element.fieldNumber = some number) :
    (∀ field, types.findField index element = some field → (field.number : Int) = number) ↔
      (∃ field ∈ types.fields index, (field.number : Int) = number) ∨
        ∀ field ∈ types.fields index, element.fieldName ≠ some field.name := by
  rw [findField_eq carried]
  cases numbered : types.numberedField index element with
  | some field =>
    have member := List.mem_of_find?_eq_some numbered
    have own : (field.number : Int) = number :=
      Option.some.inj ((numberedField_carried numbered).symm.trans carried)
    refine ⟨fun _ => .inl ⟨field, member, own⟩, fun _ other found => ?_⟩
    cases found
    exact own
  | none =>
    have unnumbered : ∀ field ∈ types.fields index, (field.number : Int) ≠ number := by
      intro field member same
      have missing := List.find?_eq_none.mp numbered field member
      rw [carried, same] at missing
      simp at missing
    constructor
    · intro resolved
      refine .inr fun field member named => ?_
      cases found : (types.fields index).find? fun other => other.name == field.name with
      | none =>
        have missing := List.find?_eq_none.mp found field member
        simp at missing
      | some other =>
        refine unnumbered other (List.mem_of_find?_eq_some found) (resolved other ?_)
        rw [named, Option.none_or, Option.bind_some, found]
    · rintro (⟨field, member, same⟩ | unnamed) other found
      · exact absurd same (unnumbered field member)
      · obtain ⟨name, named, found⟩ := Option.bind_eq_some_iff.mp found
        have same : other.name = name := by simpa using List.find?_some found
        exact absurd (named.trans (congrArg some same.symm))
          (unnamed other (List.mem_of_find?_eq_some found))

/-- One hop over a declared field, when it holds a value. -/
theorem stepElement_held {runtime : ProtoRuntime} {index : MessageIndex}
    {attr : String → Option PyObject} {element : FieldPathElement} {field : PyField}
    {value : PyObject} (numbered : types.numberedField index element = some field)
    (held : runtime.Holds attr field value) :
    types.stepElement (.message runtime index attr) element = some (value, ⟨index, field⟩) := by
  simp [stepElement, findField_numbered numbered, ProtoRuntime.fetch_iff.mpr held]

/-- One hop over a declared field that holds none. -/
theorem stepElement_unset {runtime : ProtoRuntime} {index : MessageIndex}
    {attr : String → Option PyObject} {element : FieldPathElement} {field : PyField}
    (numbered : types.numberedField index element = some field)
    (unset : ∀ value, ¬runtime.Holds attr field value) :
    types.stepElement (.message runtime index attr) element = none := by
  have fetched : (runtime.fieldInfo field).fetch attr = none := by
    apply Option.eq_none_iff_forall_ne_some.mpr
    intro value found
    exact unset value (ProtoRuntime.fetch_iff.mp found)
  simp [stepElement, findField_numbered numbered, fetched]

/-- An item holds what its container does. -/
theorem Fits.item {runtime : ProtoRuntime} {kind : DescriptorKind} {value item : PyObject}
    {key : Atom} (fits : Fits types runtime kind value) (found : value.getItem key = some item) :
    ∃ inner, Fits types runtime inner item ∧ kindMessage inner = kindMessage kind := by
  cases fits with
  | scalar s a => cases found
  | enum index a => cases found
  | message _ => cases found
  | @list element _ items =>
    refine ⟨.singular element, items _ _ found, ?_⟩
    cases element <;> rfl
  | @map _ element _ items =>
    refine ⟨.singular element, items _ _ found, ?_⟩
    cases element <;> rfl

/-- Only a message can be read further. -/
theorem Fits.message_or {runtime : ProtoRuntime} {kind : DescriptorKind} {value : PyObject}
    (fits : Fits types runtime kind value) {index : MessageIndex}
    (holds : kindMessage kind = some index) :
    (∃ attr, value = .message runtime index attr ∧
      ∀ field ∈ types.fields index, ∀ inner, runtime.Holds attr field inner →
        Fits types runtime field.descriptor.kind inner) ∨
    ∃ item, value = .container item := by
  cases fits with
  | scalar s a => cases holds
  | enum index a => cases holds
  | message fields =>
    cases holds
    exact .inl ⟨_, rfl, fields⟩
  | list _ => exact .inr ⟨_, rfl⟩
  | map _ => exact .inr ⟨_, rfl⟩

theorem endsOn_cons {index : MessageIndex} {element : FieldPathElement}
    {rest : List FieldPathElement} {leaf : Leaf}
    (ends : types.endsOn index (element :: rest) = some leaf) :
    ∃ field, types.numberedField index element = some field ∧
      ((rest = [] ∧ leaf = ⟨index, field⟩) ∨
        ∃ next, messageType field.descriptor = some next ∧ types.endsOn next rest = some leaf) := by
  cases rest with
  | nil =>
    obtain ⟨field, numbered, same⟩ := Option.map_eq_some_iff.mp ends
    exact ⟨field, numbered, .inl ⟨rfl, same.symm⟩⟩
  | cons second rest =>
    obtain ⟨field, numbered, ends⟩ := Option.bind_eq_some_iff.mp ends
    obtain ⟨next, holds, ends⟩ := Option.bind_eq_some_iff.mp ends
    exact ⟨field, numbered, .inr ⟨next, holds, ends⟩⟩

section Readable
variable {runtime : ProtoRuntime} {index : MessageIndex} {attr : String → Option PyObject}
  {element : FieldPathElement} {field : PyField} {value : PyObject} {forKey : Bool}
  {rest : List FieldPathElement}

theorem Readable.held (numbered : types.numberedField index element = some field)
    (readable : Readable types forKey (.message runtime index attr) (element :: rest)) :
    ∃ value, runtime.Holds attr field value := by
  cases readable with
  | field named held _ _ =>
    cases numbered.symm.trans named
    exact ⟨_, held⟩
  | item named held _ _ _ =>
    cases numbered.symm.trans named
    exact ⟨_, held⟩
  | key named held _ _ =>
    cases numbered.symm.trans named
    exact ⟨_, held⟩

theorem holds_unique {other : PyObject} (held : runtime.Holds attr field value)
    (held' : runtime.Holds attr field other) : value = other :=
  Option.some.inj ((ProtoRuntime.fetch_iff.mpr held).symm.trans (ProtoRuntime.fetch_iff.mpr held'))

theorem readable_field (numbered : types.numberedField index element = some field)
    (held : runtime.Holds attr field value) (plain : element.subscript = none) :
    Readable types forKey (.message runtime index attr) (element :: rest) ↔
      Readable types forKey value rest := by
  constructor
  · intro readable
    cases readable with
    | field named held' _ readable =>
      cases numbered.symm.trans named
      exact holds_unique held held' ▸ readable
    | item _ _ subscripted _ _ => cases plain.symm.trans subscripted
    | key _ _ subscripted _ => cases plain.symm.trans subscripted
  · exact .field numbered held plain

theorem readable_item {subscript : Subscript}
    (numbered : types.numberedField index element = some field)
    (held : runtime.Holds attr field value) (subscripted : element.subscript = some subscript)
    (further : ¬(forKey = true ∧ rest = [])) :
    Readable types forKey (.message runtime index attr) (element :: rest) ↔
      ∃ item, value.getItem subscript.value = some item ∧ Readable types forKey item rest := by
  constructor
  · intro readable
    cases readable with
    | field _ _ plain _ => cases plain.symm.trans subscripted
    | item named held' same found readable =>
      cases numbered.symm.trans named
      cases subscripted.symm.trans same
      exact ⟨_, holds_unique held held' ▸ found, readable⟩
    | key _ _ _ key => exact absurd ⟨key, rfl⟩ further
  · rintro ⟨item, found, readable⟩
    exact .item numbered held subscripted found readable

end Readable

/-- What a walk over a path of declared fields ends on. -/
def Lands (readable : Prop) (leaf : Leaf) (reached : Option Leaf) : Prop :=
  (readable ∧ reached = some leaf) ∨ (¬readable ∧ reached = none)

/-- A walk over a path of declared fields ends on the last of them when the path
can be read, and on none otherwise. The induction is on the path. -/
theorem walkElements_lands {runtime : ProtoRuntime} {leaf : Leaf} (forKey : Bool) :
    ∀ (path : List FieldPathElement) (current : PyObject) (start : Option Leaf)
      {kind : DescriptorKind} {index : MessageIndex},
    Fits types runtime kind current → kindMessage kind = some index →
    types.endsOn index path = some leaf →
    Lands (Readable types forKey current path) leaf
      (types.walkElements forKey current start path).2
  | [], _, _, _, _, _, _, ends => by cases ends
  | element :: rest, current, start, kind, index, fits, holds, ends => by
    rcases fits.message_or holds with ⟨attr, rfl, inner⟩ | ⟨item, rfl⟩
    · obtain ⟨field, numbered, ends⟩ := endsOn_cons ends
      have member := List.mem_of_find?_eq_some numbered
      have after : ∀ value kind, Fits types runtime kind value →
          kindMessage kind = kindMessage field.descriptor.kind →
          Lands (Readable types forKey value rest) leaf
            (types.walkElements forKey value (some ⟨index, field⟩) rest).2 := by
        intro value kind fits same
        rcases ends with ⟨rfl, rfl⟩ | ⟨next, holds, ends⟩
        · exact .inl ⟨.done value, rfl⟩
        · have holds : kindMessage kind = some next := by rw [same, ← messageType_kind, holds]
          exact walkElements_lands forKey rest value _ fits holds ends
      by_cases held : ∃ value, runtime.Holds attr field value
      · obtain ⟨value, held⟩ := held
        have fits := inner field member value held
        rw [walkElements, stepElement_held numbered held]
        cases subscripted : element.subscript with
        | none =>
          rw [readable_field numbered held subscripted]
          exact after value _ fits rfl
        | some subscript =>
          by_cases last : forKey = true ∧ rest = []
          · obtain ⟨key, rfl⟩ := last
            rcases ends with ⟨-, rfl⟩ | ⟨_, _, ends⟩
            · exact .inl ⟨.key numbered held subscripted key, by simp [key]⟩
            · cases ends
          · rw [readable_item numbered held subscripted last]
            have further : (forKey && rest.isEmpty) = false := by
              simpa using last
            cases found : value.getItem subscript.value with
            | none =>
              refine .inr ⟨?_, by simp [further, found]⟩
              rintro ⟨item, present, -⟩
              cases present
            | some item =>
              obtain ⟨kind, fits, same⟩ := fits.item found
              have lands := after item kind fits same
              simpa [further, found] using lands
      · refine .inr ⟨fun readable => held (readable.held numbered), ?_⟩
        rw [walkElements, stepElement_unset numbered (not_exists.mp held)]
    · refine .inr ⟨fun readable => ?_, rfl⟩
      cases readable

theorem walkFieldPath_elements (message : PyObject) (violation : Violation) (forKey : Bool) :
    types.walkFieldPath message violation.field forKey =
      if violation.elements.isEmpty then (.none, none)
      else types.walkElements forKey message none violation.elements := by
  unfold Violation.elements
  cases violation.field <;> rfl

/-- Where the rule path of a violation is looked up, when its field path is one
of declared fields. -/
theorem scopeOf_lands {runtime : ProtoRuntime} {index : MessageIndex} {message : PyObject}
    {violation : Violation} {leaf : Leaf}
    (typed : Fits types runtime (.singular (.message index)) message)
    (declared : types.endsOn index violation.elements = some leaf) :
    let readable := Readable types (violation.forKey.getD false) message violation.elements
    (readable ∧ types.scopeOf index message violation = .field leaf) ∨
      (¬readable ∧ types.scopeOf index message violation = .message index) := by
  have nonempty : violation.elements ≠ [] := by
    intro empty
    rw [empty] at declared
    cases declared
  have lands := walkElements_lands (violation.forKey.getD false) violation.elements message none
    typed rfl declared
  unfold scopeOf
  rw [walkFieldPath_elements, if_neg (by simpa using nonempty)]
  rcases lands with ⟨readable, reached⟩ | ⟨unreadable, reached⟩
  · exact .inl ⟨readable, by rw [reached]; rfl⟩
  · exact .inr ⟨unreadable, by rw [reached]; rfl⟩

/-- For a violation whose field path is one of declared fields, the rule path is
looked up in the rules of the field that the path ends on exactly when every
field on it holds a value by then, and every list and map the item; otherwise it
is looked up in the rules of the message. An element that carries a number is
resolved by it or not at all exactly when the number is declared, or its name is
not. -/
theorem looked_up_in_field_rules_iff {runtime : ProtoRuntime} {index : MessageIndex}
    {message : PyObject} {violation : Violation} {leaf : Leaf}
    (typed : Fits types runtime (.singular (.message index)) message)
    (declared : types.endsOn index violation.elements = some leaf) :
    (types.scopeOf index message violation = .field leaf ↔
      Readable types (violation.forKey.getD false) message violation.elements) ∧
    (types.scopeOf index message violation = .message index ↔
      ¬Readable types (violation.forKey.getD false) message violation.elements) ∧
    (∀ rulesOf, Readable types (violation.forKey.getD false) message violation.elements →
      (types.resolveValues rulesOf index message violation).2 =
        types.resolveRuleValue rulesOf (.field leaf) violation.rule) ∧
    ∀ holder element number, element.fieldNumber = some number →
      ((∀ field, types.findField holder element = some field → (field.number : Int) = number) ↔
        (∃ field ∈ types.fields holder, (field.number : Int) = number) ∨
          ∀ field ∈ types.fields holder, element.fieldName ≠ some field.name) := by
  rcases scopeOf_lands typed declared with ⟨readable, scope⟩ | ⟨unreadable, scope⟩
  · refine ⟨by simp [scope, readable], by simp [scope, readable], ?_, ?_⟩
    · intro rulesOf _
      simp only [resolveValues, scope]
    · exact fun _ _ _ => findField_number_iff
  · refine ⟨by simp [scope, unreadable], by simp [scope, unreadable], ?_, ?_⟩
    · exact fun _ readable => absurd readable unreadable
    · exact fun _ _ _ => findField_number_iff

end PyTypes

/-! ### The paths that a walk reports -/

section Reported
variable {R : Runtime} {self : Validator R}

theorem Held.field_named {pool : DescriptorPool} {held : Held R} {element : FieldPathElement}
    {field : FieldDescriptor} (named : held.field pool element = some field) :
    ∃ index, held.kind = .singular (.message index) ∧
      elementField pool index element = some field := by
  unfold Held.field at named
  split at named
  · rename_i index kind
    exact ⟨index, kind, named⟩
  · cases named

theorem Held.item_kind {held item : Held R} {subscript : Subscript}
    (found : held.item subscript = some item) :
    kindMessage item.kind = kindMessage held.kind := by
  unfold Held.item at found
  split at found
  · rename_i element l kind value
    split at found
    · split at found
      · split at found
        · cases found
          rw [kind]
          cases element <;> rfl
        · cases found
      · cases found
    · cases found
  · rename_i key element map kind value
    obtain ⟨entry, -, rfl⟩ := Option.map_eq_some_iff.mp found
    rw [kind]
    cases element <;> rfl
  · cases found

theorem enterField_named {held next : Held R} {element : FieldPathElement}
    (entered : self.enterField held element = some next) :
    ∃ field, held.field self.pool element = some field ∧ next.kind = field.kind := by
  unfold Validator.enterField at entered
  split at entered
  · rename_i field m named value
    obtain ⟨v, -, rfl⟩ := Option.map_eq_some_iff.mp entered
    exact ⟨field, named, rfl⟩
  · cases entered

/-- What an element leads to is held by a field that it names. -/
theorem enter_named {held next : Held R} {element : FieldPathElement}
    (entered : self.enter held element = some next) :
    ∃ field, held.field self.pool element = some field ∧
      kindMessage next.kind = kindMessage field.kind := by
  cases subscripted : element.subscript with
  | none =>
    simp only [Validator.enter, subscripted] at entered
    obtain ⟨field, named, kind⟩ := enterField_named entered
    exact ⟨field, named, by rw [kind]⟩
  | some subscript =>
    simp only [Validator.enter, subscripted] at entered
    obtain ⟨container, entered, found⟩ := Option.bind_eq_some_iff.mp entered
    obtain ⟨field, named, kind⟩ := enterField_named entered
    exact ⟨field, named, by rw [Held.item_kind found, kind]⟩

/-- A path that leads on names fields, the first of them of a message. -/
theorem followed_message {held next : Held R} {path : List FieldPathElement}
    {element : FieldPathElement} {field : FieldDescriptor}
    (followed : self.follow held path = some next)
    (named : next.field self.pool element = some field) :
    ∃ index, held.kind = .singular (.message index) := by
  cases path with
  | nil =>
    cases followed
    obtain ⟨index, kind, -⟩ := Held.field_named named
    exact ⟨index, kind⟩
  | cons first rest =>
    obtain ⟨mid, entered, -⟩ := Option.bind_eq_some_iff.mp followed
    obtain ⟨_, named, -⟩ := enter_named entered
    obtain ⟨index, kind, -⟩ := Held.field_named named
    exact ⟨index, kind⟩

namespace PyTypes

/-- The Python class has the field that the pool declares. -/
theorem numberedField_declared {pool : DescriptorPool} (types : PyTypes pool)
    {index : MessageIndex} {element : FieldPathElement} {field : FieldDescriptor}
    (named : elementField pool index element = some field) :
    ∃ named, types.numberedField index element = some named ∧ named.descriptor = field := by
  unfold elementField at named
  rw [← types.declared index, List.find?_map] at named
  exact Option.map_eq_some_iff.mp named

theorem endsOn_append {pool : DescriptorPool} {types : PyTypes pool} {index next : MessageIndex}
    {element last : FieldPathElement} {rest : List FieldPathElement} {field : PyField}
    (numbered : types.numberedField index element = some field)
    (holds : messageType field.descriptor = some next) :
    types.endsOn index (element :: (rest ++ [last])) = types.endsOn next (rest ++ [last]) := by
  cases rest <;> simp [endsOn, numbered, holds]

/-- A path that is followed to a message, and one of its fields. -/
theorem endsOn_followed (types : PyTypes self.pool) {element : FieldPathElement}
    {field : FieldDescriptor} {next : Held R} (named : next.field self.pool element = some field) :
    ∀ (path : List FieldPathElement) {held : Held R} {index : MessageIndex},
      held.kind = .singular (.message index) → self.follow held path = some next →
      ∃ leaf, types.endsOn index (path ++ [element]) = some leaf
  | [], held, index, kind, followed => by
    cases followed
    obtain ⟨index', kind', named⟩ := Held.field_named named
    cases kind.symm.trans kind'
    obtain ⟨field, numbered, -⟩ := types.numberedField_declared named
    exact ⟨⟨index, field⟩, by simp [endsOn, numbered]⟩
  | first :: rest, held, index, kind, followed => by
    obtain ⟨mid, entered, followed⟩ := Option.bind_eq_some_iff.mp followed
    obtain ⟨descriptor, first_named, same⟩ := enter_named entered
    obtain ⟨index', kind', first_named⟩ := Held.field_named first_named
    cases kind.symm.trans kind'
    obtain ⟨field, numbered, rfl⟩ := types.numberedField_declared first_named
    obtain ⟨below, mid_kind⟩ := followed_message followed named
    have holds : messageType field.descriptor = some below := by
      rw [messageType_kind, ← same, mid_kind]
      rfl
    obtain ⟨leaf, ends⟩ := endsOn_followed types named rest mid_kind followed
    exact ⟨leaf, by rw [List.cons_append, endsOn_append numbered holds, ends]⟩

/-- A path that is followed ends on a declared field. -/
theorem endsOn_follow (types : PyTypes self.pool) {path : List FieldPathElement}
    {held next : Held R} {index : MessageIndex} (kind : held.kind = .singular (.message index))
    (followed : self.follow held path = some next) (nonempty : path ≠ []) :
    ∃ leaf, types.endsOn index path = some leaf := by
  obtain ⟨rest, last, rfl⟩ := List.eq_nil_or_concat path |>.resolve_left nonempty
  rw [List.concat_eq_append, Validator.follow_snoc] at followed
  obtain ⟨mid, followed, entered⟩ := Option.bind_eq_some_iff.mp followed
  obtain ⟨field, named, -⟩ := enter_named entered
  rw [List.concat_eq_append]
  exact endsOn_followed types named rest kind followed

end PyTypes

/-- The field path of a violation that a walk of a message reports is empty,
ends on a declared field, or ends on a oneof. -/
theorem resolves_declared (types : PyTypes self.pool) {start : Held R} {index : MessageIndex}
    (kind : start.kind = .singular (.message index)) {at_ : Place R} {violation : Violation}
    (resolves : self.Resolves start at_ violation) :
    violation.elements = [] ∨ (∃ leaf, types.endsOn index violation.elements = some leaf) ∨
      ∃ path name, violation.elements = path ++ [oneofPathElement name] := by
  by_cases empty : violation.elements = []
  · exact .inl empty
  refine .inr ?_
  cases resolves with
  | value leads _ _ => exact .inl (types.endsOn_follow kind leads empty)
  | message leads _ _ => exact .inl (types.endsOn_follow kind leads empty)
  | key leads _ _ =>
    obtain ⟨last, ends, leads⟩ := Option.bind_eq_some_iff.mp leads
    obtain ⟨held, followed, leads⟩ := Option.bind_eq_some_iff.mp leads
    obtain ⟨container, entered, -⟩ := Option.bind_eq_some_iff.mp leads
    obtain ⟨field, named, -⟩ := enterField_named entered
    have declared := types.endsOn_followed named _ kind followed
    rw [List.dropLast_append_getLast? last ends] at declared
    exact .inl declared
  | @required index' m field _ path _ leads member _ _ =>
    have named : (⟨.singular (.message index'), .message m⟩ : Held R).field self.pool
        (pathElement field) = some field := elementField_own member rfl
    rw [elements_violation]
    exact .inl (types.endsOn_followed named _ kind leads)
  | oneof _ _ _ _ =>
    rw [elements_violation]
    exact .inr ⟨_, _, rfl⟩

end Reported

/-- Python classes that store every field under its own name. -/
def PyTypes.plain (pool : DescriptorPool)
    (positive : ∀ index, ∀ field ∈ (pool.message index).fields, 0 < field.number) :
    PyTypes pool where
  fields index := (pool.message index).fields.map fun field => ⟨field, field.name, none⟩
  declared index := by
    rw [List.map_map]
    exact List.map_id _
  positive index field member := by
    obtain ⟨descriptor, declared, rfl⟩ := List.mem_map.mp member
    exact positive index descriptor declared

def requiredRules : FieldRules := ⟨[], [], some true, none, none⟩

/-- A message with a required field of a message type, and two rules that
`FieldRules` and `MessageRules` declare. -/
def childPool : DescriptorPool where
  messages := [
    { fullName := "Parent"
      fields := [plainField 1 "child" (.singular (.message 1)) (some requiredRules) one_allowed]
      oneofs := []
      messageRules := none
      numbersDistinct := List.nodup_singleton _
      namesDistinct := List.nodup_singleton _ },
    { fullName := "Child"
      fields := []
      oneofs := []
      messageRules := none
      numbersDistinct := List.nodup_nil
      namesDistinct := List.nodup_nil },
    { fullName := FIELD_RULES
      fields := [plainField 25 "required" (.singular (.scalar .bool)) none (by decide)]
      oneofs := []
      messageRules := none
      numbersDistinct := List.nodup_singleton _
      namesDistinct := List.nodup_singleton _ },
    { fullName := "buf.validate.MessageRules"
      fields := [plainField 5 "cel_expression" (.list (.scalar .string)) none (by decide)]
      oneofs := []
      messageRules := none
      numbersDistinct := List.nodup_singleton _
      namesDistinct := List.nodup_singleton _ }]
  enums := []
  extensions := []
  linked := by simp [messageType]

def childValidator : Validator ⟨Empty, Unit⟩ where
  descriptors := ⟨childPool, ⟨2,
    pathElement (plainField 25 "required" (.singular (.scalar .bool)) none (by decide)),
    {}, {}, {}, {}, {}, {}, {}⟩⟩
  env := ⟨fun _ _ => .ok ⟨fun _ _ => .ok (.bool true)⟩, fun name bytes => .ok ⟨name, bytes⟩⟩
  backend := Backend.bare
  reflection := ⟨fun _ _ => false, fun _ _ => [], fun _ => []⟩
  resolve _ := .ok ()

/-- A message without its child. -/
def childless : Message ⟨Empty, Unit⟩ where
  has _ := .ok false
  get _ := .ok (some (.message ⟨fun _ => .ok false, fun _ => .ok none, .ok []⟩))
  encode := .ok []

theorem child_closure :
    closure childPool 0 (fun _ => none : ValidatorCache ⟨Empty, Unit⟩) = [1, 0] := by
  have first : referenced childPool 0 = [1] := rfl
  have second : referenced childPool 1 = [] := rfl
  simp [closure, FiniteGraph.search, typeGraph, first, second]

def childViolation : Violation where
  field := some ⟨[pathElement (plainField 1 "child" (.singular (.message 1)) (some requiredRules)
    one_allowed)]⟩
  rule := some ⟨[pathElement (plainField 25 "required" (.singular (.scalar .bool)) none
    (by decide))]⟩
  ruleId := some "required"
  message := some "value is required"
  forKey := none

theorem child_build : ∃ built compiled,
    childValidator.build 0 (fun _ => none) = .ok built ∧ built 0 = some (.ok compiled) ∧
    (childValidator.walk built).validate false compiled childless "Parent" =
      .ok [childViolation] := by
  have types : closure childValidator.pool 0 (fun _ => none : ValidatorCache ⟨Empty, Unit⟩) =
      [1, 0] := child_closure
  have messages : ∀ types, closure (childValidator.builder types).pool 0
      (fun _ => none : ValidatorCache ⟨Empty, Unit⟩) = [1, 0] := fun _ => child_closure
  simp only [Validator.build, resolve, Builder.buildClosure, types, messages]
  exact ⟨_, _, rfl, rfl, rfl⟩

theorem child_positive :
    ∀ index, ∀ field ∈ (childPool.message index).fields, 0 < field.number := by
  intro index field member
  rcases index with _ | _ | _ | _ | index <;>
    simp_all [DescriptorPool.message, DescriptorPool.emptyMessage, childPool]

def childTypes : PyTypes childPool := .plain childPool child_positive

/-- The message as `protobuf-py` has it. -/
def parentUnset : PyObject :=
  .message .protobufPy 0 fun name => if name = "child" then some .none else none

/-- The message as `google.protobuf` has it, with a default child. -/
def parentDefault : PyObject :=
  .message .google 0 fun name =>
    if name = "child" then some (.message .google 1 fun _ => none) else none

/-- The rules of the field. The message has none. -/
def childRules : RuleScope → Option PyObject
  | .field _ => some (.message .protobufPy 2 fun name =>
      if name = "required" then some (.atom (.bool true)) else none)
  | .message _ => none

theorem child_fields {field : PyField} (member : field ∈ childTypes.fields 0) :
    field = ⟨plainField 1 "child" (.singular (.message 1)) (some requiredRules) one_allowed,
      "child", none⟩ := by
  simpa [childTypes, PyTypes.plain, DescriptorPool.message, childPool] using member

theorem parentUnset_fits : childTypes.Fits .protobufPy (.singular (.message 0)) parentUnset := by
  refine .message fun field member value held => ?_
  rw [child_fields member] at held
  cases held with
  | plain _ found set =>
    cases found
    exact absurd rfl set
  | selected member _ => cases member

theorem parentDefault_fits : childTypes.Fits .google (.singular (.message 0)) parentDefault := by
  refine .message fun field member value held => ?_
  rw [child_fields member] at held ⊢
  cases held with
  | google found _ =>
    cases found
    refine .message fun field member => ?_
    cases member

/-- A required field that is not set: in `protobuf-py` its rule is looked up in
the rules of the message, and a number that these lack falls back to a name. -/
theorem required_child_unresolved : ∃ built compiled leaf,
    childValidator.build 0 (fun _ => none) = .ok built ∧ built 0 = some (.ok compiled) ∧
    (childValidator.walk built).validate false compiled childless "Parent" =
      .ok [childViolation] ∧
    childTypes.endsOn 0 childViolation.elements = some leaf ∧
    childTypes.Fits .protobufPy (.singular (.message 0)) parentUnset ∧
    childTypes.scopeOf 0 parentUnset childViolation = .message 0 ∧
    childTypes.resolveRuleValue childRules (.field leaf) childViolation.rule =
      .atom (.bool true) ∧
    (childTypes.resolveValues childRules 0 parentUnset childViolation).2 = .none ∧
    ∃ field, childTypes.findField 3 { fieldNumber := some 29, fieldName := some "cel_expression" } =
      some field ∧ field.number = 5 := by
  obtain ⟨built, compiled, made, found, walked⟩ := child_build
  exact ⟨built, compiled, _, made, found, walked, rfl, parentUnset_fits, rfl, rfl, rfl, _, rfl, rfl⟩

/-- The same violation in `google.protobuf`, where the field has a default. -/
theorem looked_up_in_field_rules_iff_default : ∃ leaf,
    childTypes.endsOn 0 childViolation.elements = some leaf ∧
    childTypes.scopeOf 0 parentDefault childViolation = .field leaf := by
  have readable : childTypes.Readable false parentDefault childViolation.elements :=
    .field rfl (.google rfl (by simp)) rfl (.done _)
  exact ⟨_, rfl, (PyTypes.looked_up_in_field_rules_iff parentDefault_fits rfl).1.mpr readable⟩

end Protovalidate
