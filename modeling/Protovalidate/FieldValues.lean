import Protovalidate.RuleValues

/-!
# The field value of a violation

A violation's field value is recovered from its field path, on the Python message. As long
as the message is what it was when it was validated, the value is the one that the broken
rule was evaluated on, as Python has it.
-/

namespace Protovalidate

open Recording Relation

/-- An atom as Python has it: an enum and an unsigned number are an `int`. -/
def Atom.python : Atom → Atom
  | .uint u => .int u
  | .enum e => .int e
  | a => a

theorem keySubscript_value {k : Atom} {subscript : Subscript}
    (keyed : keySubscript k = some subscript) : subscript.value = k.python := by
  cases k <;> cases keyed <;> rfl

/-- What a validation reports, the specification does. -/
theorem validate_reported {R : Runtime} {walk : Walk R} {failFast : Bool}
    {validator : MessageValidator R} {m : Message R} {typeName : String}
    {violations : List Violation}
    (done : walk.validate failFast validator m typeName = .ok violations) {violation : Violation}
    (member : violation ∈ violations) :
    violation ∈ (Spec.report walk validator m typeName []).out := by
  rw [← recorded_of_ok walk done] at member
  simp only [Walk.recorded, validate_from_root, observed] at member
  exact Emit.cut_subset _ _ _ _ member

namespace PyTypes
variable {pool : DescriptorPool} (types : PyTypes pool)

/-- What an element leads to. -/
def enter (current : PyObject) (element : FieldPathElement) : Option PyObject := do
  let (value, _) ← types.stepElement current element
  match element.subscript with
  | none => return value
  | some subscript => value.getItem subscript.value

/-- What a path leads to. -/
def follow (start : PyObject) (path : List FieldPathElement) : Option PyObject :=
  path.foldlM types.enter start

variable {types}

theorem enter_held {runtime : ProtoRuntime} {index : MessageIndex}
    {attr : String → Option PyObject} {element : FieldPathElement} {field : PyField}
    {value : PyObject} (numbered : types.numberedField index element = some field)
    (held : runtime.Holds attr field value) :
    types.enter (.message runtime index attr) element =
      match element.subscript with
      | none => some value
      | some subscript => value.getItem subscript.value := by
  rw [enter, stepElement_held numbered held]
  rfl

theorem follow_snoc {start object : PyObject} {path : List FieldPathElement}
    (leads : types.follow start path = some object) (element : FieldPathElement) :
    types.follow start (path ++ [element]) = types.enter object element := by
  have led : path.foldlM types.enter start = some object := leads
  rw [follow, List.foldlM_append, led]
  simp

/-- A walk over a path that leads to a value goes on from the value. The induction is on
the path. -/
theorem walkElements_append {forKey : Bool} {rest : List FieldPathElement} {object : PyObject}
    (further : forKey = false ∨ rest ≠ []) :
    ∀ (path : List FieldPathElement) (start : PyObject) (leaf : Option Leaf),
      types.follow start path = some object → ∃ leaf', types.walkElements forKey start leaf
        (path ++ rest) = types.walkElements forKey object leaf' rest
  | [], start, leaf, leads => by
    cases leads
    exact ⟨leaf, rfl⟩
  | element :: path, start, leaf, leads => by
    obtain ⟨next, entered, leads⟩ := Option.bind_eq_some_iff.mp leads
    obtain ⟨⟨value, field⟩, stepped, entered⟩ := Option.bind_eq_some_iff.mp entered
    obtain ⟨leaf', same⟩ := walkElements_append further path next (some field) leads
    refine ⟨leaf', ?_⟩
    rw [← same, List.cons_append, walkElements, stepped]
    cases subscripted : element.subscript with
    | none =>
      simp only [subscripted] at entered
      cases entered
      rfl
    | some subscript =>
      have onward : (forKey && (path ++ rest).isEmpty) = false := by
        rcases further with rfl | nonempty
        · rfl
        · simp [nonempty]
      simp only [subscripted] at entered
      simp [onward, entered]

theorem walkElements_follow {path : List FieldPathElement} {start object : PyObject}
    (leads : types.follow start path = some object) (leaf : Option Leaf) :
    (types.walkElements false start leaf path).1 = object := by
  have stays : ∃ leaf', types.walkElements false start leaf (path ++ []) =
      types.walkElements false object leaf' [] :=
    walkElements_append (.inl rfl) path start leaf leads
  obtain ⟨leaf', same⟩ := stays
  rw [List.append_nil] at same
  rw [same]
  rfl

section Last
variable {path : List FieldPathElement} {start : PyObject} {runtime : ProtoRuntime}
  {index : MessageIndex} {attr : String → Option PyObject} {element : FieldPathElement}
  {field : PyField}
  (leads : types.follow start path = some (.message runtime index attr))
include leads

/-- The field at the end of a path, or nothing if it does not hold a value. -/
theorem walkElements_field (numbered : types.numberedField index element = some field)
    (plain : element.subscript = none) (leaf : Option Leaf) :
    (types.walkElements false start leaf (path ++ [element])).1 =
      ((runtime.fieldInfo field).fetch attr).getD .none := by
  obtain ⟨leaf', same⟩ := walkElements_append (.inl rfl) path start leaf leads
  rw [same, walkElements]
  by_cases held : ∃ value, runtime.Holds attr field value
  · obtain ⟨value, held⟩ := held
    rw [stepElement_held numbered held, ProtoRuntime.fetch_iff.mpr held]
    simp only [plain]
    rfl
  · have unset : (runtime.fieldInfo field).fetch attr = none :=
      Option.eq_none_iff_forall_ne_some.mpr fun value found =>
        held ⟨value, ProtoRuntime.fetch_iff.mp found⟩
    rw [stepElement_unset numbered (not_exists.mp held), unset]
    rfl

/-- The key of an entry at the end of a path. -/
theorem walkElements_key {value : PyObject} {subscript : Subscript}
    (numbered : types.numberedField index element = some field)
    (held : runtime.Holds attr field value) (subscripted : element.subscript = some subscript)
    (leaf : Option Leaf) :
    (types.walkElements true start leaf (path ++ [element])).1 = .atom subscript.value := by
  obtain ⟨leaf', same⟩ := walkElements_append (.inr (List.cons_ne_nil element [])) path start
    leaf leads
  rw [same, walkElements, stepElement_held numbered held]
  simp [subscripted]

/-- A oneof is no field. -/
theorem walkElements_oneof {name : String}
    (unnamed : ∀ field ∈ types.fields index, field.name ≠ name) (leaf : Option Leaf) :
    (types.walkElements false start leaf (path ++ [oneofPathElement name])).1 = .none := by
  obtain ⟨leaf', same⟩ := walkElements_append (.inl rfl) path start leaf leads
  have missing : (types.fields index).find? (fun field => field.name == name) = none :=
    List.find?_eq_none.mpr fun field member => by simpa using unnamed field member
  have stepped : types.stepElement (.message runtime index attr) (oneofPathElement name) =
      none := by
    simp [stepElement, findField, oneofPathElement, missing]
  rw [same, walkElements, stepped]

end Last

section Mirrors
variable {R : Runtime} (self : Validator R)

/-- A Python message holds what the validator reads of it. A field that is not set need
not hold anything. -/
inductive Mirrors (types : PyTypes self.pool) (runtime : ProtoRuntime) :
    DescriptorKind → PyObject → Val R → Prop
  | atom (kind : SingularKind) (a : Atom) :
    Mirrors types runtime (.singular kind) (.atom a.python) (.atom a)
  | message {index : MessageIndex} {attr : String → Option PyObject} {m : Message R} :
    (∀ field ∈ types.fields index, m.get (self.describe field.descriptor) ≠ .ok none) →
    (∀ field ∈ types.fields index, ∀ v, m.get (self.describe field.descriptor) = .ok (some v) →
      has m (self.describe field.descriptor) = .ok true ∨
        (self.describe field.descriptor).hasPresence = false →
      ∃ value, runtime.Holds attr field value) →
    (∀ field ∈ types.fields index, ∀ v value,
      m.get (self.describe field.descriptor) = .ok (some v) → runtime.Holds attr field value →
      Mirrors types runtime field.descriptor.kind value v) →
    Mirrors types runtime (.singular (.message index)) (.message runtime index attr) (.message m)
  | list {element : SingularKind} {item : Atom → Option PyObject} {l : ListView R} :
    (∀ i v, l.get i = .ok (some v) → (item (.int i)).isSome) →
    (∀ (i : Nat) v value, l.get i = .ok (some v) → item (.int i) = some value →
      Mirrors types runtime (.singular element) value v) →
    Mirrors types runtime (.list element) (.container item) (.list l)
  | map {key : Scalar} {element : SingularKind} {item : Atom → Option PyObject}
      {map : MapView R} :
    (∀ k v, (k, v) ∈ map.entries →
      (keySubscript k).isSome ∧ (item k.python).isSome) →
    (∀ k v value, (k, v) ∈ map.entries → item k.python = some value →
      Mirrors types runtime (.singular element) value v) →
    Mirrors types runtime (.map key element) (.container item) (.map map)

end Mirrors

section Seen
variable {R : Runtime} {self : Validator R} (types : PyTypes self.pool) (runtime : ProtoRuntime)

/-- What a walk validates at a place is what the path leads to in Python. -/
inductive Seen (validators : ValidatorCache R) (start : PyObject) : Place R → Prop
  | message {index : MessageIndex} {object : PyObject} {compiled : MessageValidator R}
      {frame : CelFrame R} {m : Message R} {path : List FieldPathElement} :
    types.follow start path = some object →
    Mirrors self types runtime (.singular (.message index)) object (.message m) →
    validators index = some (.ok compiled) →
    Seen validators start ⟨path, .message compiled frame m⟩
  | missing {index : MessageIndex} {attr : String → Option PyObject} {field : PyField}
      {rules : FieldValidator R} {path : List FieldPathElement} :
    types.follow start path = some (.message runtime index attr) →
    types.numberedField index rules.element = some field →
    rules.element = pathElement field.descriptor →
    Seen validators start ⟨path, .missing rules⟩
  | value {kind : DescriptorKind} {object : PyObject} {v : Val R} {rules : ValueValidator R}
      {bind : CelBind R} {path : List FieldPathElement} :
    path ≠ [] → types.follow start path = some object →
    Mirrors self types runtime kind object v →
    (∀ nested, rules.nested = some nested → kind = .singular (.message nested)) →
    Seen validators start ⟨path, .value rules bind (some v)⟩
  | key {index : MessageIndex} {attr : String → Option PyObject} {field : PyField}
      {container : PyObject} {subscript : Subscript} {k : Atom} {rules : ValueValidator R}
      {kind : Singular} {path : List FieldPathElement} {element : FieldPathElement} :
    types.follow start path = some (.message runtime index attr) →
    types.numberedField index element = some field → runtime.Holds attr field container →
    element.subscript = some subscript → keySubscript k = some subscript →
    Seen validators start ⟨path ++ [element], .key rules kind k⟩

end Seen

end PyTypes

/-- The rules of a field that tracks presence are only run when it is set. -/
theorem Builder.FieldBuilt.set_or_implicit {R : Runtime} {self : Builder R}
    {message : MessageDescriptor} {field : FieldDescriptor} {rules : FieldRules}
    {built : FieldValidator R} (done : FieldBuilt self message field rules built)
    {m : Message R} {v : Option (Val R)} {set : Bool} (got : m.get built.field = .ok v)
    (isSet : built.isSet m v = .ok set) (runs : built.Runs set) :
    has m built.field = .ok true ∨ built.field.hasPresence = false := by
  rcases runs with rfl | ⟨-, kept⟩
  · rw [Validator.isSet_has got] at isSet
    exact .inl isSet
  · obtain ⟨type, described, -⟩ := builds_field done.described
    refine .inr ?_
    rw [done.ignoreEmpty] at kept
    simp only [Target.ignoreEmpty, Target.field, Target.isSingular, Bool.or_eq_false_iff] at kept
    rw [described, Field.fromDescriptor]
    cases kind : field.kind with
    | singular _ => simpa [kind] using kept.2
    | list _ => rfl
    | map _ _ => rfl

namespace PyTypes
variable {R : Runtime} {self : Validator R} {types : PyTypes self.pool} {runtime : ProtoRuntime}
variable {validators : ValidatorCache R} {start : PyObject}

section Steps
variable {index : MessageIndex} {object : PyObject} {compiled : MessageValidator R}
  {frame : CelFrame R} {m : Message R} {path : List FieldPathElement} {rules : FieldValidator R}
  (published : self.Published validators)
  (leads : types.follow start path = some object)
  (mirrors : Mirrors self types runtime (.singular (.message index)) object (.message m))
  (found : validators index = some (.ok compiled))
include published leads mirrors found

/-- A field that a walk gets to, as the Python class has it. -/
theorem atField_seen {v : Option (Val R)} {set : Bool}
    (reached : AtField (self.walk validators) Ended compiled frame m path rules v set) :
    ∃ attr field members w, object = .message runtime index attr ∧ v = some w ∧
      (∀ element : FieldPathElement,
        element.fieldNumber = (pathElement field.descriptor).fieldNumber →
        types.numberedField index element = some field) ∧
      Builder.FieldBuilt (self.builder self.resolved) (self.pool.message index) field.descriptor
        (fieldRules members field.descriptor) rules ∧
      (rules.Runs set → ∃ value, runtime.Holds attr field value ∧
        Mirrors self types runtime field.descriptor.kind value w) := by
  obtain ⟨descriptor, declared, members, built, described, -⟩ :=
    Validator.compiled_from published found reached.mem
  have numbered : ∀ element : FieldPathElement,
      element.fieldNumber = (pathElement descriptor).fieldNumber →
      ∃ field, types.numberedField index element = some field ∧ field.descriptor = descriptor :=
    fun element number => types.numberedField_declared (elementField_own declared number)
  obtain ⟨field, own, rfl⟩ := numbered _ rfl
  have got := reached.got
  rw [described] at got
  cases mirrors with
  | @message _ attr _ known holds values =>
    have member := List.mem_of_find?_eq_some own
    cases v with
    | none => exact absurd got (known field member)
    | some w =>
      refine ⟨attr, field, members, w, rfl, rfl, fun element number => ?_, built,
        fun runs => ?_⟩
      · simp only [numberedField, number]
        exact own
      · have set := built.set_or_implicit reached.got reached.isSet runs
        rw [described] at set
        obtain ⟨value, held⟩ := holds field member w got set
        exact ⟨value, held, values field member w value got held⟩

theorem field_seen {v : Option (Val R)} {set : Bool}
    (reached : AtField (self.walk validators) Ended compiled frame m path rules v set)
    (runs : rules.Runs set) :
    Seen types runtime validators start
      ⟨path ++ [rules.element], .value rules.value (.field frame rules.field) v⟩ := by
  obtain ⟨attr, field, members, w, rfl, rfl, numbered, built, holds⟩ :=
    atField_seen published leads mirrors found reached
  obtain ⟨value, held, inner⟩ := holds runs
  refine .value (by simp) ?_ inner fun nested => built.nests_value
  rw [built.element, follow_snoc leads, enter_held (numbered _ rfl) held]
  rfl

theorem element_seen {l : ListView R} {items : ItemValidator R} {single : Singular} {i : Nat}
    {v : Val R}
    (reached : AtContents (self.walk validators) Ended compiled frame m path rules (.list l))
    (listed : rules.kind = .list (some items)) (item : l.get i = .ok (some v)) :
    Seen types runtime validators start
      ⟨path ++ [rules.element.withSubscript (some (.index i))],
        .value items.value (.item single) (some v)⟩ := by
  obtain ⟨set, atField, runs⟩ := reached.field
  obtain ⟨attr, field, members, w, rfl, same, numbered, built, holds⟩ :=
    atField_seen published leads mirrors found atField
  cases same
  obtain ⟨value, held, inner⟩ := holds runs
  obtain ⟨element, kind, -, nests⟩ := built.list_items listed
  rw [kind] at inner
  cases inner with
  | list present values =>
    obtain ⟨object, found⟩ := Option.isSome_iff_exists.mp (present i v item)
    refine .value (by simp) ?_ (values i v object item found) fun nested same => by
      rw [nests nested same]
    have number : ((pathElement field.descriptor).withSubscript (some (.index i))).fieldNumber =
        (pathElement field.descriptor).fieldNumber := rfl
    rw [built.element, follow_snoc leads, enter_held (numbered _ number) held]
    exact found

section Entries
variable {map : MapView R} {element : FieldPathElement} {single : Singular} {k : Atom} {v : Val R}
  (reached : AtContents (self.walk validators) Ended compiled frame m path rules (.map map))
  (entry : (k, v) ∈ map.entries)
include reached entry

theorem key_seen {keys : ItemValidator R} {values : Option (ItemValidator R)}
    (mapped : rules.kind = .map element (some keys) values) :
    Seen types runtime validators start
      ⟨path ++ [element.withSubscript (keySubscript k)], .key keys.value single k⟩ := by
  obtain ⟨set, atField, runs⟩ := reached.field
  obtain ⟨attr, field, members, w, rfl, same, numbered, built, holds⟩ :=
    atField_seen published leads mirrors found atField
  cases same
  obtain ⟨value, held, inner⟩ := holds runs
  obtain ⟨key, kind, mapKind, -, rfl⟩ := built.map_keys mapped
  rw [mapKind] at inner
  cases inner with
  | map present values =>
    obtain ⟨subscript, keyed⟩ := Option.isSome_iff_exists.mp (present k v entry).1
    exact .key leads (numbered _ (Validator.entryElement_at _ _)) held keyed keyed

theorem entry_seen {keys : Option (ItemValidator R)} {values : ItemValidator R}
    (mapped : rules.kind = .map element keys (some values)) :
    Seen types runtime validators start
      ⟨path ++ [element.withSubscript (keySubscript k)],
        .value values.value (.item single) (some v)⟩ := by
  obtain ⟨set, atField, runs⟩ := reached.field
  obtain ⟨attr, field, members, w, rfl, same, numbered, built, holds⟩ :=
    atField_seen published leads mirrors found atField
  cases same
  obtain ⟨value, held, inner⟩ := holds runs
  obtain ⟨key, kind, mapKind, -, rfl, nests⟩ := built.map_values mapped
  rw [mapKind] at inner
  cases inner with
  | map present values =>
    obtain ⟨keyed, there⟩ := present k v entry
    obtain ⟨subscript, keyed⟩ := Option.isSome_iff_exists.mp keyed
    obtain ⟨object, found⟩ := Option.isSome_iff_exists.mp there
    refine .value (by simp) ?_ (values k v object entry found) fun nested same => by
      rw [nests nested same]
    rw [follow_snoc leads, enter_held (numbered _ (Validator.entryElement_at _ _)) held, keyed]
    rw [← keySubscript_value keyed] at found
    exact found

end Entries

end Steps

/-- A walk that is where its path leads in Python goes on to where its path leads there. -/
theorem enters_seen (published : self.Published validators) {at_ next : Place R}
    (seen : Seen types runtime validators start at_)
    (enters : Enters (self.walk validators) Ended at_ next) :
    Seen types runtime validators start next := by
  cases enters with
  | missing reached required =>
    cases seen with
    | message leads mirrors found =>
      obtain ⟨attr, field, members, w, rfl, -, numbered, built, -⟩ :=
        atField_seen published leads mirrors found reached
      exact .missing leads (built.element ▸ numbered _ rfl) built.element
  | field reached runs =>
    cases seen with
    | message leads mirrors found => exact field_seen published leads mirrors found reached runs
  | element reached listed _ _ _ _ item _ =>
    cases seen with
    | message leads mirrors found =>
      exact element_seen published leads mirrors found reached listed item
  | key reached mapped _ entries _ _ =>
    cases seen with
    | message leads mirrors found =>
      have entry := entries ▸ List.mem_append_right _ List.mem_cons_self
      exact key_seen published leads mirrors found reached entry mapped
  | entry reached mapped _ entries _ _ _ =>
    cases seen with
    | message leads mirrors found =>
      have entry := entries ▸ List.mem_append_right _ List.mem_cons_self
      exact entry_seen published leads mirrors found reached entry mapped
  | nested looked _ =>
    cases seen with
    | value nonempty leads mirrors nests =>
      obtain ⟨-, same⟩ | ⟨index, inner, held, found, same⟩ := nestedMessage_ok looked
      · cases same
      · cases same
        obtain rfl := nests index held
        exact .message leads mirrors found

theorem reaches_seen (published : self.Published validators) {at_ reached : Place R}
    (seen : Seen types runtime validators start at_)
    (reaches : Reaches (self.walk validators) at_ reached) :
    Seen types runtime validators start reached := by
  induction reaches with
  | refl => exact seen
  | tail _ enters ih => exact enters_seen published ih enters

/-- The field value of a violation of the rules at a place. A rule of the message that was
validated has none, nor has a required oneof. Of a required field that is not set it is what
the message holds in it, if anything. -/
inductive FieldValue (types : PyTypes self.pool) (runtime : ProtoRuntime) (start : PyObject) :
    Place R → Violation → PyObject → Prop
  | value {kind : DescriptorKind} {object : PyObject} {v : Val R} {rules : ValueValidator R}
      {bind : CelBind R} {path : List FieldPathElement} {violation : Violation} :
    Mirrors self types runtime kind object v →
    FieldValue types runtime start ⟨path, .value rules bind (some v)⟩ violation object
  | key {k : Atom} {rules : ValueValidator R} {kind : Singular} {path : List FieldPathElement}
      {violation : Violation} :
    FieldValue types runtime start ⟨path, .key rules kind k⟩ violation (.atom k.python)
  | root {compiled : MessageValidator R} {frame : CelFrame R} {m : Message R}
      {violation : Violation} :
    FieldValue types runtime start ⟨[], .message compiled frame m⟩ violation .none
  | message {index : MessageIndex} {object : PyObject} {compiled : MessageValidator R}
      {frame : CelFrame R} {m : Message R} {path : List FieldPathElement} {violation : Violation} :
    path ≠ [] → Mirrors self types runtime (.singular (.message index)) object (.message m) →
    FieldValue types runtime start ⟨path, .message compiled frame m⟩ violation object
  | oneof {index : MessageIndex} {attr : String → Option PyObject} {object : PyObject}
      {compiled : MessageValidator R} {frame : CelFrame R} {m : Message R}
      {path : List FieldPathElement} {violation : Violation} {oneof : OneofDescriptor} :
    types.follow start path = some (.message runtime index attr) →
    oneof ∈ (self.pool.message index).oneofs →
    violation.elements = path ++ [oneofPathElement oneof.name] →
    ((∀ field ∈ types.fields index, field.name ≠ oneof.name) → object = .none) →
    FieldValue types runtime start ⟨path, .message compiled frame m⟩ violation object
  | missing {index : MessageIndex} {attr : String → Option PyObject} {field : PyField}
      {rules : FieldValidator R} {path : List FieldPathElement} {violation : Violation} :
    types.follow start path = some (.message runtime index attr) → field ∈ types.fields index →
    violation.elements = path ++ [pathElement field.descriptor] →
    FieldValue types runtime start ⟨path, .missing rules⟩ violation
      (((runtime.fieldInfo field).fetch attr).getD .none)

/-- The value that Python recovers for a violation of the rules at a place. -/
theorem seen_fieldValue (published : self.Published validators) {at_ : Place R}
    (seen : Seen types runtime validators start at_) {violation : Violation}
    (reported : violation ∈ (at_.rules (self.walk validators)).out) :
    FieldValue types runtime start at_ violation
      (types.walkFieldPath start violation.field (violation.forKey.getD false)).1 := by
  rw [walkFieldPath_elements]
  cases seen with
  | @message index object compiled frame m path leads mirrors found =>
    rcases messageRules_reports _ _ _ _ _ reported with ⟨failure, rfl⟩ | ⟨oneof, present, rfl⟩
    · rw [elements_violation]
      cases path with
      | nil => exact .root
      | cons element path =>
        have recovered : (types.walkElements false start none (element :: path)).1 = object :=
          walkElements_follow leads none
        rw [← recovered] at mirrors
        exact .message (List.cons_ne_nil _ _) mirrors
    · obtain ⟨declared, member, -, same⟩ := Validator.oneof_declared published found present
      rw [same]
      cases mirrors with
      | message _ _ _ =>
        refine .oneof leads member (elements_violation _ _ _) fun unnamed => ?_
        rw [elements_violation, if_neg (by simp)]
        exact walkElements_oneof leads unnamed none
  | @missing index attr field rules path leads numbered element =>
    obtain rfl := List.mem_singleton.mp reported
    have plain : rules.element.subscript = none := by rw [element]; rfl
    have value := walkElements_field leads numbered plain none
    rw [elements_violation, if_neg (by simp)]
    change FieldValue _ _ _ _ _ (types.walkElements false start none (path ++ [rules.element])).1
    rw [value]
    refine .missing leads (List.mem_of_find?_eq_some numbered) ?_
    rw [← element]
    exact elements_violation _ _ _
  | @value kind object v rules bind path nonempty leads mirrors nests =>
    obtain ⟨failure, rfl⟩ := ReportsAt.valueRules _ _ _ _ _ _ _ reported
    rw [elements_violation, if_neg (by simpa using nonempty)]
    change FieldValue _ _ _ _ _ (types.walkElements false start none path).1
    rw [walkElements_follow leads]
    exact .value mirrors
  | @key index attr field container subscript k rules kind path element leads numbered held
      subscripted keyed =>
    obtain ⟨failure, rfl⟩ := ReportsAt.valueRules _ _ _ _ _ ⟨path ++ [element], true⟩ _ reported
    have value := walkElements_key leads numbered held subscripted none
    rw [elements_violation, if_neg (by simp)]
    change FieldValue _ _ _ _ _ (types.walkElements true start none (path ++ [element])).1
    rw [value, keySubscript_value keyed]
    exact .key

/-- As long as a message is what it was when it was validated, the field value of each
violation is what the broken rule was evaluated on. -/
theorem fieldValue_evaluated {Θ : Type} [DecidableEq Θ] (self : Validator R)
    {s : Shared R Θ} (reachable : self.Reachable s) {validators : ValidatorCache R}
    (snapshot : validators = s.cache ∨ ∃ t index, s.calls t = .returned index validators)
    {index : MessageIndex} {compiled : MessageValidator R}
    (found : validators index = some (.ok compiled)) (types : PyTypes self.pool)
    {runtime : ProtoRuntime} {message : PyObject} {m : Message R}
    (mirrors : Mirrors self types runtime (.singular (.message index)) message (.message m))
    (failFast : Bool) (typeName : String) (rulesOf : RuleScope → Option PyObject)
    {violations : List Violation}
    (done : (self.walk validators).validate failFast compiled m typeName = .ok violations) :
    ∀ violation ∈ violations, ∃ at_,
      Reaches (self.walk validators) (root compiled m typeName) at_ ∧
      violation ∈ (at_.rules (self.walk validators)).out ∧
      FieldValue types runtime message at_ violation
        (types.resolveValues rulesOf index message violation).1 := by
  have published := Validator.reachable_published reachable snapshot
  intro violation reported
  have accounted : Accounted (self.walk validators) (root compiled m typeName)
      (Spec.report (self.walk validators) compiled m typeName []) :=
    message_accounted compiled ⟨typeName, m⟩ m []
  obtain ⟨at_, reaches, here⟩ := accounted.reported violation (validate_reported done reported)
  refine ⟨at_, reaches, here, ?_⟩
  exact seen_fieldValue published (reaches_seen published (.message rfl mirrors found) reaches) here

end PyTypes

/-! ### The value of a map entry -/

theorem flags_positive :
    ∀ index, ∀ field ∈ (flagsPool.message index).fields, 0 < field.number := by
  intro index field member
  rcases index with _ | _ | _ | _ | index <;>
    simp_all [DescriptorPool.message, DescriptorPool.emptyMessage, flagsPool, boolRulesMessage]
  rcases member with rfl | rfl <;> simp

def flagsTypes : PyTypes flagsValidator.pool := .plain flagsPool flags_positive

/-- The message as `google.protobuf` has it. -/
def pyFlags : PyObject :=
  .message .google 0 fun name =>
    if name = "flags" then some (.container fun key =>
      if key = .string "on" then some (.atom (.bool false)) else none)
    else none

theorem pyFlags_mirrors : flagsTypes.Mirrors flagsValidator .google (.singular (.message 0))
    pyFlags (.message oneFlag) := by
  have only : ∀ field ∈ flagsTypes.fields 0, field.name = "flags" ∧
      field.descriptor.kind = .map .string (.scalar .bool) := by
    intro field member
    obtain ⟨descriptor, declared, rfl⟩ := List.mem_map.mp member
    obtain rfl := List.mem_singleton.mp declared
    exact ⟨rfl, rfl⟩
  refine .message (fun field member unset => by cases unset) (fun field member v got set => ?_)
    fun field member v value got held => ?_
  · exact ⟨_, .google (by rw [(only field member).1]; rfl) (by simp)⟩
  · cases got
    rw [(only field member).2]
    cases held with
    | google found _ =>
      rw [(only field member).1] at found
      cases found
      refine .map (fun k v entry => ?_) fun k v value entry held => ?_
      · cases List.mem_singleton.mp entry
        exact ⟨rfl, rfl⟩
      · cases List.mem_singleton.mp entry
        cases held
        exact .atom _ (.bool false)

theorem fieldValue_evaluated_flags : ∃ built compiled violation,
    (flagsValidator.walk built).validate false compiled oneFlag "Flags" = .ok [violation] ∧
    ∃ at_, Reaches (flagsValidator.walk built) (root compiled oneFlag "Flags") at_ ∧
      violation ∈ (at_.rules (flagsValidator.walk built)).out ∧
      PyTypes.FieldValue flagsTypes .google pyFlags at_ violation
        (flagsTypes.resolveValues (fun _ => none) 0 pyFlags violation).1 := by
  obtain ⟨built, compiled, violation, made, found, walked, -⟩ := flags_build
  have cached := (flagsValidator.alone_returned made).1
  refine ⟨built, compiled, violation, walked, ?_⟩
  exact PyTypes.fieldValue_evaluated flagsValidator (flagsValidator.alone_reachable 0 3)
    (.inl cached.symm) found flagsTypes pyFlags_mirrors false "Flags" _ walked violation
    List.mem_cons_self

end Protovalidate
