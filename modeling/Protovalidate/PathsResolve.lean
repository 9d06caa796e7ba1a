import Protovalidate.Embedded
import Protovalidate.Paths

/-!
# Field paths lead to what was validated

A walk only goes where its field path leads. The invariant is on places: what is
validated at one is what the path leads to, and nothing on the way is ignored.
-/

namespace Protovalidate

open Recording Relation BuildM Builder

variable {R : Runtime}

namespace Builder
variable {self : Builder R}

/-- An item is validated when its rules do not always ignore it. -/
theorem ItemBuilt.kept {target : Target} {rulePrefix : List FieldPathElement}
    {rules : Option FieldRules} {built : Option (ItemValidator R)}
    (done : ItemBuilt self target rulePrefix rules built) (some : built.isSome) :
    alwaysIgnored rules = false := by
  cases done with
  | unset => rfl
  | ignored => cases some
  | set kept _ => exact beq_eq_false_iff_ne.mpr kept

/-- What an item nests is the message type of the item. -/
theorem ItemBuilt.holds {kind : SingularKind} {name : TargetName}
    {rulePrefix : List FieldPathElement} {rules : Option FieldRules} {item : ItemValidator R}
    (done : ItemBuilt self (.item kind name) rulePrefix rules (some item)) {nested : MessageIndex}
    (held : item.value.nested = some nested) : kind = .message nested := by
  have inner := done.nested
  rw [done.kept rfl] at inner
  have target : (Target.item kind name).nested = some nested := by
    rw [← held]
    exact inner.symm
  unfold Target.nested Target.item at target
  dsimp only at target
  split at target
  · rename_i same
    cases target
    exact DescriptorKind.singular.inj same
  · cases target

variable {message : MessageDescriptor} {field : FieldDescriptor} {rules : FieldRules}
  {built : FieldValidator R}

theorem FieldBuilt.list_items (done : FieldBuilt self message field rules built)
    {items : ItemValidator R} (listed : built.kind = .list (some items)) : ∃ element,
    field.kind = .list element ∧ alwaysIgnored (itemsOf rules.type) = false ∧
      ∀ nested, items.value.nested = some nested → element = .message nested := by
  have kind := done.kind
  rw [listed] at kind
  generalize field.kind = held at kind
  cases kind with
  | list made => exact ⟨_, rfl, made.kept rfl, fun nested => made.holds⟩

theorem FieldBuilt.map_keys (done : FieldBuilt self message field rules built)
    {element : FieldPathElement} {keys : ItemValidator R} {values : Option (ItemValidator R)}
    (mapped : built.kind = .map element (some keys) values) : ∃ key value,
    field.kind = .map key value ∧ alwaysIgnored (entriesOf rules.type).1 = false ∧
      element = entryElement field := by
  have kind := done.kind
  rw [mapped] at kind
  generalize field.kind = held at kind
  cases kind with
  | map made _ => exact ⟨_, _, rfl, made.kept rfl, rfl⟩

theorem FieldBuilt.map_values (done : FieldBuilt self message field rules built)
    {element : FieldPathElement} {keys : Option (ItemValidator R)} {values : ItemValidator R}
    (mapped : built.kind = .map element keys (some values)) : ∃ key value,
    field.kind = .map key value ∧ alwaysIgnored (entriesOf rules.type).2 = false ∧
      element = entryElement field ∧
      ∀ nested, values.value.nested = some nested → value = .message nested := by
  have kind := done.kind
  rw [mapped] at kind
  generalize field.kind = held at kind
  cases kind with
  | map _ made => exact ⟨_, _, rfl, made.kept rfl, rfl, fun nested => made.holds⟩

/-- The value of a singular field nests the field's message type. -/
theorem FieldBuilt.nests_value (done : FieldBuilt self message field rules built)
    {nested : MessageIndex} (held : built.value.nested = some nested) :
    field.kind = .singular (.message nested) := by
  obtain ⟨remaining, value⟩ := done.value
  rw [(builds_buildValue value).1] at held
  unfold Target.nested Target.field at held
  dsimp only at held
  split at held
  · rename_i kind
    cases held
    exact kind
  · cases held

/-- The rules of a singular message field are only run when it is set. -/
theorem FieldBuilt.message_set (done : FieldBuilt self message field rules built)
    {nested : MessageIndex} (kind : field.kind = .singular (.message nested)) {m : Message R}
    {v : Option (Val R)} {set : Bool} (isSet : built.isSet m v = .ok set)
    (runs : built.Runs set) : m.has built.field = .ok true := by
  obtain ⟨type, described, -⟩ := builds_field done.described
  have tracked : (field.presence != .implicit) = true :=
    bne_iff_ne.mpr (field.messagePresence nested kind)
  have presence : built.field.hasPresence = true := by
    rw [described]
    simp [Field.fromDescriptor, kind, tracked]
  have skips : built.ignoreEmpty = true := by
    rw [done.ignoreEmpty]
    simp [Target.ignoreEmpty, Target.field, Target.isSingular, kind, tracked]
  have here : set = true := by
    rcases runs with here | ⟨-, never⟩
    · exact here
    · rw [skips] at never
      cases never
  simpa [FieldValidator.isSet, presence, here] using isSet

end Builder

namespace Validator
variable {self : Validator R} {validators : ValidatorCache R}

/-- What a compiled field of a snapshot was built from. -/
theorem compiled_from (published : self.Published validators) {index : MessageIndex}
    {validator : MessageValidator R} {rules : FieldValidator R}
    (found : validators index = some (.ok validator)) (present : .ok rules ∈ validator.fields) :
    ∃ field ∈ (self.pool.message index).fields, ∃ members,
      FieldBuilt (self.builder self.resolved) (self.pool.message index) field
        (fieldRules members field) rules ∧
      rules.field = self.describe field ∧ alwaysIgnored field.fieldRules = false ∧
      (fieldRules members field).type = field.fieldRules.bind (·.type) := by
  obtain ⟨message, made, rfl⟩ := entry_compiled (published.within _ _ found)
  obtain ⟨member, -⟩ := embed_compiled present
  obtain ⟨field, described, members, built⟩ := (builds_buildMessage made).compiled member
  obtain ⟨type, same, resolved, -⟩ := builds_field built.described
  refine ⟨field, described, members, built, ?_, ?_, fieldRules_type members field⟩
  · rw [same, resolved]
    rfl
  · rw [← Bool.not_eq_true]
    exact fun ignored => built.validated ((fieldRules_ignored members field).mpr ignored)

/-- A field that a message holds is entered by its number. -/
theorem enterField_held {index : MessageIndex} {m : Message R} {field : FieldDescriptor}
    {v : Val R} {element : FieldPathElement} (member : field ∈ (self.pool.message index).fields)
    (number : element.fieldNumber = (pathElement field).fieldNumber)
    (got : m.get (self.describe field) = .ok (some v))
    (set : ∀ nested, field.kind = .singular (.message nested) →
      m.has (self.describe field) = .ok true) :
    self.enterField ⟨.singular (.message index), .message m⟩ element = some ⟨field.kind, v⟩ := by
  have value : self.fieldValue m field = some v := by
    simp only [fieldValue, got]
    split
    · rename_i nested kind
      rw [set nested kind]
    · rfl
  simp [enterField, Held.field, elementField_own member number, value]

/-- What a walk validates at a place is what its path leads to. -/
inductive Located (validator : Validator R) (validators : ValidatorCache R) (start : Held R) :
    Place R → Prop
  | message {index : MessageIndex} {compiled : MessageValidator R} {frame : CelFrame R}
      {m : Message R} {path : List FieldPathElement} :
    validator.follow start path = some ⟨.singular (.message index), .message m⟩ →
    validator.Unignored start path false →
    validator.Known (.singular (.message index)) (.message m) →
    validators index = some (.ok compiled) →
    Located validator validators start ⟨path, .message compiled frame m⟩
  | missing {index : MessageIndex} {m : Message R} {path : List FieldPathElement}
      {field : FieldDescriptor} {rules : FieldValidator R} :
    validator.follow start path = some ⟨.singular (.message index), .message m⟩ →
    validator.Unignored start (path ++ [rules.element]) false →
    field ∈ (validator.pool.message index).fields → rules.element = pathElement field →
    has m (validator.describe field) = .ok false →
    Located validator validators start ⟨path, .missing rules⟩
  | value {kind : DescriptorKind} {v : Val R} {rules : ValueValidator R} {bind : CelBind R}
      {path : List FieldPathElement} :
    validator.follow start path = some ⟨kind, v⟩ → validator.Unignored start path false →
    validator.Known kind v →
    (∀ nested, rules.nested = some nested → kind = .singular (.message nested)) →
    Located validator validators start ⟨path, .value rules bind (some v)⟩
  | key {k : Atom} {rules : ValueValidator R} {kind : Singular} {path : List FieldPathElement} :
    validator.followKey start path = some k → validator.Unignored start path true →
    Located validator validators start ⟨path, .key rules kind k⟩

/-- What a field is read as, where a walk gets to it. -/
theorem isSet_has {rules : FieldValidator R} {m : Message R} {v : Option (Val R)}
    (got : m.get rules.field = .ok v) : rules.isSet m v = has m rules.field := by
  unfold FieldValidator.isSet has
  split
  · rfl
  · rw [got]
    rfl

section Enters
variable {start : Held R} {path : List FieldPathElement} {index : MessageIndex} {m : Message R}
  {field : FieldDescriptor} {element : FieldPathElement}

/-- A path stays unignored when it goes on to a field that is not ignored. -/
theorem unignored_field
    (leads : self.follow start path = some ⟨.singular (.message index), .message m⟩)
    (unignored : self.Unignored start path false)
    (member : field ∈ (self.pool.message index).fields)
    (number : element.fieldNumber = (pathElement field).fieldNumber) {forKey : Bool}
    (kept : ignoredAt field element forKey = false) :
    self.Unignored start (path ++ [element]) forKey := by
  refine unignored.snoc leads fun other named => ?_
  have own : Held.field self.pool (⟨.singular (.message index), .message m⟩ : Held R) element =
      some field := elementField_own member number
  rw [own] at named
  cases named
  exact kept

variable {compiled : MessageValidator R} {frame : CelFrame R} {rules : FieldValidator R}

/-- A field that a walk gets to in a message whose fields are known: what it
was built from, and the value it has. -/
theorem atField_known (published : self.Published validators)
    (known : self.Known (.singular (.message index)) (.message m))
    (found : validators index = some (.ok compiled)) {v : Option (Val R)} {set : Bool}
    (reached : AtField (self.walk validators) Ended compiled frame m path rules v set) :
    ∃ field ∈ (self.pool.message index).fields, ∃ members w, v = some w ∧
      FieldBuilt (self.builder self.resolved) (self.pool.message index) field
        (fieldRules members field) rules ∧
      rules.field = self.describe field ∧ m.get (self.describe field) = .ok (some w) ∧
      alwaysIgnored field.fieldRules = false ∧
      (fieldRules members field).type = field.fieldRules.bind (·.type) ∧
      self.Known field.kind w := by
  obtain ⟨field, member, members, built, described, kept, type⟩ :=
    compiled_from published found reached.mem
  have got := reached.got
  rw [described] at got
  cases known with
  | message has_ values =>
    cases v with
    | none => exact absurd got (has_ field member)
    | some w => exact ⟨field, member, members, w, rfl, built, described, got, kept, type,
        values field member w got⟩

/-- The same of a container field, when a walk gets to its items. -/
theorem contents_known (published : self.Published validators)
    (known : self.Known (.singular (.message index)) (.message m))
    (found : validators index = some (.ok compiled)) {v : Val R}
    (reached : AtContents (self.walk validators) Ended compiled frame m path rules v) :
    ∃ field ∈ (self.pool.message index).fields, ∃ members,
      FieldBuilt (self.builder self.resolved) (self.pool.message index) field
        (fieldRules members field) rules ∧
      m.get (self.describe field) = .ok (some v) ∧ alwaysIgnored field.fieldRules = false ∧
      (fieldRules members field).type = field.fieldRules.bind (·.type) ∧
      self.Known field.kind v := by
  obtain ⟨set, atField, -⟩ := reached.field
  obtain ⟨field, member, members, w, same, built, -, got, kept, type, inner⟩ :=
    atField_known published known found atField
  cases same
  exact ⟨field, member, members, built, got, kept, type, inner⟩

section Steps
variable (leads : self.follow start path = some ⟨.singular (.message index), .message m⟩)
  (member : field ∈ (self.pool.message index).fields)
  (number : element.fieldNumber = (pathElement field).fieldNumber)
include leads member number

/-- An element without a subscript leads to the value of its field. -/
theorem follow_field {v : Val R} (got : m.get (self.describe field) = .ok (some v))
    (set : ∀ nested, field.kind = .singular (.message nested) →
      m.has (self.describe field) = .ok true) (plain : element.subscript = none) :
    self.follow start (path ++ [element]) = some ⟨field.kind, v⟩ := by
  rw [follow_snoc, leads, Option.bind_some, enter, plain]
  exact enterField_held member number got set

/-- An element with a subscript leads to an item of its field. -/
theorem follow_item {v : Val R} (got : m.get (self.describe field) = .ok (some v))
    (container : ∀ nested, field.kind ≠ .singular (.message nested)) {subscript : Subscript}
    (subscripted : element.subscript = some subscript) :
    self.follow start (path ++ [element]) = (⟨field.kind, v⟩ : Held R).item subscript := by
  have entered := enterField_held member number got
    fun nested kind => absurd kind (container nested)
  rw [follow_snoc, leads, Option.bind_some, enter, subscripted]
  simp only [entered, Option.bind_some]

theorem follow_key {map : MapView R} (got : m.get (self.describe field) = .ok (some (.map map)))
    (container : ∀ nested, field.kind ≠ .singular (.message nested)) {subscript : Subscript}
    (subscripted : element.subscript = some subscript) :
    self.followKey start (path ++ [element]) = (map.entry subscript).map Prod.fst := by
  have entered := enterField_held member number got
    fun nested kind => absurd kind (container nested)
  simp [followKey, leads, entered, subscripted]

end Steps

theorem entryElement_number (field : FieldDescriptor) :
    (entryElement field).fieldNumber = (pathElement field).fieldNumber := by
  unfold entryElement
  split <;> rfl

theorem entryElement_at (field : FieldDescriptor) (subscript : Option Subscript) :
    ((entryElement field).withSubscript subscript).fieldNumber =
      (pathElement field).fieldNumber :=
  entryElement_number field

/-- A field without a subscript is ignored if all its rules are. -/
theorem unignored_plain {field : FieldDescriptor} (kept : alwaysIgnored field.fieldRules = false) :
    ignoredAt field (pathElement field) false = false := by
  simp [ignoredAt, kept, pathElement, pathElementNamed]

/-! ### Where a walk goes on from a message -/

section Located
variable (published : self.Published validators)
  (leads : self.follow start path = some ⟨.singular (.message index), .message m⟩)
  (unignored : self.Unignored start path false)
  (known : self.Known (.singular (.message index)) (.message m))
  (found : validators index = some (.ok compiled))
include published leads unignored known found

theorem missing_located {value : Option (Val R)}
    (reached : AtField (self.walk validators) Ended compiled frame m path rules value false) :
    self.Located validators start ⟨path, .missing rules⟩ := by
  obtain ⟨field, member, members, w, -, built, described, -, kept, -⟩ :=
    atField_known published known found reached
  have unset := reached.isSet
  rw [isSet_has reached.got, described] at unset
  refine .missing leads ?_ member built.element unset
  rw [built.element]
  exact unignored_field leads unignored member rfl (unignored_plain kept)

theorem field_located {value : Option (Val R)} {set : Bool}
    (reached : AtField (self.walk validators) Ended compiled frame m path rules value set)
    (runs : rules.Runs set) :
    self.Located validators start
      ⟨path ++ [rules.element], .value rules.value (.field frame rules.field) value⟩ := by
  obtain ⟨field, member, members, w, rfl, built, described, got, kept, -, inner⟩ :=
    atField_known published known found reached
  rw [built.element]
  refine .value ?_ (unignored_field leads unignored member rfl (unignored_plain kept)) inner
    fun nested => built.nests_value
  refine follow_field leads member rfl got (fun nested kind => ?_) rfl
  rw [← described]
  exact built.message_set kind reached.isSet runs

theorem element_located {l : ListView R} {items : ItemValidator R} {single : Singular}
    {len i : Nat} {v : Val R}
    (reached : AtContents (self.walk validators) Ended compiled frame m path rules (.list l))
    (listed : rules.kind = .list (some items)) (counted : l.len = .ok len) (inside : i < len)
    (item : l.get i = .ok (some v)) :
    self.Located validators start
      ⟨path ++ [rules.element.withSubscript (some (.index i))],
        .value items.value (.item single) (some v)⟩ := by
  obtain ⟨field, member, members, built, got, kept, type, inner⟩ :=
    contents_known published known found reached
  obtain ⟨element, kind, keptItems, nests⟩ := built.list_items listed
  rw [type] at keptItems
  have container : ∀ nested, field.kind ≠ .singular (.message nested) := by simp [kind]
  have number : ((pathElement field).withSubscript (some (.index i))).fieldNumber =
      (pathElement field).fieldNumber := rfl
  have here : ignoredAt field ((pathElement field).withSubscript (some (.index i))) false =
      false := by
    simp [ignoredAt, kept, kind, keptItems]
  rw [kind] at inner
  rw [built.element]
  cases inner with
  | list elements =>
    refine .value ?_ (unignored_field leads unignored member number here) (elements _ _ item)
      fun nested held => by rw [nests nested held]
    rw [follow_item leads member number got container rfl]
    simp [Held.item, kind, counted, item, inside]

section Entries
variable {map : MapView R} {element : FieldPathElement} {single : Singular}
  {before after : List (Atom × Val R)} {k : Atom} {v : Val R}
  (reached : AtContents (self.walk validators) Ended compiled frame m path rules (.map map))
  (entries : map.entries = before ++ (k, v) :: after)
include reached entries

theorem key_located {keys : ItemValidator R} {values : Option (ItemValidator R)}
    (mapped : rules.kind = .map element (some keys) values) :
    self.Located validators start
      ⟨path ++ [element.withSubscript (keySubscript k)], .key keys.value single k⟩ := by
  obtain ⟨field, member, members, built, got, kept, type, inner⟩ :=
    contents_known published known found reached
  obtain ⟨key, value, kind, keptKeys, rfl⟩ := built.map_keys mapped
  rw [type] at keptKeys
  have container : ∀ nested, field.kind ≠ .singular (.message nested) := by simp [kind]
  have here : ignoredAt field ((entryElement field).withSubscript (keySubscript k)) true =
      false := by
    simp [ignoredAt, kept, kind, keptKeys]
  rw [kind] at inner
  cases inner with
  | map distinct subscripted values =>
    obtain ⟨subscript, named⟩ := Option.isSome_iff_exists.mp
      (subscripted _ _ (entries ▸ List.mem_append_right _ List.mem_cons_self))
    have last : ((entryElement field).withSubscript (keySubscript k)).subscript =
        some subscript := named
    refine .key ?_ (unignored_field leads unignored member (entryElement_at field _) here)
    rw [follow_key leads member (entryElement_at field _) got container last,
      entry_found distinct entries named]
    rfl

theorem entry_located {keys : Option (ItemValidator R)} {values : ItemValidator R}
    (mapped : rules.kind = .map element keys (some values)) :
    self.Located validators start
      ⟨path ++ [element.withSubscript (keySubscript k)],
        .value values.value (.item single) (some v)⟩ := by
  obtain ⟨field, member, members, built, got, kept, type, inner⟩ :=
    contents_known published known found reached
  obtain ⟨key, value, kind, keptValues, rfl, nests⟩ := built.map_values mapped
  rw [type] at keptValues
  have container : ∀ nested, field.kind ≠ .singular (.message nested) := by simp [kind]
  have here : ignoredAt field ((entryElement field).withSubscript (keySubscript k)) false =
      false := by
    simp [ignoredAt, kept, kind, keptValues]
  rw [kind] at inner
  cases inner with
  | map distinct subscripted values =>
    have present := entries ▸ List.mem_append_right _ List.mem_cons_self
    obtain ⟨subscript, named⟩ := Option.isSome_iff_exists.mp (subscripted _ _ present)
    have last : ((entryElement field).withSubscript (keySubscript k)).subscript =
        some subscript := named
    refine .value ?_ (unignored_field leads unignored member (entryElement_at field _) here)
      (values _ _ present) fun nested held => by rw [nests nested held]
    rw [follow_item leads member (entryElement_at field _) got container last]
    simp [Held.item, kind, entry_found distinct entries named]

end Entries

end Located

/-- A walk that is where its path leads goes on to where its path leads. -/
theorem enters_located (published : self.Published validators) {at_ next : Place R}
    (located : self.Located validators start at_)
    (enters : Enters (self.walk validators) Ended at_ next) :
    self.Located validators start next := by
  cases enters with
  | missing reached required =>
    cases located with
    | message leads unignored known found =>
      exact missing_located published leads unignored known found reached
  | field reached runs =>
    cases located with
    | message leads unignored known found =>
      exact field_located published leads unignored known found reached runs
  | element reached listed _ counted inside _ item _ =>
    cases located with
    | message leads unignored known found =>
      exact element_located published leads unignored known found reached listed counted inside item
  | key reached mapped _ entries _ _ =>
    cases located with
    | message leads unignored known found =>
      exact key_located published leads unignored known found reached entries mapped
  | entry reached mapped _ entries _ _ _ =>
    cases located with
    | message leads unignored known found =>
      exact entry_located published leads unignored known found reached entries mapped
  | nested looked _ =>
    cases located with
    | value leads unignored known nests =>
      obtain ⟨-, same⟩ | ⟨index, inner, held, found, same⟩ := nestedMessage_ok looked
      · cases same
      · cases same
        obtain rfl := nests index held
        exact .message leads unignored known found

theorem reaches_located (published : self.Published validators) {at_ reached : Place R}
    (located : self.Located validators start at_)
    (reaches : Reaches (self.walk validators) at_ reached) :
    self.Located validators start reached := by
  induction reaches with
  | refl => exact located
  | tail _ enters ih => exact enters_located published ih enters

end Enters

/-- A violation of the rules at a place names what they were evaluated on: the
value or the key that its path leads to, or the message. A required field that
is not set is named below its message, and so is a required oneof. -/
inductive Resolves (validator : Validator R) (start : Held R) : Place R → Violation → Prop
  | value {held : Held R} {rules : ValueValidator R} {bind : CelBind R}
      {path : List FieldPathElement} {violation : Violation} :
    validator.follow start violation.elements = some held → violation.forKey = none →
    validator.Unignored start violation.elements false →
    Resolves validator start ⟨path, .value rules bind (some held.value)⟩ violation
  | key {k : Atom} {rules : ValueValidator R} {kind : Singular} {path : List FieldPathElement}
      {violation : Violation} :
    validator.followKey start violation.elements = some k → violation.forKey = some true →
    validator.Unignored start violation.elements true →
    Resolves validator start ⟨path, .key rules kind k⟩ violation
  | message {index : MessageIndex} {m : Message R} {compiled : MessageValidator R}
      {frame : CelFrame R} {path : List FieldPathElement} {violation : Violation} :
    validator.follow start violation.elements = some ⟨.singular (.message index), .message m⟩ →
    violation.forKey = none → validator.Unignored start violation.elements false →
    Resolves validator start ⟨path, .message compiled frame m⟩ violation
  | required {index : MessageIndex} {m : Message R} {field : FieldDescriptor}
      {rules : FieldValidator R} {path : List FieldPathElement} {rulePath : List FieldPathElement} :
    validator.follow start path = some ⟨.singular (.message index), .message m⟩ →
    field ∈ (validator.pool.message index).fields → has m (validator.describe field) = .ok false →
    validator.Unignored start (path ++ [pathElement field]) false →
    Resolves validator start ⟨path, .missing rules⟩
      (Failure.violation ⟨"required", "value is required", rulePath⟩
        (path ++ [pathElement field]) false)
  | oneof {index : MessageIndex} {m : Message R} {oneof : OneofDescriptor}
      {compiled : MessageValidator R} {frame : CelFrame R} {path : List FieldPathElement} :
    validator.follow start path = some ⟨.singular (.message index), .message m⟩ →
    oneof ∈ (validator.pool.message index).oneofs →
    oneof.oneofRules.any (fun rules => rules.required.getD false) = true →
    validator.Unignored start path false →
    Resolves validator start ⟨path, .message compiled frame m⟩
      (Failure.violation ⟨"required", "exactly one field is required in oneof", []⟩
        (path ++ [oneofPathElement oneof.name]) false)

/-- The required oneofs of a compiled type are declared in its message. -/
theorem oneof_declared (published : self.Published validators) {index : MessageIndex}
    {compiled : MessageValidator R} (found : validators index = some (.ok compiled))
    {oneof : OneofRequired R} (present : oneof ∈ compiled.oneofs) :
    ∃ declared ∈ (self.pool.message index).oneofs,
      declared.oneofRules.any (fun rules => rules.required.getD false) = true ∧
      oneof.element = oneofPathElement declared.name := by
  obtain ⟨message, made, rfl⟩ := entry_compiled (published.within _ _ found)
  have oneofs := builds_mapM.mp (builds_buildMessage made).oneofs
  obtain ⟨declared, member, built⟩ := exists_left oneofs present
  obtain ⟨member, required⟩ := List.mem_filter.mp member
  simp only [builds_bind, builds_pure] at built
  obtain ⟨members, -, rfl⟩ := built
  exact ⟨declared, member, required, rfl⟩

/-- What the rules at a place report names what they were evaluated on. -/
theorem located_resolves (published : self.Published validators) {start : Held R} {at_ : Place R}
    (located : self.Located validators start at_) {violation : Violation}
    (reported : violation ∈ (at_.rules (self.walk validators)).out) :
    self.Resolves start at_ violation := by
  have elements := elements_violation
  cases located with
  | @message index compiled frame m path leads unignored known found =>
    rcases messageRules_reports _ _ _ _ _ reported with ⟨failure, rfl⟩ | ⟨oneof, present, rfl⟩
    · rw [← elements failure path false] at leads unignored
      exact .message leads rfl unignored
    · obtain ⟨declared, member, required, same⟩ := oneof_declared published found present
      rw [same]
      exact .oneof leads member required unignored
  | missing leads unignored member element unset =>
    obtain rfl := List.mem_singleton.mp reported
    rw [element] at unignored
    rw [element]
    exact .required leads member unset unignored
  | @value kind v rules bind path leads unignored known nests =>
    obtain ⟨failure, rfl⟩ := ReportsAt.valueRules _ _ _ _ _ _ _ reported
    rw [← elements failure path false] at leads unignored
    exact .value leads rfl unignored
  | @key k rules kind path leads unignored =>
    obtain ⟨failure, rfl⟩ := ReportsAt.valueRules _ _ _ _ _ ⟨path, true⟩ _ reported
    rw [← elements failure path true] at leads unignored
    exact .key leads rfl unignored

/-- Every violation of a full walk of a message whose runtime knows its fields
has a field path that leads to what the rule was evaluated on, past no field
and no items that are always ignored. -/
theorem violations_resolve {Θ : Type} [DecidableEq Θ] (self : Validator R)
    {s : Shared R Θ} (reachable : self.Reachable s) {validators : ValidatorCache R}
    (snapshot : validators = s.cache ∨ ∃ t index, s.calls t = .returned index validators)
    {index : MessageIndex} {compiled : MessageValidator R}
    (found : validators index = some (.ok compiled)) {m : Message R}
    (known : self.Known (.singular (.message index)) (.message m)) (typeName : String)
    {violations : List Violation}
    (done : (self.walk validators).validate false compiled m typeName = .ok violations) :
    ∀ violation ∈ violations, ∃ at_,
      Reaches (self.walk validators) (root compiled m typeName) at_ ∧
      violation ∈ (at_.rules (self.walk validators)).out ∧
      self.Resolves ⟨.singular (.message index), .message m⟩ at_ violation := by
  have published := reachable_published reachable snapshot
  rw [validate_full] at done
  obtain ⟨_, -, rfl⟩ := map_eq_ok.mp done
  intro violation reported
  have accounted : Accounted (self.walk validators) (root compiled m typeName)
      (Spec.report (self.walk validators) compiled m typeName []) :=
    message_accounted compiled ⟨typeName, m⟩ m []
  obtain ⟨at_, reaches, here⟩ := accounted.reported violation reported
  refine ⟨at_, reaches, here, ?_⟩
  refine located_resolves published (reaches_located published ?_ reaches) here
  refine .message rfl (fun before element after held field split => ?_) known found
  simp at split

end Validator

/-- A message with a map whose values must be true. -/
def flagsPool : DescriptorPool where
  messages := [
    { fullName := "Flags"
      fields := [plainField 1 "flags" (.map .string (.scalar .bool))
        (some ⟨[], [], none, none, some (.map ⟨none, none, none,
          some ⟨[], [], none, none, some (.bool ⟨some true, [], []⟩)⟩, []⟩)⟩) one_allowed]
      oneofs := []
      messageRules := none
      numbersDistinct := by simp
      namesDistinct := by simp },
    { fullName := FIELD_RULES
      fields := [plainField 13 "bool" (.singular (.message 2)) none thirteen_allowed,
        plainField 19 "map" (.singular (.message 3)) none (by decide)]
      oneofs := []
      messageRules := none
      numbersDistinct := by simp
      namesDistinct := by simp },
    boolRulesMessage,
    { fullName := "buf.validate.MapRules"
      fields := []
      oneofs := []
      messageRules := none
      numbersDistinct := List.nodup_nil
      namesDistinct := List.nodup_nil }]
  enums := []
  extensions := []
  linked := by simp [boolRulesMessage, messageType]

def flagsValidator : Validator ⟨Empty, Unit⟩ where
  descriptors := ⟨flagsPool, ⟨1, {}, {}, {}, {}, {}, {}, {}, {}⟩⟩
  env := ⟨fun _ _ => .ok ⟨fun _ _ => .ok (.bool true)⟩, fun name bytes => .ok ⟨name, bytes⟩⟩
  backend := Backend.bare
  reflection := ⟨fun _ _ => false, fun _ _ => [], fun _ => []⟩
  resolve _ := .ok ()

/-- A message with one entry, which is false. -/
def oneFlag : Message ⟨Empty, Unit⟩ where
  has _ := .ok true
  get _ := .ok (some (.map ⟨.ok 1, [(.string "on", .bool false)], none⟩))
  encode := .ok []

theorem flags_closure :
    closure flagsPool 0 (fun _ => none : ValidatorCache ⟨Empty, Unit⟩) = [0] := by
  have alone : referenced flagsPool 0 = [] := rfl
  simp [closure, FiniteGraph.search, typeGraph, alone]

theorem flags_build : ∃ built compiled violation,
    flagsValidator.build 0 (fun _ => none) = .ok built ∧ built 0 = some (.ok compiled) ∧
    (flagsValidator.walk built).validate false compiled oneFlag "Flags" = .ok [violation] ∧
    violation.elements.map FieldPathElement.subscript = [some (.stringKey "on")] := by
  have types : closure flagsValidator.pool 0 (fun _ => none : ValidatorCache ⟨Empty, Unit⟩) =
      [0] := flags_closure
  have messages : ∀ types, closure (flagsValidator.builder types).pool 0
      (fun _ => none : ValidatorCache ⟨Empty, Unit⟩) = [0] := fun _ => flags_closure
  simp only [Validator.build, resolve, Builder.buildClosure, types, messages]
  exact ⟨_, _, _, rfl, rfl, rfl, rfl⟩

/-- The entry that is false is what its violation leads to. -/
theorem violations_resolve_flags : ∃ built compiled violation,
    flagsValidator.build 0 (fun _ => none) = .ok built ∧
    (flagsValidator.walk built).validate false compiled oneFlag "Flags" = .ok [violation] ∧
    ∃ at_, Reaches (flagsValidator.walk built) (root compiled oneFlag "Flags") at_ ∧
      violation ∈ (at_.rules (flagsValidator.walk built)).out ∧
      flagsValidator.Resolves ⟨.singular (.message 0), .message oneFlag⟩ at_ violation := by
  obtain ⟨built, compiled, violation, made, found, walked, -⟩ := flags_build
  have cached := (flagsValidator.alone_returned made).1
  have known : flagsValidator.Known (.singular (.message 0)) (.message oneFlag) := by
    refine .message (fun field member unset => by cases unset) fun field member v got => ?_
    obtain rfl := List.mem_singleton.mp member
    cases got
    refine .map (by simp) (fun k v present => ?_) fun k v present => ?_
    · cases List.mem_singleton.mp present
      rfl
    · cases List.mem_singleton.mp present
      exact .atom _ _
  refine ⟨built, compiled, violation, made, walked, ?_⟩
  exact flagsValidator.violations_resolve (flagsValidator.alone_reachable 0 3) (.inl cached.symm)
    found known "Flags" walked violation List.mem_cons_self

end Protovalidate
