import Protovalidate.RuleReports
import Protovalidate.SharedCache
import Protovalidate.WalkRefinesSpec

/-!
# Following a field path

A field path is followed from a message one element at a time: by the number of
a field, then by the index of an element or the key of an entry. A singular
message field is only passed when it is set.
-/

namespace Protovalidate

open BuildM Builder

variable {R : Runtime}

/-- A value, and the kind its descriptor declares. -/
structure Held (R : Runtime) where
  kind : DescriptorKind
  value : Val R

/-- The field of a message type that a path element names by its number. -/
def elementField (pool : DescriptorPool) (index : MessageIndex) (element : FieldPathElement) :
    Option FieldDescriptor :=
  (pool.message index).fields.find? (fun field => element.fieldNumber == some (field.number : Int))

/-- The entry of a map under a subscript. -/
def MapView.entry (map : MapView R) (subscript : Subscript) : Option (Atom × Val R) :=
  map.entries.find? (fun entry => keySubscript entry.1 == some subscript)

/-- The element or the entry's value of a container under a subscript. -/
def Held.item (held : Held R) (subscript : Subscript) : Option (Held R) :=
  match held.kind, held.value with
  | .list element, .list l =>
    match subscript, l.len with
    | .index i, .ok len =>
      match l.get i with
      | .ok (some v) => if i < len then some ⟨.singular element, v⟩ else none
      | _ => none
    | _, _ => none
  | .map _ value, .map map => (map.entry subscript).map fun entry => ⟨.singular value, entry.2⟩
  | _, _ => none

/-- The field that an element names in a message. -/
def Held.field (pool : DescriptorPool) (held : Held R) (element : FieldPathElement) :
    Option FieldDescriptor :=
  match held.kind with
  | .singular (.message index) => elementField pool index element
  | _ => none

/-- Whether rules always ignore a field, or the items of it that an element
descends into. -/
def ignoredAt (field : FieldDescriptor) (element : FieldPathElement) (forKey : Bool) : Bool :=
  let rules := field.fieldRules.bind (·.type)
  let items :=
    match field.kind with
    | .singular _ => none
    | .list _ => itemsOf rules
    | .map _ _ => if forKey then (entriesOf rules).1 else (entriesOf rules).2
  alwaysIgnored field.fieldRules || (element.subscript.isSome && alwaysIgnored items)

namespace Validator
variable (self : Validator R)

/-- A field, as compiled rules describe it to the runtime. -/
def describe (field : FieldDescriptor) : Field R :=
  .fromDescriptor field ((messageType field).bind self.resolved)

/-- What a message holds in a field. -/
def fieldValue (m : Message R) (field : FieldDescriptor) : Option (Val R) :=
  match m.get (self.describe field) with
  | .ok (some v) =>
    match field.kind with
    | .singular (.message _) =>
      match m.has (self.describe field) with
      | .ok true => some v
      | _ => none
    | _ => some v
  | _ => none

/-- The field that an element names, without its subscript. -/
def enterField (held : Held R) (element : FieldPathElement) : Option (Held R) :=
  match held.field self.pool element, held.value with
  | some field, .message m => (self.fieldValue m field).map fun v => ⟨field.kind, v⟩
  | _, _ => none

/-- What an element leads to. -/
def enter (held : Held R) (element : FieldPathElement) : Option (Held R) :=
  match element.subscript with
  | none => self.enterField held element
  | some subscript => (self.enterField held element).bind (·.item subscript)

/-- What a field path leads to. -/
def follow (start : Held R) (path : List FieldPathElement) : Option (Held R) :=
  path.foldlM self.enter start

/-- The key of the map entry that a field path leads to. -/
def followKey (start : Held R) (path : List FieldPathElement) : Option Atom := do
  let last ← path.getLast?
  let held ← self.follow start path.dropLast
  let container ← self.enterField held last
  match container.value, last.subscript with
  | .map map, some subscript => (map.entry subscript).map Prod.fst
  | _, _ => none

/-- No field on a path is always ignored, nor are the items it descends into. -/
def Unignored (validator : Validator R) (start : Held R) (path : List FieldPathElement)
    (forKey : Bool) : Prop :=
  ∀ before element after held field, path = before ++ element :: after →
    validator.follow start before = some held → held.field validator.pool element = some field →
    ignoredAt field element (forKey && after.isEmpty) = false

/-- A value whose runtime knows the fields of its messages. The keys of a map
are distinct, and of the types that Protobuf allows. -/
inductive Known (validator : Validator R) : DescriptorKind → Val R → Prop
  | atom (kind : DescriptorKind) (a : Atom) : Known validator kind (.atom a)
  | message {index : MessageIndex} {m : Message R} :
    (∀ field ∈ (validator.pool.message index).fields,
      m.get (validator.describe field) ≠ .ok none) →
    (∀ field ∈ (validator.pool.message index).fields, ∀ v,
      m.get (validator.describe field) = .ok (some v) → Known validator field.kind v) →
    Known validator (.singular (.message index)) (.message m)
  | list {element : SingularKind} {l : ListView R} :
    (∀ i v, l.get i = .ok (some v) → Known validator (.singular element) v) →
    Known validator (.list element) (.list l)
  | map {key : Scalar} {value : SingularKind} {m : MapView R} :
    (m.entries.map Prod.fst).Nodup → (∀ k v, (k, v) ∈ m.entries → (keySubscript k).isSome) →
    (∀ k v, (k, v) ∈ m.entries → Known validator (.singular value) v) →
    Known validator (.map key value) (.map m)

variable {self}

theorem follow_snoc (start : Held R) (path : List FieldPathElement) (element : FieldPathElement) :
    self.follow start (path ++ [element]) =
      (self.follow start path).bind fun held => self.enter held element := by
  unfold follow
  rw [List.foldlM_append]
  cases path.foldlM self.enter start with
  | none => rfl
  | some held => simp

/-- A path stays unignored when one more element is not ignored. -/
theorem Unignored.snoc {start held : Held R} {path : List FieldPathElement}
    {element : FieldPathElement} {forKey : Bool} (unignored : self.Unignored start path false)
    (leads : self.follow start path = some held)
    (last : ∀ field, held.field self.pool element = some field →
      ignoredAt field element forKey = false) :
    self.Unignored start (path ++ [element]) forKey := by
  intro before middle after at_ field split reached named
  rcases List.eq_nil_or_concat after with rfl | ⟨rest, other, rfl⟩
  · obtain ⟨rfl, same⟩ := List.append_inj' split rfl
    obtain rfl : element = middle := by simpa using same
    rw [leads] at reached
    cases reached
    simpa using last field named
  · have earlier : path = before ++ middle :: rest := by
      have whole : path ++ [element] = (before ++ middle :: rest) ++ [other] := by simp [split]
      exact (List.append_inj' whole rfl).1
    have kept := unignored before middle rest at_ field earlier reached named
    have more : (rest.concat other).isEmpty = false := by simp
    rw [more, Bool.and_false]
    exact kept

end Validator

/-- Keys with a subscript are told apart by it. -/
theorem keySubscript_inj {k k' : Atom} (some : (keySubscript k).isSome)
    (same : keySubscript k = keySubscript k') : k = k' := by
  cases k <;> cases k' <;> simp_all [keySubscript]

/-- The entry of a key is found under its subscript. -/
theorem entry_found {map : MapView R} {before after : List (Atom × Val R)} {k : Atom} {v : Val R}
    {subscript : Subscript} (distinct : (map.entries.map Prod.fst).Nodup)
    (entries : map.entries = before ++ (k, v) :: after)
    (key : keySubscript k = some subscript) : map.entry subscript = some (k, v) := by
  refine List.find?_eq_some_iff_append.mpr ⟨by simp [key], before, after, entries, ?_⟩
  rintro ⟨other, w⟩ earlier
  rw [entries, List.map_append, List.nodup_append] at distinct
  have different : other ≠ k :=
    distinct.2.2 other (List.mem_map_of_mem earlier) k (by simp)
  simp only [Bool.not_eq_true', beq_eq_false_iff_ne, ne_eq]
  intro same
  exact different (keySubscript_inj (by rw [same]; rfl) (by rw [same, key]))

/-- A field's own number finds it. -/
theorem elementField_own {pool : DescriptorPool} {index : MessageIndex} {field : FieldDescriptor}
    (member : field ∈ (pool.message index).fields) {element : FieldPathElement}
    (number : element.fieldNumber = (pathElement field).fieldNumber) :
    elementField pool index element = some field := by
  have exact_ : ∀ other : FieldDescriptor, fieldNumber other.number = other.number := by
    intro other
    have allowed := other.numberAllowed
    unfold maxFieldNumber at allowed
    unfold fieldNumber
    rw [if_pos (by omega)]
  have named : element.fieldNumber = some (field.number : Int) := by
    rw [number, ← exact_ field]
    rfl
  have distinct := (pool.message index).numbersDistinct
  unfold elementField
  obtain ⟨before, after, fields⟩ := List.append_of_mem member
  refine List.find?_eq_some_iff_append.mpr ⟨by simp [named], before, after, fields, ?_⟩
  intro other earlier
  rw [fields, List.map_append, List.nodup_append] at distinct
  have different : other.number ≠ field.number :=
    distinct.2.2 _ (List.mem_map_of_mem earlier) _ (by simp)
  simp only [named, Bool.not_eq_true', beq_eq_false_iff_ne, ne_eq, Option.some.injEq]
  omega

end Protovalidate
