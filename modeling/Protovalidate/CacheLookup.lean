import Protovalidate.Embedded

/-!
# What a walk looks up in the cache

A walk looks up the types that the compiled fields it comes by nest, and no
others. Two snapshots with the same entries for these give the same walk.
-/

namespace Protovalidate

open Recording

variable {R : Runtime}

namespace Walk

/-- The walk with another snapshot. -/
def withCache (walk : Walk R) (other : ValidatorCache R) : Walk R :=
  { walk with validators := other }

/-- Another snapshot has the same entries for some types, which nest only types
among them. -/
structure Agrees (walk : Walk R) (other : ValidatorCache R) (types : MessageIndex → Prop) :
    Prop where
  same : ∀ index, types index → other index = walk.validators index
  nested : ∀ index, types index → ∀ compiled, walk.validators index = some (.ok compiled) →
    ∀ rules, .ok rules ∈ compiled.fields → ∀ nested, rules.Nests nested → types nested

end Walk

theorem forM_congr {μ : Type → Type} [Monad μ] {ι : Type} {items : List ι} {f g : ι → μ Unit}
    (same : ∀ item ∈ items, f item = g item) : items.forM f = items.forM g := by
  induction items with
  | nil => rfl
  | cons first rest ih =>
    have tail := ih fun item later => same item (List.mem_cons_of_mem first later)
    show (f first >>= fun _ => rest.forM f) = g first >>= fun _ => rest.forM g
    rw [same first List.mem_cons_self, tail]

namespace Spec
variable {walk : Walk R} {other : ValidatorCache R} {types : MessageIndex → Prop}
  (agrees : walk.Agrees other types)

/-- What a value breaks is the same with the other snapshot. -/
def LooksUp (walk : Walk R) (other : ValidatorCache R) (types : MessageIndex → Prop)
    (v : Val R) : Prop :=
  ∀ validator bind, (∀ nested, validator.nested = some nested → types nested) →
    value (walk.withCache other) validator bind v = value walk validator bind v

theorem option_lookup {read : Option (Val R)}
    (parts : ∀ v, read = some v → LooksUp walk other types v) {validator : ValueValidator R}
    (nests : ∀ nested, validator.nested = some nested → types nested) (bind : CelBind R) :
    option (walk.withCache other) validator bind read = option walk validator bind read := by
  cases read with
  | none => rfl
  | some v => exact parts v rfl validator bind nests

theorem item_lookup {read : Except R.Error (Option (Val R))}
    (parts : ∀ v, read = .ok (some v) → LooksUp walk other types v) {items : ItemValidator R}
    (nests : ∀ nested, items.value.nested = some nested → types nested)
    (container : FieldPathElement) (kind : Singular) (index : Nat) :
    item (walk.withCache other) items container kind index read =
      item walk items container kind index read := by
  cases read with
  | error e => rfl
  | ok read =>
    cases read with
    | none => rfl
    | some v => simp only [item, parts v rfl _ _ nests]

theorem list_lookup {l : ListView R} (parts : ∀ v, Part v (.list l) → LooksUp walk other types v)
    {items : ItemValidator R} (nests : ∀ nested, items.value.nested = some nested → types nested)
    (container : FieldPathElement) (kind : Singular) :
    list (walk.withCache other) items container kind l = list walk items container kind l := by
  obtain ⟨len, get⟩ := l
  have each : ∀ index, item (walk.withCache other) items container kind index (get index) =
      item walk items container kind index (get index) :=
    fun index => item_lookup (fun v found => parts v (.element found)) nests _ _ _
  simp only [list, each]

theorem entryList_lookup {visited : List (Atom × Val R)}
    (parts : ∀ e ∈ visited, LooksUp walk other types e.2) {entries : Entries R}
    (nests : ∀ values, entries.values = some values →
      ∀ nested, values.value.nested = some nested → types nested)
    (container : FieldPathElement) :
    entryList (walk.withCache other) entries container visited =
      entryList walk entries container visited := by
  induction visited with
  | nil => rfl
  | cons first rest ih =>
    have head : entry (walk.withCache other) entries first = entry walk entries first := by
      obtain ⟨k, v⟩ := first
      have keys : key (walk.withCache other) entries k = key walk entries k := rfl
      simp only [entry, keys]
      cases values : entries.values with
      | none => rfl
      | some inner => simp only [parts _ List.mem_cons_self _ _ (nests inner values)]
    simp only [entryList, head, ih fun e later => parts e (List.mem_cons_of_mem first later)]

theorem map_lookup {m : MapView R} (parts : ∀ v, Part v (.map m) → LooksUp walk other types v)
    {entries : Entries R} (nests : ∀ values, entries.values = some values →
      ∀ nested, values.value.nested = some nested → types nested)
    (container : FieldPathElement) :
    map (walk.withCache other) entries container m = map walk entries container m := by
  obtain ⟨len, visited, fault⟩ := m
  simp only [map, entryList_lookup (fun e found => parts e.2 (.entry (k := e.1) found)) nests]

theorem contents_lookup {read : Option (Val R)}
    (parts : ∀ v w, read = some v → Part w v → LooksUp walk other types w)
    {rules : FieldValidator R} (nests : ∀ nested, rules.Nests nested → types nested) :
    contents (walk.withCache other) rules read = contents walk rules read := by
  cases read with
  | none => rfl
  | some v =>
    cases v with
    | list l =>
      simp only [contents]
      split
      · rename_i items kind listed described
        exact list_lookup (fun w part => parts _ w rfl part)
          (fun nested held => nests nested (.element listed held)) _ _
      · rfl
    | map m =>
      simp only [contents]
      split
      · rename_i element keys values key value mapped described
        refine map_lookup (fun w part => parts _ w rfl part) (fun inner held nested nests' => ?_) _
        cases held
        exact nests nested (.entry mapped nests')
      · rfl
    | atom _ | message _ => rfl

theorem field_lookup {read : Except R.Error (Option (Val R))}
    (parts : ∀ v, read = .ok (some v) →
      LooksUp walk other types v ∧ ∀ w, Part w v → LooksUp walk other types w)
    {rules : FieldValidator R} (nests : ∀ nested, rules.Nests nested → types nested)
    (m : Message R) (frame : CelFrame R) :
    field (walk.withCache other) rules m frame read = field walk rules m frame read := by
  cases read with
  | error e => rfl
  | ok read =>
    have own : option (walk.withCache other) rules.value (.field frame rules.field) read =
        option walk rules.value (.field frame rules.field) read :=
      option_lookup (fun v held => (parts v (by rw [held])).1)
        (fun nested held => nests nested (.value held)) _
    have inner : contents (walk.withCache other) rules read = contents walk rules read :=
      contents_lookup (fun v w held => (parts v (by rw [held])).2 w) nests
    simp only [field, own, inner]
    rfl

theorem message_lookup {m : Message R}
    (parts : ∀ v, Below v (.message m) → LooksUp walk other types v)
    {validator : MessageValidator R} (nests : ∀ rules, .ok rules ∈ validator.fields →
      ∀ nested, rules.Nests nested → types nested) (frame : CelFrame R) :
    message (walk.withCache other) validator frame m = message walk validator frame m := by
  obtain ⟨has, get, encode⟩ := m
  have own : ∀ m, validator.runRules (walk.withCache other) frame m =
    (validator.runRules walk frame m : SpecM R.Error Unit) := fun _ => rfl
  simp only [message, own]
  congr 1
  funext _
  refine forM_congr fun rules member => ?_
  cases rules with
  | error e => rfl
  | ok rules =>
    refine field_lookup (fun v found => ?_) (nests rules member) _ _
    have direct : Part v (.message ⟨has, get, encode⟩) := .field found
    exact ⟨parts v (.single direct), fun w part => parts w (.head part (.single direct))⟩

include agrees

/-- The rules of the message a value holds, which are those of a type among the
agreed ones. -/
theorem nestedMessage_lookup {validator : ValueValidator R}
    (nests : ∀ nested, validator.nested = some nested → types nested) (sub : Message R) :
    validator.nestedMessage (walk.withCache other) sub = validator.nestedMessage walk sub ∧
      ∀ compiled frame, validator.nestedMessage walk sub = .ok (some (compiled, frame)) →
        ∀ rules, .ok rules ∈ compiled.fields → ∀ nested, rules.Nests nested → types nested := by
  constructor
  · unfold ValueValidator.nestedMessage
    cases held : validator.nested with
    | none => rfl
    | some index =>
      simp only [Walk.validator, Walk.withCache, agrees.same index (nests index held)]
  · intro compiled frame found
    obtain ⟨-, same⟩ | ⟨index, _, held, cached, same⟩ := nestedMessage_ok found
    · cases same
    · cases same
      exact agrees.nested index (nests index held) compiled cached

theorem value_lookup (v : Val R) : LooksUp walk other types v := by
  induction v using Val.below_induction with
  | step v below =>
    intro validator bind nests
    cases v with
    | message sub =>
      obtain ⟨looked, inner⟩ := nestedMessage_lookup agrees nests sub
      simp only [value, looked]
      cases found : validator.nestedMessage walk sub with
      | error e => rfl
      | ok nested =>
        cases nested with
        | none => rfl
        | some nested =>
          obtain ⟨compiled, frame⟩ := nested
          have same := message_lookup below (inner compiled frame found) frame
          simp only [orAbort, pure_bind, same]
          rfl
    | atom _ | list _ | map _ => rfl

end Spec

/-- A walk is the same with another snapshot that has the same entries for the
types it may come by. -/
theorem validate_withCache {walk : Walk R} {other : ValidatorCache R} {types : MessageIndex → Prop}
    (agrees : walk.Agrees other types) {index : MessageIndex} (root : types index)
    {validator : MessageValidator R} (found : walk.validators index = some (.ok validator))
    (failFast : Bool) (m : Message R) (typeName : String) :
    (walk.withCache other).validate failFast validator m typeName =
      walk.validate failFast validator m typeName := by
  have same : Spec.report (walk.withCache other) validator m typeName [] =
      Spec.report walk validator m typeName [] := by
    unfold Spec.report
    rw [Spec.message_lookup (fun v _ => Spec.value_lookup agrees v)
      (agrees.nested index root validator found)]
  simp only [Walk.validate, validate_from_root, same]

end Protovalidate
