import Protovalidate.Lib.Outcomes
import Protovalidate.Spec

/-!
# Where a walk runs rules

A walk goes from place to place: from a message into its fields, from a
container field into its items, from a value into the message it holds. It
enters a place when everything before it ended well. Every violation is one of
the rules at a place the walk reaches, and so is every error but a failed read.
-/

namespace Protovalidate

open Recording Relation

/-- What a walk validates at a place. -/
inductive Visit (R : Runtime)
  | message (validator : MessageValidator R) (frame : CelFrame R) (m : Message R)
  | missing (rules : FieldValidator R)
  | value (validator : ValueValidator R) (bind : CelBind R) (v : Option (Val R))
  | key (validator : ValueValidator R) (kind : Singular) (k : Atom)

/-- A place of a walk, at a field path from the root. -/
structure Place (R : Runtime) where
  path : List FieldPathElement
  visit : Visit R

/-- The frame of the message a value holds, when its own rules are run. -/
def ValueValidator.child {R : Runtime} (walk : Walk R) (self : ValueValidator R) :
    Option (Val R) → Option (CelFrame R)
  | some (.message sub) => self.nested.map fun index => ⟨(walk.pool.message index).fullName, sub⟩
  | _ => none

variable {R : Runtime} (walk : Walk R)

/-- A run that ends well, so that the walk goes on. -/
abbrev Ended (x : Emit Violation (Error R.Error) Unit) : Prop := x.result = .ok ()

/-- The rules of what is validated. -/
def Visit.rules : Visit R → SpecM R.Error Unit
  | .message validator frame m => validator.runRules walk frame m
  | .missing rules =>
    within rules.element (push "required" "value is required" [walk.schema.required])
  | .value validator bind v => validator.runRules walk bind (validator.child walk v) v
  | .key validator kind k =>
    SpecM.forKey (validator.runRules walk (.item kind) none (some (.atom k)))

/-- The rules of what is validated, and of everything below it. -/
def Visit.all : Visit R → SpecM R.Error Unit
  | .message validator frame m => Spec.message walk validator frame m
  | .value validator bind v => Spec.option walk validator bind v
  | .missing rules => Visit.rules walk (.missing rules)
  | .key validator kind k => Visit.rules walk (.key validator kind k)

namespace Place

def rules (at_ : Place R) : Emit Violation (Error R.Error) Unit :=
  at_.visit.rules walk ⟨at_.path, false⟩

def all (at_ : Place R) : Emit Violation (Error R.Error) Unit :=
  at_.visit.all walk ⟨at_.path, false⟩

end Place

section Steps
variable (passes : Emit Violation (Error R.Error) Unit → Prop)

/-- A walk gets to a field of a message, and reads it. What comes before it `passes`. -/
structure AtField (validator : MessageValidator R) (frame : CelFrame R) (m : Message R)
    (path : List FieldPathElement) (rules : FieldValidator R) (value : Option (Val R))
    (set : Bool) : Prop where
  reached : ∃ before after, validator.fields = before ++ .ok rules :: after ∧
    passes (Spec.message walk { validator with fields := before } frame m ⟨path, false⟩)
  got : m.get rules.field = .ok value
  isSet : rules.isSet m value = .ok set

/-- Whether the rules of a field are run. -/
def FieldValidator.Runs (rules : FieldValidator R) (set : Bool) : Prop :=
  set = true ∨ rules.required = false ∧ rules.ignoreEmpty = false

/-- A walk gets past the rules of a container field, to its items. -/
structure AtContents (validator : MessageValidator R) (frame : CelFrame R) (m : Message R)
    (path : List FieldPathElement) (rules : FieldValidator R) (v : Val R) : Prop where
  field : ∃ set, AtField walk passes validator frame m path rules (some v) set ∧ rules.Runs set
  own : passes (Spec.option walk rules.value (.field frame rules.field) (some v)
    ⟨path ++ [rules.element], false⟩)

/-- The next place a walk enters. -/
inductive Enters : Place R → Place R → Prop
  | missing {validator : MessageValidator R} {frame : CelFrame R} {m : Message R}
      {path : List FieldPathElement} {rules : FieldValidator R} {value : Option (Val R)} :
    AtField walk passes validator frame m path rules value false → rules.required = true →
    Enters ⟨path, .message validator frame m⟩ ⟨path, .missing rules⟩
  | field {validator : MessageValidator R} {frame : CelFrame R} {m : Message R}
      {path : List FieldPathElement} {rules : FieldValidator R} {value : Option (Val R)}
      {set : Bool} :
    AtField walk passes validator frame m path rules value set → rules.Runs set →
    Enters ⟨path, .message validator frame m⟩
      ⟨path ++ [rules.element], .value rules.value (.field frame rules.field) value⟩
  | element {validator : MessageValidator R} {frame : CelFrame R} {m : Message R}
      {path : List FieldPathElement} {rules : FieldValidator R} {l : ListView R}
      {items : ItemValidator R} {kind : Singular} {len index : Nat} {v : Val R} :
    AtContents walk passes validator frame m path rules (.list l) →
    rules.kind = .list (some items) → rules.field.kind = .list kind →
    l.len = .ok len → index < len →
    passes ((List.range index).forM fun i =>
      Spec.item walk items rules.element kind i (l.get i) ⟨path, false⟩) →
    l.get index = .ok (some v) → items.skips v = .ok false →
    Enters ⟨path, .message validator frame m⟩
      ⟨path ++ [rules.element.withSubscript (some (.index index))],
        .value items.value (.item kind) (some v)⟩
  | key {validator : MessageValidator R} {frame : CelFrame R} {m : Message R}
      {path : List FieldPathElement} {rules : FieldValidator R} {map : MapView R}
      {element : FieldPathElement} {keys : ItemValidator R} {values : Option (ItemValidator R)}
      {key : Scalar} {kind : Singular} {before after : List (Atom × Val R)} {k : Atom}
      {v : Val R} :
    AtContents walk passes validator frame m path rules (.map map) →
    rules.kind = .map element (some keys) values → rules.field.kind = .map key kind →
    map.entries = before ++ (k, v) :: after →
    passes (Spec.entryList walk ⟨.scalar key, kind, some keys, values⟩ element before
      ⟨path, false⟩) →
    keys.skips (.atom k : Val R) = .ok false →
    Enters ⟨path, .message validator frame m⟩
      ⟨path ++ [element.withSubscript (keySubscript k)], .key keys.value (.scalar key) k⟩
  | entry {validator : MessageValidator R} {frame : CelFrame R} {m : Message R}
      {path : List FieldPathElement} {rules : FieldValidator R} {map : MapView R}
      {element : FieldPathElement} {keys : Option (ItemValidator R)} {values : ItemValidator R}
      {key : Scalar} {kind : Singular} {before after : List (Atom × Val R)} {k : Atom}
      {v : Val R} :
    AtContents walk passes validator frame m path rules (.map map) →
    rules.kind = .map element keys (some values) → rules.field.kind = .map key kind →
    map.entries = before ++ (k, v) :: after →
    passes (Spec.entryList walk ⟨.scalar key, kind, keys, some values⟩ element before
      ⟨path, false⟩) →
    passes (Spec.key walk ⟨.scalar key, kind, keys, some values⟩ k
      ⟨path ++ [element.withSubscript (keySubscript k)], false⟩) →
    values.skips v = .ok false →
    Enters ⟨path, .message validator frame m⟩
      ⟨path ++ [element.withSubscript (keySubscript k)],
        .value values.value (.item kind) (some v)⟩
  | nested {validator : ValueValidator R} {bind : CelBind R} {sub : Message R}
      {nested : MessageValidator R} {child : CelFrame R} {path : List FieldPathElement} :
    validator.nestedMessage walk sub = .ok (some (nested, child)) →
    passes (Place.rules walk ⟨path, .value validator bind (some (.message sub))⟩) →
    Enters ⟨path, .value validator bind (some (.message sub))⟩
      ⟨path, .message nested child sub⟩

end Steps

/-- A place a walk from another one gets to. -/
abbrev Reaches : Place R → Place R → Prop := ReflTransGen (Enters walk Ended)

/-- What ends a walk at a place, other than a read that fails. -/
inductive Raises : Place R → Error R.Error → Prop
  | rules {at_ : Place R} {e : Error R.Error} :
    (at_.rules walk).result = .error e → Raises at_ e
  | field {validator : MessageValidator R} {frame : CelFrame R} {m : Message R}
      {path : List FieldPathElement} {before after : List (Except String (FieldValidator R))}
      {error : String} :
    validator.fields = before ++ .error error :: after →
    (Spec.message walk { validator with fields := before } frame m ⟨path, false⟩).result =
      .ok () →
    Raises ⟨path, .message validator frame m⟩ (.compilation error)
  | nested {validator : ValueValidator R} {bind : CelBind R} {sub : Message R}
      {path : List FieldPathElement} {e : Error R.Error} :
    validator.nestedMessage walk sub = .error e →
    Raises ⟨path, .value validator bind (some (.message sub))⟩ e

section Equations
variable {ε α β ι : Type}

theorem forM_at (items : List ι) (f : ι → SpecM ε PUnit) (at_ : Position) :
    items.forM f at_ = items.forM fun i => f i at_ := by
  induction items with
  | nil => rfl
  | cons i items ih =>
    calc (f i >>= fun _ => items.forM f) at_
        = f i at_ >>= fun _ => items.forM f at_ := rfl
      _ = f i at_ >>= fun _ => items.forM fun i => f i at_ := by rw [ih]

theorem orAbort_at (r : Except (Error R.Error) α) (at_ : Position) :
    (orAbort r : SpecM R.Error α) at_ = ⟨[], r⟩ := by
  cases r <;> rfl

theorem read_at (r : Except R.Error α) (at_ : Position) :
    (read r : SpecM R.Error α) at_ = ⟨[], readResult r⟩ :=
  orAbort_at _ at_

theorem read_ok {r : Except R.Error α} {a : α} (done : r = .ok a) (f : α → SpecM R.Error β)
    (at_ : Position) : (read r >>= f) at_ = f a at_ := by
  rw [SpecM.bind_apply, read_at, done]
  exact Emit.ext (List.nil_append _) rfl

/-- What comes before an index in the indices of a list. -/
theorem range_split {len index : Nat} {before after : List Nat}
    (split : List.range len = before ++ index :: after) :
    before = List.range index ∧ index < len := by
  rw [List.range_eq_range', List.range'_eq_append_iff] at split
  obtain ⟨count, -, rfl, rest⟩ := split
  obtain ⟨start, left, -⟩ := List.range'_eq_cons_iff.mp rest.symm
  obtain rfl : count = index := by omega
  exact ⟨List.range_eq_range'.symm, by omega⟩

namespace Spec

/-- What a field of a message breaks, or why its rules did not compile. -/
def fieldEntry (frame : CelFrame R) (m : Message R) :
    Except String (FieldValidator R) → SpecM R.Error Unit
  | .error error => abort (.compilation error)
  | .ok rules => field walk rules m frame (m.get rules.field)

theorem message_eq (validator : MessageValidator R) (frame : CelFrame R) (m : Message R)
    (at_ : Position) :
    message walk validator frame m at_ =
      (validator.runRules walk frame m : SpecM _ _) at_ >>= fun _ =>
        validator.fields.forM fun rules => fieldEntry walk frame m rules at_ := by
  cases m with
  | mk has get encode =>
    rw [message, SpecM.bind_apply]
    congr 1
    funext _
    exact forM_at _ _ _

variable {rules : FieldValidator R} {m : Message R} {found : Option (Val R)} {set : Bool}

theorem field_missing (frame : CelFrame R) (isSet : rules.isSet m found = .ok false)
    (required : rules.required = true) (at_ : Position) :
    field walk rules m frame (.ok found) at_ =
      (within rules.element
        (push "required" "value is required" [walk.schema.required]) : SpecM _ _) at_ := by
  rw [field, read_ok isSet]
  simp [required]

theorem field_runs (frame : CelFrame R) (isSet : rules.isSet m found = .ok set)
    (runs : rules.Runs set) (path : List FieldPathElement) (forKey : Bool) :
    field walk rules m frame (.ok found) ⟨path, forKey⟩ =
      option walk rules.value (.field frame rules.field) found
          ⟨path ++ [rules.element], forKey⟩ >>= fun _ =>
        contents walk rules found ⟨path, forKey⟩ := by
  rw [field, read_ok isSet]
  rcases runs with rfl | ⟨required, ignoreEmpty⟩
  · rfl
  · simp [required, ignoreEmpty]
    rfl

theorem field_skipped (frame : CelFrame R) (isSet : rules.isSet m found = .ok false)
    (required : rules.required = false) (ignoreEmpty : rules.ignoreEmpty = true)
    (at_ : Position) : field walk rules m frame (.ok found) at_ = pure () := by
  rw [field, read_ok isSet]
  simp [required, ignoreEmpty]
  rfl

theorem contents_list {items : ItemValidator R} {kind : Singular} {l : ListView R}
    (held : rules.kind = .list (some items)) (listed : rules.field.kind = .list kind) :
    contents walk rules (some (.list l)) = list walk items rules.element kind l := by
  rw [contents, held, listed]

theorem contents_map {element : FieldPathElement} {keys values : Option (ItemValidator R)}
    {key : Scalar} {kind : Singular} {map : MapView R}
    (held : rules.kind = .map element keys values) (mapped : rules.field.kind = .map key kind) :
    contents walk rules (some (.map map)) =
      Spec.map walk ⟨.scalar key, kind, keys, values⟩ element map := by
  rw [contents, held, mapped]

theorem contents_of_list (rules : FieldValidator R) (l : ListView R) :
    (∃ items kind, rules.kind = .list (some items) ∧ rules.field.kind = .list kind ∧
      contents walk rules (some (.list l)) = list walk items rules.element kind l) ∨
    contents walk rules (some (.list l)) = pure () := by
  simp only [contents]
  split
  · rename_i items kind held listed
    exact .inl ⟨items, kind, held, listed, rfl⟩
  · exact .inr rfl

theorem contents_of_map (rules : FieldValidator R) (map : MapView R) :
    (∃ element keys values key kind, rules.kind = .map element keys values ∧
      rules.field.kind = .map key kind ∧ contents walk rules (some (.map map)) =
        Spec.map walk ⟨.scalar key, kind, keys, values⟩ element map) ∨
    contents walk rules (some (.map map)) = pure () := by
  simp only [contents]
  split
  · rename_i element keys values key kind held mapped
    exact .inl ⟨element, keys, values, key, kind, held, mapped, rfl⟩
  · exact .inr rfl

theorem list_eq {l : ListView R} {len : Nat} (items : ItemValidator R)
    (container : FieldPathElement) (kind : Singular) (counted : l.len = .ok len)
    (at_ : Position) :
    list walk items container kind l at_ =
      (List.range len).forM fun i => item walk items container kind i (l.get i) at_ := by
  cases l with
  | mk count get =>
    rw [list, read_ok counted, forM_at]

theorem item_eq {items : ItemValidator R} {v : Val R} (container : FieldPathElement)
    (kind : Singular) (index : Nat) (kept : items.skips v = .ok false)
    (path : List FieldPathElement) (forKey : Bool) :
    item walk items container kind index (.ok (some v)) ⟨path, forKey⟩ =
      Spec.value walk items.value (.item kind) v
        ⟨path ++ [container.withSubscript (some (.index index))], forKey⟩ := by
  rw [item, read_ok kept]
  rfl

theorem map_eq (entries : Entries R) (container : FieldPathElement) (map : MapView R)
    (at_ : Position) :
    Spec.map walk entries container map at_ =
      entryList walk entries container map.entries at_ >>= fun _ =>
        match map.fault with
        | some e => Emit.fail (.read e)
        | none => pure () := by
  cases map with
  | mk len visited fault => cases fault <;> rfl

theorem entryList_append (entries : Entries R) (container : FieldPathElement)
    (before after : List (Atom × Val R)) (at_ : Position) :
    entryList walk entries container (before ++ after) at_ =
      entryList walk entries container before at_ >>= fun _ =>
        entryList walk entries container after at_ := by
  induction before with
  | nil => exact (Emit.ext (List.nil_append _) rfl).symm
  | cons first before ih =>
    rw [List.cons_append, entryList, SpecM.bind_apply, ih, ← Emit.bind_assoc]
    rfl

theorem entryList_cons (entries : Entries R) (container : FieldPathElement)
    (first : Atom × Val R) (rest : List (Atom × Val R)) (path : List FieldPathElement)
    (forKey : Bool) :
    entryList walk entries container (first :: rest) ⟨path, forKey⟩ =
      entry walk entries first
          ⟨path ++ [container.withSubscript (keySubscript first.1)], forKey⟩ >>= fun _ =>
        entryList walk entries container rest ⟨path, forKey⟩ := by
  rw [entryList]
  rfl

theorem key_eq {entries : Entries R} {keys : ItemValidator R} {k : Atom}
    (held : entries.keys = some keys) (kept : keys.skips (.atom k : Val R) = .ok false)
    (at_ : Position) :
    key walk entries k at_ =
      SpecM.forKey (keys.value.runRules walk (.item entries.key) none (some (.atom k))) at_ := by
  rw [key, held]
  exact read_ok kept _ at_

theorem entry_eq {entries : Entries R} {values : ItemValidator R} {k : Atom} {v : Val R}
    (held : entries.values = some values) (kept : values.skips v = .ok false) (at_ : Position) :
    entry walk entries (k, v) at_ =
      key walk entries k at_ >>= fun _ => value walk values.value (.item entries.value) v at_ := by
  rw [entry, SpecM.bind_apply, held]
  congr 1
  funext _
  exact read_ok kept _ at_

theorem value_message {validator : ValueValidator R} {bind : CelBind R} {sub : Message R}
    {nested : Option (MessageValidator R × CelFrame R)}
    (looked : validator.nestedMessage walk sub = .ok nested) (at_ : Position) :
    value walk validator bind (.message sub) at_ =
      (validator.runRules walk bind (nested.map Prod.snd) (some (.message sub)) :
        SpecM R.Error Unit) at_ >>= fun _ =>
        match nested with
        | none => pure ()
        | some (nested, child) => message walk nested child sub at_ := by
  rw [value, SpecM.bind_apply, orAbort_at, looked]
  cases nested <;> exact Emit.ext (List.nil_append _) rfl

end Spec

end Equations

/-- A type with a validator has it in the snapshot. -/
theorem validator_cached {walk : Walk R} {index : MessageIndex} {compiled : MessageValidator R}
    (found : walk.validator index = .ok compiled) :
    walk.validators index = some (.ok compiled) := by
  unfold Walk.validator at found
  cases cached : walk.validators index with
  | none =>
    rw [cached] at found
    cases found
  | some entry =>
    rw [cached] at found
    cases entry with
    | error e => cases found
    | ok validator =>
      cases found
      rfl

/-- A value without a message of its own, or the validator and the frame of the one it
holds. -/
theorem nestedMessage_ok {walk : Walk R} {validator : ValueValidator R} {sub : Message R}
    {nested : Option (MessageValidator R × CelFrame R)}
    (looked : validator.nestedMessage walk sub = .ok nested) :
    validator.nested = none ∧ nested = none ∨
      ∃ index compiled, validator.nested = some index ∧
        walk.validators index = some (.ok compiled) ∧
        nested = some (compiled, ⟨(walk.pool.message index).fullName, sub⟩) := by
  unfold ValueValidator.nestedMessage at looked
  cases held : validator.nested with
  | none =>
    rw [held] at looked
    cases looked
    exact .inl ⟨rfl, rfl⟩
  | some index =>
    simp only [held] at looked
    cases found : walk.validator index with
    | error e => simp [found, bind, Except.bind] at looked
    | ok compiled =>
      simp only [found, bind, Except.bind, pure, Except.pure, Except.ok.injEq] at looked
      exact .inr ⟨index, compiled, rfl, validator_cached found, looked.symm⟩

theorem nestedMessage_child {walk : Walk R} {validator : ValueValidator R} {sub : Message R}
    {nested : Option (MessageValidator R × CelFrame R)}
    (looked : validator.nestedMessage walk sub = .ok nested) :
    nested.map Prod.snd = validator.child walk (some (.message sub)) := by
  obtain ⟨held, rfl⟩ | ⟨index, compiled, held, -, rfl⟩ := nestedMessage_ok looked
  · simp [ValueValidator.child, held]
  · simp [ValueValidator.child, held]

/-! ### What a place reports is reported -/

section Contains
variable {walk} {validator : MessageValidator R} {frame : CelFrame R} {m : Message R}
variable {path : List FieldPathElement} {rules : FieldValidator R}

open Emit

theorem AtField.partOf {value : Option (Val R)} {set : Bool}
    (reached : AtField walk Ended validator frame m path rules value set) :
    PartOf (Spec.field walk rules m frame (.ok value) ⟨path, false⟩)
      (Spec.message walk validator frame m ⟨path, false⟩) := by
  obtain ⟨before, after, fields, done⟩ := reached.reached
  rw [Spec.message_eq] at done ⊢
  obtain ⟨_, own, earlier⟩ := (bind_result_ok _ _).mp done
  have entry : PartOf (Spec.fieldEntry walk frame m (.ok rules) ⟨path, false⟩)
      ((before ++ .ok rules :: after).forM fun rules =>
        Spec.fieldEntry walk frame m rules ⟨path, false⟩) := PartOf.forM earlier
  rw [Spec.fieldEntry, reached.got, ← fields] at entry
  exact entry.trans (PartOf.after own _)

theorem AtContents.partOf {v : Val R}
    (reached : AtContents walk Ended validator frame m path rules v) :
    PartOf (Spec.contents walk rules (some v) ⟨path, false⟩)
      (Spec.message walk validator frame m ⟨path, false⟩) := by
  obtain ⟨set, field, runs⟩ := reached.field
  refine PartOf.trans ?_ field.partOf
  rw [Spec.field_runs walk frame field.isSet runs]
  exact PartOf.after reached.own _

theorem AtContents.entry_partOf {map : MapView R} {element : FieldPathElement}
    {keys values : Option (ItemValidator R)} {key : Scalar} {kind : Singular}
    {before after : List (Atom × Val R)} {entry : Atom × Val R}
    (reached : AtContents walk Ended validator frame m path rules (.map map))
    (held : rules.kind = .map element keys values) (mapped : rules.field.kind = .map key kind)
    (visited : map.entries = before ++ entry :: after)
    (earlier : (Spec.entryList walk ⟨.scalar key, kind, keys, values⟩ element before
      ⟨path, false⟩).result = .ok ()) :
    PartOf (Spec.entry walk ⟨.scalar key, kind, keys, values⟩ entry
        ⟨path ++ [element.withSubscript (keySubscript entry.1)], false⟩)
      (Spec.message walk validator frame m ⟨path, false⟩) := by
  refine PartOf.trans ?_ reached.partOf
  rw [Spec.contents_map walk held mapped]
  rw [Spec.map_eq, visited, Spec.entryList_append, Spec.entryList_cons]
  exact ((PartOf.bind_left _ _).trans (PartOf.after earlier _)).trans (PartOf.bind_left _ _)

/-- What the next place reports and fails with, the walk of this one does. -/
theorem Enters.partOf {at_ next : Place R} (enters : Enters walk Ended at_ next) :
    PartOf (next.all walk) (at_.all walk) := by
  cases enters with
  | missing reached required =>
    refine PartOf.trans ?_ reached.partOf
    rw [Spec.field_missing walk _ reached.isSet required]
    exact PartOf.refl _
  | field reached runs =>
    refine PartOf.trans ?_ reached.partOf
    rw [Spec.field_runs walk _ reached.isSet runs]
    exact PartOf.bind_left _ _
  | element reached held listed counted inside earlier got kept =>
    rename_i kind len index v
    refine PartOf.trans ?_ reached.partOf
    rw [Spec.contents_list walk held listed, Spec.list_eq walk _ _ _ counted]
    obtain ⟨rest, rfl⟩ : ∃ rest, len = index + (rest + 1) := ⟨len - index - 1, by omega⟩
    rw [List.range_add, List.range_succ_eq_map, List.map_cons, Nat.add_zero]
    refine PartOf.trans ?_ (PartOf.forM earlier)
    rw [got, Spec.item_eq walk _ _ _ kept]
    exact PartOf.refl _
  | key reached held mapped visited earlier kept =>
    refine PartOf.trans ?_ (reached.entry_partOf held mapped visited earlier)
    rw [Spec.entry, SpecM.bind_apply, Spec.key_eq walk rfl kept]
    exact PartOf.bind_left _ _
  | entry reached held mapped visited earlier key kept =>
    refine PartOf.trans ?_ (reached.entry_partOf held mapped visited earlier)
    rw [Spec.entry_eq walk rfl kept]
    exact PartOf.after key _
  | nested looked own =>
    unfold Place.all Visit.all
    dsimp only
    rw [Spec.option, Spec.value_message walk looked]
    rw [Place.rules, Visit.rules, ← nestedMessage_child looked] at own
    exact PartOf.after own _

theorem Reaches.partOf {at_ reached : Place R} (reaches : Reaches walk at_ reached) :
    PartOf (reached.all walk) (at_.all walk) := by
  induction reaches with
  | refl => exact PartOf.refl _
  | tail _ enters ih => exact enters.partOf.trans ih

end Contains

/-! ### What a walk reports, it reports at a place it reaches -/

/-- A violation of the rules at a place that is reached. -/
def ReportedFrom (at_ : Place R) (violation : Violation) : Prop :=
  ∃ reached, Reaches walk at_ reached ∧ violation ∈ (reached.rules walk).out

/-- A read that fails, or what ends the walk at a place that is reached. -/
def EndedFrom (at_ : Place R) (e : Error R.Error) : Prop :=
  (∃ r, e = .read r) ∨ ∃ reached, Reaches walk at_ reached ∧ Raises walk reached e

section Accounted
open Emit

/-- Everything a run reports and fails with is accounted for from a place. -/
abbrev Accounted {α : Type} (at_ : Place R) (x : Emit Violation (Error R.Error) α) : Prop :=
  Outcome (ReportedFrom walk at_) (EndedFrom walk at_) x

variable {walk}

theorem Accounted.enter {α : Type} {at_ next : Place R} (enters : Enters walk Ended at_ next)
    {x : Emit Violation (Error R.Error) α} (accounted : Accounted walk next x) :
    Accounted walk at_ x := by
  refine accounted.mono ?_ ?_
  · rintro violation ⟨reached, reaches, found⟩
    exact ⟨reached, reaches.head enters, found⟩
  · rintro e (failed | ⟨reached, reaches, raised⟩)
    · exact .inl failed
    · exact .inr ⟨reached, reaches.head enters, raised⟩

theorem visit_accounted (at_ : Place R) : Accounted walk at_ (at_.rules walk) :=
  ⟨fun _ found => ⟨at_, .refl, found⟩, fun _ ended => .inr ⟨at_, .refl, .rules ended⟩⟩

theorem read_accounted {α : Type} {at_ : Place R} (r : Except R.Error α) (position : Position) :
    Accounted walk at_ ((read r : SpecM R.Error α) position) := by
  rw [read_at]
  refine ⟨fun _ none => (List.not_mem_nil none).elim, fun e failed => .inl ?_⟩
  cases r with
  | error r =>
    cases failed
    exact ⟨r, rfl⟩
  | ok a => cases failed

theorem read_result {α : Type} {r : Except R.Error α} {position : Position} {a : α}
    (done : ((read r : SpecM R.Error α) position).result = .ok a) : r = .ok a := by
  rw [read_at] at done
  cases r with
  | error r => cases done
  | ok b =>
    cases done
    rfl

variable (walk) in
/-- What a walk of a value does is accounted for from where it is. -/
def ValueAccounted (v : Val R) : Prop :=
  ∀ validator bind path, Accounted walk ⟨path, .value validator bind (some v)⟩
    (Spec.value walk validator bind v ⟨path, false⟩)

theorem option_accounted {value : Option (Val R)}
    (parts : ∀ v, value = some v → ValueAccounted walk v) (validator : ValueValidator R)
    (bind : CelBind R) (path : List FieldPathElement) :
    Accounted walk ⟨path, .value validator bind value⟩
      (Spec.option walk validator bind value ⟨path, false⟩) := by
  cases value with
  | none => exact visit_accounted ⟨path, .value validator bind none⟩
  | some v => exact parts v rfl validator bind path

section Fields
variable {validator : MessageValidator R} {frame : CelFrame R} {m : Message R}
variable {path : List FieldPathElement} {rules : FieldValidator R}

theorem list_accounted {l : ListView R} {items : ItemValidator R} {kind : Singular}
    (parts : ∀ v, Part v (.list l) → ValueAccounted walk v)
    (reached : AtContents walk Ended validator frame m path rules (.list l))
    (held : rules.kind = .list (some items)) (listed : rules.field.kind = .list kind) :
    Accounted walk ⟨path, .message validator frame m⟩
      (Spec.list walk items rules.element kind l ⟨path, false⟩) := by
  cases counted : l.len with
  | error e =>
    cases l with
    | mk count get =>
      dsimp only at counted
      rw [Spec.list, SpecM.bind_apply, read_at, counted]
      exact Outcome.fail (.inl ⟨e, rfl⟩)
  | ok len =>
    rw [Spec.list_eq walk _ _ _ counted]
    refine Outcome.forM fun before index after split earlier => ?_
    obtain ⟨rfl, inside⟩ := range_split split
    cases got : l.get index with
    | error e => exact Outcome.fail (.inl ⟨e, rfl⟩)
    | ok v =>
      cases v with
      | none => exact Outcome.pure _
      | some v =>
        refine Outcome.bind (read_accounted _ _) fun skip skips => ?_
        cases skip with
        | true => exact Outcome.pure _
        | false =>
          exact (parts v (.element got) _ _ _).enter
            (.element reached held listed counted inside earlier got (read_result skips))

theorem entry_accounted {map : MapView R} {element : FieldPathElement}
    {keys values : Option (ItemValidator R)} {key : Scalar} {kind : Singular}
    {before after : List (Atom × Val R)} {k : Atom} {v : Val R}
    (part : ValueAccounted walk v)
    (reached : AtContents walk Ended validator frame m path rules (.map map))
    (held : rules.kind = .map element keys values) (mapped : rules.field.kind = .map key kind)
    (visited : map.entries = before ++ (k, v) :: after)
    (earlier : (Spec.entryList walk ⟨.scalar key, kind, keys, values⟩ element before
      ⟨path, false⟩).result = .ok ()) :
    Accounted walk ⟨path, .message validator frame m⟩
      (Spec.entry walk ⟨.scalar key, kind, keys, values⟩ (k, v)
        ⟨path ++ [element.withSubscript (keySubscript k)], false⟩) := by
  rw [Spec.entry, SpecM.bind_apply]
  refine Outcome.bind ?_ fun _ first => ?_
  · unfold Spec.key
    cases keys with
    | none => exact Outcome.pure _
    | some keys =>
      refine Outcome.bind (read_accounted _ _) fun skip skips => ?_
      cases skip with
      | true => exact Outcome.pure _
      | false =>
        exact (visit_accounted _).enter
          (.key reached held mapped visited earlier (read_result skips))
  · cases values with
    | none => exact Outcome.pure _
    | some values =>
      refine Outcome.bind (read_accounted _ _) fun skip skips => ?_
      cases skip with
      | true => exact Outcome.pure _
      | false =>
        exact (part _ _ _).enter
          (.entry reached held mapped visited earlier first (read_result skips))

theorem entryList_accounted {map : MapView R} {element : FieldPathElement}
    {keys values : Option (ItemValidator R)} {key : Scalar} {kind : Singular}
    (parts : ∀ v, Part v (.map map) → ValueAccounted walk v)
    (reached : AtContents walk Ended validator frame m path rules (.map map))
    (held : rules.kind = .map element keys values) (mapped : rules.field.kind = .map key kind)
    (before rest : List (Atom × Val R)) (visited : map.entries = before ++ rest)
    (earlier : (Spec.entryList walk ⟨.scalar key, kind, keys, values⟩ element before
      ⟨path, false⟩).result = .ok ()) :
    Accounted walk ⟨path, .message validator frame m⟩
      (Spec.entryList walk ⟨.scalar key, kind, keys, values⟩ element rest ⟨path, false⟩) := by
  induction rest generalizing before with
  | nil => exact Outcome.pure _
  | cons first rest ih =>
    obtain ⟨k, v⟩ := first
    rw [Spec.entryList_cons]
    refine Outcome.bind ?_ fun _ done => ?_
    · refine entry_accounted (parts v (.entry (k := k) ?_)) reached held mapped visited earlier
      rw [visited]
      exact List.mem_append_right _ List.mem_cons_self
    · refine ih (before ++ [(k, v)]) (by simp [visited]) ?_
      rw [Spec.entryList_append, Spec.entryList_cons]
      refine (bind_result_ok _ _).mpr ⟨(), earlier, ?_⟩
      exact (bind_result_ok _ _).mpr ⟨(), done, rfl⟩

theorem contents_accounted {v : Val R} (parts : ∀ w, Part w v → ValueAccounted walk w)
    (reached : AtContents walk Ended validator frame m path rules v) :
    Accounted walk ⟨path, .message validator frame m⟩
      (Spec.contents walk rules (some v) ⟨path, false⟩) := by
  cases v with
  | list l =>
    rcases Spec.contents_of_list walk rules l with ⟨items, kind, held, listed, same⟩ | same
    · rw [same]
      exact list_accounted parts reached held listed
    · rw [same]
      exact Outcome.pure _
  | map map =>
    rcases Spec.contents_of_map walk rules map with
      ⟨element, keys, values, key, kind, held, mapped, same⟩ | same
    · rw [same, Spec.map_eq]
      refine Outcome.bind ?_ fun _ _ => ?_
      · exact entryList_accounted parts reached held mapped [] map.entries rfl rfl
      · cases map.fault with
        | none => exact Outcome.pure _
        | some e => exact Outcome.fail (.inl ⟨e, rfl⟩)
    · rw [same]
      exact Outcome.pure _
  | _ => exact Outcome.pure _

theorem field_accounted {value : Option (Val R)} {set : Bool}
    (parts : ∀ v, Below v (.message m) → ValueAccounted walk v)
    (reached : AtField walk Ended validator frame m path rules value set) :
    Accounted walk ⟨path, .message validator frame m⟩
      (Spec.field walk rules m frame (.ok value) ⟨path, false⟩) := by
  by_cases runs : rules.Runs set
  · rw [Spec.field_runs walk frame reached.isSet runs]
    refine Outcome.bind ?_ fun _ own => ?_
    · refine Accounted.enter (.field reached runs) (option_accounted (fun v same => ?_) _ _ _)
      exact parts v (.single (.field (same ▸ reached.got)))
    · cases value with
      | none => exact Outcome.pure _
      | some v =>
        have direct : Part v (.message m) := .field reached.got
        exact contents_accounted (fun w part => parts w (.head part (.single direct)))
          ⟨⟨set, reached, runs⟩, own⟩
  · simp only [FieldValidator.Runs, not_or, Bool.not_eq_true, not_and] at runs
    obtain ⟨rfl, others⟩ := runs
    cases required : rules.required with
    | true =>
      rw [Spec.field_missing walk frame reached.isSet required]
      exact (visit_accounted _).enter (.missing reached required)
    | false =>
      rw [Spec.field_skipped walk frame reached.isSet required (by simpa using others required)]
      exact Outcome.pure _

theorem message_accounted_of_parts (parts : ∀ v, Below v (.message m) → ValueAccounted walk v)
    (validator : MessageValidator R) (frame : CelFrame R) (path : List FieldPathElement) :
    Accounted walk ⟨path, .message validator frame m⟩
      (Spec.message walk validator frame m ⟨path, false⟩) := by
  rw [Spec.message_eq]
  refine Outcome.bind (visit_accounted ⟨path, .message validator frame m⟩) fun _ own => ?_
  refine Outcome.forM fun before rules after fields earlier => ?_
  have reached : (Spec.message walk { validator with fields := before } frame m
      ⟨path, false⟩).result = .ok () := by
    rw [Spec.message_eq]
    exact (bind_result_ok _ _).mpr ⟨(), own, earlier⟩
  cases rules with
  | error error => exact Outcome.fail (.inr ⟨_, .refl, .field fields reached⟩)
  | ok rules =>
    cases got : m.get rules.field with
    | error e =>
      rw [Spec.fieldEntry, got]
      exact Outcome.fail (.inl ⟨e, rfl⟩)
    | ok value =>
      cases isSet : rules.isSet m value with
      | error e =>
        rw [Spec.fieldEntry, got, Spec.field, SpecM.bind_apply, read_at, isSet]
        exact Outcome.fail (.inl ⟨e, rfl⟩)
      | ok set =>
        rw [Spec.fieldEntry, got]
        exact field_accounted parts ⟨⟨before, after, fields, reached⟩, got, isSet⟩

end Fields

theorem value_accounted (v : Val R) : ValueAccounted walk v := by
  induction v using Val.below_induction with
  | step v below =>
    intro validator bind path
    cases v with
    | message sub =>
      cases looked : validator.nestedMessage walk sub with
      | error e =>
        rw [Spec.value, SpecM.bind_apply, orAbort_at, looked]
        exact Outcome.fail (.inr ⟨_, .refl, .nested looked⟩)
      | ok nested =>
        rw [Spec.value_message walk looked, nestedMessage_child looked]
        refine Outcome.bind (visit_accounted ⟨path, .value validator bind (some (.message sub))⟩)
          fun _ own => ?_
        cases nested with
        | none => exact Outcome.pure _
        | some nested =>
          exact (message_accounted_of_parts below nested.1 nested.2 path).enter
            (.nested looked own)
    | _ => exact visit_accounted ⟨path, .value validator bind _⟩

/-- What a walk of a message does is accounted for. -/
theorem message_accounted (validator : MessageValidator R) (frame : CelFrame R) (m : Message R)
    (path : List FieldPathElement) :
    Accounted walk ⟨path, .message validator frame m⟩
      (Spec.message walk validator frame m ⟨path, false⟩) :=
  message_accounted_of_parts (fun v _ => value_accounted v) validator frame path

end Accounted

end Protovalidate
