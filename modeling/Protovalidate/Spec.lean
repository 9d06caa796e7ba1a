import Protovalidate.Similar

/-!
# What a walk reports

A specification of the walk without state: the full field path of the value
being validated is an argument, and the result is the violations in order with
the error that ended the walk, if any. An element of a list is at its index, a
map entry at its key, and the rules of a container at the field itself.
-/

namespace Protovalidate

open Recording

/-- Where a rule is evaluated: the field path from the root, and whether the
value is a map key. -/
structure Position where
  path : List FieldPathElement
  forKey : Bool

abbrev SpecM (ε : Type) := ReaderT Position (Emit Violation (Error ε))

namespace SpecM
variable {ε α : Type}

def under (element : FieldPathElement) (x : SpecM ε α) : SpecM ε α := fun at_ =>
  x { at_ with path := at_.path ++ [element] }

instance : Recorder (SpecM ε) Failure FieldPathElement (Error ε) where
  record failure := fun at_ => Emit.report (failure.violation at_.path at_.forKey)
  abort e := fun _ => Emit.fail e
  within := under

def forKey (x : SpecM ε α) : SpecM ε α := fun at_ => x { at_ with forKey := true }

theorem bind_apply {β : Type} (x : SpecM ε α) (f : α → SpecM ε β) (at_ : Position) :
    (x >>= f) at_ = x at_ >>= fun a => f a at_ := rfl

end SpecM

def FieldPathElement.withSubscript (element : FieldPathElement) (subscript : Option Subscript) :
    FieldPathElement :=
  { element with subscript := subscript }

namespace Spec
variable {R : Runtime} (walk : Walk R)

/-- What the key of an entry breaks. -/
def key (entries : Entries R) (key : Atom) : SpecM R.Error Unit :=
  match entries.keys with
  | none => pure ()
  | some keys => do
    if ← read (keys.skips (.atom key)) then
      pure ()
    else
      SpecM.forKey (keys.value.runRules walk (.item entries.key) none (some (.atom key)))

mutual

/-- What a message breaks: its own rules, then its fields' in order. -/
def message (validator : MessageValidator R) (frame : CelFrame R) :
    Message R → SpecM R.Error Unit
  | ⟨has, get, encode⟩ => do
    validator.runRules walk frame ⟨has, get, encode⟩
    validator.fields.forM fun rules =>
      match rules with
      | .error error => abort (.compilation error)
      | .ok rules => field rules ⟨has, get, encode⟩ frame (get rules.field)

/-- What a field breaks, of the value read from it. -/
def field (validator : FieldValidator R) (message : Message R) (frame : CelFrame R) :
    Except R.Error (Option (Val R)) → SpecM R.Error Unit
  | .error e => abort (.read e)
  | .ok read => do
    let set ← Protovalidate.read (validator.isSet message read)
    if !set && validator.required then
      within validator.element (push "required" "value is required" [walk.schema.required])
    else if !set && validator.ignoreEmpty then
      pure ()
    else do
      within validator.element (option validator.value (.field frame validator.field) read)
      contents validator read

/-- What the items of a container field break. -/
def contents (validator : FieldValidator R) : Option (Val R) → SpecM R.Error Unit
  | some (.list l) =>
    match validator.kind, validator.field.kind with
    | .list (some items), .list kind => list items validator.element kind l
    | _, _ => pure ()
  | some (.map m) =>
    match validator.kind, validator.field.kind with
    | .map element keys values, .map key value =>
      map ⟨.scalar key, value, keys, values⟩ element m
    | _, _ => pure ()
  | _ => pure ()

def list (items : ItemValidator R) (container : FieldPathElement) (kind : Singular) :
    ListView R → SpecM R.Error Unit
  | ⟨len, get⟩ => do
    let len ← read len
    (List.range len).forM fun index => item items container kind index (get index)

def item (items : ItemValidator R) (container : FieldPathElement) (kind : Singular)
    (index : Nat) : Except R.Error (Option (Val R)) → SpecM R.Error Unit
  | .error e => abort (.read e)
  | .ok none => pure ()
  | .ok (some v) => do
    if ← read (items.skips v) then
      pure ()
    else
      within (container.withSubscript (some (.index index))) (value items.value (.item kind) v)

def map (entries : Entries R) (container : FieldPathElement) :
    MapView R → SpecM R.Error Unit
  | ⟨_, visited, fault⟩ => do
    entryList entries container visited
    match fault with
    | some e => abort (.read e)
    | none => pure ()

def entryList (entries : Entries R) (container : FieldPathElement) :
    List (Atom × Val R) → SpecM R.Error Unit
  | [] => pure ()
  | first :: rest => do
    within (container.withSubscript (keySubscript first.1)) (entry entries first)
    entryList entries container rest

def entry (entries : Entries R) : Atom × Val R → SpecM R.Error Unit
  | (k, v) => do
    key walk entries k
    match entries.values with
    | none => pure ()
    | some values =>
      if ← read (values.skips v) then
        pure ()
      else
        value values.value (.item entries.value) v

def option (validator : ValueValidator R) (bind : CelBind R) :
    Option (Val R) → SpecM R.Error Unit
  | none => validator.runRules walk bind none none
  | some v => value validator bind v

/-- What a value breaks: its own rules, then those of the message it holds. -/
def value (validator : ValueValidator R) (bind : CelBind R) : Val R → SpecM R.Error Unit
  | .message sub => do
    let nested ← orAbort (validator.nestedMessage walk sub)
    validator.runRules walk bind (nested.map Prod.snd) (some (.message sub))
    match nested with
    | none => pure ()
    | some (nested, child) => message nested child sub
  | .atom a => validator.runRules walk bind none (some (.atom a))
  | .list l => validator.runRules walk bind none (some (.list l))
  | .map m => validator.runRules walk bind none (some (.map m))

end

theorem entryList_forM (entries : Entries R) (container : FieldPathElement)
    (visited : List (Atom × Val R)) :
    entryList walk entries container visited = visited.forM fun first =>
      within (container.withSubscript (keySubscript first.1)) (entry walk entries first) := by
  induction visited with
  | nil => rfl
  | cons first rest ih =>
    rw [entryList, ih]
    rfl

/-- What a message of a type breaks, seen from a field path. -/
def report (validator : MessageValidator R) (m : Message R) (typeName : String)
    (path : List FieldPathElement) : Emit Violation (Error R.Error) Unit :=
  message walk validator ⟨typeName, m⟩ m ⟨path, false⟩

/-- The violations of a message of a type, or the first error. -/
def validate (validator : MessageValidator R) (m : Message R) (typeName : String) :
    Except (Error R.Error) (List Violation) :=
  (report walk validator m typeName []).result.map fun _ =>
    (report walk validator m typeName []).out

section Similar
variable (S : Similarity (SpecM R.Error) (SpecM R.Error))

/-- The similarity relates what a value breaks to itself. -/
def SelfSimilar (v : Val R) : Prop :=
  ∀ validator bind, S.Rel (value walk validator bind v) (value walk validator bind v)

variable (keys : ∀ x y : SpecM R.Error Unit, S.Rel x y → S.Rel x.forKey y.forKey)
include keys

theorem key_similar (entries : Entries R) (k : Atom) :
    S.Rel (key walk entries k) (key walk entries k) := by
  unfold key
  split
  · exact S.pure _
  · refine S.bind (read_similar S _) (fun skip => S.ite (S.pure _) ?_)
    exact keys _ _ (valueRules_similar S walk _ _ _ _)

omit keys in
theorem option_similar {read : Option (Val R)} (parts : ∀ v, read = some v → SelfSimilar walk S v)
    (validator : ValueValidator R) (bind : CelBind R) :
    S.Rel (option walk validator bind read) (option walk validator bind read) := by
  cases read with
  | none => exact valueRules_similar S walk _ _ _ _
  | some v => exact parts v rfl _ _

omit keys in
theorem item_similar {read : Except R.Error (Option (Val R))}
    (parts : ∀ v, read = .ok (some v) → SelfSimilar walk S v) (items : ItemValidator R)
    (container : FieldPathElement) (kind : Singular) (index : Nat) :
    S.Rel (item walk items container kind index read)
      (item walk items container kind index read) := by
  cases read with
  | error e => exact S.abort _
  | ok read =>
    cases read with
    | none => exact S.pure _
    | some v =>
      refine S.bind (read_similar S _) (fun skip => S.ite (S.pure _) ?_)
      exact S.within _ (parts v rfl _ _)

omit keys in
theorem list_similar {l : ListView R} (parts : ∀ v, Part v (.list l) → SelfSimilar walk S v)
    (items : ItemValidator R) (container : FieldPathElement) (kind : Singular) :
    S.Rel (list walk items container kind l) (list walk items container kind l) := by
  obtain ⟨len, get⟩ := l
  refine S.bind (read_similar S _) (fun len => S.forM _ (fun index _ => ?_))
  exact item_similar walk S (fun v h => parts v (.element h)) _ _ _ _

theorem entry_similar {k : Atom} {v : Val R} (part : SelfSimilar walk S v)
    (entries : Entries R) :
    S.Rel (entry walk entries (k, v)) (entry walk entries (k, v)) := by
  refine S.bind (key_similar walk S keys _ _) (fun _ => ?_)
  split
  · exact S.pure _
  · exact S.bind (read_similar S _) (fun skip => S.ite (S.pure _) (part _ _))

theorem entryList_similar {visited : List (Atom × Val R)}
    (parts : ∀ e ∈ visited, SelfSimilar walk S e.2) (entries : Entries R)
    (container : FieldPathElement) :
    S.Rel (entryList walk entries container visited)
      (entryList walk entries container visited) := by
  induction visited with
  | nil => exact S.pure _
  | cons first rest ih =>
    refine S.bind (S.within _ ?_) (fun _ => ?_)
    · exact entry_similar walk S keys (parts first List.mem_cons_self) _
    · exact ih (fun e h => parts e (List.mem_cons_of_mem first h))

theorem map_similar {m : MapView R} (parts : ∀ v, Part v (.map m) → SelfSimilar walk S v)
    (entries : Entries R) (container : FieldPathElement) :
    S.Rel (map walk entries container m) (map walk entries container m) := by
  obtain ⟨len, visited, fault⟩ := m
  refine S.bind (entryList_similar walk S keys (fun e h => ?_) _ _) (fun _ => ?_)
  · exact parts e.2 (.entry (k := e.1) h)
  · cases fault with
    | none => exact S.pure _
    | some e => exact S.abort _

theorem contents_similar {read : Option (Val R)}
    (parts : ∀ v w, read = some v → Part w v → SelfSimilar walk S w)
    (validator : FieldValidator R) :
    S.Rel (contents walk validator read) (contents walk validator read) := by
  cases read with
  | none => exact S.pure _
  | some v =>
    cases v with
    | list l =>
      simp only [contents]
      split
      · exact list_similar walk S (fun w part => parts _ w rfl part) _ _ _
      · exact S.pure _
    | map m =>
      simp only [contents]
      split
      · exact map_similar walk S keys (fun w part => parts _ w rfl part) _ _
      · exact S.pure _
    | _ => exact S.pure _

theorem field_similar {read : Except R.Error (Option (Val R))}
    (parts : ∀ v, read = .ok (some v) →
      SelfSimilar walk S v ∧ ∀ w, Part w v → SelfSimilar walk S w)
    (validator : FieldValidator R) (m : Message R) (frame : CelFrame R) :
    S.Rel (field walk validator m frame read) (field walk validator m frame read) := by
  cases read with
  | error e => exact S.abort _
  | ok read =>
    refine S.bind (read_similar S _) (fun set => S.ite (S.within _ (push_similar S _ _ _)) ?_)
    refine S.ite (S.pure _) (S.bind (S.within _ ?_) (fun _ => ?_))
    · exact option_similar walk S (fun v h => (parts v (by rw [h])).1) _ _
    · exact contents_similar walk S keys (fun v w h => (parts v (by rw [h])).2 w) _

theorem message_similar {m : Message R}
    (parts : ∀ v, Below v (.message m) → SelfSimilar walk S v)
    (validator : MessageValidator R) (frame : CelFrame R) :
    S.Rel (message walk validator frame m) (message walk validator frame m) := by
  obtain ⟨has, get, encode⟩ := m
  refine S.bind (messageRules_similar S walk _ _ _) (fun _ => S.forM _ (fun rules _ => ?_))
  cases rules with
  | error e => exact S.abort _
  | ok rules =>
    refine field_similar walk S keys (fun v h => ?_) _ _ _
    have direct : Part v (.message ⟨has, get, encode⟩) := .field h
    exact ⟨parts v (.single direct), fun w part => parts w (.head part (.single direct))⟩

/-- A similarity of the specification with itself relates every run of it to
itself. -/
theorem value_similar (v : Val R) : SelfSimilar walk S v := by
  induction v using Val.below_induction with
  | step v below =>
    intro validator bind
    cases v with
    | message sub =>
      refine S.bind (orAbort_similar S _) (fun nested => ?_)
      refine S.bind (valueRules_similar S walk _ _ _ _) (fun _ => ?_)
      cases nested with
      | none => exact S.pure _
      | some nested => exact message_similar walk S keys below _ _
    | _ => exact valueRules_similar S walk _ _ _ _

end Similar

end Spec

end Protovalidate
