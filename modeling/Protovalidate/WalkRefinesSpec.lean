import Protovalidate.Spec
import Mathlib.Data.List.ModifyLast

/-!
# The walk reports what its specification says

The walk keeps its path in mutable state, writes the subscript of a list
element in place, and that of a map entry into the violations the entry
recorded. Each step of the walk, from any state, leaves the path and the key
flag as they were and appends the violations the specification has at that
path. A map entry is where the two differ: its violations are recorded without
the key and rewritten afterwards, which is the specification run at the key
because a run at a longer path only moves its violations.
-/

namespace Protovalidate

open Recording

/-- The elements of a violation's field path. -/
def Violation.elements (violation : Violation) : List FieldPathElement :=
  match violation.field with
  | none => []
  | some field => field.elements

/-- The violation as seen from above: its field path follows `base`. -/
def Violation.under (base : List FieldPathElement) (violation : Violation) : Violation :=
  { violation with field := fieldPath (base ++ violation.elements) }

theorem elements_violation (failure : Failure) (path : List FieldPathElement) (forKey : Bool) :
    (failure.violation path forKey).elements = path := by
  cases path <;> rfl

theorem violation_under (failure : Failure) (base path : List FieldPathElement)
    (forKey : Bool) :
    (failure.violation path forKey).under base = failure.violation (base ++ path) forKey := by
  simp only [Violation.under, elements_violation]
  rfl

/-- Moving a run under a longer path moves its violations there. -/
def relocation (ε : Type) : Similarity (SpecM ε) (SpecM ε) where
  Rel x y := ∀ base path forKey,
    y ⟨base ++ path, forKey⟩ = (x ⟨path, forKey⟩).mapOut (Violation.under base)
  pure _ := fun _ _ _ => rfl
  bind first next := fun base path forKey => by
    simp only [SpecM.bind_apply, first base path forKey, Emit.mapOut_bind, next _ base path forKey]
  record failure := fun base path forKey => by
    simp only [record, Emit.report, Emit.mapOut, List.map_cons, List.map_nil, violation_under]
  abort _ := fun _ _ _ => rfl
  within s x y rel := fun base path forKey => by
    simp only [within, SpecM.under, List.append_assoc]
    exact rel base (path ++ [s]) forKey

variable {R : Runtime}

theorem forKey_relocates {x y : SpecM R.Error Unit} (rel : (relocation R.Error).Rel x y) :
    (relocation R.Error).Rel x.forKey y.forKey :=
  fun base path _ => rel base path true

theorem value_relocates (walk : Walk R) (v : Val R) :
    Spec.SelfSimilar walk (relocation R.Error) v :=
  Spec.value_similar walk _ (fun _ _ => forKey_relocates) v

theorem entry_relocates (walk : Walk R) (entries : Entries R) (entry : Atom × Val R) :
    (relocation R.Error).Rel (Spec.entry walk entries entry) (Spec.entry walk entries entry) :=
  Spec.entry_similar walk _ (fun _ _ => forKey_relocates) (value_relocates walk entry.2) entries

theorem modify_at {α : Type} (f : α → α) (before : List α) (a : α) (after : List α) :
    (before ++ a :: after).modify before.length f = before ++ f a :: after := by
  induction before with
  | nil => rfl
  | cons b before ih => simp only [List.cons_append, List.length_cons, List.modify_succ_cons, ih]

/-- Writing a subscript at `depth` into violations below a path of that depth
moves them below the path with the subscript. -/
theorem setSubscript_under (base : List FieldPathElement) (element : FieldPathElement)
    (subscript : Option Subscript) (violation : Violation) :
    Violations.setSubscript base.length subscript (violation.under (base ++ [element])) =
      violation.under (base ++ [element.withSubscript subscript]) := by
  simp [Violations.setSubscript, Violation.under, fieldPath, modify_at,
    FieldPathElement.withSubscript]

/-- What the walk makes of a specification run: the same up to the first
violation when failing fast. -/
def observed {ε α : Type} (failFast : Bool) (report : Emit Violation (Error ε) α) :
    Emit Violation (Abort ε) α :=
  report.cut failFast Abort.error .failFast

/-- From a state at `path`, a step of the walk ends as `report` does, appends
its violations, and leaves the state at `path'`. -/
def Appends {ε α : Type} (w : WalkM ε α) (failFast forKey : Bool) (path path' : List PathElement)
    (report : Emit Violation (Abort ε) α) : Prop :=
  ∀ list, w ⟨failFast, path, forKey, list⟩ =
    (report.result, ⟨failFast, path', forKey, list ++ report.out⟩)

theorem appends_bind {ε α β : Type} {w : WalkM ε α} {f : α → WalkM ε β} {failFast forKey : Bool}
    {path path' : List PathElement} {x : Emit Violation (Abort ε) α}
    {g : α → Emit Violation (Abort ε) β} (first : Appends w failFast forKey path path' x)
    (next : ∀ a, Appends (f a) failFast forKey path' path' (g a)) :
    Appends (w >>= f) failFast forKey path path' (x >>= g) := by
  intro list
  obtain ⟨out, e | a⟩ := x
  · simp only [bind, WalkM.andThen, first list]
    rfl
  · simp only [bind, WalkM.andThen, first list, Emit.andThen]
    rw [next a (list ++ out), List.append_assoc]

theorem resolve_path (path : List PathElement) (element : FieldPathElement)
    (subscript : Option Subscript) :
    (path ++ [(⟨element, subscript⟩ : PathElement)]).map PathElement.resolve =
      path.map PathElement.resolve ++ [element.withSubscript subscript] :=
  List.map_append

theorem appends_at {ε α : Type} {w : WalkM ε α} {failFast forKey : Bool}
    {path : List PathElement} {element : FieldPathElement} {subscript : Option Subscript}
    {report : Emit Violation (Abort ε) α}
    (inside : Appends w failFast forKey (path ++ [⟨element, element.subscript⟩])
      (path ++ [⟨element, subscript⟩]) report) :
    Appends (within element w) failFast forKey path path report := by
  intro list
  simp only [within, WalkM.at_, inside list, List.dropLast_concat]

/-- The walk and its specification, at every path. -/
def simulation (ε : Type) (failFast forKey : Bool) : Similarity (WalkM ε) (SpecM ε) where
  Rel w s := ∀ path,
    Appends w failFast forKey path path
      (observed failFast (s ⟨path.map PathElement.resolve, forKey⟩))
  pure a := fun path list => by
    cases failFast <;> simp [observed, Emit.cut, pure, ReaderT.pure, Emit.ret, Except.mapError]
  bind first next := fun path => by
    rw [SpecM.bind_apply, observed, Emit.cut_bind]
    exact appends_bind (first path) (fun a => next a path)
  record failure := fun path list => by
    cases failFast <;> rfl
  abort e := fun path list => by
    cases failFast <;>
      simp [observed, Emit.cut, abort, Emit.fail, Except.mapError]
  within s x y rel := fun path => by
    have inside := rel (path ++ [⟨s, s.subscript⟩])
    rw [resolve_path] at inside
    exact appends_at inside

variable {failFast forKey : Bool}

/-- A step over the items of a container, which leaves the walk at whichever
item it ended on. -/
def InContainer {ε α : Type} (failFast forKey : Bool) (container : FieldPathElement)
    (w : WalkM ε α) (s : SpecM ε α) : Prop :=
  ∀ path subscript, ∃ subscript',
    Appends w failFast forKey (path ++ [⟨container, subscript⟩])
      (path ++ [⟨container, subscript'⟩])
      (observed failFast (s ⟨path.map PathElement.resolve, forKey⟩))

theorem similar_of_inContainer {ε α : Type} {container : FieldPathElement} {w : WalkM ε α}
    {s : SpecM ε α} (h : InContainer failFast forKey container w s) :
    (simulation ε failFast forKey).Rel (within container w) s := by
  intro path
  obtain ⟨subscript, inside⟩ := h path container.subscript
  exact appends_at inside

/-- What does not depend on the position is a step over no item. -/
theorem inContainer_of_similar {ε α : Type} {container : FieldPathElement} {w : WalkM ε α}
    {s : SpecM ε α} (h : (simulation ε failFast forKey).Rel w s)
    (anywhere : ∀ path path', s ⟨path, forKey⟩ = s ⟨path', forKey⟩) :
    InContainer failFast forKey container w s := by
  intro path subscript
  refine ⟨subscript, ?_⟩
  have inside := h (path ++ [⟨container, subscript⟩])
  rwa [anywhere _ (path.map PathElement.resolve)] at inside

theorem inContainer_pure {ε α : Type} (container : FieldPathElement) (a : α) :
    InContainer failFast forKey container (pure a : WalkM ε α) (pure a) :=
  inContainer_of_similar ((simulation ε failFast forKey).pure a) (fun _ _ => rfl)

theorem inContainer_abort {ε α : Type} (container : FieldPathElement) (e : Error ε) :
    InContainer failFast forKey container (abort e : WalkM ε α) (abort e) :=
  inContainer_of_similar ((simulation ε failFast forKey).abort e) (fun _ _ => rfl)

theorem inContainer_read {α : Type} (container : FieldPathElement) (r : Except R.Error α) :
    InContainer failFast forKey container (read r : WalkM R.Error α) (read r) := by
  cases r with
  | ok a => exact inContainer_pure container a
  | error e => exact inContainer_abort container (.read e)

theorem inContainer_bind {ε α β : Type} {container : FieldPathElement} {w : WalkM ε α}
    {s : SpecM ε α} {f : α → WalkM ε β} {g : α → SpecM ε β}
    (first : InContainer failFast forKey container w s)
    (next : ∀ a, InContainer failFast forKey container (f a) (g a)) :
    InContainer failFast forKey container (w >>= f) (s >>= g) := by
  intro path subscript
  obtain ⟨subscript', ends⟩ := first path subscript
  rw [SpecM.bind_apply, observed, Emit.cut_bind]
  generalize hx : Emit.cut failFast Abort.error Abort.failFast
    (s ⟨path.map PathElement.resolve, forKey⟩) = x
  rw [observed, hx] at ends
  obtain ⟨out, e | a⟩ := x
  · refine ⟨subscript', fun list => ?_⟩
    simp only [bind, WalkM.andThen, ends list]
    rfl
  · obtain ⟨subscript'', later⟩ := next a path subscript'
    refine ⟨subscript'', fun list => ?_⟩
    simp only [bind, WalkM.andThen, ends list, Emit.andThen]
    rw [later (list ++ out), List.append_assoc]
    rfl

theorem inContainer_forM {ε ι : Type} {container : FieldPathElement} (items : List ι)
    {f : ι → WalkM ε PUnit} {g : ι → SpecM ε PUnit}
    (each : ∀ i, InContainer failFast forKey container (f i) (g i)) :
    InContainer failFast forKey container (items.forM f) (items.forM g) := by
  induction items with
  | nil => exact inContainer_pure container _
  | cons i rest ih => exact inContainer_bind (each i) (fun _ => ih)

/-- A list element: its subscript is written before it is validated. -/
theorem inContainer_subscript {ε : Type} {container : FieldPathElement}
    (subscript : Option Subscript) {w : WalkM ε Unit} {s : SpecM ε Unit}
    (h : (simulation ε failFast forKey).Rel w s) :
    InContainer failFast forKey container (do WalkM.subscript subscript; w)
      (within (container.withSubscript subscript) s) := by
  intro path before
  refine ⟨subscript, fun list => ?_⟩
  have inside := h (path ++ [⟨container, subscript⟩]) list
  rw [resolve_path] at inside
  simp only [bind, WalkM.andThen, WalkM.subscript, Violations.subscript, List.modifyLast_concat]
  exact inside

/-- Rewriting the last part of a list leaves the rest of it alone. -/
theorem subscriptSince_append (out : Violations) (recorded : List Violation)
    (subscript : Option Subscript) (nonempty : out.path ≠ []) :
    ({ out with list := out.list ++ recorded }).subscriptSince out.list.length subscript =
      { out with
        list := out.list ++
          recorded.map (Violations.setSubscript (out.path.length - 1) subscript) } := by
  simp [Violations.subscriptSince, nonempty]

/-- A map entry: its subscript is written after it is validated, into what it
recorded, also when it stopped the walk. -/
theorem inContainer_entry {ε : Type} {container : FieldPathElement} (key : Atom)
    {w : WalkM ε Unit} {s : SpecM ε Unit} (h : (simulation ε failFast forKey).Rel w s)
    (relocates : (relocation ε).Rel s s) :
    InContainer failFast forKey container (validateEntry key w)
      (within (container.withSubscript (keySubscript key)) s) := by
  intro path before
  refine ⟨before, fun list => ?_⟩
  have inside := h (path ++ [⟨container, before⟩]) list
  have at_key := fun subscript => relocates
    (path.map PathElement.resolve ++ [container.withSubscript subscript]) [] forKey
  simp only [List.append_nil] at at_key
  rw [resolve_path, at_key, observed, Emit.cut_mapOut] at inside
  have rewritten := subscriptSince_append
    ⟨failFast, path ++ [⟨container, before⟩], forKey, list⟩
  simp only [List.length_append, List.length_singleton, Nat.add_sub_cancel] at rewritten
  simp only [validateEntry, inside, within, SpecM.under, at_key, observed, Emit.cut_mapOut]
  rw [rewritten _ _ (by simp)]
  simp only [Emit.mapOut, List.map_map]
  have depth : path.length = (path.map PathElement.resolve).length := by simp
  have moved : ∀ v, Violations.setSubscript path.length (keySubscript key)
      (Violation.under (path.map PathElement.resolve ++ [container.withSubscript before]) v) =
      Violation.under
        (path.map PathElement.resolve ++ [container.withSubscript (keySubscript key)]) v := by
    intro v
    rw [depth]
    exact setSubscript_under _ _ _ _
  congr 3
  exact List.map_congr_left (fun v _ => moved v)

/-- Only a scalar key is validated inside `forKey`, so it resets a flag that
was not set before. -/
theorem forKey_simulated {ε : Type} {w : WalkM ε Unit} {s : SpecM ε Unit}
    (h : (simulation ε failFast true).Rel w s) :
    (simulation ε failFast false).Rel w.forKey s.forKey := by
  intro path list
  simp only [WalkM.forKey, h path list]
  rfl

section Simulated
variable (walk : Walk R)

/-- The walk from any path does to a value what the specification says. -/
def Simulated (failFast : Bool) (v : Val R) : Prop :=
  ∀ (validator : ValueValidator R) (bind : CelBind R),
    (simulation R.Error failFast false).Rel (validator.validate walk bind v)
      (Spec.value walk validator bind v)

theorem key_simulated (entries : Entries R) (k : Atom) :
    (simulation R.Error failFast false).Rel (validateKey walk entries k)
      (Spec.key walk entries k) := by
  unfold validateKey Spec.key
  cases entries.keys with
  | none => exact (simulation _ _ _).pure _
  | some keys =>
    refine (simulation _ _ _).bind (read_similar _ _) (fun skip => ?_)
    refine (simulation _ _ _).ite ((simulation _ _ _).pure _) ?_
    exact forKey_simulated (valueRules_similar _ walk _ _ _ _)

theorem option_simulated {read : Option (Val R)}
    (parts : ∀ v, read = some v → Simulated walk failFast v)
    (validator : ValueValidator R) (bind : CelBind R) :
    (simulation R.Error failFast false).Rel (validator.validateOption walk bind read)
      (Spec.option walk validator bind read) := by
  cases read with
  | none => exact valueRules_similar _ walk _ _ _ _
  | some v => exact parts v rfl _ _

theorem item_simulated {read : Except R.Error (Option (Val R))}
    (parts : ∀ v, read = .ok (some v) → Simulated walk failFast v) (items : ItemValidator R)
    (container : FieldPathElement) (kind : Singular) (index : Nat) :
    InContainer failFast false container (items.validateItem walk kind index read)
      (Spec.item walk items container kind index read) := by
  cases read with
  | error e => exact inContainer_abort _ _
  | ok read =>
    cases read with
    | none => exact inContainer_pure _ _
    | some v =>
      refine inContainer_bind (inContainer_read _ _) (fun skip => ?_)
      cases skip with
      | true => exact inContainer_pure _ _
      | false => exact inContainer_subscript _ (parts v rfl _ _)

theorem list_simulated {l : ListView R} (parts : ∀ v, Part v (.list l) → Simulated walk failFast v)
    (items : ItemValidator R) (container : FieldPathElement) (kind : Singular) :
    (simulation R.Error failFast false).Rel
      (within container (items.validateList walk kind l))
      (Spec.list walk items container kind l) := by
  obtain ⟨len, get⟩ := l
  refine similar_of_inContainer (inContainer_bind (inContainer_read _ _) (fun len => ?_))
  refine inContainer_forM _ (fun index => ?_)
  exact item_simulated walk (fun v h => parts v (.element h)) _ _ _ _

theorem entry_simulated {k : Atom} {v : Val R} (part : Simulated walk failFast v)
    (entries : Entries R) :
    (simulation R.Error failFast false).Rel (validateEntryValues walk entries (k, v))
      (Spec.entry walk entries (k, v)) := by
  refine (simulation _ _ _).bind (key_simulated walk _ _) (fun _ => ?_)
  cases entries.values with
  | none => exact (simulation _ _ _).pure _
  | some values =>
    refine (simulation _ _ _).bind (read_similar _ _) (fun skip => ?_)
    exact (simulation _ _ _).ite ((simulation _ _ _).pure _) (part _ _)

theorem entries_simulated {visited : List (Atom × Val R)}
    (parts : ∀ e ∈ visited, Simulated walk failFast e.2) (entries : Entries R)
    (container : FieldPathElement) :
    InContainer failFast false container (validateEntries walk entries visited)
      (Spec.entryList walk entries container visited) := by
  induction visited with
  | nil => exact inContainer_pure _ _
  | cons first rest ih =>
    obtain ⟨k, v⟩ := first
    refine inContainer_bind ?_ (fun _ => ?_)
    · refine inContainer_entry k ?_ (entry_relocates walk entries (k, v))
      exact entry_simulated walk (parts _ List.mem_cons_self) entries
    · exact ih (fun e h => parts e (List.mem_cons_of_mem _ h))

theorem map_simulated {m : MapView R} (parts : ∀ v, Part v (.map m) → Simulated walk failFast v)
    (entries : Entries R) (container : FieldPathElement) :
    (simulation R.Error failFast false).Rel (within container (validateMap walk entries m))
      (Spec.map walk entries container m) := by
  obtain ⟨len, visited, fault⟩ := m
  refine similar_of_inContainer (inContainer_bind ?_ (fun _ => ?_))
  · exact entries_simulated walk (fun e h => parts e.2 (.entry (k := e.1) h)) _ _
  · cases fault with
    | none => exact inContainer_pure _ _
    | some e => exact inContainer_abort _ _

theorem items_simulated {read : Option (Val R)}
    (parts : ∀ v w, read = some v → Part w v → Simulated walk failFast w)
    (validator : FieldValidator R) :
    (simulation R.Error failFast false).Rel (validator.validateItems walk read)
      (Spec.contents walk validator read) := by
  cases read with
  | none => exact (simulation _ _ _).pure _
  | some v =>
    cases v with
    | list l =>
      simp only [FieldValidator.validateItems, Spec.contents]
      have elements := list_simulated walk (fun w part => parts _ w rfl part)
      cases validator.kind with
      | list items =>
        cases items <;> cases validator.field.kind <;>
          first | exact elements _ _ _ | exact (simulation _ _ _).pure _
      | _ => exact (simulation _ _ _).pure _
    | map m =>
      simp only [FieldValidator.validateItems, Spec.contents]
      have mapped := map_simulated walk (fun w part => parts _ w rfl part)
      cases validator.kind with
      | map element keys values =>
        cases validator.field.kind <;>
          first | exact mapped _ _ | exact (simulation _ _ _).pure _
      | _ => exact (simulation _ _ _).pure _
    | _ => exact (simulation _ _ _).pure _

theorem field_simulated {read : Except R.Error (Option (Val R))}
    (parts : ∀ v, read = .ok (some v) →
      Simulated walk failFast v ∧ ∀ w, Part w v → Simulated walk failFast w)
    (validator : FieldValidator R) (m : Message R) (frame : CelFrame R) :
    (simulation R.Error failFast false).Rel (validator.validate walk m frame read)
      (Spec.field walk validator m frame read) := by
  cases read with
  | error e => exact (simulation _ _ _).abort _
  | ok read =>
    refine (simulation _ _ _).bind (read_similar _ _) (fun set => ?_)
    refine (simulation _ _ _).ite ((simulation _ _ _).within _ (push_similar _ _ _ _)) ?_
    refine (simulation _ _ _).ite ((simulation _ _ _).pure _) ?_
    refine (simulation _ _ _).bind ((simulation _ _ _).within _ ?_) (fun _ => ?_)
    · exact option_simulated walk (fun v h => (parts v (by rw [h])).1) _ _
    · exact items_simulated walk (fun v w h => (parts v (by rw [h])).2 w) _

theorem message_simulated_of_parts {m : Message R}
    (parts : ∀ v, Below v (.message m) → Simulated walk failFast v)
    (validator : MessageValidator R) (frame : CelFrame R) :
    (simulation R.Error failFast false).Rel (validator.validate walk frame m)
      (Spec.message walk validator frame m) := by
  obtain ⟨has, get, encode⟩ := m
  refine (simulation _ _ _).bind (messageRules_similar _ walk _ _ _) (fun _ => ?_)
  refine (simulation _ _ _).forM _ (fun rules _ => ?_)
  cases rules with
  | error e => exact (simulation _ _ _).abort _
  | ok rules =>
    refine field_simulated walk (fun v h => ?_) _ _ _
    have direct : Part v (.message ⟨has, get, encode⟩) := .field h
    exact ⟨parts v (.single direct), fun w part => parts w (.head part (.single direct))⟩

/-- By induction on the value: the walk of its parts is simulated already. -/
theorem value_simulated (failFast : Bool) (v : Val R) : Simulated walk failFast v := by
  induction v using Val.below_induction with
  | step v below =>
    intro validator bind
    cases v with
    | message sub =>
      refine (simulation _ _ _).bind (orAbort_similar _ _) (fun nested => ?_)
      refine (simulation _ _ _).bind (valueRules_similar _ walk _ _ _ _) (fun _ => ?_)
      cases nested with
      | none => exact (simulation _ _ _).pure _
      | some nested => exact message_simulated_of_parts walk below _ _
    | _ => exact valueRules_similar _ walk _ _ _ _

theorem message_simulated (failFast : Bool) (m : Message R) (validator : MessageValidator R)
    (frame : CelFrame R) :
    (simulation R.Error failFast false).Rel (validator.validate walk frame m)
      (Spec.message walk validator frame m) :=
  message_simulated_of_parts walk (fun v _ => value_simulated walk failFast v) validator frame

/-- A walk from the root, in terms of the specification there. -/
theorem validate_from_root (failFast : Bool) (validator : MessageValidator R) (m : Message R)
    (typeName : String) :
    validator.validate walk ⟨typeName, m⟩ m (Violations.new failFast) =
      ((observed failFast (Spec.report walk validator m typeName [])).result,
        ⟨failFast, [], false,
          (observed failFast (Spec.report walk validator m typeName [])).out⟩) :=
  message_simulated walk failFast m validator ⟨typeName, m⟩ [] []

/-- A full walk returns what the specification does. -/
theorem validate_full (validator : MessageValidator R) (m : Message R) (typeName : String) :
    walk.validate false validator m typeName = Spec.validate walk validator m typeName := by
  simp only [Walk.validate, validate_from_root, Spec.validate, observed, Emit.cut_false]
  cases (Spec.report walk validator m typeName []).result <;> rfl

/-- The full walk of a message, from any path and any violations found before,
reports what the specification says there, in order, and leaves the path and
the key flag as they were. From the root it returns what the specification
returns. -/
theorem walk_reports_specification (validator : MessageValidator R) (m : Message R)
    (typeName : String) (path : List PathElement) (found : List Violation) :
    validator.validate walk ⟨typeName, m⟩ m ⟨false, path, false, found⟩ =
      ((Spec.report walk validator m typeName (path.map PathElement.resolve)).result.mapError
          Abort.error,
        ⟨false, path, false, found ++
          (Spec.report walk validator m typeName (path.map PathElement.resolve)).out⟩) ∧
    walk.validate false validator m typeName = Spec.validate walk validator m typeName := by
  constructor
  · exact message_simulated walk false m validator ⟨typeName, m⟩ path found
  · simp only [Walk.validate, validate_from_root, Spec.validate, observed, Emit.cut_false]
    cases (Spec.report walk validator m typeName []).result <;> rfl

end Simulated

end Protovalidate
