import Protovalidate.EncodeReasons

/-!
# What a walk gets to, it runs

Where the specification has a walk get to a place, the walk that counts gets there too,
and what it counts from there on is part of the whole. An item that is tested for its
zero value is then encoded.
-/

namespace Protovalidate

open Recording Relation

namespace Encodes
variable {R : Runtime} {walk : Walk R} {failFast : Bool}

/-- A step that counts no less. -/
def Grows {α : Type} (x : CountM R α) : Prop := ∀ s, s.encodes ≤ (x s).2.encodes

/-- A step from a state that is taken in the course of another one. -/
structure Inside {α β : Type} (x : CountM R α) (s : State R) (y : CountM R β) (s' : State R) :
    Prop where
  starts : s'.encodes ≤ s.encodes
  ends : (x s).2.encodes ≤ (y s').2.encodes

section Inside
variable {α β γ : Type} {x : CountM R α} {f : α → CountM R β} {y : CountM R γ}
variable {s s' : State R} {area : Location → Prop}

theorem Makes.grows (makes : Makes area x) : Grows x := fun s => (makes s).1

theorem bind_ok {b : β} (ran : (x >>= f) s = (.ok b, s')) :
    ∃ a mid, x s = (.ok a, mid) ∧ f a mid = (.ok b, s') := by
  change CountM.andThen x f s = _ at ran
  unfold CountM.andThen at ran
  rcases first : x s with ⟨e | a, mid⟩ <;> rw [first] at ran
  · cases ran
  · exact ⟨a, mid, rfl, ran⟩

theorem Grows.bind (first : Grows x) (next : ∀ a, Grows (f a)) : Grows (x >>= f) := by
  intro s
  change _ ≤ (CountM.andThen x f s).2.encodes
  have grows := first s
  unfold CountM.andThen
  rcases ran : x s with ⟨e | a, s'⟩ <;> rw [ran] at grows
  · exact grows
  · exact grows.trans (next a s')

theorem Grows.forM {ι : Type} {items : List ι} {f : ι → CountM R PUnit}
    (each : ∀ i, Grows (f i)) : Grows (items.forM f) := by
  induction items with
  | nil => exact fun _ => Nat.le_refl _
  | cons first rest ih => exact Grows.bind (each first) fun _ => ih

theorem Inside.refl (x : CountM R α) (s : State R) : Inside x s x s :=
  ⟨Nat.le_refl _, Nat.le_refl _⟩

theorem Inside.trans {z : CountM R β} {s'' : State R} (first : Inside x s y s')
    (second : Inside y s' z s'') : Inside x s z s'' :=
  ⟨second.starts.trans first.starts, first.ends.trans second.ends⟩

theorem Inside.first (rest : ∀ a, Grows (f a)) : Inside x s (x >>= f) s := by
  refine ⟨Nat.le_refl _, ?_⟩
  change _ ≤ (CountM.andThen x f s).2.encodes
  unfold CountM.andThen
  rcases x s with ⟨e | a, s'⟩
  · exact Nat.le_refl _
  · exact rest a s'

theorem Inside.next {a : α} (first : Grows x) (ran : x s = (.ok a, s')) :
    Inside (f a) s' (x >>= f) s := by
  refine ⟨?_, by rw [bind_ran ran]⟩
  have grows := first s
  rwa [ran] at grows

theorem Inside.after {x : CountM R Unit} (first : Grows x) (ran : x s = (.ok (), s')) :
    Inside y s' (x >>= fun _ => y) s :=
  Inside.next (f := fun _ => y) first ran

theorem Inside.within (element : FieldPathElement) :
    Inside x (State.inside element s) (within element x) s :=
  ⟨Nat.le_refl _, Nat.le_refl _⟩

theorem Inside.forM {ι : Type} {before : List ι} {i : ι} {f : ι → CountM R PUnit}
    (after : List ι) (each : ∀ i, Grows (f i)) (ran : before.forM f s = (.ok (), s')) :
    Inside (f i) s' ((before ++ i :: after).forM f) s := by
  induction before generalizing s with
  | nil =>
    cases ran
    exact Inside.first fun _ => Grows.forM each
  | cons first before ih =>
    obtain ⟨_, mid, head, rest⟩ := bind_ok ran
    exact (ih rest).trans (Inside.after (each first) head)

end Inside

variable (walk) in
/-- The walk that counts, at a place. -/
def Walks (place : Place R) (s : State R) (x : CountM R Unit) : Prop :=
  match place.visit with
  | .message validator frame m => ∃ framed : Framed R, framed.toCelFrame = frame ∧
      framed.Valid s ∧ x = validateMessage walk validator framed m
  | .value validator bind v => ∃ (bound : Bind R) (location : Location),
      bound.unframed = bind ∧ bound.Valid s ∧ x = validateOption walk validator bound location v
  | .missing _ | .key _ _ _ => x = pure ()

section Fields
variable {s : State R} {validator : MessageValidator R} {framed : Framed R} {m : Message R}
variable {path : List FieldPathElement} {rules : FieldValidator R}

theorem Follows.runs {y : CountM R Unit} {z : SpecM R.Error Unit}
    (follows : Follows walk failFast s y z) (passes : Passes failFast (z ⟨path, false⟩)) :
    ∃ s', y s = (.ok (), s') ∧ Ready walk failFast s' ∧ Grown s s' := by
  have done := (follows.passes path).mpr passes
  exact ⟨(y s).2, Prod.ext done rfl, follows.ready done, follows.grown⟩

theorem field_grows (rules : FieldValidator R) (m : Message R) (framed : Framed R)
    (location : Location) (found : Except R.Error (Option (Val R))) :
    Grows (validateField walk rules m framed location found) :=
  (field_makes (fun v _ => ⟨value_makes v, fun w _ => value_makes w⟩) rules m framed
    location).grows

theorem fieldEntry_grows (framed : Framed R) (m : Message R)
    (entry : Except String (FieldValidator R) × Nat) : Grows (fieldEntry walk framed m entry) := by
  obtain ⟨rules | rules, index⟩ := entry
  · exact fun _ => Nat.le_refl _
  · exact field_grows rules m framed _ _

theorem field_inside {value : Option (Val R)} {set : Bool} (ready : Ready walk failFast s)
    (valid : framed.Valid s)
    (reached : AtField walk (Passes failFast) validator framed.toCelFrame m path rules value set) :
    ∃ s' location, Ready walk failFast s' ∧ Grown s s' ∧
      Inside (validateField walk rules m framed location (.ok value)) s'
        (validateMessage walk validator framed m) s := by
  obtain ⟨before, after, fields, earlier⟩ := reached.reached
  obtain ⟨s', ran, ready', grown⟩ :=
    (message_follows ready { validator with fields := before } valid m).runs earlier
  rw [validateMessage_eq] at ran
  obtain ⟨_, mid, own, ran⟩ := bind_ok ran
  refine ⟨s', framed.location ++ [.field before.length], ready', grown, ?_⟩
  have here : Inside (fieldEntry walk framed m (.ok rules, before.length)) s'
      (validator.fields.zipIdx.forM (fieldEntry walk framed m)) mid := by
    rw [fields, List.zipIdx_append, List.zipIdx_cons, Nat.zero_add]
    exact Inside.forM _ (fieldEntry_grows framed m) ran
  rw [validateMessage_eq]
  rw [fieldEntry, reached.got] at here
  exact here.trans (Inside.after (messageRules_quiet validator framed m).grows own)

theorem validateField_runs {found : Option (Val R)} {set : Bool} (location : Location)
    (isSet : rules.isSet m found = .ok set) (runs : rules.Runs set) :
    validateField walk rules m framed location (.ok found) s = (do
      within rules.element
        (validateOption walk rules.value (.field framed rules.field) location found)
      validateItems walk rules location found : CountM R Unit) s := by
  have ran : (read (rules.isSet m found) : CountM R Bool) s = (.ok set, s) := by rw [isSet]; rfl
  refine (bind_ran ran).trans ?_
  rcases runs with rfl | ⟨required, ignoreEmpty⟩
  · rfl
  · simp [required, ignoreEmpty]

theorem contents_inside {v : Val R} (ready : Ready walk failFast s) (valid : framed.Valid s)
    (reached : AtContents walk (Passes failFast) validator framed.toCelFrame m path rules v) :
    ∃ s' location, Ready walk failFast s' ∧
      Inside (validateItems walk rules location (some v)) s'
        (validateMessage walk validator framed m) s := by
  obtain ⟨set, field, runs⟩ := reached.field
  obtain ⟨s', location, ready', grown, inside⟩ := field_inside ready valid field
  have valid' : (Bind.field framed rules.field).Valid (State.inside rules.element s') :=
    (valid.mono grown : framed.Valid s')
  obtain ⟨s'', ran, ready'', -⟩ := (option_follows (ready'.inside rules.element) rules.value
    valid' location (some v)).within.runs reached.own
  have own : Grows (within rules.element
      (validateValue walk rules.value (.field framed rules.field) location v)) :=
    (value_makes v _ _ _).around.grows
  have later : Inside (validateItems walk rules location (some v)) s'' _ s' := Inside.after own ran
  refine ⟨s'', location, ready'', Inside.trans ⟨later.starts, ?_⟩ inside⟩
  rw [validateField_runs location field.isSet runs]
  exact later.ends

/-- Where a walk gets to an element of a list. -/
theorem element_inside {l : ListView R} {items : ItemValidator R} {kind : Singular}
    {len index : Nat} (ready : Ready walk failFast s) (valid : framed.Valid s)
    (reached : AtContents walk (Passes failFast) validator framed.toCelFrame m path rules (.list l))
    (held : rules.kind = .list (some items)) (listed : rules.field.kind = .list kind)
    (counted : l.len = .ok len) (inside : index < len)
    (earlier : Passes failFast ((List.range index).forM fun i =>
      Spec.item walk items rules.element kind i (l.get i) ⟨path, false⟩)) :
    ∃ s' location, Ready walk failFast s' ∧
      Inside (validateItem walk items kind location index (l.get index)) s'
        (validateMessage walk validator framed m) s := by
  obtain ⟨s', location, ready', contents⟩ := contents_inside ready valid reached
  obtain ⟨count, get⟩ := l
  obtain rfl : count = .ok len := counted
  have prefixed : Passes failFast (Spec.list walk items rules.element kind ⟨.ok index, get⟩
      ⟨path, false⟩) := by
    rwa [Spec.list_eq walk _ _ _ rfl]
  obtain ⟨s'', ran, ready'', -⟩ :=
    (list_follows ready' items rules.element kind location ⟨.ok index, get⟩).runs prefixed
  refine ⟨s'', location, ready'', Inside.trans ?_ contents⟩
  have each : ∀ i, Grows (validateItem walk items kind location i (get i)) := fun i =>
    (item_makes (fun v _ => value_makes v) items kind location i).grows
  obtain ⟨rest, rfl⟩ : ∃ rest, len = index + (rest + 1) := ⟨len - index - 1, by omega⟩
  have split : List.range (index + (rest + 1)) = List.range index ++ index ::
      (List.range rest).map fun i => index + (i + 1) := by
    rw [List.range_add, List.range_succ_eq_map, List.map_cons, Nat.add_zero, List.map_map]
    rfl
  have loop : Inside (validateItem walk items kind location index (get index)) s''
      (validateList walk items kind location ⟨.ok (index + (rest + 1)), get⟩)
      (State.inside rules.element s') := by
    change Inside _ s'' ((List.range (index + (rest + 1))).forM fun i =>
      validateItem walk items kind location i (get i)) _
    rw [split]
    exact Inside.forM _ each ran
  simp only [validateItems, held, listed]
  exact loop.trans (Inside.within _)

/-- Where a walk gets to an entry of a map, past those before it. -/
theorem entries_inside {all : Entries R} {element : FieldPathElement}
    {before : List (Atom × Val R)} (entry : Atom × Val R) (after : List (Atom × Val R))
    (location : Location) (len : Except R.Error Nat) (fault : Option R.Error)
    (ready : Ready walk failFast s)
    (earlier : Passes failFast (Spec.entryList walk all element before ⟨path, false⟩)) :
    ∃ s', Ready walk failFast s' ∧
      Inside (validateEntryValues walk all (location ++ [.entry before.length]) entry) s'
        (validateMap walk all location ⟨len, before ++ entry :: after, fault⟩)
        (State.inside element s) := by
  have prefixed : Passes failFast (Spec.map walk all element ⟨.ok 0, before, none⟩
      ⟨path, false⟩) := by
    rwa [Spec.map_eq, bind_pure]
  obtain ⟨s', ran, ready', -⟩ :=
    (map_follows ready all element location ⟨.ok 0, before, none⟩).runs prefixed
  obtain ⟨_, mid, visits, same⟩ := bind_ok ran
  cases same
  have each : ∀ entry : (Atom × Val R) × Nat, Grows (validateEntry entry.1.1
      (validateEntryValues walk all (location ++ [.entry entry.2]) entry.1)) := fun entry =>
    (entry_makes (value_makes entry.1.2) all _).around.grows
  have loop : Inside (validateEntryValues walk all (location ++ [.entry before.length]) entry)
      s' (validateEntries walk all location 0 (before ++ entry :: after))
      (State.inside element s) := by
    rw [validateEntries_eq] at visits ⊢
    rw [List.zipIdx_append, List.zipIdx_cons, Nat.zero_add]
    have visit := Inside.forM (i := (entry, before.length)) (after.zipIdx (before.length + 1)) each
      visits
    exact ⟨visit.starts, visit.ends⟩
  refine ⟨s', ready', loop.trans (Inside.first fun _ => ?_)⟩
  cases fault <;> exact fun _ => Nat.le_refl _

/-- Where a walk gets to the value of an entry of a map. -/
theorem entry_inside {map : MapView R} {element : FieldPathElement}
    {keys : Option (ItemValidator R)} {values : ItemValidator R} {key : Scalar} {kind : Singular}
    {before after : List (Atom × Val R)} {k : Atom} {v : Val R} (ready : Ready walk failFast s)
    (valid : framed.Valid s)
    (reached : AtContents walk (Passes failFast) validator framed.toCelFrame m path rules
      (.map map))
    (held : rules.kind = .map element keys (some values))
    (mapped : rules.field.kind = .map key kind)
    (visited : map.entries = before ++ (k, v) :: after)
    (earlier : Passes failFast (Spec.entryList walk ⟨.scalar key, kind, keys, some values⟩ element
      before ⟨path, false⟩))
    (passed : Passes failFast (Spec.key walk ⟨.scalar key, kind, keys, some values⟩ k
      ⟨path ++ [element.withSubscript (keySubscript k)], false⟩)) :
    ∃ s' location, Ready walk failFast s' ∧
      Inside (do
        if ← skips values v then pure ()
        else validateValue walk values.value (.item kind) location v : CountM R Unit) s'
        (validateMessage walk validator framed m) s := by
  obtain ⟨s', location, ready', contents⟩ := contents_inside ready valid reached
  obtain ⟨len, entries, fault⟩ := map
  obtain rfl : entries = before ++ (k, v) :: after := visited
  let all : Entries R := ⟨.scalar key, kind, keys, some values⟩
  obtain ⟨s'', ready'', loop⟩ :=
    entries_inside (k, v) after location len fault ready' earlier
  obtain ⟨s3, keyed, ready3, -⟩ := (key_follows ready'' all k).runs passed
  refine ⟨s3, location ++ [.entry before.length], ready3, ?_⟩
  refine Inside.trans (Inside.after (key_quiet all k).grows keyed) (loop.trans ?_)
  refine Inside.trans (Inside.within element) ?_
  have items : validateItems walk rules location
      (some (.map ⟨len, before ++ (k, v) :: after, fault⟩)) = within element
        (validateMap walk all location ⟨len, before ++ (k, v) :: after, fault⟩) := by
    simp only [validateItems, held, mapped]
    rfl
  rwa [items] at contents

end Fields

/-! ### Places -/

section Places
variable {s : State R} {place next : Place R} {x : CountM R Unit}

/-- At any place, the walk counts no less. -/
theorem Walks.grows (walks : Walks walk place s x) : Grows x := by
  obtain ⟨path, visit⟩ := place
  cases visit with
  | message validator frame m =>
    obtain ⟨framed, -, -, rfl⟩ := walks
    exact (message_makes (fun v _ => value_makes v) validator framed).grows
  | value validator bind v =>
    obtain ⟨bound, location, -, -, rfl⟩ := walks
    cases v with
    | none => exact (valueRules_quiet validator bound none none).grows
    | some v => exact (value_makes v validator bound location).grows
  | missing rules => exact walks ▸ fun _ => Nat.le_refl _
  | key validator kind k => exact walks ▸ fun _ => Nat.le_refl _

theorem items_grow (rules : FieldValidator R) (location : Location) (value : Option (Val R)) :
    Grows (validateItems walk rules location value) := by
  cases value with
  | none => exact fun _ => Nat.le_refl _
  | some v => exact (items_make (fun w _ => value_makes w) rules location).grows

theorem Grows.nothing (grows : Grows x) (s : State R) : Inside (pure () : CountM R Unit) s x s :=
  ⟨Nat.le_refl _, grows s⟩

/-- Where a walk goes on with the rules of a message value's own type. -/
theorem nested_inside {bound : Bind R} {validator : ValueValidator R} {sub : Message R}
    {nested : MessageValidator R} {child : CelFrame R} {path : List FieldPathElement}
    (ready : Ready walk failFast s) (location : Location) (valid : bound.Valid s)
    (looked : validator.nestedMessage walk sub = .ok (some (nested, child)))
    (own : Passes failFast
      ((Place.mk path (.value validator bound.unframed (some (.message sub)))).rules walk)) :
    ∃ s' x', Ready walk failFast s' ∧ Walks walk ⟨path, .message nested child sub⟩ s' x' ∧
      Inside x' s' (validateOption walk validator bound location (some (.message sub))) s := by
  rw [Place.rules, Visit.rules, ← nestedMessage_child looked] at own
  let framed : Framed R := ⟨⟨child, location⟩, s.frames.length⟩
  have made : framed.Valid (s.framed ⟨child, location⟩) := Framed.valid_framed s _
  have grown := Grown.framed s ⟨child, location⟩
  have rules : Follows walk failFast (s.framed ⟨child, location⟩) (valueRules walk validator bound
      (some framed) (some (.message sub))) _ :=
    rules_follow (ready.framed ⟨child, location⟩) validator (valid.mono grown)
      (fun frame same => by cases same; exact made) _
  obtain ⟨s', ran, ready', grown'⟩ := rules.runs own
  have inner := Inside.after (y := validateMessage walk nested framed sub)
    (valueRules_quiet validator bound _ _).grows ran
  refine ⟨s', _, ready', ⟨framed, rfl, made.mono grown', rfl⟩, ⟨inner.starts, ?_⟩⟩
  refine inner.ends.trans (Nat.le_of_eq ?_)
  unfold validateOption validateValue nestedMessage
  rw [looked]
  rfl

/-- Where a walk enters a place, the walk that counts goes on there. -/
theorem enters_inside (ready : Ready walk failFast s) (walks : Walks walk place s x)
    (enters : Enters walk (Passes failFast) place next) :
    ∃ s' x', Ready walk failFast s' ∧ Walks walk next s' x' ∧ Inside x' s' x s := by
  have grows := walks.grows
  cases enters with
  | missing reached required => exact ⟨s, pure (), ready, rfl, grows.nothing s⟩
  | key reached held mapped visited earlier kept =>
    exact ⟨s, pure (), ready, rfl, grows.nothing s⟩
  | field reached runs =>
    rename_i rules value set
    obtain ⟨framed, rfl, valid, rfl⟩ := walks
    obtain ⟨s', location, ready', grown, inside⟩ := field_inside ready valid reached
    have option : Inside
        (validateOption walk rules.value (.field framed rules.field) location value)
        (State.inside rules.element s') (do
          within rules.element
            (validateOption walk rules.value (.field framed rules.field) location value)
          validateItems walk rules location value : CountM R Unit) s' :=
      (Inside.within rules.element).trans (Inside.first fun _ => items_grow rules location value)
    refine ⟨_, _, ready'.inside rules.element, ⟨.field framed rules.field, location, rfl,
      (valid.mono grown : framed.Valid s'), rfl⟩, Inside.trans ⟨option.starts, ?_⟩ inside⟩
    rw [validateField_runs location reached.isSet runs]
    exact option.ends
  | element reached held listed counted inside earlier got kept =>
    rename_i rules l items kind len index v
    obtain ⟨framed, rfl, valid, rfl⟩ := walks
    obtain ⟨s', location, ready', inside⟩ :=
      element_inside ready valid reached held listed counted inside earlier
    rw [got] at inside
    obtain ⟨s'', ran, ready''⟩ := skips_runs ready' kept
    have item : Inside _ s'' (validateItem walk items kind location index (.ok (some v))) s' :=
      Inside.next (skips_quiet items v).grows ran
    have moved : Inside (validateOption walk items.value (.item kind)
        (location ++ [.element index]) (some v))
        { s'' with out := s''.out.subscript (some (.index index)) }
        (validateItem walk items kind location index (.ok (some v))) s' :=
      ⟨item.starts, item.ends⟩
    exact ⟨{ s'' with out := s''.out.subscript (some (.index index)) }, _, ready''.move rfl rfl,
      ⟨.item kind, _, rfl, trivial, rfl⟩, moved.trans inside⟩
  | entry reached held mapped visited earlier passed kept =>
    rename_i rules map element keys values key kind before after k v
    obtain ⟨framed, rfl, valid, rfl⟩ := walks
    obtain ⟨s', location, ready', inside⟩ :=
      entry_inside ready valid reached held mapped visited earlier passed
    obtain ⟨s'', ran, ready''⟩ := skips_runs ready' kept
    exact ⟨s'', _, ready'', ⟨.item kind, location, rfl, trivial, rfl⟩,
      (Inside.next (skips_quiet values v).grows ran).trans inside⟩
  | nested looked own =>
    obtain ⟨bound, location, rfl, valid, rfl⟩ := walks
    exact nested_inside ready location valid looked own

theorem gets_inside {start : Place R} (ready : Ready walk failFast s)
    (walks : Walks walk start s x) (gets : Gets walk failFast start place) :
    ∃ s' x', Ready walk failFast s' ∧ Walks walk place s' x' ∧ Inside x' s' x s := by
  induction gets with
  | refl => exact ⟨s, x, ready, walks, .refl x s⟩
  | tail _ enters ih =>
    obtain ⟨s', x', ready', walks', inside⟩ := ih
    obtain ⟨s'', x'', ready'', walks'', inside'⟩ := enters_inside ready' walks' enters
    exact ⟨s'', x'', ready'', walks'', inside'.trans inside⟩

/-- A message that may be skipped is encoded to tell. -/
theorem skips_encodes {items : ItemValidator R} (ignoreEmpty : items.ignoreEmpty = true)
    (sub : Message R) (s : State R) : s.encodes < (skips items (.message sub) s).2.encodes := by
  have ran : skips items (.message sub) s =
      (read (Protovalidate.isEmptyItem (.message sub)) : CountM R Bool) (s.encode sub) := by
    rw [skips, if_pos ignoreEmpty]
    rfl
  have tested : Quiet (read (Protovalidate.isEmptyItem (.message sub)) : CountM R Bool) :=
    read_similar (framing R) _
  rw [ran]
  have more : s.encodes < (s.encode sub).encodes := Nat.lt_succ_self _
  exact more.trans_le (tested.grows _)

theorem tests_encode (ready : Ready walk failFast s) (walks : Walks walk place s x)
    (tests : Tests walk failFast place) : s.encodes < (x s).2.encodes := by
  cases tests with
  | element reached held listed counted inside earlier got ignoreEmpty =>
    rename_i rules l items kind len index sub
    obtain ⟨framed, rfl, valid, rfl⟩ := walks
    obtain ⟨s', location, -, whole⟩ :=
      element_inside ready valid reached held listed counted inside earlier
    rw [got] at whole
    have item : Inside (skips items (.message sub)) s'
        (validateItem walk items kind location index (.ok (some (.message sub)))) s' :=
      Inside.first fun skip => by
        cases skip with
        | true => exact fun _ => Nat.le_refl _
        | false => exact Grows.bind (fun _ => Nat.le_refl _) fun _ => (value_makes _ _ _ _).grows
    have whole := item.trans whole
    exact (whole.starts.trans_lt (skips_encodes ignoreEmpty sub s')).trans_le whole.ends
  | entry reached held mapped visited earlier passed ignoreEmpty =>
    rename_i rules map element keys values key kind before after k sub
    obtain ⟨framed, rfl, valid, rfl⟩ := walks
    obtain ⟨s', location, -, whole⟩ :=
      entry_inside ready valid reached held mapped visited earlier passed
    have entry : Inside (skips values (.message sub)) s' (do
        if ← skips values (.message sub) then pure ()
        else validateValue walk values.value (.item kind) location (.message sub) : CountM R Unit)
        s' :=
      Inside.first fun skip => by
        cases skip with
        | true => exact fun _ => Nat.le_refl _
        | false => exact (value_makes _ _ _ _).grows
    have whole := entry.trans whole
    exact (whole.starts.trans_lt (skips_encodes ignoreEmpty sub s')).trans_le whole.ends

end Places

/-! ### Whole walks -/

section Root
variable (walk) (failFast) (validator : MessageValidator R) (message : Message R)
  (typeName : String)

/-- The place where a walk starts. -/
def root : Place R := ⟨[], .message validator ⟨typeName, message⟩ message⟩

/-- The state that a walk of the root starts from, with the root's frame. -/
def rooted : State R := (State.start failFast).framed ⟨⟨typeName, message⟩, []⟩

theorem rooted_ready : Ready walk failFast (rooted failFast message typeName) := by
  have start : Ready walk failFast (.start failFast) := by
    refine ⟨⟨⟨fun id => Nat.zero_le 1, fun failed => ?_⟩, fun _ _ => rfl,
      fun id frame parsed => ?_⟩, rfl, rfl⟩
    · cases failed
    · cases parsed
  exact start.framed _

/-- A walk that encodes something gets to where that is wanted. -/
theorem encodes_wanted
    (some : (validate walk failFast validator message typeName).2.encodes ≠ 0) :
    Wanted walk failFast (root validator message typeName) :=
  message_spends (fun v _ => value_spends v) (rooted_ready walk failFast message typeName)
    (Framed.valid_framed (.start failFast) ⟨⟨typeName, message⟩, []⟩) validator [] some

/-- A walk that tests a message for its zero value encodes something. -/
theorem tests_encodes {place : Place R}
    (gets : Gets walk failFast (root validator message typeName) place)
    (tests : Tests walk failFast place) :
    (validate walk failFast validator message typeName).2.encodes ≠ 0 := by
  have walks : Walks walk (root validator message typeName) (rooted failFast message typeName)
      (validateMessage walk validator ⟨⟨⟨typeName, message⟩, []⟩, 0⟩ message) :=
    ⟨_, rfl, Framed.valid_framed (.start failFast) ⟨⟨typeName, message⟩, []⟩, rfl⟩
  obtain ⟨s, x, ready, there, inside⟩ :=
    gets_inside (rooted_ready walk failFast message typeName) walks gets
  have more := (tests_encode ready there tests).trans_le inside.ends
  exact Nat.ne_of_gt (Nat.zero_lt_of_lt more)

/-- A walk that gets to no program that binds a message encodes none, and each message
value is encoded for CEL once at most, exactly if the walk gets to such a program, or to
no item that is a message and tested for its zero value. -/
theorem encodes_iff :
    let start := root validator message typeName
    let ended := (validate walk failFast validator message typeName).2
    (((∀ place, Gets walk failFast start place → binds place.visit = false) →
        ended.encodes = 0 ∧ ended.failed = false) ∧
      ∀ location, ended.encodesAt location ≤ 1) ↔
    (∃ place, Gets walk failFast start place ∧ binds place.visit = true) ∨
      ∀ place, Gets walk failFast start place → ¬ Tests walk failFast place := by
  intro start ended
  have failing : ended.failed = true → ended.encodes ≠ 0 :=
    (validate_ends walk failFast validator message typeName).counted.failing
  constructor
  · rintro ⟨unneeded, -⟩
    by_cases bound : ∃ place, Gets walk failFast start place ∧ binds place.visit = true
    · exact .inl bound
    · refine .inr fun place gets tests => ?_
      have none : ended.encodes = 0 := (unneeded fun place gets =>
        Bool.eq_false_iff.mpr fun binds => bound ⟨place, gets, binds⟩).1
      exact tests_encodes walk failFast validator message typeName gets tests none
  · intro condition
    refine ⟨fun unbound => ?_, encodesAt_le_one failFast validator message typeName⟩
    have none : ended.encodes = 0 := by
      by_contra some
      obtain ⟨place, gets, binds | tests⟩ :=
        encodes_wanted walk failFast validator message typeName some
      · rw [unbound place gets] at binds
        cases binds
      · rcases condition with ⟨other, gets', binds⟩ | untested
        · rw [unbound other gets'] at binds
          cases binds
        · exact untested place gets tests
    exact ⟨none, Bool.eq_false_iff.mpr fun failed => failing failed none⟩

end Root

/-! ### A list of messages that cannot be encoded -/

theorem nothing_linked : ∀ message ∈ ([] : List MessageDescriptor), ∀ field ∈ message.fields,
    ∀ index, messageType field = some index → index < ([] : List MessageDescriptor).length :=
  fun _ member => (List.not_mem_nil member).elim

/-- A type without rules. -/
def parcelValidator : MessageValidator ⟨String, Unit⟩ := ⟨(), none, [], [], []⟩

/-- A repeated field whose items are skipped if they are the zero value. -/
def parcelsValidator : MessageValidator ⟨String, Unit⟩ where
  messageType := ()
  cel := none
  messageOneofs := []
  oneofs := []
  fields := [.ok
    { field := ⟨1, "parcels", .list .message, some (), false⟩
      element := { fieldNumber := some 1, fieldName := some "parcels" }
      required := false
      ignoreEmpty := false
      value := {}
      kind := .list (some ⟨true, { nested := some 0 }⟩) }]

def parcelsWalk : Walk ⟨String, Unit⟩ where
  pool := ⟨[], [], [], nothing_linked⟩
  schema := ⟨0, {}, {}, {}, {}, {}, {}, {}, {}⟩
  env := ⟨fun _ _ => .ok ⟨fun _ _ => .ok (.bool true)⟩, fun name bytes => .ok ⟨name, bytes⟩⟩
  backend := Backend.bare
  validators _ := some (.ok parcelValidator)

def parcel : Message ⟨String, Unit⟩ :=
  ⟨fun _ => .ok false, fun _ => .ok none, .error "not encodable"⟩

def parcels : Message ⟨String, Unit⟩ where
  has _ := .ok true
  get _ := .ok (some (.list ⟨.ok 1, fun _ => .ok (some (.message parcel))⟩))
  encode := .error "not encodable"

/-- What is validated in that walk has no program. -/
def Unprogrammed : Visit ⟨String, Unit⟩ → Prop
  | .message validator _ _ => validator = parcelsValidator ∨ validator = parcelValidator
  | .value validator _ _ => validator = {} ∨ validator = { nested := some 0 }
  | .missing _ => True
  | .key _ _ _ => False

theorem Unprogrammed.unbound {visit : Visit ⟨String, Unit⟩} (plain : Unprogrammed visit) :
    binds visit = false := by
  cases visit with
  | message => rcases plain with rfl | rfl <;> rfl
  | value => rcases plain with rfl | rfl <;> rfl
  | missing => rfl
  | key => exact plain.elim

/-- The only field is the one whose items have rules. -/
theorem parcels_field {validator : MessageValidator ⟨String, Unit⟩}
    {frame : CelFrame ⟨String, Unit⟩} {m : Message ⟨String, Unit⟩}
    {path : List FieldPathElement} {rules : FieldValidator ⟨String, Unit⟩}
    {value : Option (Val ⟨String, Unit⟩)} {set : Bool}
    (plain : validator = parcelsValidator ∨ validator = parcelValidator)
    (reached : AtField parcelsWalk (Passes false) validator frame m path rules value set) :
    rules.value = {} ∧ rules.kind = .list (some ⟨true, { nested := some 0 }⟩) := by
  obtain ⟨before, after, fields, -⟩ := reached.reached
  have member : .ok rules ∈ validator.fields := by simp [fields]
  rcases plain with rfl | rfl
  · obtain rfl : rules = _ := Except.ok.inj (List.mem_singleton.mp member)
    exact ⟨rfl, rfl⟩
  · exact absurd member List.not_mem_nil

theorem unprogrammed_enters {place next : Place ⟨String, Unit⟩}
    (plain : Unprogrammed place.visit)
    (enters : Enters parcelsWalk (Passes false) place next) : Unprogrammed next.visit := by
  cases enters with
  | missing reached required => trivial
  | field reached runs => exact .inl (parcels_field plain reached).1
  | element reached held listed counted inside earlier got kept =>
    obtain ⟨set, field, -⟩ := reached.field
    rw [(parcels_field plain field).2] at held
    cases held
    exact .inr rfl
  | key reached held mapped visited earlier kept =>
    obtain ⟨set, field, -⟩ := reached.field
    rw [(parcels_field plain field).2] at held
    cases held
  | entry reached held mapped visited earlier passed kept =>
    obtain ⟨set, field, -⟩ := reached.field
    rw [(parcels_field plain field).2] at held
    cases held
  | nested looked own =>
    rcases plain with rfl | rfl <;> cases looked
    exact .inr rfl

/-- There is no program at all, and yet the item is encoded, and the validation fails
because it cannot be. -/
theorem item_encoded :
    let ended := validate parcelsWalk false parcelsValidator parcels "Parcels"
    (∀ place, Gets parcelsWalk false (root parcelsValidator parcels "Parcels") place →
      binds place.visit = false) ∧ ended.2.encodes = 1 ∧ ended.2.failed = true ∧
      ended.1 = .error (.error (.read "not encodable")) := by
  refine ⟨fun place gets => Unprogrammed.unbound ?_, rfl, rfl, rfl⟩
  induction gets with
  | refl => exact .inl rfl
  | tail _ enters ih => exact unprogrammed_enters ih enters

end Encodes

end Protovalidate
