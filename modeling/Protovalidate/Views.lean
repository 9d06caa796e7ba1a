import Protovalidate.View

/-!
# Views over a whole validation

Views are created, read and dropped in any order, and Python answers differently at any
time. A view only ever reads what was first fetched from its own object.
-/

namespace Protovalidate

namespace Views
variable {Obj E : Type}

/-- A validation with the views that are alive, by the order they were created in. -/
structure State (Obj : Type) where
  ctx : Ctx Obj
  views : Nat → Option (View Obj)
  created : Nat

/-- What the validator does with a view, and the message it starts from. -/
inductive Operation (Obj E : Type)
  | message (object : Obj) (info : TypeInfo)
  | has (id : Nat) (field : Field (PyRuntime E))
  | get (id : Nat) (field : Field (PyRuntime E))
  | element (id index : Nat)
  | entry (id index : Nat)
  | drop (id : Nat)

/-- An operation, and Python as it is then. -/
structure Event (Obj E : Type) where
  py : Python Obj E
  operation : Operation Obj E

namespace State

def new (runtime : ProtoRuntime) : State Obj := ⟨⟨runtime, [], []⟩, fun _ => none, 0⟩

def put (state : State Obj) (id : Nat) (view : Option (View Obj)) (ctx : Ctx Obj) : State Obj where
  ctx := ctx
  views := Function.update state.views id view
  created := state.created

/-- A value handed out, which may be a view. -/
def hand (state : State Obj) (val : Except (Failure E) (Option (Val Obj))) : State Obj :=
  match val with
  | .ok (some (.view view)) =>
    { state with
      views := Function.update state.views state.created (some view)
      created := state.created + 1 }
  | _ => state

/-- One operation. On a view that is dropped, or of another kind, there is none. -/
def step (state : State Obj) (event : Event Obj E) : State Obj :=
  let py := event.py
  match event.operation with
  | .message object info =>
    let (view, ctx) := MessageView.new state.ctx (some (object, info))
    { state with ctx }.hand (E := E) (.ok (some (.view (.message view))))
  | .has id field =>
    match state.views id with
    | some (.message view) =>
      state.put id (some (.message (view.has py state.ctx field).1)) state.ctx
    | _ => state
  | .get id field =>
    match state.views id with
    | some (.message view) =>
      let (view, ctx, val) := view.get py state.ctx field
      (state.put id (some (.message view)) ctx).hand val
    | _ => state
  | .element id index =>
    match state.views id with
    | some (.list view) =>
      let (view, ctx, val) := view.get py state.ctx index
      (state.put id (some (.list view)) ctx).hand val
    | _ => state
  | .entry id index =>
    match state.views id with
    | some (.map view) =>
      let (ctx, entry) := view.entry py state.ctx index
      { state with ctx }.hand (entry.map (Option.map Prod.snd))
    | _ => state
  | .drop id =>
    match state.views id with
    | some view => state.put id none (view.drop state.ctx)
    | none => state

end State

/-- A validation, from its start. -/
def run (runtime : ProtoRuntime) (events : List (Event Obj E)) : State Obj :=
  events.foldl State.step (.new runtime)

/-! ### What a view owns -/

/-- The buffers for later views hold nothing. -/
structure Ctx.Clean (ctx : Ctx Obj) : Prop where
  values : ∀ values ∈ ctx.freeValues, ∀ cell ∈ values, cell = none
  items : ∀ items ∈ ctx.freeItems, items.elements = []

/-- The value that was first fetched for the field of a number. -/
def MessageView.first (view : MessageView Obj) (number : Nat) : Option (Option Obj) :=
  (view.fetches.find? fun fetch => fetch.number == number).map Fetch.value

/-- The value first fetched for a field, which is fetched now if it was not before. -/
def MessageView.ownValue (view : MessageView Obj) (py : Python Obj E) (object : Obj)
    (stored : FieldInfo) : Except (Failure E) (Option Obj) :=
  match view.first stored.number with
  | some value => .ok value
  | none => read (stored.fetch py object)

/-- The cells of a view hold what the view first fetched, from its own object. -/
structure MessageView.Own (pys : List (Python Obj E)) (view : MessageView Obj) : Prop where
  cells : ∀ {object : Obj} {info : TypeInfo} {slot : Nat} {stored : FieldInfo},
    view.object = some (object, info) → info.fields[slot]? = some stored →
      view.values[slot]? = some (view.first stored.number)
  fetched : ∀ {object : Obj} {info : TypeInfo}, view.object = some (object, info) →
    ∀ fetch ∈ view.fetches,
      ∃ stored ∈ info.fields, stored.number = fetch.number ∧
        ∃ py ∈ pys, stored.fetch py object = .ok fetch.value

/-- The elements of a repeated field. -/
def listed (runtime : ProtoRuntime) (py : Python Obj E) (object : Obj) : Except E (List Obj) :=
  match runtime with
  | .protobufPy => py.list object
  | .google => do (← py.iterate object).mapM id

/-- The elements of a list are those that its own object had when they were fetched. -/
def ListView.Own (pys : List (Python Obj E)) (view : ListView Obj) : Prop :=
  ∀ items, view.items = some items →
    view.object = none ∧ items.elements = [] ∨
      ∃ object, view.object = some object ∧
        ∃ runtime, ∃ py ∈ pys, listed runtime py object = .ok items.elements

def View.Own (pys : List (Python Obj E)) : View Obj → Prop
  | .message view => view.Own pys
  | .list view => view.Own pys
  | .map _ => True

/-- All views that are alive are their own. -/
structure State.Inv (pys : List (Python Obj E)) (state : State Obj) : Prop where
  clean : state.ctx.Clean
  own : ∀ id view, state.views id = some view → view.Own pys

section Step
variable {pys : List (Python Obj E)} {ctx ctx' : Ctx Obj} {view : MessageView Obj}
  {object : Obj} {info : TypeInfo} {py : Python Obj E}

/-- A buffer that is taken is empty, and what stays free is. -/
theorem takeValues_spec (clean : ctx.Clean) (len : Nat) :
    len ≤ (ctx.takeValues len).1.length ∧ (∀ cell ∈ (ctx.takeValues len).1, cell = none) ∧
      (ctx.takeValues len).2.Clean := by
  rw [Ctx.takeValues]
  by_cases zero : len = 0
  · rw [if_pos zero]
    exact ⟨by omega, fun _ member => (List.not_mem_nil member).elim, clean⟩
  rw [if_neg zero]
  dsimp only
  split
  · rename_i values rest taken
    obtain ⟨i, found, removed⟩ := Option.bind_eq_some_iff.mp taken
    obtain ⟨x, element, enough⟩ := Vectors.rposition_holds found
    have same : x = values := by
      have element' := Vectors.swapRemove_found removed
      rw [element] at element'
      exact Option.some.inj element'
    subst same
    refine ⟨of_decide_eq_true enough, clean.values x (List.mem_of_getElem? element), ?_⟩
    exact ⟨fun y member => clean.values y (Vectors.swapRemove_subset removed y member), clean.items⟩
  · refine ⟨by simp, ?_, clean⟩
    intro cell member
    exact List.eq_of_mem_replicate member

theorem takeItems_spec (clean : ctx.Clean) :
    ctx.takeItems.1.elements = [] ∧ ctx.takeItems.2.Clean := by
  constructor
  · cases last : ctx.freeItems.getLast? with
    | none => simp [Ctx.takeItems, last, Items.empty]
    | some items =>
      have empty := clean.items items (List.mem_of_getLast? last)
      simpa [Ctx.takeItems, last] using empty
  · exact ⟨clean.values, fun items member => clean.items items (List.dropLast_subset _ member)⟩

/-- A new view has fetched nothing and holds nothing. -/
theorem new_spec (clean : ctx.Clean) (object : Option (Obj × TypeInfo)) :
    (MessageView.new ctx object).1.Own pys ∧ (MessageView.new ctx object).2.Clean := by
  obtain ⟨enough, empty, clean'⟩ :=
    takeValues_spec clean ((object.map fun object => object.2.fields.length).getD 0)
  refine ⟨⟨?_, ?_⟩, clean'⟩
  · intro _ info slot stored known present
    change object = some (_, info) at known
    subst known
    have inside : slot < info.fields.length := (List.getElem?_eq_some_iff.mp present).1
    have within : slot < (MessageView.new ctx (some (_, info))).1.values.length :=
      Nat.lt_of_lt_of_le inside enough
    rw [List.getElem?_eq_getElem within]
    exact congrArg some (empty _ (List.getElem_mem within))
  · intro _ _ _ _ member
    cases member

theorem singular_spec (clean : ctx.Clean) {kind : Singular} {value : Option Obj}
    {messageType : Option TypeInfo} {val : Val Obj}
    (made : singular py ctx kind value messageType = .ok (val, ctx')) :
    ctx'.Clean ∧ ∀ view, val = .view view → view.Own pys := by
  have created : ∀ object, (MessageView.new ctx object).2.Clean ∧ ∀ view : View Obj,
      Val.view (.message (MessageView.new ctx object).1) = .view view → view.Own pys := by
    intro object
    obtain ⟨own, clean'⟩ : MessageView.Own pys (MessageView.new ctx object).1 ∧
        (MessageView.new ctx object).2.Clean := new_spec clean object
    refine ⟨clean', ?_⟩
    intro view same
    cases same
    exact own
  have plain : ∀ {α : Type} {f : α → Atom} {result : Except E α},
      read (do return (.atom (f (← result)), ctx)) = .ok (val, ctx') →
        ctx'.Clean ∧ ∀ view, val = .view view → view.Own pys := by
    rintro α f (e | atom) same <;> cases same
    exact ⟨clean, fun _ same => by cases same⟩
  unfold singular at made
  split at made
  · cases made
    exact created _
  · cases made
  · cases made
    exact created none
  · exact plain made
  · cases made
    exact ⟨clean, fun _ same => by cases same⟩
  · exact plain (f := fun atom => atom) made
  · cases made
    exact ⟨clean, fun _ same => by cases same⟩

theorem convert_spec (clean : ctx.Clean) {kind : Kind} {value : Option Obj}
    {messageType : Option TypeInfo} {val : Val Obj}
    (made : convert py ctx kind value messageType = .ok (val, ctx')) :
    ctx'.Clean ∧ ∀ view, val = .view view → view.Own pys := by
  cases kind with
  | singular kind => exact singular_spec clean made
  | list element =>
    cases made
    refine ⟨clean, fun view same => ?_⟩
    cases same
    intro _ fetched
    cases fetched
  | map key element =>
    cases made
    refine ⟨clean, fun view same => ?_⟩
    cases same
    trivial

/-- What a read hands out, which may be a view. -/
def Handed (pys : List (Python Obj E)) (result : Except (Failure E) (Option (Val Obj))) : Prop :=
  ∀ view, result = .ok (some (.view view)) → view.Own pys

theorem converted_spec (clean : ctx.Clean) {result : Except (Failure E) (Val Obj × Ctx Obj)}
    (spec : ∀ val ctx', result = .ok (val, ctx') →
      ctx'.Clean ∧ ∀ view, val = .view view → view.Own pys) :
    (converted ctx result).1.Clean ∧ Handed pys (converted ctx result).2 := by
  cases result with
  | error e => exact ⟨clean, fun _ same => by cases same⟩
  | ok made =>
    obtain ⟨val, ctx'⟩ := made
    obtain ⟨clean', own⟩ := spec val ctx' rfl
    refine ⟨clean', fun view same => own view ?_⟩
    cases same
    rfl

theorem first_append (view : MessageView Obj) (values : Values Obj) (fetch : Fetch Obj)
    (number : Nat) :
    ({ view with values := values, fetches := view.fetches ++ [fetch] } : MessageView Obj).first
        number =
      (view.first number).or (if fetch.number = number then some fetch.value else none) := by
  simp only [MessageView.first, List.find?_append, Option.map_or]
  by_cases same : fetch.number = number <;> simp [same]

/-- The cell of a field is filled with what is fetched for it first. -/
theorem fetch_own (own : view.Own pys) (now : py ∈ pys) (known : view.object = some (object, info))
    {slot : Nat} {stored : FieldInfo} (present : info.fields[slot]? = some stored)
    (unread : view.first stored.number = none) {value : Option Obj}
    (fetched : stored.fetch py object = .ok value) :
    MessageView.Own pys { view with
      values := view.values.set slot (some value)
      fetches := view.fetches ++ [⟨stored.number, value⟩] } := by
  constructor
  · intro object' info' slot' stored' known' present'
    have same := known.symm.trans known'
    cases same
    have before := own.cells known' present'
    rw [first_append]
    by_cases here : slot = slot'
    · subst here
      rw [present] at present'
      cases present'
      have inside := (List.getElem?_eq_some_iff.mp before).1
      rw [List.getElem?_set_self inside, unread, if_pos rfl]
      rfl
    · have other : stored.number ≠ stored'.number := by
        intro equal
        have found := TypeInfo.find_eq_some.mpr ⟨present, equal⟩
        rw [TypeInfo.find_eq_some.mpr ⟨present', rfl⟩] at found
        cases found
        exact here rfl
      rw [List.getElem?_set_ne here, if_neg other, Option.or_none]
      exact before
  · intro object' info' known' fetch member
    have same := known.symm.trans known'
    cases same
    rcases List.mem_append.mp member with old | new
    · exact own.fetched known' fetch old
    · cases List.mem_singleton.mp new
      exact ⟨stored, List.mem_of_getElem? present, rfl, py, now, fetched⟩

/-- The value of a field is what was first fetched for it. -/
theorem value_eq (own : view.Own pys) (known : view.object = some (object, info))
    {slot : Nat} {stored : FieldInfo} (present : info.fields[slot]? = some stored) :
    (view.value py object slot stored).2 = view.ownValue py object stored := by
  rw [MessageView.value, MessageView.ownValue, own.cells known present]
  cases first : view.first stored.number with
  | some value => rfl
  | none =>
    dsimp only
    cases fetched : stored.fetch py object <;> rfl

/-- What was fetched first is what Python answers now, if it always answers the same. -/
theorem ownValue_steady (own : view.Own pys) (steady : ∀ asked ∈ pys, asked = py)
    (known : view.object = some (object, info)) {stored : FieldInfo}
    (member : stored ∈ info.fields) :
    view.ownValue py object stored = read (stored.fetch py object) := by
  rw [MessageView.ownValue]
  cases first : view.first stored.number with
  | none => rfl
  | some value =>
    obtain ⟨fetch, found, rfl⟩ := Option.map_eq_some_iff.mp first
    obtain ⟨stored', member', same, asked, before, fetched⟩ :=
      own.fetched known fetch (List.mem_of_find?_eq_some found)
    have number : fetch.number = stored.number := eq_of_beq (List.find?_some found :)
    obtain rfl := info.number_inj member' member (same.trans number)
    rw [← steady asked before, fetched]
    rfl

theorem value_own (own : view.Own pys) (now : py ∈ pys) (known : view.object = some (object, info))
    {slot : Nat} {stored : FieldInfo} (present : info.fields[slot]? = some stored) :
    (view.value py object slot stored).1.Own pys := by
  rw [MessageView.value, own.cells known present]
  cases first : view.first stored.number with
  | some value => exact own
  | none =>
    dsimp only
    cases fetched : stored.fetch py object with
    | error e => exact own
    | ok value => exact fetch_own own now known present first fetched

theorem has_own (own : view.Own pys) (now : py ∈ pys) (field : Field (PyRuntime E)) :
    (view.has py ctx field).1.Own pys := by
  unfold MessageView.has
  split
  · exact own
  · rename_i object info known
    split
    · exact own
    · rename_i slot stored found
      have present := (TypeInfo.find_eq_some.mp found).1
      unfold isSet
      split
      · exact own
      · split
        · exact value_own own now known present
        · exact own

/-- A field is read as what was first fetched for it. -/
theorem get_stored (own : view.Own pys) (known : view.object = some (object, info))
    {stored : FieldInfo} (member : stored ∈ info.fields) {field : Field (PyRuntime E)}
    (same : stored.number = field.number) :
    (view.get py ctx field).2.2 = (view.ownValue py object stored).bind fun value =>
      (converted ctx (convert py ctx field.kind value field.messageType)).2 := by
  obtain ⟨slot, present⟩ := List.getElem?_of_mem member
  have found := TypeInfo.find_eq_some.mpr ⟨present, same⟩
  rw [MessageView.get, known]
  dsimp only
  rw [found]
  dsimp only
  rw [← value_eq own known present]
  rcases view.value py object slot stored with ⟨view, e | value⟩ <;> rfl

/-- A field that the type does not have is not read. -/
theorem get_unknown (known : view.object = some (object, info)) {field : Field (PyRuntime E)}
    (absent : ∀ stored ∈ info.fields, stored.number ≠ field.number) :
    (view.get py ctx field).2.2 = .ok none := by
  rw [MessageView.get, known]
  dsimp only
  rw [TypeInfo.find_eq_none.mpr absent]

/-- What a field is converted to is a value. -/
theorem bind_converted_ne {value : Except (Failure E) (Option Obj)}
    {result : Option Obj → Except (Failure E) (Val Obj × Ctx Obj)} :
    (value.bind fun value => (converted ctx (result value)).2) ≠ .ok none := by
  cases value with
  | error e => exact fun same => by cases same
  | ok value =>
    change (converted ctx (result value)).2 ≠ .ok none
    cases result value <;> exact fun same => by cases same

theorem get_spec (own : view.Own pys) (clean : ctx.Clean) (now : py ∈ pys)
    (field : Field (PyRuntime E)) :
    (view.get py ctx field).1.Own pys ∧ (view.get py ctx field).2.1.Clean ∧
      Handed pys (view.get py ctx field).2.2 := by
  have made : ∀ value, (converted ctx (convert py ctx field.kind value field.messageType)).1.Clean ∧
      Handed pys (converted ctx (convert py ctx field.kind value field.messageType)).2 :=
    fun value => converted_spec clean fun _ _ => convert_spec clean
  unfold MessageView.get
  split
  · exact ⟨own, made none⟩
  · rename_i object info known
    split
    · exact ⟨own, clean, fun _ same => by cases same⟩
    · rename_i slot stored found
      have present := (TypeInfo.find_eq_some.mp found).1
      have owned := value_own own now known present
      split
      · rename_i view' e read
        rw [read] at owned
        exact ⟨owned, clean, fun _ same => by cases same⟩
      · rename_i view' value read
        rw [read] at owned
        exact ⟨owned, made value⟩

/-- What is listed goes after what the buffer has. -/
theorem foldlM_push (yielded : List (Except E Obj)) (items : Items Obj) :
    (yielded.foldlM (fun items item => return Items.push items (← item)) items).map Items.elements =
      (yielded.mapM id).map (items.elements ++ ·) := by
  induction yielded generalizing items with
  | nil => simp [Except.map, pure, Except.pure]
  | cons first rest ih =>
    cases first with
    | error e => rfl
    | ok item =>
      have later := ih (items.push item)
      simp only [List.foldlM_cons, List.mapM_cons, id_eq]
      refine later.trans ?_
      change _ = ((do return item :: (← rest.mapM id)) : Except E (List Obj)).map _
      cases rest.mapM id with
      | error e => rfl
      | ok others => simp [Except.map, Items.push, bind, Except.bind, pure, Except.pure]

theorem foldl_push (elements : List Obj) (items : Items Obj) :
    (elements.foldl Items.push items).elements = items.elements ++ elements := by
  induction elements generalizing items with
  | nil => simp
  | cons first rest ih => simp [ih, Items.push]

theorem listItems_empty {runtime : ProtoRuntime} {items items' : Items Obj}
    (empty : items.elements = []) (done : listItems runtime py object items = .ok items') :
    listed runtime py object = .ok items'.elements := by
  cases runtime with
  | protobufPy =>
    cases found : py.list object with
    | error e => simp [listItems, found, bind, Except.bind] at done
    | ok elements =>
      simp only [listItems, found, bind, Except.bind, pure, Except.pure, Except.ok.injEq] at done
      rw [listed, found, ← done, foldl_push, empty, List.nil_append]
  | google =>
    cases found : py.iterate object with
    | error e => simp [listItems, found, bind, Except.bind] at done
    | ok yielded =>
      have pushed := foldlM_push yielded items
      have all : listed .google py object = yielded.mapM id := by
        simp [listed, found, bind, Except.bind]
      have ran : listItems .google py object items =
          yielded.foldlM (fun items item => return Items.push items (← item)) items := by
        simp [listItems, found, bind, Except.bind]
      rw [← ran, done, empty] at pushed
      rw [all]
      cases listing : yielded.mapM id with
      | error e => simp [listing, Except.map] at pushed
      | ok elements => simpa [listing, Except.map] using pushed.symm

section Lists
variable {list : ListView Obj}

theorem fetched_spec (own : list.Own pys) (clean : ctx.Clean) (now : py ∈ pys) :
    (list.fetched py ctx).1.Own pys ∧ (list.fetched py ctx).2.1.Clean := by
  obtain ⟨empty, clean'⟩ := takeItems_spec clean
  unfold ListView.fetched
  split
  · exact ⟨own, clean⟩
  · rename_i unset
    refine ⟨fun items same => ?_, clean⟩
    cases same
    exact .inl ⟨unset, rfl⟩
  · rename_i object _ known
    dsimp only
    split
    · exact ⟨own, clean'⟩
    · rename_i items done
      refine ⟨fun items' same => ?_, clean'⟩
      cases same
      exact .inr ⟨object, known, _, py, now, listItems_empty empty done⟩

theorem element_spec (own : list.Own pys) (clean : ctx.Clean) (now : py ∈ pys) (index : Nat) :
    (list.get py ctx index).1.Own pys ∧ (list.get py ctx index).2.1.Clean ∧
      Handed pys (list.get py ctx index).2.2 := by
  have spec := fetched_spec own clean now
  unfold ListView.get
  split
  · rename_i fetched
    rw [fetched] at spec
    exact ⟨spec.1, spec.2, fun _ same => by cases same⟩
  · rename_i fetched
    rw [fetched] at spec
    split
    · exact ⟨spec.1, spec.2, fun _ same => by cases same⟩
    · exact ⟨spec.1, converted_spec spec.2 fun _ _ => singular_spec spec.2⟩

end Lists

theorem entry_spec {map : MapView Obj} (clean : ctx.Clean) (index : Nat) :
    (map.entry py ctx index).1.Clean ∧
      Handed pys ((map.entry py ctx index).2.map (Option.map Prod.snd)) := by
  unfold MapView.entry
  dsimp only
  split
  · exact ⟨clean, fun _ same => by cases same⟩
  · exact ⟨clean, fun _ same => by cases same⟩
  · rename_i key value _
    have made : ∀ val ctx',
        singular py ctx map.element (some value) map.messageType = .ok (val, ctx') →
          ctx'.Clean ∧ ∀ view, val = .view view → view.Own pys := fun _ _ => singular_spec clean
    obtain ⟨clean', own⟩ := converted_spec clean made
    refine ⟨clean', fun view same => own view ?_⟩
    cases result : (converted ctx (singular py ctx map.element (some value) map.messageType)).2 with
    | error e => simp [result, Except.map] at same
    | ok val => cases val with
      | none => simp [result, Except.map] at same
      | some val => simpa [result, Except.map] using same

/-- Only empty buffers are returned. -/
theorem drop_clean (clean : ctx.Clean) (view : View Obj) : (view.drop ctx).Clean := by
  cases view with
  | message view =>
    rw [View.drop]
    split
    · exact clean
    · refine ⟨fun values member => ?_, clean.items⟩
      rcases List.mem_append.mp member with old | new
      · exact clean.values values old
      · cases List.mem_singleton.mp new
        intro cell inside
        obtain ⟨_, -, rfl⟩ := List.mem_map.mp inside
        rfl
  | list view =>
    rw [View.drop]
    split
    · exact clean
    · dsimp only
      split
      · refine ⟨clean.values, fun items member => ?_⟩
        rcases List.mem_append.mp member with old | new
        · exact clean.items items old
        · cases List.mem_singleton.mp new
          rfl
      · exact clean
  | map view => exact clean

/-! ### Whole validations -/

namespace State
variable {state : State Obj}

theorem Inv.mono {pys' : List (Python Obj E)} (inv : state.Inv pys) (more : ∀ py ∈ pys, py ∈ pys') :
    state.Inv pys' := by
  refine ⟨inv.clean, fun id view alive => ?_⟩
  have own := inv.own id view alive
  cases view with
  | message view =>
    refine ⟨own.cells, fun known fetch member => ?_⟩
    obtain ⟨stored, present, same, py, asked, fetched⟩ := own.fetched known fetch member
    exact ⟨stored, present, same, py, more py asked, fetched⟩
  | list view =>
    intro items fetched
    rcases own items fetched with unset | ⟨object, known, runtime, py, asked, listed⟩
    · exact .inl unset
    · exact .inr ⟨object, known, runtime, py, more py asked, listed⟩
  | map view => trivial

theorem Inv.put (inv : state.Inv pys) (id : Nat) {view : Option (View Obj)} (clean : ctx.Clean)
    (own : ∀ v, view = some v → v.Own pys) : (state.put id view ctx).Inv pys := by
  refine ⟨clean, fun id' view' alive => ?_⟩
  change Function.update state.views id view id' = some view' at alive
  by_cases same : id' = id
  · rw [same, Function.update_self] at alive
    exact own view' alive
  · rw [Function.update_of_ne same] at alive
    exact inv.own id' view' alive

theorem Inv.hand (inv : state.Inv pys) {val : Except (Failure E) (Option (Val Obj))}
    (own : Handed pys val) : (state.hand val).Inv pys := by
  unfold State.hand
  split
  · rename_i view
    refine ⟨inv.clean, fun id' view' alive => ?_⟩
    dsimp only at alive
    by_cases same : id' = state.created
    · rw [same, Function.update_self] at alive
      cases alive
      exact own view rfl
    · rw [Function.update_of_ne same] at alive
      exact inv.own id' view' alive
  · exact inv

theorem step_inv (inv : state.Inv pys) (event : Event Obj E) (now : event.py ∈ pys) :
    (state.step event).Inv pys := by
  have clean := inv.clean
  obtain ⟨py, operation⟩ := event
  cases operation with
  | message object info =>
    obtain ⟨own, clean'⟩ : MessageView.Own pys (MessageView.new state.ctx (some (object, info))).1 ∧
        (MessageView.new state.ctx (some (object, info))).2.Clean := new_spec clean _
    have started : State.Inv pys
        { state with ctx := (MessageView.new state.ctx (some (object, info))).2 } :=
      ⟨clean', inv.own⟩
    have handed : Handed pys (.ok (some (.view (.message
        (MessageView.new state.ctx (some (object, info))).1)))) := by
      intro view same
      cases same
      exact own
    exact started.hand handed
  | has id field =>
    simp only [step]
    split
    · rename_i view alive
      refine inv.put id clean fun v same => ?_
      cases same
      exact has_own (inv.own id _ alive) now field
    · exact inv
  | get id field =>
    simp only [step]
    split
    · rename_i view alive
      obtain ⟨own, clean', handed⟩ := get_spec (inv.own id _ alive) clean now field
      refine (inv.put id clean' fun v same => ?_).hand handed
      cases same
      exact own
    · exact inv
  | element id index =>
    simp only [step]
    split
    · rename_i view alive
      obtain ⟨own, clean', handed⟩ := element_spec (inv.own id _ alive) clean now index
      refine (inv.put id clean' fun v same => ?_).hand handed
      cases same
      exact own
    · exact inv
  | entry id index =>
    simp only [step]
    split
    · rename_i view _
      obtain ⟨clean', handed⟩ : (view.entry py state.ctx index).1.Clean ∧
          Handed pys ((view.entry py state.ctx index).2.map (Option.map Prod.snd)) :=
        entry_spec clean index
      have turned : State.Inv pys { state with ctx := (view.entry py state.ctx index).1 } :=
        ⟨clean', inv.own⟩
      exact turned.hand handed
    · exact inv
  | drop id =>
    simp only [step]
    split
    · rename_i view alive
      exact inv.put id (drop_clean clean view) fun v same => by cases same
    · exact inv

end State

theorem run_inv (runtime : ProtoRuntime) (events : List (Event Obj E)) :
    (run runtime events).Inv (events.map Event.py) := by
  induction events using List.reverseRecOn with
  | nil =>
    refine ⟨⟨fun _ member => ?_, fun _ member => ?_⟩, fun _ _ alive => ?_⟩
    · cases member
    · cases member
    · cases alive
  | append_singleton events event ih =>
    have before : (run runtime events).Inv ((events ++ [event]).map Event.py) :=
      ih.mono fun py member => by simp [List.mem_map.mp member]
    rw [run, List.foldl_append]
    exact State.step_inv before event (by simp)

end Step

/-- Whatever views are created, read and dropped before, free buffers are empty, and a
view only ever reads what it first fetched from its own object. -/
theorem reads_own (runtime : ProtoRuntime) (events : List (Event Obj E)) :
    let state := run runtime events
    ((∀ values ∈ state.ctx.freeValues, ∀ cell ∈ values, cell = none) ∧
      ∀ items ∈ state.ctx.freeItems, items.elements = []) ∧
    (∀ (object : Obj) (info : TypeInfo),
      let view := (MessageView.new state.ctx (some (object, info))).1
      info.fields.length ≤ view.values.length ∧ ∀ cell ∈ view.values, cell = none) ∧
    ∀ (id : Nat) (view : MessageView Obj) (object : Obj) (info : TypeInfo),
      state.views id = some (.message view) → view.object = some (object, info) →
      (∀ fetch ∈ view.fetches, ∃ stored ∈ info.fields, stored.number = fetch.number ∧
        ∃ event ∈ events, stored.fetch event.py object = .ok fetch.value) ∧
      ∀ (py : Python Obj E) (field : Field (PyRuntime E)),
        ((view.get py state.ctx field).2.2 = .ok none ↔
          ∀ stored ∈ info.fields, stored.number ≠ field.number) ∧
        ∀ stored ∈ info.fields, stored.number = field.number →
          (view.get py state.ctx field).2.2 =
            (view.ownValue py object stored).bind fun value =>
              (converted state.ctx
                (convert py state.ctx field.kind value field.messageType)).2 := by
  have inv := run_inv runtime events
  refine ⟨⟨inv.clean.values, inv.clean.items⟩, ?_, ?_⟩
  · intro object info
    obtain ⟨enough, empty, -⟩ := takeValues_spec inv.clean info.fields.length
    exact ⟨enough, empty⟩
  · intro id view object info alive known
    have own : view.Own _ := inv.own id _ alive
    refine ⟨fun fetch member => ?_, fun py field => ?_⟩
    · obtain ⟨stored, present, same, py, asked, fetched⟩ := own.fetched known fetch member
      obtain ⟨event, happened, rfl⟩ := List.mem_map.mp asked
      exact ⟨stored, present, same, event, happened, fetched⟩
    · refine ⟨⟨fun missing stored present same => ?_, get_unknown known⟩, ?_⟩
      · rw [get_stored own known present same] at missing
        exact bind_converted_ne missing
      · exact fun stored present same => get_stored own known present same

/-- If Python always answers the same, the buffers change nothing: every view reads
a field as its own object has it. -/
theorem reads_steady (runtime : ProtoRuntime) (py : Python Obj E)
    (operations : List (Operation Obj E)) :
    let state := run runtime (operations.map (Event.mk py))
    ∀ (id : Nat) (view : MessageView Obj) (object : Obj) (info : TypeInfo),
      state.views id = some (.message view) → view.object = some (object, info) →
      ∀ (field : Field (PyRuntime E)), ∀ stored ∈ info.fields, stored.number = field.number →
        (view.get py state.ctx field).2.2 = (read (stored.fetch py object)).bind fun value =>
          (converted state.ctx (convert py state.ctx field.kind value field.messageType)).2 := by
  intro state id view object info alive known field stored member same
  have own : view.Own _ := (run_inv runtime (operations.map (Event.mk py))).own id _ alive
  have steady : ∀ asked ∈ (operations.map (Event.mk py)).map Event.py, asked = py := by
    simp
  rw [get_stored own known member same, ownValue_steady own steady known member]

end Views

end Protovalidate
