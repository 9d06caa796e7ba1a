import Protovalidate.Lib.Clients
import Protovalidate.Views

/-!
# Views as message trees

A message of a Python runtime as the tree of everything that its views would answer. A
message field that is not set holds a message again, so that the tree is cut off at some
depth. Whatever is read of the views, in whatever order, is read of the tree alike.
-/

namespace Protovalidate

namespace Views
variable {Obj E : Type}

/-- Python with the lengths of its containers, and its messages serialized. -/
structure Interpreter (Obj E : Type) extends Python Obj E where
  len : Obj → Except E Nat
  serialize : ProtoRuntime → Obj → Except E Bytes

/-- A list is as long as the elements it has. -/
def Interpreter.Counts (py : Interpreter Obj E) (runtime : ProtoRuntime) : Prop :=
  ∀ object elements, listed runtime py.toPython object = .ok elements →
    py.len object = .ok elements.length

def MessageView.encode (view : MessageView Obj) (py : Interpreter Obj E) (ctx : Ctx Obj) :
    Except (Failure E) Bytes :=
  match view.object with
  | some (object, _) => read (py.serialize ctx.runtime object)
  | none => .ok []

def ListView.len (view : ListView Obj) (py : Interpreter Obj E) : Except (Failure E) Nat :=
  match view.items, view.object with
  | some items, _ => .ok items.elements.length
  | none, some object => read (py.len object)
  | none, none => .ok 0

def MapView.len (view : MapView Obj) (py : Interpreter Obj E) : Except (Failure E) Nat :=
  match view.object with
  | some object => read (py.len object)
  | none => .ok 0

def fault {F α : Type} : Except F α → Option F
  | .error e => some e
  | .ok _ => none

/-- Why the loop over the entries of a map has ended before a place. -/
def MapView.turn (view : MapView Obj) (py : Python Obj E) (ctx : Ctx Obj) (index : Nat) :
    Option (Failure E) :=
  (List.range index).findSome? fun i => fault (view.entry py ctx i).2

/-! ### Reading views -/

/-- What is asked of a view. -/
inductive Question (E : Type)
  | has (field : Field (PyRuntime E))
  | get (field : Field (PyRuntime E))
  | encode
  | len
  | element (index : Nat)
  | entry (index : Nat)
  | drop

/-- Whether there is a view to answer a question. -/
def Question.suits : Question E → Option (View Obj) → Bool
  | .has _, some (.message _) | .get _, some (.message _) | .encode, some (.message _) => true
  | .len, some (.list _) | .len, some (.map _) => true
  | .element _, some (.list _) | .entry _, some (.map _) | .drop, _ => true
  | _, _ => false

/-- A value that was handed out, a view by its place. -/
inductive Held
  | atom (a : Atom)
  | view (id : Nat)

inductive Answer (E : Type)
  | set (result : Except (Failure E) Bool)
  | value (result : Except (Failure E) (Option Held))
  | entry (result : Except (Failure E) (Option (Atom × Held)))
  | bytes (result : Except (Failure E) Bytes)
  | size (result : Except (Failure E) Nat)
  /-- The view is dropped, or of another kind. -/
  | none

def Val.held (created : Nat) : Val Obj → Held
  | .atom a => .atom a
  | .view _ => .view created

/-- Asks a view, in a state that its buffers are part of. -/
def State.ask (py : Interpreter Obj E) : Machine (Nat × Question E) (Answer E) (State Obj) :=
  fun state (id, question) =>
    let step := fun operation => state.step ⟨py.toPython, operation⟩
    match question, state.views id with
    | .has field, some (.message view) =>
      (step (.has id field), .set (view.has py.toPython state.ctx field).2)
    | .get field, some (.message view) =>
      (step (.get id field), .value ((view.get py.toPython state.ctx field).2.2.map
        (Option.map (Val.held state.created))))
    | .encode, some (.message view) => (state, .bytes (view.encode py state.ctx))
    | .len, some (.list view) => (state, .size (view.len py))
    | .len, some (.map view) => (state, .size (view.len py))
    | .element index, some (.list view) =>
      (step (.element id index), .value ((view.get py.toPython state.ctx index).2.2.map
        (Option.map (Val.held state.created))))
    | .entry index, some (.map view) =>
      match view.turn py.toPython state.ctx index with
      | some e => (state, .entry (.error e))
      | none => (step (.entry id index), .entry ((view.entry py.toPython state.ctx index).2.map
          (Option.map fun (key, val) => (key, val.held state.created))))
    | .drop, _ => (step (.drop id), .none)
    | _, _ => (state, .none)

/-- A view of a message, and nothing else. -/
def State.start (runtime : ProtoRuntime) (object : Obj) (info : TypeInfo) : State Obj :=
  let (view, ctx) := MessageView.new ⟨runtime, [], []⟩ (some (object, info))
  ⟨ctx, Function.update (fun _ => none) 0 (some (.message view)), 1⟩

/-! ### The tree -/

section Tree
variable (runtime : ProtoRuntime) (py : Interpreter Obj E)
  (sub : Option (Obj × TypeInfo) → Protovalidate.Message (PyRuntime E))

def singularTree (kind : Singular) (value : Option Obj) (messageType : Option TypeInfo) :
    Except E (Protovalidate.Val (PyRuntime E)) :=
  match kind, value, messageType with
  | .message, some value, some info => .ok (.message (sub (some (value, info))))
  | .message, some _, none =>
    .error (py.typeError "a message field was read without its message type")
  | .message, none, _ => .ok (.message (sub none))
  | .enum, some value, _ => do return .atom (.enum (← py.extractEnum value))
  | .enum, none, _ => .ok (.atom (.enum 0))
  | .scalar scalar, some value, _ => do return .atom (← scalarValue py.toPython scalar value)
  | .scalar scalar, none, _ => .ok (.atom (default scalar))

def listTree (view : ListView Obj) : Protovalidate.ListView (PyRuntime E) where
  len :=
    match view.object with
    | some object => py.len object
    | none => .ok 0
  get index := do
    let elements ← match view.object with
      | some object => listed runtime py.toPython object
      | none => .ok []
    match elements[index]? with
    | none => return none
    | some item => return some (← singularTree py sub view.element (some item) view.messageType)

/-- The key and the value of an entry. -/
def entryTree (view : MapView Obj) (entry : Except E (Obj × Obj)) :
    Except E (Atom × Protovalidate.Val (PyRuntime E)) := do
  let (key, value) ← entry
  return (← scalarValue py.toPython view.key key,
    ← singularTree py sub view.element (some value) view.messageType)

/-- The entries before the first that fails, and why it does. -/
def visited {α : Type} : List (Except E α) → List α × Option E
  | [] => ([], none)
  | .error e :: _ => ([], some e)
  | .ok a :: rest => (a :: (visited rest).1, (visited rest).2)

def visitTree (view : MapView Obj) :
    List (Atom × Protovalidate.Val (PyRuntime E)) × Option E :=
  match view.object with
  | none => ([], none)
  | some object =>
    match py.mapEntries runtime object with
    | .error e => ([], some e)
    | .ok entries => visited (entries.map (entryTree py sub view))

def mapTree (view : MapView Obj) : Protovalidate.MapView (PyRuntime E) where
  len :=
    match view.object with
    | some object => py.len object
    | none => .ok 0
  entries := (visitTree runtime py sub view).1
  fault := (visitTree runtime py sub view).2

def convertTree (kind : Kind) (value : Option Obj) (messageType : Option TypeInfo) :
    Except E (Protovalidate.Val (PyRuntime E)) :=
  match kind with
  | .singular kind => singularTree py sub kind value messageType
  | .list element => .ok (.list (listTree runtime py sub ⟨element, value, messageType, none⟩))
  | .map key element => .ok (.map (mapTree runtime py sub ⟨key, element, value, messageType⟩))

end Tree

/-- Whether a field that tracks presence is set. -/
def setTree (runtime : ProtoRuntime) (py : Python Obj E) (object : Obj) (stored : FieldInfo)
    (kind : Kind) : Except E Bool :=
  match runtime with
  | .google => py.hasField object stored.attr
  | .protobufPy =>
    if stored.oneof.isSome || kind == .singular .message then
      (stored.fetch py object).map Option.isSome
    else do py.contains (← py.getattr object "_present") stored.number

/-- The tree of a message, as deep as its parts are asked for. -/
def messageTree (runtime : ProtoRuntime) (py : Interpreter Obj E) :
    Nat → Option (Obj × TypeInfo) → Protovalidate.Message (PyRuntime E)
  | 0, _ => ⟨fun _ => .ok false, fun _ => .ok none, .ok []⟩
  | depth + 1, none => {
      has _ := .ok false
      get field := do
        return some (← convertTree runtime py (messageTree runtime py depth) field.kind none
          field.messageType)
      encode := .ok [] }
  | depth + 1, some (object, info) => {
      has field :=
        match info.find field.number with
        | none => .ok false
        | some (_, stored) => setTree runtime py.toPython object stored field.kind
      get field :=
        match info.find field.number with
        | none => .ok none
        | some (_, stored) => do
          let value ← stored.fetch py.toPython object
          return some (← convertTree runtime py (messageTree runtime py depth) field.kind value
            field.messageType)
      encode := py.serialize runtime object }

/-- The tree of a view, which does not depend on what the view has fetched. -/
def viewTree (runtime : ProtoRuntime) (py : Interpreter Obj E) (depth : Nat) :
    View Obj → Protovalidate.Val (PyRuntime E)
  | .message view => .message (messageTree runtime py depth view.object)
  | .list view => .list (listTree runtime py (messageTree runtime py depth) view)
  | .map view => .map (mapTree runtime py (messageTree runtime py depth) view)

/-! ### Reading trees -/

/-- The values of a tree that were handed out. -/
structure Handles (E : Type) where
  values : Nat → Option (Protovalidate.Val (PyRuntime E))
  created : Nat

namespace Handles

def start (message : Protovalidate.Message (PyRuntime E)) : Handles E :=
  ⟨Function.update (fun _ => none) 0 (some (.message message)), 1⟩

def held (created : Nat) : Protovalidate.Val (PyRuntime E) → Held
  | .atom a => .atom a
  | _ => .view created

/-- A value handed out, which has a place unless it is an atom. -/
def hand (handles : Handles E) : Except E (Option (Protovalidate.Val (PyRuntime E))) → Handles E
  | .ok (some (.atom _)) => handles
  | .ok (some value) =>
    ⟨Function.update handles.values handles.created (some value), handles.created + 1⟩
  | _ => handles

/-- The entry at a place of a map. -/
def entry (map : Protovalidate.MapView (PyRuntime E)) (index : Nat) :
    Except E (Option (Atom × Protovalidate.Val (PyRuntime E))) :=
  match map.entries[index]?, map.fault with
  | some entry, _ => .ok (some entry)
  | none, some e => .error e
  | none, none => .ok none

/-- Asks a value of a tree. -/
def ask : Machine (Nat × Question E) (Answer E) (Handles E) := fun handles (id, question) =>
  match question, handles.values id with
  | .has field, some (.message message) => (handles, .set (read (message.has field)))
  | .get field, some (.message message) =>
    (handles.hand (message.get field),
      .value ((read (message.get field)).map (Option.map (held handles.created))))
  | .encode, some (.message message) => (handles, .bytes (read message.encode))
  | .len, some (.list list) => (handles, .size (read list.len))
  | .len, some (.map map) => (handles, .size (read map.len))
  | .element index, some (.list list) =>
    (handles.hand (list.get index),
      .value ((read (list.get index)).map (Option.map (held handles.created))))
  | .entry index, some (.map map) =>
    (handles.hand ((entry map index).map (Option.map Prod.snd)),
      .entry ((read (entry map index)).map
        (Option.map fun (key, value) => (key, held handles.created value))))
  | .drop, _ => ({ handles with values := Function.update handles.values id none }, .none)
  | _, _ => (handles, .none)

end Handles

/-! ### What is handed out -/

def Val.tree (runtime : ProtoRuntime) (py : Interpreter Obj E) (depth : Nat) :
    Val Obj → Protovalidate.Val (PyRuntime E)
  | .atom a => .atom a
  | .view v => viewTree runtime py depth v

def entryOf (runtime : ProtoRuntime) (py : Interpreter Obj E) (depth : Nat)
    (entry : Atom × Val Obj) : Atom × Protovalidate.Val (PyRuntime E) :=
  (entry.1, Val.tree runtime py depth entry.2)

/-- The elements of a list, which is empty if it is not set. -/
def ListView.listing (view : ListView Obj) (runtime : ProtoRuntime) (py : Python Obj E) :
    Except E (List Obj) :=
  match view.object with
  | some object => listed runtime py object
  | none => .ok []

/-- The elements that a list has fetched are those of its object. -/
def View.Kept (runtime : ProtoRuntime) (py : Python Obj E) : View Obj → Prop
  | .list l => ∀ items, l.items = some items → l.listing runtime py = .ok items.elements
  | _ => True

/-- A read of the views hands out what one of the tree does. -/
structure Handing (runtime : ProtoRuntime) (py : Interpreter Obj E) (depth : Nat) (ctx : Ctx Obj)
    (result : Ctx Obj × Except (Failure E) (Option (Val Obj)))
    (tree : Except E (Option (Protovalidate.Val (PyRuntime E)))) : Prop where
  steady : result.1.runtime = ctx.runtime
  same : result.2.map (Option.map (Val.tree runtime py depth)) = read tree
  kept : ∀ view, result.2 = .ok (some (.view view)) → view.Kept runtime py.toPython

section Reads
variable {runtime : ProtoRuntime} {py : Interpreter Obj E} {depth : Nat} {ctx : Ctx Obj}

theorem takeValues_runtime (ctx : Ctx Obj) (len : Nat) :
    (ctx.takeValues len).2.runtime = ctx.runtime := by
  rw [Ctx.takeValues]
  split
  · rfl
  · dsimp only
    split <;> rfl

theorem handing_message (object : Option (Obj × TypeInfo)) :
    Handing runtime py depth ctx
      (converted ctx (.ok (.view (.message (MessageView.new ctx object).1),
        (MessageView.new ctx object).2)))
      (.ok (some (.message (messageTree runtime py depth object)))) := by
  refine ⟨takeValues_runtime ctx _, rfl, fun view same => ?_⟩
  cases same
  trivial

/-- A value that is read at once. -/
theorem handing_atom (result : Except E Atom) :
    Handing runtime py depth ctx (converted ctx (read (result.map fun a => (.atom a, ctx))))
      (result.map fun a => some (.atom a)) := by
  cases result <;> exact ⟨rfl, rfl, fun view same => by cases same⟩

theorem handing_singular (kind : Singular) (value : Option Obj) (messageType : Option TypeInfo) :
    Handing runtime py depth ctx
      (converted ctx (singular py.toPython ctx kind value messageType))
      ((singularTree py (messageTree runtime py depth) kind value messageType).map some) := by
  cases kind with
  | message =>
    cases value with
    | none => exact handing_message none
    | some value =>
      cases messageType with
      | none => exact ⟨rfl, rfl, fun view same => by cases same⟩
      | some info => exact handing_message (some (value, info))
  | enum =>
    cases value with
    | none => exact handing_atom (.ok (.enum 0))
    | some value =>
      have atom : Handing runtime py depth ctx (converted ctx (read _)) _ :=
        handing_atom ((py.extractEnum value).map .enum)
      simp only [singular, singularTree]
      cases found : py.extractEnum value <;> rw [found] at atom <;> exact atom
  | scalar scalar =>
    cases value with
    | none => exact handing_atom (.ok (default scalar))
    | some value =>
      have atom : Handing runtime py depth ctx (converted ctx (read _)) _ :=
        handing_atom (scalarValue py.toPython scalar value)
      simp only [singular, singularTree]
      cases found : scalarValue py.toPython scalar value <;> rw [found] at atom <;> exact atom

theorem handing_convert (kind : Kind) (value : Option Obj) (messageType : Option TypeInfo) :
    Handing runtime py depth ctx
      (converted ctx (convert py.toPython ctx kind value messageType))
      ((convertTree runtime py (messageTree runtime py depth) kind value messageType).map some) := by
  cases kind with
  | singular kind => exact handing_singular kind value messageType
  | list element =>
    refine ⟨rfl, rfl, fun view same => ?_⟩
    cases same
    exact fun items fetched => by cases fetched
  | map key element =>
    refine ⟨rfl, rfl, fun view same => ?_⟩
    cases same
    trivial

/-! ### Messages -/

section Message
variable {view : MessageView Obj}

theorem value_steady (own : view.Own [py.toPython]) {object : Obj} {info : TypeInfo}
    (known : view.object = some (object, info)) {slot : Nat} {stored : FieldInfo}
    (present : info.fields[slot]? = some stored) :
    (view.value py.toPython object slot stored).2 = read (stored.fetch py.toPython object) := by
  rw [value_eq own known present,
    ownValue_steady own (by simp) known (List.mem_of_getElem? present)]

theorem value_object (view : MessageView Obj) (py : Python Obj E) (object : Obj) (slot : Nat)
    (stored : FieldInfo) : (view.value py object slot stored).1.object = view.object := by
  unfold MessageView.value
  split
  · rfl
  · rfl
  · split <;> rfl

theorem has_object (view : MessageView Obj) (py : Python Obj E) (ctx : Ctx Obj)
    (field : Field (PyRuntime E)) : (view.has py ctx field).1.object = view.object := by
  unfold MessageView.has
  split
  · rfl
  · split
    · rfl
    · unfold isSet
      split
      · rfl
      · split
        · exact value_object view py _ _ _
        · rfl

theorem get_object (view : MessageView Obj) (py : Python Obj E) (ctx : Ctx Obj)
    (field : Field (PyRuntime E)) : (view.get py ctx field).1.object = view.object := by
  unfold MessageView.get
  split
  · rfl
  · rename_i object info _
    split
    · rfl
    · rename_i slot stored _
      have kept := value_object view py object slot stored
      split <;> rename_i same <;> rw [same] at kept <;> exact kept

theorem has_tree (own : view.Own [py.toPython]) (same : ctx.runtime = runtime)
    (field : Field (PyRuntime E)) :
    (view.has py.toPython ctx field).2 =
      read ((messageTree runtime py (depth + 1) view.object).has field) := by
  subst same
  unfold MessageView.has
  cases known : view.object with
  | none => rfl
  | some pair =>
    obtain ⟨object, info⟩ := pair
    simp only [messageTree]
    cases found : info.find field.number with
    | none => rfl
    | some pair =>
      obtain ⟨slot, stored⟩ := pair
      have value := value_steady own known (TypeInfo.find_eq_some.mp found).1
      simp only [isSet, setTree]
      cases ctx.runtime with
      | google => rfl
      | protobufPy =>
        simp only
        split
        · rw [value]
          cases stored.fetch py.toPython object <;> rfl
        · rfl

theorem handing_get (own : view.Own [py.toPython]) (field : Field (PyRuntime E)) :
    Handing runtime py depth ctx (view.get py.toPython ctx field).2
      ((messageTree runtime py (depth + 1) view.object).get field) := by
  unfold MessageView.get
  cases known : view.object with
  | none => exact handing_convert field.kind none field.messageType
  | some pair =>
    obtain ⟨object, info⟩ := pair
    simp only [messageTree]
    cases found : info.find field.number with
    | none => exact ⟨rfl, rfl, fun view same => by cases same⟩
    | some pair =>
      obtain ⟨slot, stored⟩ := pair
      have value := value_steady own known (TypeInfo.find_eq_some.mp found).1
      dsimp only
      cases fetched : stored.fetch py.toPython object with
      | error e =>
        rw [fetched] at value
        rcases read : view.value py.toPython object slot stored with ⟨view', result⟩
        rw [read] at value
        subst value
        exact ⟨rfl, rfl, fun view same => by cases same⟩
      | ok found =>
        rw [fetched] at value
        rcases read : view.value py.toPython object slot stored with ⟨view', result⟩
        rw [read] at value
        subst value
        exact handing_convert field.kind found field.messageType

theorem encode_tree (same : ctx.runtime = runtime) :
    view.encode py ctx = read (messageTree runtime py (depth + 1) view.object).encode := by
  subst same
  rw [MessageView.encode]
  cases view.object <;> rfl

end Message

/-! ### Lists -/

/-- The elements go into an empty buffer. -/
theorem listItems_eq {object : Obj} {items : Items Obj} (empty : items.elements = []) :
    (listItems runtime py.toPython object items).map Items.elements =
      listed runtime py.toPython object := by
  cases runtime with
  | protobufPy =>
    simp only [listItems, listed]
    cases py.list object with
    | error e => rfl
    | ok elements =>
      exact congrArg Except.ok ((foldl_push elements items).trans (by rw [empty]; rfl))
  | google =>
    simp only [listItems, listed]
    cases py.iterate object with
    | error e => rfl
    | ok yielded =>
      have pushed := foldlM_push yielded items
      rw [empty] at pushed
      refine pushed.trans ?_
      change _ = yielded.mapM id
      cases yielded.mapM id <;> rfl

section List
variable {list : ListView Obj}

theorem fetched_tree (kept : (View.list list).Kept runtime py.toPython)
    (same : ctx.runtime = runtime) (clean : ctx.Clean) :
    (list.fetched py.toPython ctx).2.2 = read (list.listing runtime py.toPython) ∧
      (list.fetched py.toPython ctx).2.1.runtime = ctx.runtime ∧
      (View.list (list.fetched py.toPython ctx).1).Kept runtime py.toPython ∧
      ∃ items, (list.fetched py.toPython ctx).1 = { list with items } := by
  subst same
  rcases list with ⟨element, object, messageType, items⟩
  unfold ListView.fetched
  cases items with
  | some items => exact ⟨(congrArg read (kept items rfl)).symm, rfl, kept, some items, rfl⟩
  | none =>
    cases object with
    | none =>
      refine ⟨rfl, rfl, fun items fetched => ?_, some .empty, rfl⟩
      cases fetched
      rfl
    | some object =>
      have filled : (listItems ctx.takeItems.2.runtime py.toPython object ctx.takeItems.1).map
          Items.elements = listed ctx.runtime py.toPython object :=
        listItems_eq (takeItems_spec clean).1
      dsimp only [ListView.listing] at kept ⊢
      cases done : listItems ctx.takeItems.2.runtime py.toPython object ctx.takeItems.1 with
      | error e =>
        rw [done] at filled
        rw [← filled]
        exact ⟨rfl, rfl, kept, none, rfl⟩
      | ok items =>
        rw [done] at filled
        rw [← filled]
        refine ⟨rfl, rfl, fun items' fetched => ?_, some items, rfl⟩
        cases fetched
        exact filled.symm

theorem handing_element (kept : (View.list list).Kept runtime py.toPython)
    (same : ctx.runtime = runtime) (clean : ctx.Clean) (index : Nat) :
    Handing runtime py depth ctx (list.get py.toPython ctx index).2
      ((listTree runtime py (messageTree runtime py depth) list).get index) := by
  obtain ⟨elements, steady, -, items, fetched⟩ := fetched_tree kept same clean
  have listing : (listTree runtime py (messageTree runtime py depth) list).get index = (do
      match (← list.listing runtime py.toPython)[index]? with
      | none => return none
      | some item => return some (← singularTree py (messageTree runtime py depth) list.element
          (some item) list.messageType)) := by
    rw [listTree, ListView.listing]
    cases list.object <;> rfl
  rw [listing, ListView.get]
  generalize list.fetched py.toPython ctx = result at elements steady fetched ⊢
  obtain ⟨list', ctx', result⟩ := result
  dsimp only at elements steady fetched
  subst elements fetched
  cases list.listing runtime py.toPython with
  | error e => exact ⟨steady, rfl, fun view same => by cases same⟩
  | ok elements =>
    dsimp only [read, Except.mapError, bind, Except.bind]
    cases elements[index]? with
    | none => exact ⟨steady, rfl, fun view same => by cases same⟩
    | some item =>
      have handing : Handing runtime py depth ctx' (converted ctx' _) _ :=
        handing_singular list.element (some item) list.messageType
      exact ⟨handing.steady.trans steady, handing.same, handing.kept⟩

theorem element_kept (kept : (View.list list).Kept runtime py.toPython)
    (same : ctx.runtime = runtime) (clean : ctx.Clean) (index : Nat) :
    (View.list (list.get py.toPython ctx index).1).Kept runtime py.toPython ∧
      ∃ items, (list.get py.toPython ctx index).1 = { list with items } := by
  have spec := fetched_tree kept same clean
  unfold ListView.get
  split
  · rename_i fetched
    rw [fetched] at spec
    exact spec.2.2
  · rename_i fetched
    rw [fetched] at spec
    split <;> exact spec.2.2

/-- A list is as long as its elements, whether it has fetched them or not. -/
theorem len_tree (counts : py.Counts runtime) (kept : (View.list list).Kept runtime py.toPython) :
    list.len py = read (listTree runtime py (messageTree runtime py depth) list).len := by
  rcases list with ⟨element, object, messageType, items⟩
  cases items with
  | none => cases object <;> rfl
  | some items =>
    have elements := kept items rfl
    cases object with
    | none => exact congrArg (Except.ok ∘ List.length) (Except.ok.inj elements).symm
    | some object => exact (congrArg read (counts object items.elements elements)).symm

end List

/-! ### Maps -/

/-- What is said of the entry at a place, if the entries before it were read. -/
def entryAt {α : Type} (results : List (Except E α)) (index : Nat) : Except E (Option α) :=
  match results[index]? with
  | none => .ok none
  | some result => result.map some

/-- An entry is reached if none before it fails. -/
theorem visited_entry {results : List (Except E (Atom × Protovalidate.Val (PyRuntime E)))}
    {len : Except E Nat} (index : Nat) :
    Handles.entry ⟨len, (visited results).1, (visited results).2⟩ index =
      match (results.take index).findSome? fault with
      | some e => .error e
      | none => entryAt results index := by
  induction results generalizing index with
  | nil => cases index <;> rfl
  | cons first rest ih =>
    cases index with
    | zero => cases first <;> rfl
    | succ index =>
      cases first with
      | error e => rfl
      | ok entry => exact ih index

/-- A loop stops at the first place that fails. -/
theorem findSome_range {F α : Type} (results : List (Except F α)) (index : Nat) :
    ((List.range index).findSome? fun i => fault (entryAt results i)) =
      (results.take index).findSome? fault := by
  induction index with
  | zero => rfl
  | succ index ih =>
    have last : [index].findSome? (fun i => fault (entryAt results i)) =
        results[index]?.toList.findSome? fault := by
      simp only [List.findSome?, entryAt]
      cases results[index]? with
      | none => rfl
      | some result => cases result <;> rfl
    rw [List.range_succ, List.take_add_one, List.findSome?_append, List.findSome?_append, ih, last]

theorem fault_map {F α β : Type} (f : α → β) (result : Except F α) :
    fault (result.map f) = fault result := by
  cases result <;> rfl

theorem fault_read {α : Type} (result : Except E α) :
    fault (read result) = (fault result).map .read := by
  cases result <;> rfl

section Map
variable {map : MapView Obj}

theorem entry_runtime (map : MapView Obj) (index : Nat) :
    (map.entry py.toPython ctx index).1.runtime = ctx.runtime := by
  unfold MapView.entry
  dsimp only
  split
  · rfl
  · rfl
  · rename_i key value _
    have handing : Handing ctx.runtime py 0 ctx (converted ctx _) _ :=
      handing_singular map.element (some value) map.messageType
    exact handing.steady

/-- The entry at a place, of a map that can be listed. -/
theorem entry_tree {object : Obj} {entries : List (Except E (Obj × Obj))}
    (known : map.object = some object) (entered : py.mapEntries ctx.runtime object = .ok entries)
    (index : Nat) :
    (map.entry py.toPython ctx index).2.map (Option.map (entryOf runtime py depth)) =
      read (entryAt (entries.map (entryTree py (messageTree runtime py depth) map)) index) := by
  rw [MapView.entry, entryAt, List.getElem?_map, known]
  dsimp only
  simp only [entered, bind, Except.bind]
  cases entries[index]? with
  | none => rfl
  | some entry =>
    cases entry with
    | error e => rfl
    | ok pair =>
      simp only [Option.map_some, entryTree, bind, Except.bind]
      cases scalarValue py.toPython map.key pair.1 with
      | error e => rfl
      | ok key =>
        have handing : Handing runtime py depth ctx (converted ctx _) _ :=
          handing_singular map.element (some pair.2) map.messageType
        have paired : ∀ val : Except (Failure E) (Option (Val Obj)),
            (val.map (Option.map fun val => (key, val))).map
                (Option.map (entryOf runtime py depth)) =
              (val.map (Option.map (Val.tree runtime py depth))).map
                (Option.map fun val => (key, val)) := by
          rintro (e | _ | val) <;> rfl
        dsimp only [pure, Except.pure]
        rw [paired, handing.same]
        cases singularTree py (messageTree runtime py depth) map.element (some pair.2)
          map.messageType <;> rfl

/-- What an entry hands out has fetched nothing. -/
theorem entry_kept {index : Nat} {view : View Obj}
    (handed : (map.entry py.toPython ctx index).2.map (Option.map Prod.snd) =
      .ok (some (.view view))) : view.Kept runtime py.toPython := by
  unfold MapView.entry at handed
  dsimp only at handed
  split at handed
  · cases handed
  · cases handed
  · rename_i key value _
    have handing : Handing runtime py 0 ctx (converted ctx _) _ :=
      handing_singular map.element (some value) map.messageType
    refine handing.kept view ?_
    generalize (converted ctx _).2 = val at handed ⊢
    obtain e | _ | val := val <;> cases handed
    rfl

/-- The loop over the entries of a map reads what a visit of them does. -/
theorem turn_visited {results : List (Except E (Atom × Protovalidate.Val (PyRuntime E)))}
    {len : Except E Nat}
    (entries : ∀ i, (map.entry py.toPython ctx i).2.map (Option.map (entryOf runtime py depth)) =
      read (entryAt results i)) (index : Nat) :
    let tree := Handles.entry ⟨len, (visited results).1, (visited results).2⟩ index
    match map.turn py.toPython ctx index with
    | some e => read tree = .error e
    | none =>
      (map.entry py.toPython ctx index).2.map (Option.map (entryOf runtime py depth)) =
        read tree := by
  intro tree
  have failing : ∀ i, fault (map.entry py.toPython ctx i).2 =
      (fault (entryAt results i)).map Failure.read := by
    intro i
    rw [← fault_map (Option.map (entryOf runtime py depth)), entries, fault_read]
  have turn : map.turn py.toPython ctx index =
      ((results.take index).findSome? fault).map Failure.read := by
    rw [MapView.turn, ← findSome_range, List.map_findSome?]
    exact congrArg (fun f => (List.range index).findSome? f) (funext failing)
  have reached : tree = _ := visited_entry index
  rw [turn, reached]
  cases (results.take index).findSome? fault with
  | some e => rfl
  | none => exact entries index

theorem turn_tree (py : Interpreter Obj E) (map : MapView Obj) (depth : Nat)
    (same : ctx.runtime = runtime) (index : Nat) :
    let tree := Handles.entry (mapTree runtime py (messageTree runtime py depth) map) index
    match map.turn py.toPython ctx index with
    | some e => read tree = .error e
    | none =>
      (map.entry py.toPython ctx index).2.map (Option.map (entryOf runtime py depth)) =
        read tree := by
  subst same
  cases known : map.object with
  | none =>
    have unset : ∀ i, (map.entry py.toPython ctx i).2.map
        (Option.map (entryOf ctx.runtime py depth)) = read (entryAt [] i) := by
      intro i
      rw [MapView.entry, known]
      rfl
    rw [mapTree, visitTree, known]
    exact turn_visited unset index
  | some object =>
    rw [mapTree, visitTree, known]
    dsimp only
    cases entered : py.mapEntries ctx.runtime object with
    | ok entries => exact turn_visited (entry_tree known entered) index
    | error e =>
      have failed : ∀ i, map.entry py.toPython ctx i = (ctx, .error (.read e)) := by
        intro i
        rw [MapView.entry, known]
        dsimp only
        rw [entered]
        rfl
      cases index with
      | zero =>
        rw [failed]
        rfl
      | succ index =>
        have turn : map.turn py.toPython ctx (index + 1) = some (.read e) := by
          rw [MapView.turn, List.range_succ_eq_map, List.findSome?_cons, failed]
          rfl
        rw [turn]
        rfl

end Map

/-! ### Runs -/

/-- The views that are alive have what Python answers. -/
structure State.Kept (runtime : ProtoRuntime) (py : Python Obj E) (state : State Obj) : Prop where
  same : state.ctx.runtime = runtime
  kept : ∀ id view, state.views id = some view → view.Kept runtime py

/-- What holds in a validation with a Python that always answers the same. -/
def Steady (runtime : ProtoRuntime) (py : Python Obj E) (state : State Obj) : Prop :=
  state.Inv [py] ∧ state.Kept runtime py

/-- The values that were handed out are trees of the views, deep enough for some questions. -/
structure Related (runtime : ProtoRuntime) (py : Interpreter Obj E) (questions : Nat)
    (state : State Obj) (handles : Handles E) : Prop where
  created : handles.created = state.created
  values : ∀ id, ∃ depth, questions ≤ depth ∧
    handles.values id = (state.views id).map (viewTree runtime py depth)

section Runs
variable {state : State Obj} {handles : Handles E} {k : Nat}

attribute [local simp] State.ask State.step Handles.ask

theorem Related.less (related : Related runtime py (k + 1) state handles) :
    Related runtime py k state handles := by
  refine ⟨related.created, fun id => ?_⟩
  obtain ⟨depth, enough, value⟩ := related.values id
  exact ⟨depth, by omega, value⟩

theorem Related.tree (related : Related runtime py (k + 1) state handles) (id : Nat) :
    ∃ depth, k ≤ depth ∧
      handles.values id = (state.views id).map (viewTree runtime py (depth + 1)) := by
  obtain ⟨depth, enough, value⟩ := related.values id
  obtain ⟨depth, rfl⟩ := Nat.exists_eq_add_of_le' (Nat.le_of_add_left_le enough)
  exact ⟨depth, by omega, value⟩

/-- A view that has fetched more has the same tree. -/
theorem Related.put (related : Related runtime py k state handles) {id : Nat}
    {view view' : View Obj} (alive : state.views id = some view)
    (same : ∀ depth, viewTree runtime py depth view' = viewTree runtime py depth view) :
    Related runtime py k (state.put id (some view') ctx) handles := by
  refine ⟨related.created, fun other => ?_⟩
  obtain ⟨depth, enough, value⟩ := related.values other
  refine ⟨depth, enough, ?_⟩
  rw [value]
  by_cases here : other = id
  · subst here
    simp only [State.put, Function.update_self, alive, Option.map_some, same]
  · simp only [State.put, Function.update_of_ne here]

theorem held_tree (created : Nat) (val : Val Obj) :
    Handles.held created (Val.tree runtime py depth val) = val.held created := by
  cases val with
  | atom a => rfl
  | view view => cases view <;> rfl

theorem Related.hand (related : Related runtime py k state handles) (enough : k ≤ depth)
    {val : Except (Failure E) (Option (Val Obj))}
    {tree : Except E (Option (Protovalidate.Val (PyRuntime E)))}
    (same : val.map (Option.map (Val.tree runtime py depth)) = read tree) :
    Related runtime py k (state.hand val) (handles.hand tree) := by
  cases tree with
  | error e =>
    cases val with
    | error e' => exact related
    | ok val => cases same
  | ok value =>
    cases val with
    | error e => cases same
    | ok val =>
      obtain rfl : val.map (Val.tree runtime py depth) = value := Except.ok.inj same
      obtain _ | a | view := val
      · exact related
      · exact related
      · have handed : handles.hand (.ok (some (viewTree runtime py depth view))) =
            ⟨Function.update handles.values handles.created (some (viewTree runtime py depth view)),
              handles.created + 1⟩ := by
          cases view <;> rfl
        change Related runtime py k (state.hand _)
          (handles.hand (.ok (some (viewTree runtime py depth view))))
        rw [handed]
        refine ⟨congrArg (· + 1) related.created, fun other => ?_⟩
        dsimp only [State.hand]
        rw [related.created]
        by_cases here : other = state.created
        · subst here
          exact ⟨depth, enough, by simp only [Function.update_self, Option.map_some]⟩
        · simp only [Function.update_of_ne here]
          exact related.values other

theorem State.Kept.put (kept : state.Kept runtime py.toPython) {id : Nat}
    {view' : Option (View Obj)} (same : ctx.runtime = runtime)
    (own : ∀ view, view' = some view → view.Kept runtime py.toPython) :
    (state.put id view' ctx).Kept runtime py.toPython := by
  refine ⟨same, fun other view alive => ?_⟩
  by_cases here : other = id
  · subst here
    simp only [State.put, Function.update_self] at alive
    exact own view alive
  · simp only [State.put, Function.update_of_ne here] at alive
    exact kept.kept other view alive

theorem State.Kept.hand (kept : state.Kept runtime py.toPython)
    {val : Except (Failure E) (Option (Val Obj))}
    (own : ∀ view, val = .ok (some (.view view)) → view.Kept runtime py.toPython) :
    (state.hand val).Kept runtime py.toPython := by
  unfold State.hand
  split
  · rename_i view
    refine ⟨kept.same, fun other view' alive => ?_⟩
    dsimp only at alive
    by_cases here : other = state.created
    · subst here
      rw [Function.update_self] at alive
      cases alive
      exact own view rfl
    · rw [Function.update_of_ne here] at alive
      exact kept.kept other view' alive
  · exact kept

theorem drop_runtime (view : View Obj) (ctx : Ctx Obj) : (view.drop ctx).runtime = ctx.runtime := by
  unfold View.drop
  cases view with
  | message view =>
    dsimp only
    split <;> rfl
  | list view =>
    dsimp only
    split
    · rfl
    · split <;> rfl
  | map view => rfl

/-- What is asked of a view is answered alike by its tree. -/
def Answers (runtime : ProtoRuntime) (py : Interpreter Obj E) (state : State Obj)
    (question : Nat × Question E) : Prop :=
  (State.ask py state question).1.Kept runtime py.toPython ∧
    ∀ k handles, Related runtime py (k + 1) state handles →
      (Handles.ask handles question).2 = (State.ask py state question).2 ∧
        Related runtime py k (State.ask py state question).1 (Handles.ask handles question).1

/-- A question that is none for the view, or only looks at it. -/
theorem answers_look {question : Nat × Question E} (answer : Answer E)
    (kept : state.Kept runtime py.toPython) (asked : State.ask py state question = (state, answer))
    (alike : ∀ k handles, Related runtime py (k + 1) state handles →
      Handles.ask handles question = (handles, answer)) :
    Answers runtime py state question := by
  rw [Answers, asked]
  refine ⟨kept, fun k handles related => ?_⟩
  rw [alike k handles related]
  exact ⟨rfl, related.less⟩

theorem answers_other (kept : state.Kept runtime py.toPython) {id : Nat} {question : Question E}
    (other : question.suits (state.views id) = false) :
    Answers runtime py state (id, question) := by
  refine answers_look .none kept ?_ fun k handles related => ?_
  · cases question <;> rcases alive : state.views id with _ | _ | _ | _ <;>
      simp_all only [Question.suits, State.ask, reduceCtorEq]
  · obtain ⟨depth, -, value⟩ := related.tree id
    cases question <;> rcases alive : state.views id with _ | _ | _ | _ <;>
      simp_all only [Question.suits, Handles.ask, viewTree, Option.map, reduceCtorEq]

theorem answers_has (steady : Steady runtime py.toPython state) {id : Nat}
    {view : MessageView Obj} (alive : state.views id = some (.message view))
    (field : Field (PyRuntime E)) : Answers runtime py state (id, .has field) := by
  have asked : State.ask py state (id, .has field) =
      (state.put id (some (.message (view.has py.toPython state.ctx field).1)) state.ctx,
        .set (view.has py.toPython state.ctx field).2) := by
    simp only [State.ask, State.step, alive]
  rw [Answers, asked]
  constructor
  · refine steady.2.put steady.2.same fun view same => ?_
    cases same
    trivial
  · intro k handles related
    obtain ⟨depth, -, value⟩ := related.tree id
    rw [alive] at value
    have answered : Handles.ask handles (id, .has field) =
        (handles, .set (read ((messageTree runtime py (depth + 1) view.object).has field))) := by
      simp only [Handles.ask, value]
      rfl
    rw [answered, has_tree (steady.1.own id _ alive) steady.2.same]
    refine ⟨rfl, related.less.put alive fun depth => ?_⟩
    simp only [viewTree, has_object]

/-- A read that hands out what its tree does. -/
theorem answers_read {id : Nat} {question : Question E} {view view' : View Obj} {ctx' : Ctx Obj}
    {val : Except (Failure E) (Option (Val Obj))}
    {tree : Nat → Except E (Option (Protovalidate.Val (PyRuntime E)))}
    (steady : Steady runtime py.toPython state) (alive : state.views id = some view)
    (asked : State.ask py state (id, question) =
      ((state.put id (some view') ctx').hand val,
        .value (val.map (Option.map (Val.held state.created)))))
    (answered : ∀ depth (handles : Handles E),
      handles.values id = some (viewTree runtime py (depth + 1) view) →
        Handles.ask handles (id, question) = (handles.hand (tree depth),
          .value ((read (tree depth)).map (Option.map (Handles.held handles.created)))))
    (kept : view'.Kept runtime py.toPython)
    (same : ∀ depth, viewTree runtime py depth view' = viewTree runtime py depth view)
    (handing : ∀ depth, ∃ depth', depth ≤ depth' ∧
      Handing runtime py depth' state.ctx (ctx', val) (tree depth)) :
    Answers runtime py state (id, question) := by
  rw [Answers, asked]
  constructor
  · obtain ⟨_, _, handed⟩ := handing 0
    refine State.Kept.hand (steady.2.put (handed.steady.trans steady.2.same) ?_) handed.kept
    rintro _ ⟨⟩
    exact kept
  · intro k handles related
    obtain ⟨depth, enough, value⟩ := related.tree id
    rw [alive] at value
    obtain ⟨depth', deeper, handed⟩ := handing depth
    have put : Related runtime py k (state.put id (some view') ctx') handles :=
      related.less.put alive same
    have answer : (read (tree depth)).map (Option.map (Handles.held handles.created)) =
        val.map (Option.map (Val.held state.created)) := by
      rw [← handed.same, related.created]
      obtain e | _ | val := val
      · rfl
      · rfl
      · exact congrArg (fun held => Except.ok (some held)) (held_tree state.created val)
    rw [answered depth handles value, answer]
    exact ⟨rfl, put.hand (enough.trans deeper) handed.same⟩

theorem answers_get (steady : Steady runtime py.toPython state) {id : Nat}
    {view : MessageView Obj} (alive : state.views id = some (.message view))
    (field : Field (PyRuntime E)) : Answers runtime py state (id, .get field) := by
  have kept : (View.message (view.get py.toPython state.ctx field).1).Kept runtime py.toPython :=
    trivial
  refine answers_read steady alive ?_ (fun depth handles value => ?_) kept (fun depth => ?_)
    fun depth => ⟨depth, le_rfl, handing_get (steady.1.own id _ alive) field⟩
  · simp [alive]
  · simp only [Handles.ask, value, viewTree]
  · simp only [viewTree, get_object]

theorem answers_element (steady : Steady runtime py.toPython state) {id : Nat}
    {list : ListView Obj} (alive : state.views id = some (.list list)) (index : Nat) :
    Answers runtime py state (id, .element index) := by
  have kept := steady.2.kept id _ alive
  obtain ⟨kept', items, same⟩ :
      (View.list (list.get py.toPython state.ctx index).1).Kept runtime py.toPython ∧
        ∃ items, (list.get py.toPython state.ctx index).1 = { list with items } :=
    element_kept kept steady.2.same steady.1.clean index
  refine answers_read steady alive ?_ (fun depth handles value => ?_) kept' (fun depth => ?_)
    fun depth => ⟨depth + 1, Nat.le_succ depth,
      handing_element kept steady.2.same steady.1.clean index⟩
  · simp [alive]
  · simp only [Handles.ask, value, viewTree]
  · rw [same]
    rfl

theorem answers_entry (steady : Steady runtime py.toPython state) {id : Nat}
    {map : MapView Obj} (alive : state.views id = some (.map map)) (index : Nat) :
    Answers runtime py state (id, .entry index) := by
  have turned := fun depth => turn_tree py map depth steady.2.same index
  cases turn : map.turn py.toPython state.ctx index with
  | some e =>
    simp only [turn] at turned
    refine answers_look (.entry (.error e)) steady.2 ?_ fun k handles related => ?_
    · simp only [State.ask, alive, turn]
    · obtain ⟨depth, -, value⟩ := related.tree id
      rw [alive] at value
      have failed := turned (depth + 1)
      simp only [Handles.ask, value, Option.map_some, viewTree]
      generalize Handles.entry _ index = result at failed ⊢
      cases result with
      | error e' =>
        cases failed
        rfl
      | ok entry => cases failed
  | none =>
    simp only [turn] at turned
    have asked : State.ask py state (id, .entry index) =
        (({ state with ctx := (map.entry py.toPython state.ctx index).1 } : State Obj).hand
            ((map.entry py.toPython state.ctx index).2.map (Option.map Prod.snd)),
          .entry ((map.entry py.toPython state.ctx index).2.map
            (Option.map fun (key, val) => (key, val.held state.created)))) := by
      simp only [State.ask, State.step, alive, turn]
    rw [Answers, asked]
    constructor
    · have moved : State.Kept runtime py.toPython
          { state with ctx := (map.entry py.toPython state.ctx index).1 } :=
        ⟨(entry_runtime map index).trans steady.2.same, steady.2.kept⟩
      exact moved.hand fun view handed => entry_kept handed
    · intro k handles related
      obtain ⟨depth, enough, value⟩ := related.tree id
      rw [alive] at value
      have same := turned (depth + 1)
      have moved : Related runtime py k
          { state with ctx := (map.entry py.toPython state.ctx index).1 } handles :=
        ⟨related.created, related.less.values⟩
      simp only [Handles.ask, value, Option.map_some, viewTree]
      generalize Handles.entry _ index = tree at same ⊢
      generalize (map.entry py.toPython state.ctx index).2 = entry at same ⊢
      rw [← same, related.created]
      constructor
      · obtain e | _ | entry := entry
        · rfl
        · rfl
        · exact congrArg (fun held => Answer.entry (.ok (some (entry.1, held))))
            (held_tree state.created entry.2)
      · have after : (entry.map (Option.map Prod.snd)).map
              (Option.map (Val.tree runtime py (depth + 1))) =
            read (tree.map (Option.map Prod.snd)) := by
          calc
            _ = (entry.map (Option.map (entryOf runtime py (depth + 1)))).map
                (Option.map Prod.snd) := by
              obtain e | _ | entry := entry <;> rfl
            _ = (read tree).map (Option.map Prod.snd) := by rw [same]
            _ = _ := by cases tree <;> rfl
        exact moved.hand (Nat.le_succ_of_le enough) after

theorem answers_drop (steady : Steady runtime py.toPython state) (id : Nat) :
    Answers runtime py state (id, .drop) := by
  obtain ⟨ctx', same, asked⟩ : ∃ ctx' : Ctx Obj, ctx'.runtime = runtime ∧
      State.ask py state (id, .drop) = (state.put id none ctx', .none) := by
    simp only [State.ask, State.step]
    cases alive : state.views id with
    | none =>
      refine ⟨state.ctx, steady.2.same, ?_⟩
      have unchanged : state.put id none state.ctx = state := by
        rw [State.put, ← alive, Function.update_eq_self]
      rw [unchanged]
    | some view =>
      exact ⟨view.drop state.ctx, (drop_runtime view state.ctx).trans steady.2.same, rfl⟩
  rw [Answers, asked]
  constructor
  · refine steady.2.put same ?_
    rintro _ ⟨⟩
  · intro k handles related
    have answered : Handles.ask handles (id, .drop) =
        ({ handles with values := Function.update handles.values id none }, .none) := by
      rw [Handles.ask]
    rw [answered]
    refine ⟨rfl, related.created, fun other => ?_⟩
    by_cases here : other = id
    · subst here
      exact ⟨k, le_rfl, by simp only [State.put, Function.update_self, Option.map_none]⟩
    · simp only [State.put, Function.update_of_ne here]
      exact related.less.values other

theorem answers_size (counts : py.Counts runtime) (steady : Steady runtime py.toPython state)
    (id : Nat) : Answers runtime py state (id, .len) := by
  cases alive : state.views id with
  | none => exact answers_other steady.2 (by rw [alive]; rfl)
  | some view =>
    cases view with
    | message view => exact answers_other steady.2 (by rw [alive]; rfl)
    | list list =>
      refine answers_look (.size (list.len py)) steady.2 ?_ fun k handles related => ?_
      · simp [alive]
      · obtain ⟨depth, -, value⟩ := related.tree id
        rw [alive] at value
        simp only [Handles.ask, value, Option.map_some, viewTree]
        rw [len_tree counts (steady.2.kept id _ alive)]
    | map map =>
      refine answers_look (.size (map.len py)) steady.2 ?_ fun k handles related => ?_
      · simp [alive]
      · obtain ⟨depth, -, value⟩ := related.tree id
        rw [alive] at value
        simp only [Handles.ask, value, Option.map_some, viewTree]
        rw [MapView.len, mapTree]
        cases map.object <;> rfl

theorem answers_encode (steady : Steady runtime py.toPython state) {id : Nat}
    {view : MessageView Obj} (alive : state.views id = some (.message view)) :
    Answers runtime py state (id, .encode) := by
  refine answers_look (.bytes (view.encode py state.ctx)) steady.2 ?_
    fun k handles related => ?_
  · simp [alive]
  · obtain ⟨depth, -, value⟩ := related.tree id
    rw [alive] at value
    simp only [Handles.ask, value, Option.map_some, viewTree]
    rw [encode_tree steady.2.same]

theorem answers (counts : py.Counts runtime) (steady : Steady runtime py.toPython state) (id : Nat)
    (question : Question E) : Answers runtime py state (id, question) := by
  cases question with
  | drop => exact answers_drop steady id
  | len => exact answers_size counts steady id
  | has field =>
    match alive : state.views id with
    | some (.message view) => exact answers_has steady alive field
    | none | some (.list _) | some (.map _) => exact answers_other steady.2 (by rw [alive]; rfl)
  | get field =>
    match alive : state.views id with
    | some (.message view) => exact answers_get steady alive field
    | none | some (.list _) | some (.map _) => exact answers_other steady.2 (by rw [alive]; rfl)
  | encode =>
    match alive : state.views id with
    | some (.message view) => exact answers_encode steady alive
    | none | some (.list _) | some (.map _) => exact answers_other steady.2 (by rw [alive]; rfl)
  | element index =>
    match alive : state.views id with
    | some (.list list) => exact answers_element steady alive index
    | none | some (.message _) | some (.map _) => exact answers_other steady.2 (by rw [alive]; rfl)
  | entry index =>
    match alive : state.views id with
    | some (.map map) => exact answers_entry steady alive index
    | none | some (.message _) | some (.list _) => exact answers_other steady.2 (by rw [alive]; rfl)

/-- A question is an operation, or none. -/
theorem ask_step (py : Interpreter Obj E) (state : State Obj) (question : Nat × Question E) :
    (State.ask py state question).1 = state ∨
      ∃ operation, (State.ask py state question).1 = state.step ⟨py.toPython, operation⟩ := by
  unfold State.ask
  dsimp only
  split
  · exact .inr ⟨.has _ _, rfl⟩
  · exact .inr ⟨.get _ _, rfl⟩
  · exact .inl rfl
  · exact .inl rfl
  · exact .inl rfl
  · exact .inr ⟨.element _ _, rfl⟩
  · split
    · exact .inl rfl
    · exact .inr ⟨.entry _ _, rfl⟩
  · exact .inr ⟨.drop _, rfl⟩
  · exact .inl rfl

theorem simulates (counts : py.Counts runtime) :
    Client.Simulates (State.ask py) Handles.ask (Steady runtime py.toPython)
      (Related runtime py) := by
  rintro state ⟨id, question⟩ steady
  have answers := answers counts steady id question
  refine ⟨⟨?_, answers.1⟩, answers.2⟩
  rcases ask_step py state (id, question) with same | ⟨operation, same⟩
  · rw [same]
    exact steady.1
  · rw [same]
    exact State.step_inv steady.1 _ (List.mem_singleton_self _)

theorem start_steady (py : Python Obj E) (runtime : ProtoRuntime) (object : Obj)
    (info : TypeInfo) : Steady runtime py (.start runtime object info) := by
  constructor
  · exact run_inv runtime [⟨py, .message object info⟩]
  · refine ⟨takeValues_runtime ⟨runtime, [], []⟩ _, fun id view alive => ?_⟩
    simp only [State.start] at alive
    by_cases here : id = 0
    · subst here
      rw [Function.update_self] at alive
      cases alive
      trivial
    · rw [Function.update_of_ne here] at alive
      cases alive

theorem start_related (runtime : ProtoRuntime) (py : Interpreter Obj E) (object : Obj)
    (info : TypeInfo) {n : Nat} (enough : k ≤ n) :
    Related runtime py k (.start runtime object info)
      (.start (messageTree runtime py n (some (object, info)))) := by
  refine ⟨rfl, fun id => ⟨n, enough, ?_⟩⟩
  simp only [Handles.start, State.start]
  by_cases here : id = 0
  · subst here
    rw [Function.update_self, Function.update_self]
    rfl
  · rw [Function.update_of_ne here, Function.update_of_ne here]
    rfl

end Runs

end Reads

/-- Whatever is read of the views of a message, and whatever views are dropped before, is read
of the tree of the message alike, as soon as the tree is deep enough. -/
theorem reads_messageTree (runtime : ProtoRuntime) (py : Interpreter Obj E)
    (counts : py.Counts runtime) (object : Obj) (info : TypeInfo) {ρ : Type}
    (client : Client (Nat × Question E) (Answer E) ρ) :
    ∃ depth, ∀ n, depth ≤ n →
      client.run Handles.ask (.start (messageTree runtime py n (some (object, info)))) =
        client.run (State.ask py) (.start runtime object info) := by
  obtain ⟨depth, same⟩ :=
    (simulates counts).run client _ (start_steady py.toPython runtime object info)
  exact ⟨depth, fun n enough => same _ (start_related runtime py object info enough)⟩

/-- Lists of numbers, as a message with one repeated field. -/
def lists : Interpreter (List Nat) Unit where
  getattr object _ := .ok object
  isNone _ := false
  eq _ _ := .ok true
  hasField _ _ := .ok true
  contains _ _ := .ok true
  list object := .ok (object.map fun n => [n])
  iterate object := .ok (object.map fun n => .ok [n])
  mapEntries _ _ := .ok []
  extractBool _ := .error ()
  extractInt _ := .error ()
  extractUint object := .ok (object.headD 0)
  extractFloat _ := .error ()
  extractEnum _ := .error ()
  extractString _ := .error ()
  extractBytes _ := .error ()
  typeError _ := ()
  len object := .ok object.length
  serialize _ _ := .ok []

theorem lists_counts : lists.Counts .protobufPy := by
  intro object elements listed
  cases listed
  exact congrArg Except.ok (List.length_map _).symm

/-- A list that was read and dropped is read as it was. -/
def readTwice : Client (Nat × Question Unit) (Answer Unit) (Answer Unit × Answer Unit) :=
  let numbers : Field (PyRuntime Unit) := ⟨1, "numbers", .list (.scalar .uint32), none, false⟩
  .ask (0, .get numbers) fun _ => .ask (1, .element 1) fun first => .ask (1, .drop) fun _ =>
    .ask (0, .get numbers) fun _ => .ask (2, .element 1) fun second => .done (first, second)

theorem reads_messageTree_lists : ∃ depth, ∀ n, depth ≤ n →
    readTwice.run Handles.ask (.start (messageTree .protobufPy lists n
      (some ([3, 4], ⟨[⟨⟨"numbers", none⟩, 1⟩], List.pairwise_singleton _ _⟩)))) =
    readTwice.run (State.ask lists)
      (.start .protobufPy [3, 4] ⟨[⟨⟨"numbers", none⟩, 1⟩], List.pairwise_singleton _ _⟩) :=
  reads_messageTree .protobufPy lists lists_counts [3, 4] _ readTwice

end Views

end Protovalidate
