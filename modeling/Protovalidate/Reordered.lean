import Protovalidate.Spec
import Mathlib.Data.List.Forall2
import Mathlib.Data.Option.Basic

/-!
# Messages whose maps yield their entries in another order

Nothing but a visit of its entries tells two such messages apart: what is read
of them, and serialized, is the same.
-/

namespace Protovalidate

open Recording

/-- Two reads that fail alike, or find nothing or values so related. -/
inductive SameRead {ε α : Type} (r : α → α → Prop) :
    Except ε (Option α) → Except ε (Option α) → Prop
  | error (e : ε) : SameRead r (.error e) (.error e)
  | none : SameRead r (.ok none) (.ok none)
  | some {a b : α} : r a b → SameRead r (.ok (some a)) (.ok (some b))

/-- Entries with the same keys, and values so related. -/
inductive SameEntries {κ α : Type} (r : α → α → Prop) : List (κ × α) → List (κ × α) → Prop
  | nil : SameEntries r [] []
  | cons {a b : α} {rest rest' : List (κ × α)} (k : κ) : r a b → SameEntries r rest rest' →
    SameEntries r ((k, a) :: rest) ((k, b) :: rest')

/-- The same value, where each map in it yields its entries in any order. -/
inductive Reordered {R : Runtime} : Val R → Val R → Prop
  | atom (a : Atom) : Reordered (.atom a) (.atom a)
  | message {m m' : Message R} : m'.has = m.has → m'.encode = m.encode →
    (∀ field, SameRead Reordered (m.get field) (m'.get field)) →
    Reordered (.message m) (.message m')
  | list {l l' : ListView R} : l'.len = l.len →
    (∀ index, SameRead Reordered (l.get index) (l'.get index)) → Reordered (.list l) (.list l')
  | map {m m' : MapView R} {entries : List (Atom × Val R)} : m'.len = m.len →
    m'.fault = m.fault →
    SameEntries Reordered m.entries entries → entries.Perm m'.entries →
    Reordered (.map m) (.map m')

namespace Reordered
variable {R : Runtime} {v v' : Val R} {m m' : Message R} {l l' : ListView R}
  {value value' : Option (Val R)}

/-- What is read of messages, lists and maps alike is read of any two values
alike. -/
theorem reads {α : Type} (f : Option (Val R) → α)
    (message : ∀ {m m' : Message R}, Reordered (.message m) (.message m') →
      f (some (.message m')) = f (some (.message m)))
    (list : ∀ {l l' : ListView R}, Reordered (.list l) (.list l') →
      f (some (.list l')) = f (some (.list l)))
    (map : ∀ {m m' : MapView R}, Reordered (.map m) (.map m') →
      f (some (.map m')) = f (some (.map m)))
    (same : Option.Rel Reordered value value') : f value' = f value := by
  cases same with
  | none => rfl
  | @some v v' related =>
    cases v <;> cases v'
    case atom.atom =>
      cases related
      rfl
    case message.message => exact message related
    case list.list => exact list related
    case map.map => exact map related
    all_goals cases related

theorem isSet (same : Option.Rel Reordered value value') :
    Protovalidate.isSet value' = Protovalidate.isSet value := by
  refine reads Protovalidate.isSet (fun _ => rfl) (fun related => ?_) (fun related => ?_) same
  · cases related with
    | list len _ => simp only [Protovalidate.isSet, len]
  · cases related with
    | map len _ _ _ => simp only [Protovalidate.isSet, len]

theorem isEmptyItem (related : Reordered v v') :
    Protovalidate.isEmptyItem v' = Protovalidate.isEmptyItem v := by
  cases related with
  | message _ encode _ => simp only [Protovalidate.isEmptyItem, encode]
  | atom _ | list _ _ | map _ _ _ _ => rfl

theorem skips (related : Reordered v v') (items : ItemValidator R) :
    items.skips v' = items.skips v := by
  unfold ItemValidator.skips
  rw [isEmptyItem related]

theorem uniqueKey (related : Reordered v v') :
    Protovalidate.uniqueKey v' = Protovalidate.uniqueKey v := by
  cases related <;> rfl

/-- A message is asked the same, and of its fields yields the same. -/
theorem get (related : Reordered (.message m) (.message m')) (field : Field R) :
    SameRead Reordered (m.get field) (m'.get field) := by
  cases related with
  | message _ _ get => exact get field

/-- What is done with a field read from a message. -/
theorem read_field {α : Type} {f : Option (Val R) → Except R.Error α}
    (alike : ∀ {found found'}, Option.Rel Reordered found found' → f found' = f found)
    (related : Reordered (.message m) (.message m')) (field : Field R) :
    (m'.get field >>= f) = (m.get field >>= f) := by
  have read := related.get field
  generalize m.get field = found at read
  generalize m'.get field = found' at read
  cases read with
  | error e => rfl
  | none => rfl
  | some held => exact alike (.some held)

theorem has (related : Reordered (.message m) (.message m')) (field : Field R) :
    Protovalidate.has m' field = Protovalidate.has m field := by
  have read := read_field isSet related field
  cases related with
  | message has _ _ =>
    unfold Protovalidate.has
    rw [has]
    split
    · rfl
    · exact read

theorem wellKnownInt (related : Reordered (.message m) (.message m')) (field : Field R) :
    Protovalidate.wellKnownInt m' field = Protovalidate.wellKnownInt m field :=
  read_field (fun held => reads _ (fun _ => rfl) (fun _ => rfl) (fun _ => rfl) held) related field

section Atoms
variable (same : Option.Rel Reordered value value')
include same

theorem boolOf : Protovalidate.boolOf value' = Protovalidate.boolOf value :=
  reads _ (fun _ => rfl) (fun _ => rfl) (fun _ => rfl) same

theorem intOf : Protovalidate.intOf value' = Protovalidate.intOf value :=
  reads _ (fun _ => rfl) (fun _ => rfl) (fun _ => rfl) same

theorem uintOf : Protovalidate.uintOf value' = Protovalidate.uintOf value :=
  reads _ (fun _ => rfl) (fun _ => rfl) (fun _ => rfl) same

theorem doubleOf : Protovalidate.doubleOf value' = Protovalidate.doubleOf value :=
  reads _ (fun _ => rfl) (fun _ => rfl) (fun _ => rfl) same

theorem enumOf : Protovalidate.enumOf value' = Protovalidate.enumOf value :=
  reads _ (fun _ => rfl) (fun _ => rfl) (fun _ => rfl) same

theorem strOf : Protovalidate.strOf value' = Protovalidate.strOf value :=
  reads _ (fun _ => rfl) (fun _ => rfl) (fun _ => rfl) same

theorem bytesOf : Protovalidate.bytesOf value' = Protovalidate.bytesOf value :=
  reads _ (fun _ => rfl) (fun _ => rfl) (fun _ => rfl) same

theorem celScalar (kind : Singular) :
    Protovalidate.celScalar value' kind = Protovalidate.celScalar value kind :=
  reads (Protovalidate.celScalar · kind) (fun _ => rfl) (fun _ => rfl) (fun _ => rfl) same

theorem nanosOf : Protovalidate.nanosOf value' = Protovalidate.nanosOf value := by
  refine reads _ (fun related => ?_) (fun _ => rfl) (fun _ => rfl) same
  simp only [Protovalidate.nanosOf, wellKnownInt related]

end Atoms

/-- The strings of a list, which are what the list itself yields. -/
theorem stringItems (related : Reordered (.list l) (.list l')) :
    Protovalidate.stringItems l' = Protovalidate.stringItems l := by
  cases related with
  | list len get =>
    unfold Protovalidate.stringItems
    rw [len]
    congr 1
    funext len
    congr 1
    funext paths index
    have read := get index
    generalize l.get index = found at read
    generalize l'.get index = found' at read
    cases read with
    | error e => rfl
    | none => rfl
    | some related => cases related <;> rfl

theorem pathsOf (same : Option.Rel Reordered value value') :
    Protovalidate.pathsOf value' = Protovalidate.pathsOf value := by
  refine reads _ (fun related => ?_) (fun _ => rfl) (fun _ => rfl) same
  simp only [Protovalidate.pathsOf]
  congr 1
  exact read_field (fun held => reads _ (fun _ => rfl) stringItems (fun _ => rfl) held) related _

theorem typeUrlOf (same : Option.Rel Reordered value value') :
    Protovalidate.typeUrlOf value' = Protovalidate.typeUrlOf value := by
  refine reads _ (fun related => ?_) (fun _ => rfl) (fun _ => rfl) same
  simp only [Protovalidate.typeUrlOf]
  congr 1
  exact read_field (fun held => reads _ (fun _ => rfl) (fun _ => rfl) (fun _ => rfl) held) related _

/-- Two lists of elements read with the same failure, or alike. -/
inductive SameItems :
    Except R.Error (List (Val R)) → Except R.Error (List (Val R)) → Prop
  | error (e : R.Error) : SameItems (.error e) (.error e)
  | ok {items items' : List (Val R)} : List.Forall₂ Reordered items items' →
    SameItems (.ok items) (.ok items')

theorem foldlM_sameItems {f f' : List (Val R) → Nat → Except R.Error (List (Val R))}
    (step : ∀ index items items', List.Forall₂ Reordered items items' →
      SameItems (f items index) (f' items' index)) (indices : List Nat)
    {items items' : List (Val R)} (alike : List.Forall₂ Reordered items items') :
    SameItems (indices.foldlM f items) (indices.foldlM f' items') := by
  induction indices generalizing items items' with
  | nil => exact .ok alike
  | cons index indices ih =>
    rw [List.foldlM_cons, List.foldlM_cons]
    have first := step index items items' alike
    generalize f items index = made at first
    generalize f' items' index = made' at first
    cases first with
    | error e => exact .error e
    | ok next => exact ih next

theorem listItems (related : Reordered (.list l) (.list l')) (len : Nat) :
    SameItems (Protovalidate.listItems l len) (Protovalidate.listItems l' len) := by
  cases related with
  | list _ get =>
    refine foldlM_sameItems (fun index items items' alike => ?_) (List.range len) .nil
    have read := get index
    generalize l.get index = found at read
    generalize l'.get index = found' at read
    cases read with
    | error e => exact .error e
    | none => exact .ok alike
    | some held => exact .ok (List.rel_append alike (.cons held .nil))

/-- What two lists alike yield for each element. -/
theorem forall₂_map {α : Type} {f : Val R → α}
    (each : ∀ {v v'}, Reordered v v' → f v' = f v) {items items' : List (Val R)}
    (alike : List.Forall₂ Reordered items items') : items'.map f = items.map f := by
  induction alike with
  | nil => rfl
  | cons related _ ih => rw [List.map_cons, List.map_cons, each related, ih]

/-- Elements read one after the other, where each yields the same. -/
theorem forall₂_mapM {α β ε : Type} {f : Val R → Except ε β} {g : β → α}
    (each : ∀ {v v'}, Reordered v v' → (f v').map g = (f v).map g) {items items' : List (Val R)}
    (alike : List.Forall₂ Reordered items items') :
    (items'.mapM f).map (List.map g) = (items.mapM f).map (List.map g) := by
  induction alike with
  | nil => rfl
  | @cons v v' items items' related _ ih =>
    have first := each related
    rw [List.mapM_cons, List.mapM_cons]
    cases made : f v with
    | error e =>
      rw [made] at first
      cases made' : f v' with
      | error e' =>
        rw [made'] at first
        cases first
        rfl
      | ok b' =>
        rw [made'] at first
        cases first
    | ok b =>
      rw [made] at first
      cases made' : f v' with
      | error e' =>
        rw [made'] at first
        cases first
      | ok b' =>
        rw [made'] at first
        have same : g b' = g b := Except.ok.inj first
        cases rest : items.mapM f <;> cases rest' : items'.mapM f <;> rw [rest, rest'] at ih
        · cases ih
          rfl
        · cases ih
        · cases ih
        · have later := Except.ok.inj ih
          simp [bind, Except.bind, pure, Except.pure, Except.map, same, later]

/-- The scalar in a wrapper is the same one. -/
theorem unboxed (wrapper : Field R) (related : Reordered v v') :
    (Protovalidate.unboxed wrapper v').map (fun value => value.bind Protovalidate.uniqueKey) =
      (Protovalidate.unboxed wrapper v).map fun value => value.bind Protovalidate.uniqueKey := by
  cases related with
  | message _ _ get =>
    have read := get wrapper
    simp only [Protovalidate.unboxed]
    generalize Message.get _ wrapper = found at read
    generalize Message.get _ wrapper = found' at read
    cases read with
    | error e => rfl
    | none => rfl
    | some held => simp [readResult, Except.mapError, Except.map, uniqueKey held]
  | atom a => rfl
  | list _ _ => rfl
  | map _ _ _ _ => rfl

theorem hasDuplicateItems (related : Reordered (.list l) (.list l')) (len : Nat)
    (wrapper : Option (Field R)) :
    Protovalidate.hasDuplicateItems l' len wrapper =
      Protovalidate.hasDuplicateItems l len wrapper := by
  have read := listItems related len
  unfold Protovalidate.hasDuplicateItems
  generalize Protovalidate.listItems l len = found at read
  generalize Protovalidate.listItems l' len = found' at read
  cases read with
  | error e => rfl
  | ok alike =>
    cases wrapper with
    | none =>
      have keys := forall₂_map uniqueKey alike
      simp [readResult, Except.mapError, bind, Except.bind, keys]
    | some wrapper =>
      rename_i items items'
      have keys := forall₂_mapM (unboxed wrapper) alike
      simp only [readResult, Except.mapError, bind, Except.bind]
      cases made : items.mapM (Protovalidate.unboxed wrapper) <;>
        cases made' : items'.mapM (Protovalidate.unboxed wrapper) <;> rw [made, made'] at keys
      · cases keys
        rfl
      · cases keys
      · cases keys
      · have same := Except.ok.inj keys
        simp only [same]

end Reordered

section Rules
variable {R : Runtime} (walk : Walk R) {value value' : Option (Val R)}

/-- Frames of one type, whose messages are serialized alike. -/
structure SameFrame (frame frame' : CelFrame R) : Prop where
  typeName : frame'.typeName = frame.typeName
  encode : frame'.message.encode = frame.message.encode

theorem SameFrame.parsed {frame frame' : CelFrame R} (same : SameFrame frame frame') :
    frame'.parsed walk = frame.parsed walk := by
  unfold CelFrame.parsed
  rw [same.typeName, same.encode]

theorem Reordered.frame {m m' : Message R} (related : Reordered (.message m) (.message m'))
    (typeName : String) : SameFrame ⟨typeName, m⟩ ⟨typeName, m'⟩ := by
  cases related with
  | message _ encode _ => exact ⟨rfl, encode⟩

inductive SameBind : CelBind R → CelBind R → Prop
  | field {frame frame' : CelFrame R} (field : Field R) : SameFrame frame frame' →
    SameBind (.field frame field) (.field frame' field)
  | item (kind : Singular) : SameBind (.item kind) (.item kind)

section Value
variable (same : Option.Rel Reordered value value') {bind bind' : CelBind R}
  (bound : SameBind bind bind') {child child' : Option (CelFrame R)}
  (nested : Option.Rel SameFrame child child')
include same

section Bound
include bound nested

theorem Reordered.celThis :
    Protovalidate.celThis walk value' bind' child' =
      Protovalidate.celThis walk value bind child := by
  cases bound with
  | field field frame =>
    simp only [Protovalidate.celThis, Reordered.celScalar same, frame.parsed walk]
  | item kind =>
    cases nested with
    | none => simp only [Protovalidate.celThis, Reordered.celScalar same]
    | some child => simp only [Protovalidate.celThis, Reordered.celScalar same, child.parsed walk]

theorem Reordered.runPrograms (programs : Option CelPrograms) :
    (Protovalidate.runPrograms walk programs value' bind' child' : SpecM R.Error Unit) =
      Protovalidate.runPrograms walk programs value bind child := by
  unfold Protovalidate.runPrograms
  rw [Reordered.celThis walk same bound nested]

end Bound

/-- The checks see no difference, of any kind. -/
theorem Reordered.checkValue (checks : Checks) (wrapper : Option (Field R)) :
    (checks.checkValue walk value' wrapper : SpecM R.Error Unit) =
      checks.checkValue walk value wrapper := by
  cases checks with
  | none => rfl
  | bool checks => simp only [Checks.checkValue, Reordered.boolOf same]
  | int checks => simp only [Checks.checkValue, Reordered.intOf same]
  | uint checks => simp only [Checks.checkValue, Reordered.uintOf same]
  | double checks => simp only [Checks.checkValue, Reordered.doubleOf same]
  | string checks => simp only [Checks.checkValue, Reordered.strOf same]
  | bytes checks => simp only [Checks.checkValue, Reordered.bytesOf same]
  | enum checks => simp only [Checks.checkValue, Reordered.enumOf same]
  | duration checks => simp only [Checks.checkValue, Reordered.nanosOf same]
  | timestamp checks => simp only [Checks.checkValue, Reordered.nanosOf same]
  | fieldMask checks => simp only [Checks.checkValue, Reordered.pathsOf same]
  | any checks => simp only [Checks.checkValue, Reordered.typeUrlOf same]
  | list checks =>
    refine Reordered.reads (fun value => (Checks.list checks).checkValue walk value wrapper)
      (fun _ => rfl) (fun related => ?_) (fun _ => rfl) same
    cases related with
    | list len get =>
      have items := Reordered.hasDuplicateItems (.list len get)
      simp only [Checks.checkValue, orAbort, pure_bind, len, items]
  | map checks =>
    refine Reordered.reads (fun value => (Checks.map checks).checkValue walk value wrapper)
      (fun _ => rfl) (fun _ => rfl) (fun related => ?_) same
    cases related with
    | map len _ _ _ => simp only [Checks.checkValue, len]

theorem Reordered.check (checks : Checks) (wrapper : Option (Field R)) :
    (checks.check walk value' wrapper : SpecM R.Error Unit) = checks.check walk value wrapper := by
  cases wrapper with
  | none => exact Reordered.checkValue walk same checks none
  | some wrapper =>
    cases same with
    | none => rfl
    | some related =>
      cases related with
      | atom a => rfl
      | message has encode get =>
        have read := get wrapper
        simp only [Checks.check]
        generalize Message.get _ wrapper = found at read
        generalize Message.get _ wrapper = found' at read
        cases read with
        | error e => rfl
        | none => rfl
        | some held =>
          simp only [Protovalidate.read, readResult, Except.mapError, orAbort, pure_bind]
          exact Reordered.checkValue walk (.some held) checks none
      | list len get => exact Reordered.checkValue walk (.some (.list len get)) checks _
      | map _ _ _ _ => rfl

include bound nested in
/-- The rules of a value see no difference. -/
theorem Reordered.runRules (validator : ValueValidator R) :
    (validator.runRules walk bind' child' value' : SpecM R.Error Unit) =
      validator.runRules walk bind child value := by
  unfold ValueValidator.runRules
  rw [Reordered.check walk same, Reordered.runPrograms walk same bound nested,
    Reordered.runPrograms walk same bound nested]

end Value

section Message
variable {m m' : Message R} (related : Reordered (.message m) (.message m'))
include related

theorem Reordered.messageOneof (oneof : MessageOneof R) :
    (oneof.check m' : SpecM R.Error Unit) = oneof.check m := by
  unfold MessageOneof.check
  simp only [related.has]

theorem Reordered.oneofRequired (oneof : OneofRequired R) :
    (oneof.check m' : SpecM R.Error Unit) = oneof.check m := by
  have any : Protovalidate.has m' = Protovalidate.has m := funext related.has
  unfold OneofRequired.check
  rw [any]

/-- The rules of a message see no difference. -/
theorem Reordered.messageRules {frame frame' : CelFrame R} (same : SameFrame frame frame')
    (validator : MessageValidator R) :
    (validator.runRules walk frame' m' : SpecM R.Error Unit) =
      validator.runRules walk frame m := by
  unfold MessageValidator.runRules runMessagePrograms
  simp only [same.parsed walk, related.messageOneof, related.oneofRequired]

theorem Reordered.isSetField {value value' : Option (Val R)}
    (same : Option.Rel Reordered value value') (validator : FieldValidator R) :
    validator.isSet m' value' = validator.isSet m value := by
  unfold FieldValidator.isSet
  rw [Reordered.isSet same]
  cases related with
  | message has _ _ => rw [has]

end Message

end Rules

end Protovalidate
