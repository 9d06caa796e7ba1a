import Protovalidate.Typed

/-!
# Items with a zero value

`IGNORE_IF_ZERO_VALUE` skips the items that are the zero value of their type. An
item is compared without its type, so for an enum the zero value is taken to be
0, where `Ignore` documents the first value that is defined.
-/

namespace Protovalidate

open Recording

/-- The number of the first value of an enum. -/
def SingularKind.first (pool : DescriptorPool) : SingularKind → Option Int
  | .enum index => (pool.enumeration index).numbers.head?
  | _ => none

section Zero
variable {R : Runtime}

/-- Whether a scalar or an enum is the zero value of its type, given the number
of the first value of the enum. -/
def zeroValue (first : Option Int) : Val R → Bool
  | .bool b => !b
  | .int i => i == 0
  | .uint u => u == 0
  | .double f => f.isZero
  | .enum e => first == some e
  | .string s => s == ""
  | .bytes b => b.isEmpty
  | .message _ | .list _ | .map _ => false

/-- Whether 0 is the zero value of an item exactly if the first value is. Only
an enum whose first value is another one has items that differ. -/
def ZeroAgrees (first : Option Int) (v : Val R) : Prop :=
  ∀ e, v = .enum e → (e = 0 ↔ first = some e)

/-- An item of a list that a walk reads. -/
def ListView.Reads (l : ListView R) (index : Nat) (v : Val R) : Prop :=
  (∃ len, l.len = .ok len ∧ index < len) ∧ (∀ i < index, ∃ found, l.get i = .ok found) ∧
    l.get index = .ok (some v)

namespace Spec
variable (walk : Walk R) (zero : Val R → Bool)

/-- What an item breaks, unless it is to be skipped. -/
def unlessZero (items : ItemValidator R) (v : Val R) (broken : SpecM R.Error Unit) :
    SpecM R.Error Unit :=
  if items.ignoreEmpty && zero v then pure () else broken

/-- What one element of a list breaks. -/
def nonZeroItem (items : ItemValidator R) (container : FieldPathElement) (kind : Singular)
    (index : Nat) : Except R.Error (Option (Val R)) → SpecM R.Error Unit
  | .error e => abort (.read e)
  | .ok none => pure ()
  | .ok (some v) =>
    unlessZero zero items v <|
      within (container.withSubscript (some (.index index))) (value walk items.value (.item kind) v)

/-- What the elements of a list that are not zero break, each at its index. -/
def nonZeroItems (items : ItemValidator R) (container : FieldPathElement) (kind : Singular)
    (l : ListView R) : SpecM R.Error Unit := do
  let len ← read l.len
  (List.range len).forM fun index =>
    nonZeroItem walk zero items container kind index (l.get index)

/-- What the key of an entry breaks. It is a scalar. -/
def nonZeroKey (entries : Entries R) (k : Atom) : SpecM R.Error Unit :=
  match entries.keys with
  | none => pure ()
  | some keys =>
    unlessZero (zeroValue none) keys (.atom k) <|
      SpecM.forKey (keys.value.runRules walk (.item entries.key) none (some (.atom k)))

/-- What one entry of a map breaks. -/
def nonZeroEntry (entries : Entries R) (entry : Atom × Val R) : SpecM R.Error Unit := do
  nonZeroKey walk entries entry.1
  match entries.values with
  | none => pure ()
  | some values =>
    unlessZero zero values entry.2 (value walk values.value (.item entries.value) entry.2)

/-- What the keys and values of a map that are not zero break, each at its key. -/
def nonZeroEntries (entries : Entries R) (container : FieldPathElement) (m : MapView R) :
    SpecM R.Error Unit := do
  m.entries.forM fun entry =>
    within (container.withSubscript (keySubscript entry.1)) (nonZeroEntry walk zero entries entry)
  match m.fault with
  | some e => abort (.read e)
  | none => pure ()

variable {walk zero} {pool : DescriptorPool} {type : SingularKind}

/-- An item that is neither a message nor a container is compared with its
value's zero, and an enum with 0. -/
theorem skips_zero {items : ItemValidator R} {v : Val R}
    (typed : Typed pool (.singular type) v) (plain : ∀ index, type ≠ .message index) :
    items.skips v = .ok (items.ignoreEmpty && zeroValue (some 0) v) := by
  have empty : isEmptyItem v = .ok (zeroValue (some 0) v) := by
    cases typed with
    | @scalar s a same => cases a <;> simp [isEmptyItem, zeroValue, eq_comm]
    | enum => simp [isEmptyItem, zeroValue, eq_comm]
    | message => exact absurd rfl (plain _)
  unfold ItemValidator.skips
  cases items.ignoreEmpty with
  | true => exact empty
  | false => rfl

theorem item_nonZero {items : ItemValidator R} (container : FieldPathElement) (kind : Singular)
    (index : Nat) {found : Except R.Error (Option (Val R))}
    (typed : ∀ v, found = .ok (some v) → Typed pool (.singular type) v)
    (plain : ∀ index, type ≠ .message index) :
    item walk items container kind index found =
      nonZeroItem walk (zeroValue (some 0)) items container kind index found := by
  cases found with
  | error e => rfl
  | ok found =>
    cases found with
    | none => rfl
    | some v =>
      rw [item, skips_zero (typed v rfl) plain]
      rfl

theorem nonZeroItems_eq {l : ListView R} {len : Nat} (items : ItemValidator R)
    (container : FieldPathElement) (kind : Singular) (counted : l.len = .ok len)
    (at_ : Position) :
    nonZeroItems walk zero items container kind l at_ =
      (List.range len).forM fun i =>
        nonZeroItem walk zero items container kind i (l.get i) at_ := by
  rw [nonZeroItems, read_ok counted, forM_at]

/-- A list is the same under two zeros that agree on the items that are read. -/
theorem nonZeroItems_congr {zero' : Val R → Bool} {l : ListView R}
    (agree : ∀ index v, l.Reads index v → zero v = zero' v) (items : ItemValidator R)
    (container : FieldPathElement) (kind : Singular) (at_ : Position) :
    nonZeroItems walk zero items container kind l at_ =
      nonZeroItems walk zero' items container kind l at_ := by
  cases counted : l.len with
  | error e => simp only [nonZeroItems, SpecM.bind_apply, read_at, counted]; rfl
  | ok len =>
    rw [nonZeroItems_eq items container kind counted, nonZeroItems_eq items container kind counted]
    refine Emit.forM_congr fun before index after split ended => ?_
    obtain ⟨rfl, within⟩ := range_split split
    have earlier : ∀ i < index, ∃ found, l.get i = .ok found := by
      intro i less
      have ended := Emit.forM_ended.mp ended i (List.mem_range.mpr less)
      cases found : l.get i with
      | error e => rw [found] at ended; cases ended
      | ok held => exact ⟨held, rfl⟩
    cases found : l.get index with
    | error e => rfl
    | ok held =>
      cases held with
      | none => rfl
      | some v =>
        simp only [nonZeroItem, unlessZero, agree index v ⟨⟨len, counted, within⟩, earlier, found⟩]

/-- Rules that only one number of an enum breaks. -/
def singling (e : Int) : ItemValidator R where
  ignoreEmpty := true
  value := { checks := .enum [⟨"", "", [], .cmp (.notIn [e])⟩] }

theorem value_singling (e e' : Int) (bind : CelBind R) (at_ : Position) :
    value walk (singling e).value bind (.enum e') at_ =
      if e = e' then Emit.report ((⟨"", "", []⟩ : Failure).violation at_.path at_.forKey)
      else pure () := by
  have test : (EnumTest.cmp (.notIn [e])).fails
      (fun index => (walk.pool.enumeration index).hasValue) e' = .ok (decide (e = e') || false) :=
    rfl
  have checked : value walk (singling e).value bind (.enum e') at_ =
      (pure () >>= fun _ => ((evaluate ((EnumTest.cmp (.notIn [e])).fails
        (fun index => (walk.pool.enumeration index).hasValue) e') >>= fun broken =>
          pushIf broken "" "" []) >>= fun _ => pure ()) >>= fun _ => pure () :
        SpecM R.Error Unit) at_ := by
    rfl
  rw [checked, test]
  by_cases same : e = e'
  · simp [pushIf, same]
    rfl
  · simp [pushIf, same]
    rfl

theorem unlessZero_singling (e number : Int) (bind : CelBind R) (at_ : Position) :
    unlessZero zero (singling e) (.enum number)
        (value walk (singling e).value bind (.enum number)) at_ =
      if zero (.enum number) = false ∧ e = number then
        Emit.report ((⟨"", "", []⟩ : Failure).violation at_.path at_.forKey)
      else pure () := by
  have ignores : (singling e : ItemValidator R).ignoreEmpty = true := rfl
  cases skipped : zero (.enum number) with
  | true =>
    simp only [unlessZero, ignores, skipped, Bool.true_and, if_true]
    rfl
  | false =>
    simp only [unlessZero, skipped, Bool.and_false, Bool.false_eq_true, if_false, true_and]
    exact value_singling e number bind at_

theorem item_singling (e number : Int) (container : FieldPathElement) (kind : Singular)
    (index : Nat) (at_ : Position) :
    nonZeroItem walk zero (singling e) container kind index (.ok (some (.enum number))) at_ =
      if zero (.enum number) = false ∧ e = number then
        Emit.report ((⟨"", "", []⟩ : Failure).violation
          (at_.path ++ [container.withSubscript (some (.index index))]) at_.forKey)
      else pure () := by
  rw [← unlessZero_singling e number (.item kind) ⟨_, at_.forKey⟩]
  simp only [nonZeroItem, unlessZero]
  split <;> rfl

section Enums
variable {l : ListView R} {e : Int} (container : FieldPathElement) (kind : Singular)
  (enums : ∀ i v, l.get i = .ok (some v) → ∃ number, v = .enum number) (at_ : Position)
include enums

/-- Rules that one number breaks report nothing of a list where it is zero. -/
theorem nonZeroItems_silent (skipped : zero (.enum e) = true) :
    (nonZeroItems walk zero (singling e) container kind l at_).out = [] := by
  cases counted : l.len with
  | error r => simp only [nonZeroItems, SpecM.bind_apply, read_at, counted]; rfl
  | ok len =>
    rw [nonZeroItems_eq _ _ _ counted, List.eq_nil_iff_forall_not_mem]
    refine (Emit.Outcome.forM (P := fun _ => False) (Q := fun _ => True)
      fun before index after _ _ => ?_).reported
    cases found : l.get index with
    | error r => exact Emit.Outcome.fail trivial
    | ok held =>
      cases held with
      | none => exact Emit.Outcome.pure _
      | some v =>
        obtain ⟨number, rfl⟩ := enums index v found
        have silent : ¬(zero (.enum number) = false ∧ e = number) := by
          rintro ⟨kept, rfl⟩
          rw [skipped] at kept
          cases kept
        rw [item_singling, if_neg silent]
        exact Emit.Outcome.pure _

/-- They report an item that has it where it is not zero. -/
theorem nonZeroItems_reports (kept : zero (.enum e) = false) {index : Nat}
    (reads : l.Reads index (.enum e)) :
    (nonZeroItems walk zero (singling e) container kind l at_).out ≠ [] := by
  obtain ⟨⟨len, counted, within⟩, earlier, found⟩ := reads
  rw [nonZeroItems_eq _ _ _ counted]
  obtain ⟨before, after, split⟩ := List.append_of_mem (List.mem_range.mpr within)
  obtain ⟨rfl, -⟩ := range_split split
  have ended : ((List.range index).forM fun i =>
      nonZeroItem walk zero (singling e) container kind i (l.get i) at_).result = .ok () := by
    rw [Emit.forM_ended]
    intro i less
    obtain ⟨held, found⟩ := earlier i (List.mem_range.mp less)
    rw [found]
    cases held with
    | none => rfl
    | some v =>
      obtain ⟨number, rfl⟩ := enums i v found
      rw [item_singling]
      split <;> rfl
  have part : Emit.PartOf (nonZeroItem walk zero (singling e) container kind index (l.get index)
      at_) ((List.range len).forM fun i =>
        nonZeroItem walk zero (singling e) container kind i (l.get i) at_) := by
    rw [split]
    exact Emit.PartOf.forM ended
  intro silent
  have reported := part.reported
  rw [silent, found, item_singling, if_pos ⟨kept, rfl⟩] at reported
  cases reported _ List.mem_cons_self

end Enums

theorem zeroValue_enum (first : Option Int) (e : Int) :
    zeroValue first (.enum e : Val R) = true ↔ first = some e := by
  simp [zeroValue]

/-- The first value decides as 0 does, exactly if no enum is taken for another. -/
theorem zeroValue_agrees (first : Option Int) (v : Val R) :
    zeroValue (some 0) v = zeroValue first v ↔ ZeroAgrees first v := by
  cases v with
  | atom a =>
    cases a with
    | enum e =>
      rw [Bool.eq_iff_iff, zeroValue_enum, zeroValue_enum]
      constructor
      · intro same e' held
        cases held
        simpa [eq_comm] using same
      · intro agrees
        simpa [eq_comm] using agrees e rfl
    | _ => exact ⟨fun _ _ held => (by cases held), fun _ => rfl⟩
  | _ => exact ⟨fun _ _ held => (by cases held), fun _ => rfl⟩

/-- A type with an enum among its values has nothing else. -/
theorem typed_enums {e : Int} (one : Typed pool (.singular type) (.enum e : Val R)) {v : Val R}
    (typed : Typed pool (.singular type) v) : ∃ number, v = .enum number := by
  cases one with
  | @scalar s _ same => cases s <;> cases same
  | enum =>
    cases typed with
    | enum => exact ⟨_, rfl⟩

/-- Two specifications of a step of the walk are the same. -/
theorem simulated_iff {ε : Type} {w : WalkM ε Unit} {s s' : SpecM ε Unit}
    (own : ∀ failFast, (simulation ε failFast false).Rel w s) :
    (∀ failFast, (simulation ε failFast false).Rel w s') ↔
      ∀ path, s ⟨path, false⟩ = s' ⟨path, false⟩ := by
  constructor
  · intro also path
    have resolved : (path.map fun e => (⟨e, e.subscript⟩ : PathElement)).map PathElement.resolve =
        path := by
      simp [Function.comp_def, PathElement.resolve]
    have ends := (own false (path.map fun e => ⟨e, e.subscript⟩) []).symm.trans
      (also false (path.map fun e => ⟨e, e.subscript⟩) [])
    simp only [resolved, observed, Emit.cut_false, List.nil_append, Prod.mk.injEq,
      Violations.mk.injEq, true_and] at ends
    refine Emit.ext ends.2 ?_
    have same := ends.1
    cases first : (s ⟨path, false⟩).result <;> cases second : (s' ⟨path, false⟩).result <;>
      simp [first, second, Except.mapError] at same
    · rw [same]
    · rfl
  · intro same failFast path
    rw [← same]
    exact own failFast path

/-- The specification of a list is about the items that are not zero, 0 being the
zero of every enum. -/
theorem list_nonZero {l : ListView R}
    (items_typed : ∀ i v, l.get i = .ok (some v) → Typed walk.pool (.singular type) v)
    (plain : ∀ index, type ≠ .message index) (items : ItemValidator R)
    (container : FieldPathElement) (at_ : Position) :
    list walk items container (singularOf type) l at_ =
      nonZeroItems walk (zeroValue (some 0)) items container (singularOf type) l at_ := by
  cases counted : l.len with
  | error e =>
    obtain ⟨len, get⟩ := l
    obtain rfl : len = .error e := counted
    rfl
  | ok len =>
    rw [list_eq walk _ _ _ counted, nonZeroItems_eq _ _ _ counted]
    refine Emit.forM_congr fun before index after _ _ => ?_
    rw [item_nonZero _ _ _ (items_typed index) plain]

/-- Where a number is reported exactly if it is not zero, two readings of zero that
report the same agree on it. -/
theorem same_zero {one other : Bool} {out out' : List Violation}
    (silent : one = true → out = []) (reports : one = false → out ≠ [])
    (silent' : other = true → out' = []) (reports' : other = false → out' ≠ [])
    (same : out = out') : one = other := by
  cases one with
  | false =>
    cases other with
    | false => rfl
    | true => exact absurd (same.trans (silent' rfl)) (reports rfl)
  | true =>
    cases other with
    | false => exact absurd (same.symm.trans (silent rfl)) (reports' rfl)
    | true => rfl

/-- The items of a list that are not zero as documented are reported on, whatever
the rules, exactly if no item that is read is taken for another. -/
theorem list_nonZero_iff {l : ListView R} (typed : Typed walk.pool (.list type) (.list l))
    (plain : ∀ index, type ≠ .message index) (container : FieldPathElement) :
    (∀ failFast items, (simulation R.Error failFast false).Rel
      (within container (items.validateList walk (singularOf type) l))
      (nonZeroItems walk (zeroValue (type.first walk.pool)) items container (singularOf type)
        l)) ↔
    ∀ index v, l.Reads index v → ZeroAgrees (type.first walk.pool) v := by
  have items_typed : ∀ i v, l.get i = .ok (some v) → Typed walk.pool (.singular type) v := by
    cases typed with
    | list items => exact items
  have own : ∀ items at_, list walk items container (singularOf type) l at_ =
      nonZeroItems walk (zeroValue (some 0)) items container (singularOf type) l at_ :=
    fun items at_ => list_nonZero items_typed plain items container at_
  have walked : ∀ items failFast, (simulation R.Error failFast false).Rel
      (within container (items.validateList walk (singularOf type) l))
      (list walk items container (singularOf type) l) := fun items failFast =>
    list_simulated walk (fun v _ => value_simulated walk failFast v) items container _
  rw [forall_comm]
  simp only [simulated_iff (walked _), own]
  constructor
  · intro same index v reads e held
    subst held
    have enums : ∀ i v, l.get i = .ok (some v) → ∃ number, v = .enum number :=
      fun i v found => typed_enums (items_typed index _ reads.2.2) (items_typed i v found)
    refine (zeroValue_agrees _ (.enum e : Val R)).mp ?_ e rfl
    exact same_zero (nonZeroItems_silent _ _ enums _)
      (fun kept => nonZeroItems_reports _ _ enums _ kept reads)
      (nonZeroItems_silent _ _ enums _)
      (fun kept => nonZeroItems_reports _ _ enums _ kept reads)
      (congrArg Emit.out (same (singling e) []))
  · intro agree items path
    exact nonZeroItems_congr (fun index v reads => (zeroValue_agrees _ v).mpr (agree index v reads))
      _ _ _ _

theorem entry_nonZero {entries : Entries R} {key : Scalar} {k : Atom} {v : Val R}
    (scalar : k.valueType = key.valueType) (typed : Typed pool (.singular type) v)
    (plain : ∀ index, type ≠ .message index) :
    entry walk entries (k, v) = nonZeroEntry walk (zeroValue (some 0)) entries (k, v) := by
  have keyTyped : Typed pool (.singular (.scalar key)) (.atom k : Val R) := .scalar scalar
  have never : ZeroAgrees none (.atom k : Val R) := by
    intro e held
    cases held
    cases key <;> cases scalar
  have keySkips : ∀ keys : ItemValidator R, keys.skips (.atom k) =
      .ok (keys.ignoreEmpty && zeroValue none (.atom k : Val R)) := by
    intro keys
    rw [skips_zero keyTyped (by simp), (zeroValue_agrees none _).mpr never]
  have skips : ∀ values : ItemValidator R, values.skips v =
      .ok (values.ignoreEmpty && zeroValue (some 0) v) := fun values => skips_zero typed plain
  have keys : Spec.key walk entries k = nonZeroKey walk entries k := by
    unfold Spec.key nonZeroKey
    cases entries.keys with
    | none => rfl
    | some keys =>
      simp only [keySkips]
      rfl
  unfold entry nonZeroEntry
  rw [keys]
  cases entries.values with
  | none => rfl
  | some values =>
    simp only [skips]
    rfl

theorem entry_singling (e number : Int) (keyKind kind : Singular) (k : Atom) (at_ : Position) :
    nonZeroEntry walk zero ⟨keyKind, kind, none, some (singling e)⟩ (k, .enum number) at_ =
      if zero (.enum number) = false ∧ e = number then
        Emit.report ((⟨"", "", []⟩ : Failure).violation at_.path at_.forKey)
      else pure () :=
  unlessZero_singling e number (.item kind) at_

/-- An entry, seen from the map. -/
def entryBroken (walk : Walk R) (zero : Val R → Bool) (entries : Entries R)
    (container : FieldPathElement) (at_ : Position) (entry : Atom × Val R) :
    Emit Violation (Error R.Error) Unit :=
  nonZeroEntry walk zero entries entry
    ⟨at_.path ++ [container.withSubscript (keySubscript entry.1)], at_.forKey⟩

theorem nonZeroEntries_eq (entries : Entries R) (container : FieldPathElement) (m : MapView R)
    (at_ : Position) :
    nonZeroEntries walk zero entries container m at_ =
      m.entries.forM (entryBroken walk zero entries container at_) >>= fun _ =>
        m.fault.elim (pure ()) fun e => Emit.fail (.read e) := by
  rw [nonZeroEntries, SpecM.bind_apply, forM_at]
  congr 1
  funext _
  cases m.fault <;> rfl

section Enums
variable {m : MapView R} {e : Int} (keyKind kind : Singular) (container : FieldPathElement)
  (enums : ∀ k v, (k, v) ∈ m.entries → ∃ number, v = .enum number) (at_ : Position)
include enums

/-- Rules that one number breaks report nothing of a map where it is zero. -/
theorem nonZeroEntries_silent (skipped : zero (.enum e) = true) :
    (nonZeroEntries walk zero ⟨keyKind, kind, none, some (singling e)⟩ container m at_).out =
      [] := by
  rw [nonZeroEntries_eq, List.eq_nil_iff_forall_not_mem]
  refine (Emit.Outcome.bind (P := fun _ => False) (Q := fun _ => True) ?_ fun _ _ => ?_).reported
  · refine Emit.Outcome.forM fun before entry after split _ => ?_
    obtain ⟨k, v⟩ := entry
    have present : (k, v) ∈ m.entries := split ▸ List.mem_append_right _ List.mem_cons_self
    obtain ⟨number, rfl⟩ := enums k v present
    have silent : ¬(zero (.enum number) = false ∧ e = number) := by
      rintro ⟨kept, rfl⟩
      rw [skipped] at kept
      cases kept
    rw [entryBroken, entry_singling, if_neg silent]
    exact Emit.Outcome.pure _
  · cases m.fault with
    | none => exact Emit.Outcome.pure _
    | some r => exact Emit.Outcome.fail trivial

/-- They report an entry that has it where it is not zero. -/
theorem nonZeroEntries_reports (kept : zero (.enum e) = false) {k : Atom}
    (present : (k, .enum e) ∈ m.entries) :
    (nonZeroEntries walk zero ⟨keyKind, kind, none, some (singling e)⟩ container m at_).out ≠
      [] := by
  rw [nonZeroEntries_eq]
  let broken := entryBroken walk zero ⟨keyKind, kind, none, some (singling e)⟩ container at_
  obtain ⟨before, after, split⟩ := List.append_of_mem present
  have ended : (before.forM broken).result = .ok () := by
    rw [Emit.forM_ended]
    rintro ⟨k', v⟩ earlier
    obtain ⟨number, rfl⟩ := enums k' v (split ▸ List.mem_append_left _ earlier)
    simp only [broken, entryBroken, entry_singling]
    split_ifs <;> rfl
  have part : Emit.PartOf (broken (k, .enum e)) (m.entries.forM broken) := by
    rw [split]
    exact Emit.PartOf.forM ended
  have reported := (part.trans (Emit.PartOf.bind_left _ fun _ =>
    m.fault.elim (pure ()) fun e => Emit.fail (.read e))).reported
  intro silent
  simp only [broken] at reported
  rw [silent, entryBroken, entry_singling, if_pos ⟨kept, rfl⟩] at reported
  cases reported _ List.mem_cons_self

end Enums

/-- The specification of a map is about the keys and values that are not zero, 0
being the zero of every enum. -/
theorem map_nonZero {m : MapView R} {key : Scalar}
    (scalars : ∀ k v, (k, v) ∈ m.entries → k.valueType = key.valueType)
    (values_typed : ∀ k v, (k, v) ∈ m.entries → Typed walk.pool (.singular type) v)
    (plain : ∀ index, type ≠ .message index) (keys values : Option (ItemValidator R))
    (container : FieldPathElement) (at_ : Position) :
    Spec.map walk ⟨.scalar key, singularOf type, keys, values⟩ container m at_ =
      nonZeroEntries walk (zeroValue (some 0)) ⟨.scalar key, singularOf type, keys, values⟩
        container m at_ := by
  rw [map_eq, entryList_forM, forM_at, nonZeroEntries_eq]
  have entries : ∀ before entry after, m.entries = before ++ entry :: after →
      (within (container.withSubscript (keySubscript entry.1))
        (Spec.entry walk ⟨.scalar key, singularOf type, keys, values⟩ entry) :
          SpecM R.Error Unit) at_ =
        entryBroken walk (zeroValue (some 0)) ⟨.scalar key, singularOf type, keys, values⟩
          container at_ entry := by
    rintro before ⟨k, v⟩ after split
    have present : (k, v) ∈ m.entries := split ▸ List.mem_append_right _ List.mem_cons_self
    rw [entry_nonZero (scalars k v present) (values_typed k v present) plain]
    rfl
  rw [Emit.forM_congr fun before entry after split _ => entries before entry after split]
  cases m.fault <;> rfl

/-- The keys and values of a map that are not zero as documented are reported
on, whatever the rules, exactly if no value is taken for another. -/
theorem map_nonZero_iff {m : MapView R} {key : Scalar}
    (typed : Typed walk.pool (.map key type) (.map m)) (plain : ∀ index, type ≠ .message index)
    (container : FieldPathElement) :
    (∀ failFast keys values, (simulation R.Error failFast false).Rel
      (within container (validateMap walk ⟨.scalar key, singularOf type, keys, values⟩ m))
      (nonZeroEntries walk (zeroValue (type.first walk.pool))
        ⟨.scalar key, singularOf type, keys, values⟩ container m)) ↔
    ∀ k v, (k, v) ∈ m.entries → ZeroAgrees (type.first walk.pool) v := by
  have scalars : ∀ k v, (k, v) ∈ m.entries → k.valueType = key.valueType := by
    cases typed with
    | map scalars _ => exact scalars
  have values_typed : ∀ k v, (k, v) ∈ m.entries → Typed walk.pool (.singular type) v := by
    cases typed with
    | map _ values => exact values
  have own : ∀ keys values at_,
      Spec.map walk ⟨.scalar key, singularOf type, keys, values⟩ container m at_ =
        nonZeroEntries walk (zeroValue (some 0)) ⟨.scalar key, singularOf type, keys, values⟩
          container m at_ :=
    fun keys values at_ => map_nonZero scalars values_typed plain keys values container at_
  have walked : ∀ keys values failFast, (simulation R.Error failFast false).Rel
      (within container (validateMap walk ⟨.scalar key, singularOf type, keys, values⟩ m))
      (Spec.map walk ⟨.scalar key, singularOf type, keys, values⟩ container m) :=
    fun keys values failFast =>
      map_simulated walk (fun v _ => value_simulated walk failFast v) _ container
  have each : (∀ failFast keys values, (simulation R.Error failFast false).Rel
      (within container (validateMap walk ⟨.scalar key, singularOf type, keys, values⟩ m))
      (nonZeroEntries walk (zeroValue (type.first walk.pool))
        ⟨.scalar key, singularOf type, keys, values⟩ container m)) ↔
      ∀ keys values failFast, (simulation R.Error failFast false).Rel
        (within container (validateMap walk ⟨.scalar key, singularOf type, keys, values⟩ m))
        (nonZeroEntries walk (zeroValue (type.first walk.pool))
          ⟨.scalar key, singularOf type, keys, values⟩ container m) :=
    ⟨fun h keys values failFast => h failFast keys values,
      fun h failFast keys values => h keys values failFast⟩
  rw [each]
  simp only [simulated_iff (walked _ _), own]
  constructor
  · intro same k v present e held
    subst held
    have enums : ∀ k v, (k, v) ∈ m.entries → ∃ number, v = .enum number :=
      fun k' v found => typed_enums (values_typed k _ present) (values_typed k' v found)
    refine (zeroValue_agrees _ (.enum e : Val R)).mp ?_ e rfl
    exact same_zero (nonZeroEntries_silent _ _ _ enums _)
      (fun kept => nonZeroEntries_reports _ _ _ enums _ kept present)
      (nonZeroEntries_silent _ _ _ enums _)
      (fun kept => nonZeroEntries_reports _ _ _ enums _ kept present)
      (congrArg Emit.out (same none (some (singling e)) []))
  · intro agree keys values path
    rw [nonZeroEntries_eq, nonZeroEntries_eq]
    congr 1
    refine Emit.forM_congr fun before entry after split _ => ?_
    obtain ⟨k, v⟩ := entry
    have present : (k, v) ∈ m.entries := split ▸ List.mem_append_right _ List.mem_cons_self
    have same := (zeroValue_agrees (type.first walk.pool) v).mpr (agree k v present)
    simp only [entryBroken, nonZeroEntry, unlessZero, same]

end Spec

/-- Items are skipped as `IGNORE_IF_ZERO_VALUE` asks, and the others are each
reported on at their own index or key, exactly if no item is an enum that is 0
or its type's first value, unless these are the same. -/
theorem zero_items_skipped_iff (walk : Walk R) (type : SingularKind)
    (plain : ∀ index, type ≠ .message index) (container : FieldPathElement) :
    (∀ l, Typed walk.pool (.list type) (.list l) →
      ((∀ failFast items, (simulation R.Error failFast false).Rel
        (within container (items.validateList walk (singularOf type) l))
        (Spec.nonZeroItems walk (zeroValue (type.first walk.pool)) items container
          (singularOf type) l)) ↔
      ∀ index v, l.Reads index v → ZeroAgrees (type.first walk.pool) v)) ∧
    (∀ key m, Typed walk.pool (.map key type) (.map m) →
      ((∀ failFast keys values, (simulation R.Error failFast false).Rel
        (within container (validateMap walk ⟨.scalar key, singularOf type, keys, values⟩ m))
        (Spec.nonZeroEntries walk (zeroValue (type.first walk.pool))
          ⟨.scalar key, singularOf type, keys, values⟩ container m)) ↔
      ∀ k v, (k, v) ∈ m.entries → ZeroAgrees (type.first walk.pool) v)) ∧
    ∀ (builder : Builder R) name rules rulePrefix items,
      BuildM.Builds (builder.buildItem (.item type name) (some rules) rulePrefix) (some items) →
      (items.ignoreEmpty = true ↔ rules.ignore = some .ifZeroValue) := by
  refine ⟨fun l typed => Spec.list_nonZero_iff typed plain container,
    fun key m typed => Spec.map_nonZero_iff typed plain container, ?_⟩
  intro builder name rules rulePrefix items built
  simp only [Builder.buildItem] at built
  split at built
  · rw [BuildM.builds_pure] at built
    cases built
  · obtain ⟨⟨value, rest⟩, made, built⟩ := BuildM.builds_bind.mp built
    rw [BuildM.builds_pure] at built
    cases built
    simp [Target.ignoreEmpty, Target.item]

end Zero

theorem three_allowed : 3 ≤ maxFieldNumber := by decide

theorem sixteen_allowed : 16 ≤ maxFieldNumber := by decide

theorem eighteen_allowed : 18 ≤ maxFieldNumber := by decide

/-- A list of a closed enum without 0, whose items are to be the second value
unless they are zero. -/
def levelsPool : DescriptorPool where
  messages := [
    { fullName := "Levels"
      fields := [plainField 1 "levels" (.list (.enum 0))
        (some ⟨[], [], none, none, some (.repeated ⟨none, none, none,
          some ⟨[], [], none, some .ifZeroValue, some (.enum ⟨none, none, [2], [], [], []⟩)⟩,
          []⟩)⟩) one_allowed]
      oneofs := []
      messageRules := none
      numbersDistinct := List.nodup_singleton _
      namesDistinct := List.nodup_singleton _ },
    { fullName := FIELD_RULES
      fields := [plainField 16 "enum" (.singular (.message 2)) none sixteen_allowed,
        plainField 18 "repeated" (.singular (.message 3)) none eighteen_allowed]
      oneofs := []
      messageRules := none
      numbersDistinct := by simp
      namesDistinct := by simp },
    { fullName := "buf.validate.EnumRules"
      fields := [plainField 3 "in" (.list (.scalar .int32)) none three_allowed]
      oneofs := []
      messageRules := none
      numbersDistinct := List.nodup_singleton _
      namesDistinct := List.nodup_singleton _ },
    { fullName := "buf.validate.RepeatedRules"
      fields := []
      oneofs := []
      messageRules := none
      numbersDistinct := List.nodup_nil
      namesDistinct := List.nodup_nil }]
  enums := [⟨"Level", [1, 2]⟩]
  extensions := []
  linked := by simp [messageType]

def levelsValidator : Validator ⟨Empty, Unit⟩ where
  descriptors := ⟨levelsPool, ⟨1, {}, {}, {}, {}, {}, {}, {}, {}⟩⟩
  env := ⟨fun _ _ => .ok ⟨fun _ _ => .ok (.bool true)⟩, fun name bytes => .ok ⟨name, bytes⟩⟩
  backend := Backend.bare
  reflection := ⟨fun _ _ => false, fun _ _ => [], fun _ => []⟩
  resolve _ := .ok ()

/-- A message with one item, the first value. -/
def firstLevel : Message ⟨Empty, Unit⟩ where
  has _ := .ok true
  get _ := .ok (some (.list ⟨.ok 1, fun _ => .ok (some (.enum 1))⟩))
  encode := .ok []

theorem levels_closure :
    closure levelsPool 0 (fun _ => none : ValidatorCache ⟨Empty, Unit⟩) = [0] := by
  have alone : referenced levelsPool 0 = [] := rfl
  simp [closure, FiniteGraph.search, typeGraph, alone]

/-- The zero value of the enum is reported. -/
theorem first_level_reported : ∃ built compiled violation,
    levelsValidator.build 0 (fun _ => none) = .ok built ∧ built 0 = some (.ok compiled) ∧
    (SingularKind.enum 0).first levelsPool = some 1 ∧
    (levelsValidator.walk built).validate false compiled firstLevel "Levels" = .ok [violation] ∧
    violation.elements.map FieldPathElement.subscript = [some (.index 0)] ∧
    violation.ruleId = some "enum.in" := by
  have types : closure levelsValidator.pool 0 (fun _ => none : ValidatorCache ⟨Empty, Unit⟩) =
      [0] := levels_closure
  have messages : ∀ types, closure (levelsValidator.builder types).pool 0
      (fun _ => none : ValidatorCache ⟨Empty, Unit⟩) = [0] := fun _ => levels_closure
  simp only [Validator.build, resolve, Builder.buildClosure, types, messages]
  exact ⟨_, _, _, rfl, rfl, rfl, rfl, rfl, rfl⟩

def levelsWalk : Walk ⟨Empty, Unit⟩ := levelsValidator.walk fun _ => none

def levelList (number : Int) : ListView ⟨Empty, Unit⟩ :=
  ⟨.ok 1, fun _ => .ok (some (.enum number))⟩

theorem levelList_typed (number : Int) :
    Typed levelsWalk.pool (.list (.enum 0)) (.list (levelList number)) := by
  refine .list fun i v got => ?_
  cases got
  exact .enum

/-- A list of the first value, and one of the second. -/
theorem zero_items_skipped_iff_levels :
    (¬ ∀ failFast items, (simulation Empty failFast false).Rel
      (within ({} : FieldPathElement) (items.validateList levelsWalk .enum (levelList 1)))
      (Spec.nonZeroItems levelsWalk (zeroValue (some 1)) items {} .enum (levelList 1))) ∧
    ∀ failFast items, (simulation Empty failFast false).Rel
      (within ({} : FieldPathElement) (items.validateList levelsWalk .enum (levelList 2)))
      (Spec.nonZeroItems levelsWalk (zeroValue (some 1)) items {} .enum (levelList 2)) := by
  have plain : ∀ index, SingularKind.enum 0 ≠ .message index := by simp
  have lists := (zero_items_skipped_iff levelsWalk (.enum 0) plain {}).1
  constructor
  · intro law
    have read : (levelList 1).Reads 0 (.enum 1) := ⟨⟨1, rfl, Nat.one_pos⟩, by simp, rfl⟩
    have agrees := (lists _ (levelList_typed 1)).mp law 0 (.enum 1) read 1 rfl
    exact absurd (agrees.mpr rfl) (by decide)
  · refine (lists _ (levelList_typed 2)).mpr fun index v reads e held => ?_
    obtain ⟨-, -, got⟩ := reads
    subst held
    cases got
    exact ⟨fun zero => absurd zero (by decide), fun first => by cases first⟩

end Protovalidate
