import Protovalidate.Lib.Permuted
import Protovalidate.Reordered
import Protovalidate.RuleOrder
import Protovalidate.WalkRefinesSpec

/-!
# The order of map entries

A walk visits the entries of a map in the order the map yields them, and places
what each entry breaks at the entry's key. Another order of the entries, of any
map at any depth, is another order of the violations.
-/

namespace Protovalidate

open Recording

/-- From every position, the second run reports what the first does in another
order, unless the first ends with an error. -/
def permutation (ε : Type) : Similarity (SpecM ε) (SpecM ε) where
  Rel x y := ∀ at_, Emit.Permutes (x at_) (y at_)
  pure _ _ := .refl _
  bind first rest at_ := (first at_).bind fun a => rest a at_
  record _ _ := .refl _
  abort _ _ := .refl _
  within s _ _ related at_ := related { at_ with path := at_.path ++ [s] }

section Permutation
variable {ε ι : Type}

theorem permutation_refl {α : Type} (x : SpecM ε α) : (permutation ε).Rel x x := fun _ => .refl _

theorem permutation_trans {α : Type} {x y z : SpecM ε α} (first : (permutation ε).Rel x y)
    (second : (permutation ε).Rel y z) : (permutation ε).Rel x z :=
  fun at_ => (first at_).trans (second at_)

/-- The steps of a loop may be taken in any order. -/
theorem permutation_forM {items items' : List ι} (perm : items.Perm items')
    (f : ι → SpecM ε Unit) : (permutation ε).Rel (items.forM f) (items'.forM f) := by
  induction perm with
  | nil => exact permutation_refl _
  | cons item _ ih => exact (permutation ε).bind (permutation_refl _) fun _ => ih
  | swap item item' rest => exact fun at_ => .swap (f item' at_) (f item at_) (rest.forM f at_)
  | trans _ _ first second => exact permutation_trans first second

end Permutation

namespace Spec
variable {R : Runtime} (walk : Walk R)

/-- Values alike are reported on alike, up to the order. -/
def Permuted (v v' : Val R) : Prop :=
  ∀ validator bind bind', SameBind bind bind' →
    (permutation R.Error).Rel (value walk validator bind v) (value walk validator bind' v')

theorem option_permuted {read read' : Option (Val R)} (same : Option.Rel Reordered read read')
    (parts : ∀ v v', read = some v → Reordered v v' → Permuted walk v v')
    (validator : ValueValidator R) {bind bind' : CelBind R} (bound : SameBind bind bind') :
    (permutation R.Error).Rel (option walk validator bind read)
      (option walk validator bind' read') := by
  cases same with
  | none =>
    simp only [option]
    rw [Reordered.runRules walk .none bound .none]
    exact permutation_refl _
  | some related => exact parts _ _ rfl related _ _ _ bound

theorem item_permuted {read read' : Except R.Error (Option (Val R))}
    (same : SameRead Reordered read read')
    (parts : ∀ v v', read = .ok (some v) → Reordered v v' → Permuted walk v v')
    (items : ItemValidator R) (container : FieldPathElement) (kind : Singular) (index : Nat) :
    (permutation R.Error).Rel (item walk items container kind index read)
      (item walk items container kind index read') := by
  cases same with
  | error e => exact permutation_refl _
  | none => exact permutation_refl _
  | some related =>
    simp only [item, related.skips]
    refine (permutation _).bind (permutation_refl _) fun skip => ?_
    refine (permutation _).ite (permutation_refl _) ((permutation _).within _ ?_)
    exact parts _ _ rfl related _ _ _ (.item kind)

theorem list_permuted {l l' : ListView R} (related : Reordered (.list l) (.list l'))
    (parts : ∀ v v', Part v (.list l) → Reordered v v' → Permuted walk v v')
    (items : ItemValidator R) (container : FieldPathElement) (kind : Singular) :
    (permutation R.Error).Rel (list walk items container kind l)
      (list walk items container kind l') := by
  obtain ⟨len, get⟩ := l
  obtain ⟨len', get'⟩ := l'
  cases related with
  | list same read =>
    obtain rfl : len' = len := same
    simp only [list]
    refine (permutation _).bind (permutation_refl _) fun len => ?_
    refine (permutation _).forM _ fun index _ => ?_
    exact item_permuted walk (read index) (fun v v' found => parts v v' (.element found)) _ _ _ _

theorem entry_permuted {v v' : Val R} (related : Reordered v v') (part : Permuted walk v v')
    (entries : Entries R) (k : Atom) :
    (permutation R.Error).Rel (entry walk entries (k, v)) (entry walk entries (k, v')) := by
  simp only [entry]
  refine (permutation _).bind (permutation_refl _) fun _ => ?_
  cases entries.values with
  | none => exact permutation_refl _
  | some values =>
    simp only [related.skips]
    refine (permutation _).bind (permutation_refl _) fun skip => ?_
    exact (permutation _).ite (permutation_refl _) (part _ _ _ (.item _))

/-- The entries of a map, where each is like another one. -/
theorem entryList_permuted {visited visited' : List (Atom × Val R)}
    (same : SameEntries Reordered visited visited')
    (parts : ∀ k v v', (k, v) ∈ visited → Reordered v v' → Permuted walk v v')
    (entries : Entries R) (container : FieldPathElement) :
    (permutation R.Error).Rel (entryList walk entries container visited)
      (entryList walk entries container visited') := by
  induction same with
  | nil => exact permutation_refl _
  | cons k related _ ih =>
    simp only [entryList]
    refine (permutation _).bind ((permutation _).within _ ?_) fun _ => ?_
    · exact entry_permuted walk related (parts k _ _ List.mem_cons_self related) _ _
    · exact ih fun k v v' later => parts k v v' (List.mem_cons_of_mem _ later)

theorem map_permuted {m m' : MapView R} (related : Reordered (.map m) (.map m'))
    (parts : ∀ v v', Part v (.map m) → Reordered v v' → Permuted walk v v')
    (entries : Entries R) (container : FieldPathElement) :
    (permutation R.Error).Rel (map walk entries container m) (map walk entries container m') := by
  obtain ⟨len, visited, fault⟩ := m
  obtain ⟨len', visited', fault'⟩ := m'
  cases related with
  | map _ same alike perm =>
    obtain rfl : fault' = fault := same
    simp only [map]
    refine (permutation _).bind (permutation_trans (entryList_permuted walk alike ?_ _ _) ?_)
      fun _ => permutation_refl _
    · exact fun k v v' member => parts v v' (.entry member)
    · rw [entryList_forM, entryList_forM]
      exact permutation_forM perm _

theorem contents_permuted {read read' : Option (Val R)} (same : Option.Rel Reordered read read')
    (parts : ∀ v w w', read = some v → Part w v → Reordered w w' → Permuted walk w w')
    (validator : FieldValidator R) :
    (permutation R.Error).Rel (contents walk validator read) (contents walk validator read') := by
  cases same with
  | none => exact permutation_refl _
  | @some v v' related =>
    cases v with
    | atom a =>
      cases related
      exact permutation_refl _
    | message m =>
      cases related
      exact permutation_refl _
    | list l =>
      cases v' with
      | list l' =>
        simp only [contents]
        split
        · exact list_permuted walk related (fun w w' part => parts _ w w' rfl part) _ _ _
        · exact permutation_refl _
      | atom _ | message _ | map _ => cases related
    | map m =>
      cases v' with
      | map m' =>
        simp only [contents]
        split
        · exact map_permuted walk related (fun w w' part => parts _ w w' rfl part) _ _
        · exact permutation_refl _
      | atom _ | message _ | list _ => cases related

theorem field_permuted {m m' : Message R} (related : Reordered (.message m) (.message m'))
    {read read' : Except R.Error (Option (Val R))} (same : SameRead Reordered read read')
    (parts : ∀ v, read = .ok (some v) →
      (∀ v', Reordered v v' → Permuted walk v v') ∧
        ∀ w w', Part w v → Reordered w w' → Permuted walk w w')
    (validator : FieldValidator R) {frame frame' : CelFrame R} (framed : SameFrame frame frame') :
    (permutation R.Error).Rel (field walk validator m frame read)
      (field walk validator m' frame' read') := by
  have found : ∀ {value value' : Option (Val R)}, Option.Rel Reordered value value' →
      (∀ v, value = some v → (∀ v', Reordered v v' → Permuted walk v v') ∧
        ∀ w w', Part w v → Reordered w w' → Permuted walk w w') →
      (permutation R.Error).Rel (field walk validator m frame (.ok value))
        (field walk validator m' frame' (.ok value')) := by
    intro value value' same parts
    simp only [field, related.isSetField same]
    refine (permutation _).bind (permutation_refl _) fun set => ?_
    refine (permutation _).ite (permutation_refl _) ((permutation _).ite (permutation_refl _) ?_)
    refine (permutation _).bind ((permutation _).within _ ?_) fun _ => ?_
    · exact option_permuted walk same (fun v v' held => (parts v held).1 v') _ (.field _ framed)
    · exact contents_permuted walk same (fun v w w' held => (parts v held).2 w w') _
  cases same with
  | error e => exact permutation_refl _
  | none => exact found .none fun v held => by cases held
  | some related => exact found (.some related) fun v held => parts v (by rw [held])

theorem message_permuted {m m' : Message R} (related : Reordered (.message m) (.message m'))
    (parts : ∀ v v', Below v (.message m) → Reordered v v' → Permuted walk v v')
    (validator : MessageValidator R) {frame frame' : CelFrame R} (framed : SameFrame frame frame') :
    (permutation R.Error).Rel (message walk validator frame m)
      (message walk validator frame' m') := by
  obtain ⟨has, get, encode⟩ := m
  obtain ⟨has', get', encode'⟩ := m'
  simp only [message, related.messageRules walk framed]
  refine (permutation _).bind (permutation_refl _) fun _ => (permutation _).forM _ fun rules _ => ?_
  cases rules with
  | error e => exact permutation_refl _
  | ok rules =>
    refine field_permuted walk related (related.get _) (fun v found => ?_) _ framed
    have direct : Part v (.message ⟨has, get, encode⟩) := .field found
    exact ⟨fun v' => parts v v' (.single direct),
      fun w w' part => parts w w' (.head part (.single direct))⟩

/-- Which rules a message held by a value has does not depend on the message. -/
theorem nestedMessage_cases (validator : ValueValidator R) (sub sub' : Message R) :
    (∃ e, validator.nestedMessage walk sub = .error e ∧
      validator.nestedMessage walk sub' = .error e) ∨
    (validator.nestedMessage walk sub = .ok none ∧
      validator.nestedMessage walk sub' = .ok none) ∨
    ∃ nested typeName, validator.nestedMessage walk sub = .ok (some (nested, ⟨typeName, sub⟩)) ∧
      validator.nestedMessage walk sub' = .ok (some (nested, ⟨typeName, sub'⟩)) := by
  unfold ValueValidator.nestedMessage
  cases validator.nested with
  | none => exact .inr (.inl ⟨rfl, rfl⟩)
  | some index =>
    dsimp only
    cases walk.validator index with
    | error e => exact .inl ⟨e, rfl, rfl⟩
    | ok nested => exact .inr (.inr ⟨nested, _, rfl, rfl⟩)

/-- A message held by a value, with the rules of the value before its own. -/
theorem held_permuted {sub sub' : Message R} (related : Reordered (.message sub) (.message sub'))
    (parts : ∀ v v', Below v (.message sub) → Reordered v v' → Permuted walk v v') :
    Permuted walk (.message sub) (.message sub') := by
  intro validator outer outer' bound
  simp only [value]
  rcases nestedMessage_cases walk validator sub sub' with
    ⟨e, failed, failed'⟩ | ⟨unruled, unruled'⟩ | ⟨nested, typeName, ruled, ruled'⟩
  · rw [failed, failed']
    intro at_ a done
    cases done
  · rw [unruled, unruled']
    simp only [orAbort, pure_bind, Option.map_none,
      Reordered.runRules walk (.some related) bound .none]
    exact permutation_refl _
  · have framed := related.frame typeName
    rw [ruled, ruled']
    simp only [orAbort, pure_bind, Option.map_some,
      Reordered.runRules walk (.some related) bound (.some framed)]
    refine (permutation _).bind (permutation_refl _) fun _ => ?_
    exact message_permuted walk related parts nested framed

/-- What a value breaks, it breaks in any order of the entries of its maps. -/
theorem value_permuted (v : Val R) : ∀ v', Reordered v v' → Permuted walk v v' := by
  induction v using Val.below_induction with
  | step v below =>
    intro v' related
    have rules : ∀ (validator : ValueValidator R) bind bind', SameBind bind bind' →
      (permutation R.Error).Rel (validator.runRules walk bind none (some v))
        (validator.runRules walk bind' none (some v')) := by
      intro validator bind bind' bound
      rw [Reordered.runRules walk (.some related) bound .none]
      exact permutation_refl _
    cases v with
    | message sub =>
      cases v' with
      | message sub' => exact held_permuted walk related fun w w' part => below w part w'
      | atom _ | list _ | map _ => cases related
    | atom a =>
      cases related
      exact rules
    | list l =>
      cases v' with
      | list l' => exact rules
      | atom _ | message _ | map _ => cases related
    | map m =>
      cases v' with
      | map m' => exact rules
      | atom _ | message _ | list _ => cases related

end Spec

/-- A full walk that ends without an error reports the same violations, whatever
the order in which the maps of the message yield their entries, in the message
itself and at any depth below. -/
theorem reordered_violations {R : Runtime} (walk : Walk R) (validator : MessageValidator R)
    {m m' : Message R} (typeName : String) (reordered : Reordered (.message m) (.message m'))
    {violations : List Violation}
    (done : walk.validate false validator m typeName = .ok violations) :
    ∃ violations', walk.validate false validator m' typeName = .ok violations' ∧
      violations.Perm violations' := by
  have permuted := Spec.message_permuted walk reordered
    (fun v v' _ => Spec.value_permuted walk v v') validator (reordered.frame typeName) ⟨[], false⟩
  have reported : ∀ m, walk.validate false validator m typeName =
      (Spec.report walk validator m typeName []).result.map fun _ =>
        (Spec.report walk validator m typeName []).out := by
    intro m
    simp only [Walk.validate, validate_from_root, observed, Emit.cut_false]
    cases (Spec.report walk validator m typeName []).result <;> rfl
  rw [reported] at done ⊢
  cases ended : (Spec.report walk validator m typeName []).result with
  | error e =>
    rw [ended] at done
    cases done
  | ok u =>
    rw [ended] at done
    cases done
    obtain ⟨ended', perm⟩ := permuted u ended
    refine ⟨_, ?_, perm⟩
    have result : (Spec.report walk validator m' typeName []).result = .ok u := ended'
    rw [result]
    rfl

/-- A field with a map of two entries, whose values must be positive. -/
def countsField : FieldValidator ⟨Empty, Unit⟩ where
  field := ⟨1, "counts", .map .int32 (.scalar .int32), none, false⟩
  element := {}
  required := false
  ignoreEmpty := false
  value := {}
  kind := .map {} none (some ⟨false, { checks := .int [⟨"int32.gt", "", [], .gt 0⟩] }⟩)

def counts (entries : List (Atom × Val ⟨Empty, Unit⟩)) : Message ⟨Empty, Unit⟩ where
  has _ := .ok true
  get _ := .ok (some (.map ⟨.ok 2, entries, none⟩))
  encode := .ok []

/-- What an entry of `counts` with a value that is not positive reports. -/
def countViolation (key : Int) : Violation where
  field := some ⟨[{ subscript := some (.intKey key) }]⟩
  rule := none
  ruleId := some "int32.gt"
  message := some ""
  forKey := none

/-- Two entries, visited in either order. -/
theorem reordered_violations_counts :
    bareWalk.validate false ⟨(), none, [], [], [.ok countsField]⟩
      (counts [(.int 1, .int 0), (.int 2, .int (-1))]) "Counts" =
        .ok [countViolation 1, countViolation 2] ∧
    ∃ violations, bareWalk.validate false ⟨(), none, [], [], [.ok countsField]⟩
        (counts [(.int 2, .int (-1)), (.int 1, .int 0)]) "Counts" = .ok violations ∧
      [countViolation 1, countViolation 2].Perm violations := by
  have done : bareWalk.validate false ⟨(), none, [], [], [.ok countsField]⟩
      (counts [(.int 1, .int 0), (.int 2, .int (-1))]) "Counts" =
        .ok [countViolation 1, countViolation 2] := rfl
  refine ⟨done, reordered_violations bareWalk _ "Counts" ?_ done⟩
  refine .message rfl rfl fun field => .some (.map rfl rfl ?_ (.swap _ _ _))
  exact .cons _ (.atom _) (.cons _ (.atom _) .nil)

end Protovalidate
