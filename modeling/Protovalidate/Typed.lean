import Protovalidate.PathsResolve

/-!
# Values of the kinds their descriptors declare

A typed value is of the kind of its descriptor, and so is everything that is
read from it through its type's own fields. The rules that the builder takes
for a value check values of its kind, directly or through the scalar field of a
wrapper.
-/

namespace Protovalidate

open BuildM

/-- The variants of a value. -/
inductive ValueType
  | bool | int | uint | double | enum | string | bytes | message | list | map
  deriving DecidableEq, Repr

def Atom.valueType : Atom → ValueType
  | .bool _ => .bool
  | .int _ => .int
  | .uint _ => .uint
  | .double _ => .double
  | .enum _ => .enum
  | .string _ => .string
  | .bytes _ => .bytes

/-- The variant that a scalar type widens to. -/
def Scalar.valueType : Scalar → ValueType
  | .bool => .bool
  | .int32 | .int64 | .sint32 | .sint64 | .sfixed32 | .sfixed64 => .int
  | .uint32 | .uint64 | .fixed32 | .fixed64 => .uint
  | .float | .double => .double
  | .string => .string
  | .bytes => .bytes

/-- The variant that native checks read. -/
def Checks.valueType : Checks → Option ValueType
  | .none => Option.none
  | .bool _ => some .bool
  | .int _ => some .int
  | .uint _ => some .uint
  | .double _ => some .double
  | .string _ => some .string
  | .bytes _ => some .bytes
  | .enum _ => some .enum
  | .list _ => some .list
  | .map _ => some .map
  | .duration _ | .timestamp _ | .fieldMask _ | .any _ => some .message

/-- The variant that standard rules are about. -/
def RulesTypeOf.valueType {φ : Type} : RulesTypeOf φ → ValueType
  | .float _ | .double _ => .double
  | .int32 _ | .int64 _ | .sint32 _ | .sint64 _ | .sfixed32 _ | .sfixed64 _ => .int
  | .uint32 _ | .uint64 _ | .fixed32 _ | .fixed64 _ => .uint
  | .bool _ => .bool
  | .string _ => .string
  | .bytes _ => .bytes
  | .enum _ => .enum
  | .repeated _ => .list
  | .map _ => .map
  | .any _ | .duration _ | .fieldMask _ | .timestamp _ => .message

/-- The variant that a field of a kind holds. -/
def DescriptorKind.valueType : DescriptorKind → ValueType
  | .singular (.scalar s) => s.valueType
  | .singular (.enum _) => .enum
  | .singular (.message _) => .message
  | .list _ => .list
  | .map _ _ => .map

section Values
variable {R : Runtime}

def Val.valueType : Val R → ValueType
  | .atom a => a.valueType
  | .message _ => .message
  | .list _ => .list
  | .map _ => .map

/-- A value of the kind its descriptor declares, and likewise for everything
below it. A message is asked for the fields of its type; what it answers for
others is left open. -/
inductive Typed (pool : DescriptorPool) : DescriptorKind → Val R → Prop
  | scalar {s : Scalar} {a : Atom} : a.valueType = s.valueType →
    Typed pool (.singular (.scalar s)) (.atom a)
  | enum {index : EnumIndex} {number : Int} :
    Typed pool (.singular (.enum index)) (.atom (.enum number))
  | message {index : MessageIndex} {m : Message R} :
    (∀ field ∈ (pool.message index).fields, ∀ type v,
      m.get (.fromDescriptor field type) = .ok (some v) → Typed pool field.kind v) →
    Typed pool (.singular (.message index)) (.message m)
  | list {element : SingularKind} {l : ListView R} :
    (∀ i v, l.get i = .ok (some v) → Typed pool (.singular element) v) →
    Typed pool (.list element) (.list l)
  | map {key : Scalar} {value : SingularKind} {m : MapView R} :
    (∀ k v, (k, v) ∈ m.entries → k.valueType = key.valueType) →
    (∀ k v, (k, v) ∈ m.entries → Typed pool (.singular value) v) →
    Typed pool (.map key value) (.map m)

variable {pool : DescriptorPool}

theorem Typed.valueType {kind : DescriptorKind} {v : Val R} (typed : Typed pool kind v) :
    v.valueType = kind.valueType := by
  cases typed with
  | scalar same => exact same
  | _ => rfl

/-- An error that a runtime can cause without a value of the wrong kind. -/
def Error.Expected {ε : Type} (e : Error ε) : Prop := ∀ text, e ≠ .unexpected text

theorem readResult_expected {α : Type} {r : Except R.Error α} {e : Error R.Error}
    (failed : readResult r = .error e) : e.Expected := by
  cases r with
  | ok a => cases failed
  | error r =>
    cases failed
    exact nofun

theorem readResult_ok {α : Type} {r : Except R.Error α} {a : α} (done : readResult r = .ok a) :
    r = .ok a := by
  cases r with
  | error e => cases done
  | ok b =>
    cases done
    rfl

/-- A fold that at most appends what it reads holds nothing else. -/
theorem collected_read {l : ListView R}
    {append : List (Val R) → Nat → Except R.Error (List (Val R))}
    (appends : ∀ items index after, append items index = .ok after →
      after = items ∨ ∃ v, l.get index = .ok (some v) ∧ after = items ++ [v])
    {item : Val R} : ∀ (indices : List Nat) (before after : List (Val R)),
      indices.foldlM append before = .ok after → item ∈ after →
      item ∈ before ∨ ∃ i, l.get i = .ok (some item)
  | [], before, after, done, present => by
    cases done
    exact .inl present
  | index :: indices, before, after, done, present => by
    rw [List.foldlM_cons] at done
    obtain ⟨next, appended, rest⟩ := bind_eq_ok.mp done
    rcases collected_read appends indices next after rest present with earlier | found
    · rcases appends before index next appended with rfl | ⟨v, got, rfl⟩
      · exact .inl earlier
      · rcases List.mem_append.mp earlier with earlier | last
        · exact .inl earlier
        · rw [List.mem_singleton.mp last]
          exact .inr ⟨index, got⟩
    · exact .inr found

/-- The elements of a list are read at its indices. -/
theorem listItems_read {l : ListView R} {len : Nat} {items : List (Val R)}
    (listed : listItems l len = .ok items) {item : Val R} (present : item ∈ items) :
    ∃ i, l.get i = .ok (some item) := by
  refine (collected_read (fun items index after appended => ?_) _ [] items listed
    present).resolve_left List.not_mem_nil
  obtain ⟨read, got, appended⟩ := bind_eq_ok.mp appended
  cases read with
  | none =>
    cases appended
    exact .inl rfl
  | some v =>
    cases appended
    exact .inr ⟨v, got, rfl⟩

theorem hasDuplicateItems_expected {l : ListView R} {len : Nat} {wrapper : Option (Field R)}
    {e : Error R.Error} (messages : wrapper.isSome → ∀ i v, l.get i = .ok (some v) →
      v.valueType = .message)
    (failed : hasDuplicateItems l len wrapper = .error e) : e.Expected := by
  unfold hasDuplicateItems at failed
  rcases bind_eq_error.mp failed with failed | ⟨items, listed, failed⟩
  · exact readResult_expected failed
  · cases wrapper with
    | none => cases failed
    | some wrapper =>
      rcases bind_eq_error.mp failed with failed | ⟨unboxed, -, failed⟩
      · obtain ⟨item, present, failed⟩ := mapM_eq_error failed
        obtain ⟨i, got⟩ := listItems_read (readResult_ok listed) present
        have type : item.valueType = .message := messages rfl i item got
        cases item with
        | message m => exact readResult_expected failed
        | atom a => cases a <;> cases type
        | list l => cases type
        | map m => cases type
      · cases failed

/-- Native checks of a value's own variant read it. -/
theorem reads_expected {checks : Checks} {v : Val R} {wrapper : Option (Field R)}
    {e : Error R.Error} (type : checks.valueType = some v.valueType)
    (messages : wrapper.isSome → ∀ l, v = .list l → ∀ i item, l.get i = .ok (some item) →
      item.valueType = .message)
    (failed : checks.reads (some v) wrapper = .error e) : e.Expected := by
  cases v with
  | atom a => cases a <;> cases checks <;> cases type <;> cases failed
  | message m =>
    cases checks <;> cases type <;> exact readResult_expected (map_eq_error.mp failed)
  | list l =>
    cases checks <;> cases type
    rcases bind_eq_error.mp failed with failed | ⟨len, -, failed⟩
    · exact readResult_expected failed
    · exact hasDuplicateItems_expected (fun set => messages set l rfl) (map_eq_error.mp failed)
  | map m =>
    cases checks <;> cases type
    exact readResult_expected (map_eq_error.mp failed)

/-- Native checks read a field that the message does not have as the default. -/
theorem reads_absent (checks : Checks) (wrapper : Option (Field R)) :
    checks.reads .none wrapper = .ok () := by
  cases checks <;> rfl

/-- The checks of a value read values of its kind: directly, through the scalar
field of a wrapper, or from a list of wrappers. -/
inductive Fits (pool : DescriptorPool) (kind : DescriptorKind) : Checks → Option (Field R) → Prop
  | none : Fits pool kind .none .none
  | direct {checks : Checks} : checks.valueType = some kind.valueType →
    Fits pool kind checks .none
  | wrapper {checks : Checks} {index : MessageIndex} {value : FieldDescriptor}
      {type : Option R.MessageType} {s : Scalar} :
    kind = .singular (.message index) → value ∈ (pool.message index).fields →
    value.kind = .singular (.scalar s) → checks.valueType = some s.valueType →
    Fits pool kind checks (some (.fromDescriptor value type))
  | unique {checks : Checks} {index : MessageIndex} {wrapper : Field R} :
    kind = .list (.message index) → checks.valueType = some .list →
    Fits pool kind checks (some wrapper)

/-- Checks that fit the kind of a value read it. -/
theorem Fits.expected {kind : DescriptorKind} {checks : Checks} {wrapper : Option (Field R)}
    (fits : Fits pool kind checks wrapper) {value : Option (Val R)}
    (typed : ∀ v, value = some v → Typed pool kind v) {e : Error R.Error}
    (failed : checks.readsThrough value wrapper = .error e) : e.Expected := by
  cases value with
  | none =>
    cases wrapper with
    | none =>
      rw [Checks.readsThrough, reads_absent] at failed
      cases failed
    | some wrapper =>
      rw [Checks.readsThrough, reads_absent] at failed
      · cases failed
      · intro _ same
        cases same
      · intro _ same
        cases same
  | some v =>
    have held : Typed pool kind v := typed v rfl
    cases fits with
    | none => cases failed
    | direct type =>
      rw [← held.valueType] at type
      exact reads_expected type (fun absent => by cases absent) failed
    | @wrapper _ index value type s message member scalar read =>
      subst message
      cases held with
      | @message _ m fields =>
        rcases bind_eq_error.mp failed with failed | ⟨unboxed, got, failed⟩
        · exact readResult_expected failed
        · cases unboxed with
          | none =>
            rw [reads_absent] at failed
            cases failed
          | some w =>
            have inner : Typed pool value.kind w := fields value member type w (readResult_ok got)
            have same : w.valueType = s.valueType := by rw [inner.valueType, scalar]; rfl
            exact reads_expected (by rw [read, same]) (fun absent => by cases absent) failed
    | unique list read =>
      subst list
      cases held with
      | @list _ l elements =>
        refine reads_expected read (fun _ l' same i item got => ?_) failed
        cases same
        exact (elements i item got).valueType

end Values

end Protovalidate
