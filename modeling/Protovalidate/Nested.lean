import Protovalidate.Embedded

/-!
# Messages inside of a message

A message that a walk gets to is validated as it would be on its own, with the
validator of its type. The violations of the whole message have those of the
inner one without a break, each with the path of the inner message before its
own, and an error of the inner one is the error of the whole.
-/

namespace Protovalidate

open Recording

variable {R : Runtime} {walk : Walk R}

theorem message_relocates (validator : MessageValidator R) (frame : CelFrame R) (m : Message R) :
    (relocation R.Error).Rel (Spec.message walk validator frame m)
      (Spec.message walk validator frame m) :=
  Spec.message_similar walk _ (fun _ _ => forKey_relocates) (fun v _ => value_relocates walk v) _ _

/-- The specification of a message at a path is the one at the root, moved there. -/
theorem report_under (validator : MessageValidator R) (m : Message R) (typeName : String)
    (path : List FieldPathElement) :
    Spec.report walk validator m typeName path =
      (Spec.report walk validator m typeName []).mapOut (Violation.under path) := by
  have relocates : (relocation R.Error).Rel (Spec.message walk validator ⟨typeName, m⟩ m)
      (Spec.message walk validator ⟨typeName, m⟩ m) := message_relocates validator _ m
  have moved := relocates path [] false
  rwa [List.append_nil] at moved

/-- The frame and the validator that a walk has for a message it gets to. -/
def Visit.OfType (walk : Walk R) : Visit R → Prop
  | .message validator frame m =>
    frame.message = m ∧ ∃ index, walk.validators index = some (.ok validator) ∧
      frame.typeName = (walk.pool.message index).fullName
  | _ => True

theorem Enters.ofType {at_ next : Place R} (enters : Enters walk Ended at_ next) :
    next.visit.OfType walk := by
  cases enters with
  | nested looked own =>
    obtain ⟨-, never⟩ | ⟨index, compiled, -, found, same⟩ := nestedMessage_ok looked
    · cases never
    · cases same
      exact ⟨rfl, index, found, rfl⟩
  | _ => trivial

theorem Reaches.ofType {start at_ : Place R} (reaches : Reaches walk start at_) :
    at_ = start ∨ at_.visit.OfType walk := by
  cases reaches with
  | refl => exact .inl rfl
  | tail _ enters => exact .inr enters.ofType

/-- A message that a walk of another one gets to is the root, or of the type its
validator is cached for. What its own validation returns is in what that of the
whole message does. -/
theorem nested_validated_alone {compiled nested : MessageValidator R} {m sub : Message R}
    {typeName : String} {child : CelFrame R} {path : List FieldPathElement}
    (reaches : Reaches walk (root compiled m typeName) ⟨path, .message nested child sub⟩) :
    (path = [] ∧ nested = compiled ∧ child = ⟨typeName, m⟩ ∧ sub = m ∨
      ∃ index, walk.validators index = some (.ok nested) ∧
        child = ⟨(walk.pool.message index).fullName, sub⟩) ∧
    (∀ e, walk.validate false nested sub child.typeName = .error e →
      walk.validate false compiled m typeName = .error e) ∧
    ∀ violations, walk.validate false compiled m typeName = .ok violations →
      ∃ inner, walk.validate false nested sub child.typeName = .ok inner ∧
        inner.map (Violation.under path) <:+: violations := by
  have frame : child.message = sub := by
    rcases reaches.ofType with same | ofType
    · cases same
      rfl
    · exact ofType.1
  have part : Emit.PartOf (Spec.report walk nested sub child.typeName path)
      (Spec.report walk compiled m typeName []) := by
    cases child with
    | mk name message =>
      obtain rfl : message = sub := frame
      exact reaches.partOf
  rw [report_under] at part
  simp only [validate_full, Spec.validate]
  generalize Spec.report walk nested sub child.typeName [] = inner at part
  generalize Spec.report walk compiled m typeName [] = whole at part
  refine ⟨?_, fun e failed => ?_, fun violations done => ?_⟩
  · rcases reaches.ofType with same | ⟨-, index, found, named⟩
    · cases same
      exact .inl ⟨rfl, rfl, rfl, rfl⟩
    · refine .inr ⟨index, found, ?_⟩
      rw [← frame, ← named]
  · have ended : inner.result = .error e := by
      cases result : inner.result with
      | ok u => rw [result] at failed; cases failed
      | error e' => rw [result] at failed; cases failed; rfl
    rw [part.failed e ended]
    rfl
  · cases result : inner.result with
    | error e =>
      rw [part.failed e result] at done
      cases done
    | ok u =>
      refine ⟨inner.out, rfl, ?_⟩
      obtain ⟨u, -, rfl⟩ := map_eq_ok.mp done
      exact part.segment

/-! ### An order whose line has no label -/

/-- A type with a field that must be set. -/
def lineValidator : MessageValidator ⟨String, Unit⟩ where
  messageType := ()
  cel := none
  messageOneofs := []
  oneofs := []
  fields := [.ok
    { field := ⟨1, "label", .singular (.scalar .string), none, true⟩
      element := { fieldNumber := some 1, fieldName := some "label" }
      required := true
      ignoreEmpty := false
      value := {}
      kind := .singular }]

/-- A type with a repeated field of the other. -/
def orderValidator : MessageValidator ⟨String, Unit⟩ where
  messageType := ()
  cel := none
  messageOneofs := []
  oneofs := []
  fields := [.ok
    { field := ⟨1, "lines", .list .message, some (), false⟩
      element := { fieldNumber := some 1, fieldName := some "lines" }
      required := false
      ignoreEmpty := false
      value := {}
      kind := .list (some ⟨false, { nested := some 0 }⟩) }]

theorem orders_linked : ∀ message ∈ ([] : List MessageDescriptor), ∀ field ∈ message.fields,
    ∀ index, messageType field = some index → index < ([] : List MessageDescriptor).length :=
  fun _ member => (List.not_mem_nil member).elim

def orderWalk : Walk ⟨String, Unit⟩ where
  pool := ⟨[], [], [], orders_linked⟩
  schema := ⟨0, {}, {}, {}, {}, {}, {}, {}, {}⟩
  env := ⟨fun _ _ => .ok ⟨fun _ _ => .ok (.bool true)⟩, fun name bytes => .ok ⟨name, bytes⟩⟩
  backend := Backend.bare
  validators _ := some (.ok lineValidator)

def line : Message ⟨String, Unit⟩ := ⟨fun _ => .ok false, fun _ => .ok none, .ok []⟩

def order : Message ⟨String, Unit⟩ where
  has _ := .ok true
  get _ := .ok (some (.list ⟨.ok 1, fun _ => .ok (some (.message line))⟩))
  encode := .ok []

def linesElement : FieldPathElement := { fieldNumber := some 1, fieldName := some "lines" }

theorem line_reached : Reaches orderWalk (root orderValidator order "Order")
    ⟨[linesElement.withSubscript (some (.index 0))],
      .message lineValidator ⟨(orderWalk.pool.message 0).fullName, line⟩ line⟩ := by
  refine .tail (.single (.element ⟨⟨true, ⟨⟨[], [], rfl, rfl⟩, rfl, rfl⟩, .inl rfl⟩, rfl⟩ rfl rfl
    rfl Nat.one_pos rfl rfl rfl)) ?_
  exact .nested rfl rfl

/-- The line's violation is the order's, at its place in the list. -/
theorem nested_validated_line : ∃ violations inner,
    orderWalk.validate false orderValidator order "Order" = .ok violations ∧
    orderWalk.validate false lineValidator line (orderWalk.pool.message 0).fullName = .ok inner ∧
    inner ≠ [] ∧
    inner.map (Violation.under [linesElement.withSubscript (some (.index 0))]) <:+: violations := by
  have whole : ∃ violations, orderWalk.validate false orderValidator order "Order" =
    .ok violations := ⟨_, rfl⟩
  obtain ⟨violations, done⟩ := whole
  obtain ⟨inner, alone, held⟩ := (nested_validated_alone line_reached).2.2 violations done
  refine ⟨violations, inner, done, alone, ?_, held⟩
  rintro rfl
  cases alone

end Protovalidate
