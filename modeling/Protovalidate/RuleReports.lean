import Protovalidate.RuleErrors

/-!
# Where the rules of one value report

The rules of a value report at the value's own place. So do those of a message,
except that a required oneof is reported under its name.
-/

namespace Protovalidate

open Recording

variable {R : Runtime}

/-- Every violation is a failure placed where the computation is run. -/
def ReportsAt {α : Type} (x : SpecM R.Error α) : Prop :=
  ∀ at_, ∀ v ∈ (x at_).out, ∃ failure : Failure, v = failure.violation at_.path at_.forKey

namespace ReportsAt
variable {α β ι : Type}

theorem pure (a : α) : ReportsAt (Pure.pure a : SpecM R.Error α) := by
  intro at_ v found
  cases found

theorem bind {x : SpecM R.Error α} {f : α → SpecM R.Error β} (first : ReportsAt x)
    (rest : ∀ a, ReportsAt (f a)) : ReportsAt (x >>= f) := by
  intro at_ v found
  rcases (Emit.bind_out _ _).mp found with found | ⟨a, -, found⟩
  · exact first at_ v found
  · exact rest a at_ v found

theorem orAbort (r : Except (Error R.Error) α) :
    ReportsAt (Protovalidate.orAbort r : SpecM R.Error α) := by
  intro at_ v found
  rw [orAbort_at] at found
  cases found

/-- What is done with a result that may be used. -/
theorem known {r : Except (Error R.Error) α} {f : α → SpecM R.Error β}
    (rest : ∀ a, ReportsAt (f a)) : ReportsAt (Protovalidate.orAbort r >>= f) :=
  (orAbort r).bind rest

theorem push (id message : String) (rulePath : List FieldPathElement) :
    ReportsAt (Protovalidate.push id message rulePath : SpecM R.Error Unit) := by
  intro at_ v found
  obtain rfl := List.mem_singleton.mp found
  exact ⟨_, rfl⟩

theorem pushIf (broken : Bool) (id message : String) (rulePath : List FieldPathElement) :
    ReportsAt (Protovalidate.pushIf broken id message rulePath : SpecM R.Error Unit) := by
  cases broken
  · exact pure ()
  · exact push id message rulePath

theorem forM {items : List ι} {f : ι → SpecM R.Error PUnit} (each : ∀ i, ReportsAt (f i)) :
    ReportsAt (items.forM f) := by
  induction items with
  | nil => exact pure _
  | cons i items ih => exact (each i).bind fun _ => ih

theorem foldlM {items : List ι} {f : β → ι → SpecM R.Error β} (each : ∀ b i, ReportsAt (f b i))
    (b : β) : ReportsAt (items.foldlM f b) := by
  induction items generalizing b with
  | nil => exact pure b
  | cons i items ih =>
    rw [List.foldlM_cons]
    exact (each b i).bind ih

theorem runWith {τ : Type} (checks : List (Check τ)) {fails : τ → SpecM R.Error Bool}
    (each : ∀ test, ReportsAt (fails test)) : ReportsAt (Protovalidate.runWith checks fails) :=
  forM fun check => (each check.test).bind fun _ => pushIf _ _ _ _

theorem run {τ : Type} (checks : List (Check τ)) (fails : τ → Except String Bool) :
    ReportsAt (Protovalidate.run checks fails : SpecM R.Error Unit) :=
  runWith checks fun _ => orAbort _

variable (walk : Walk R)

theorem checkValue (checks : Checks) (value : Option (Val R)) (wrapper : Option (Field R)) :
    ReportsAt (checks.checkValue walk value wrapper : SpecM R.Error Unit) := by
  cases checks with
  | none => exact pure _
  | list checks =>
    exact known fun view => known fun len => runWith checks fun test => orAbort _
  | _ checks => exact known fun value => run checks _

theorem check (checks : Checks) (value : Option (Val R)) (wrapper : Option (Field R)) :
    ReportsAt (checks.check walk value wrapper : SpecM R.Error Unit) := by
  unfold Checks.check
  split
  · exact known fun unboxed => checkValue walk checks unboxed none
  · exact checkValue walk checks _ _
  · exact checkValue walk checks _ _
  · exact checkValue walk checks _ _

theorem celRun (programs : CelPrograms) (this : This) :
    ReportsAt (programs.run this : SpecM R.Error Unit) := by
  refine forM fun item => ?_
  unfold CelPrograms.runRule
  cases programs.program.eval item.2 this with
  | error error => exact orAbort (.error _)
  | ok value =>
    refine known fun message => ?_
    cases message with
    | none => exact pure _
    | some message => exact push _ _ _

theorem runPrograms (programs : Option CelPrograms) (value : Option (Val R)) (bind : CelBind R)
    (child : Option (CelFrame R)) :
    ReportsAt (Protovalidate.runPrograms walk programs value bind child : SpecM R.Error Unit) := by
  cases programs with
  | none => exact pure _
  | some programs => exact known fun this => celRun programs this

/-- The rules of a value report at the value. -/
theorem valueRules (validator : ValueValidator R) (bind : CelBind R)
    (child : Option (CelFrame R)) (value : Option (Val R)) :
    ReportsAt (validator.runRules walk bind child value : SpecM R.Error Unit) :=
  (runPrograms walk _ value bind child).bind fun _ => (check walk _ value _).bind fun _ =>
    runPrograms walk _ value bind child

end ReportsAt

/-- The failure of a oneof with no field set. -/
def oneofFailure : Failure := ⟨"required", "exactly one field is required in oneof", []⟩

/-- The rules of a message report at the message, or under a required oneof. -/
theorem messageRules_reports (walk : Walk R) (validator : MessageValidator R) (frame : CelFrame R)
    (m : Message R) (at_ : Position) {v : Violation}
    (found : v ∈ ((validator.runRules walk frame m : SpecM R.Error Unit) at_).out) :
    (∃ failure : Failure, v = failure.violation at_.path at_.forKey) ∨
      ∃ oneof ∈ validator.oneofs,
        v = oneofFailure.violation (at_.path ++ [oneof.element]) at_.forKey := by
  rcases (Emit.bind_out _ _).mp found with found | ⟨_, -, found⟩
  · left
    have programs :
        ReportsAt (runMessagePrograms walk validator.cel frame : SpecM R.Error Unit) := by
      cases validator.cel with
      | none => exact ReportsAt.pure _
      | some programs => exact ReportsAt.known fun _ => ReportsAt.celRun programs _
    exact programs at_ v found
  · rcases (Emit.bind_out _ _).mp found with found | ⟨_, -, found⟩
    · left
      have oneofs : ReportsAt
          (validator.messageOneofs.forM fun oneof => (oneof.check m : SpecM R.Error Unit)) := by
        refine ReportsAt.forM fun oneof => ?_
        refine ReportsAt.bind (ReportsAt.foldlM (fun _ _ => ?_) 0) fun set => ?_
        · exact (ReportsAt.orAbort _).bind fun _ => ReportsAt.pure _
        · exact (ReportsAt.pushIf _ _ _ _).bind fun _ => ReportsAt.pushIf _ _ _ _
      exact oneofs at_ v found
    · right
      revert found
      generalize validator.oneofs = oneofs
      intro found
      induction oneofs with
      | nil => cases found
      | cons oneof oneofs ih =>
        rcases (Emit.bind_out _ _).mp found with found | ⟨_, -, found⟩
        · refine ⟨oneof, List.mem_cons_self, ?_⟩
          rcases (Emit.bind_out _ _).mp found with found | ⟨set, -, found⟩
          · rw [read_at] at found
            cases found
          · cases set with
            | true => cases found
            | false => exact List.mem_singleton.mp found
        · obtain ⟨other, later, same⟩ := ih found
          exact ⟨other, List.mem_cons_of_mem _ later, same⟩

end Protovalidate
