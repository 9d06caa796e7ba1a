import Protovalidate.Eval

/-!
# What every recorder makes of the rules of one value

The rules of a value and the oneof rules of a message are written over any
recorder, so a similarity of two recorders relates their runs.
-/

namespace Protovalidate

open Recording

variable {R : Runtime} {m n : Type → Type}
variable [Recorder m Failure FieldPathElement (Error R.Error)]
variable [Recorder n Failure FieldPathElement (Error R.Error)]
variable (S : Similarity m n)
include S

theorem orAbort_similar {α : Type} (r : Except (Error R.Error) α) :
    S.Rel (orAbort r) (orAbort r) := by
  cases r with
  | ok a => exact S.pure a
  | error e => exact S.abort e

theorem read_similar {α : Type} (r : Except R.Error α) : S.Rel (read r) (read r) :=
  orAbort_similar S _

theorem push_similar (id message : String) (rulePath : List FieldPathElement) :
    S.Rel (push id message rulePath) (push id message rulePath) :=
  S.record _

theorem pushIf_similar (broken : Bool) (id message : String)
    (rulePath : List FieldPathElement) :
    S.Rel (pushIf broken id message rulePath) (pushIf broken id message rulePath) :=
  S.ite (push_similar S _ _ _) (S.pure _)

theorem celRule_similar (programs : CelPrograms) (this : This) (rule : CelRule) (index : Nat) :
    S.Rel (programs.runRule this rule index) (programs.runRule this rule index) := by
  unfold CelPrograms.runRule
  cases programs.program.eval index this with
  | error e => exact S.abort _
  | ok value =>
    refine S.bind (orAbort_similar S _) (fun message => ?_)
    cases message with
    | none => exact S.pure _
    | some message => exact push_similar S _ _ _

theorem celRun_similar (programs : CelPrograms) (this : This) :
    S.Rel (programs.run this) (programs.run this) :=
  S.forM _ (fun _ _ => celRule_similar S programs this _ _)

theorem messageOneof_similar (oneof : MessageOneof R) (message : Message R) :
    S.Rel (oneof.check message) (oneof.check message) := by
  refine S.bind (S.foldlM _ (fun set field _ => ?_) 0) (fun set => ?_)
  · exact S.bind (read_similar S _) (fun _ => S.pure _)
  · exact S.bind (pushIf_similar S _ _ _ _) (fun _ => pushIf_similar S _ _ _ _)

theorem oneofRequired_similar (oneof : OneofRequired R) (message : Message R) :
    S.Rel (oneof.check message) (oneof.check message) := by
  refine S.bind (read_similar S _) (fun any => ?_)
  exact S.ite (S.pure _) (S.within _ (push_similar S _ _ _))

theorem runWith_similar {τ : Type} (checks : List (Check τ)) {f : τ → m Bool} {g : τ → n Bool}
    (each : ∀ test, S.Rel (f test) (g test)) : S.Rel (runWith checks f) (runWith checks g) :=
  S.forM _ (fun check _ => S.bind (each check.test) (fun _ => pushIf_similar S _ _ _ _))

theorem run_similar {τ : Type} (checks : List (Check τ)) (fails : τ → Except String Bool) :
    S.Rel (run checks fails) (run checks fails) :=
  runWith_similar S checks (fun _ => orAbort_similar S _)

theorem checkValue_similar (walk : Walk R) (checks : Checks) (value : Option (Val R))
    (elementWrapper : Option (Field R)) :
    S.Rel (checks.checkValue walk value elementWrapper)
      (checks.checkValue walk value elementWrapper) := by
  cases checks with
  | none => exact S.pure _
  | list checks =>
    refine S.bind (orAbort_similar S _) (fun view => S.bind (read_similar S _) (fun len => ?_))
    exact runWith_similar S _ (fun test => orAbort_similar S _)
  | _ => exact S.bind (orAbort_similar S _) (fun _ => run_similar S _ _)

theorem check_similar (walk : Walk R) (checks : Checks) (value : Option (Val R))
    (wrapper : Option (Field R)) :
    S.Rel (checks.check walk value wrapper) (checks.check walk value wrapper) := by
  unfold Checks.check
  split
  · exact S.bind (read_similar S _) (fun _ => checkValue_similar S walk _ _ _)
  all_goals exact checkValue_similar S walk _ _ _

theorem runPrograms_similar (walk : Walk R) (programs : Option CelPrograms)
    (value : Option (Val R)) (bind : CelBind R) (child : Option (CelFrame R)) :
    S.Rel (runPrograms walk programs value bind child)
      (runPrograms walk programs value bind child) := by
  cases programs with
  | none => exact S.pure _
  | some programs => exact S.bind (orAbort_similar S _) (fun _ => celRun_similar S _ _)

theorem valueRules_similar (walk : Walk R) (validator : ValueValidator R) (bind : CelBind R)
    (child : Option (CelFrame R)) (value : Option (Val R)) :
    S.Rel (validator.runRules walk bind child value)
      (validator.runRules walk bind child value) :=
  S.bind (runPrograms_similar S walk _ _ _ _) fun _ =>
    S.bind (check_similar S walk _ _ _) fun _ => runPrograms_similar S walk _ _ _ _

theorem messagePrograms_similar (walk : Walk R) (programs : Option CelPrograms)
    (frame : CelFrame R) :
    S.Rel (runMessagePrograms walk programs frame) (runMessagePrograms walk programs frame) := by
  cases programs with
  | none => exact S.pure _
  | some programs => exact S.bind (orAbort_similar S _) (fun _ => celRun_similar S _ _)

theorem messageRules_similar (walk : Walk R) (validator : MessageValidator R)
    (frame : CelFrame R) (message : Message R) :
    S.Rel (validator.runRules walk frame message) (validator.runRules walk frame message) := by
  refine S.bind (messagePrograms_similar S walk _ _) (fun _ => S.bind ?_ (fun _ => ?_))
  · exact S.forM _ (fun oneof _ => messageOneof_similar S oneof message)
  · exact S.forM _ (fun oneof _ => oneofRequired_similar S oneof message)

end Protovalidate
