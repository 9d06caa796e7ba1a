import Protovalidate.Eval

/-!
# What CEL rules record

A rule passes, fails with a message, or stops the run. The failures are recorded
in the order of the rules, up to the first rule that stops the run, or with
`fail_fast` the first of them only.
-/

namespace Protovalidate

open Recording

/-- What the outcome of an expression means for its rule. -/
inductive CelVerdict
  | passes
  | fails (message : String)
  | stops (message : String)
  deriving DecidableEq, Repr

def CelVerdict.message? : CelVerdict → Option String
  | .fails message => some message
  | _ => none

def CelVerdict.stop? : CelVerdict → Option String
  | .stops message => some message
  | _ => none

/-- `choose` is the message of a rule whose expression yields a text. -/
def CelRule.verdict (choose : CelRule → String → String) (rule : CelRule) :
    Except Cel.Error Value → CelVerdict
  | .error error => .stops ("error evaluating " ++ rule.id ++ ": " ++ error.message)
  | .ok (.bool true) => .passes
  | .ok (.bool false) =>
    .fails (if rule.message = "" then "\"" ++ rule.expression ++ "\" returned false"
      else rule.message)
  | .ok (.string text) => if text = "" then .passes else .fails (choose rule text)
  | .ok .other =>
    .stops ("expression " ++ rule.id ++ " outputs an unexpected type, wanted either bool or string")

/-- What one rule does. -/
def CelRule.take {ε : Type} (rule : CelRule) (verdict : CelVerdict) (out : Violations) :
    Except (Abort ε) Unit × Violations :=
  match verdict with
  | .passes => (.ok (), out)
  | .fails message => Violations.push ⟨rule.id, message, rule.rulePath⟩ out
  | .stops message => (.error (.error (.evaluation message)), out)

/-- The message is what the expression yields. -/
def yielded (_ : CelRule) (text : String) : String := text

/-- The message is the rule's own, if it has one. -/
def ownMessage (rule : CelRule) (text : String) : String :=
  if rule.message = "" then text else rule.message

/-- The rules with their verdicts, in order. -/
abbrev Verdicts := List (CelRule × CelVerdict)

namespace Verdicts

/-- The failures before the first rule that stops. -/
def failures (verdicts : Verdicts) : List Failure :=
  (verdicts.takeWhile fun item => item.2.stop?.isNone).filterMap fun item =>
    item.2.message?.map fun message => ⟨item.1.id, message, item.1.rulePath⟩

/-- How a run ends that no failure ends. -/
def ending {ε : Type} (verdicts : Verdicts) : Except (Abort ε) Unit :=
  match verdicts.findSome? fun item => item.2.stop? with
  | some message => .error (.error (.evaluation message))
  | none => .ok ()

/-- The violations found so far, with failures at the place a walk is at. -/
def record (failures : List Failure) (out : Violations) : Violations :=
  { out with
    list := out.list ++ failures.map fun failure =>
      failure.violation (out.path.map PathElement.resolve) out.forKey }

/-- What is recorded, and how the run ends. -/
def run {ε : Type} (verdicts : Verdicts) (out : Violations) : Except (Abort ε) Unit × Violations :=
  if out.failFast then
    match verdicts.failures with
    | first :: _ => (.error .failFast, record [first] out)
    | [] => (verdicts.ending, out)
  else (verdicts.ending, record verdicts.failures out)

section Run
variable {ε : Type} {rule : CelRule} {rest : Verdicts} {message : String} {out : Violations}

theorem record_nil : record [] out = out := by
  simp [record]

theorem record_cons (first : Failure) (failures : List Failure) :
    record (first :: failures) out = record failures (record [first] out) := by
  simp [record]

theorem push_record (failure : Failure) :
    (Violations.push failure out : Except (Abort ε) Unit × Violations) =
      (if out.failFast then .error .failFast else .ok (), record [failure] out) := rfl

theorem run_passes : run ((rule, .passes) :: rest) out =
    (run rest out : Except (Abort ε) Unit × Violations) := rfl

theorem run_stops : run ((rule, .stops message) :: rest) out =
    ((.error (.error (.evaluation message)), out) : Except (Abort ε) Unit × Violations) := by
  have none : failures ((rule, .stops message) :: rest) = [] := rfl
  have ends : (ending ((rule, .stops message) :: rest) : Except (Abort ε) Unit) =
      .error (.error (.evaluation message)) := rfl
  by_cases failFast : out.failFast
  · simp [run, none, ends, failFast]
  · simp [run, none, ends, failFast, record_nil]

theorem run_fails : run ((rule, .fails message) :: rest) out =
    if out.failFast then
      ((.error .failFast, record [⟨rule.id, message, rule.rulePath⟩] out) :
        Except (Abort ε) Unit × Violations)
    else run rest (record [⟨rule.id, message, rule.rulePath⟩] out) := by
  have some : failures ((rule, .fails message) :: rest) =
      ⟨rule.id, message, rule.rulePath⟩ :: failures rest := rfl
  have ends : (ending ((rule, .fails message) :: rest) : Except (Abort ε) Unit) = ending rest := rfl
  by_cases failFast : out.failFast
  · simp [run, some, failFast]
  · have later : (record [⟨rule.id, message, rule.rulePath⟩] out).failFast = false := by
      simpa [record] using failFast
    simp only [run, some, ends, failFast, later, Bool.false_eq_true, if_false]
    rw [record_cons]

end Run

end Verdicts

def CelPrograms.verdicts (choose : CelRule → String → String) (self : CelPrograms)
    (this : This) : Verdicts :=
  self.rules.zipIdx.map fun item => (item.1, item.1.verdict choose (self.program.eval item.2 this))

namespace CelPrograms
variable {R : Runtime} (self : CelPrograms) (this : This)

/-- One rule, by its verdict. -/
theorem runRule_verdict (rule : CelRule) (index : Nat) (out : Violations) :
    (self.runRule (R := R) this rule index : WalkM R.Error Unit) out =
      rule.take (rule.verdict yielded (self.program.eval index this)) out := by
  unfold runRule
  cases evaluated : self.program.eval index this with
  | error error => rfl
  | ok value =>
    cases value with
    | bool b =>
      cases b with
      | true => rfl
      | false =>
        by_cases silent : rule.message = ""
        · simp [CelRule.take, CelRule.verdict, CelRule.outcome, silent]
          rfl
        · simp [CelRule.take, CelRule.verdict, CelRule.outcome, silent]
          rfl
    | string text =>
      by_cases empty : text = ""
      · simp [CelRule.take, CelRule.verdict, CelRule.outcome, empty]
        rfl
      · simp [CelRule.take, CelRule.verdict, CelRule.outcome, empty]
        rfl
    | other => rfl

/-- The rules from some rule on. -/
theorem runFrom_verdicts (items : List (CelRule × Nat)) (out : Violations) :
    (items.forM (fun item => self.runRule (R := R) this item.1 item.2) : WalkM R.Error Unit) out =
      Verdicts.run (items.map fun item =>
        (item.1, item.1.verdict yielded (self.program.eval item.2 this))) out := by
  induction items generalizing out with
  | nil =>
    have ends : Verdicts.run [] out =
        ((.ok (), out) : Except (Abort R.Error) Unit × Violations) := by
      by_cases failFast : out.failFast
      · simp [Verdicts.run, Verdicts.failures, Verdicts.ending, failFast]
      · simp [Verdicts.run, Verdicts.failures, Verdicts.ending, failFast, Verdicts.record_nil]
    exact ends.symm
  | cons item rest ih =>
    rw [List.map_cons]
    change WalkM.andThen (self.runRule this item.1 item.2)
      (fun _ => rest.forM fun item => self.runRule this item.1 item.2) out = _
    rw [WalkM.andThen, runRule_verdict]
    cases item.1.verdict yielded (self.program.eval item.2 this) with
    | passes => exact (ih out).trans Verdicts.run_passes.symm
    | stops message => exact Verdicts.run_stops.symm
    | fails message =>
      rw [Verdicts.run_fails, CelRule.take, Verdicts.push_record]
      by_cases failFast : out.failFast
      · simp only [failFast, if_true]
      · simp only [failFast, Bool.false_eq_true, if_false]
        exact ih _

/-- A run records the failures of the rules in order, and ends, as the verdicts
say: a rule that yields a text fails with it, whether or not the rule has a
message of its own. -/
theorem run_records (out : Violations) :
    (self.run (R := R) this : WalkM R.Error Unit) out = (self.verdicts yielded this).run out :=
  self.runFrom_verdicts this self.rules.zipIdx out

/-- A rule with its own message whose expression yields another text. -/
theorem run_ignores_message :
    ¬ ∀ (self : CelPrograms) (this : This) (out : Violations),
      (self.run (R := ⟨Empty, Unit⟩) this : WalkM Empty Unit) out =
        (self.verdicts ownMessage this).run out := by
  intro law
  have differs := law ⟨⟨fun _ _ => .ok (.string "yielded")⟩, [⟨"id", "own", "'yielded'", 0, []⟩]⟩
    (.scalar (.bool true)) (Violations.new false)
  rw [run, runFrom_verdicts] at differs
  have listed := congrArg (fun result => result.2.list.map Violation.message) differs
  revert listed
  decide

end CelPrograms

end Protovalidate
