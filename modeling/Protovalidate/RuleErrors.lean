import Protovalidate.Visits

/-!
# How the rules of one value fail

The rules of a value or a message fail to evaluate, or one of the values they
read is not there: `this` cannot be bound, or a native check cannot read the
value as its type.
-/

namespace Protovalidate

open Recording

variable {R : Runtime}

/-- Whatever the position, the computation ends in no error outside `Q`. -/
def FailsIn {α : Type} (Q : Error R.Error → Prop) (x : SpecM R.Error α) : Prop :=
  ∀ at_ e, (x at_).result = .error e → Q e

namespace FailsIn
variable {Q : Error R.Error → Prop} {α β ι : Type}

theorem pure (a : α) : FailsIn Q (Pure.pure a : SpecM R.Error α) := by
  intro at_ e failed
  cases failed

theorem bind {x : SpecM R.Error α} {f : α → SpecM R.Error β} (first : FailsIn Q x)
    (rest : ∀ a, FailsIn Q (f a)) : FailsIn Q (x >>= f) := by
  intro at_ e failed
  rcases (Emit.bind_result_error _ _).mp failed with failed | ⟨a, -, failed⟩
  · exact first at_ e failed
  · exact rest a at_ e failed

theorem orAbort {r : Except (Error R.Error) α} (errors : ∀ e, r = .error e → Q e) :
    FailsIn Q (Protovalidate.orAbort r) := by
  intro at_ e failed
  rw [orAbort_at] at failed
  exact errors e failed

theorem abort {e : Error R.Error} (failing : Q e) :
    FailsIn Q (Recording.abort e : SpecM R.Error α) := by
  intro at_ e' failed
  cases failed
  exact failing

/-- A result that may be used, and what is done with it. -/
theorem known {r : Except (Error R.Error) α} {f : α → SpecM R.Error β}
    (errors : ∀ e, r = .error e → Q e) (rest : ∀ a, r = .ok a → FailsIn Q (f a)) :
    FailsIn Q (Protovalidate.orAbort r >>= f) := by
  cases r with
  | error e => exact abort (errors e rfl)
  | ok a => exact rest a rfl

theorem read {r : Except R.Error α} (errors : ∀ e, Q (.read e)) :
    FailsIn Q (Protovalidate.read r) := by
  refine orAbort fun e failed => ?_
  cases r with
  | ok a => cases failed
  | error e =>
    cases failed
    exact errors e

theorem push (id message : String) (rulePath : List FieldPathElement) :
    FailsIn Q (Protovalidate.push id message rulePath : SpecM R.Error Unit) := by
  intro at_ e failed
  cases failed

theorem pushIf (broken : Bool) (id message : String) (rulePath : List FieldPathElement) :
    FailsIn Q (Protovalidate.pushIf broken id message rulePath : SpecM R.Error Unit) := by
  cases broken
  · exact pure ()
  · exact push id message rulePath

theorem within (element : FieldPathElement) {x : SpecM R.Error α} (inner : FailsIn Q x) :
    FailsIn Q (Recording.within element x) :=
  fun _ e failed => inner _ e failed

theorem forKey {x : SpecM R.Error α} (inner : FailsIn Q x) : FailsIn Q x.forKey :=
  fun _ e failed => inner _ e failed

theorem forM {items : List ι} {f : ι → SpecM R.Error PUnit} (each : ∀ i ∈ items, FailsIn Q (f i)) :
    FailsIn Q (items.forM f) := by
  induction items with
  | nil => exact pure _
  | cons i items ih =>
    refine bind (each i List.mem_cons_self) fun _ => ?_
    exact ih fun j later => each j (List.mem_cons_of_mem i later)

theorem foldlM {items : List ι} {f : β → ι → SpecM R.Error β} (each : ∀ b i, FailsIn Q (f b i))
    (b : β) : FailsIn Q (items.foldlM f b) := by
  induction items generalizing b with
  | nil => exact pure b
  | cons i items ih =>
    rw [List.foldlM_cons]
    exact bind (each b i) ih

end FailsIn

/-- What the native checks of one type read of a value. -/
def Checks.reads (self : Checks) (value : Option (Val R)) (elementWrapper : Option (Field R)) :
    Except (Error R.Error) Unit :=
  match self with
  | .none => .ok ()
  | .bool _ => (boolOf value).map fun _ => ()
  | .int _ => (intOf value).map fun _ => ()
  | .uint _ => (uintOf value).map fun _ => ()
  | .double _ => (doubleOf value).map fun _ => ()
  | .string _ => (strOf value).map fun _ => ()
  | .bytes _ => (bytesOf value).map fun _ => ()
  | .duration _ | .timestamp _ => (nanosOf value).map fun _ => ()
  | .fieldMask _ => (pathsOf value).map fun _ => ()
  | .any _ => (typeUrlOf value).map fun _ => ()
  | .enum _ => (enumOf value).map fun _ => ()
  | .list _ =>
    match value with
    | some (.list view) => do
      let len ← readResult view.len
      (hasDuplicateItems view len elementWrapper).map fun _ => ()
    | .none => .ok ()
    | some other => .error (mismatch "a list" other)
  | .map _ =>
    match value with
    | some (.map view) => (readResult view.len).map fun _ => ()
    | .none => .ok ()
    | some other => .error (mismatch "a map" other)

/-- What the native checks of a value read, through its wrapper if it has one. -/
def Checks.readsThrough (self : Checks) (value : Option (Val R)) (wrapper : Option (Field R)) :
    Except (Error R.Error) Unit :=
  match wrapper, value with
  | some wrapper, some (.message message) => do
    let unboxed ← readResult (message.get wrapper)
    self.reads unboxed .none
  | some wrapper, some (.list _) => self.reads value (some wrapper)
  | some _, _ => self.reads .none .none
  | .none, value => self.reads value .none

section Rules
variable {Q : Error R.Error → Prop} (evaluation : ∀ message, Q (.evaluation message))
include evaluation

theorem celRun_fails (programs : CelPrograms) (this : This) :
    FailsIn Q (programs.run this : SpecM R.Error Unit) := by
  refine FailsIn.forM fun item _ => ?_
  unfold CelPrograms.runRule
  cases programs.program.eval item.2 this with
  | error error =>
    intro at_ e failed
    cases failed
    exact evaluation _
  | ok value =>
    refine FailsIn.bind (FailsIn.orAbort fun e failed => ?_) fun message => ?_
    · unfold CelRule.outcome at failed
      split at failed
      · cases failed
      · split at failed <;> cases failed
      · split at failed <;> cases failed
      · cases failed
        exact evaluation _
    · cases message with
      | none => exact FailsIn.pure _
      | some message => exact FailsIn.push _ _ _

theorem evaluate_fails (outcome : Except String Bool) :
    FailsIn Q (evaluate outcome : SpecM R.Error Bool) := by
  refine FailsIn.orAbort fun e failed => ?_
  cases outcome with
  | ok broken => cases failed
  | error message =>
    cases failed
    exact evaluation _

omit evaluation in
theorem runWith_fails {τ : Type} (checks : List (Check τ)) {fails : τ → SpecM R.Error Bool}
    (each : ∀ test, FailsIn Q (fails test)) : FailsIn Q (runWith checks fails) :=
  FailsIn.forM fun check _ => (each check.test).bind fun _ => FailsIn.pushIf _ _ _ _

theorem run_fails {τ : Type} (checks : List (Check τ)) (fails : τ → Except String Bool) :
    FailsIn Q (run checks fails : SpecM R.Error Unit) :=
  runWith_fails checks fun test => evaluate_fails evaluation (fails test)

/-- Checks of one type fail as their read of the value does. -/
theorem readRun_fails {α τ : Type} {r : Except (Error R.Error) α} (checks : List (Check τ))
    (fails : α → τ → Except String Bool) (errors : ∀ e, r.map (fun _ => ()) = .error e → Q e) :
    FailsIn Q (do
      let value ← orAbort r
      run checks (fails value) : SpecM R.Error Unit) := by
  refine FailsIn.bind (FailsIn.orAbort fun e failed => errors e ?_) fun value => ?_
  · rw [failed]
    rfl
  · exact run_fails evaluation checks _

theorem checkValue_fails (walk : Walk R) (checks : Checks) (value : Option (Val R))
    (elementWrapper : Option (Field R))
    (reads : ∀ e, checks.reads value elementWrapper = .error e → Q e) :
    FailsIn Q (checks.checkValue walk value elementWrapper : SpecM R.Error Unit) := by
  cases checks with
  | none => exact FailsIn.pure _
  | list checks =>
    cases value with
    | none =>
      refine runWith_fails checks fun test => FailsIn.orAbort fun e failed => ?_
      cases test <;> cases failed
    | some v =>
      cases v with
      | list view =>
        have duplicates : ∀ len, readResult view.len = .ok len →
            ∀ e, hasDuplicateItems view len elementWrapper = .error e → Q e := by
          intro len counted e failed
          refine reads e ?_
          simp [Checks.reads, counted, failed, bind, Except.bind, Except.map]
        have counting : ∀ e, readResult view.len = .error e → Q e := by
          intro e failed
          refine reads e ?_
          simp [Checks.reads, failed, bind, Except.bind]
        refine FailsIn.known nofun fun _ same => ?_
        cases same
        refine FailsIn.known counting fun len counted => ?_
        refine runWith_fails checks fun test => FailsIn.orAbort fun e failed => ?_
        cases test with
        | unique => exact duplicates len counted e failed
        | _ => cases failed
      | _ =>
        refine FailsIn.known (fun e failed => ?_) nofun
        cases failed
        exact reads _ rfl
  | map checks =>
    refine FailsIn.known (fun e failed => reads e ?_) fun len _ => run_fails evaluation checks _
    cases value with
    | none => cases failed
    | some v =>
      cases v with
      | map view =>
        dsimp only at failed
        simp [Checks.reads, failed, Except.map]
      | _ =>
        cases failed
        rfl
  | _ checks => exact readRun_fails evaluation checks _ reads

theorem check_fails (walk : Walk R) (checks : Checks) (value : Option (Val R))
    (wrapper : Option (Field R)) (reads : ∀ e, checks.readsThrough value wrapper = .error e → Q e) :
    FailsIn Q (checks.check walk value wrapper : SpecM R.Error Unit) := by
  unfold Checks.check
  split
  · rename_i wrapper message
    refine FailsIn.known (fun e failed => reads e ?_) fun unboxed got => ?_
    · simp [Checks.readsThrough, failed, bind, Except.bind]
    · refine checkValue_fails evaluation walk checks _ _ fun e failed => reads e ?_
      simp [Checks.readsThrough, got, failed, bind, Except.bind]
  · exact checkValue_fails evaluation walk checks _ _ reads
  · rename_i wrapper value other others
    refine checkValue_fails evaluation walk checks _ _ fun e failed => reads e ?_
    unfold Checks.readsThrough
    split <;> simp_all
  · exact checkValue_fails evaluation walk checks _ _ reads

theorem runPrograms_fails (walk : Walk R) (programs : Option CelPrograms)
    (value : Option (Val R)) (bind : CelBind R) (child : Option (CelFrame R))
    (binds : programs.isSome → ∀ e, celThis walk value bind child = .error e → Q e) :
    FailsIn Q (runPrograms walk programs value bind child : SpecM R.Error Unit) := by
  cases programs with
  | none => exact FailsIn.pure _
  | some programs =>
    exact FailsIn.known (binds rfl) fun this _ => celRun_fails evaluation programs this

/-- The rules of a value fail to evaluate, to bind `this`, or to read the value. -/
theorem valueRules_fails (walk : Walk R) (validator : ValueValidator R) (bind : CelBind R)
    (child : Option (CelFrame R)) (value : Option (Val R))
    (binds : validator.custom.isSome ∨ validator.predefined.isSome →
      ∀ e, celThis walk value bind child = .error e → Q e)
    (reads : ∀ e, validator.checks.readsThrough value validator.wrapper = .error e → Q e) :
    FailsIn Q (validator.runRules walk bind child value : SpecM R.Error Unit) :=
  (runPrograms_fails evaluation walk _ value bind child fun some => binds (.inl some)).bind
    fun _ => (check_fails evaluation walk _ value _ reads).bind fun _ =>
      runPrograms_fails evaluation walk _ value bind child fun some => binds (.inr some)

/-- The rules of a message fail to evaluate, to parse the message, or to read
its fields. -/
theorem messageRules_fails (walk : Walk R) (validator : MessageValidator R) (frame : CelFrame R)
    (m : Message R) (parses : validator.cel.isSome → ∀ e, frame.parsed walk = .error e → Q e)
    (reads : ∀ e, Q (.read e)) :
    FailsIn Q (validator.runRules walk frame m : SpecM R.Error Unit) := by
  refine FailsIn.bind ?_ fun _ => FailsIn.bind ?_ fun _ => ?_
  · unfold runMessagePrograms
    revert parses
    cases validator.cel with
    | none => exact fun _ => FailsIn.pure _
    | some programs =>
      exact fun parses => FailsIn.known (parses rfl) fun _ _ => celRun_fails evaluation programs _
  · refine FailsIn.forM fun oneof _ => ?_
    refine FailsIn.bind (FailsIn.foldlM (fun set field => ?_) 0) fun set => ?_
    · exact (FailsIn.read reads).bind fun _ => FailsIn.pure _
    · exact (FailsIn.pushIf _ _ _ _).bind fun _ => FailsIn.pushIf _ _ _ _
  · refine FailsIn.forM fun oneof _ => (FailsIn.read reads).bind fun any => ?_
    cases any
    · exact FailsIn.within _ (FailsIn.push _ _ _)
    · exact FailsIn.pure _

end Rules

/-! ### Rules do not fail to compile -/

theorem bind_eq_error {ε α β : Type} {x : Except ε α} {f : α → Except ε β} {e : ε} :
    (x >>= f) = .error e ↔ x = .error e ∨ ∃ a, x = .ok a ∧ f a = .error e := by
  cases x <;> simp [bind, Except.bind]

theorem map_eq_error {ε α β : Type} {x : Except ε α} {f : α → β} {e : ε} :
    x.map f = .error e ↔ x = .error e := by
  cases x <;> simp [Except.map]

theorem map_eq_ok {ε α β : Type} {x : Except ε α} {f : α → β} {b : β} :
    x.map f = .ok b ↔ ∃ a, x = .ok a ∧ f a = b := by
  cases x <;> simp [Except.map]

theorem mapM_eq_error {ε α β : Type} {f : α → Except ε β} {xs : List α} {e : ε}
    (failed : xs.mapM f = .error e) : ∃ x ∈ xs, f x = .error e := by
  induction xs with
  | nil => cases failed
  | cons x xs ih =>
    rw [List.mapM_cons] at failed
    rcases bind_eq_error.mp failed with failed | ⟨y, -, failed⟩
    · exact ⟨x, List.mem_cons_self, failed⟩
    · rcases bind_eq_error.mp failed with failed | ⟨ys, -, failed⟩
      · obtain ⟨x', later, failed⟩ := ih failed
        exact ⟨x', List.mem_cons_of_mem x later, failed⟩
      · cases failed

/-- An error other than that rules do not compile. -/
def Error.Compiled {ε : Type} (e : Error ε) : Prop := ∀ message, e ≠ .compilation message

theorem readResult_compiled {α : Type} {r : Except R.Error α} {e : Error R.Error}
    (failed : readResult r = .error e) : e.Compiled := by
  cases r with
  | ok a => cases failed
  | error r =>
    cases failed
    exact nofun

theorem parsed_compiled {walk : Walk R} {frame : CelFrame R} {e : Error R.Error}
    (failed : frame.parsed walk = .error e) : e.Compiled := by
  unfold CelFrame.parsed at failed
  rcases bind_eq_error.mp failed with failed | ⟨bytes, -, failed⟩
  · exact readResult_compiled failed
  · cases parsed : walk.env.frame frame.typeName bytes with
    | ok result => simp [parsed, Except.mapError] at failed
    | error error =>
      simp only [parsed, Except.mapError, Except.error.injEq] at failed
      subst failed
      cases error <;> exact nofun

theorem celThis_compiled {walk : Walk R} {value : Option (Val R)} {bind : CelBind R}
    {child : Option (CelFrame R)} {e : Error R.Error}
    (failed : celThis walk value bind child = .error e) : e.Compiled := by
  unfold celThis at failed
  dsimp only at failed
  split at failed
  · cases failed
  · split at failed
    · rename_i frame field
      rcases bind_eq_error.mp failed with failed | ⟨parsed, -, failed⟩
      · exact parsed_compiled failed
      · cases failed
    · rename_i kind child
      rcases bind_eq_error.mp failed with failed | ⟨parsed, -, failed⟩
      · exact parsed_compiled failed
      · cases failed
    · cases failed
      exact nofun

theorem mismatch_compiled (expected : String) (got : Val R) : (mismatch expected got).Compiled :=
  nofun

theorem unboxed_compiled {wrapper : Field R} {value : Val R} {e : Error R.Error}
    (failed : unboxed wrapper value = .error e) : e.Compiled := by
  unfold unboxed at failed
  split at failed
  · exact readResult_compiled failed
  · cases failed
    exact mismatch_compiled _ _

theorem hasDuplicateItems_compiled {list : ListView R} {len : Nat} {wrapper : Option (Field R)}
    {e : Error R.Error} (failed : hasDuplicateItems list len wrapper = .error e) :
    e.Compiled := by
  unfold hasDuplicateItems at failed
  rcases bind_eq_error.mp failed with failed | ⟨items, -, failed⟩
  · exact readResult_compiled failed
  · cases wrapper with
    | none => cases failed
    | some wrapper =>
      rcases bind_eq_error.mp failed with failed | ⟨unboxed, -, failed⟩
      · obtain ⟨item, -, failed⟩ := mapM_eq_error failed
        exact unboxed_compiled failed
      · cases failed

theorem reads_compiled {checks : Checks} {value : Option (Val R)} {wrapper : Option (Field R)}
    {e : Error R.Error} (failed : checks.reads value wrapper = .error e) : e.Compiled := by
  cases checks with
  | none => cases failed
  | list checks =>
    simp only [Checks.reads] at failed
    split at failed
    · rcases bind_eq_error.mp failed with failed | ⟨len, -, failed⟩
      · exact readResult_compiled failed
      · exact hasDuplicateItems_compiled (map_eq_error.mp failed)
    · cases failed
    · cases failed
      exact mismatch_compiled _ _
  | map checks =>
    simp only [Checks.reads] at failed
    split at failed
    · exact readResult_compiled (map_eq_error.mp failed)
    · cases failed
    · cases failed
      exact mismatch_compiled _ _
  | _ =>
    replace failed := map_eq_error.mp failed
    simp only [boolOf, intOf, uintOf, doubleOf, strOf, bytesOf, enumOf, nanosOf, pathsOf,
      typeUrlOf] at failed
    split at failed <;> first
      | exact readResult_compiled failed
      | (cases failed; try exact mismatch_compiled _ _)

theorem readsThrough_compiled {checks : Checks} {value : Option (Val R)}
    {wrapper : Option (Field R)} {e : Error R.Error}
    (failed : checks.readsThrough value wrapper = .error e) : e.Compiled := by
  unfold Checks.readsThrough at failed
  split at failed
  · rcases bind_eq_error.mp failed with failed | ⟨unboxed, -, failed⟩
    · exact readResult_compiled failed
    · exact reads_compiled failed
  all_goals exact reads_compiled failed

/-- The rules at a place of a walk do not fail to compile. -/
theorem rules_compiled {walk : Walk R} {at_ : Place R} {e : Error R.Error}
    (failed : (at_.rules walk).result = .error e) : e.Compiled := by
  obtain ⟨path, visit⟩ := at_
  have evaluation : ∀ message, (Error.evaluation message : Error R.Error).Compiled := fun _ => nofun
  have value : ∀ validator bind child value, FailsIn Error.Compiled
      (ValueValidator.runRules walk validator bind child value : SpecM R.Error Unit) := by
    intro validator bind child value
    exact valueRules_fails evaluation walk validator bind child value
      (fun _ _ => celThis_compiled) (fun _ => readsThrough_compiled)
  cases visit with
  | message validator frame m =>
    exact messageRules_fails evaluation walk validator frame m (fun _ _ => parsed_compiled)
      (fun _ => nofun) _ _ failed
  | missing rules => cases failed
  | value validator bind v => exact value _ _ _ _ _ _ failed
  | key validator kind k => exact (value _ _ _ _).forKey _ _ failed

end Protovalidate
