import Protovalidate.BindingsSound

/-!
# What an evaluation returns

Calls share the rules that any of them built. As long as no file changes what rules
that are there are built as, each returns what it returns on its own.
-/

namespace Protovalidate

open Relation

namespace Validator
variable {R : Runtime} {self : Validator R}

/-- The types of a table are in the pool, and are resolved. -/
def Rooted (self : Validator R) (table : ValidatorCache R) : Prop :=
  ∀ index, (table index).isSome →
    index < self.pool.messages.length ∧ ∃ type, self.typeOf index = .ok type

/-- A cache that calls share, between two of their steps. -/
structure Cached (validator : Validator R) (cache : ValidatorCache R) : Prop where
  within : Table.Within cache validator.entry
  closed : Table.Closed validator.Holds cache
  rooted : validator.Rooted cache

theorem Cached.kept {cache : ValidatorCache R} (cached : self.Cached cache) :
    (⟨self, cache⟩ : Session R).Kept :=
  ⟨fun index had => (cached.rooted index had).1, cached.closed,
    fun index had => (cached.rooted index had).2, typed_of_within cached.within⟩

/-- A file that leaves the rules there are as they would be built. -/
theorem Cached.grown {cache : ValidatorCache R} (cached : self.Cached cache) {later : Validator R}
    (grown : Grown self later)
    (settles : ∀ index, (cache index).isSome → later.entry index = self.entry index) :
    later.Cached cache := by
  have kept := cached.kept.grown grown
  refine ⟨fun index entry found => ?_, kept.closed, fun index had => ?_⟩
  · rw [settles index (by rw [found]; rfl)]
    exact cached.within index entry found
  · exact ⟨kept.present index had, kept.resolves index had⟩

theorem build_rooted {index : MessageIndex} {known built : ValidatorCache R}
    (typed : self.CachedTypes known) (root : index < self.pool.messages.length)
    (done : self.build index known = .ok built) : self.Rooted built := by
  obtain ⟨types, messages, more, made, passes⟩ := build_built typed done
  intro nested had
  have member := (built_isSome made).mp had
  refine ⟨closure_lt root member, ?_⟩
  have referred : nested ∈ self.referredTo index known :=
    List.mem_flatMap.mpr ⟨nested, member, List.mem_cons_self⟩
  have passed := List.findSome?_eq_none_iff.mp passes nested referred
  unfold Memo.error at passed
  cases looked : self.typeOf nested with
  | error e => simp [looked] at passed
  | ok type => exact ⟨type, rfl⟩

theorem rooted_extend {cache built : ValidatorCache R} (first : self.Rooted cache)
    (second : self.Rooted built) : self.Rooted (Table.extend cache built) := by
  intro index had
  rw [Table.isSome_extend, Bool.or_eq_true] at had
  exact had.elim (second index) (first index)

/-- The first type that a call fails to resolve, when nothing was built before. -/
def unresolved (self : Validator R) (index : MessageIndex) : Option R.Error :=
  (self.referredTo index fun _ => none).findSome? (Memo.error self.typeOf)

/-- A call that builds or merges the rules of a type by name. -/
def Tracks (self : Validator R) (cache : ValidatorCache R) (typeName : String) : Call R → Prop
  | .started index => self.pool.messageIndex typeName = some index
  | .building index known =>
    self.pool.messageIndex typeName = some index ∧ Table.Within known cache ∧
      known index = none ∧ Table.Closed self.Holds known
  | .merging index built =>
    self.pool.messageIndex typeName = some index ∧ Table.Within built self.entry ∧
      Table.Completes self.Holds cache built ∧ (built index).isSome ∧ self.Rooted built
  | .idle | .returned _ _ | .failed _ => False

theorem Tracks.mono {cache larger : ValidatorCache R} {typeName : String} {call : Call R}
    (tracks : self.Tracks cache typeName call) (grows : Table.Within cache larger) :
    self.Tracks larger typeName call := by
  cases call with
  | started index => exact tracks
  | building index known =>
    obtain ⟨named, within, missing, closed⟩ := tracks
    exact ⟨named, within.trans grows, missing, closed⟩
  | merging index built =>
    obtain ⟨named, within, completes, root, rooted⟩ := tracks
    exact ⟨named, within, completes.mono grows, root, rooted⟩
  | idle | returned _ _ | failed _ => exact tracks

/-- What a call returns, or why it fails. -/
def Returns (self : Validator R) (typeName : String) (index : MessageIndex) :
    Except (Failed R.Error) (ValidatorCache R) → Prop
  | .ok validators =>
    self.pool.messageIndex typeName = some index ∧ self.Cached validators ∧
      (validators index).isSome
  | .error failure => self.pool.messageIndex typeName = some index ∧
      ((∃ e, self.unresolved index = some e ∧ failure = .read e) ∨ ∃ why, failure = .panic why)

/-- Where a step leads a call. -/
def Leads (self : Validator R) (cache : ValidatorCache R) (typeName : String) : Call R → Prop
  | .returned index validators => self.Returns typeName index (.ok validators)
  | .failed failure => ∃ index, self.Returns typeName index (.error failure)
  | call => self.Tracks cache typeName call

/-- One step of a call. -/
theorem advance_leads {cache cache' : ValidatorCache R} {typeName : String} {call next : Call R}
    (cached : self.Cached cache) (tracks : self.Tracks cache typeName call)
    (advanced : self.advance cache call = (cache', next)) :
    self.Cached cache' ∧ Table.Within cache cache' ∧ self.Leads cache' typeName next := by
  cases call with
  | started index =>
    simp only [advance] at advanced
    split at advanced <;> cases advanced
    · rename_i found
      exact ⟨cached, .refl _, tracks, cached, found⟩
    · rename_i missing
      exact ⟨cached, .refl _, tracks, .refl _, by simpa using missing, cached.closed⟩
  | building index known =>
    obtain ⟨named, within, missing, closed⟩ := tracks
    have determined := within.trans cached.within
    have typed := typed_of_within determined
    have root := messageIndex_lt named
    simp only [advance] at advanced
    split at advanced <;> cases advanced
    · rename_i built made
      obtain ⟨part, completes, present⟩ := build_determined determined made
      exact ⟨cached, .refl _, named, part, completes.mono within, present missing,
        build_rooted typed root made⟩
    · rename_i failure failed
      refine ⟨cached, .refl _, index, named, ?_⟩
      refine (build_failed typed failed).imp_left ?_
      rintro ⟨e, first, rfl⟩
      have same : (self.referredTo index known).findSome? (Memo.error self.typeOf) =
          self.unresolved index :=
        referredTo_error closed fun next had => (cached.rooted next (within.isSome had)).2
      exact ⟨e, same.symm.trans first, rfl⟩
  | merging index built =>
    obtain ⟨named, within, completes, root, rooted⟩ := tracks
    cases advanced
    have merged : self.Cached (Table.extend cache built) :=
      ⟨cached.within.extend within, cached.closed.extend completes,
        rooted_extend cached.rooted rooted⟩
    exact ⟨merged, cached.within.of_extend within, named, merged, by simp [root]⟩
  | idle | returned _ _ | failed _ => cases tracks

/-- A call that has rules for all types that it reaches resolves them. -/
theorem Cached.unresolved {validators : ValidatorCache R} (cached : self.Cached validators)
    {index : MessageIndex} (root : (validators index).isSome) : self.unresolved index = none := by
  have same : (self.referredTo index validators).findSome? (Memo.error self.typeOf) =
      self.unresolved index :=
    referredTo_error cached.closed fun next had => (cached.rooted next had).2
  rw [← same, referredTo, closure_known root]
  rfl

end Validator

section Core
variable {R : Runtime} {F P : Type} {setting : Setting R F P}

end Core

namespace Bindings
variable {R : Runtime} {F P Θ : Type} [DecidableEq F] [DecidableEq Θ] {setting : Setting R F P}

/-- The core of an engine, by now. -/
abbrev Engine.core (setting : Setting R F P) (runtime : ProtoRuntime) (engine : Engine R F) :
    Validator R :=
  setting.core runtime engine.registry.attempts

/-- What a call returns of a message when nothing was validated before. -/
def alone (setting : Setting R F P) (engine : Engine R F) (message : Adapted R F)
    (typeName : String) : Except (PyErr R.Error) (List Violation) :=
  evaluated ((engine.core setting message.runtime).run (fun _ => none) typeName message.read
    message.failFast).1

/-- A step registers no file that changes what the rules there are would be built as. -/
def Settles (setting : Setting R F P) (s s' : State R F Θ) : Prop :=
  ∀ runtime engine later, s.engines runtime = .created engine →
    s'.engines runtime = .created later → ∀ index, (engine.cache index).isSome →
      (later.core setting runtime).entry index = (engine.core setting runtime).entry index

/-- What a call that reads has of the rules. -/
def Check.Settled (setting : Setting R F P) (engines : ProtoRuntime → Slot R F) :
    Check R F → Prop
  | .reading message _ typeName call => message.typeName = .ok typeName ∧
    ∃ engine, engines message.runtime = .created engine ∧
      (engine.core setting message.runtime).Tracks engine.cache typeName call
  | .walking message _ typeName index validators => message.typeName = .ok typeName ∧
    ∃ engine, engines message.runtime = .created engine ∧
      (engine.core setting message.runtime).Returns typeName index (.ok validators)
  | _ => True

/-- The invariant of a run whose registrations change no rules that are there. -/
structure State.Settled (setting : Setting R F P) (s : State R F Θ) : Prop where
  sound : s.Sound setting
  engines : ∀ runtime engine, s.engines runtime = .created engine →
    (engine.core setting runtime).Cached engine.cache
  calls : ∀ t, (s.calls t).Settled setting s.engines

omit [DecidableEq F] in
/-- Other threads leave the core of a call that reads, and add to its cache. -/
theorem Check.Settled.mono {engines later : ProtoRuntime → Slot R F} {call : Check R F}
    (settled : call.Settled setting engines)
    (serves : ∀ runtime engine, call.Reads runtime → engines runtime = .created engine →
      ∃ engine', later runtime = .created engine' ∧ engine'.registry = engine.registry ∧
        Table.Within engine.cache engine'.cache) : call.Settled setting later := by
  cases call with
  | reading message file typeName call =>
    obtain ⟨named, engine, created, tracks⟩ := settled
    obtain ⟨engine', created', same, grows⟩ := serves _ engine rfl created
    refine ⟨named, engine', created', ?_⟩
    unfold Engine.core
    rw [same]
    exact tracks.mono grows
  | walking message file typeName index validators =>
    obtain ⟨named, engine, created, returns⟩ := settled
    obtain ⟨engine', created', same, -⟩ := serves _ engine rfl created
    refine ⟨named, engine', created', ?_⟩
    unfold Engine.core
    rw [same]
    exact returns
  | idle | resolved _ | creating _ | started _ _ | missed _ _ | registered _ _ | ended _ => trivial

omit [DecidableEq F] [DecidableEq Θ] in
/-- A step of the cache by any call leads on from it. -/
theorem State.Settled.leads {s : State R F Θ} (settled : s.Settled setting) {t : Θ}
    {message : Adapted R F} {file : F} {typeName : String} {call next : Call R}
    (calls : s.calls t = .reading message file typeName call) {engine : Engine R F}
    (here : s.engines message.runtime = .created engine) {cache : ValidatorCache R}
    (advanced : (engine.core setting message.runtime).advance engine.cache call = (cache, next)) :
    message.typeName = .ok typeName ∧ (engine.core setting message.runtime).Cached cache ∧
      Table.Within engine.cache cache ∧
      (engine.core setting message.runtime).Leads cache typeName next := by
  have tracked := settled.calls t
  rw [calls] at tracked
  obtain ⟨named, engine', created, tracks⟩ := tracked
  cases here.symm.trans created
  exact ⟨named, Validator.advance_leads (settled.engines _ engine here) tracks advanced⟩

/-- How an evaluation comes to an end: the type of the message is not known, its rules
cannot be had, or it was walked. -/
inductive Ends (core : Validator R) (cache : ValidatorCache R) (message : Adapted R F) (file : F)
    (result : Except (PyErr R.Error) (List Violation)) : Check R F → Prop
  | entered : enter message file core = .ended result → Ends core cache message file result
      (.registered message file)
  | read {typeName : String} {call next : Call R} {cache' : ValidatorCache R} :
    core.advance cache call = (cache', next) → read message file typeName next = .ended result →
    Ends core cache message file result (.reading message file typeName call)
  | walked {typeName : String} {index : MessageIndex} {validators : ValidatorCache R} :
    result = evaluated (core.runWith validators index typeName message.read message.failFast) →
    Ends core cache message file result (.walking message file typeName index validators)

end Bindings

end Protovalidate
