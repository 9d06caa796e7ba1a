import Protovalidate.Bindings

/-!
# What an evaluation can rely on

An engine is in place once all preregistered files are, and stays. A call evaluates
its message with the files it needs in the core, which no other thread changes
meanwhile.
-/

namespace Protovalidate

open Relation

namespace Setting
variable {R : Runtime} {F P : Type} (setting : Setting R F P) {runtime : ProtoRuntime}

/-- The core took a file, and so did the registry of protobuf-py. -/
def Taken (runtime : ProtoRuntime) (attempts : List (Attempt F)) (file : F) : Prop :=
  ∃ before attempt after bytes, attempts = before ++ attempt :: after ∧ attempt.file = file ∧
    setting.serialize runtime file = .ok bytes ∧
    (setting.core runtime before).addFileDescriptorBytes setting.linker bytes =
      (.ok (), setting.core runtime (before ++ [attempt])) ∧
    (runtime = .protobufPy → setting.addToRegistry before file = .ok ())

theorem core_append (before after : List (Attempt F)) :
    setting.core runtime (before ++ after) =
      after.foldl (setting.takes runtime) (setting.core runtime before) :=
  List.foldl_append

variable {setting}

/-- A file that was added was taken. -/
theorem taken_of_added {registry : Registry F}
    (faithful : registry.Faithful (setting.adder runtime)) {file : F}
    (added : Added registry.attempts file) : setting.Taken runtime registry.attempts file := by
  obtain ⟨attempt, member, rfl, succeeded⟩ := added
  obtain ⟨before, after, split⟩ := List.append_of_mem member
  obtain ⟨bytes, serialized, returned⟩ := faithful before attempt after split
  have serialized := mapError_eq_ok.mp serialized
  have returned := returned.mp succeeded
  have last : setting.core runtime (before ++ [attempt]) =
      ((setting.core runtime before).addFileDescriptorBytes setting.linker bytes).2 := by
    rw [core_append, List.foldl_cons, List.foldl_nil, takes, serialized]
  refine ⟨before, attempt, after, bytes, split, rfl, serialized, ?_, ?_⟩
  · rw [last]
    simp only [adder] at returned
    generalize (setting.core runtime before).addFileDescriptorBytes setting.linker bytes = result
      at returned
    obtain ⟨_ | _, core⟩ := result
    · cases returned
    · rfl
  · rintro rfl
    simp only [adder] at returned
    split at returned
    · cases returned
    · exact mapError_eq_ok.mp returned

end Setting

namespace Bindings
variable {R : Runtime} {F P Θ : Type} [DecidableEq F] [DecidableEq Θ] {setting : Setting R F P}

/-- An engine in place. -/
structure Engine.Sound (setting : Setting R F P) (runtime : ProtoRuntime) (engine : Engine R F) :
    Prop where
  registry : engine.registry.Sound (setting.graph runtime)
  faithful : engine.registry.Faithful (setting.adder runtime)
  preregistered : ∀ file ∈ setting.preregistered, file ∈ engine.registry.registered

/-- What an engine has taken, it keeps. -/
structure Engine.Extends (engine later : Engine R F) : Prop where
  attempts : engine.registry.attempts <+: later.registry.attempts
  registered : ∀ file ∈ engine.registry.registered, file ∈ later.registry.registered

omit [DecidableEq F] in
theorem Engine.Extends.refl (engine : Engine R F) : engine.Extends engine :=
  ⟨List.prefix_refl _, fun _ present => present⟩

omit [DecidableEq F] in
theorem Engine.Extends.trans {a b c : Engine R F} (first : a.Extends b) (second : b.Extends c) :
    a.Extends c :=
  ⟨first.attempts.trans second.attempts,
    fun file present => second.registered file (first.registered file present)⟩

/-- Engines stay in place. -/
def Extends (engines later : ProtoRuntime → Slot R F) : Prop :=
  ∀ runtime engine, engines runtime = .created engine →
    ∃ engine', later runtime = .created engine' ∧ engine.Extends engine'

omit [DecidableEq F] in
theorem Extends.refl (engines : ProtoRuntime → Slot R F) : Extends engines engines :=
  fun _ engine here => ⟨engine, here, .refl _⟩

omit [DecidableEq F] in
theorem Extends.trans {a b c : ProtoRuntime → Slot R F} (first : Extends a b)
    (second : Extends b c) : Extends a c := by
  intro runtime engine here
  obtain ⟨engine', there, extends_⟩ := first runtime engine here
  obtain ⟨engine'', last, extends'⟩ := second runtime engine' there
  exact ⟨engine'', last, extends_.trans extends'⟩

omit [DecidableEq F] in
/-- A slot without an engine, or with one that is extended, is replaced. -/
theorem Extends.update {engines : ProtoRuntime → Slot R F} {runtime : ProtoRuntime}
    {slot : Slot R F} (replaces : ∀ engine, engines runtime = .created engine →
      ∃ later, slot = .created later ∧ engine.Extends later) :
    Extends engines (Function.update engines runtime slot) := by
  intro other engine here
  by_cases same : other = runtime
  · subst same
    obtain ⟨later, rfl, extends_⟩ := replaces engine here
    exact ⟨later, Function.update_self .., extends_⟩
  · exact ⟨engine, by rw [Function.update_of_ne same, here], .refl _⟩

/-- A file and all that it imports are registered with the engine of a runtime. -/
def HasFile (setting : Setting R F P) (engines : ProtoRuntime → Slot R F)
    (message : Adapted R F) (file : F) : Prop :=
  message.file = .ok file ∧ ∃ engine, engines message.runtime = .created engine ∧
    ∀ dependency, (setting.graph message.runtime).Below file dependency →
      dependency ∈ engine.registry.registered

/-- What a call relies on. -/
def Check.Sound (setting : Setting R F P) (engines : ProtoRuntime → Slot R F) :
    Check R F → Prop
  | .idle | .resolved _ | .ended _ => True
  | .creating message => engines message.runtime = .creating
  | .started message file | .missed message file =>
    message.file = .ok file ∧ ∃ engine, engines message.runtime = .created engine
  | .registered message file | .reading message file _ _ | .walking message file _ _ _ =>
    HasFile setting engines message file

omit [DecidableEq F] in
theorem HasFile.mono {engines later : ProtoRuntime → Slot R F} {message : Adapted R F} {file : F}
    (here : HasFile setting engines message file) (extends_ : Extends engines later) :
    HasFile setting later message file := by
  obtain ⟨own, engine, created, below⟩ := here
  obtain ⟨engine', created', kept⟩ := extends_ _ engine created
  exact ⟨own, engine', created', fun other path => kept.registered other (below other path)⟩

omit [DecidableEq F] in
/-- Other threads leave a call what it relies on, if they leave it the slot that it
creates an engine in. -/
theorem Check.Sound.mono {engines later : ProtoRuntime → Slot R F} {call : Check R F}
    (sound : call.Sound setting engines) (extends_ : Extends engines later)
    (creates : ∀ message, call = .creating message → later message.runtime = .creating) :
    call.Sound setting later := by
  cases call with
  | idle | resolved _ | ended _ => trivial
  | creating message => exact creates message rfl
  | started message file | missed message file =>
    obtain ⟨own, engine, created⟩ := sound
    obtain ⟨engine', created', -⟩ := extends_ _ engine created
    exact ⟨own, engine', created'⟩
  | registered message file | reading message file _ _ | walking message file _ _ _ =>
    exact HasFile.mono sound extends_

/-- The invariant of a validator that threads share. -/
structure State.Sound (setting : Setting R F P) (s : State R F Θ) : Prop where
  engines : ∀ runtime engine, s.engines runtime = .created engine → engine.Sound setting runtime
  calls : ∀ t, (s.calls t).Sound setting s.engines
  alone : ∀ t u message other, s.calls t = .creating message → s.calls u = .creating other →
    message.runtime = other.runtime → t = u

omit [DecidableEq F] in
/-- A step of one thread, from what it makes of its own call and of the engines. -/
theorem State.Sound.update {s : State R F Θ} (sound : s.Sound setting)
    {engines : ProtoRuntime → Slot R F} {t : Θ} {call : Check R F}
    (placed : ∀ runtime engine, engines runtime = .created engine → engine.Sound setting runtime)
    (extends_ : Extends s.engines engines) (own : call.Sound setting engines)
    (others : ∀ u, u ≠ t → ∀ message, s.calls u = .creating message →
      engines message.runtime = .creating ∧
        ∀ other, call = .creating other → message.runtime ≠ other.runtime) :
    (⟨engines, Function.update s.calls t call⟩ : State R F Θ).Sound setting := by
  refine ⟨placed, ?_, ?_⟩
  · rw [Function.forall_update_iff s.calls fun _ call => call.Sound setting engines]
    refine ⟨own, fun u different => (sound.calls u).mono extends_ fun message creating => ?_⟩
    exact (others u different message creating).1
  · intro u v message other first second same
    dsimp only at first second
    by_cases mine : u = t
    · by_cases yours : v = t
      · rw [mine, yours]
      · rw [mine, Function.update_self] at first
        rw [Function.update_of_ne yours] at second
        exact absurd same.symm ((others v yours other second).2 message first)
    · rw [Function.update_of_ne mine] at first
      by_cases yours : v = t
      · rw [yours, Function.update_self] at second
        exact absurd same ((others u mine message first).2 other second)
      · rw [Function.update_of_ne yours] at second
        exact sound.alone u v message other first second same

omit [DecidableEq F] in
/-- A step that leaves the engines alone, and creates none. -/
theorem State.Sound.call {s : State R F Θ} (sound : s.Sound setting) {t : Θ} {call : Check R F}
    (own : call.Sound setting s.engines) (creates : ∀ message, call ≠ .creating message) :
    ({ s with calls := Function.update s.calls t call } : State R F Θ).Sound setting := by
  refine sound.update sound.engines (.refl _) own fun u _ message creating => ⟨?_, ?_⟩
  · have relies := sound.calls u
    rw [creating] at relies
    exact relies
  · exact fun other same => absurd same (creates other)

omit [DecidableEq F] in
/-- A step that replaces the slot of a runtime that no other thread creates an engine
in. -/
theorem State.Sound.slot {s : State R F Θ} (sound : s.Sound setting) {t : Θ}
    {runtime : ProtoRuntime} {slot : Slot R F} {call : Check R F}
    (placed : ∀ engine, slot = .created engine → engine.Sound setting runtime)
    (replaces : ∀ engine, s.engines runtime = .created engine →
      ∃ later, slot = .created later ∧ engine.Extends later)
    (own : call.Sound setting (Function.update s.engines runtime slot))
    (creates : ∀ message, call = .creating message → message.runtime = runtime)
    (elsewhere : ∀ u, u ≠ t → ∀ message, s.calls u = .creating message →
      message.runtime ≠ runtime) :
    (⟨Function.update s.engines runtime slot, Function.update s.calls t call⟩ :
      State R F Θ).Sound setting := by
  refine sound.update (fun other engine here => ?_) (.update replaces) own
    fun u different message creating => ⟨?_, ?_⟩
  · by_cases same : other = runtime
    · subst same
      rw [Function.update_self] at here
      exact placed engine here
    · rw [Function.update_of_ne same] at here
      exact sound.engines other engine here
  · have relies := sound.calls u
    rw [creating] at relies
    rw [Function.update_of_ne (elsewhere u different message creating)]
    exact relies
  · intro other same
    rw [creates other same]
    exact elsewhere u different message creating

omit [DecidableEq F] [DecidableEq Θ] in
/-- No thread creates an engine where one is in place, or where there is none. -/
theorem State.Sound.idle {s : State R F Θ} (sound : s.Sound setting) {runtime : ProtoRuntime}
    (here : s.engines runtime ≠ .creating) (u : Θ) (message : Adapted R F)
    (creating : s.calls u = .creating message) : message.runtime ≠ runtime := by
  rintro rfl
  have relies := sound.calls u
  rw [creating] at relies
  exact here relies

omit [DecidableEq F] in
variable (setting) in
theorem locate_sound {engines : ProtoRuntime → Slot R F} {message : Adapted R F}
    {engine : Engine R F} (created : engines message.runtime = .created engine) :
    (Check.locate message).Sound setting engines ∧
      ∀ other, Check.locate message ≠ .creating other := by
  unfold Check.locate
  cases own : message.file with
  | error e => exact ⟨trivial, fun other same => by cases same⟩
  | ok file => exact ⟨⟨own, engine, created⟩, fun other same => by cases same⟩

/-- What `Engine::new` returns. -/
theorem newEngine_sound {runtime : ProtoRuntime} {engine : Engine R F}
    (made : newEngine setting runtime = .ok engine) : engine.Sound setting runtime := by
  have ends := newEngine_ends (setting.graph runtime) (setting.adder runtime) setting.preregistered
  have faithful := newEngine_faithful (setting.graph runtime) (setting.adder runtime)
    setting.preregistered
  unfold newEngine at made
  generalize Protovalidate.newEngine (setting.graph runtime) (setting.adder runtime)
    setting.preregistered (.empty F) = result at ends faithful made
  cases ends with
  | ok held =>
    cases made
    exact ⟨held.1, faithful, held.2⟩
  | error _ => cases made

/-- The walk of a call that registers a file. -/
theorem Engine.Sound.register {runtime : ProtoRuntime} {engine : Engine R F}
    (sound : engine.Sound setting runtime) {file : F} {result : Except (PyErr R.Error) Unit}
    {registry : Registry F}
    (walked : collectFiles (setting.graph runtime) (setting.adder runtime) file engine.registry =
      (result, registry)) :
    (⟨registry, engine.cache⟩ : Engine R F).Sound setting runtime ∧
      engine.Extends ⟨registry, engine.cache⟩ ∧
      (result = .ok () → ∀ dependency, (setting.graph runtime).Below file dependency →
        dependency ∈ registry.registered) := by
  have ends : Registers (setting.graph runtime) (setting.adder runtime) file engine.registry _ :=
    collectFiles_ends file engine.registry sound.registry
  have faithful := collectFiles_faithful (setting.graph runtime) (setting.adder runtime) file
    engine.registry sound.faithful
  rw [walked] at ends faithful
  have extends_ : ∀ {within : F → Prop}, engine.registry.Grows within registry →
      engine.Extends ⟨registry, engine.cache⟩ := by
    intro within grown
    obtain ⟨⟨new, shape, -⟩, kept⟩ := grown
    exact ⟨⟨new, shape.symm⟩, kept⟩
  cases ends with
  | ok through =>
    exact ⟨⟨through.sound, faithful, fun file member =>
      through.grown.registered file (sound.preregistered file member)⟩, extends_ through.grown,
      fun _ => through.present⟩
  | error cut =>
    exact ⟨⟨cut.sound, faithful, fun file member =>
      cut.grown.registered file (sound.preregistered file member)⟩, extends_ cut.grown,
      fun same => by cases same⟩

section Slots
omit [DecidableEq F] [DecidableEq Θ]
variable {s : State R F Θ} {runtime : ProtoRuntime} {engine later : Engine R F}

theorem replaces_nothing {slot : Slot R F} (here : s.engines runtime = slot)
    (none : ∀ engine, slot ≠ .created engine) (next : Slot R F) (engine : Engine R F)
    (created : s.engines runtime = .created engine) :
    ∃ later, next = .created later ∧ engine.Extends later :=
  absurd (here.symm.trans created) (none engine)

theorem replaces_extended (here : s.engines runtime = .created engine)
    (extends_ : engine.Extends later) (other : Engine R F)
    (created : s.engines runtime = .created other) :
    ∃ later', Slot.created later = .created later' ∧ other.Extends later' := by
  cases here.symm.trans created
  exact ⟨later, rfl, extends_⟩

end Slots

section Calls
omit [DecidableEq Θ]
variable {engines : ProtoRuntime → Slot R F} {message : Adapted R F} {file : F}

omit [DecidableEq F] in
variable (setting) in
theorem start_sound (message : PyMessage R F) (failFast : Bool) :
    (Check.start message failFast).Sound setting engines ∧
      ∀ other, Check.start message failFast ≠ .creating other := by
  unfold Check.start
  cases Adapted.resolve message failFast with
  | error e => exact ⟨trivial, fun _ same => by cases same⟩
  | ok message => exact ⟨trivial, fun _ same => by cases same⟩

/-- A file that is found is there with all that it imports. -/
theorem lookup_sound {engine : Engine R F} (created : engines message.runtime = .created engine)
    (placed : engine.Sound setting message.runtime) (own : message.file = .ok file) :
    (lookup message file engine.registry).Sound setting engines ∧
      ∀ other, lookup message file engine.registry ≠ .creating other := by
  unfold lookup
  split
  · rename_i present
    have present : file ∈ engine.registry.registered := by simpa using present
    exact ⟨⟨own, engine, created, fun _ below => placed.registry.closed present below⟩,
      fun _ same => by cases same⟩
  · exact ⟨⟨own, engine, created⟩, fun _ same => by cases same⟩

omit [DecidableEq F] in
theorem enter_sound (here : HasFile setting engines message file) (core : Validator R) :
    (enter message file core).Sound setting engines ∧
      ∀ other, enter message file core ≠ .creating other := by
  unfold enter
  cases message.typeName with
  | error e => exact ⟨trivial, fun _ same => by cases same⟩
  | ok typeName =>
    dsimp only
    cases core.pool.messageIndex typeName with
    | none => exact ⟨trivial, fun _ same => by cases same⟩
    | some index => exact ⟨here, fun _ same => by cases same⟩

omit [DecidableEq F] in
theorem read_sound (here : HasFile setting engines message file) (typeName : String)
    (next : Call R) : (read message file typeName next).Sound setting engines ∧
      ∀ other, read message file typeName next ≠ .creating other := by
  cases next <;> first
    | exact ⟨here, fun _ same => by cases same⟩
    | exact ⟨trivial, fun _ same => by cases same⟩

end Calls

/-- One step of any thread keeps the invariant, and the engines in place. -/
theorem step_sound {s s' : State R F Θ} (sound : s.Sound setting) (step : Step setting s s') :
    s'.Sound setting ∧ Extends s.engines s'.engines := by
  cases step with
  | call t message failFast _ =>
    obtain ⟨started, creates⟩ := start_sound setting message failFast
    exact ⟨sound.call started creates, .refl _⟩
  | @create t message calls empty =>
    have none := replaces_nothing empty (fun _ same => by cases same) .creating
    refine ⟨sound.slot (fun _ same => by cases same) none (Function.update_self ..) ?_ ?_,
      .update none⟩
    · intro other same
      cases same
      rfl
    · exact fun u _ => sound.idle (by rw [empty]; exact fun same => by cases same) u
  | @found t message engine calls created =>
    obtain ⟨located, creates⟩ := locate_sound setting created
    exact ⟨sound.call located creates, .refl _⟩
  | @created t message engine calls made =>
    have relies := sound.calls t
    rw [calls] at relies
    have none := replaces_nothing relies (fun _ same => by cases same) (.created engine)
    obtain ⟨located, creates⟩ := locate_sound setting
      (Function.update_self message.runtime (.created engine) s.engines)
    refine ⟨sound.slot ?_ none located (fun other same => absurd same (creates other)) ?_,
      .update none⟩
    · intro other same
      cases same
      exact newEngine_sound made
    · intro u different other creating same
      exact different (sound.alone u t other message creating calls same)
  | @uncreated t message e calls failed =>
    have relies := sound.calls t
    rw [calls] at relies
    have none := replaces_nothing relies (fun _ same => by cases same) .empty
    refine ⟨sound.slot (fun _ same => by cases same) none trivial (fun _ same => by cases same) ?_,
      .update none⟩
    intro u different other creating same
    exact different (sound.alone u t other message creating calls same)
  | @lookup t message file engine calls created =>
    have relies := sound.calls t
    rw [calls] at relies
    obtain ⟨looked, creates⟩ := lookup_sound created (sound.engines _ engine created) relies.1
    exact ⟨sound.call looked creates, .refl _⟩
  | @register t message file engine result registry calls created _ walked =>
    have relies := sound.calls t
    rw [calls] at relies
    obtain ⟨placed, extends_, below⟩ := (sound.engines _ engine created).register walked
    have replaces := replaces_extended created extends_
    refine ⟨sound.slot ?_ replaces ?_ ?_ ?_, .update replaces⟩
    · intro other same
      cases same
      exact placed
    · cases result with
      | error e => trivial
      | ok u => exact ⟨relies.1, _, Function.update_self .., below rfl⟩
    · cases result <;> exact fun _ same => by cases same
    · exact fun u _ => sound.idle (by rw [created]; exact fun same => by cases same) u
  | @enter t message file engine calls created =>
    have relies := sound.calls t
    rw [calls] at relies
    obtain ⟨entered, creates⟩ := enter_sound relies
      (setting.core message.runtime engine.registry.attempts)
    exact ⟨sound.call entered creates, .refl _⟩
  | @read t message file typeName call engine cache next calls created advanced =>
    have relies := sound.calls t
    rw [calls] at relies
    have placed := sound.engines _ engine created
    have replaces := replaces_extended created (show engine.Extends ⟨engine.registry, cache⟩ from
      ⟨List.prefix_refl _, fun _ present => present⟩)
    have settled := HasFile.mono relies (Extends.update replaces)
    obtain ⟨ran, creates⟩ := read_sound settled typeName next
    refine ⟨sound.slot ?_ replaces ran (fun other same => absurd same (creates other)) ?_,
      .update replaces⟩
    · intro other same
      cases same
      exact ⟨placed.registry, placed.faithful, placed.preregistered⟩
    · exact fun u _ => sound.idle (by rw [created]; exact fun same => by cases same) u
  | @walk t message file typeName index validators engine calls created =>
    exact ⟨sound.call trivial (fun _ same => by cases same), .refl _⟩

theorem steps_sound {s s' : State R F Θ} (sound : s.Sound setting)
    (steps : ReflTransGen (Step setting) s s') :
    s'.Sound setting ∧ Extends s.engines s'.engines := by
  induction steps with
  | refl => exact ⟨sound, .refl _⟩
  | tail _ step ih =>
    obtain ⟨sound, first⟩ := ih
    obtain ⟨sound, second⟩ := step_sound sound step
    exact ⟨sound, first.trans second⟩

theorem reachable_sound {s : State R F Θ} (reachable : Reachable setting s) : s.Sound setting := by
  have start : (fresh : State R F Θ).Sound setting := by
    refine ⟨fun _ _ created => ?_, fun _ => trivial, fun _ _ _ _ creating => ?_⟩
    · cases created
    · cases creating
  exact (steps_sound start reachable).1

/-- The call evaluates a message of a file. -/
def Check.Evaluates (message : Adapted R F) (file : F) : Check R F → Prop
  | .registered message' file' | .reading message' file' _ _ | .walking message' file' _ _ _ =>
    message' = message ∧ file' = file
  | _ => False

omit [DecidableEq F] in
theorem Check.Sound.evaluates {engines : ProtoRuntime → Slot R F} {call : Check R F}
    (sound : call.Sound setting engines) {message : Adapted R F} {file : F}
    (evaluates : call.Evaluates message file) : HasFile setting engines message file := by
  cases call with
  | registered _ _ | reading _ _ _ _ | walking _ _ _ _ _ =>
    obtain ⟨rfl, rfl⟩ := evaluates
    exact sound
  | idle | resolved _ | creating _ | started _ _ | missed _ _ | ended _ => cases evaluates

/-- How a step leads to an engine. -/
inductive Replaced (setting : Setting R F P) (s : State R F Θ) (runtime : ProtoRuntime)
    (later : Engine R F) : Prop
  | kept : s.engines runtime = .created later → Replaced setting s runtime later
  | created {u : Θ} {message : Adapted R F} : s.calls u = .creating message →
    message.runtime = runtime → newEngine setting runtime = .ok later →
    Replaced setting s runtime later
  | registered {engine : Engine R F} : s.engines runtime = .created engine →
    (∀ u, ¬(s.calls u).Reads runtime) → later.cache = engine.cache →
    Replaced setting s runtime later
  | read {engine : Engine R F} {u : Θ} {message : Adapted R F} {file : F} {typeName : String}
      {call next : Call R} : s.engines runtime = .created engine →
    s.calls u = .reading message file typeName call → message.runtime = runtime →
    later.registry = engine.registry →
    (setting.core runtime engine.registry.attempts).advance engine.cache call =
      (later.cache, next) → Replaced setting s runtime later

theorem step_replaced {s s' : State R F Θ} (step : Step setting s s') {runtime : ProtoRuntime}
    {later : Engine R F} (there : s'.engines runtime = .created later) :
    Replaced setting s runtime later := by
  have elsewhere : ∀ {other slot}, runtime ≠ other →
      Function.update s.engines other slot runtime = .created later →
        Replaced setting s runtime later :=
    fun different there => .kept ((Function.update_of_ne different ..).symm.trans there)
  cases step with
  | call | found | lookup | enter | walk => exact .kept there
  | @create _ message _ _ | @uncreated _ message _ _ _ =>
    by_cases same : runtime = message.runtime
    · subst same
      cases (Function.update_self ..).symm.trans there
    · exact elsewhere same there
  | @created u message engine calls made =>
    by_cases same : runtime = message.runtime
    · subst same
      cases (Function.update_self ..).symm.trans there
      exact .created calls rfl made
    · exact elsewhere same there
  | @register u message file engine result registry calls created free walked =>
    by_cases same : runtime = message.runtime
    · subst same
      cases (Function.update_self ..).symm.trans there
      exact .registered created free rfl
    · exact elsewhere same there
  | @read u message file typeName call engine cache next calls created advanced =>
    by_cases same : runtime = message.runtime
    · subst same
      cases (Function.update_self ..).symm.trans there
      exact .read created calls rfl rfl advanced
    · exact elsewhere same there

/-- While a thread holds the lock of a core, no thread registers anything. -/
theorem reads_unchanged {s s' : State R F Θ} (sound : s.Sound setting) (step : Step setting s s')
    {t : Θ} {runtime : ProtoRuntime} (reads : (s.calls t).Reads runtime) {engine : Engine R F}
    (here : s.engines runtime = .created engine) :
    ∃ later, s'.engines runtime = .created later ∧ later.registry = engine.registry := by
  obtain ⟨later, there, -⟩ := (step_sound sound step).2 runtime engine here
  refine ⟨later, there, ?_⟩
  cases step_replaced step there with
  | kept created =>
    cases here.symm.trans created
    rfl
  | @created u message calls same made =>
    have creating := sound.calls u
    rw [calls] at creating
    subst same
    cases creating.symm.trans here
  | registered _ free _ => exact absurd reads (free t)
  | read created _ _ same _ =>
    cases here.symm.trans created
    exact same

omit [DecidableEq F] in
/-- The files that declare extensions are preregistered. -/
theorem mem_collectRegistry {registry : List (RegistryEntry F)} {descriptor : RegistryEntry F}
    (member : descriptor ∈ registry) {extensions : Nat}
    (declares : descriptor.extensions = some (some extensions)) (some_ : extensions ≠ 0) :
    descriptor.file.getD descriptor.self ∈ collectRegistry registry := by
  refine List.mem_filterMap.mpr ⟨descriptor, member, ?_⟩
  simp [declares, some_]

/-- In every reachable state an engine in place has taken the files of the registry that
declare extensions, and a call evaluates its message with an engine that has taken its
file, each with all that they import. What an engine has taken it keeps, and takes
nothing while a call reads its core. No two threads create an engine for one runtime at
a time. -/
theorem evaluates_taken {s : State R F Θ} (reachable : Reachable setting s) :
    (∀ runtime engine, s.engines runtime = .created engine → ∀ descriptor ∈ setting.registry,
      ∀ extensions, descriptor.extensions = some (some extensions) → extensions ≠ 0 →
        ∀ dependency,
          (setting.graph runtime).Below (descriptor.file.getD descriptor.self) dependency →
            setting.Taken runtime engine.registry.attempts dependency) ∧
    (∀ t message file, (s.calls t).Evaluates message file → message.file = .ok file ∧
      ∃ engine, s.engines message.runtime = .created engine ∧
        ∀ dependency, (setting.graph message.runtime).Below file dependency →
          setting.Taken message.runtime engine.registry.attempts dependency) ∧
    (∀ t runtime engine, (s.calls t).Reads runtime → s.engines runtime = .created engine →
      ∀ later, Step setting s later → ∃ engine', later.engines runtime = .created engine' ∧
        engine'.registry = engine.registry) ∧
    (∀ later, ReflTransGen (Step setting) s later → ∀ runtime engine,
      s.engines runtime = .created engine → ∃ engine', later.engines runtime = .created engine' ∧
        engine.registry.attempts <+: engine'.registry.attempts) ∧
    ∀ t u message other, s.calls t = .creating message → s.calls u = .creating other →
      message.runtime = other.runtime → t = u := by
  have sound := reachable_sound reachable
  have taken : ∀ {runtime engine}, s.engines runtime = .created engine → ∀ {file},
      file ∈ engine.registry.registered → setting.Taken runtime engine.registry.attempts file := by
    intro runtime engine here file present
    have placed := sound.engines runtime engine here
    exact Setting.taken_of_added placed.faithful ((placed.registry.exact file).mp present)
  refine ⟨?_, ?_, ?_, ?_, sound.alone⟩
  · intro runtime engine here descriptor member extensions declares some_ dependency below
    have placed := sound.engines runtime engine here
    have present := placed.preregistered _ (mem_collectRegistry member declares some_)
    exact taken here (placed.registry.closed present below)
  · intro t message file evaluates
    obtain ⟨own, engine, here, below⟩ := (sound.calls t).evaluates evaluates
    exact ⟨own, engine, here, fun dependency path => taken here (below dependency path)⟩
  · exact fun t runtime engine reads here later step => reads_unchanged sound step reads here
  · intro later steps runtime engine here
    obtain ⟨engine', there, extends_⟩ := (steps_sound sound steps).2 runtime engine here
    exact ⟨engine', there, extends_.attempts⟩

/-- The files of the message and of the extension, which do not import each other. -/
def unrelated : ImportGraph Bool := .ofFinite (fun _ => []) fun file cycle => by
  obtain ⟨_, member, -⟩ := TransGen.head'_iff.mp cycle
  cases member

/-- Both files, of which the registry has the extension's. -/
def agreementSetting : Setting ⟨String, Unit⟩ Bool MustBeFile where
  start _ := boolValidator
  linker := mustBeLinker
  graph _ := unrelated
  serialize _ file := .ok (if file then [2] else [1])
  addToRegistry _ _ := .ok ()
  registry := [⟨some (some 1), none, true⟩]

def agreementDescriptor : PyDescriptor Bool String := ⟨.ok false, fun _ => .ok "Agreement"⟩

/-- The message as an object of either runtime. -/
def agreementMessage (runtime : ProtoRuntime) : PyMessage ⟨String, Unit⟩ Bool where
  desc := if runtime = .protobufPy then .ok agreementDescriptor else .error "no method desc"
  descriptorUpper := if runtime = .google then .ok agreementDescriptor else .error "no DESCRIPTOR"
  read _ := .ok agreed

def adapted (runtime : ProtoRuntime) : Adapted ⟨String, Unit⟩ Bool :=
  ⟨runtime, agreementDescriptor, fun _ => .ok agreed, false⟩

def extensionTaken : Registry Bool := ⟨[true], [⟨true, [], true⟩]⟩

def bothTaken : Registry Bool := ⟨[false, true], [⟨true, [], true⟩, ⟨false, [true], true⟩]⟩

theorem agreement_engine (runtime : ProtoRuntime) :
    newEngine agreementSetting runtime = .ok ⟨extensionTaken, fun _ => none⟩ := by
  have collected : collectFiles unrelated (agreementSetting.adder runtime) true
      (.empty Bool) = (.ok (), extensionTaken) := by
    rw [collectFiles]
    cases runtime <;> rfl
  have registered : Protovalidate.register unrelated (agreementSetting.adder runtime) true
      (.empty Bool) = (.ok (), extensionTaken) := collected
  have made : Protovalidate.newEngine unrelated (agreementSetting.adder runtime) [true]
      (.empty Bool) = (.ok (), extensionTaken) := by
    simp only [Protovalidate.newEngine, Step.each, Step.andThen, registered]
  have preregistered : agreementSetting.preregistered = [true] := rfl
  have graph : agreementSetting.graph runtime = unrelated := rfl
  unfold newEngine
  rw [preregistered, graph, made]

theorem agreement_walk (runtime : ProtoRuntime) :
    collectFiles unrelated (agreementSetting.adder runtime) false extensionTaken =
      (.ok (), bothTaken) := by
  rw [collectFiles]
  cases runtime <;> rfl

/-- A second walk finds the file. -/
theorem agreement_again (runtime : ProtoRuntime) :
    collectFiles unrelated (agreementSetting.adder runtime) false bothTaken =
      (.ok (), bothTaken) := by
  rw [collectFiles]
  rfl

/-- No rules are built yet. -/
def Unbuilt (s : State R F Θ) : Prop :=
  ∀ runtime engine, s.engines runtime = .created engine → engine.cache = fun _ => none

/-- A run before any rules are built. -/
def EarlyRun (setting : Setting R F P) (s : State R F Θ) : Prop :=
  ReflTransGen (fun s s' => Step setting s s' ∧ Unbuilt s) fresh s

theorem EarlyRun.reachable {s : State R F Θ} (run : EarlyRun setting s) : Reachable setting s := by
  induction run with
  | refl => exact .refl
  | tail _ step ih => exact ih.tail step.1

theorem early_call {s : State R F Θ} (early : EarlyRun setting s ∧ Unbuilt s)
    {calls : Θ → Check R F} (step : Step setting s { s with calls := calls }) :
    EarlyRun setting { s with calls := calls } ∧ Unbuilt { s with calls := calls } :=
  ⟨early.1.tail ⟨step, early.2⟩, early.2⟩

theorem early_slot {s : State R F Θ} (early : EarlyRun setting s ∧ Unbuilt s)
    {runtime : ProtoRuntime} {slot : Slot R F} {calls : Θ → Check R F}
    (step : Step setting s ⟨Function.update s.engines runtime slot, calls⟩)
    (empty : ∀ engine, slot = .created engine → engine.cache = fun _ => none) :
    EarlyRun setting ⟨Function.update s.engines runtime slot, calls⟩ ∧
      Unbuilt (⟨Function.update s.engines runtime slot, calls⟩ : State R F Θ) := by
  refine ⟨early.1.tail ⟨step, early.2⟩, fun other engine here => ?_⟩
  dsimp only at here
  by_cases same : other = runtime
  · rw [same, Function.update_self] at here
    exact empty engine here
  · rw [Function.update_of_ne same] at here
    exact early.2 other engine here

/-- The threads that validate the message: two with objects of protobuf-py, and one with
an object of google. -/
inductive Caller
  | first
  | second
  | google
  deriving DecidableEq

/-- The steps of three calls up to their evaluation. The second waits for the engine that
the first creates, and both miss the file before the first has registered it. -/
theorem agreement_reading : ∃ s : State ⟨String, Unit⟩ Bool Caller,
    (EarlyRun agreementSetting s ∧ Unbuilt s) ∧
    (∀ runtime, s.engines runtime = .created ⟨bothTaken, fun _ => none⟩) ∧
    s.calls .first = .reading (adapted .protobufPy) false "Agreement" (.started 2) ∧
    s.calls .second = .reading (adapted .protobufPy) false "Agreement" (.started 2) ∧
    s.calls .google = .reading (adapted .google) false "Agreement" (.started 2) := by
  have start : EarlyRun agreementSetting (fresh : State ⟨String, Unit⟩ Bool Caller) ∧
      Unbuilt (fresh : State ⟨String, Unit⟩ Bool Caller) :=
    ⟨.refl, fun _ _ here => by cases here⟩
  have resolved := early_call start (.call .first (agreementMessage .protobufPy) false rfl)
  have resolved := early_call resolved (.call .google (agreementMessage .google) false rfl)
  have creating := early_slot resolved
    (.create (t := .first) (show _ = Check.resolved (adapted .protobufPy) from rfl) rfl)
    fun _ same => by cases same
  have resolved := early_call creating (.call .second (agreementMessage .protobufPy) false rfl)
  have creating := early_slot resolved
    (.create (t := .google) (show _ = Check.resolved (adapted .google) from rfl) rfl)
    fun _ same => by cases same
  have created := early_slot creating
    (.created (t := .first) (show _ = Check.creating (adapted .protobufPy) from rfl)
      (agreement_engine _)) fun _ same => by cases same; rfl
  have found := early_call created
    (.found (t := .second) (show _ = Check.resolved (adapted .protobufPy) from rfl) rfl)
  have created := early_slot found
    (.created (t := .google) (show _ = Check.creating (adapted .google) from rfl)
      (agreement_engine _)) fun _ same => by cases same; rfl
  have missed := early_call created
    (.lookup (t := .second) (show _ = Check.started (adapted .protobufPy) false from rfl) rfl)
  have missed := early_call missed
    (.lookup (t := .first) (show _ = Check.started (adapted .protobufPy) false from rfl) rfl)
  have missed := early_call missed
    (.lookup (t := .google) (show _ = Check.started (adapted .google) false from rfl) rfl)
  have registered := early_slot missed
    (.register (t := .first) (show _ = Check.missed (adapted .protobufPy) false from rfl) rfl
      (fun u reads => by cases u <;> exact reads) (agreement_walk _))
    fun _ same => by cases same; rfl
  have registered := early_slot registered
    (.register (t := .google) (show _ = Check.missed (adapted .google) false from rfl) rfl
      (fun u reads => by cases u <;> exact reads) (agreement_walk _))
    fun _ same => by cases same; rfl
  have registered := early_slot registered
    (.register (t := .second) (show _ = Check.missed (adapted .protobufPy) false from rfl) rfl
      (fun u reads => by cases u <;> exact reads) (agreement_again _))
    fun _ same => by cases same; rfl
  have reading := early_call registered
    (.enter (t := .google) (show _ = Check.registered (adapted .google) false from rfl) rfl)
  have reading := early_call reading
    (.enter (t := .first) (show _ = Check.registered (adapted .protobufPy) false from rfl) rfl)
  have reading := early_call reading
    (.enter (t := .second) (show _ = Check.registered (adapted .protobufPy) false from rfl) rfl)
  exact ⟨_, reading, fun runtime => by cases runtime <;> rfl, rfl, rfl, rfl⟩

/-- The calls of both runtimes evaluate their messages at one time. -/
theorem evaluates_taken_agreement : ∃ s : State ⟨String, Unit⟩ Bool Caller,
    Reachable agreementSetting s ∧
    s.calls .first = .reading (adapted .protobufPy) false "Agreement" (.started 2) ∧
    s.calls .second = .reading (adapted .protobufPy) false "Agreement" (.started 2) ∧
    s.calls .google = .reading (adapted .google) false "Agreement" (.started 2) ∧
    ∀ runtime, agreementSetting.Taken runtime bothTaken.attempts true ∧
      agreementSetting.Taken runtime bothTaken.attempts false := by
  obtain ⟨s, early, placed, first, second, google⟩ := agreement_reading
  obtain ⟨extensions, evaluated, -⟩ := evaluates_taken early.1.reachable
  have taken : ∀ t runtime, s.calls t = .reading (adapted runtime) false "Agreement" (.started 2) →
      agreementSetting.Taken runtime bothTaken.attempts false := by
    intro t runtime reading
    obtain ⟨-, engine, here, taken⟩ := evaluated t (adapted runtime) false
      (by rw [reading]; exact ⟨rfl, rfl⟩)
    cases (placed runtime).symm.trans here
    exact taken false .refl
  refine ⟨s, early.1.reachable, first, second, google, fun runtime => ⟨?_, ?_⟩⟩
  · exact extensions _ _ (placed runtime) _ List.mem_cons_self 1 rfl (by decide) true .refl
  · cases runtime with
    | protobufPy => exact taken .first .protobufPy first
    | google => exact taken .google .google google

end Bindings

end Protovalidate
