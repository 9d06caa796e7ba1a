import Protovalidate.Lib.Steps
import Protovalidate.Protobuf
import Mathlib.Data.Fintype.Order
import Mathlib.Logic.Function.Basic
import Mathlib.Logic.Relation
import Mathlib.Order.WellFounded

/-!
# Registering descriptor files

A file is registered after its imports, once. Any number of threads register
files with an engine: a thread looks whether the file is registered already, and
collects it and its imports otherwise, with the set of registered names and the
core locked for writing.
-/

namespace Protovalidate

open Relation

/-- Descriptor files, known by their names, with the files each imports. -/
structure ImportGraph (F : Type) where
  imports : F → List F
  acyclic : WellFounded fun dependency file => dependency ∈ imports file

/-- A call of `add`: the file, the names registered by then, and whether it
succeeded. -/
structure Attempt (F : Type) where
  file : F
  registered : List F
  added : Bool

/-- The registered names, and a record of the calls of `add` so far. -/
structure Registry (F : Type) where
  registered : List F
  attempts : List (Attempt F)

namespace Registry

def empty (F : Type) : Registry F := ⟨[], []⟩

variable {F : Type} (registry : Registry F)

def record (file : F) (added : Bool) : Registry F :=
  { registry with attempts := registry.attempts ++ [⟨file, registry.registered, added⟩] }

def insert (file : F) : Registry F :=
  { registry with registered := file :: registry.registered }

@[simp] theorem record_registered (file : F) (added : Bool) :
    (registry.record file added).registered = registry.registered := rfl

@[simp] theorem record_attempts (file : F) (added : Bool) :
    (registry.record file added).attempts =
      registry.attempts ++ [⟨file, registry.registered, added⟩] := rfl

@[simp] theorem insert_registered (file : F) :
    (registry.insert file).registered = file :: registry.registered := rfl

@[simp] theorem insert_attempts (file : F) :
    (registry.insert file).attempts = registry.attempts := rfl

end Registry

/-- What files are read and added with. Whether a file can be added may change
from one call to the next. -/
structure Adder (F E : Type) where
  serialize : F → Except E Bytes
  add : List (Attempt F) → F → Bytes → Except E Unit

section Collect
variable {F E : Type} [DecidableEq F] (graph : ImportGraph F) (adder : Adder F E)

/-- Adds a file, whose name is registered if that succeeds. -/
def addFile (file : F) (bytes : Bytes) : Step (Registry F) E := fun registry =>
  match adder.add registry.attempts file bytes with
  | .ok () => (.ok (), (registry.record file true).insert file)
  | .error e => (.error e, registry.record file false)

/-- Registers a descriptor file and, before it, its imports. -/
def collectFiles (file : F) : Step (Registry F) E := fun registry =>
  if registry.registered.contains file then (.ok (), registry)
  else
    let imports := Step.each (fun dependency : { d // d ∈ graph.imports file } =>
      collectFiles dependency.1) (graph.imports file).attach
    let addition : Step (Registry F) E := fun registry =>
      match adder.serialize file with
      | .ok bytes => addFile adder file bytes registry
      | .error e => (.error e, registry)
    imports.andThen addition registry
termination_by graph.acyclic.wrap file
decreasing_by exact dependency.2

/-- Registers a file together with its imports. Files already registered are
skipped, before the walk as within it. -/
def register (file : F) : Step (Registry F) E := fun registry =>
  if registry.registered.contains file then (.ok (), registry)
  else collectFiles graph adder file registry

/-- Registers the files an engine is created with. -/
def newEngine (preregistered : List F) : Step (Registry F) E :=
  Step.each (register graph adder) preregistered

end Collect

namespace ImportGraph
variable {F : Type} (graph : ImportGraph F)

def Imports (file dependency : F) : Prop := dependency ∈ graph.imports file

/-- A file, or one that it imports through others. -/
abbrev Below : F → F → Prop := ReflTransGen graph.Imports

variable {graph}

theorem not_below_import {file dependency : F} (imported : graph.Imports file dependency) :
    ¬graph.Below dependency file := by
  intro below
  have cycle : TransGen graph.Imports file file := TransGen.head' imported below
  have irreflexive : ∀ file, ¬TransGen graph.Imports file file := by
    intro file
    have wellFounded : WellFounded
        (TransGen fun dependency file => graph.Imports file dependency) := graph.acyclic.transGen
    intro cycle
    exact wellFounded.irrefl.irrefl file (transGen_swap.mp cycle)
  exact irreflexive file cycle

/-- Finitely many files without a cycle of imports. -/
def ofFinite {F : Type} [Finite F] (imports : F → List F)
    (acyclic : ∀ file, ¬TransGen (fun file dependency => dependency ∈ imports file) file file) :
    ImportGraph F where
  imports := imports
  acyclic := by
    have irreflexive : Std.Irrefl (TransGen fun dependency file => dependency ∈ imports file) :=
      ⟨fun file cycle => acyclic file (transGen_swap.mp cycle)⟩
    have wellFounded := Finite.wellFounded_of_trans_of_irrefl
      (TransGen fun dependency file => dependency ∈ imports file)
    exact Subrelation.wf (fun edge => .single edge) wellFounded

end ImportGraph

/-- The files whose addition succeeded. -/
def Added {F : Type} (attempts : List (Attempt F)) (file : F) : Prop :=
  ∃ attempt ∈ attempts, attempt.file = file ∧ attempt.added = true

/-- A call of `add` after others: what was registered is what they added, all of
the file's imports were, and the file was not. -/
structure Attempt.Sound {F : Type} (graph : ImportGraph F) (before : List (Attempt F))
    (attempt : Attempt F) : Prop where
  exact : ∀ file, file ∈ attempt.registered ↔ Added before file
  imports : ∀ dependency ∈ graph.imports attempt.file, dependency ∈ attempt.registered
  fresh : attempt.file ∉ attempt.registered

namespace Registry
variable {F : Type} {graph : ImportGraph F} {registry : Registry F}

/-- The registered names are those of the files that were added, by sound
calls. -/
structure Sound (graph : ImportGraph F) (registry : Registry F) : Prop where
  exact : ∀ file, file ∈ registry.registered ↔ Added registry.attempts file
  attempts : ∀ before attempt after, registry.attempts = before ++ attempt :: after →
    attempt.Sound graph before

theorem sound_empty : (empty F).Sound graph := by
  constructor
  · intro file
    simp [empty, Added]
  · intro before attempt after split
    cases before <;> cases split

/-- One more call leaves the others as they are. -/
theorem attempts_record (sound : registry.Sound graph) {file : F}
    (imports : ∀ dependency ∈ graph.imports file, dependency ∈ registry.registered)
    (fresh : file ∉ registry.registered) (added : Bool) :
    ∀ before attempt after,
      (registry.record file added).attempts = before ++ attempt :: after →
        attempt.Sound graph before := by
  intro before attempt after split
  rw [record_attempts] at split
  rcases List.eq_nil_or_concat after with rfl | ⟨after, last, rfl⟩
  · obtain ⟨same, last⟩ := List.append_inj' split rfl
    cases last
    rw [← same]
    exact ⟨sound.exact, imports, fresh⟩
  · have shape : before ++ attempt :: after.concat last =
        (before ++ attempt :: after) ++ [last] := by simp
    rw [shape] at split
    exact sound.attempts before attempt after (List.append_inj' split rfl).1

theorem added_record {file : F} {added : Bool} {other : F} :
    Added (registry.record file added).attempts other ↔
      Added registry.attempts other ∨ (file = other ∧ added = true) := by
  simp [Added, or_and_right, exists_or]

/-- A call that succeeds. -/
theorem Sound.added (sound : registry.Sound graph) {file : F}
    (imports : ∀ dependency ∈ graph.imports file, dependency ∈ registry.registered)
    (fresh : file ∉ registry.registered) :
    ((registry.record file true).insert file).Sound graph := by
  constructor
  · intro other
    rw [insert_registered, insert_attempts, added_record, record_registered, List.mem_cons,
      sound.exact]
    tauto
  · exact attempts_record sound imports fresh true

/-- A call that fails. -/
theorem Sound.failed (sound : registry.Sound graph) {file : F}
    (imports : ∀ dependency ∈ graph.imports file, dependency ∈ registry.registered)
    (fresh : file ∉ registry.registered) : (registry.record file false).Sound graph := by
  constructor
  · intro other
    rw [added_record, record_registered, sound.exact]
    simp
  · exact attempts_record sound imports fresh false

/-- What is registered is closed under imports. -/
theorem Sound.closed (sound : registry.Sound graph) {file dependency : F}
    (present : file ∈ registry.registered) (below : graph.Below file dependency) :
    dependency ∈ registry.registered := by
  induction below with
  | refl => exact present
  | tail _ edge ih =>
    obtain ⟨attempt, member, same, added⟩ := (sound.exact _).mp ih
    obtain ⟨before, after, split⟩ := List.append_of_mem member
    have call := sound.attempts before attempt after split
    subst same
    obtain ⟨earlier, before_member, earlier_file, earlier_added⟩ :=
      (call.exact _).mp (call.imports _ edge)
    refine (sound.exact _).mpr ⟨earlier, ?_, earlier_file, earlier_added⟩
    rw [split]
    exact List.mem_append_left _ before_member

/-- What was registered when a call was made is closed as well. -/
theorem Sound.closed_before (sound : registry.Sound graph) {before after : List (Attempt F)}
    {attempt : Attempt F} (split : registry.attempts = before ++ attempt :: after)
    {file dependency : F} (present : file ∈ attempt.registered)
    (below : graph.Below file dependency) : dependency ∈ attempt.registered := by
  have earlier : (⟨attempt.registered, before⟩ : Registry F).Sound graph := by
    constructor
    · exact (sound.attempts before attempt after split).exact
    · intro before' attempt' after' split'
      refine sound.attempts before' attempt' (after' ++ attempt :: after) ?_
      have split' : before = before' ++ attempt' :: after' := split'
      rw [split, split']
      simp
  exact earlier.closed present below

/-- A registry that calls about some files lead to. -/
structure Grows (within : F → Prop) (registry later : Registry F) : Prop where
  attempts : ∃ new, later.attempts = registry.attempts ++ new ∧ ∀ attempt ∈ new, within attempt.file
  registered : ∀ file ∈ registry.registered, file ∈ later.registered

theorem Grows.refl (within : F → Prop) (registry : Registry F) : registry.Grows within registry :=
  ⟨⟨[], by simp⟩, fun _ present => present⟩

theorem Grows.trans {within : F → Prop} {a b c : Registry F} (first : a.Grows within b)
    (second : b.Grows within c) : a.Grows within c := by
  obtain ⟨⟨new, first, inside⟩, kept⟩ := first
  obtain ⟨⟨new', second, inside'⟩, kept'⟩ := second
  refine ⟨⟨new ++ new', by simp [first, second], fun attempt member => ?_⟩, fun file present => ?_⟩
  · exact (List.mem_append.mp member).elim (inside attempt) (inside' attempt)
  · exact kept' file (kept file present)

theorem Grows.mono {within within' : F → Prop} {a b : Registry F} (grows : a.Grows within b)
    (wider : ∀ file, within file → within' file) : a.Grows within' b := by
  obtain ⟨⟨new, shape, inside⟩, kept⟩ := grows
  exact ⟨⟨new, shape, fun attempt member => wider _ (inside attempt member)⟩, kept⟩

theorem Grows.record {within : F → Prop} {file : F} (inside : within file) (added : Bool) :
    registry.Grows within (registry.record file added) :=
  ⟨⟨_, rfl, by simpa using inside⟩, fun _ present => present⟩

theorem Grows.insert {within : F → Prop} {file : F} (inside : within file) :
    registry.Grows within ((registry.record file true).insert file) :=
  ⟨⟨_, rfl, by simpa using inside⟩, fun _ present => List.mem_cons_of_mem _ present⟩

/-- A file that becomes registered is one of those the calls were about. -/
theorem Grows.within {within : F → Prop} {a b : Registry F} (grows : a.Grows within b)
    (sound : a.Sound graph) (sound' : b.Sound graph) {file : F} (present : file ∈ b.registered) :
    file ∈ a.registered ∨ within file := by
  obtain ⟨⟨new, shape, inside⟩, -⟩ := grows
  obtain ⟨attempt, member, same, added⟩ := (sound'.exact file).mp present
  rw [shape] at member
  rcases List.mem_append.mp member with earlier | later
  · exact .inl ((sound.exact file).mpr ⟨attempt, earlier, same, added⟩)
  · exact .inr (same ▸ inside attempt later)

end Registry

/-- A call of `add` or of the serialization that failed, for a file below one
to be registered: its imports are registered, and it is not. -/
def Blocked {F E : Type} (graph : ImportGraph F) (adder : Adder F E) (file : F)
    (registry : Registry F) (e : E) (later : Registry F) : Prop :=
  ∃ failing, graph.Below file failing ∧
    (∀ dependency ∈ graph.imports failing, dependency ∈ later.registered) ∧
    failing ∉ later.registered ∧
    (adder.serialize failing = .error e ∨
      ∃ new bytes, adder.serialize failing = .ok bytes ∧
        adder.add (registry.attempts ++ new) failing bytes = .error e ∧
        later.attempts = registry.attempts ++ new ++ [⟨failing, later.registered, false⟩])

theorem Blocked.import {F E : Type} {graph : ImportGraph F} {adder : Adder F E}
    {file dependency : F} {e : E} {registry later : Registry F}
    (blocked : Blocked graph adder dependency registry e later)
    (imported : graph.Imports file dependency) : Blocked graph adder file registry e later := by
  obtain ⟨failing, below, rest⟩ := blocked
  exact ⟨failing, .head imported below, rest⟩

theorem Blocked.after {F E : Type} {graph : ImportGraph F} {adder : Adder F E} {file : F} {e : E}
    {within : F → Prop} {registry mid later : Registry F}
    (blocked : Blocked graph adder file mid e later) (grown : registry.Grows within mid) :
    Blocked graph adder file registry e later := by
  obtain ⟨failing, below, imports, absent, failure⟩ := blocked
  refine ⟨failing, below, imports, absent, failure.imp_right ?_⟩
  rintro ⟨new, bytes, serialized, failed, shape⟩
  obtain ⟨⟨earlier, grown, -⟩, -⟩ := grown
  rw [grown, List.append_assoc] at failed
  rw [grown, List.append_assoc registry.attempts] at shape
  exact ⟨earlier ++ new, bytes, serialized, failed, shape⟩

/-- The file is read and added without an error from now on. -/
def Adder.Accepts {F E : Type} (adder : Adder F E) (since : List (Attempt F)) (file : F) : Prop :=
  ∃ bytes, adder.serialize file = .ok bytes ∧ ∀ new, adder.add (since ++ new) file bytes = .ok ()

theorem Adder.Accepts.not_blocked {F E : Type} {graph : ImportGraph F} {adder : Adder F E}
    {file : F} {e : E} {registry later : Registry F}
    (accepts : ∀ dependency, graph.Below file dependency →
      adder.Accepts registry.attempts dependency) :
    ¬Blocked graph adder file registry e later := by
  rintro ⟨failing, below, -, -, failure⟩
  obtain ⟨bytes, serialized, added⟩ := accepts failing below
  rcases failure with unread | ⟨new, bytes', serialized', failed, -⟩
  · rw [serialized] at unread
    cases unread
  · rw [serialized] at serialized'
    cases serialized'
    rw [added new] at failed
    cases failed

section Collect
variable {F E : Type} [DecidableEq F] {graph : ImportGraph F} {adder : Adder F E}

/-- A walk that failed. -/
structure Cut (graph : ImportGraph F) (adder : Adder F E) (file : F) (registry : Registry F)
    (e : E) (later : Registry F) : Prop where
  sound : later.Sound graph
  grown : registry.Grows (graph.Below file) later
  blocked : Blocked graph adder file registry e later

/-- A walk that went through. -/
structure Through (graph : ImportGraph F) (file : F) (registry later : Registry F) : Prop where
  sound : later.Sound graph
  grown : registry.Grows (graph.Below file) later
  present : ∀ dependency, graph.Below file dependency → dependency ∈ later.registered

/-- What a call that registers a file ends with. -/
def Registers (graph : ImportGraph F) (adder : Adder F E) (file : F) (registry : Registry F) :
    Except E Unit × Registry F → Prop :=
  Step.Ends (Through graph file registry) (Cut graph adder file registry)

/-- A file already registered. -/
theorem registers_present {file : F} {registry : Registry F} (sound : registry.Sound graph)
    (present : registry.registered.contains file = true) :
    Registers graph adder file registry (.ok (), registry) := by
  have present : file ∈ registry.registered := by simpa using present
  exact .ok ⟨sound, .refl _ _, fun _ below => sound.closed present below⟩

omit [DecidableEq F] in
/-- The addition of a file, after its imports. -/
theorem addFile_ends {file : F} {bytes : Bytes} {registry : Registry F}
    (sound : registry.Sound graph)
    (imports : ∀ dependency ∈ graph.imports file, dependency ∈ registry.registered)
    (fresh : file ∉ registry.registered) (serialized : adder.serialize file = .ok bytes) :
    Registers graph adder file registry (addFile adder file bytes registry) := by
  unfold addFile
  split
  · have added := sound.added imports fresh
    have present : file ∈ ((registry.record file true).insert file).registered :=
      List.mem_cons_self
    exact .ok ⟨added, .insert .refl, fun _ below => added.closed present below⟩
  · rename_i e failed
    refine .error ⟨sound.failed imports fresh, .record .refl false, file, .refl, imports, fresh, ?_⟩
    refine .inr ⟨[], bytes, serialized, ?_, by simp⟩
    rw [List.append_nil]
    exact failed

omit [DecidableEq F] in
theorem Registers.after {file : F} {registry mid : Registry F} {result : Except E Unit × Registry F}
    (ends : Registers graph adder file mid result)
    (grown : registry.Grows (graph.Below file) mid) : Registers graph adder file registry result :=
  Step.Ends.mono ends (fun _ done => ⟨done.sound, grown.trans done.grown, done.present⟩)
    (fun _ _ failed => ⟨failed.sound, grown.trans failed.grown, failed.blocked.after grown⟩)

/-- The walk over a file while it is at its imports. -/
structure AtImports (graph : ImportGraph F) (file : F) (registry : Registry F) (done : List F)
    (mid : Registry F) : Prop where
  sound : mid.Sound graph
  grown : registry.Grows (TransGen graph.Imports file) mid
  present : ∀ dependency ∈ done, dependency ∈ mid.registered

omit [DecidableEq F] in
/-- One more import is registered. -/
theorem AtImports.next {file dependency : F} {registry mid : Registry F} {done : List F}
    {result : Except E Unit × Registry F} (held : AtImports graph file registry done mid)
    (imported : graph.Imports file dependency)
    (ends : Registers graph adder dependency mid result) :
    Step.Ends (AtImports graph file registry (done ++ [dependency]))
      (Cut graph adder file registry) result := by
  refine ends.mono ?_ ?_
  · rintro later ⟨sound, grows, below⟩
    refine ⟨sound, held.grown.trans (grows.mono fun _ below => .head' imported below), ?_⟩
    intro other member
    rcases List.mem_append.mp member with earlier | last
    · exact grows.registered _ (held.present other earlier)
    · rw [List.mem_singleton.mp last]
      exact below _ .refl
  · rintro e later ⟨sound, grows, blocked⟩
    refine ⟨sound, ?_, (blocked.after held.grown).import imported⟩
    have first := held.grown.mono fun _ strictly => strictly.to_reflTransGen
    exact first.trans (grows.mono fun _ below => .head imported below)

/-- The walk over a file and its imports. The induction is on the import
relation: an import cannot have registered the file that imports it. -/
theorem collectFiles_ends (file : F) (registry : Registry F) (sound : registry.Sound graph) :
    Registers graph adder file registry (collectFiles graph adder file registry) := by
  induction file using graph.acyclic.induction generalizing registry with
  | _ file ih =>
    rw [collectFiles]
    split
    · rename_i present
      exact registers_present sound present
    rename_i missing
    have absent : file ∉ registry.registered := by simpa using missing
    have loop : Step.Ends
        (AtImports graph file registry ((graph.imports file).attach.map Subtype.val))
        (Cut graph adder file registry)
        (Step.each (fun dependency : { d // d ∈ graph.imports file } =>
          collectFiles graph adder dependency.1) (graph.imports file).attach registry) := by
      refine Step.Ends.each
        (fun done => AtImports graph file registry (done.map Subtype.val)) ?_ ?_
      · exact ⟨sound, .refl _ _, by simp⟩
      · intro done dependency rest mid _ held
        rw [List.map_append]
        exact held.next dependency.2 (ih dependency.1 dependency.2 mid held.sound)
    refine loop.andThen fun mid held => ?_
    rw [List.attach_map_subtype_val] at held
    obtain ⟨mid_sound, grown, imports⟩ := held
    have fresh : file ∉ mid.registered := by
      intro registered
      rcases grown.within sound mid_sound registered with before | strictly
      · exact absent before
      · obtain ⟨dependency, imported, below⟩ := TransGen.head'_iff.mp strictly
        exact ImportGraph.not_below_import imported below
    have grown := grown.mono fun _ strictly => strictly.to_reflTransGen
    split
    · rename_i bytes serialized
      exact (addFile_ends mid_sound imports fresh serialized).after grown
    · rename_i e failed
      exact .error ⟨mid_sound, grown, file, .refl, imports, fresh, .inl failed⟩

/-- A walk without failures goes through. -/
theorem collectFiles_through {file : F} {registry : Registry F} (sound : registry.Sound graph)
    (accepts : ∀ dependency, graph.Below file dependency →
      adder.Accepts registry.attempts dependency) :
    ∃ later, collectFiles graph adder file registry = (.ok (), later) := by
  have ends : Registers graph adder file registry _ := collectFiles_ends file registry sound
  generalize collectFiles graph adder file registry = result at ends
  cases ends with
  | @ok later _ => exact ⟨later, rfl⟩
  | error cut => exact absurd cut.blocked (Adder.Accepts.not_blocked accepts)

theorem register_ends (file : F) (registry : Registry F) (sound : registry.Sound graph) :
    Registers graph adder file registry (register graph adder file registry) := by
  unfold register
  split
  · rename_i present
    exact registers_present sound present
  · exact collectFiles_ends file registry sound

variable (graph adder) in
theorem newEngine_ends (preregistered : List F) :
    Step.Ends
      (fun later => later.Sound graph ∧ ∀ file ∈ preregistered, file ∈ later.registered)
      (fun _ later => later.Sound graph)
      (newEngine graph adder preregistered (.empty F)) := by
  refine Step.Ends.each (fun done (later : Registry F) => later.Sound graph ∧
    ∀ file ∈ done, file ∈ later.registered) ⟨Registry.sound_empty, by simp⟩ ?_
  intro done file rest mid _ held
  obtain ⟨sound, present⟩ := held
  refine (register_ends file mid sound).mono ?_ fun _ _ failed => failed.1
  rintro later ⟨later_sound, grows, below⟩
  refine ⟨later_sound, fun other member => ?_⟩
  rcases List.mem_append.mp member with earlier | last
  · exact grows.registered other (present other earlier)
  · rw [List.mem_singleton.mp last]
    exact below _ .refl

/-! ### What the record says of `add` -/

/-- What every call of `add` keeps, a walk keeps. -/
theorem collectFiles_keeps {P : Registry F → Prop}
    (adds : ∀ file bytes, adder.serialize file = .ok bytes →
      Step.Keeps P (addFile adder file bytes)) (file : F) :
    Step.Keeps P (collectFiles graph adder file) := by
  induction file using graph.acyclic.induction with
  | _ file ih =>
    have imports : Step.Keeps P (Step.each (fun dependency : { d // d ∈ graph.imports file } =>
        collectFiles graph adder dependency.1) (graph.imports file).attach) :=
      Step.Keeps.each fun dependency _ => ih dependency.1 dependency.2
    intro registry held
    rw [collectFiles]
    split
    · exact held
    refine imports.andThen (fun registry held => ?_) registry held
    split
    · rename_i bytes serialized
      exact adds file bytes serialized registry held
    · exact held

/-- A record that `add` was called with the bytes of its file, and of what it returned. -/
def Attempt.Faithful (adder : Adder F E) (before : List (Attempt F)) (attempt : Attempt F) : Prop :=
  ∃ bytes, adder.serialize attempt.file = .ok bytes ∧
    (attempt.added = true ↔ adder.add before attempt.file bytes = .ok ())

def Registry.Faithful (adder : Adder F E) (registry : Registry F) : Prop :=
  ∀ before attempt after, registry.attempts = before ++ attempt :: after →
    attempt.Faithful adder before

omit [DecidableEq F] in
theorem faithful_empty (adder : Adder F E) : (Registry.empty F).Faithful adder := by
  intro before attempt after split
  cases before <;> cases split

omit [DecidableEq F] in
theorem faithful_record {registry : Registry F} (held : registry.Faithful adder) {file : F}
    {bytes : Bytes} (serialized : adder.serialize file = .ok bytes) {added : Bool}
    (returned : added = true ↔ adder.add registry.attempts file bytes = .ok ()) :
    (registry.record file added).Faithful adder := by
  intro before attempt after split
  rw [Registry.record_attempts] at split
  rcases List.eq_nil_or_concat after with rfl | ⟨after, last, rfl⟩
  · obtain ⟨same, last⟩ := List.append_inj' split rfl
    cases last
    exact ⟨bytes, serialized, same ▸ returned⟩
  · have shape : before ++ attempt :: after.concat last =
        (before ++ attempt :: after) ++ [last] := by simp
    rw [shape] at split
    exact held before attempt after (List.append_inj' split rfl).1

omit [DecidableEq F] in
theorem addFile_faithful {file : F} {bytes : Bytes}
    (serialized : adder.serialize file = .ok bytes) :
    Step.Keeps (Registry.Faithful adder) (addFile adder file bytes) := by
  intro registry held
  unfold addFile
  cases added : adder.add registry.attempts file bytes with
  | ok u => exact faithful_record held serialized (iff_of_true rfl added)
  | error e =>
    have failed : adder.add registry.attempts file bytes ≠ .ok () := by simp [added]
    exact faithful_record held serialized (iff_of_false Bool.false_ne_true failed)

variable (graph adder) in
theorem collectFiles_faithful (file : F) :
    Step.Keeps (Registry.Faithful adder) (collectFiles graph adder file) :=
  collectFiles_keeps (fun _ _ serialized => addFile_faithful serialized) file

variable (graph adder) in
theorem newEngine_faithful (preregistered : List F) :
    (newEngine graph adder preregistered (.empty F)).2.Faithful adder := by
  refine Step.Keeps.each (P := Registry.Faithful adder) (fun file _ registry held => ?_) _
    (faithful_empty adder)
  unfold register
  split
  · exact held
  · exact collectFiles_faithful graph adder file registry held

end Collect

/-- Where a call of `register` is. One that is `missed` has not found its file,
and is to walk with both locks. -/
inductive RegisterCall (F E : Type)
  | idle
  | started (file : F)
  | missed (file : F)
  | returned (file : F)
  | failed (file : F) (e : E)

/-- Whether the thread can make another call. -/
def RegisterCall.over {F E : Type} : RegisterCall F E → Bool
  | .idle | .returned _ | .failed _ _ => true
  | .started _ | .missed _ => false

/-- What an engine has registered, and the calls of the threads `Θ`. -/
structure Engine (F E Θ : Type) where
  registry : Registry F
  calls : Θ → RegisterCall F E

namespace Engine
variable {F E Θ : Type} [DecidableEq F] [DecidableEq Θ] (graph : ImportGraph F)
  (adder : Adder F E)

/-- The next step of a call, which looks the file up, or walks with no other
thread in between. -/
def advance (registry : Registry F) : RegisterCall F E → Registry F × RegisterCall F E
  | .started file =>
    if registry.registered.contains file then (registry, .returned file)
    else (registry, .missed file)
  | .missed file =>
    match collectFiles graph adder file registry with
    | (.ok (), later) => (later, .returned file)
    | (.error e, later) => (later, .failed file e)
  | call => (registry, call)

/-- One thread takes a step, or starts a call. -/
inductive Step : Engine F E Θ → Engine F E Θ → Prop
  | call {s : Engine F E Θ} (t : Θ) (file : F) : (s.calls t).over = true →
    Step s { s with calls := Function.update s.calls t (.started file) }
  | advance {s : Engine F E Θ} (t : Θ) :
    Step s
      ⟨(advance graph adder s.registry (s.calls t)).1,
        Function.update s.calls t (advance graph adder s.registry (s.calls t)).2⟩

/-- A state reached by any interleaving of the threads, from what `Engine::new`
registered. -/
def Reachable (preregistered : List F) (s : Engine F E Θ) : Prop :=
  ∃ registry, newEngine graph adder preregistered (.empty F) = (.ok (), registry) ∧
    ReflTransGen (Step graph adder) ⟨registry, fun _ => .idle⟩ s

variable {graph adder}

/-- What a call has registered by now. -/
def SoundCall (graph : ImportGraph F) (registry : Registry F) : RegisterCall F E → Prop
  | .returned file => ∀ dependency, graph.Below file dependency → dependency ∈ registry.registered
  | .idle | .started _ | .missed _ | .failed _ _ => True

omit [DecidableEq F] in
theorem SoundCall.mono {registry later : Registry F} {call : RegisterCall F E}
    (sound : SoundCall graph registry call)
    (grows : ∀ file ∈ registry.registered, file ∈ later.registered) :
    SoundCall graph later call := by
  cases call with
  | returned file => exact fun dependency below => grows _ (sound dependency below)
  | idle | started _ | missed _ | failed _ _ => trivial

variable (adder) in
/-- One step of a call. -/
theorem advance_sound {registry : Registry F} {call : RegisterCall F E}
    (sound : registry.Sound graph) (done : SoundCall graph registry call) :
    (advance graph adder registry call).1.Sound graph ∧
      (∀ file ∈ registry.registered, file ∈ (advance graph adder registry call).1.registered) ∧
      SoundCall graph (advance graph adder registry call).1
        (advance graph adder registry call).2 := by
  cases call with
  | started file =>
    by_cases present : file ∈ registry.registered
    · have found : advance graph adder registry (.started file) = (registry, .returned file) := by
        simp [advance, present]
      rw [found]
      exact ⟨sound, fun _ kept => kept, fun _ below => sound.closed present below⟩
    · have passed : advance graph adder registry (.started file) = (registry, .missed file) := by
        simp [advance, present]
      rw [passed]
      exact ⟨sound, fun _ kept => kept, trivial⟩
  | missed file =>
    have ends : Registers graph adder file registry _ := collectFiles_ends file registry sound
    simp only [advance]
    generalize collectFiles graph adder file registry = result at ends
    cases ends with
    | ok through => exact ⟨through.sound, through.grown.registered, through.present⟩
    | error cut => exact ⟨cut.sound, cut.grown.registered, trivial⟩
  | idle | returned _ | failed _ _ => exact ⟨sound, fun _ kept => kept, done⟩

/-- The invariant of an engine that threads share. -/
structure Sound (graph : ImportGraph F) (s : Engine F E Θ) : Prop where
  registry : s.registry.Sound graph
  calls : ∀ t, SoundCall graph s.registry (s.calls t)

/-- One step of any thread keeps the invariant, and what is registered. -/
theorem step_sound {s s' : Engine F E Θ} (sound : s.Sound graph) (step : Step graph adder s s') :
    s'.Sound graph ∧ ∀ file ∈ s.registry.registered, file ∈ s'.registry.registered := by
  cases step with
  | call t file _ =>
    refine ⟨⟨sound.registry, ?_⟩, fun _ kept => kept⟩
    rw [Function.forall_update_iff s.calls fun _ call => SoundCall graph s.registry call]
    exact ⟨trivial, fun u _ => sound.calls u⟩
  | advance t =>
    obtain ⟨registry, grows, call⟩ := advance_sound adder sound.registry (sound.calls t)
    refine ⟨⟨registry, ?_⟩, grows⟩
    rw [Function.forall_update_iff s.calls fun _ call => SoundCall graph _ call]
    exact ⟨call, fun u _ => (sound.calls u).mono grows⟩

theorem steps_sound {s s' : Engine F E Θ} (sound : s.Sound graph)
    (steps : ReflTransGen (Step graph adder) s s') :
    s'.Sound graph ∧ ∀ file ∈ s.registry.registered, file ∈ s'.registry.registered := by
  induction steps with
  | refl => exact ⟨sound, fun _ kept => kept⟩
  | tail _ step ih =>
    obtain ⟨sound, kept⟩ := ih
    obtain ⟨sound, kept'⟩ := step_sound sound step
    exact ⟨sound, fun file present => kept' file (kept file present)⟩

theorem reachable_sound {preregistered : List F} {s : Engine F E Θ}
    (reachable : Reachable graph adder preregistered s) : s.Sound graph := by
  obtain ⟨registry, made, steps⟩ := reachable
  have ends := newEngine_ends graph adder preregistered
  rw [made] at ends
  cases ends with
  | ok held =>
    have start : (⟨registry, fun _ => .idle⟩ : Engine F E Θ).Sound graph :=
      ⟨held.1, fun _ => trivial⟩
    exact (steps_sound start steps).1

/-- The next step of a call records what `add` returned. -/
theorem advance_faithful {registry : Registry F} (held : registry.Faithful adder)
    (call : RegisterCall F E) : (advance graph adder registry call).1.Faithful adder := by
  cases call with
  | started file =>
    simp only [advance]
    split <;> exact held
  | missed file =>
    have walked := collectFiles_faithful graph adder file registry held
    simp only [advance]
    generalize collectFiles graph adder file registry = result at walked
    obtain ⟨_ | _, later⟩ := result <;> exact walked
  | idle | returned _ | failed _ _ => exact held

theorem steps_faithful {s s' : Engine F E Θ} (held : s.registry.Faithful adder)
    (steps : ReflTransGen (Step graph adder) s s') : s'.registry.Faithful adder := by
  induction steps with
  | refl => exact held
  | tail _ step ih =>
    cases step with
    | call t file _ => exact ih
    | advance t => exact advance_faithful ih _

theorem reachable_faithful {preregistered : List F} {s : Engine F E Θ}
    (reachable : Reachable graph adder preregistered s) : s.registry.Faithful adder := by
  obtain ⟨registry, made, steps⟩ := reachable
  have start := newEngine_faithful graph adder preregistered
  rw [made] at start
  exact steps_faithful start steps

/-- In every reachable state the names registered are those of the files that
were added, with all that these import. Each call of `add` comes after the
file's imports and not after it succeeded, and is recorded as a success exactly
if it was one. A call that returned has its file and everything below it. A walk
adds only files below its own, and one that fails is stopped by a file whose
imports are there. One without failures goes through. -/
theorem registered_closed {preregistered : List F} {s : Engine F E Θ}
    (reachable : Reachable graph adder preregistered s) :
    (∀ file, file ∈ s.registry.registered ↔ Added s.registry.attempts file) ∧
    (∀ file dependency, file ∈ s.registry.registered → graph.Below file dependency →
      dependency ∈ s.registry.registered) ∧
    (∀ before attempt after, s.registry.attempts = before ++ attempt :: after →
      (∀ file, file ∈ attempt.registered ↔ Added before file) ∧
      (∀ file dependency, file ∈ attempt.registered → graph.Below file dependency →
        dependency ∈ attempt.registered) ∧
      (∀ dependency ∈ graph.imports attempt.file, dependency ∈ attempt.registered) ∧
      ¬Added before attempt.file ∧
      ∃ bytes, adder.serialize attempt.file = .ok bytes ∧
        (attempt.added = true ↔ adder.add before attempt.file bytes = .ok ())) ∧
    (∀ t file, s.calls t = .returned file → ∀ dependency, graph.Below file dependency →
      dependency ∈ s.registry.registered) ∧
    (∀ later, ReflTransGen (Step graph adder) s later →
      ∀ file ∈ s.registry.registered, file ∈ later.registry.registered) ∧
    (∀ file, Registers graph adder file s.registry (collectFiles graph adder file s.registry)) ∧
    ∀ file, (∀ dependency, graph.Below file dependency →
        adder.Accepts s.registry.attempts dependency) →
      ∃ later, collectFiles graph adder file s.registry = (.ok (), later) := by
  have sound := reachable_sound reachable
  refine ⟨sound.registry.exact, fun _ _ => sound.registry.closed, ?_, ?_,
    fun later steps => (steps_sound sound steps).2,
    fun file => collectFiles_ends file s.registry sound.registry,
    fun file => collectFiles_through sound.registry⟩
  · intro before attempt after split
    have call := sound.registry.attempts before attempt after split
    exact ⟨call.exact, fun _ _ => sound.registry.closed_before split, call.imports,
      fun added => call.fresh ((call.exact _).mpr added),
      reachable_faithful reachable before attempt after split⟩
  · intro t file returned
    have done := sound.calls t
    rw [returned] at done
    exact done

end Engine

def diamondImports : Fin 4 → List (Fin 4)
  | 0 => []
  | 1 => [0]
  | 2 => [0]
  | 3 => [1, 2]

theorem diamond_acyclic (file : Fin 4) :
    ¬TransGen (fun file dependency => dependency ∈ diamondImports file) file file := by
  have smaller : ∀ file, ∀ dependency ∈ diamondImports file, dependency < file := by decide
  have below : ∀ {a b}, TransGen (fun file dependency => dependency ∈ diamondImports file) a b →
      b < a := by
    intro a b path
    induction path with
    | single edge => exact smaller _ _ edge
    | tail _ edge ih => exact (smaller _ _ edge).trans ih
  exact fun cycle => (below cycle).false

/-- Two files that import one, and a file that imports both. -/
def diamond : ImportGraph (Fin 4) := .ofFinite diamondImports diamond_acyclic

/-- File `2` cannot be added the first time. -/
def flaky : Adder (Fin 4) Unit where
  serialize _ := .ok []
  add history file _ :=
    if file = 2 ∧ history.all (fun attempt => attempt.file ≠ 2) then .error () else .ok ()

/-- What the walk that fails leaves. -/
def diamondCut : Registry (Fin 4) :=
  ⟨[1, 0], [⟨0, [], true⟩, ⟨1, [0], true⟩, ⟨2, [1, 0], false⟩]⟩

theorem diamond_cut : collectFiles diamond flaky 3 (.empty _) = (.error (), diamondCut) := by
  simp [collectFiles, diamond, ImportGraph.ofFinite, diamondImports, flaky, addFile, Step.each,
    Step.andThen, Registry.empty, Registry.record, Registry.insert, diamondCut]

theorem diamond_retry : collectFiles diamond flaky 3 diamondCut =
    (.ok (), ⟨[3, 2, 1, 0], diamondCut.attempts ++ [⟨2, [1, 0], true⟩, ⟨3, [2, 1, 0], true⟩]⟩) := by
  simp [collectFiles, diamond, ImportGraph.ofFinite, diamondImports, flaky, addFile, Step.each,
    Step.andThen, Registry.record, Registry.insert, diamondCut]

theorem diamond_missed :
    Engine.advance diamond flaky (.empty _) (.started 3) = (.empty _, .missed 3) := by
  simp [Engine.advance, Registry.empty]

theorem diamond_failed : Engine.advance diamond flaky (.empty _) (.missed 3) =
    (diamondCut, .failed 3 ()) := by
  simp [Engine.advance, diamond_cut]

theorem diamond_returned : (Engine.advance diamond flaky diamondCut (.missed 3)).2 =
    .returned 3 := by
  simp [Engine.advance, diamond_retry]

/-- Two threads look for one file. The second walk goes on where the first
failed. -/
theorem diamond_threads : ∃ s : Engine (Fin 4) Unit Bool, Engine.Reachable diamond flaky [] s ∧
    s.calls false = .failed 3 () ∧ s.calls true = .returned 3 := by
  have called : ReflTransGen (Engine.Step diamond flaky)
      (⟨.empty _, fun _ => .idle⟩ : Engine (Fin 4) Unit Bool) _ :=
    .tail (.single (.call false 3 rfl)) (.call true 3 rfl)
  have missed := (called.tail (.advance false)).tail (.advance true)
  have walked := (missed.tail (.advance false)).tail (.advance true)
  refine ⟨_, ⟨.empty _, rfl, walked⟩, ?_, ?_⟩ <;>
    simp [diamond_missed, diamond_failed, diamond_returned]

theorem registered_closed_diamond : ∃ s : Engine (Fin 4) Unit Bool,
    Engine.Reachable diamond flaky [] s ∧ s.calls false = .failed 3 () ∧
    s.calls true = .returned 3 ∧
    ∀ dependency, diamond.Below 3 dependency → dependency ∈ s.registry.registered := by
  obtain ⟨s, reachable, failed, returned⟩ := diamond_threads
  obtain ⟨-, -, -, below, -⟩ := Engine.registered_closed reachable
  exact ⟨s, reachable, failed, returned, below true 3 returned⟩

end Protovalidate
