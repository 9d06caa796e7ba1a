import Protovalidate.RuleOrder
import Protovalidate.Determined

/-!
# The cache over every interleaving

A thread builds against a snapshot that others leave behind, and merges over
what they merged meanwhile. The cache is still part of one table, and closed.
-/

namespace Protovalidate

namespace Validator
variable {R : Runtime} (self : Validator R)

/-- What a call relies on while the cache grows. -/
def SoundCall (cache : ValidatorCache R) : Call R → Prop
  | .building index known => Table.Within known cache ∧ known index = none
  | .merging index built =>
    Table.Within built self.entry ∧ Table.Completes self.Holds cache built ∧
      (built index).isSome
  | .returned index validators =>
    Table.Within validators cache ∧ Table.Closed self.Holds validators ∧
      (validators index).isSome
  | .idle | .started _ | .failed _ => True

variable {self}

/-- The invariant of a shared validator. -/
structure Sound {Θ : Type} (validator : Validator R) (s : Shared R Θ) : Prop where
  determined : Table.Within s.cache validator.entry
  closed : Table.Closed validator.Holds s.cache
  calls : ∀ t, validator.SoundCall s.cache (s.calls t)

theorem SoundCall.mono {cache larger : ValidatorCache R} {call : Call R}
    (sound : self.SoundCall cache call) (grows : Table.Within cache larger) :
    self.SoundCall larger call := by
  cases call with
  | building index known => exact ⟨sound.1.trans grows, sound.2⟩
  | merging index built => exact ⟨sound.1, sound.2.1.mono grows, sound.2.2⟩
  | returned index validators => exact ⟨sound.1.trans grows, sound.2⟩
  | idle | started _ | failed _ => trivial

/-- One step of a call. -/
theorem advance_sound {cache : ValidatorCache R} {call : Call R}
    (determined : Table.Within cache self.entry) (closed : Table.Closed self.Holds cache)
    (sound : self.SoundCall cache call) :
    Table.Within (self.advance cache call).1 self.entry ∧
      Table.Closed self.Holds (self.advance cache call).1 ∧
      Table.Within cache (self.advance cache call).1 ∧
      self.SoundCall (self.advance cache call).1 (self.advance cache call).2 := by
  have unchanged := Table.Within.refl cache
  generalize next : self.advance cache call = result
  cases call with
  | started index =>
    simp only [advance] at next
    split at next <;> subst next
    · rename_i found
      exact ⟨determined, closed, unchanged, unchanged, closed, found⟩
    · rename_i missing
      exact ⟨determined, closed, unchanged, unchanged, by simpa using missing⟩
  | building index known =>
    simp only [advance] at next
    split at next <;> subst next
    · rename_i built made
      obtain ⟨within, completes, root⟩ := build_determined (sound.1.trans determined) made
      exact ⟨determined, closed, unchanged, within, completes.mono sound.1, root sound.2⟩
    · exact ⟨determined, closed, unchanged, trivial⟩
  | merging index built =>
    obtain ⟨within, completes, root⟩ := sound
    have merged := closed.extend completes
    subst next
    exact ⟨determined.extend within, merged, determined.of_extend within,
      Table.Within.refl _, merged, by simp [root]⟩
  | returned index validators => exact next ▸ ⟨determined, closed, unchanged, sound⟩
  | idle | failed _ => exact next ▸ ⟨determined, closed, unchanged, trivial⟩

/-- One step of any thread keeps the invariant, and loses nothing. -/
theorem step_sound {Θ : Type} [DecidableEq Θ] {s s' : Shared R Θ} (sound : self.Sound s)
    (step : self.Step s s') : self.Sound s' ∧ Table.Within s.cache s'.cache := by
  cases step with
  | call t index _ =>
    refine ⟨⟨sound.determined, sound.closed, ?_⟩, Table.Within.refl _⟩
    rw [Function.forall_update_iff s.calls fun _ call => self.SoundCall s.cache call]
    exact ⟨trivial, fun u _ => sound.calls u⟩
  | advance t =>
    obtain ⟨determined, closed, grows, call⟩ :=
      advance_sound sound.determined sound.closed (sound.calls t)
    refine ⟨⟨determined, closed, ?_⟩, grows⟩
    rw [Function.forall_update_iff s.calls fun _ call => self.SoundCall _ call]
    exact ⟨call, fun u _ => (sound.calls u).mono grows⟩

theorem steps_sound {Θ : Type} [DecidableEq Θ] {s s' : Shared R Θ} (sound : self.Sound s)
    (steps : Relation.ReflTransGen self.Step s s') :
    self.Sound s' ∧ Table.Within s.cache s'.cache := by
  induction steps with
  | refl => exact ⟨sound, Table.Within.refl _⟩
  | tail _ step ih =>
    obtain ⟨sound, grown⟩ := ih
    obtain ⟨sound, grows⟩ := step_sound sound step
    exact ⟨sound, grown.trans grows⟩

theorem reachable_sound {Θ : Type} [DecidableEq Θ] {s : Shared R Θ}
    (reachable : self.Reachable s) : self.Sound s := by
  have start : self.Sound (⟨fun _ => none, fun _ => .idle⟩ : Shared R Θ) := by
    refine ⟨fun _ _ found => ?_, fun _ _ found => ?_, fun _ => trivial⟩ <;> cases found
  exact (steps_sound start reachable).1

/-- In every reachable state the cache is part of the one table the descriptors
determine, has every type reachable from a type it has, and keeps its entries.
A call that returned has its own type and everything reachable from it. -/
theorem published_cache_determined {Θ : Type} [DecidableEq Θ] (self : Validator R)
    {s : Shared R Θ} (reachable : self.Reachable s) :
    (∀ index entry, s.cache index = some entry → self.entry index = some entry) ∧
    (∀ index nested, (s.cache index).isSome → Relation.ReflTransGen self.Holds index nested →
      (s.cache nested).isSome) ∧
    (∀ later, Relation.ReflTransGen self.Step s later →
      ∀ index entry, s.cache index = some entry → later.cache index = some entry) ∧
    ∀ t index validators, s.calls t = .returned index validators →
      ∀ nested, Relation.ReflTransGen self.Holds index nested →
        ∃ entry, validators nested = some entry ∧ self.entry nested = some entry := by
  have sound := reachable_sound reachable
  refine ⟨sound.determined, fun _ _ found => sound.closed.reaches found,
    fun later steps => (steps_sound sound steps).2, fun t index validators returned nested => ?_⟩
  obtain ⟨within, closed, root⟩ : self.SoundCall s.cache (.returned index validators) :=
    returned ▸ sound.calls t
  intro reaches
  obtain ⟨entry, found⟩ := Option.isSome_iff_exists.mp (closed.reaches root reaches)
  exact ⟨entry, found, sound.determined nested entry (within nested entry found)⟩

end Validator

namespace Validator
variable {R : Runtime} (self : Validator R)

/-- The first steps of a call by a thread on its own. -/
def alone (index : MessageIndex) : Nat → Shared R Unit
  | 0 => ⟨fun _ => none, Function.update (fun _ => .idle) () (.started index)⟩
  | n + 1 =>
    let s := alone index n
    ⟨(self.advance s.cache (s.calls ())).1,
      Function.update s.calls () (self.advance s.cache (s.calls ())).2⟩

theorem alone_reachable (index : MessageIndex) (n : Nat) :
    self.Reachable (self.alone index n) := by
  induction n with
  | zero => exact .single (.call () index rfl)
  | succ n ih => exact ih.tail (.advance ())

/-- A call on its own returns what it builds. -/
theorem alone_returned {index : MessageIndex} {built : ValidatorCache R}
    (made : self.build index (fun _ => none) = .ok built) :
    (self.alone index 3).cache = built ∧
      (self.alone index 3).calls () = .returned index built := by
  have merged : Table.extend (fun _ => none) built = built := by
    funext k
    simp [Table.extend]
  simp [alone, advance, made, merged]

/-- What a step of a thread leaves. -/
def turn {Θ : Type} [DecidableEq Θ] (s : Shared R Θ) (t : Θ) : Shared R Θ :=
  ⟨(self.advance s.cache (s.calls t)).1,
    Function.update s.calls t (self.advance s.cache (s.calls t)).2⟩

theorem turns_reachable {Θ : Type} [DecidableEq Θ] {s : Shared R Θ} (reachable : self.Reachable s)
    (order : List Θ) : self.Reachable (order.foldl self.turn s) := by
  induction order generalizing s with
  | nil => exact reachable
  | cons t order ih => exact ih (reachable.tail (.advance t))

/-- Two threads call for one type. Both find nothing, and the second has merged when the
first builds against what it found, and merges as well. -/
def raced (index : MessageIndex) : Shared R Bool :=
  [false, true, true, true, false, false].foldl self.turn ⟨fun _ => none, fun _ => .started index⟩

theorem raced_reachable (index : MessageIndex) : self.Reachable (self.raced index) := by
  refine self.turns_reachable ?_ _
  have called : self.Reachable (⟨fun _ => none, Function.update
      (Function.update (fun _ => .idle) false (.started index)) true (.started index)⟩ :
        Shared R Bool) :=
    .tail (.single (.call false index rfl)) (.call true index rfl)
  have both : Function.update (Function.update (fun _ => .idle) false (.started index)) true
      (.started index) = fun _ : Bool => (.started index : Call R) := by
    funext t
    cases t <;> rfl
  rwa [both] at called

/-- Both calls return, and what the first merges makes no difference. -/
theorem raced_returned {index : MessageIndex} {built : ValidatorCache R}
    (made : self.build index (fun _ => none) = .ok built) :
    (self.raced index).cache = built ∧
      ∀ t, (self.raced index).calls t = .returned index built := by
  have first : Table.extend (fun _ => none) built = built := by
    funext k
    simp [Table.extend]
  have second : Table.extend built built = built := by
    funext k
    simp [Table.extend]
  have order : self.raced index = ⟨built, fun _ => .returned index built⟩ := by
    simp only [raced, turn, List.foldl_cons, List.foldl_nil, advance]
    simp [made, first, second]
    funext t
    cases t <;> rfl
  rw [order]
  exact ⟨rfl, fun _ => rfl⟩

end Validator

/-- A message type that holds itself. -/
def chainPool : DescriptorPool where
  messages := [{
    fullName := "Chain"
    fields := [{
      number := 1
      name := "next"
      kind := .singular (.message 0)
      presence := .explicit
      isDelimited := false
      fieldRules := none
      predefinedRules := none
      numberAllowed := one_allowed
      messagePresence := explicit_tracked _ }]
    oneofs := []
    messageRules := none
    numbersDistinct := by simp
    namesDistinct := by simp }]
  enums := []
  extensions := []
  linked := by simp [messageType]

/-- A validator of `chainPool`, whose rules use neither CEL nor the schema. -/
def chainValidator : Validator ⟨Empty, Unit⟩ where
  descriptors := ⟨chainPool, ⟨0, {}, {}, {}, {}, {}, {}, {}, {}⟩⟩
  env := ⟨fun _ _ => .ok ⟨fun _ _ => .ok (.bool true)⟩, fun name bytes => .ok ⟨name, bytes⟩⟩
  backend := Backend.bare
  reflection := ⟨fun _ _ => false, fun _ _ => [], fun _ => []⟩
  resolve _ := .ok ()

theorem chain_closure :
    closure chainPool 0 (fun _ => none : ValidatorCache ⟨Empty, Unit⟩) = [0] := by
  simp [closure, FiniteGraph.search, typeGraph, referenced, DescriptorPool.message, chainPool,
    messageType]

theorem chain_build : ∃ built validator, chainValidator.build 0 (fun _ => none) = .ok built ∧
    built 0 = some (.ok validator) := by
  have types : closure chainValidator.pool 0 (fun _ => none : ValidatorCache ⟨Empty, Unit⟩) =
      [0] := chain_closure
  have messages : ∀ types, closure (chainValidator.builder types).pool 0
      (fun _ => none : ValidatorCache ⟨Empty, Unit⟩) = [0] := fun _ => chain_closure
  simp only [Validator.build, resolve, Builder.buildClosure, types, messages]
  exact ⟨_, _, rfl, rfl⟩

/-- Once both calls have merged, their type is in the cache as the descriptors determine
it, and each of them returned it. -/
theorem published_cache_determined_chain :
    ∃ s : Shared ⟨Empty, Unit⟩ Bool, chainValidator.Reachable s ∧
      ∃ entry, s.cache 0 = some entry ∧ chainValidator.entry 0 = some entry ∧
        ∀ t, ∃ validators, s.calls t = .returned 0 validators ∧ validators 0 = some entry := by
  obtain ⟨built, validator, made, found⟩ := chain_build
  obtain ⟨cached, returned⟩ := chainValidator.raced_returned made
  obtain ⟨determined, -, -, -⟩ :=
    chainValidator.published_cache_determined (chainValidator.raced_reachable 0)
  have here : (chainValidator.raced 0).cache 0 = some (.ok validator) := cached ▸ found
  exact ⟨_, chainValidator.raced_reachable 0, _, here, determined _ _ here,
    fun t => ⟨built, returned t, found⟩⟩

end Protovalidate
