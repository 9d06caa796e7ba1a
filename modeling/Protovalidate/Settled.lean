import Protovalidate.Session

/-!
# When the order of calls does not matter

Rules built early are those that would be built now, unless a file registered
since changes them. Only types that can be reached from the one being validated
matter, and of these the cache has all or, being closed, lacks what is built now.
-/

namespace Protovalidate

open BuildM Builder Relation

namespace Validator
variable {R : Runtime} {self : Validator R}

/-- What a snapshot has is left out of the closure, with nothing else. -/
theorem closure_filter {index : MessageIndex} {known : ValidatorCache R}
    (closed : Table.Closed self.Holds known) :
    closure self.pool index known =
      (closure self.pool index (fun _ => none : ValidatorCache R)).filter
        fun next => !(known next).isSome := by
  have leads : ∀ next, (known next).isSome = true →
      ∀ held ∈ (typeGraph self.pool).successors next, (known held).isSome = true :=
    fun next had held edge => closed next held had edge
  exact FiniteGraph.search_filter leads [] [index]

/-- A call with a snapshot fails to resolve the same type as one without, if
the types in the snapshot are resolved. -/
theorem referredTo_error {index : MessageIndex} {known : ValidatorCache R}
    (closed : Table.Closed self.Holds known)
    (resolves : ∀ next, (known next).isSome → ∃ type, self.typeOf next = .ok type) :
    (self.referredTo index known).findSome? (Memo.error self.typeOf) =
      (self.referredTo index fun _ => none).findSome? (Memo.error self.typeOf) := by
  have passes : ∀ next, (known next).isSome → Memo.error self.typeOf next = none := by
    intro next had
    obtain ⟨type, found⟩ := resolves next had
    simp [Memo.error, found]
  unfold referredTo
  rw [closure_filter closed]
  apply findSome?_flatMap_filter
  intro next _ had other member
  have had : (known next).isSome := by simpa using had
  rcases List.mem_cons.mp member with rfl | held
  · exact passes other had
  · exact passes other (closed next other had held)

/-- A call that builds, with a snapshot of validators of the resolved types. -/
theorem build_built {index : MessageIndex} {known built : ValidatorCache R}
    (typed : self.CachedTypes known) (done : self.build index known = .ok built) :
    ∃ types messages, (∀ index type, types index = some type → self.resolved index = some type) ∧
      ClosureBuilt (self.builder types) index known built messages ∧
      (self.referredTo index known).findSome? (Memo.error self.typeOf) = none := by
  unfold build at done
  obtain ⟨types, resolved, done⟩ := bind_eq_ok.mp done
  have resolved := mapError_eq_ok.mp resolved
  obtain ⟨messages, made⟩ := buildClosure_built (mapError_eq_ok.mp done)
  rcases resolve_cases typed with ⟨e, -, failed⟩ | ⟨types', passes, found, more⟩
  · rw [resolved] at failed
    cases failed
  · rw [resolved] at found
    cases found
    exact ⟨types, messages, more, made, passes⟩

/-- A call that does not build fails to resolve a type, or panics. -/
theorem build_failed {index : MessageIndex} {known : ValidatorCache R}
    {failure : Failed R.Error} (typed : self.CachedTypes known)
    (failed : self.build index known = .error failure) :
    (∃ e, (self.referredTo index known).findSome? (Memo.error self.typeOf) = some e ∧
      failure = .read e) ∨ ∃ why, failure = .panic why := by
  unfold build at failed
  rcases resolve_cases typed with ⟨e, first, unresolved⟩ | ⟨types, -, resolved, -⟩
  · rw [unresolved] at failed
    cases failed
    exact .inl ⟨e, first, rfl⟩
  · rw [resolved] at failed
    refine .inr ?_
    cases done : (self.builder types).buildClosure index known with
    | error why =>
      simp only [Except.mapError, bind, Except.bind, done] at failed
      exact ⟨why, (Except.error.inj failed).symm⟩
    | ok built =>
      simp only [Except.mapError, bind, Except.bind, done] at failed
      cases failed

/-- A call for a type there are rules for builds nothing. -/
theorem closure_known {index : MessageIndex} {known : ValidatorCache R}
    (had : (known index).isSome) : closure self.pool index known = [] := by
  have skipped := @FiniteGraph.search_cons_skipped _ _ (typeGraph self.pool)
    (fun index => (known index).isSome) index had [] []
  unfold closure
  rw [skipped, FiniteGraph.search]

/-- What is built is what the closure has. -/
theorem built_isSome {types : MessageIndex → Option R.MessageType} {index nested : MessageIndex}
    {known built : ValidatorCache R}
    {messages : MessageIndex → Option (Except String (MessageValidator R))}
    (made : ClosureBuilt (self.builder types) index known built messages) :
    (built nested).isSome ↔ nested ∈ closure self.pool index known := by
  rw [made.built, Option.isSome_map]
  exact made.indices nested

/-- What is built for a type has the type that is resolved. -/
theorem built_type {types : MessageIndex → Option R.MessageType} {index nested : MessageIndex}
    {known built : ValidatorCache R}
    {messages : MessageIndex → Option (Except String (MessageValidator R))}
    (more : ∀ index type, types index = some type → self.resolved index = some type)
    (made : ClosureBuilt (self.builder types) index known built messages)
    {validator : MessageValidator R} (found : built nested = some (.ok validator)) :
    self.typeOf nested = .ok validator.messageType := by
  rw [made.built, Option.map_eq_some_iff] at found
  obtain ⟨message, present, same⟩ := found
  cases message with
  | error e => cases same
  | ok message =>
    cases same
    have run := made.made nested _ present
    exact resolved_eq (more nested _ (Builder.builds_buildMessage run).resolved)

theorem holds_from_lt {index nested : MessageIndex} (holds : self.Holds index nested) :
    index < self.pool.messages.length := by
  by_contra beyond
  have none : referenced self.pool index = [] := (typeGraph self.pool).outside index (by
    simpa [typeGraph] using beyond)
  unfold Holds at holds
  rw [none] at holds
  cases holds

theorem holds_lt {index nested : MessageIndex} (holds : self.Holds index nested) :
    nested < self.pool.messages.length := by
  obtain ⟨field, member, type⟩ := List.mem_filterMap.mp holds
  unfold DescriptorPool.message at member
  cases found : self.pool.messages[index]? with
  | none =>
    rw [List.getD_eq_getElem?_getD, found] at member
    cases member
  | some message =>
    rw [List.getD_eq_getElem?_getD, found] at member
    exact self.pool.linked message (List.mem_of_getElem? found) field member nested type

theorem closure_lt {index nested : MessageIndex} {known : ValidatorCache R}
    (root : index < self.pool.messages.length) (member : nested ∈ closure self.pool index known) :
    nested < self.pool.messages.length := by
  cases mem_closure.mp member with
  | root _ => exact root
  | step _ edge _ => exact holds_lt edge

theorem messageIndex_lt {typeName : String} {index : MessageIndex}
    (found : self.pool.messageIndex typeName = some index) :
    index < self.pool.messages.length := by
  obtain ⟨present, -⟩ := List.findIdx?_eq_some_iff_getElem.mp found
  exact present

/-- A later state of a validator: more files are registered. -/
structure Grown (validator later : Validator R) : Prop where
  resolve : later.resolve = validator.resolve
  messages : validator.pool.messages <+: later.pool.messages

theorem Grown.refl (validator : Validator R) : Grown validator validator :=
  ⟨rfl, List.prefix_refl _⟩

theorem Grown.trans {a b c : Validator R} (first : Grown a b) (second : Grown b c) : Grown a c :=
  ⟨second.resolve.trans first.resolve, first.messages.trans second.messages⟩

section Grown
variable {later : Validator R} (grown : Grown self later) {index : MessageIndex}
  (present : index < self.pool.messages.length)
include grown present

theorem Grown.message : later.pool.message index = self.pool.message index := by
  obtain ⟨new, same⟩ := grown.messages
  unfold DescriptorPool.message
  rw [← same, List.getD_eq_getElem?_getD, List.getD_eq_getElem?_getD,
    List.getElem?_append_left present]

theorem Grown.typeOf : later.typeOf index = self.typeOf index := by
  unfold Validator.typeOf
  rw [grown.message present, grown.resolve]

theorem Grown.holds {nested : MessageIndex} :
    later.Holds index nested ↔ self.Holds index nested := by
  unfold Holds referenced
  rw [grown.message present]

end Grown

theorem addFileDescriptorBytes_grown {P : Type} {linker : Linker P} (appends : linker.Appends)
    (file : Bytes) : Grown self (self.addFileDescriptorBytes linker file).2 := by
  cases decoded : linker.decode file with
  | error e =>
    simp only [addFileDescriptorBytes, decoded]
    exact .refl _
  | ok proto =>
    have grown := appends self.pool proto
    simp only [addFileDescriptorBytes, decoded]
    generalize linker.addFileDescriptorSet self.pool proto = added at grown
    obtain ⟨added, pool⟩ := added
    cases added with
    | error e => exact ⟨rfl, grown⟩
    | ok u => exact ⟨rfl, grown⟩

theorem validators_present {cache : ValidatorCache R} {index : MessageIndex}
    (had : (cache index).isSome) : self.validators cache index = (.ok cache, cache) := by
  simp [validators, had]

theorem validators_missing {cache built : ValidatorCache R} {index : MessageIndex}
    (missing : cache index = none) (done : self.build index cache = .ok built) :
    self.validators cache index = (.ok (Table.extend cache built), Table.extend cache built) := by
  simp [validators, missing, done]

/-- What a call gets and leaves of the cache: the cache as it is, or with what
it builds. -/
theorem validators_cases (cache : ValidatorCache R) (index : MessageIndex) :
    ((cache index).isSome ∧ self.validators cache index = (.ok cache, cache)) ∨
    (cache index = none ∧
      ((∃ failure, self.build index cache = .error failure ∧
          self.validators cache index = (.error failure, cache)) ∨
        ∃ built, self.build index cache = .ok built ∧
          self.validators cache index =
            (.ok (Table.extend cache built), Table.extend cache built))) := by
  cases had : cache index with
  | some entry => exact .inl ⟨rfl, validators_present (by simp [had])⟩
  | none =>
    refine .inr ⟨rfl, ?_⟩
    cases done : self.build index cache with
    | error failure => exact .inl ⟨failure, rfl, by simp [validators, had, done]⟩
    | ok built => exact .inr ⟨built, rfl, validators_missing had done⟩

section Calls
variable (cache : ValidatorCache R) (typeName : String)
  (message : R.MessageType → Except R.Error (Message R)) (failFast : Bool)

theorem validateMessage_run :
    (self.validateMessage cache typeName message failFast).2 =
      (self.run cache typeName message failFast).2 := by
  unfold validateMessage
  split <;> simp_all

/-- What a call returns depends on the violations found, or what stopped it. -/
theorem validateMessage_congr {cache cache' : ValidatorCache R}
    (same : (self.run cache typeName message failFast).1 =
      (self.run cache' typeName message failFast).1) :
    (self.validateMessage cache typeName message failFast).1 =
      (self.validateMessage cache' typeName message failFast).1 := by
  unfold validateMessage
  generalize self.run cache typeName message failFast = first at same
  generalize self.run cache' typeName message failFast = second at same
  obtain ⟨result, left⟩ := first
  obtain ⟨result', left'⟩ := second
  cases same
  cases result with
  | error stopped => rfl
  | ok violations => cases violations <;> rfl

variable {cache typeName message failFast}

theorem run_returned {index : MessageIndex} {validators left : ValidatorCache R}
    (named : self.pool.messageIndex typeName = some index)
    (got : self.validators cache index = (.ok validators, left)) :
    self.run cache typeName message failFast =
      (self.runWith validators index typeName message failFast, left) := by
  simp only [run, named, got]

theorem run_failed {index : MessageIndex} {failure : Failed R.Error} {left : ValidatorCache R}
    (named : self.pool.messageIndex typeName = some index)
    (got : self.validators cache index = (.error failure, left)) :
    self.run cache typeName message failFast = (.error failure.stopped, left) := by
  simp only [run, named, got]

theorem run_unknown (named : self.pool.messageIndex typeName = none) :
    self.run cache typeName message failFast =
      (.error (.error (.argument ("unknown message type: " ++ typeName))), cache) := by
  simp only [run, named]

/-- What a call leaves in the cache. -/
theorem run_cache :
    (self.run cache typeName message failFast).2 = cache ∨
    ∃ index built, self.pool.messageIndex typeName = some index ∧
      self.build index cache = .ok built ∧
      (self.run cache typeName message failFast).2 = Table.extend cache built := by
  cases named : self.pool.messageIndex typeName with
  | none => exact .inl (by rw [run_unknown named])
  | some index =>
    rcases self.validators_cases cache index with
      ⟨-, got⟩ | ⟨-, ⟨failure, -, got⟩ | ⟨built, done, got⟩⟩
    · exact .inl (by rw [run_returned named got])
    · exact .inl (by rw [run_failed named got])
    · exact .inr ⟨index, built, rfl, done, by rw [run_returned named got]⟩

end Calls

end Validator

namespace Session
variable {R : Runtime} {P : Type} {linker : Linker P}

/-- What a session keeps about the types it has rules for: they are in the pool
with all that they hold, and were resolved. -/
structure Kept (s : Session R) : Prop where
  present : ∀ index, (s.cache index).isSome → index < s.validator.pool.messages.length
  closed : Table.Closed s.validator.Holds s.cache
  resolves : ∀ index, (s.cache index).isSome → ∃ type, s.validator.typeOf index = .ok type
  types : s.validator.CachedTypes s.cache

theorem kept_fresh (validator : Validator R) : (fresh validator).Kept :=
  ⟨fun _ had => (by cases had), fun _ _ had => (by cases had), fun _ had => (by cases had),
    fun _ _ had => (by cases had)⟩

/-- More files change nothing about the types there are rules for. -/
theorem Kept.grown {s : Session R} (kept : s.Kept) {later : Validator R}
    (grown : Validator.Grown s.validator later) : (⟨later, s.cache⟩ : Session R).Kept := by
  constructor
  · intro index had
    exact (kept.present index had).trans_le grown.messages.length_le
  · intro index nested had holds
    exact kept.closed index nested had ((grown.holds (kept.present index had)).mp holds)
  · intro index had
    obtain ⟨type, found⟩ := kept.resolves index had
    exact ⟨type, (grown.typeOf (kept.present index had)).trans found⟩
  · intro index validator had
    have present := kept.present index (by rw [had]; rfl)
    exact (grown.typeOf present).trans (kept.types index validator had)

/-- So does what is built of them. -/
theorem Kept.built {s : Session R} (kept : s.Kept) {index : MessageIndex}
    (root : index < s.validator.pool.messages.length) {built : ValidatorCache R}
    (done : s.validator.build index s.cache = .ok built) :
    (⟨s.validator, Table.extend s.cache built⟩ : Session R).Kept := by
  obtain ⟨types, messages, more, made, passes⟩ := Validator.build_built kept.types done
  have resolves : ∀ nested ∈ closure s.validator.pool index s.cache,
      ∃ type, s.validator.typeOf nested = .ok type := by
    intro nested member
    have referred : nested ∈ s.validator.referredTo index s.cache :=
      List.mem_flatMap.mpr ⟨nested, member, List.mem_cons_self⟩
    have passed := List.findSome?_eq_none_iff.mp passes nested referred
    unfold Memo.error at passed
    cases looked : s.validator.typeOf nested with
    | error e => simp [looked] at passed
    | ok type => exact ⟨type, rfl⟩
  have split : ∀ nested, (Table.extend s.cache built nested).isSome →
      nested ∈ closure s.validator.pool index s.cache ∨ (s.cache nested).isSome := by
    intro nested had
    rw [Table.isSome_extend, Bool.or_eq_true] at had
    exact had.imp_left (Validator.built_isSome made).mp
  constructor
  · intro nested had
    rcases split nested had with member | had
    · exact Validator.closure_lt root member
    · exact kept.present nested had
  · refine kept.closed.extend fun nested held had holds => ?_
    have member := (Validator.built_isSome made).mp had
    rw [Validator.built_isSome made]
    exact Validator.closure_holds member holds
  · intro nested had
    rcases split nested had with member | had
    · exact resolves nested member
    · exact kept.resolves nested had
  · intro nested validator had
    unfold Table.extend at had
    cases new : built nested with
    | none => exact kept.types nested validator (by simpa [new] using had)
    | some entry =>
      have same : entry = .ok validator := by simpa [new] using had
      exact Validator.built_type more made (new.trans (congrArg some same))

theorem step_grown (appends : linker.Appends) (s : Session R) (call : Operation R) :
    Validator.Grown s.validator (s.step linker call).validator := by
  cases call with
  | add file => exact Validator.addFileDescriptorBytes_grown appends file
  | validate typeName message failFast => exact .refl _

/-- One call. -/
theorem Kept.step (appends : linker.Appends) {s : Session R} (kept : s.Kept)
    (call : Operation R) : (s.step linker call).Kept := by
  cases call with
  | add file => exact kept.grown (Validator.addFileDescriptorBytes_grown appends file)
  | validate typeName message failFast =>
    simp only [Session.step, Validator.validateMessage_run]
    rcases Validator.run_cache with unchanged | ⟨index, built, named, done, left⟩
    · rw [unchanged]
      exact kept
    · rw [left]
      exact kept.built (Validator.messageIndex_lt named) done

theorem after_snoc (s : Session R) (calls : List (Operation R)) (call : Operation R) :
    s.after linker (calls ++ [call]) = (s.after linker calls).step linker call := by
  simp [after]

theorem after_append (s : Session R) (before calls : List (Operation R)) :
    s.after linker (before ++ calls) = (s.after linker before).after linker calls :=
  List.foldl_append

theorem Kept.after (appends : linker.Appends) {s : Session R} (kept : s.Kept)
    (calls : List (Operation R)) : (s.after linker calls).Kept := by
  induction calls using List.reverseRecOn with
  | nil => exact kept
  | append_singleton calls call ih =>
    rw [after_snoc]
    exact ih.step appends call

theorem after_grown (appends : linker.Appends) (s : Session R) (calls : List (Operation R)) :
    Validator.Grown s.validator (s.after linker calls).validator := by
  induction calls using List.reverseRecOn with
  | nil => exact .refl _
  | append_singleton calls call ih =>
    rw [after_snoc]
    exact ih.trans (step_grown appends _ call)

/-- The files registered determine the validator, and registering them alone
leaves the cache empty. -/
theorem after_registrations (validator : Validator R) (calls : List (Operation R)) :
    (fresh validator).after linker (registrations calls) =
      fresh ((fresh validator).after linker calls).validator := by
  induction calls using List.reverseRecOn with
  | nil => rfl
  | append_singleton calls call ih =>
    rw [registrations, List.filter_append, after_append, ← registrations, ih, after_snoc]
    cases call <;> rfl

/-- The rules there are for some types are those that would be built now. -/
def Current (s : Session R) (types : MessageIndex → Prop) : Prop :=
  ∀ index, types index → ∀ entry, s.cache index = some entry →
    s.validator.entry index = some entry

/-- What is built for a type is what would be built now, if that holds of what
there is for the types it holds. -/
theorem Current.built {s : Session R} (kept : s.Kept) {types : MessageIndex → Prop}
    (current : s.Current types)
    (closed : ∀ index nested, types index → s.validator.Holds index nested → types nested)
    {index : MessageIndex} {built : ValidatorCache R}
    (done : s.validator.build index s.cache = .ok built) :
    (⟨s.validator, Table.extend s.cache built⟩ : Session R).Current types := by
  obtain ⟨resolved, messages, more, made, -⟩ := Validator.build_built kept.types done
  intro nested among entry found
  have found : Table.extend s.cache built nested = some entry := found
  unfold Table.extend at found
  cases new : built nested with
  | none => exact current nested among entry (by simpa [new] using found)
  | some entry' =>
    obtain rfl : entry' = entry := by simpa [new] using found
    exact Validator.built_entry more made new fun held holds =>
      current held (closed nested held among holds)

/-- The types that a message of a type may come by. -/
def Reaches (validator : Validator R) (root : MessageIndex) : MessageIndex → Prop :=
  ReflTransGen validator.Holds root

/-- What a call gets when the rules of the types that it may come by are those
that would be built now: a type that any call fails to resolve, or the rules that
any call gets. A call may also panic. -/
theorem validators_current {s : Session R} (kept : s.Kept) {root : MessageIndex}
    (present : root < s.validator.pool.messages.length)
    (current : s.Current (Reaches s.validator root)) :
    (∃ e, (s.validator.referredTo root fun _ => none).findSome?
        (Memo.error s.validator.typeOf) = some e ∧
      s.validator.validators s.cache root = (.error (.read e), s.cache)) ∨
    (∃ why, s.validator.validators s.cache root = (.error (.panic why), s.cache)) ∨
    ∃ validators left, (s.validator.referredTo root fun _ => none).findSome?
        (Memo.error s.validator.typeOf) = none ∧
      s.validator.validators s.cache root = (.ok validators, left) ∧
      ∀ index, Reaches s.validator root index →
        ∃ entry, validators index = some entry ∧ s.validator.entry index = some entry := by
  have errors : (s.validator.referredTo root s.cache).findSome? (Memo.error s.validator.typeOf) =
      (s.validator.referredTo root fun _ => none).findSome? (Memo.error s.validator.typeOf) :=
    Validator.referredTo_error kept.closed kept.resolves
  rcases s.validator.validators_cases s.cache root with
    ⟨had, got⟩ | ⟨missing, ⟨failure, failed, got⟩ | ⟨built, done, got⟩⟩
  · refine .inr (.inr ⟨s.cache, s.cache, ?_, got, fun index reaches => ?_⟩)
    · rw [← errors, Validator.referredTo, Validator.closure_known had]
      rfl
    · obtain ⟨entry, found⟩ := Option.isSome_iff_exists.mp (kept.closed.reaches had reaches)
      exact ⟨entry, found, current index reaches entry found⟩
  · rcases Validator.build_failed kept.types failed with ⟨e, first, rfl⟩ | ⟨why, rfl⟩
    · exact .inl ⟨e, errors ▸ first, got⟩
    · exact .inr (.inl ⟨why, got⟩)
  · obtain ⟨types, messages, more, made, passes⟩ := Validator.build_built kept.types done
    have rootBuilt : (Table.extend s.cache built root).isSome := by
      have member : root ∈ closure s.validator.pool root s.cache :=
        Validator.mem_closure.mpr (.root (by simp [missing]))
      rw [Table.isSome_extend, (Validator.built_isSome made).mpr member, Bool.true_or]
    have settled := Current.built kept current (fun _ _ reaches holds => reaches.tail holds) done
    refine .inr (.inr ⟨_, _, errors ▸ passes, got, fun index reaches => ?_⟩)
    obtain ⟨entry, found⟩ := Option.isSome_iff_exists.mp
      ((kept.built present done).closed.reaches rootBuilt reaches)
    exact ⟨entry, found, settled index reaches entry found⟩

/-- Two snapshots with the rules that would be built now for the types that a
message may come by. -/
theorem runWith_current {validator : Validator R} {validators other : ValidatorCache R}
    {root : MessageIndex}
    (first : ∀ index, Reaches validator root index →
      ∃ entry, validators index = some entry ∧ validator.entry index = some entry)
    (second : ∀ index, Reaches validator root index →
      ∃ entry, other index = some entry ∧ validator.entry index = some entry)
    (typeName : String) (message : R.MessageType → Except R.Error (Message R)) (failFast : Bool) :
    validator.runWith validators root typeName message failFast =
      validator.runWith other root typeName message failFast := by
  have agrees : (validator.walk validators).Agrees other (Reaches validator root) := by
    constructor
    · intro index reaches
      obtain ⟨entry, found, made⟩ := first index reaches
      obtain ⟨entry', found', made'⟩ := second index reaches
      cases made.symm.trans made'
      exact found'.trans found.symm
    · intro index reaches compiled found rules present nested nests
      obtain ⟨entry, found', made⟩ := first index reaches
      cases found'.symm.trans found
      exact reaches.tail (Validator.entry_nests made present nests).1
  obtain ⟨entry, found, -⟩ := first root .refl
  have found' : other root = some entry := (agrees.same root .refl).trans found
  unfold Validator.runWith
  rw [found, found']
  cases entry with
  | error e => rfl
  | ok compiled =>
    have same : ∀ m, (validator.walk other).validate failFast compiled m typeName =
        (validator.walk validators).validate failFast compiled m typeName :=
      fun m => validate_withCache agrees .refl found failFast m typeName
    simp only [same]

/-- A call returns what it would return if nothing had been validated before. -/
theorem result_current {s : Session R} (kept : s.Kept) {typeName : String}
    (current : ∀ root, s.validator.pool.messageIndex typeName = some root →
      s.Current (Reaches s.validator root))
    {message : R.MessageType → Except R.Error (Message R)} {failFast : Bool}
    (returns : ∀ why, s.result typeName message failFast ≠ .error (.panic why))
    (fresh_returns : ∀ why, (fresh s.validator).result typeName message failFast ≠
      .error (.panic why)) :
    s.result typeName message failFast = (fresh s.validator).result typeName message failFast := by
  unfold result at *
  apply Validator.validateMessage_congr
  cases named : s.validator.pool.messageIndex typeName with
  | none => rw [Validator.run_unknown named, Validator.run_unknown named]
  | some root =>
    have present := Validator.messageIndex_lt named
    have now := validators_current kept present (current root named)
    have anew := validators_current (kept_fresh s.validator) present
      fun _ _ _ found => by cases found
    have panics : ∀ {cache : ValidatorCache R} {why : Panic},
        s.validator.validators cache root = (.error (.panic why), cache) →
        (s.validator.validateMessage cache typeName message failFast).1 = .error (.panic why) := by
      intro cache why got
      unfold Validator.validateMessage
      rw [Validator.run_failed named got]
      rfl
    rcases anew with ⟨e', first', got'⟩ | ⟨why, got'⟩ | ⟨other, left', passes', got', entries'⟩
    · rcases now with ⟨e, first, got⟩ | ⟨why, got⟩ | ⟨validators, left, passes, got, entries⟩
      · cases first.symm.trans first'
        rw [Validator.run_failed named got, Validator.run_failed named got']
      · exact absurd (panics got) (returns why)
      · cases passes.symm.trans first'
    · exact absurd (panics got') (fresh_returns why)
    · rcases now with ⟨e, first, got⟩ | ⟨why, got⟩ | ⟨validators, left, passes, got, entries⟩
      · cases first.symm.trans passes'
      · exact absurd (panics got) (returns why)
      · rw [Validator.run_returned named got, Validator.run_returned named got']
        exact runWith_current entries entries' typeName message failFast

/-- No file registered since the rules of a type that `root` reaches were first
there changes what they are built as. -/
def Settled (linker : Linker P) (start : Validator R) (calls : List (Operation R))
    (root : MessageIndex) : Prop :=
  ∀ index, Reaches ((fresh start).after linker calls).validator root index →
    ∀ before later, calls = before ++ later →
      (((fresh start).after linker before).cache index).isSome →
      ((fresh start).after linker before).validator.entry index =
        ((fresh start).after linker calls).validator.entry index

/-- At every point the rules there are for the types that `root` reaches are
those that would be built then. -/
theorem Settled.current (appends : linker.Appends) {start : Validator R}
    {calls : List (Operation R)} {root : MessageIndex} (settled : Settled linker start calls root)
    (before : List (Operation R)) : ∀ later, calls = before ++ later →
    ((fresh start).after linker before).Current
      (Reaches ((fresh start).after linker calls).validator root) := by
  induction before using List.reverseRecOn with
  | nil =>
    intro later _ index _ entry found
    cases found
  | append_singleton before call ih =>
    intro later split
    have earlier : calls = before ++ call :: later := by simpa using split
    have current := ih (call :: later) earlier
    have kept := (kept_fresh start).after appends before
    have grown : Validator.Grown ((fresh start).after linker before).validator
        ((fresh start).after linker calls).validator := by
      rw [earlier, after_append]
      exact after_grown appends _ _
    cases call with
    | add file =>
      intro index reaches entry found
      have cached : ((fresh start).after linker before).cache index = some entry := by
        rw [after_snoc] at found
        exact found
      have then_ := settled index reaches _ later split (by rw [found]; rfl)
      have first := settled index reaches before _ earlier (by rw [cached]; rfl)
      rw [then_, ← first]
      exact current index reaches entry cached
    | validate typeName message failFast =>
      rw [after_snoc]
      simp only [step, Validator.validateMessage_run]
      rcases Validator.run_cache with unchanged | ⟨index, built, named, done, left⟩
      · rw [unchanged]
        exact current
      · rw [left]
        refine Current.built kept current (fun index nested reaches holds => ?_) done
        exact reaches.tail ((grown.holds (Validator.holds_from_lt holds)).mpr holds)

/-- Validations register nothing. -/
theorem after_validations (s : Session R) {calls : List (Operation R)}
    (validations : ∀ call ∈ calls, call.registers = false) :
    (s.after linker calls).validator = s.validator := by
  induction calls generalizing s with
  | nil => rfl
  | cons call calls ih =>
    have rest : ∀ call ∈ calls, call.registers = false := fun other member =>
      validations other (List.mem_cons_of_mem _ member)
    have first := validations call List.mem_cons_self
    cases call with
    | add file => cases first
    | validate typeName message failFast => exact ih _ rest

/-- Registrations build nothing. -/
theorem after_files (s : Session R) {calls : List (Operation R)}
    (files : ∀ call ∈ calls, call.registers = true) :
    (s.after linker calls).cache = s.cache := by
  induction calls generalizing s with
  | nil => rfl
  | cons call calls ih =>
    have rest : ∀ call ∈ calls, call.registers = true := fun other member =>
      files other (List.mem_cons_of_mem _ member)
    have first := files call List.mem_cons_self
    cases call with
    | add file => exact ih _ rest
    | validate typeName message failFast => cases first

/-- Files that are all registered before the first validation change no rules. -/
theorem settled_registered (start : Validator R) {files validations : List (Operation R)}
    (registered : ∀ call ∈ files, call.registers = true)
    (validated : ∀ call ∈ validations, call.registers = false) (root : MessageIndex) :
    Settled linker start (files ++ validations) root := by
  intro index _ before later split had
  rcases List.append_eq_append_iff.mp split with
    ⟨since, beforeEq, validationsEq⟩ | ⟨since, filesEq, -⟩
  · -- The rules are built after the last file.
    have earlier : ∀ call ∈ since, call.registers = false := fun call member =>
      validated call (by simp [validationsEq, member])
    rw [beforeEq, after_append, after_append, after_validations _ earlier,
      after_validations _ validated]
  · -- There are no rules yet.
    have only : ∀ call ∈ before, call.registers = true := fun call member =>
      registered call (by simp [filesEq, member])
    rw [after_files _ only] at had
    cases had

/-- A call of `validate_message` after any others returns what it returns when
the same files are registered and nothing was validated, as long as no file
changes what the rules of a type it may come by are built as, once these are
there. Calls that panic are left out. -/
theorem settled_result (appends : linker.Appends) (start : Validator R)
    (calls : List (Operation R)) (typeName : String)
    (message : R.MessageType → Except R.Error (Message R)) (failFast : Bool)
    (settled : ∀ root,
      ((fresh start).after linker calls).validator.pool.messageIndex typeName = some root →
      Settled linker start calls root)
    (returns : ∀ why, ((fresh start).after linker calls).result typeName message failFast ≠
      .error (.panic why))
    (fresh_returns : ∀ why, ((fresh start).after linker (registrations calls)).result typeName
      message failFast ≠ .error (.panic why)) :
    ((fresh start).after linker calls).result typeName message failFast =
      ((fresh start).after linker (registrations calls)).result typeName message failFast := by
  rw [after_registrations] at fresh_returns ⊢
  refine result_current ((kept_fresh start).after appends calls) (fun root named => ?_) returns
    fresh_returns
  exact (settled root named).current appends calls [] (by simp)

end Session

/-- Files with a message whose rule is an extension, and with the extension. -/
inductive MustBeFile
  | message
  | extension

/-- A message with a rule of number 1000. -/
def agreeingMessage : MessageDescriptor where
  fullName := "Agreement"
  fields := [plainField 1 "agreed" (.singular (.scalar .bool))
    (some ⟨[], [], none, none, some (.bool ⟨none, [], [⟨1000, [1]⟩]⟩)⟩) one_allowed]
  oneofs := []
  messageRules := none
  numbersDistinct := List.nodup_singleton _
  namesDistinct := List.nodup_singleton _

theorem thousand_allowed : 1000 ≤ maxFieldNumber := by decide

/-- A rule of number 1000, with a CEL expression. -/
def mustBeExtension : ExtensionDescriptor where
  extendee := 1
  fullName := "must_be"
  field := { plainField 1000 "must_be" (.singular (.scalar .bool)) none thousand_allowed with
    predefinedRules := some ⟨[⟨some "bool.must_be", none, some "this == rule"⟩]⟩ }

/-- Parsing and linking of the two files. -/
def mustBeLinker : Linker MustBeFile where
  decode
    | [1] => .ok .message
    | [2] => .ok .extension
    | _ => .error "invalid file"
  addFileDescriptorSet pool
    | .message => (.ok (), {
        pool with
        messages := pool.messages ++ [agreeingMessage]
        linked := by
          intro message member field declared index held
          rw [List.length_append]
          rcases List.mem_append.mp member with before | new
          · exact Nat.lt_add_right _ (pool.linked message before field declared index held)
          · obtain rfl := List.mem_singleton.mp new
            obtain rfl := List.mem_singleton.mp declared
            cases held })
    | .extension => (.ok (), { pool with extensions := pool.extensions ++ [mustBeExtension] })
  addFile env _ := (.ok (), env)

theorem mustBe_appends : mustBeLinker.Appends := by
  intro pool proto
  cases proto with
  | message => exact List.prefix_append _ _
  | extension => exact List.prefix_rfl

/-- The schema of the rules of a bool. -/
def boolPool : DescriptorPool where
  messages := [
    { fullName := FIELD_RULES
      fields := [plainField 13 "bool" (.singular (.message 1)) none thirteen_allowed]
      oneofs := []
      messageRules := none
      numbersDistinct := List.nodup_singleton _
      namesDistinct := List.nodup_singleton _ },
    boolRulesMessage]
  enums := []
  extensions := []
  linked := by simp [boolRulesMessage, messageType]

/-- Rules of a bool know the extensions of the pool. -/
def extensionReflection : Reflection where
  hasUnknown pool
    | .bool rules => rules.unknown.any fun field => (pool.extensionFor 1 field.number).isNone
    | _ => false
  setFields pool
    | .bool rules => rules.unknown.filterMap fun field =>
        (pool.extensionFor 1 field.number).map ExtensionDescriptor.field
    | _ => []
  encode _ := []

def boolValidator : Validator ⟨String, Unit⟩ where
  descriptors := ⟨boolPool, ⟨0, {}, {}, {}, {}, {}, {}, {}, {}⟩⟩
  env := ⟨fun _ _ => .ok ⟨fun _ _ => .ok (.bool true)⟩, fun name bytes => .ok ⟨name, bytes⟩⟩
  backend := Backend.bare
  reflection := extensionReflection
  resolve _ := .ok ()

/-- A message whose field is true. -/
def agreed : Message ⟨String, Unit⟩ where
  has _ := .ok true
  get _ := .ok (some (.bool true))
  encode := .ok []

def addMessage : Operation ⟨String, Unit⟩ := .add [1]

def addExtension : Operation ⟨String, Unit⟩ := .add [2]

def validateAgreed : Operation ⟨String, Unit⟩ := .validate "Agreement" (fun _ => .ok agreed) false

def messageAdded : Validator ⟨String, Unit⟩ :=
  (boolValidator.addFileDescriptorBytes mustBeLinker [1]).2

def bothAdded : Validator ⟨String, Unit⟩ :=
  (messageAdded.addFileDescriptorBytes mustBeLinker [2]).2

theorem agreement_index :
    messageAdded.pool.messageIndex "Agreement" = some 2 ∧
    bothAdded.pool.messageIndex "Agreement" = some 2 := by decide

theorem agreement_closure :
    closure messageAdded.pool 2 (fun _ => none : ValidatorCache ⟨String, Unit⟩) = [2] ∧
    closure bothAdded.pool 2 (fun _ => none : ValidatorCache ⟨String, Unit⟩) = [2] := by
  have first : referenced messageAdded.pool 2 = [] := rfl
  have second : referenced bothAdded.pool 2 = [] := rfl
  constructor
  · simp [closure, FiniteGraph.search, typeGraph, first]
  · simp [closure, FiniteGraph.search, typeGraph, second]

/-- Built before the extension is registered, the rule is unknown. -/
theorem agreement_early : ∃ built compiled,
    messageAdded.build 2 (fun _ => none) = .ok built ∧ built 2 = some (.ok compiled) ∧
    ∀ validator validators, (Validator.walk validator validators).validate false compiled agreed
      "Agreement" = .error (.compilation "unknown rules in buf.validate.BoolRules") := by
  have types := agreement_closure.1
  have messages : ∀ types, closure (messageAdded.builder types).pool 2
      (fun _ => none : ValidatorCache ⟨String, Unit⟩) = [2] := fun _ => agreement_closure.1
  simp only [Validator.build, resolve, Builder.buildClosure, types, messages]
  exact ⟨_, _, rfl, rfl, fun _ _ => rfl⟩

/-- Built after it, the rule is its expression. -/
theorem agreement_late : ∃ built compiled,
    bothAdded.build 2 (fun _ => none) = .ok built ∧ built 2 = some (.ok compiled) ∧
    ∀ validators, (bothAdded.walk validators).validate false compiled agreed "Agreement" =
      .ok [] := by
  have types := agreement_closure.2
  have messages : ∀ types, closure (bothAdded.builder types).pool 2
      (fun _ => none : ValidatorCache ⟨String, Unit⟩) = [2] := fun _ => agreement_closure.2
  simp only [Validator.build, resolve, Builder.buildClosure, types, messages]
  exact ⟨_, _, rfl, rfl, fun _ => rfl⟩

/-- What a call returns with the rules there are for the message. -/
theorem agreed_result {validator : Validator ⟨String, Unit⟩}
    {cache validators left : ValidatorCache ⟨String, Unit⟩}
    {compiled : MessageValidator ⟨String, Unit⟩} {result : Except (Error String) (List Violation)}
    (named : validator.pool.messageIndex "Agreement" = some 2)
    (got : validator.validators cache 2 = (.ok validators, left))
    (cached : validators 2 = some (.ok compiled))
    (walked : (validator.walk validators).validate false compiled agreed "Agreement" = result) :
    validator.run cache "Agreement" (fun _ => .ok agreed) false =
      (result.mapError .error, left) := by
  rw [Validator.run_returned named got, Validator.runWith, cached]
  simp only [walked]

/-- A validator with both files validates the message, again with the rules it
has built. -/
theorem bothAdded_run : ∃ built,
    bothAdded.run (fun _ => none) "Agreement" (fun _ => .ok agreed) false = (.ok [], built) ∧
    bothAdded.run built "Agreement" (fun _ => .ok agreed) false = (.ok [], built) := by
  obtain ⟨built, compiled, made, found, walked⟩ := agreement_late
  have cached : Table.extend (fun _ => none) built 2 = some (.ok compiled) := by
    simp [Table.extend, found]
  refine ⟨_, agreed_result agreement_index.2 (Validator.validators_missing rfl made)
    cached (walked _), ?_⟩
  exact agreed_result agreement_index.2 (Validator.validators_present (by simp [cached])) cached
    (walked _)

/-- The rules of the message are built before the extension is registered, and
stay unknown after it. -/
theorem late_extension_unknown :
    mustBeLinker.Appends ∧
    ((Session.fresh boolValidator).after mustBeLinker
      [addMessage, validateAgreed, addExtension]).result "Agreement" (fun _ => .ok agreed) false =
        .error (.error (.compilation "unknown rules in buf.validate.BoolRules")) ∧
    ((Session.fresh boolValidator).after mustBeLinker
      (registrations [addMessage, validateAgreed, addExtension])).result "Agreement"
        (fun _ => .ok agreed) false = .ok () := by
  refine ⟨mustBe_appends, ?_, ?_⟩
  · obtain ⟨built, compiled, made, found, walked⟩ := agreement_early
    have cached : Table.extend (fun _ => none) built 2 = some (.ok compiled) := by
      simp [Table.extend, found]
    have early : (messageAdded.validateMessage (fun _ => none) "Agreement" (fun _ => .ok agreed)
        false).2 = Table.extend (fun _ => none) built := by
      rw [Validator.validateMessage_run,
        agreed_result agreement_index.1 (Validator.validators_missing rfl made) cached (walked _ _)]
    have late := agreed_result agreement_index.2
      (Validator.validators_present (by simp [cached])) cached (walked _ _)
    change (bothAdded.validateMessage (messageAdded.validateMessage (fun _ => none) "Agreement"
      (fun _ => .ok agreed) false).2 "Agreement" (fun _ => .ok agreed) false).1 = _
    rw [early, Validator.validateMessage, late]
    rfl
  · change (bothAdded.validateMessage (fun _ => none) "Agreement" (fun _ => .ok agreed) false).1 = _
    obtain ⟨built, run, -⟩ := bothAdded_run
    rw [Validator.validateMessage, run]

/-- A second validation, with both files registered before the first. -/
theorem settled_result_registered :
    ((Session.fresh boolValidator).after mustBeLinker
      [addMessage, addExtension, validateAgreed]).result "Agreement" (fun _ => .ok agreed) false =
    ((Session.fresh boolValidator).after mustBeLinker
      (registrations [addMessage, addExtension, validateAgreed])).result "Agreement"
        (fun _ => .ok agreed) false := by
  obtain ⟨built, first, again⟩ := bothAdded_run
  refine Session.settled_result mustBe_appends boolValidator _ _ _ _ (fun root _ => ?_)
    (fun why => ?_) fun why => ?_
  · change Session.Settled _ _ ([addMessage, addExtension] ++ [validateAgreed]) root
    refine Session.settled_registered boolValidator ?_ ?_ root
    · simp [addMessage, addExtension, Operation.registers]
    · simp [validateAgreed, Operation.registers]
  · have left : (bothAdded.validateMessage (fun _ => none) "Agreement" (fun _ => .ok agreed)
        false).2 = built := by
      rw [Validator.validateMessage_run, first]
    change (bothAdded.validateMessage (bothAdded.validateMessage (fun _ => none) "Agreement"
      (fun _ => .ok agreed) false).2 "Agreement" (fun _ => .ok agreed) false).1 ≠ _
    rw [left, Validator.validateMessage, again]
    simp
  · change (bothAdded.validateMessage (fun _ => none) "Agreement" (fun _ => .ok agreed)
      false).1 ≠ _
    rw [Validator.validateMessage, first]
    simp

end Protovalidate
