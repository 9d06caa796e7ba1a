import Protovalidate.BuildSpec
import Protovalidate.Lib.Memo
import Protovalidate.Validator

/-!
# What an entry of the cache depends on

The builder asks for the types it was given and does not go on without one, so
that what it builds is the same with more types at hand. An entry is therefore
the one built with all of them, whichever call built it.
-/

namespace Protovalidate

open BuildM

/-- A step that does what another one does, unless it panics. -/
def Refines {α : Type} (x y : BuildM α) : Prop := ∀ r, x.run = .ok r → y.run = .ok r

section Refinement
variable {α β : Type} {x y : BuildM α}

theorem Refines.refl (x : BuildM α) : Refines x x := fun _ done => done

theorem Refines.bind {f g : α → BuildM β} (first : Refines x y)
    (rest : ∀ a, Refines (f a) (g a)) : Refines (x >>= f) (y >>= g) := by
  intro r done
  rw [ExceptT.run_bind] at done ⊢
  cases made : x.run with
  | error panic => simp [made, Bind.bind, Except.bind] at done
  | ok result =>
    rw [first result made]
    rw [made] at done
    cases result with
    | error e => exact done
    | ok a => exact rest a r done

theorem Refines.mapErr (f : String → String) (first : Refines x y) :
    Refines (x.mapErr f) (y.mapErr f) := by
  intro r done
  unfold BuildM.mapErr at done ⊢
  rw [ExceptT.run_mk] at done ⊢
  cases made : x.run with
  | error panic => simp [made, Except.map] at done
  | ok result => rwa [first result made, ← made]

theorem Refines.caught (first : Refines x y) : Refines x.caught y.caught := by
  intro r done
  unfold BuildM.caught at done ⊢
  rw [ExceptT.run_mk] at done ⊢
  cases made : x.run with
  | error panic => simp [made, Except.map] at done
  | ok result => rwa [first result made, ← made]

theorem Refines.mapM {f g : α → BuildM β} (each : ∀ a, Refines (f a) (g a)) (xs : List α) :
    Refines (xs.mapM f) (xs.mapM g) := by
  induction xs with
  | nil => exact Refines.refl _
  | cons x xs ih =>
    simp only [List.mapM_cons]
    exact (each x).bind fun _ => ih.bind fun _ => Refines.refl _

end Refinement

namespace Builder
variable {R : Runtime} (self : Builder R) {types : MessageIndex → Option R.MessageType}

/-- The builder with other types at hand. -/
abbrev withTypes (types : MessageIndex → Option R.MessageType) : Builder R :=
  { self with types := types }

variable (more : ∀ index type, self.types index = some type → types index = some type)
include more

theorem resolved_refines (index : MessageIndex) :
    Refines (self.resolved index) ((self.withTypes types).resolved index) := by
  intro r done
  cases found : self.types index with
  | none => simp [resolved, orPanic, found, ExceptT.run, ExceptT.mk] at done
  | some type =>
    simp only [resolved, orPanic, found, more index type found] at done ⊢
    exact done

theorem field_refines (field : FieldDescriptor) :
    Refines (self.field field) ((self.withTypes types).field field) := by
  unfold Builder.field
  cases messageType field with
  | none => exact Refines.refl _
  | some index => exact (self.resolved_refines more index).bind fun _ => Refines.refl _

theorem checkedThrough_refines (target : Target) (standard : RulesType) :
    Refines (self.checkedThrough target standard)
      ((self.withTypes types).checkedThrough target standard) := by
  have same : (self.withTypes types).message target = self.message target := rfl
  unfold checkedThrough
  rw [same]
  split
  · refine Refines.bind ?_ fun _ => Refines.refl _
    cases (self.message target).bind (·.field 1) with
    | none => exact Refines.refl _
    | some value => exact (self.field_refines more value).bind fun _ => Refines.refl _
  · split
    · split
      · dsimp only
        split
        · exact (self.field_refines more _).bind fun _ => Refines.refl _
        · exact Refines.refl _
      · exact Refines.refl _
    · exact Refines.refl _

theorem standardRules_refines (target : Target) (standard : RulesType)
    (rulePrefix : List FieldPathElement) :
    Refines (self.standardRules target standard rulePrefix)
      ((self.withTypes types).standardRules target standard rulePrefix) :=
  (Refines.refl _).bind fun _ =>
    (self.checkedThrough_refines more target standard).bind fun _ => Refines.refl _

theorem buildValue_refines (target : Target) (rules : FieldRules)
    (rulePrefix : List FieldPathElement) :
    Refines (self.buildValue target rules rulePrefix)
      ((self.withTypes types).buildValue target rules rulePrefix) := by
  refine (Refines.refl _).bind fun _ => ?_
  cases rules.type with
  | none => exact Refines.refl _
  | some standard =>
    exact (self.standardRules_refines more target standard rulePrefix).bind fun _ =>
      Refines.refl _

theorem buildItem_refines (target : Target) (rules : Option FieldRules)
    (rulePrefix : List FieldPathElement) :
    Refines (self.buildItem target rules rulePrefix)
      ((self.withTypes types).buildItem target rules rulePrefix) := by
  unfold buildItem
  split
  · exact Refines.refl _
  · split
    · exact Refines.refl _
    · exact (self.buildValue_refines more target _ rulePrefix).bind fun _ => Refines.refl _

theorem buildKind_refines (field : FieldDescriptor) (target : Target)
    (remaining : Option RulesType) :
    Refines (self.buildKind field target remaining)
      ((self.withTypes types).buildKind field target remaining) := by
  unfold buildKind
  split
  · exact Refines.refl _
  · exact ((self.buildItem_refines more _ _ _).mapErr _).bind fun _ => Refines.refl _
  · exact ((self.buildItem_refines more _ _ _).mapErr _).bind fun _ =>
      ((self.buildItem_refines more _ _ _).mapErr _).bind fun _ => Refines.refl _

theorem buildField_refines (message : MessageDescriptor) (field : FieldDescriptor)
    (rules : FieldRules) :
    Refines (self.buildField message field rules)
      ((self.withTypes types).buildField message field rules) := by
  unfold buildField
  split
  · exact Refines.refl _
  · exact (self.buildValue_refines more _ _ _).bind fun _ =>
      (self.buildKind_refines more _ _ _).bind fun _ =>
        (self.field_refines more field).bind fun _ => Refines.refl _

theorem oneofFields_refines (message : MessageDescriptor) (seen names : List String) :
    Refines (self.oneofFields message seen names)
      ((self.withTypes types).oneofFields message seen names) := by
  induction names generalizing seen with
  | nil => exact Refines.refl _
  | cons name rest ih =>
    unfold oneofFields
    split
    · exact Refines.refl _
    · split
      · exact Refines.refl _
      · exact (self.field_refines more _).bind fun _ => (ih _).bind fun _ => Refines.refl _

theorem messageOneofs_refines (message : MessageDescriptor) (rules : List MessageOneofRule) :
    Refines (self.messageOneofs message rules)
      ((self.withTypes types).messageOneofs message rules) := by
  refine (Refines.mapM (fun oneof => ?_) rules).bind fun _ => Refines.refl _
  unfold messageOneof
  split
  · exact Refines.refl _
  · exact (self.oneofFields_refines more message [] oneof.fields).bind fun _ => Refines.refl _

theorem requiredOneofs_refines (message : MessageDescriptor) :
    Refines (self.requiredOneofs message) ((self.withTypes types).requiredOneofs message) :=
  Refines.mapM (fun _ => (Refines.mapM (self.field_refines more) _).bind fun _ => Refines.refl _) _

theorem fieldEntry_refines (message : MessageDescriptor) (members : List String)
    (field : FieldDescriptor) :
    Refines (self.fieldEntry message members field)
      ((self.withTypes types).fieldEntry message members field) := by
  unfold fieldEntry
  split
  · exact Refines.refl _
  · exact (self.buildField_refines more message field _).caught.bind fun _ => Refines.refl _

/-- With more types at hand, a message that was built is built the same. -/
theorem buildMessage_refines (index : MessageIndex) :
    Refines (self.buildMessage index) ((self.withTypes types).buildMessage index) :=
  (self.messageOneofs_refines more _ _).bind fun _ => (Refines.refl _).bind fun _ =>
    (Refines.mapM (self.fieldEntry_refines more _ _) _).bind fun _ =>
      (self.resolved_refines more index).bind fun _ =>
        (self.requiredOneofs_refines more _).bind fun _ => Refines.refl _

end Builder

theorem bind_eq_ok {α β ε : Type} {x : Except ε α} {f : α → Except ε β} {b : β} :
    (x >>= f) = .ok b ↔ ∃ a, x = .ok a ∧ f a = .ok b := by
  cases x <;> simp [bind, Except.bind]

theorem mapError_eq_ok {α ε ε' : Type} {x : Except ε α} {f : ε → ε'} {a : α} :
    x.mapError f = .ok a ↔ x = .ok a := by
  cases x <;> simp [Except.mapError]

namespace Validator
variable {R : Runtime} (self : Validator R)

/-- The type a reader resolves for each message type. -/
def resolved (index : MessageIndex) : Option R.MessageType :=
  (self.resolve (self.pool.message index).fullName).toOption

/-- Why a message type's own rules do not compile. -/
def failure (index : MessageIndex) : Option String :=
  match ((self.builder self.resolved).buildMessage index).run with
  | .ok (.error error) => some error
  | _ => none

/-- The entry of each message type, as the descriptors alone determine it. -/
def entry : ValidatorCache R := fun index =>
  match ((self.builder self.resolved).buildMessage index).run with
  | .ok message => some (message.map ((self.builder self.resolved).embed self.failure index))
  | .error _ => none

/-- What the reader resolves for a message type. -/
def typeOf (index : MessageIndex) : Except R.Error R.MessageType :=
  self.resolve (self.pool.message index).fullName

theorem resolved_typeOf (index : MessageIndex) :
    self.resolved index = (self.typeOf index).toOption := rfl

/-- The message types that a call resolves. -/
def referredTo (index : MessageIndex) (known : ValidatorCache R) : List MessageIndex :=
  (closure self.pool index known).flatMap fun next => next :: referenced self.pool next

/-- The validators of a cache are of the types that the reader resolves. -/
def CachedTypes (known : ValidatorCache R) : Prop :=
  ∀ index validator, known index = some (.ok validator) →
    self.typeOf index = .ok validator.messageType

variable {self}

theorem entry_eq_some {index : MessageIndex} {built : Built R}
    (found : self.entry index = some built) :
    ∃ message, ((self.builder self.resolved).buildMessage index).run = .ok message ∧
      built = message.map ((self.builder self.resolved).embed self.failure index) := by
  unfold entry at found
  split at found
  · rename_i message made
    exact ⟨message, made, (Option.some.inj found).symm⟩
  · cases found

/-- An entry is an error when the message's own rules do not compile. -/
theorem failure_of_entry {index : MessageIndex} {built : Built R}
    (found : self.entry index = some built) :
    self.failure index = match built with
      | .error error => some error
      | .ok _ => none := by
  obtain ⟨message, made, rfl⟩ := entry_eq_some found
  unfold failure
  rw [made]
  cases message <;> rfl

theorem entry_messageType {index : MessageIndex} {validator : MessageValidator R}
    (found : self.entry index = some (.ok validator)) :
    self.resolved index = some validator.messageType := by
  obtain ⟨message, made, same⟩ := entry_eq_some found
  cases message with
  | error e => cases same
  | ok message =>
    cases same
    exact (Builder.builds_buildMessage made).resolved

theorem resolve_typeOf {index : MessageIndex} {known : ValidatorCache R}
    (typed : self.CachedTypes known) :
    Protovalidate.resolve self.pool index known self.resolve =
      ((self.referredTo index known).foldlM (Memo.add self.typeOf) []).map
        fun types index => types.lookup index := by
  unfold Protovalidate.resolve
  refine (congrArg (fun step => List.foldlM step [] (self.referredTo index known) >>=
    fun types => pure fun index => types.lookup index)
    (show _ = Memo.add self.typeOf from ?_)).trans ?_
  · funext types next
    unfold Memo.add
    cases had : known next with
    | none => rfl
    | some entry =>
      cases entry with
      | error e => rfl
      | ok validator =>
        rw [typed next validator had]
  · cases (self.referredTo index known).foldlM (Memo.add self.typeOf) [] <;> rfl

/-- A call fails to resolve a type, or resolves the types that every call
does. -/
theorem resolve_cases {index : MessageIndex} {known : ValidatorCache R}
    (typed : self.CachedTypes known) :
    (∃ e, (self.referredTo index known).findSome? (Memo.error self.typeOf) = some e ∧
      Protovalidate.resolve self.pool index known self.resolve = .error e) ∨
    ∃ types, (self.referredTo index known).findSome? (Memo.error self.typeOf) = none ∧
      Protovalidate.resolve self.pool index known self.resolve = .ok types ∧
      ∀ index type, types index = some type → self.resolved index = some type := by
  rw [resolve_typeOf typed]
  rcases Memo.foldlM_add (f := self.typeOf) Memo.sound_nil (self.referredTo index known) with
    ⟨e, first, failed⟩ | ⟨found, passes, done, sound⟩
  · exact .inl ⟨e, first, by rw [failed]; rfl⟩
  · refine .inr ⟨_, passes, by rw [done]; rfl, fun next type looked => ?_⟩
    rw [resolved_typeOf, sound next type looked]
    rfl

theorem resolved_eq {index : MessageIndex} {type : R.MessageType}
    (found : self.resolved index = some type) : self.typeOf index = .ok type := by
  rw [resolved_typeOf] at found
  cases looked : self.typeOf index with
  | error e =>
    rw [looked] at found
    cases found
  | ok type' =>
    rw [looked] at found
    cases found
    rfl

/-- The validators of a table that the descriptors determine. -/
theorem typed_of_within {known : ValidatorCache R} (within : Table.Within known self.entry) :
    self.CachedTypes known :=
  fun index _ had => resolved_eq (entry_messageType (within index _ had))

/-- What a call resolves is what any reader resolves. -/
theorem resolve_resolved {index : MessageIndex} {known : ValidatorCache R}
    {types : MessageIndex → Option R.MessageType} (typed : self.CachedTypes known)
    (done : Protovalidate.resolve self.pool index known self.resolve = .ok types) :
    ∀ index type, types index = some type → self.resolved index = some type := by
  rcases resolve_cases typed with ⟨e, -, failed⟩ | ⟨types', -, resolved, same⟩
  · rw [done] at failed
    cases failed
  · rw [done] at resolved
    cases resolved
    exact same

/-- A type that a compiled field's values are validated as is held by the
field. -/
theorem holds_of_nestedType {builder : Builder R} (same : builder.descriptors = self.descriptors)
    {index nested : MessageIndex} {message : MessageValidator R}
    (made : Builds (builder.buildMessage index) message) {compiled : FieldValidator R}
    (present : .ok compiled ∈ message.fields) (nests : nestedType compiled = some nested) :
    self.Holds index nested := by
  obtain ⟨field, member, members, built⟩ := (Builder.builds_buildMessage made).compiled present
  rw [built.nestedType] at nests
  have pool : builder.pool = self.pool := congrArg Descriptors.pool same
  exact List.mem_filterMap.mpr ⟨field, pool ▸ member, Builder.heldType_messageType nests⟩

/-- The errors embedded in a message are those of the types its fields nest. -/
theorem embed_congr {builder other : Builder R} (same : builder.descriptors = other.descriptors)
    {f g : MessageIndex → Option String} {index : MessageIndex} {message : MessageValidator R}
    (agree : ∀ compiled, .ok compiled ∈ message.fields →
      ∀ nested, nestedType compiled = some nested → f nested = g nested) :
    builder.embed f index message = other.embed g index message := by
  unfold Builder.embed
  congr 1
  refine List.map_congr_left fun field present => ?_
  cases field with
  | error e => rfl
  | ok compiled =>
    have embedded : builder.embeddedError f index compiled =
        other.embeddedError g index compiled := by
      unfold Builder.embeddedError Builder.pool
      cases nests : nestedType compiled with
      | none => rfl
      | some nested =>
        simp only [Option.bind_eq_bind, Option.bind_some, agree compiled present nested nests, same]
    simp only [embedded]

theorem mem_closure {index nested : MessageIndex} {known : ValidatorCache R} :
    nested ∈ closure self.pool index known ↔
      (typeGraph self.pool).Reached (fun index => (known index).isSome) index nested :=
  FiniteGraph.mem_search

/-- What the types of a closure hold is in the closure or was known. -/
theorem closure_holds {index nested held : MessageIndex} {known : ValidatorCache R}
    (member : nested ∈ closure self.pool index known) (holds : self.Holds nested held) :
    held ∈ closure self.pool index known ∨ (known held).isSome := by
  cases had : (known held).isSome with
  | true => exact .inr rfl
  | false => exact .inl (mem_closure.mpr (.step (mem_closure.mp member) holds had))

/-- What a call makes of a message is what any call makes of it. -/
theorem buildMessage_resolved {types : MessageIndex → Option R.MessageType} {index : MessageIndex}
    {message : Except String (MessageValidator R)}
    (more : ∀ index type, types index = some type → self.resolved index = some type)
    (run : ((self.builder types).buildMessage index).run = .ok message) :
    ((self.builder self.resolved).buildMessage index).run = .ok message :=
  (self.builder types).buildMessage_refines more index message run

/-- Why a type of the closure, or one it holds, did not compile. -/
theorem failureIn_failure {types : MessageIndex → Option R.MessageType}
    {index nested : MessageIndex} {known built : ValidatorCache R}
    {messages : MessageIndex → Option (Except String (MessageValidator R))}
    (within : ∀ entry, known nested = some entry → self.entry nested = some entry)
    (more : ∀ index type, types index = some type → self.resolved index = some type)
    (made : ClosureBuilt (self.builder types) index known built messages)
    (looked : nested ∈ closure self.pool index known ∨ (known nested).isSome) :
    failureIn known messages nested = self.failure nested := by
  unfold failureIn
  cases had : known nested with
  | some entry =>
    rw [failure_of_entry (within entry had)]
    cases entry <;> rfl
  | none =>
    have member : nested ∈ closure self.pool index known :=
      looked.resolve_right (by simp [had])
    obtain ⟨message, found⟩ := Option.isSome_iff_exists.mp ((made.indices nested).mpr member)
    unfold failure
    rw [buildMessage_resolved more (made.made nested message found), found]
    cases message <;> rfl

/-- What a call builds for a type is what the descriptors determine, if the
snapshot has what they determine for the types that it holds. -/
theorem built_entry {types : MessageIndex → Option R.MessageType} {index nested : MessageIndex}
    {known built : ValidatorCache R}
    {messages : MessageIndex → Option (Except String (MessageValidator R))}
    (more : ∀ index type, types index = some type → self.resolved index = some type)
    (made : ClosureBuilt (self.builder types) index known built messages) {entry : Built R}
    (found : built nested = some entry) (within : ∀ held, self.Holds nested held →
      ∀ entry, known held = some entry → self.entry held = some entry) :
    self.entry nested = some entry := by
  rw [made.built, Option.map_eq_some_iff] at found
  obtain ⟨message, built, rfl⟩ := found
  have run := made.made nested message built
  have member := (made.indices nested).mp (by simp [built])
  unfold Validator.entry
  rw [buildMessage_resolved more run]
  cases message with
  | error e => rfl
  | ok validator =>
    have embedded : (self.builder self.resolved).embed self.failure nested validator =
        (self.builder types).embed (failureIn known messages) nested validator := by
      refine embed_congr rfl fun compiled present held nests => ?_
      have holds : self.Holds nested held := holds_of_nestedType rfl run present nests
      exact (failureIn_failure (within held holds) more made (closure_holds member holds)).symm
    simp only [Except.map, embedded]

/-- What a call builds completes the snapshot it was built against, and has the
root unless the snapshot does. -/
theorem build_determined {index : MessageIndex} {known built : ValidatorCache R}
    (within : Table.Within known self.entry) (done : self.build index known = .ok built) :
    Table.Within built self.entry ∧ Table.Completes self.Holds known built ∧
      (known index = none → (built index).isSome) := by
  unfold build at done
  rw [bind_eq_ok] at done
  obtain ⟨types, resolves, done⟩ := done
  have more := resolve_resolved (typed_of_within within) (mapError_eq_ok.mp resolves)
  obtain ⟨messages, made⟩ := buildClosure_built (mapError_eq_ok.mp done)
  have present : ∀ index', (built index').isSome ↔ index' ∈ closure self.pool index known := by
    intro index'
    rw [made.built, Option.isSome_map]
    exact made.indices index'
  refine ⟨fun k entry found => built_entry more made found fun held _ => within held,
    fun k k' found holds => ?_, fun missing => ?_⟩
  · rw [present] at found ⊢
    exact closure_holds found holds
  · rw [present, mem_closure]
    exact .root (by simp [missing])

end Validator

end Protovalidate
