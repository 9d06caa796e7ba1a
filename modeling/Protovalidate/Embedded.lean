import Mathlib.Data.List.Forall2
import Protovalidate.FailFast
import Protovalidate.RuleErrors
import Protovalidate.SharedCache

/-!
# How far a type that does not compile reaches

Errors are embedded one level up when a closure is built: a field whose values
are validated as a type that did not compile is an error itself. A walk that
follows only compiled fields therefore finds a validator wherever it looks for
one.
-/

namespace Protovalidate

open Recording BuildM

variable {R : Runtime}

/-- A field validates its value, the elements of its list or the values of its
map as a message type. -/
inductive FieldValidator.Nests (rules : FieldValidator R) (nested : MessageIndex) : Prop
  | value : rules.value.nested = some nested → Nests rules nested
  | element {items : ItemValidator R} :
    rules.kind = .list (some items) → items.value.nested = some nested → Nests rules nested
  | entry {element : FieldPathElement} {keys : Option (ItemValidator R)}
      {values : ItemValidator R} :
    rules.kind = .map element keys (some values) → values.value.nested = some nested →
    Nests rules nested

/-- A field that was built nests at most one type. -/
theorem Builder.FieldBuilt.nests {builder : Builder R} {message : MessageDescriptor}
    {field : FieldDescriptor} {rules : FieldRules} {built : FieldValidator R}
    (done : FieldBuilt builder message field rules built) {nested : MessageIndex}
    (nests : built.Nests nested) : Protovalidate.nestedType built = some nested := by
  obtain ⟨remaining, value⟩ := done.value
  have own : built.value.nested = (Target.field message field).nested := (builds_buildValue value).1
  have kind := done.kind
  cases nests with
  | value held => simp [Protovalidate.nestedType, held]
  | element held inner =>
    rw [held] at kind
    generalize same : field.kind = described at kind
    cases kind with
    | list items =>
      have none : built.value.nested = none := by simp [own, Target.field, Target.nested, same]
      simp [Protovalidate.nestedType, none, held, inner]
  | entry held inner =>
    rw [held] at kind
    generalize same : field.kind = described at kind
    cases kind with
    | map keys values =>
      have none : built.value.nested = none := by simp [own, Target.field, Target.nested, same]
      simp [Protovalidate.nestedType, none, held, inner]

namespace Validator
variable (self : Validator R)

/-- A walk with a snapshot of the cache. -/
def walk (validators : ValidatorCache R) : Walk R :=
  ⟨self.pool, self.descriptors.schema, self.env, self.backend, validators⟩

/-- A snapshot of the cache: part of the table the descriptors determine, with
everything its types hold. -/
structure Published (validator : Validator R) (validators : ValidatorCache R) : Prop where
  within : Table.Within validators validator.entry
  closed : Table.Closed validator.Holds validators

variable {self} {validators : ValidatorCache R}

/-- What a call returned, and the cache itself, are snapshots. -/
theorem reachable_published {Θ : Type} [DecidableEq Θ] {s : Shared R Θ}
    (reachable : self.Reachable s)
    (snapshot : validators = s.cache ∨ ∃ t index, s.calls t = .returned index validators) :
    self.Published validators := by
  have sound := reachable_sound reachable
  rcases snapshot with rfl | ⟨t, index, returned⟩
  · exact ⟨sound.determined, sound.closed⟩
  · obtain ⟨within, closed, -⟩ : self.SoundCall s.cache (.returned index validators) :=
      returned ▸ sound.calls t
    exact ⟨within.trans sound.determined, closed⟩

/-- A compiled entry, before the errors of the types it holds were embedded. -/
theorem entry_compiled {index : MessageIndex} {validator : MessageValidator R}
    (found : self.entry index = some (.ok validator)) :
    ∃ message, Builds ((self.builder self.resolved).buildMessage index) message ∧
      validator = (self.builder self.resolved).embed self.failure index message := by
  obtain ⟨message, made, same⟩ := entry_eq_some found
  cases message with
  | error e => cases same
  | ok message =>
    cases same
    exact ⟨message, made, rfl⟩

/-- A field that is compiled after embedding was compiled before, and what it
nests does not fail. -/
theorem embed_compiled {builder : Builder R} {failure : MessageIndex → Option String}
    {index : MessageIndex} {message : MessageValidator R} {field : FieldValidator R}
    (present : .ok field ∈ (builder.embed failure index message).fields) :
    .ok field ∈ message.fields ∧ ∀ nested, nestedType field = some nested →
      failure nested = none := by
  obtain ⟨before, member, same⟩ := List.mem_map.mp present
  cases before with
  | error e => cases same
  | ok compiled =>
    dsimp only at same
    split at same
    · cases same
    · rename_i sound
      cases same
      refine ⟨member, fun nested held => ?_⟩
      cases failed : failure nested with
      | none => rfl
      | some error => simp [Builder.embeddedError, held, failed] at sound

/-- What a compiled field nests is held by its message, and does not fail. -/
theorem entry_nests {index nested : MessageIndex} {validator : MessageValidator R}
    {field : FieldValidator R} (found : self.entry index = some (.ok validator))
    (present : .ok field ∈ validator.fields) (nests : field.Nests nested) :
    self.Holds index nested ∧ self.failure nested = none := by
  obtain ⟨message, made, rfl⟩ := entry_compiled found
  obtain ⟨member, sound⟩ := embed_compiled present
  obtain ⟨described, -, members, built⟩ := (Builder.builds_buildMessage made).compiled member
  have type : nestedType field = some nested := built.nests nests
  exact ⟨holds_of_nestedType rfl made member type, sound nested type⟩

/-- What a compiled field nests is a compiled type. -/
theorem nested_compiled (published : self.Published validators) {index nested : MessageIndex}
    {validator : MessageValidator R} {field : FieldValidator R}
    (found : validators index = some (.ok validator)) (present : .ok field ∈ validator.fields)
    (nests : field.Nests nested) : ∃ inner, validators nested = some (.ok inner) := by
  obtain ⟨holds, sound⟩ := entry_nests (published.within _ _ found) present nests
  obtain ⟨entry, cached⟩ := Option.isSome_iff_exists.mp
    (published.closed index nested (by rw [found]; rfl) holds)
  have failure := failure_of_entry (published.within _ _ cached)
  rw [sound] at failure
  cases entry with
  | error e => cases failure
  | ok inner => exact ⟨inner, cached⟩

end Validator

/-- What a walk looks up at a place is there, and compiled. -/
def Loaded (walk : Walk R) : Visit R → Prop
  | .message validator _ _ => ∃ index, walk.validators index = some (.ok validator)
  | .value validator _ _ => ∀ nested, validator.nested = some nested →
    ∃ inner, walk.validators nested = some (.ok inner)
  | .missing _ => True
  | .key _ _ _ => True

theorem AtField.mem {walk : Walk R} {validator : MessageValidator R} {frame : CelFrame R}
    {m : Message R} {path : List FieldPathElement} {rules : FieldValidator R}
    {value : Option (Val R)} {set : Bool}
    (reached : AtField walk Ended validator frame m path rules value set) :
    .ok rules ∈ validator.fields := by
  obtain ⟨before, after, fields, -⟩ := reached.reached
  rw [fields]
  exact List.mem_append_right _ List.mem_cons_self

theorem AtContents.mem {walk : Walk R} {validator : MessageValidator R} {frame : CelFrame R}
    {m : Message R} {path : List FieldPathElement} {rules : FieldValidator R} {v : Val R}
    (reached : AtContents walk Ended validator frame m path rules v) :
    .ok rules ∈ validator.fields := by
  obtain ⟨set, field, -⟩ := reached.field
  exact field.mem

section Loaded
variable {walk : Walk R}

/-- A lookup of what is loaded finds its validator. -/
theorem nestedMessage_loaded {validator : ValueValidator R} {bind : CelBind R}
    {v : Option (Val R)} (loaded : Loaded walk (.value validator bind v)) (sub : Message R) :
    ∃ found, validator.nestedMessage walk sub = .ok found := by
  unfold ValueValidator.nestedMessage
  cases nested : validator.nested with
  | none => exact ⟨none, rfl⟩
  | some index =>
    obtain ⟨inner, found⟩ := loaded index nested
    simp only [Walk.validator, found]
    exact ⟨_, rfl⟩

variable (nested : ∀ index validator field type, walk.validators index = some (.ok validator) →
  .ok field ∈ validator.fields → field.Nests type →
  ∃ inner, walk.validators type = some (.ok inner))
include nested

/-- A walk that is at what is loaded next enters what is loaded. -/
theorem enters_loaded {at_ next : Place R} (loaded : Loaded walk at_.visit)
    (enters : Enters walk Ended at_ next) : Loaded walk next.visit := by
  cases enters with
  | missing reached required => trivial
  | field reached runs =>
    obtain ⟨index, found⟩ := loaded
    intro type held
    exact nested index _ _ type found reached.mem (.value held)
  | element reached held listed counted inside earlier got kept =>
    obtain ⟨index, found⟩ := loaded
    intro type inner
    exact nested index _ _ type found reached.mem (.element held inner)
  | key reached held mapped visited earlier kept => trivial
  | entry reached held mapped visited earlier key kept =>
    obtain ⟨index, found⟩ := loaded
    intro type inner
    exact nested index _ _ type found reached.mem (.entry held inner)
  | @nested validator bind sub inner child path looked own =>
    obtain ⟨-, same⟩ | ⟨type, _, -, present, same⟩ := nestedMessage_ok looked
    · cases same
    · cases same
      exact ⟨type, present⟩

theorem reaches_loaded {at_ reached : Place R} (loaded : Loaded walk at_.visit)
    (reaches : Reaches walk at_ reached) : Loaded walk reached.visit := by
  induction reaches with
  | refl => exact loaded
  | tail _ enters ih => exact enters_loaded nested ih enters

end Loaded

section Errors
variable (walk : Walk R) (validator : MessageValidator R) (m : Message R) (typeName : String)

/-- Where a walk of a message starts. -/
def root : Place R := ⟨[], .message validator ⟨typeName, m⟩ m⟩

variable {walk validator m typeName}

/-- An error of a walk is the specification's. -/
theorem report_error {failFast : Bool} {e : Error R.Error}
    (failed : walk.validate failFast validator m typeName = .error e) :
    ((root validator m typeName).all walk).result = .error e := by
  have full : walk.validate false validator m typeName = .error e := by
    cases failFast with
    | false => exact failed
    | true =>
      cases found : walk.recorded false validator m typeName with
      | nil => rw [← fail_fast_of_none walk _ _ _ found, failed]
      | cons first rest =>
        rw [fail_fast_of_some walk _ _ _ found] at failed
        cases failed
  simp only [Walk.validate, validate_from_root, observed, Emit.cut_false] at full
  cases ended : (Spec.report walk validator m typeName []).result with
  | ok u => simp [ended, Except.mapError] at full
  | error e' =>
    simp only [ended, Except.mapError, Except.error.injEq] at full
    subst full
    exact ended

/-- What ends the specification ends a walk that has not stopped before. -/
theorem walk_error {failFast : Bool} {e : Error R.Error}
    (unstopped : failFast = false ∨ walk.recorded false validator m typeName = [])
    (ended : ((root validator m typeName).all walk).result = .error e) :
    walk.validate failFast validator m typeName = .error e := by
  have full : walk.validate false validator m typeName = .error e := by
    have report : (Spec.report walk validator m typeName []).result = .error e := ended
    simp only [Walk.validate, validate_from_root, observed, Emit.cut_false, report,
      Except.mapError]
  cases failFast with
  | false => exact full
  | true =>
    rw [fail_fast_of_none walk _ _ _ (unstopped.resolve_left Bool.noConfusion)]
    exact full

/-- Where the rules of a field that does not compile are reached. -/
structure AtError (walk : Walk R) (start : Place R) (message : String) : Prop where
  reached : ∃ path inner frame sub before after,
    Reaches walk start ⟨path, .message inner frame sub⟩ ∧
    inner.fields = before ++ .error message :: after ∧
    (Spec.message walk { inner with fields := before } frame sub ⟨path, false⟩).result = .ok ()

/-- The error of a field is the walk's when the field is reached, whatever the
message holds in it. -/
theorem atError_result {start : Place R} {message : String} (at_ : AtError walk start message) :
    (start.all walk).result = .error (.compilation message) := by
  obtain ⟨path, inner, frame, sub, before, after, reaches, fields, done⟩ := at_.reached
  refine reaches.partOf.failed _ ?_
  unfold Place.all Visit.all
  dsimp only
  rw [Spec.message_eq] at done ⊢
  obtain ⟨_, own, earlier⟩ := (Emit.bind_result_ok _ _).mp done
  rw [fields]
  have entry : Emit.PartOf (Spec.fieldEntry walk frame sub (.error message) ⟨path, false⟩)
      ((before ++ .error message :: after).forM fun rules =>
        Spec.fieldEntry walk frame sub rules ⟨path, false⟩) := Emit.PartOf.forM earlier
  exact (Emit.PartOf.after own _).failed _ (entry.failed _ rfl)

/-- A walk that starts at what is loaded ends in a read that fails, in a rule
that fails where it gets to, or in the error of a field it gets to. -/
theorem loaded_error {start : Place R} {e : Error R.Error}
    (loaded : ∀ reached, Reaches walk start reached → Loaded walk reached.visit)
    (ended : EndedFrom walk start e) :
    (∃ r, e = .read r) ∨
    (∃ reached, Reaches walk start reached ∧ (reached.rules walk).result = .error e ∧
      e.Compiled) ∨
    ∃ message, AtError walk start message ∧ e = .compilation message := by
  rcases ended with read | ⟨reached, reaches, raised⟩
  · exact .inl read
  · cases raised with
    | rules failed => exact .inr (.inl ⟨reached, reaches, failed, rules_compiled failed⟩)
    | field fields earlier =>
      exact .inr (.inr ⟨_, ⟨_, _, _, _, _, _, reaches, fields, earlier⟩, rfl⟩)
    | nested failed =>
      obtain ⟨found, looked⟩ := nestedMessage_loaded (loaded _ reaches) _
      rw [looked] at failed
      cases failed

end Errors

namespace Validator
variable {self : Validator R} {validators : ValidatorCache R}

open Builder (alwaysIgnored heldType)

/-- What becomes of a field of a compiled type. `ignore` says whether its rules
always ignore it, and an error is its own or that of the type it holds. -/
structure FieldOutcome (validator : Validator R) (validators : ValidatorCache R)
    (index : MessageIndex) (field : FieldDescriptor)
    (entry : Option (Except String (FieldValidator R))) : Prop where
  ignored : alwaysIgnored field.fieldRules = true → entry = none
  embedded : ∀ nested error, alwaysIgnored field.fieldRules = false →
    heldType field.kind (field.fieldRules.bind (·.type)) = some nested →
    validators nested = some (.error error) → ∃ message, entry = some (.error message)
  failed : ∀ message, entry = some (.error message) →
    (∃ members, Fails ((validator.builder validator.resolved).buildField
      (validator.pool.message index) field (fieldRules members field)) message) ∨
    ∃ nested error, alwaysIgnored field.fieldRules = false ∧
      heldType field.kind (field.fieldRules.bind (·.type)) = some nested ∧
      validators nested = some (.error error) ∧
      message = "failed to compile embedded type " ++ (validator.pool.message nested).fullName ++
        " for " ++ (validator.pool.message index).fullName ++ "." ++ field.name ++ ": " ++ error

theorem fieldRules_ignored (members : List String) (field : FieldDescriptor) :
    (fieldRules members field).ignore = some .always ↔ alwaysIgnored field.fieldRules = true := by
  unfold fieldRules
  dsimp only
  split
  · rename_i unset
    simp only [Bool.and_eq_true, Option.isNone_iff_eq_none] at unset
    cases rules : field.fieldRules <;> simp_all [alwaysIgnored]
  · cases rules : field.fieldRules <;> simp [alwaysIgnored]

theorem fieldRules_type (members : List String) (field : FieldDescriptor) :
    (fieldRules members field).type = field.fieldRules.bind (·.type) := by
  unfold fieldRules
  dsimp only
  split <;> cases field.fieldRules <;> rfl

/-- A type of a snapshot is an error when its own rules do not compile. -/
theorem failure_published (published : self.Published validators) {index : MessageIndex}
    (present : (validators index).isSome) {error : String} :
    self.failure index = some error ↔ validators index = some (.error error) := by
  obtain ⟨entry, cached⟩ := Option.isSome_iff_exists.mp present
  rw [failure_of_entry (published.within _ _ cached), cached]
  cases entry <;> simp

/-- A type's own rules do not compile when its message level does not. -/
theorem failure_fails {index : MessageIndex} {error : String} :
    self.failure index = some error ↔
      Fails ((self.builder self.resolved).messageLevel (self.pool.message index)) error := by
  refine Iff.trans ?_ Builder.fails_buildMessage
  unfold Validator.failure Fails
  rcases ((self.builder self.resolved).buildMessage index).run with
    panic | (failed | message) <;> simp

/-- A field of a message, once what its types fail with is embedded. -/
def embedEntry (validator : Validator R) (index : MessageIndex) :
    Except String (FieldValidator R) → Except String (FieldValidator R)
  | .error error => .error error
  | .ok compiled =>
    match (validator.builder validator.resolved).embeddedError validator.failure index compiled with
    | some error => .error error
    | none => .ok compiled

/-- A field that is built is made an error by its type alone. -/
theorem embedEntry_ok {index : MessageIndex} {compiled : FieldValidator R} {message : String} :
    self.embedEntry index (.ok compiled) = .error message ↔
      ∃ nested error, nestedType compiled = some nested ∧ self.failure nested = some error ∧
        message = "failed to compile embedded type " ++ (self.pool.message nested).fullName ++
          " for " ++ (self.pool.message index).fullName ++ "." ++ compiled.field.name ++ ": " ++
          error := by
  have embeds : self.embedEntry index (.ok compiled) = .error message ↔
      (self.builder self.resolved).embeddedError self.failure index compiled = some message := by
    rw [embedEntry]
    cases (self.builder self.resolved).embeddedError self.failure index compiled <;> simp
  rw [embeds]
  simp only [Builder.embeddedError, Option.bind_eq_bind, Option.bind_eq_some_iff,
    Option.pure_def, Option.some.injEq]
  constructor
  · rintro ⟨nested, held, error, failed, rfl⟩
    exact ⟨nested, error, held, failed, rfl⟩
  · rintro ⟨nested, error, held, failed, rfl⟩
    exact ⟨nested, held, error, failed, rfl⟩

/-- What embedding makes of the entry of a field. -/
theorem embedded_outcome (published : self.Published validators) {index : MessageIndex}
    {members : List String} {field : FieldDescriptor}
    {entry : Option (Except String (FieldValidator R))}
    (present : (validators index).isSome) (member : field ∈ (self.pool.message index).fields)
    (built : Builder.EntryBuilt (self.builder self.resolved) (self.pool.message index) members
      field entry) :
    self.FieldOutcome validators index field (entry.map (self.embedEntry index)) := by
  have cached : ∀ nested, heldType field.kind (field.fieldRules.bind (·.type)) = some nested →
      (validators nested).isSome := by
    intro nested held
    exact published.closed index nested present
      (List.mem_filterMap.mpr ⟨field, member, Builder.heldType_messageType held⟩)
  cases built with
  | unruled noRules noType =>
    refine ⟨fun _ => rfl, fun nested error _ held => ?_, nofun⟩
    rw [Builder.heldType_messageType held] at noType
    cases noType
  | ignored made =>
    have ignored := (fieldRules_ignored members field).mp (Builder.buildField_ignored.mp made)
    refine ⟨fun _ => rfl, fun nested error kept => ?_, nofun⟩
    rw [ignored] at kept
    cases kept
  | @built compiled made =>
    have kept : alwaysIgnored field.fieldRules = false := by
      rw [← Bool.not_eq_true]
      exact fun ignored => made.validated ((fieldRules_ignored members field).mpr ignored)
    have type : nestedType compiled = heldType field.kind (field.fieldRules.bind (·.type)) := by
      rw [made.nestedType, fieldRules_type]
    refine ⟨fun ignored => ?_, fun nested error _ held failed => ?_, fun message failed => .inr ?_⟩
    · rw [kept] at ignored
      cases ignored
    · have failure : self.failure nested = some error :=
        (failure_published published (cached nested held)).mpr failed
      exact ⟨_, congrArg some
        (embedEntry_ok.mpr ⟨nested, error, type.trans held, failure, rfl⟩)⟩
    · obtain ⟨_, described, -⟩ := Builder.builds_field made.described
      have name : compiled.field.name = field.name := by rw [described]; rfl
      obtain ⟨nested, error, nests, failure, rfl⟩ := embedEntry_ok.mp (Option.some.inj failed)
      have held := type.symm.trans nests
      rw [name]
      exact ⟨nested, error, kept, held,
        (failure_published published (cached nested held)).mp failure, rfl⟩
  | failed error made =>
    refine ⟨fun ignored => ?_, fun _ _ _ _ _ => ⟨error, rfl⟩, fun message same => ?_⟩
    · have none : Builds ((self.builder self.resolved).buildField (self.pool.message index) field
          (fieldRules members field)) none :=
        Builder.buildField_ignored.mpr ((fieldRules_ignored members field).mpr ignored)
      cases made.symm.trans none
    · cases same
      exact .inl ⟨members, made⟩

/-- The fields of a compiled type, one for each field of the message that has
rules or holds messages. -/
theorem compiled_outcomes (published : self.Published validators) {index : MessageIndex}
    {validator : MessageValidator R} (found : validators index = some (.ok validator)) :
    ∃ entries, List.Forall₂ (self.FieldOutcome validators index)
      (self.pool.message index).fields entries ∧ validator.fields = entries.reduceOption := by
  obtain ⟨message, made, rfl⟩ := entry_compiled (published.within _ _ found)
  obtain ⟨level, -, -, entries, built, fields⟩ := (Builder.builds_buildMessage made).messageOneofs
  refine ⟨entries.map (Option.map (self.embedEntry index)), ?_, ?_⟩
  · rw [List.forall₂_map_right_iff]
    have each := (List.forall₂_and_left _ _).mpr ⟨fun _ member => member, built⟩
    exact each.imp fun field entry made =>
      embedded_outcome published (by rw [found]; rfl) made.1 made.2
  · rw [List.reduceOption_map, ← fields]
    exact List.map_congr_left fun field _ => by cases field <;> rfl

/-- In a snapshot of any reachable cache, what a compiled field nests is
compiled, so that no walk fails to find a validator. A type whose own rules do
not compile makes errors of the fields that hold it, unless they or their items
are always ignored; a walk that gets to such a field ends in its error. A type
with errors only in its fields is compiled. -/
theorem compile_errors_embedded {Θ : Type} [DecidableEq Θ] (self : Validator R)
    {s : Shared R Θ} (reachable : self.Reachable s) {validators : ValidatorCache R}
    (snapshot : validators = s.cache ∨ ∃ t index, s.calls t = .returned index validators) :
    (∀ index validator field nested, validators index = some (.ok validator) →
      .ok field ∈ validator.fields → field.Nests nested →
      ∃ inner, validators nested = some (.ok inner)) ∧
    (∀ index validator m typeName, validators index = some (.ok validator) →
      (∀ reached, Reaches (self.walk validators) (root validator m typeName) reached →
        ∀ value bind sub, reached.visit = .value value bind (some (.message sub)) →
        ∃ found, value.nestedMessage (self.walk validators) sub = .ok found) ∧
      (∀ failFast e, (self.walk validators).validate failFast validator m typeName = .error e →
        (∃ r, e = .read r) ∨
        (∃ reached, Reaches (self.walk validators) (root validator m typeName) reached ∧
          (reached.rules (self.walk validators)).result = .error e ∧ e.Compiled) ∨
        ∃ message, AtError (self.walk validators) (root validator m typeName) message ∧
          e = .compilation message) ∧
      ∀ message, AtError (self.walk validators) (root validator m typeName) message →
        ∀ failFast, failFast = false ∨
          (self.walk validators).recorded false validator m typeName = [] →
        (self.walk validators).validate failFast validator m typeName =
          .error (.compilation message)) ∧
    (∀ index entry, validators index = some entry → ((∃ error, entry = .error error) ↔
      ∃ error, Fails ((self.builder self.resolved).messageLevel (self.pool.message index)) error)) ∧
    ∀ index validator, validators index = some (.ok validator) →
      ∃ entries, List.Forall₂ (self.FieldOutcome validators index)
        (self.pool.message index).fields entries ∧ validator.fields = entries.reduceOption := by
  have published := reachable_published reachable snapshot
  have nested : ∀ index validator field type, validators index = some (.ok validator) →
      .ok field ∈ validator.fields → field.Nests type →
      ∃ inner, validators type = some (.ok inner) :=
    fun index validator field type found present => nested_compiled published found present
  refine ⟨nested, fun index validator m typeName found => ?_, fun index entry cached => ?_,
    fun index validator found => compiled_outcomes published found⟩
  · have loaded : ∀ reached, Reaches (self.walk validators) (root validator m typeName) reached →
        Loaded (self.walk validators) reached.visit :=
      fun reached => reaches_loaded nested ⟨index, found⟩
    refine ⟨?_, fun failFast e failed => ?_, fun message at_ failFast unstopped => ?_⟩
    · intro reached reaches value bind sub visit
      have at_ := loaded reached reaches
      rw [visit] at at_
      exact nestedMessage_loaded at_ sub
    · have accounted : Accounted (self.walk validators) (root validator m typeName)
          (Spec.report (self.walk validators) validator m typeName []) :=
        message_accounted validator ⟨typeName, m⟩ m []
      exact loaded_error loaded (accounted.failed e (report_error failed))
    · exact walk_error unstopped (atError_result at_)
  · have failure : ∀ error, self.failure index = some error ↔ some entry = some (.error error) :=
      fun error => cached ▸ failure_published published (by rw [cached]; rfl)
    constructor
    · rintro ⟨error, rfl⟩
      exact ⟨error, failure_fails.mp ((failure error).mpr rfl)⟩
    · rintro ⟨error, failed⟩
      exact ⟨error, Option.some.inj ((failure error).mp (failure_fails.mpr failed))⟩

end Validator

def plainField (number : Nat) (name : String) (kind : DescriptorKind) (rules : Option FieldRules)
    (allowed : number ≤ maxFieldNumber) : FieldDescriptor where
  number := number
  name := name
  kind := kind
  presence := .explicit
  isDelimited := false
  fieldRules := rules
  predefinedRules := none
  numberAllowed := allowed
  messagePresence := explicit_tracked kind

section PlainField
variable (number : Nat) (name : String) (kind : DescriptorKind) (rules : Option FieldRules)
  (allowed : number ≤ maxFieldNumber)

@[simp] theorem plainField_number : (plainField number name kind rules allowed).number = number :=
  rfl

@[simp] theorem plainField_name : (plainField number name kind rules allowed).name = name := rfl

@[simp] theorem plainField_kind : (plainField number name kind rules allowed).kind = kind := rfl

end PlainField

/-- The schema of the rules of `bool`. -/
def boolRulesMessage : MessageDescriptor where
  fullName := "buf.validate.BoolRules"
  fields := [plainField 1 "const" (.singular (.scalar .bool)) none one_allowed]
  oneofs := []
  messageRules := none
  numbersDistinct := List.nodup_singleton _
  namesDistinct := List.nodup_singleton _

/-- A message whose own rules do not compile, a repeated field of it whose items
are always ignored, and the schema of the rules. -/
def ignoringPool : DescriptorPool where
  messages := [
    { fullName := "Holder"
      fields := [plainField 1 "items" (.list (.message 1))
        (some ⟨[], [], none, none, some (.repeated ⟨none, none, none,
          some ⟨[], [], none, some .always, none⟩, []⟩)⟩) one_allowed]
      oneofs := []
      messageRules := none
      numbersDistinct := by simp
      namesDistinct := by simp },
    { fullName := "Broken"
      fields := []
      oneofs := []
      messageRules := some ⟨[], [], [⟨[], none⟩]⟩
      numbersDistinct := List.nodup_nil
      namesDistinct := List.nodup_nil },
    { fullName := FIELD_RULES
      fields := [plainField 18 "repeated" (.singular (.message 3)) none (by decide)]
      oneofs := []
      messageRules := none
      numbersDistinct := by simp
      namesDistinct := by simp },
    { fullName := "buf.validate.RepeatedRules"
      fields := []
      oneofs := []
      messageRules := none
      numbersDistinct := List.nodup_nil
      namesDistinct := List.nodup_nil }]
  enums := []
  extensions := []
  linked := by simp [messageType]

def ignoringValidator : Validator ⟨Empty, Unit⟩ where
  descriptors := ⟨ignoringPool, ⟨2, {}, {}, {}, {}, {}, {}, {}, {}⟩⟩
  env := ⟨fun _ _ => .ok ⟨fun _ _ => .ok (.bool true)⟩, fun name bytes => .ok ⟨name, bytes⟩⟩
  backend := Backend.bare
  reflection := ⟨fun _ _ => false, fun _ _ => [], fun _ => []⟩
  resolve _ := .ok ()

/-- A message with one item, which has no fields. -/
def oneItem : Message ⟨Empty, Unit⟩ where
  has _ := .ok true
  get _ := .ok (some (.list ⟨.ok 1, fun _ => .ok (some (.message
    ⟨fun _ => .ok false, fun _ => .ok none, .ok []⟩))⟩))
  encode := .ok []

theorem ignoring_closure :
    closure ignoringPool 0 (fun _ => none : ValidatorCache ⟨Empty, Unit⟩) = [1, 0] := by
  simp [closure, FiniteGraph.search, typeGraph, referenced, DescriptorPool.message, ignoringPool,
    messageType, plainField]

/-- A call for the holder builds both types, and a walk of one item. -/
theorem ignoring_build : ∃ built field,
    ignoringValidator.build 0 (fun _ => none) = .ok built ∧
    built 0 = some (.ok ⟨(), none, [], [], [.ok field]⟩) ∧
    built 1 = some (.error
      "at least one field must be specified in oneof rule for the message Broken") ∧
    (ignoringValidator.walk built).validate false ⟨(), none, [], [], [.ok field]⟩ oneItem
      "Holder" = .ok [] := by
  have types : closure ignoringValidator.pool 0 (fun _ => none : ValidatorCache ⟨Empty, Unit⟩) =
      [1, 0] := ignoring_closure
  have messages : ∀ types, closure (ignoringValidator.builder types).pool 0
      (fun _ => none : ValidatorCache ⟨Empty, Unit⟩) = [1, 0] := fun _ => ignoring_closure
  simp only [Validator.build, resolve, Builder.buildClosure, types, messages]
  exact ⟨_, _, rfl, rfl, rfl, rfl⟩

/-- A field that is not ignored itself, but whose items are, is compiled
although the type of its items is not. -/
theorem ignored_items_compile : ∃ s validators field,
    ignoringValidator.Reachable (s : Shared ⟨Empty, Unit⟩ Unit) ∧
    s.calls () = .returned 0 validators ∧
    (ignoringValidator.pool.message 0).fields.map
      (fun field => (messageType field, Builder.alwaysIgnored field.fieldRules)) =
        [(some 1, false)] ∧
    validators 1 = some (.error
      "at least one field must be specified in oneof rule for the message Broken") ∧
    validators 0 = some (.ok ⟨(), none, [], [], [.ok field]⟩) ∧
    (ignoringValidator.walk validators).validate false ⟨(), none, [], [], [.ok field]⟩ oneItem
      "Holder" = .ok [] := by
  obtain ⟨built, field, made, holder, broken, walked⟩ := ignoring_build
  exact ⟨ignoringValidator.alone 0 3, built, field, ignoringValidator.alone_reachable 0 3,
    (ignoringValidator.alone_returned made).2, rfl, broken, holder, walked⟩

/-- The holder's validators, from the cache of its call. -/
theorem compile_errors_embedded_ignoring :
    ∃ validators, (ignoringValidator.alone 0 3).cache = validators ∧
      (∃ error, Fails ((ignoringValidator.builder ignoringValidator.resolved).messageLevel
        (ignoringValidator.pool.message 1)) error) ∧
      ∃ validator entries, validators 0 = some (.ok validator) ∧
        List.Forall₂ (ignoringValidator.FieldOutcome validators 0)
          (ignoringValidator.pool.message 0).fields entries ∧
        validator.fields = entries.reduceOption := by
  obtain ⟨built, field, made, holder, broken, -⟩ := ignoring_build
  have cached := (ignoringValidator.alone_returned made).1
  obtain ⟨-, -, own, outcomes⟩ := ignoringValidator.compile_errors_embedded
    (ignoringValidator.alone_reachable 0 3) (.inl cached.symm)
  obtain ⟨entries, each, fields⟩ := outcomes 0 _ holder
  exact ⟨built, cached, (own 1 _ broken).mp ⟨_, rfl⟩, _, entries, holder, each, fields⟩

end Protovalidate
