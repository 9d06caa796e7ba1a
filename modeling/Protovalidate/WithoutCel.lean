import Protovalidate.Settled
import Protovalidate.Stub
import Protovalidate.Lib.Outcomes

/-!
# Validating without the `cel` feature

A walk without the feature reports what a walk with it does, or stops on the way at
a type whose rules need CEL. So does a whole session, where the engines of the two
builds agree on the patterns that the rules set.
-/

namespace Protovalidate

open Recording Builder

variable {R : Runtime}

/-- The error of a rule that the stub does not compile. -/
def WithoutCel {ε : Type} (e : Error ε) : Prop :=
  ∃ error, e = .compilation error ∧ NeedsCel error

namespace Walk

/-- The walk with the stub and its engine, and a snapshot of what was built with them. -/
def withStub (walk : Walk R) (other : Backend) (stubs : ValidatorCache R) : Walk R :=
  { walk with env := Cel.stub, backend := other, validators := stubs }

/-- A snapshot of what was built with the stub has some types as the walk's does,
which nest only types among them. -/
structure Stubbed (walk : Walk R) (other : Backend) (stubs : ValidatorCache R)
    (types : MessageIndex → Prop) : Prop where
  stands : ∀ index, types index → ∃ stub made, stubs index = some stub ∧
    walk.validators index = some made ∧ Stands (MessageStands walk.backend other) stub made
  nested : ∀ index, types index → ∀ compiled, walk.validators index = some (.ok compiled) →
    ∀ rules, .ok rules ∈ compiled.fields → ∀ nested, rules.Nests nested → types nested

end Walk

namespace Spec
variable {walk : Walk R} {other : Backend} {stubs : ValidatorCache R}
  {types : MessageIndex → Prop}

/-- What is reported without the feature, against what is with it. -/
def ReportsUpTo {ε α : Type} (x y : SpecM ε α) : Prop := ∀ at_, Emit.UpTo WithoutCel (x at_) (y at_)

theorem reportsUpTo_refl {ε α : Type} (x : SpecM ε α) : ReportsUpTo x x := fun _ => .refl _

theorem ReportsUpTo.bind {ε α β : Type} {x y : SpecM ε α} {f g : α → SpecM ε β}
    (first : ReportsUpTo x y) (rest : ∀ a, ReportsUpTo (f a) (g a)) :
    ReportsUpTo (x >>= f) (y >>= g) :=
  fun at_ => (first at_).bind fun a => rest a at_

/-- Nothing comes after an error. -/
theorem reportsUpTo_error (e : Error R.Error) {α β : Type} (f g : α → SpecM R.Error β) :
    ReportsUpTo (orAbort (.error e) >>= f) (orAbort (.error e) >>= g) := fun _ => .refl _

theorem ReportsUpTo.within {ε α : Type} {x y : SpecM ε α} (inside : ReportsUpTo x y)
    (element : FieldPathElement) :
    ReportsUpTo (Recorder.within element x) (Recorder.within element y) :=
  fun _ => inside _

theorem forM_apply {ε ι : Type} (items : List ι) (f : ι → SpecM ε PUnit) (at_ : Position) :
    items.forM f at_ = items.forM fun item => f item at_ := by
  induction items with
  | nil => rfl
  | cons item rest ih =>
    change f item at_ >>= (fun _ => rest.forM f at_) = f item at_ >>= fun _ => rest.forM _
    rw [ih]

theorem reportsUpTo_forM {ε ι κ : Type} {P : ι → κ → Prop} {items : List ι} {others : List κ}
    {f : ι → SpecM ε PUnit} {g : κ → SpecM ε PUnit} (pairs : List.Forall₂ P items others)
    (each : ∀ i, ∀ j ∈ others, P i j → ReportsUpTo (f i) (g j)) :
    ReportsUpTo (items.forM f) (others.forM g) := by
  intro at_
  rw [forM_apply, forM_apply]
  exact Emit.UpTo.forM pairs fun i j member alike => each i j member alike at_

theorem reportsUpTo_same {ε ι : Type} {items : List ι} {f g : ι → SpecM ε PUnit}
    (each : ∀ i, ReportsUpTo (f i) (g i)) : ReportsUpTo (items.forM f) (items.forM g) :=
  reportsUpTo_forM (List.forall₂_same.mpr fun _ _ => rfl) fun i _ _ (same : i = _) =>
    same ▸ each i

/-- What a value breaks without the feature. -/
def StubReports (walk : Walk R) (other : Backend) (stubs : ValidatorCache R)
    (types : MessageIndex → Prop) (v : Val R) : Prop :=
  ∀ validator bind, validator.Native walk.backend other →
    (∀ nested, validator.nested = some nested → types nested) →
    ReportsUpTo (value (walk.withStub other stubs) validator bind v) (value walk validator bind v)

/-- Rules that need no CEL are the same without the feature. -/
theorem runRules_stub {validator : ValueValidator R} (native : validator.Native walk.backend other)
    (bind : CelBind R) (child : Option (CelFrame R)) (v : Option (Val R)) :
    (validator.runRules (walk.withStub other stubs) bind child v : SpecM R.Error Unit) =
      validator.runRules walk bind child v := by
  have checks : (validator.checks.check (walk.withStub other stubs) v validator.wrapper :
      SpecM R.Error Unit) = validator.checks.check walk v validator.wrapper :=
    Checks.check_agree walk (walk.withStub other stubs) rfl native.checks v validator.wrapper
  unfold ValueValidator.runRules
  rw [native.custom, native.predefined, checks]
  rfl

theorem option_stub {read : Option (Val R)}
    (parts : ∀ v, read = some v → StubReports walk other stubs types v)
    {validator : ValueValidator R}
    (native : validator.Native walk.backend other)
    (nests : ∀ nested, validator.nested = some nested → types nested)
    (bind : CelBind R) :
    ReportsUpTo (option (walk.withStub other stubs) validator bind read)
      (option walk validator bind read) := by
  cases read with
  | none =>
    simp only [option, runRules_stub native]
    exact reportsUpTo_refl _
  | some v => exact parts v rfl validator bind native nests

theorem item_stub {read : Except R.Error (Option (Val R))}
    (parts : ∀ v, read = .ok (some v) → StubReports walk other stubs types v)
    {items : ItemValidator R}
    (native : items.value.Native walk.backend other)
    (nests : ∀ nested, items.value.nested = some nested → types nested)
    (container : FieldPathElement) (kind : Singular) (index : Nat) :
    ReportsUpTo (item (walk.withStub other stubs) items container kind index read)
      (item walk items container kind index read) := by
  cases read with
  | error e => exact reportsUpTo_refl _
  | ok read =>
    cases read with
    | none => exact reportsUpTo_refl (pure ())
    | some v =>
      refine (reportsUpTo_refl _).bind fun skips => ?_
      cases skips with
      | true => exact reportsUpTo_refl (pure ())
      | false => exact (parts v rfl _ _ native nests).within _

theorem list_stub {l : ListView R}
    (parts : ∀ v, Part v (.list l) → StubReports walk other stubs types v)
    {items : ItemValidator R} (native : items.value.Native walk.backend other)
    (nests : ∀ nested, items.value.nested = some nested → types nested)
    (container : FieldPathElement) (kind : Singular) :
    ReportsUpTo (list (walk.withStub other stubs) items container kind l)
      (list walk items container kind l) := by
  obtain ⟨len, get⟩ := l
  refine (reportsUpTo_refl _).bind fun count => reportsUpTo_same fun index => ?_
  exact item_stub (fun v found => parts v (.element found)) native nests _ _ _

theorem entry_stub {k : Atom} {v : Val R} (part : StubReports walk other stubs types v)
    {entries : Entries R} (nativeKeys : ∀ keys ∈ entries.keys, keys.value.Native walk.backend other)
    (native : ∀ values ∈ entries.values, values.value.Native walk.backend other)
    (nests : ∀ values, entries.values = some values →
      ∀ nested, values.value.nested = some nested → types nested) :
    ReportsUpTo (entry (walk.withStub other stubs) entries (k, v)) (entry walk entries (k, v)) := by
  have keys : key (walk.withStub other stubs) entries k = key walk entries k := by
    unfold key
    cases held : entries.keys with
    | none => rfl
    | some keys => simp only [runRules_stub (nativeKeys keys held)]
  unfold entry
  rw [keys]
  refine (reportsUpTo_refl _).bind fun _ => ?_
  cases held : entries.values with
  | none => exact reportsUpTo_refl (pure ())
  | some values =>
    refine (reportsUpTo_refl _).bind fun skips => ?_
    cases skips with
    | true => exact reportsUpTo_refl (pure ())
    | false => exact part _ _ (native values held) (nests values held)

theorem map_stub {m : MapView R}
    (parts : ∀ v, Part v (.map m) → StubReports walk other stubs types v)
    {entries : Entries R} (nativeKeys : ∀ keys ∈ entries.keys, keys.value.Native walk.backend other)
    (native : ∀ values ∈ entries.values, values.value.Native walk.backend other)
    (nests : ∀ values, entries.values = some values →
      ∀ nested, values.value.nested = some nested → types nested)
    (container : FieldPathElement) :
    ReportsUpTo (map (walk.withStub other stubs) entries container m)
      (map walk entries container m) := by
  obtain ⟨len, visited, fault⟩ := m
  simp only [map, entryList_forM]
  refine ReportsUpTo.bind ?_ fun _ => reportsUpTo_refl _
  refine reportsUpTo_forM (List.forall₂_same.mpr fun _ _ => rfl) fun first other member same => ?_
  obtain rfl : first = other := same
  have part : StubReports walk other stubs types first.2 :=
    parts first.2 (.entry (k := first.1) member)
  exact (entry_stub part nativeKeys native nests).within _

theorem contents_stub {read : Option (Val R)}
    (parts : ∀ v w, read = some v → Part w v → StubReports walk other stubs types w)
    {rules : FieldValidator R} (native : rules.Native walk.backend other)
    (nests : ∀ nested, rules.Nests nested → types nested) :
    ReportsUpTo (contents (walk.withStub other stubs) rules read) (contents walk rules read) := by
  have kind := native.kind
  cases read with
  | none => exact reportsUpTo_refl _
  | some v =>
    cases v with
    | list l =>
      simp only [contents]
      split
      · rename_i items kind' listed described
        rw [listed] at kind
        exact list_stub (fun w part => parts _ w rfl part) (kind items rfl)
          (fun nested held => nests nested (.element listed held)) _ _
      · exact reportsUpTo_refl _
    | map m =>
      simp only [contents]
      split
      · rename_i element keys values key value mapped described
        rw [mapped] at kind
        refine map_stub (fun w part => parts _ w rfl part) kind.1 kind.2
          (fun inner held nested nests' => ?_) _
        cases held
        exact nests nested (.entry mapped nests')
      · exact reportsUpTo_refl _
    | atom _ | message _ => exact reportsUpTo_refl _

theorem field_stub {read : Except R.Error (Option (Val R))}
    (parts : ∀ v, read = .ok (some v) →
      StubReports walk other stubs types v ∧ ∀ w, Part w v → StubReports walk other stubs types w)
    {rules : FieldValidator R} (native : rules.Native walk.backend other)
    (nests : ∀ nested, rules.Nests nested → types nested) (m : Message R) (frame : CelFrame R) :
    ReportsUpTo (field (walk.withStub other stubs) rules m frame read)
      (field walk rules m frame read) := by
  cases read with
  | error e => exact reportsUpTo_refl _
  | ok read =>
    refine (reportsUpTo_refl _).bind fun set => ?_
    have own : ReportsUpTo
        (option (walk.withStub other stubs) rules.value (.field frame rules.field) read)
        (option walk rules.value (.field frame rules.field) read) :=
      option_stub (fun v held => (parts v (by rw [held])).1) native.value
        (fun nested held => nests nested (.value held)) _
    have inner : ReportsUpTo (contents (walk.withStub other stubs) rules read)
        (contents walk rules read) :=
      contents_stub (fun v w held => (parts v (by rw [held])).2 w) native nests
    split
    · exact reportsUpTo_refl _
    · split
      · exact reportsUpTo_refl _
      · exact (own.within _).bind fun _ => inner

theorem message_stub {m : Message R} (parts : ∀ v, Below v (.message m) →
      StubReports walk other stubs types v)
    {stub made : MessageValidator R} (stands : MessageStands walk.backend other stub made)
    (nests : ∀ rules, .ok rules ∈ made.fields → ∀ nested, rules.Nests nested → types nested)
    (frame : CelFrame R) :
    ReportsUpTo (message (walk.withStub other stubs) stub frame m) (message walk made frame m) := by
  obtain ⟨has, get, encode⟩ := m
  have own : ∀ m, (stub.runRules (walk.withStub other stubs) frame m : SpecM R.Error Unit) =
      made.runRules walk frame m := by
    intro m
    simp only [MessageValidator.runRules, stands.cel.1, stands.cel.2, stands.messageOneofs,
      stands.oneofs]
    rfl
  simp only [message, own]
  refine (reportsUpTo_refl _).bind fun _ => ?_
  refine reportsUpTo_forM stands.fields fun stub made member alike => ?_
  rcases alike with ⟨rfl, native⟩ | ⟨error, rfl, needs⟩
  · cases stub with
    | error e => exact reportsUpTo_refl _
    | ok rules =>
      refine field_stub (fun v found => ?_) (native rules rfl) (nests rules member) _ _
      have direct : Part v (.message ⟨has, get, encode⟩) := .field found
      exact ⟨parts v (.single direct), fun w part => parts w (.head part (.single direct))⟩
  · exact fun _ => .fail ⟨error, rfl, needs⟩ _

section Stubbed
variable (stubbed : walk.Stubbed other stubs types)
include stubbed

/-- The rules of the message a value holds: those of a type that stands for one, or
the error there is for it. -/
theorem nestedMessage_stub {validator : ValueValidator R}
    (nests : ∀ nested, validator.nested = some nested → types nested) (sub : Message R) :
    (∃ e, validator.nestedMessage (walk.withStub other stubs) sub = .error e ∧
      (validator.nestedMessage walk sub = .error e ∨ WithoutCel e)) ∨
    (validator.nestedMessage (walk.withStub other stubs) sub = .ok none ∧
      validator.nestedMessage walk sub = .ok none) ∨
    ∃ stub made frame, validator.nestedMessage (walk.withStub other stubs) sub = .ok
    (some (stub, frame)) ∧
      validator.nestedMessage walk sub = .ok (some (made, frame)) ∧
      MessageStands walk.backend other stub made ∧
      ∀ rules, .ok rules ∈ made.fields → ∀ nested, rules.Nests nested → types nested := by
  unfold ValueValidator.nestedMessage
  cases held : validator.nested with
  | none => exact .inr (.inl ⟨rfl, rfl⟩)
  | some index =>
    obtain ⟨stub, made, cachedStub, cached, stands⟩ := stubbed.stands index (nests index held)
    cases stub with
    | error error =>
      have looked : (walk.withStub other stubs).validator index = .error (.compilation error) := by
        simp only [Walk.validator, Walk.withStub, cachedStub]
      refine .inl ⟨.compilation error, by simp only [looked]; rfl, ?_⟩
      rcases stands with rfl | needs
      · have same : walk.validator index = .error (.compilation error) := by
          simp only [Walk.validator, cached]
        exact .inl (by simp only [same]; rfl)
      · exact .inr ⟨error, rfl, needs⟩
    | ok stub =>
      obtain ⟨compiled, rfl, alike⟩ := stands
      have looked : (walk.withStub other stubs).validator index = .ok stub := by
        simp only [Walk.validator, Walk.withStub, cachedStub]
      have same : walk.validator index = .ok compiled := by
        simp only [Walk.validator, cached]
      refine .inr (.inr ⟨stub, compiled, _, by simp only [looked]; rfl, by simp only [same]; rfl,
        alike, ?_⟩)
      exact stubbed.nested index (nests index held) compiled cached

/-- By induction on the value: its parts are reported up to a need of CEL already. -/
theorem value_stub (v : Val R) : StubReports walk other stubs types v := by
  induction v using Val.below_induction with
  | step v below =>
    intro validator bind native nests
    cases v with
    | message sub =>
      simp only [value, runRules_stub native]
      rcases nestedMessage_stub stubbed nests sub with
        ⟨e, looked, same | needs⟩ | ⟨looked, same⟩ | ⟨stub, made, frame, looked, same, alike, inner⟩
      · rw [looked, same]
        exact reportsUpTo_error e _ _
      · rw [looked]
        exact fun _ => .fail needs _
      · rw [looked, same]
        simp only [orAbort, pure_bind]
        exact reportsUpTo_refl _
      · rw [looked, same]
        exact (reportsUpTo_refl _).bind fun _ => message_stub below alike inner frame
    | atom _ | list _ | map _ =>
      simp only [value, runRules_stub native]
      exact reportsUpTo_refl _

end Stubbed

end Spec

/-- The walk of a message without the feature. -/
theorem validate_stub {walk : Walk R} {other : Backend} {stubs : ValidatorCache R}
    {types : MessageIndex → Prop}
    (stubbed : walk.Stubbed other stubs types) {index : MessageIndex} (root : types index)
    {stub made : MessageValidator R} (found : walk.validators index = some (.ok made))
    (alike : MessageStands walk.backend other stub made) (failFast : Bool) (m : Message R)
    (typeName : String) :
    (walk.withStub other stubs).validate failFast stub m typeName =
        walk.validate failFast made m typeName ∨
      ∃ e, (walk.withStub other stubs).validate failFast stub m typeName = .error e ∧
        WithoutCel e := by
  have upTo : Emit.UpTo WithoutCel (Spec.report (walk.withStub other stubs) stub m typeName [])
      (Spec.report walk made m typeName []) :=
    Spec.message_stub (fun v _ => Spec.value_stub stubbed v) alike
      (stubbed.nested index root made found) _ ⟨[], false⟩
  simp only [Walk.validate, validate_from_root, observed]
  rcases upTo.cut failFast Abort.error .failFast with same | ⟨e, stopped, needs⟩
  · rw [same]
    exact .inl rfl
  · rw [stopped]
    exact .inr ⟨e, rfl, needs⟩

/-- Linking of files without the feature, where no CEL environment takes them. -/
def Linker.withStub {P : Type} (linker : Linker P) : Linker P :=
  { linker with addFile := fun env _ => (.ok (), env) }

namespace Session
variable {P : Type} {linker : Linker P} {other : Backend}

/-- The pool takes the same files without the feature. -/
theorem addFileDescriptorBytes_stub (self : Validator R) (file : Bytes) :
    ((self.withStub other).addFileDescriptorBytes linker.withStub file).2 =
      (self.addFileDescriptorBytes linker file).2.withStub other := by
  have decode : linker.withStub.decode = linker.decode := rfl
  have link : linker.withStub.addFileDescriptorSet (self.withStub other).pool =
    linker.addFileDescriptorSet self.pool := rfl
  cases decoded : linker.decode file with
  | error e => simp only [Validator.addFileDescriptorBytes, decode, decoded]
  | ok proto =>
    simp only [Validator.addFileDescriptorBytes, decode, decoded, link]
    generalize linker.addFileDescriptorSet self.pool proto = added
    obtain ⟨_ | _, pool⟩ := added <;> rfl

theorem after_stub (start : Validator R) (files : List (Operation R)) :
    ((fresh (start.withStub other)).after linker.withStub files).validator =
      ((fresh start).after linker files).validator.withStub other := by
  induction files using List.reverseRecOn with
  | nil => rfl
  | append_singleton files call ih =>
    rw [after_snoc, after_snoc]
    cases call with
    | add file =>
      simp only [step, ih]
      exact addFileDescriptorBytes_stub _ file
    | validate typeName message failFast => exact ih

/-- The backend stays. -/
theorem after_backend (start : Validator R) (files : List (Operation R)) :
    ((fresh start).after linker files).validator.backend = start.backend := by
  induction files using List.reverseRecOn with
  | nil => rfl
  | append_singleton files call ih =>
    rw [after_snoc, ← ih]
    cases call with
    | add file =>
      simp only [step, Validator.addFileDescriptorBytes]
      split
      · rfl
      · split <;> rfl
    | validate typeName message failFast => rfl

/-- What two snapshots have of the types that `root` reaches, when both are what
would be built now. -/
theorem stubbed_entries {validator : Validator R}
    (agrees : validator.backend.Agrees other validator.pool.Sets)
    {validators stubs : ValidatorCache R} {root : MessageIndex}
    (entries : ∀ index, Reaches validator root index →
      ∃ entry, validators index = some entry ∧ validator.entry index = some entry)
    (stubEntries : ∀ index, Reaches validator root index →
      ∃ entry, stubs index = some entry ∧ (validator.withStub other).entry index = some entry) :
    (validator.walk validators).Stubbed other stubs (Reaches validator root) := by
  constructor
  · intro index reaches
    obtain ⟨made, found, built⟩ := entries index reaches
    obtain ⟨stub, cached, builtStub⟩ := stubEntries index reaches
    have held : ∀ nested, validator.Holds index nested → (validator.entry nested).isSome := by
      intro nested holds
      obtain ⟨entry, -, builtNested⟩ := entries nested (reaches.tail holds)
      simp [builtNested]
    obtain ⟨stub', same, stands⟩ := Validator.entry_stub agrees built held
    cases builtStub.symm.trans same
    exact ⟨stub, made, cached, found, stands⟩
  · intro index reaches compiled found rules present nested nests
    obtain ⟨made, found', built⟩ := entries index reaches
    cases found'.symm.trans found
    exact reaches.tail (Validator.entry_nests built present nests).1

/-- What is returned without the feature, against what is with it. -/
def ReturnsUpTo {α : Type} (stub made : Except (Stopped R.Error) α) : Prop :=
  stub = made ∨ ∃ error, stub = .error (.error (.compilation error)) ∧ NeedsCel error

theorem runWith_stub {validator : Validator R}
    (agrees : validator.backend.Agrees other validator.pool.Sets)
    {validators stubs : ValidatorCache R} {root : MessageIndex}
    (entries : ∀ index, Reaches validator root index →
      ∃ entry, validators index = some entry ∧ validator.entry index = some entry)
    (stubEntries : ∀ index, Reaches validator root index →
      ∃ entry, stubs index = some entry ∧ (validator.withStub other).entry index = some entry)
    (typeName : String) (message : R.MessageType → Except R.Error (Message R)) (failFast : Bool) :
    ReturnsUpTo ((validator.withStub other).runWith stubs root typeName message failFast)
      (validator.runWith validators root typeName message failFast) := by
  have stubbed := stubbed_entries agrees entries stubEntries
  obtain ⟨stub, made, cachedStub, cached, stands⟩ := stubbed.stands root .refl
  have cached : validators root = some made := cached
  unfold Validator.runWith
  rw [cachedStub, cached]
  cases stub with
  | error error =>
    rcases stands with rfl | needs
    · exact .inl rfl
    · exact .inr ⟨error, rfl, needs⟩
  | ok stub =>
    obtain ⟨made, rfl, alike⟩ := stands
    dsimp only
    rw [alike.messageType]
    cases message made.messageType with
    | error e => exact .inl rfl
    | ok m =>
      have walked := validate_stub stubbed .refl cached alike failFast m typeName
      rcases walked with same | ⟨_, stopped, error, rfl, needs⟩
      · exact .inl (congrArg (Except.mapError Stopped.error) same)
      · exact .inr ⟨error, congrArg (Except.mapError Stopped.error) stopped, needs⟩

theorem validateMessage_upTo {self other : Validator R} {cache cache' : ValidatorCache R}
    {typeName : String} {message : R.MessageType → Except R.Error (Message R)} {failFast : Bool}
    (runs : ReturnsUpTo (self.run cache typeName message failFast).1
      (other.run cache' typeName message failFast).1) :
    ReturnsUpTo (self.validateMessage cache typeName message failFast).1
      (other.validateMessage cache' typeName message failFast).1 := by
  unfold Validator.validateMessage
  generalize self.run cache typeName message failFast = first at runs
  generalize other.run cache' typeName message failFast = second at runs
  obtain ⟨result, left⟩ := first
  obtain ⟨result', left'⟩ := second
  rcases runs with same | ⟨error, stopped, needs⟩
  · cases same
    refine .inl ?_
    cases result with
    | error stopped => rfl
    | ok violations => cases violations <;> rfl
  · cases stopped
    exact .inr ⟨error, rfl, needs⟩

/-- A call that finds why not to walk the message. -/
theorem result_panics {s : Session R} {root : MessageIndex} {why : Panic} {typeName : String}
    (named : s.validator.pool.messageIndex typeName = some root)
    (got : s.validator.validators s.cache root = (.error (.panic why), s.cache))
    (message : R.MessageType → Except R.Error (Message R)) (failFast : Bool) :
    s.result typeName message failFast = .error (.panic why) := by
  unfold result Validator.validateMessage
  rw [Validator.run_failed named got]
  rfl

/-- A call on a session of the stub, against one on a session that has taken the
same files, where the rules of each are those that would be built now. -/
theorem result_stub {s stubSession : Session R}
    (agrees : s.validator.backend.Agrees other s.validator.pool.Sets) (kept : s.Kept)
    (keptStub : stubSession.Kept)
    (same : stubSession.validator = s.validator.withStub other) {typeName : String}
    (current : ∀ root, s.validator.pool.messageIndex typeName = some root →
      s.Current (Reaches s.validator root))
    (currentStub : ∀ root, s.validator.pool.messageIndex typeName = some root →
      stubSession.Current (Reaches s.validator root))
    {message : R.MessageType → Except R.Error (Message R)} {failFast : Bool}
    (returns : ∀ why, s.result typeName message failFast ≠ .error (.panic why))
    (stubReturns : ∀ why, stubSession.result typeName message failFast ≠ .error (.panic why)) :
    ReturnsUpTo (stubSession.result typeName message failFast)
      (s.result typeName message failFast) := by
  obtain ⟨validator, stubCache⟩ := stubSession
  obtain rfl : validator = s.validator.withStub other := same
  cases named : s.validator.pool.messageIndex typeName with
  | none =>
    refine validateMessage_upTo (.inl ?_)
    have namedStub : (s.validator.withStub other).pool.messageIndex typeName = none := named
    rw [Validator.run_unknown named, Validator.run_unknown namedStub]
  | some root =>
    have namedStub : (s.validator.withStub other).pool.messageIndex typeName = some root := named
    have present := Validator.messageIndex_lt named
    have made := validators_current kept present (current root named)
    have stub := validators_current keptStub present (currentStub root named)
    rcases made with ⟨e, first, got⟩ | ⟨why, got⟩ | ⟨validators, left, passes, got, entries⟩
    · rcases stub with ⟨e', first', got'⟩ | ⟨why, got'⟩ | ⟨stubs, left', passes', got', -⟩
      · cases first.symm.trans first'
        refine validateMessage_upTo (.inl ?_)
        rw [Validator.run_failed named got, Validator.run_failed namedStub got']
      · exact absurd (result_panics (s := ⟨s.validator.withStub other, stubCache⟩) namedStub got'
          message failFast) (stubReturns why)
      · cases first.symm.trans passes'
    · exact absurd (result_panics named got message failFast) (returns why)
    · rcases stub with ⟨e', first', got'⟩ | ⟨why, got'⟩ | ⟨stubs, left', passes', got', entries'⟩
      · cases passes.symm.trans first'
      · exact absurd (result_panics (s := ⟨s.validator.withStub other, stubCache⟩) namedStub got'
          message failFast) (stubReturns why)
      · refine validateMessage_upTo ?_
        rw [Validator.run_returned named got, Validator.run_returned namedStub got']
        exact runWith_stub agrees entries entries' typeName message failFast

/-- A validation without the `cel` feature returns what it returns with it, or an
error that ends with the stub's text. Each follows the same files, all taken
before the first validation, and any validations. The two engines for patterns
agree on those that the files set and on those of the formats. Calls that panic
are left out. -/
theorem result_withoutCel (appends : linker.Appends) (start : Validator R)
    {files validations others : List (Operation R)}
    (registered : ∀ call ∈ files, call.registers = true)
    (validated : ∀ call ∈ validations, call.registers = false)
    (othersValidated : ∀ call ∈ others, call.registers = false)
    (agrees : start.backend.Agrees other ((fresh start).after linker files).validator.pool.Sets)
    (typeName : String) (message : R.MessageType → Except R.Error (Message R)) (failFast : Bool)
    (returns : ∀ why, ((fresh start).after linker (files ++ validations)).result typeName
      message failFast ≠ .error (.panic why))
    (stubReturns : ∀ why, ((fresh (start.withStub other)).after linker.withStub
      (files ++ others)).result typeName message failFast ≠ .error (.panic why)) :
    ((fresh (start.withStub other)).after linker.withStub (files ++ others)).result typeName
        message failFast =
      ((fresh start).after linker (files ++ validations)).result typeName message failFast ∨
    ∃ error, ((fresh (start.withStub other)).after linker.withStub (files ++ others)).result
        typeName message failFast = .error (.error (.compilation error)) ∧ NeedsCel error := by
  have appendsStub : linker.withStub.Appends := appends
  have made : ((fresh start).after linker (files ++ validations)).validator =
      ((fresh start).after linker files).validator := by
    rw [after_append, after_validations _ validated]
  have same : ((fresh (start.withStub other)).after linker.withStub (files ++ others)).validator =
      ((fresh start).after linker (files ++ validations)).validator.withStub other := by
    rw [made, after_append, after_validations _ othersValidated, after_stub]
  refine result_stub ?_ ((kept_fresh _).after appends _) ((kept_fresh _).after appendsStub _) same
    (fun root named => ?_) (fun root named => ?_) returns stubReturns
  · rw [made, after_backend]
    exact agrees
  · exact (settled_registered start registered validated root).current appends _ [] (by simp)
  · have current :=
      (settled_registered (start.withStub other) registered othersValidated root).current
        appendsStub _ [] (List.append_nil _).symm
    rw [same] at current
    exact current

end Session

/-- An engine without quotations, which compiles and matches what the other one does
otherwise. -/
def unquoting : Backend :=
  { Backend.bare with
    regexNew := fun pattern =>
      if pattern = "\\Qa\\E" then .error "unrecognized escape sequence" else .ok () }

/-- The rules of the message set no pattern. -/
theorem agreement_agrees : Backend.bare.Agrees unquoting bothAdded.pool.Sets := by
  have bools : ∀ index, ∀ field ∈ (bothAdded.pool.message index).fields,
      ∀ rules ∈ field.fieldRules, ∃ own, rules.type = some (.bool own) := by
    intro index field member rules held
    match index with
    | 0 | 1 | 2 =>
      obtain rfl := List.mem_singleton.mp member
      cases held <;> exact ⟨_, rfl⟩
    | index + 3 => cases member
  have none : ∀ pattern, ¬bothAdded.pool.Sets pattern := by
    rintro pattern ⟨index, field, member, rules, held, sets⟩
    obtain ⟨own, bool⟩ := bools index field member rules held
    cases sets with
    | own set pattern => rw [bool] at set; cases set; cases pattern
    | items set | keys set | values set => rw [bool] at set; cases set
  exact ⟨rfl, fun pattern set => absurd set (none pattern), fun _ _ _ => rfl⟩

/-- The rule of the message needs CEL. -/
theorem agreement_stub : ∃ built compiled,
    (bothAdded.withStub unquoting).build 2 (fun _ => none) = .ok built ∧
    built 2 = some (.ok compiled) ∧
    ∀ validators, ((bothAdded.withStub unquoting).walk validators).validate false compiled agreed
      "Agreement" = .error (.compilation ("failed to compile expression bool.must_be: " ++
        Cel.NO_CEL)) := by
  have types : closure (bothAdded.withStub unquoting).pool 2
      (fun _ => none : ValidatorCache ⟨String, Unit⟩) = [2] := agreement_closure.2
  have messages : ∀ types, closure ((bothAdded.withStub unquoting).builder types).pool 2
      (fun _ => none : ValidatorCache ⟨String, Unit⟩) = [2] := fun _ => agreement_closure.2
  simp only [Validator.build, resolve, Builder.buildClosure, types, messages]
  exact ⟨_, _, rfl, rfl, fun _ => rfl⟩

theorem bothAdded_session :
    (Session.fresh boolValidator).after mustBeLinker [addMessage, addExtension] =
      ⟨bothAdded, fun _ => none⟩ := rfl

theorem bothAdded_stub :
    (Session.fresh (boolValidator.withStub unquoting)).after mustBeLinker.withStub
      [addMessage, addExtension] = ⟨bothAdded.withStub unquoting, fun _ => none⟩ := by
  have same : ((Session.fresh (boolValidator.withStub unquoting)).after mustBeLinker.withStub
      [addMessage, addExtension]).validator = ((Session.fresh boolValidator).after mustBeLinker
        [addMessage, addExtension]).validator.withStub unquoting := Session.after_stub _ _
  rw [bothAdded_session] at same
  exact congrArg (fun validator => Session.mk validator fun _ => none) same

/-- A message whose rule needs CEL, after another validation of it with the feature. -/
theorem result_withoutCel_agreement :
    ((Session.fresh (boolValidator.withStub unquoting)).after mustBeLinker.withStub
        ([addMessage, addExtension] ++ [])).result "Agreement" (fun _ => .ok agreed) false =
      ((Session.fresh boolValidator).after mustBeLinker
        ([addMessage, addExtension] ++ [validateAgreed])).result "Agreement"
          (fun _ => .ok agreed) false ∨
    ∃ error, ((Session.fresh (boolValidator.withStub unquoting)).after mustBeLinker.withStub
        ([addMessage, addExtension] ++ [])).result "Agreement" (fun _ => .ok agreed) false =
      .error (.error (.compilation error)) ∧ NeedsCel error := by
  refine Session.result_withoutCel mustBe_appends boolValidator ?_ ?_ ?_ ?_ _ _ _
    (fun why => ?_) fun why => ?_
  · simp [addMessage, addExtension, Operation.registers]
  · simp [validateAgreed, Operation.registers]
  · simp
  · rw [bothAdded_session]
    exact agreement_agrees
  · obtain ⟨built, first, again⟩ := bothAdded_run
    have left : (bothAdded.validateMessage (fun _ => none) "Agreement" (fun _ => .ok agreed)
        false).2 = built := by
      rw [Validator.validateMessage_run, first]
    rw [Session.after_append, bothAdded_session]
    change (bothAdded.validateMessage (bothAdded.validateMessage (fun _ => none) "Agreement"
      (fun _ => .ok agreed) false).2 "Agreement" (fun _ => .ok agreed) false).1 ≠ _
    rw [left, Validator.validateMessage, again]
    simp
  · obtain ⟨built, compiled, made, found, walked⟩ := agreement_stub
    have cached : Table.extend (fun _ => none) built 2 = some (.ok compiled) := by
      simp [Table.extend, found]
    have named : (bothAdded.withStub unquoting).pool.messageIndex "Agreement" = some 2 :=
      agreement_index.2
    have ran := agreed_result named (Validator.validators_missing rfl made) cached (walked _)
    rw [List.append_nil, bothAdded_stub, Session.result, Validator.validateMessage, ran]
    simp [Except.mapError]

end Protovalidate
