import Protovalidate.TypeSound

/-!
# A walk of a typed message

Wherever a walk gets to, the value it validates is of the kind that its rules
were built for, so that no rule reads it as something else. The induction is on
the message; what it carries is that validators and values agree.
-/

namespace Protovalidate

open Recording BuildM

variable {R : Runtime}

/-- A message validator that fits a message, and finds the types it nests. -/
structure MessageSound (walk : Walk R) (validator : MessageValidator R) (m : Message R) :
    Prop where
  compiles : validator.cel.isSome → walk.env.Compiles
  fields : ∀ rules, .ok rules ∈ validator.fields → ∃ kind,
    FieldSound walk.env walk.pool kind rules ∧
    ∀ v, m.get rules.field = .ok (some v) → Typed walk.pool kind v
  loaded : ∀ rules nested, .ok rules ∈ validator.fields → rules.Nests nested →
    (walk.validators nested).isSome

section Binds
variable {walk : Walk R} (parses : walk.env.Parses) (compiles : walk.env.Compiles)
include parses compiles

theorem parsed_expected {frame : CelFrame R} {e : Error R.Error}
    (failed : frame.parsed walk = .error e) : e.Expected := by
  unfold CelFrame.parsed at failed
  rcases bind_eq_error.mp failed with failed | ⟨bytes, -, failed⟩
  · exact readResult_expected failed
  · cases parsed : walk.env.frame frame.typeName bytes with
    | ok result => simp [parsed, Except.mapError] at failed
    | error error =>
      obtain ⟨message, rfl⟩ := parses compiles _ _ _ parsed
      simp only [parsed, Except.mapError, Error.ofCel, Except.error.injEq] at failed
      subst failed
      intro text same
      cases same

/-- `this` is bound for a field, and for an item that is a scalar or has a
message type. -/
theorem celThis_expected {value : Option (Val R)} {bind : CelBind R}
    {child : Option (CelFrame R)} {e : Error R.Error}
    (items : ∀ kind, bind = .item kind → (∃ a, value = some (.atom a)) ∨ child.isSome)
    (failed : celThis walk value bind child = .error e) : e.Expected := by
  unfold celThis at failed
  dsimp only at failed
  split at failed
  · cases failed
  · rename_i message
    split at failed
    · rcases bind_eq_error.mp failed with failed | ⟨parsed, -, failed⟩
      · exact parsed_expected parses compiles failed
      · cases failed
    · rcases bind_eq_error.mp failed with failed | ⟨parsed, -, failed⟩
      · exact parsed_expected parses compiles failed
      · cases failed
    · rename_i kind
      rcases items kind rfl with ⟨a, rfl⟩ | some
      · cases a <;> cases message
      · cases some

end Binds

section Safe
variable (walk : Walk R)

/-- The validators of a kind evaluate a value without reading it as another. -/
def Safe (v : Val R) : Prop :=
  ∀ kind validator bind, Typed walk.pool kind v → ValueSound walk.env walk.pool kind validator →
    (∀ nested, validator.nested = some nested → (walk.validators nested).isSome) →
    (∀ element, bind = .item element → ∃ single, kind = .singular single) →
    FailsIn Error.Expected (Spec.value walk validator bind v)

variable {walk} (parses : walk.env.Parses)
  (compiled : ∀ index validator m, walk.validators index = some (.ok validator) →
    Typed walk.pool (.singular (.message index)) (.message m) → MessageSound walk validator m)

include parses in
/-- The rules of a value are evaluated on the kind they were built for. -/
theorem valueRules_safe {kind : DescriptorKind} {validator : ValueValidator R}
    (sound : ValueSound walk.env walk.pool kind validator) {bind : CelBind R}
    {child : Option (CelFrame R)} {value : Option (Val R)}
    (typed : ∀ v, value = some v → Typed walk.pool kind v)
    (items : ∀ element, bind = .item element → (∃ a, value = some (.atom a)) ∨ child.isSome) :
    FailsIn Error.Expected (validator.runRules walk bind child value : SpecM R.Error Unit) := by
  refine valueRules_fails (fun _ text same => by cases same) walk validator bind child value ?_ ?_
  · exact fun some _ => celThis_expected parses (sound.compiles some) items
  · exact fun _ failed => sound.fits.expected typed failed

include parses in
theorem option_safe {kind : DescriptorKind} {validator : ValueValidator R}
    (sound : ValueSound walk.env walk.pool kind validator)
    (loaded : ∀ nested, validator.nested = some nested → (walk.validators nested).isSome)
    (frame : CelFrame R) (field : Field R) {value : Option (Val R)}
    (typed : ∀ v, value = some v → Typed walk.pool kind v)
    (parts : ∀ v, value = some v → Safe walk v) :
    FailsIn Error.Expected (Spec.option walk validator (.field frame field) value) := by
  cases value with
  | none => exact valueRules_safe parses sound typed nofun
  | some v => exact parts v rfl kind validator _ (typed v rfl) sound loaded nofun

/-- An item is evaluated by the validator of its kind. -/
theorem list_safe {element : SingularKind} {l : ListView R} {items : ItemValidator R}
    (sound : ValueSound walk.env walk.pool (.singular element) items.value)
    (loaded : ∀ nested, items.value.nested = some nested → (walk.validators nested).isSome)
    (typed : ∀ i v, l.get i = .ok (some v) → Typed walk.pool (.singular element) v)
    (parts : ∀ v, Part v (.list l) → Safe walk v) (container : FieldPathElement)
    (kind : Singular) :
    FailsIn Error.Expected (Spec.list walk items container kind l) := by
  obtain ⟨len, get⟩ := l
  refine FailsIn.bind (FailsIn.read fun _ => nofun) fun len => FailsIn.forM fun index _ => ?_
  cases got : get index with
  | error e => exact FailsIn.abort nofun
  | ok item =>
    cases item with
    | none => exact FailsIn.pure _
    | some v =>
      refine FailsIn.bind (FailsIn.read fun _ => nofun) fun skip => ?_
      cases skip with
      | true => exact FailsIn.pure _
      | false =>
        refine FailsIn.within _ ?_
        exact parts v (.element got) _ _ _ (typed index v got) sound loaded
          (fun _ _ => ⟨element, rfl⟩)

include parses in
theorem key_safe {key : Scalar} {entries : Entries R}
    (sound : ∀ keys, entries.keys = some keys →
      ValueSound walk.env walk.pool (.singular (.scalar key)) keys.value)
    {k : Atom} (typed : k.valueType = key.valueType) :
    FailsIn Error.Expected (Spec.key walk entries k) := by
  unfold Spec.key
  split
  · exact FailsIn.pure _
  · rename_i keys held
    refine FailsIn.bind (FailsIn.read fun _ => nofun) fun skip => ?_
    cases skip with
    | true => exact FailsIn.pure _
    | false =>
      refine FailsIn.forKey (valueRules_safe parses (sound keys held) (fun v same => ?_) ?_)
      · cases same
        exact .scalar typed
      · exact fun _ _ => .inl ⟨k, rfl⟩

include parses in
theorem map_safe {key : Scalar} {kind : SingularKind} {map : MapView R} {entries : Entries R}
    (keys : ∀ keys, entries.keys = some keys →
      ValueSound walk.env walk.pool (.singular (.scalar key)) keys.value)
    (values : ∀ values, entries.values = some values →
      ValueSound walk.env walk.pool (.singular kind) values.value)
    (loaded : ∀ values nested, entries.values = some values →
      values.value.nested = some nested → (walk.validators nested).isSome)
    (keyTyped : ∀ k v, (k, v) ∈ map.entries → k.valueType = key.valueType)
    (typed : ∀ k v, (k, v) ∈ map.entries → Typed walk.pool (.singular kind) v)
    (parts : ∀ v, Part v (.map map) → Safe walk v) (container : FieldPathElement) :
    FailsIn Error.Expected (Spec.map walk entries container map) := by
  obtain ⟨len, visited, fault⟩ := map
  have each : ∀ rest, (∀ entry ∈ rest, entry ∈ visited) →
      FailsIn Error.Expected (Spec.entryList walk entries container rest) := by
    intro rest
    induction rest with
    | nil => exact fun _ => FailsIn.pure _
    | cons first rest ih =>
      obtain ⟨k, v⟩ := first
      intro within
      have present : (k, v) ∈ visited := within _ List.mem_cons_self
      refine FailsIn.bind (FailsIn.within _ ?_) fun _ =>
        ih fun entry later => within entry (List.mem_cons_of_mem _ later)
      refine FailsIn.bind (key_safe parses keys (keyTyped k v present)) fun _ => ?_
      split
      · exact FailsIn.pure _
      · rename_i validator held
        refine FailsIn.bind (FailsIn.read fun _ => nofun) fun skip => ?_
        cases skip with
        | true => exact FailsIn.pure _
        | false =>
          exact parts v (.entry present) _ _ _ (typed k v present) (values validator held)
            (loaded validator · held) (fun _ _ => ⟨kind, rfl⟩)
  refine FailsIn.bind (each visited fun _ present => present) fun _ => ?_
  cases fault with
  | none => exact FailsIn.pure _
  | some e => exact FailsIn.abort nofun

include parses in
/-- The items of a container are evaluated as its kind says. -/
theorem contents_safe {kind : DescriptorKind} {rules : FieldValidator R}
    (sound : FieldSound walk.env walk.pool kind rules)
    (loaded : ∀ nested, rules.Nests nested → (walk.validators nested).isSome)
    {value : Option (Val R)} (typed : ∀ v, value = some v → Typed walk.pool kind v)
    (parts : ∀ v w, value = some v → Part w v → Safe walk w) :
    FailsIn Error.Expected (Spec.contents walk rules value) := by
  cases value with
  | none => exact FailsIn.pure _
  | some v =>
    have held : Typed walk.pool kind v := typed v rfl
    cases v with
    | list l =>
      rcases Spec.contents_of_list walk rules l with ⟨items, single, listed, -, same⟩ | same
      · rw [same]
        obtain ⟨element, rfl, item⟩ := sound.items items listed
        cases held with
        | list elements =>
          exact list_safe item (fun nested inner => loaded nested (.element listed inner)) elements
            (fun w part => parts _ w rfl part) _ _
      · rw [same]
        exact FailsIn.pure _
    | map map =>
      rcases Spec.contents_of_map walk rules map with
        ⟨element, keys, values, key, single, mapped, -, same⟩ | same
      · rw [same]
        generalize described : kind = declared at held
        cases held with
        | @map key value _ keyTyped entries =>
          refine map_safe parses ?_ ?_ ?_ keyTyped entries (fun w part => parts _ w rfl part) _
          · rintro validator rfl
            obtain ⟨_, _, same, sound⟩ := sound.keys _ _ _ mapped
            cases described.symm.trans same
            exact sound
          · rintro validator rfl
            obtain ⟨_, _, same, sound⟩ := sound.values _ _ _ mapped
            cases described.symm.trans same
            exact sound
          · rintro validator nested rfl inner
            exact loaded nested (.entry mapped inner)
      · rw [same]
        exact FailsIn.pure _
    | _ => exact FailsIn.pure _

include parses in
theorem field_safe {kind : DescriptorKind} {rules : FieldValidator R}
    (sound : FieldSound walk.env walk.pool kind rules)
    (loaded : ∀ nested, rules.Nests nested → (walk.validators nested).isSome)
    {found : Except R.Error (Option (Val R))}
    (typed : ∀ v, found = .ok (some v) → Typed walk.pool kind v)
    (parts : ∀ v, found = .ok (some v) → Safe walk v ∧ ∀ w, Part w v → Safe walk w)
    (m : Message R) (frame : CelFrame R) :
    FailsIn Error.Expected (Spec.field walk rules m frame found) := by
  cases found with
  | error e => exact FailsIn.abort nofun
  | ok value =>
    refine FailsIn.bind (FailsIn.read fun _ => nofun) fun set => ?_
    split
    · exact FailsIn.within _ (FailsIn.push _ _ _)
    · split
      · exact FailsIn.pure _
      · refine FailsIn.bind (FailsIn.within _ ?_) fun _ => ?_
        · exact option_safe parses sound.value (fun nested held => loaded nested (.value held))
            frame rules.field (fun v same => typed v (same ▸ rfl))
            (fun v same => (parts v (same ▸ rfl)).1)
        · exact contents_safe parses sound loaded (fun v same => typed v (same ▸ rfl))
            (fun v w same => (parts v (same ▸ rfl)).2 w)

include parses in
theorem message_safe_of_parts {m : Message R} {validator : MessageValidator R}
    (sound : MessageSound walk validator m)
    (parts : ∀ v, Below v (.message m) → Safe walk v) (frame : CelFrame R) :
    FailsIn Error.Expected (Spec.message walk validator frame m) := by
  obtain ⟨has, get, encode⟩ := m
  refine FailsIn.bind ?_ fun _ => FailsIn.forM fun rules present => ?_
  · refine messageRules_fails (fun _ => nofun) walk validator frame _ (fun some _ => ?_)
      (fun _ => nofun)
    exact parsed_expected parses (sound.compiles some)
  · cases rules with
    | error e => exact FailsIn.abort nofun
    | ok rules =>
      obtain ⟨kind, fits, typed⟩ := sound.fields rules present
      refine field_safe parses fits (fun nested => sound.loaded rules nested present) typed
        (fun v got => ?_) _ frame
      have direct : Part v (.message ⟨has, get, encode⟩) := .field got
      exact ⟨parts v (.single direct), fun w part => parts w (.head part (.single direct))⟩

include parses compiled in
/-- Every value is evaluated by the validators of its kind without a read of
another one. -/
theorem value_safe (v : Val R) : Safe walk v := by
  induction v using Val.below_induction with
  | step v below =>
    intro kind validator bind typed sound loaded items
    have own : ∀ child, (∀ element, bind = .item element → (∃ a, v = .atom a) ∨ child.isSome) →
        FailsIn Error.Expected
          (validator.runRules walk bind child (some v) : SpecM R.Error Unit) := by
      intro child bound
      refine valueRules_safe parses sound (fun w same => ?_) fun element item => ?_
      · cases same
        exact typed
      · rcases bound element item with ⟨a, rfl⟩ | some
        · exact .inl ⟨a, rfl⟩
        · exact .inr some
    cases v with
    | message sub =>
      cases typed with
      | @message index _ fields =>
        have nests : validator.nested = some index := (sound.nested index).mpr rfl
        obtain ⟨entry, cached⟩ := Option.isSome_iff_exists.mp (loaded index nests)
        refine FailsIn.known (fun e failed => ?_) fun nested looked => ?_
        · unfold ValueValidator.nestedMessage at failed
          simp only [nests, Walk.validator, cached] at failed
          cases entry with
          | ok inner => cases failed
          | error error =>
            cases failed
            intro text same
            cases same
        · obtain ⟨none, -⟩ | ⟨index', inner, held, cached, rfl⟩ := nestedMessage_ok looked
          · rw [nests] at none
            cases none
          · rw [nests] at held
            cases held
            refine FailsIn.bind (own _ fun _ _ => .inr rfl) fun _ => ?_
            exact message_safe_of_parts parses (compiled index inner sub cached (.message fields))
              below _
    | atom a => exact own none fun _ _ => .inl ⟨a, rfl⟩
    | list l =>
      refine own none fun element item => ?_
      obtain ⟨single, rfl⟩ := items element item
      cases typed
    | map map =>
      refine own none fun element item => ?_
      obtain ⟨single, rfl⟩ := items element item
      cases typed

end Safe

/-- An error of a step of the walk is the specification's. -/
theorem observed_error {α : Type} {failFast : Bool} {x : Recording.Emit Violation (Error R.Error) α}
    {e : Error R.Error} (failed : (observed failFast x).result = .error (.error e)) :
    x.result = .error e := by
  obtain ⟨out, ended⟩ := x
  have mapped : ended.mapError Abort.error = .error (.error e) → ended = .error e := by
    cases ended with
    | ok a => exact nofun
    | error e' =>
      intro same
      cases same
      rfl
  cases failFast with
  | false => exact mapped failed
  | true =>
    cases out with
    | nil => exact mapped failed
    | cons first rest => cases failed

namespace Validator
variable {self : Validator R} {validators : ValidatorCache R}

/-- The validator of a type in a snapshot fits the typed messages of the type. -/
theorem published_sound (published : self.Published validators)
    (wrappers : self.pool.StandardWrappers) {index : MessageIndex}
    {validator : MessageValidator R} {m : Message R}
    (found : validators index = some (.ok validator))
    (typed : Typed self.pool (.singular (.message index)) (.message m)) :
    MessageSound (self.walk validators) validator m := by
  refine ⟨fun some => ?_, fun rules present => ?_, fun rules nested present nests => ?_⟩
  · obtain ⟨message, made, rfl⟩ := entry_compiled (published.within _ _ found)
    exact Builder.buildMessage_compiles made some
  · obtain ⟨message, made, rfl⟩ := entry_compiled (published.within _ _ found)
    obtain ⟨member, -⟩ := embed_compiled present
    obtain ⟨field, described, members, built⟩ := (Builder.builds_buildMessage made).compiled member
    obtain ⟨type, same, -⟩ := Builder.builds_field built.described
    have fits : FieldSound (self.builder self.resolved).env (self.builder self.resolved).pool
        field.kind rules := Builder.FieldBuilt.sound wrappers built
    refine ⟨field.kind, fits, fun v got => ?_⟩
    rw [same] at got
    cases typed with
    | message fields => exact fields field described type v got
  · obtain ⟨inner, cached⟩ := nested_compiled published found present nests
    exact Option.isSome_iff_exists.mpr ⟨_, cached⟩

/-- Whatever field and rules the builder accepts, the field is evaluated on
values of its kind without a read of another one, with any snapshot that has
the field's message type; and so is every message of a compiled type. Wrapper
messages are taken to hold what their names say. -/
theorem typed_fields_evaluate {Θ : Type} [DecidableEq Θ] (self : Validator R)
    {s : Shared R Θ} (reachable : self.Reachable s) {validators : ValidatorCache R}
    (snapshot : validators = s.cache ∨ ∃ t index, s.calls t = .returned index validators)
    (wrappers : self.pool.StandardWrappers) (parses : self.env.Parses) :
    (∀ types message field rules built,
      Builds ((self.builder types).buildField message field rules) (some built) →
      (∀ nested, messageType field = some nested → (validators nested).isSome) →
      ∀ m frame failFast path found,
        (∀ v, m.get built.field = .ok (some v) → Typed self.pool field.kind v) →
        ∀ text, (built.validate (self.walk validators) m frame (m.get built.field)
          ⟨failFast, path, false, found⟩).1 ≠ .error (.error (.unexpected text))) ∧
    ∀ index validator m, validators index = some (.ok validator) →
      Typed self.pool (.singular (.message index)) (.message m) →
      ∀ failFast typeName text,
        (self.walk validators).validate failFast validator m typeName ≠
          .error (.unexpected text) := by
  have published := reachable_published reachable snapshot
  have compiled : ∀ index validator m,
      (self.walk validators).validators index = some (.ok validator) →
      Typed (self.walk validators).pool (.singular (.message index)) (.message m) →
      MessageSound (self.walk validators) validator m :=
    fun index validator m found typed => published_sound published wrappers found typed
  have safe : ∀ v, Safe (self.walk validators) v := value_safe parses compiled
  constructor
  · intro types message field rules built done loaded m frame failFast path found typed text failed
    have made := Builder.builds_buildField done
    have nests : ∀ nested, built.Nests nested → (validators nested).isSome := by
      intro nested nests
      have type := made.nests nests
      rw [made.nestedType] at type
      exact loaded nested (Builder.heldType_messageType type)
    have related : (simulation R.Error failFast false).Rel
        (built.validate (self.walk validators) m frame (m.get built.field))
        (Spec.field (self.walk validators) built m frame (m.get built.field)) :=
      field_simulated _ (fun v _ => ⟨value_simulated _ _ v, fun w _ => value_simulated _ _ w⟩) _ _ _
    have sound : FieldSound (self.builder types).env (self.builder types).pool field.kind built :=
      made.sound wrappers
    rw [related path found] at failed
    exact field_safe parses sound nests typed (fun v _ => ⟨safe v, fun w _ => safe w⟩) m frame _ _
      (observed_error failed) text rfl
  · intro index validator m found typed failFast typeName text failed
    have ended := report_error failed
    exact message_safe_of_parts parses (compiled index validator m found typed)
      (fun v _ => safe v) _ _ _ ended text rfl

end Validator

/-- A message with a field of a type named as the wrapper of `bool`, which holds
any scalar, and the rules of the field: it must be true. -/
def wrapperPool (held : Scalar) : DescriptorPool where
  messages := [
    { fullName := "Holder"
      fields := [plainField 1 "flag" (.singular (.message 1))
        (some ⟨[], [], none, none, some (.bool ⟨some true, [], []⟩)⟩) one_allowed]
      oneofs := []
      messageRules := none
      numbersDistinct := by simp
      namesDistinct := by simp },
    { fullName := "google.protobuf.BoolValue"
      fields := [plainField 1 "value" (.singular (.scalar held)) none one_allowed]
      oneofs := []
      messageRules := none
      numbersDistinct := by simp
      namesDistinct := by simp },
    { fullName := FIELD_RULES
      fields := [plainField 13 "bool" (.singular (.message 3)) none thirteen_allowed]
      oneofs := []
      messageRules := none
      numbersDistinct := by simp
      namesDistinct := by simp },
    boolRulesMessage]
  enums := []
  extensions := []
  linked := by simp [boolRulesMessage, messageType]

def wrapperValidator (held : Scalar) : Validator ⟨Empty, Unit⟩ where
  descriptors := ⟨wrapperPool held, ⟨2, {}, {}, {}, {}, {}, {}, {}, {}⟩⟩
  env := ⟨fun _ _ => .ok ⟨fun _ _ => .ok (.bool true)⟩, fun name bytes => .ok ⟨name, bytes⟩⟩
  backend := Backend.bare
  reflection := ⟨fun _ _ => false, fun _ _ => [], fun _ => []⟩
  resolve _ := .ok ()

/-- The message whose wrapper holds a scalar. -/
def holding (a : Atom) : Message ⟨Empty, Unit⟩ where
  has _ := .ok true
  get _ := .ok (some (.message ⟨fun _ => .ok true, fun _ => .ok (some (.atom a)), .ok []⟩))
  encode := .ok []

theorem holding_typed {held : Scalar} {a : Atom} (same : a.valueType = held.valueType) :
    Typed (wrapperPool held) (.singular (.message 0)) (.message (holding a)) := by
  refine .message fun field member type v got => ?_
  obtain rfl := List.mem_singleton.mp member
  cases got
  refine .message fun field member type v got => ?_
  obtain rfl := List.mem_singleton.mp member
  cases got
  exact .scalar same

theorem wrapper_closure (held : Scalar) :
    closure (wrapperPool held) 0 (fun _ => none : ValidatorCache ⟨Empty, Unit⟩) = [1, 0] := by
  have holder : referenced (wrapperPool held) 0 = [1] := rfl
  have wrapper : referenced (wrapperPool held) 1 = [] := rfl
  simp [closure, FiniteGraph.search, typeGraph, holder, wrapper]

/-- A call for the holder builds both types. Its field does not take a string in
the wrapper, whatever the wrapper is declared to hold. -/
theorem wrapper_build (held : Scalar) : ∃ built field inner,
    (wrapperValidator held).build 0 (fun _ => none) = .ok built ∧
    Builds (((wrapperValidator held).builder (wrapperValidator held).resolved).buildField
      ((wrapperPool held).message 0) (plainField 1 "flag" (.singular (.message 1))
        (some ⟨[], [], none, none, some (.bool ⟨some true, [], []⟩)⟩) one_allowed)
      ⟨[], [], none, none, some (.bool ⟨some true, [], []⟩)⟩) (some field) ∧
    built 0 = some (.ok ⟨(), none, [], [], [.ok field]⟩) ∧ built 1 = some (.ok inner) ∧
    (field.validate ((wrapperValidator held).walk built) (holding (.string "on"))
        ⟨"Holder", holding (.string "on")⟩ ((holding (.string "on")).get field.field)
        (Violations.new false)).1 =
      .error (.error (.unexpected "expected a bool, the runtime read a string")) := by
  have types : closure (wrapperValidator held).pool 0
      (fun _ => none : ValidatorCache ⟨Empty, Unit⟩) = [1, 0] := wrapper_closure held
  have messages : ∀ types, closure ((wrapperValidator held).builder types).pool 0
      (fun _ => none : ValidatorCache ⟨Empty, Unit⟩) = [1, 0] := fun _ => wrapper_closure held
  simp only [Validator.build, resolve, Builder.buildClosure, types, messages]
  exact ⟨_, _, _, rfl, rfl, rfl, rfl, rfl⟩

/-- A pool may name a message as the wrapper of `bool` that holds a string. The
rules of `bool` are taken for it, and read the string. -/
theorem string_wrapper_mismatch : ∃ s validators built,
    (wrapperValidator .string).Reachable (s : Shared ⟨Empty, Unit⟩ Unit) ∧
    s.calls () = .returned 0 validators ∧ (validators 1).isSome ∧
    Builds (((wrapperValidator .string).builder (wrapperValidator .string).resolved).buildField
      ((wrapperPool .string).message 0) (plainField 1 "flag" (.singular (.message 1))
        (some ⟨[], [], none, none, some (.bool ⟨some true, [], []⟩)⟩) one_allowed)
      ⟨[], [], none, none, some (.bool ⟨some true, [], []⟩)⟩) (some built) ∧
    (wrapperValidator .string).env.Parses ∧
    Typed (wrapperPool .string) (.singular (.message 0)) (.message (holding (.string "on"))) ∧
    (built.validate ((wrapperValidator .string).walk validators) (holding (.string "on"))
        ⟨"Holder", holding (.string "on")⟩ ((holding (.string "on")).get built.field)
        (Violations.new false)).1 =
      .error (.error (.unexpected "expected a bool, the runtime read a string")) := by
  obtain ⟨built, field, inner, made, done, -, wrapper, mismatch⟩ := wrapper_build .string
  refine ⟨(wrapperValidator .string).alone 0 3, built, field,
    (wrapperValidator .string).alone_reachable 0 3,
    ((wrapperValidator .string).alone_returned made).2, wrapper ▸ rfl, done,
    ?_, holding_typed rfl, mismatch⟩
  intro compiles name bytes error failed
  cases failed

/-- The wrapper of `bool` that holds a `bool`, set to false. -/
theorem typed_fields_evaluate_wrapper : ∃ built field,
    (wrapperValidator .bool).build 0 (fun _ => none) = .ok built ∧
    Typed (wrapperPool .bool) (.singular (.message 0)) (.message (holding (.bool false))) ∧
    (∀ text, (field.validate ((wrapperValidator .bool).walk built) (holding (.bool false))
        ⟨"Holder", holding (.bool false)⟩ ((holding (.bool false)).get field.field)
        (Violations.new false)).1 ≠ .error (.error (.unexpected text))) ∧
    ∀ text, ((wrapperValidator .bool).walk built).validate false ⟨(), none, [], [], [.ok field]⟩
      (holding (.bool false)) "Holder" ≠ .error (.unexpected text) := by
  obtain ⟨built, field, inner, made, done, holder, wrapper, -⟩ := wrapper_build .bool
  have cached := ((wrapperValidator .bool).alone_returned made).1
  have typed : Typed (wrapperPool .bool) (.singular (.message 0))
      (.message (holding (.bool false))) := holding_typed rfl
  have wrappers : (wrapperPool .bool).StandardWrappers := by
    intro index name wraps
    rcases index with _ | _ | _ | _ | index
    · exact absurd wraps (by simp [wrapperRules, DescriptorPool.message, wrapperPool])
    · cases wraps
      exact ⟨_, .bool, rfl, rfl, rfl⟩
    · exact absurd wraps (by simp [wrapperRules, DescriptorPool.message, wrapperPool, FIELD_RULES])
    · exact absurd wraps
        (by simp [wrapperRules, DescriptorPool.message, wrapperPool, boolRulesMessage])
    · exact absurd wraps
        (by simp [wrapperRules, DescriptorPool.message, wrapperPool, DescriptorPool.emptyMessage])
  obtain ⟨fields, messages⟩ := (wrapperValidator .bool).typed_fields_evaluate
    ((wrapperValidator .bool).alone_reachable 0 3) (.inl cached.symm) wrappers
    (fun _ _ _ error failed => by cases failed)
  refine ⟨built, field, made, typed, ?_, messages 0 _ _ holder typed false "Holder"⟩
  refine fields _ _ _ _ field done (fun nested held => ?_) _ _ false [] [] (fun v got => ?_)
  · cases held
    rw [wrapper]
    rfl
  · cases typed with
    | message declared =>
      cases done
      exact declared _ List.mem_cons_self _ v got

end Protovalidate
