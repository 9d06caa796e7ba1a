import Protovalidate.Engines

/-!
# The CEL backend without the `cel` feature

The stub's environment compiles nothing, and patterns are for another engine. A rule
that needs CEL is an error, and what is built of the others is what is built with the
feature, where the two engines agree on the patterns that are set.
-/

namespace Protovalidate

open BuildM

namespace Cel

/-- Why the stub compiles nothing. -/
def NO_CEL : String :=
  "custom CEL rules require the `cel` feature of the protovalidate crate"

/-- The environment of the stub, which takes every file. -/
def stub : Env where
  compile _ _ := .error (.compilation NO_CEL)
  frame _ _ := .error (.unexpected "no CEL program exists to need a message frame")

end Cel

/-- An error that says that the stub compiles nothing, after where. -/
def NeedsCel (error : String) : Prop := ∃ place, error = place ++ Cel.NO_CEL

theorem NeedsCel.prefixed {error : String} (needs : NeedsCel error) (place : String) :
    NeedsCel (place ++ error) := by
  obtain ⟨before, rfl⟩ := needs
  exact ⟨place ++ before, (String.append_assoc ..).symm⟩

/-! ### What is built of rules that need no CEL -/

/-- No CEL expression is among what was compiled of a value's rules, and its checks
decide the same with either engine. -/
structure ValueValidator.Native {R : Runtime} (B other : Backend) (value : ValueValidator R) :
    Prop where
  custom : value.custom = none
  predefined : value.predefined = none
  checks : value.checks.Agree B other

def FieldKind.Native {R : Runtime} (B other : Backend) (kind : FieldKind R) : Prop :=
  match kind with
  | .singular => True
  | .list items => ∀ item ∈ items, item.value.Native B other
  | .map _ keys values =>
    (∀ item ∈ keys, item.value.Native B other) ∧ ∀ item ∈ values, item.value.Native B other

structure FieldValidator.Native {R : Runtime} (B other : Backend) (field : FieldValidator R) :
    Prop where
  value : field.value.Native B other
  kind : field.kind.Native B other

/-- How a step ends with the stub, against how it ends with an engine. -/
def Stands {α β : Type} (Q : α → β → Prop) : Except String α → Except String β → Prop
  | .error error, made => made = .error error ∨ NeedsCel error
  | .ok a, made => ∃ b, made = .ok b ∧ Q a b

/-- A step with the stub stands for one with an engine, unless that one panics. -/
def StandsFor {α β : Type} (Q : α → β → Prop) (x : BuildM α) (y : BuildM β) : Prop :=
  ∀ made, y.run = .ok made → ∃ stub, x.run = .ok stub ∧ Stands Q stub made

/-- The same result, of a kind. -/
def Alike {α : Type} (P : α → Prop) (a b : α) : Prop := a = b ∧ P a

section Steps
variable {α β γ δ : Type} {Q : α → β → Prop} {S : γ → δ → Prop} {x : BuildM α} {y : BuildM β}

theorem standsFor_same {P : α → Prop} {x : BuildM α} (holds : ∀ a, P a) :
    StandsFor (Alike P) x x := by
  intro made done
  refine ⟨made, done, ?_⟩
  cases made with
  | error e => exact .inl rfl
  | ok a => exact ⟨a, rfl, rfl, holds a⟩

theorem standsFor_pure {a : α} {b : β} (alike : Q a b) : StandsFor Q (pure a) (pure b) := by
  intro made done
  cases done
  exact ⟨.ok a, rfl, b, rfl, alike⟩

/-- An error that the stub gives can stand for anything. -/
theorem standsFor_throw {error : String} (needs : NeedsCel error) (y : BuildM β) :
    StandsFor Q (throw error : BuildM α) y :=
  fun _ _ => ⟨.error error, rfl, .inr needs⟩

theorem StandsFor.bind {f : α → BuildM γ} {g : β → BuildM δ} (first : StandsFor Q x y)
    (rest : ∀ a b, Builds y b → Q a b → StandsFor S (f a) (g b)) :
    StandsFor S (x >>= f) (y >>= g) := by
  intro made done
  rw [ExceptT.run_bind] at done ⊢
  cases ended : y.run with
  | error panic => simp [ended, Bind.bind, Except.bind] at done
  | ok made' =>
    rw [ended] at done
    obtain ⟨stub, ran, ends⟩ := first made' ended
    rw [ran]
    cases stub with
    | error e =>
      refine ⟨.error e, rfl, ?_⟩
      rcases ends with rfl | needs
      · cases done
        exact .inl rfl
      · exact .inr needs
    | ok a =>
      obtain ⟨b, rfl, alike⟩ := ends
      exact rest a b ended alike made done

theorem StandsFor.mapErr {f : String → String} (stands : StandsFor Q x y)
    (needs : ∀ error, NeedsCel error → NeedsCel (f error)) :
    StandsFor Q (x.mapErr f) (y.mapErr f) := by
  intro made done
  unfold BuildM.mapErr at done ⊢
  rw [ExceptT.run_mk] at done ⊢
  cases ended : y.run with
  | error panic => simp [ended, Except.map] at done
  | ok made' =>
    rw [ended] at done
    cases done
    obtain ⟨stub, ran, ends⟩ := stands made' ended
    rw [ran]
    refine ⟨_, rfl, ?_⟩
    cases stub with
    | error e =>
      rcases ends with rfl | needed
      · exact .inl rfl
      · exact .inr (needs e needed)
    | ok a =>
      obtain ⟨b, rfl, alike⟩ := ends
      exact ⟨b, rfl, alike⟩

theorem StandsFor.caught (stands : StandsFor Q x y) : StandsFor (Stands Q) x.caught y.caught := by
  intro made done
  unfold BuildM.caught at done ⊢
  rw [ExceptT.run_mk] at done ⊢
  cases ended : y.run with
  | error panic => simp [ended, Except.map] at done
  | ok made' =>
    rw [ended] at done
    cases done
    obtain ⟨stub, ran, ends⟩ := stands made' ended
    rw [ran]
    exact ⟨_, rfl, made', rfl, ends⟩

theorem standsFor_mapM {ι : Type} {f : ι → BuildM α} {g : ι → BuildM β} {items : List ι}
    (each : ∀ i ∈ items, StandsFor Q (f i) (g i)) :
    StandsFor (List.Forall₂ Q) (items.mapM f) (items.mapM g) := by
  induction items with
  | nil => exact standsFor_pure .nil
  | cons i rest ih =>
    simp only [List.mapM_cons]
    have others := ih fun j member => each j (List.mem_cons_of_mem i member)
    exact (each i List.mem_cons_self).bind fun a b _ first => others.bind fun as bs _ others =>
      standsFor_pure (.cons first others)

end Steps

namespace Builder
variable {R : Runtime} (self : Builder R) (other : Backend)

/-- The builder with the stub, and with its engine. -/
abbrev withStub : Builder R := { self with env := Cel.stub, backend := other }

/-- The stub compiles no expressions, and no expressions to none. -/
theorem compile_stub (expressions : CelExpressions) :
    StandsFor (Alike (· = none)) ((self.withStub other).compile expressions)
      (self.compile expressions) := by
  obtain ⟨rules, bound⟩ := expressions
  cases rules with
  | nil => exact standsFor_pure ⟨rfl, rfl⟩
  | cons rule rest =>
    have failed : (self.withStub other).compile ⟨rule :: rest, bound⟩ =
        throw ("failed to compile expression " ++ rule.id ++ ": " ++ Cel.NO_CEL) := rfl
    rw [failed]
    exact standsFor_throw ⟨_, rfl⟩ _

section Agrees
variable {self other} {patterns : String → Prop} (agrees : self.backend.Agrees other patterns)
include agrees

/-- Standard rules are built alike where the engines agree on their pattern. -/
theorem standardRules_stub {standard : RulesType}
    (sets : ∀ p, standard.pattern = some p → patterns p) (target : Target)
    (rulePrefix : List FieldPathElement) :
    (self.withStub other).standardRules target standard rulePrefix =
      self.standardRules target standard rulePrefix := by
  have same : ∀ enum, (self.withStub other).standardChecks (rulesName standard) standard rulePrefix
      enum = self.standardChecks (rulesName standard) standard rulePrefix enum := by
    intro enum
    simp only [standardChecks, checks_agree agrees sets, placedNumbers_agree agrees sets]
    rfl
  simp only [standardRules, same]
  rfl

theorem buildValue_stub (target : Target) {rules : FieldRules}
    (sets : ∀ p, rules.Sets p → patterns p) (rulePrefix : List FieldPathElement) :
    StandsFor (Alike fun built => built.1.Native self.backend other)
      ((self.withStub other).buildValue target rules rulePrefix)
      (self.buildValue target rules rulePrefix) := by
  refine (self.compile_stub other _).bind ?_
  rintro custom _ - ⟨rfl, rfl⟩
  cases set : rules.type with
  | none => exact standsFor_pure ⟨rfl, rfl, rfl, trivial⟩
  | some standard =>
    have own : ∀ p, standard.pattern = some p → patterns p := fun p some => sets p (.own set some)
    dsimp only
    rw [standardRules_stub agrees own]
    refine (standsFor_same (P := fun _ => True) fun _ => trivial).bind ?_
    rintro standard' _ made ⟨rfl, -⟩
    obtain ⟨-, enum, path, -, built⟩ := builds_standardRules made
    refine (self.compile_stub other standard'.predefined).bind ?_
    rintro predefined _ - ⟨rfl, rfl⟩
    exact standsFor_pure ⟨rfl, rfl, rfl, checks_decide agrees own built⟩

theorem buildItem_stub (target : Target) {rules : Option FieldRules}
    (sets : ∀ inner, rules = some inner → ∀ p, inner.Sets p → patterns p)
    (rulePrefix : List FieldPathElement) :
    StandsFor (Alike fun built => ∀ item ∈ built, item.value.Native self.backend other)
      ((self.withStub other).buildItem target rules rulePrefix)
      (self.buildItem target rules rulePrefix) := by
  unfold buildItem
  cases rules with
  | none =>
    refine standsFor_pure ⟨rfl, fun item member => ?_⟩
    obtain ⟨_, -, rfl⟩ := Option.map_eq_some_iff.mp member
    exact ⟨rfl, rfl, trivial⟩
  | some rules =>
    dsimp only
    split
    · exact standsFor_pure ⟨rfl, fun item member => by cases member⟩
    · refine (buildValue_stub agrees target (sets rules rfl) rulePrefix).bind ?_
      rintro built _ - ⟨rfl, native⟩
      refine standsFor_pure ⟨rfl, fun item member => ?_⟩
      cases member
      exact native

theorem buildKind_stub (field : FieldDescriptor) (target : Target) {remaining : Option RulesType}
    (items : ∀ inner, itemsOf remaining = some inner → ∀ p, inner.Sets p → patterns p)
    (keys : ∀ inner, (entriesOf remaining).1 = some inner → ∀ p, inner.Sets p → patterns p)
    (values : ∀ inner, (entriesOf remaining).2 = some inner → ∀ p, inner.Sets p → patterns p) :
    StandsFor (Alike (FieldKind.Native self.backend other))
      ((self.withStub other).buildKind field target remaining)
      (self.buildKind field target remaining) := by
  unfold buildKind
  split
  · exact standsFor_pure ⟨rfl, trivial⟩
  · refine ((buildItem_stub agrees _ items _).mapErr fun error needs => needs.prefixed _).bind ?_
    rintro items _ - ⟨rfl, native⟩
    exact standsFor_pure ⟨rfl, native⟩
  · refine ((buildItem_stub agrees _ keys _).mapErr fun error needs => needs.prefixed _).bind ?_
    rintro keys _ - ⟨rfl, nativeKeys⟩
    refine ((buildItem_stub agrees _ values _).mapErr fun error needs => needs.prefixed _).bind ?_
    rintro values _ - ⟨rfl, nativeValues⟩
    exact standsFor_pure ⟨rfl, nativeKeys, nativeValues⟩

theorem buildField_stub (message : MessageDescriptor) (field : FieldDescriptor)
    {rules : FieldRules} (sets : ∀ p, rules.Sets p → patterns p) :
    StandsFor (Alike fun built => ∀ validator ∈ built, validator.Native self.backend other)
      ((self.withStub other).buildField message field rules)
      (self.buildField message field rules) := by
  unfold buildField
  split
  · exact standsFor_pure ⟨rfl, fun _ member => by cases member⟩
  · refine (buildValue_stub agrees _ sets []).bind ?_
    rintro built _ made ⟨rfl, nativeValue⟩
    obtain ⟨items, entries⟩ := remaining_buildValue made
    refine (buildKind_stub agrees field _ (fun inner held p some => ?_)
      (fun inner held p some => ?_) fun inner held p some => ?_).bind ?_
    · exact sets p (.items (items ▸ held) some)
    · exact sets p (.keys (entries ▸ held) some)
    · exact sets p (.values (entries ▸ held) some)
    rintro kind _ - ⟨rfl, nativeKind⟩
    refine (standsFor_same (P := fun _ => True) fun _ => trivial).bind ?_
    rintro described _ - ⟨rfl, -⟩
    refine standsFor_pure ⟨rfl, fun validator member => ?_⟩
    cases member
    exact ⟨nativeValue, nativeKind⟩

end Agrees

/-- How a field is built with the stub, against how it is with an engine. -/
def FieldStands (B other : Backend) (stub made : Except String (FieldValidator R)) : Prop :=
  (stub = made ∧ ∀ validator, stub = .ok validator → validator.Native B other) ∨
    ∃ error, stub = .error error ∧ NeedsCel error

/-- What the rules of a field set, the rules of its descriptor do. -/
theorem sets_fieldRules {members : List String} {field : FieldDescriptor} {pattern : String}
    (sets : (fieldRules members field).Sets pattern) :
    ∃ rules, field.fieldRules = some rules ∧ rules.Sets pattern := by
  have type : (fieldRules members field).type =
      (field.fieldRules.getD ⟨[], [], none, none, none⟩).type := by
    unfold fieldRules
    dsimp only
    split <;> rfl
  cases held : field.fieldRules with
  | none =>
    rw [held] at type
    have unset : (fieldRules members field).type = none := type
    cases sets with
    | own set => rw [unset] at set; cases set
    | items set | keys set | values set => rw [unset] at set; cases set
  | some rules =>
    rw [held] at type
    have same : (fieldRules members field).type = rules.type := type
    refine ⟨rules, rfl, ?_⟩
    cases sets with
    | own set some => exact .own (same ▸ set) some
    | items set inner => exact .items (same ▸ set) inner
    | keys set inner => exact .keys (same ▸ set) inner
    | values set inner => exact .values (same ▸ set) inner

variable {self other} in
theorem fieldEntry_stub {patterns : String → Prop} (agrees : self.backend.Agrees other patterns)
    (message : MessageDescriptor) (members : List String) {field : FieldDescriptor}
    (sets : ∀ rules, field.fieldRules = some rules → ∀ p, rules.Sets p → patterns p) :
    StandsFor (Option.Rel (FieldStands self.backend other))
      ((self.withStub other).fieldEntry message members field)
      (self.fieldEntry message members field) := by
  have own : ∀ p, (fieldRules members field).Sets p → patterns p := by
    intro p set
    obtain ⟨rules, held, set⟩ := sets_fieldRules set
    exact sets rules held p set
  unfold fieldEntry
  split
  · exact standsFor_pure .none
  by_cases ignored : (fieldRules members field).ignore = some .always
  · have skipped : ∀ builder : Builder R,
        builder.buildField message field (fieldRules members field) = pure none := by
      intro builder
      rw [buildField, if_pos ignored]
    rw [skipped, skipped]
    exact standsFor_pure .none
  · refine (buildField_stub agrees message field own).caught.bind fun stub made done stands => ?_
    rw [builds_caught] at done
    cases stub with
    | ok stub =>
      obtain ⟨made, rfl, same, native⟩ := stands
      subst same
      cases stub with
      | none => exact standsFor_pure .none
      | some validator =>
        refine standsFor_pure (.some (.inl ⟨rfl, fun _ same => ?_⟩))
        cases same
        exact native validator rfl
    | error error =>
      rcases stands with rfl | needs
      · exact standsFor_pure (.some (.inl ⟨rfl, fun _ same => by cases same⟩))
      · cases made with
        | error _ => exact standsFor_pure (.some (.inr ⟨error, rfl, needs⟩))
        | ok made =>
          cases made with
          | none => exact absurd (buildField_ignored.mp done) ignored
          | some _ => exact standsFor_pure (.some (.inr ⟨error, rfl, needs⟩))

theorem messageCel_stub (message : MessageDescriptor) :
    StandsFor (Alike (· = none)) ((self.withStub other).messageCel message)
      (self.messageCel message) := by
  unfold messageCel
  cases message.messageRules with
  | none => exact standsFor_pure ⟨rfl, rfl⟩
  | some rules => exact self.compile_stub other _

/-- How a message is built with the stub, against how it is with an engine. -/
structure MessageStands (B other : Backend) (stub made : MessageValidator R) : Prop where
  messageType : stub.messageType = made.messageType
  cel : stub.cel = none ∧ made.cel = none
  messageOneofs : stub.messageOneofs = made.messageOneofs
  oneofs : stub.oneofs = made.oneofs
  fields : List.Forall₂ (FieldStands B other) stub.fields made.fields

theorem reduceOption_stands {B other : Backend}
    {stub made : List (Option (Except String (FieldValidator R)))}
    (stands : List.Forall₂ (Option.Rel (FieldStands B other)) stub made) :
    List.Forall₂ (FieldStands B other) stub.reduceOption made.reduceOption := by
  induction stands with
  | nil => exact .nil
  | cons first _ ih =>
    cases first with
    | none => exact ih
    | some stands => exact .cons stands ih

/-- The rules of oneofs need no CEL. -/
theorem oneofFields_withStub (message : MessageDescriptor) (seen names : List String) :
    (self.withStub other).oneofFields message seen names =
      self.oneofFields message seen names := by
  induction names generalizing seen with
  | nil => rfl
  | cons name rest ih =>
    simp only [oneofFields, ih]
    rfl

theorem messageOneofs_withStub (message : MessageDescriptor) (rules : List MessageOneofRule) :
    (self.withStub other).messageOneofs message rules = self.messageOneofs message rules := by
  have each : (self.withStub other).messageOneof message = self.messageOneof message := by
    funext oneof
    simp only [messageOneof, oneofFields_withStub]
  simp only [messageOneofs, each]

variable {self other} in
theorem buildMessage_stub (agrees : self.backend.Agrees other self.pool.Sets)
    (index : MessageIndex) :
    StandsFor (MessageStands self.backend other) ((self.withStub other).buildMessage index)
      (self.buildMessage index) := by
  unfold buildMessage
  dsimp only
  rw [messageOneofs_withStub]
  refine (standsFor_same (P := fun _ => True) fun _ => trivial).bind ?_
  rintro level _ - ⟨rfl, -⟩
  refine (self.messageCel_stub other _).bind ?_
  rintro cel _ - ⟨rfl, rfl⟩
  refine (standsFor_mapM fun field member => fieldEntry_stub agrees _ level.members
    fun rules held p set => ?_).bind fun stub made _ stands => ?_
  · exact ⟨index, field, member, rules, held, set⟩
  refine (standsFor_same (P := fun _ => True) fun _ => trivial).bind ?_
  rintro messageType _ - ⟨rfl, -⟩
  refine (standsFor_same (P := fun _ => True) fun _ => trivial).bind ?_
  rintro oneofs _ - ⟨rfl, -⟩
  exact standsFor_pure ⟨rfl, ⟨rfl, rfl⟩, rfl, rfl, reduceOption_stands stands⟩

/-- An error of a type that a field holds stands for whatever the field is. -/
theorem embed_stub {B : Backend} {f g : MessageIndex → Option String} {index : MessageIndex}
    {stub made : MessageValidator R} (stands : MessageStands B other stub made)
    (failures : ∀ compiled, .ok compiled ∈ made.fields →
      ∀ nested, nestedType compiled = some nested →
        f nested = g nested ∨ ∃ error, f nested = some error ∧ NeedsCel error) :
    MessageStands B other ((self.withStub other).embed f index stub)
      (self.embed g index made) := by
  refine ⟨stands.messageType, stands.cel, stands.messageOneofs, stands.oneofs, ?_⟩
  unfold embed
  rw [List.forall₂_map_left_iff, List.forall₂_map_right_iff]
  have fields := stands.fields
  generalize stub.fields = stubs at fields ⊢
  generalize made.fields = mades at fields failures ⊢
  induction fields with
  | nil => exact .nil
  | @cons first other _ _ alike _ ih =>
    refine .cons ?_ (ih fun compiled member => failures compiled (List.mem_cons_of_mem _ member))
    rcases alike with ⟨rfl, native⟩ | ⟨error, rfl, needs⟩
    · cases first with
      | error error => exact .inl ⟨rfl, fun _ same => by cases same⟩
      | ok compiled =>
        cases nests : nestedType compiled with
        | none =>
          simp only [embeddedError, nests]
          exact .inl ⟨rfl, native⟩
        | some nested =>
          rcases failures compiled List.mem_cons_self nested nests with same | ⟨error, same, needs⟩
          · have embedded : (self.withStub other).embeddedError f index compiled =
                self.embeddedError g index compiled := by
              simp only [embeddedError, nests, Option.bind_eq_bind, Option.bind_some, same]
              rfl
            dsimp only
            rw [embedded]
            cases self.embeddedError g index compiled with
            | none => exact .inl ⟨rfl, native⟩
            | some error => exact .inl ⟨rfl, fun _ same => by cases same⟩
          · simp only [embeddedError, nests, Option.bind_eq_bind, Option.bind_some, same]
            exact .inr ⟨_, rfl, needs.prefixed _⟩
    · exact .inr ⟨error, rfl, needs⟩

end Builder

namespace Validator
variable {R : Runtime} {self : Validator R} {other : Backend}

/-- The validator with the stub, and with its engine. -/
def withStub (self : Validator R) (other : Backend) : Validator R :=
  { self with env := Cel.stub, backend := other }

variable (agrees : self.backend.Agrees other self.pool.Sets)
include agrees

theorem builder_stands (index : MessageIndex) :
    StandsFor (Builder.MessageStands self.backend other)
      (((self.builder self.resolved).withStub other).buildMessage index)
      ((self.builder self.resolved).buildMessage index) :=
  Builder.buildMessage_stub agrees index

theorem failure_stub {index : MessageIndex} (built : (self.entry index).isSome) :
    (self.withStub other).failure index = self.failure index ∨
      ∃ error, (self.withStub other).failure index = some error ∧ NeedsCel error := by
  obtain ⟨entry, found⟩ := Option.isSome_iff_exists.mp built
  obtain ⟨message, made, -⟩ := entry_eq_some found
  obtain ⟨stub, ran, stands⟩ :=
    builder_stands agrees index message made
  have run : (((self.withStub other).builder (self.withStub other).resolved).buildMessage
      index).run = .ok stub := ran
  unfold failure
  rw [run, made]
  cases stub with
  | error error =>
    rcases stands with rfl | needs
    · exact .inl rfl
    · exact .inr ⟨error, rfl, needs⟩
  | ok stub =>
    obtain ⟨message, rfl, -⟩ := stands
    exact .inl rfl

/-- How the entry of a type is with the stub, when those of the types it holds are built. -/
theorem entry_stub {index : MessageIndex} {made : Built R} (found : self.entry index = some made)
    (held : ∀ nested, self.Holds index nested → (self.entry nested).isSome) :
    ∃ stub, (self.withStub other).entry index = some stub ∧
      Stands (Builder.MessageStands self.backend other) stub made := by
  obtain ⟨message, run, rfl⟩ := entry_eq_some found
  obtain ⟨stub, ran, stands⟩ :=
    builder_stands agrees index message run
  have entry : (self.withStub other).entry index = some (stub.map
      (((self.builder self.resolved).withStub other).embed (self.withStub other).failure index)) := by
    have run' : (((self.withStub other).builder (self.withStub other).resolved).buildMessage
      index).run = .ok stub := ran
    rw [Validator.entry, run']
    rfl
  refine ⟨_, entry, ?_⟩
  cases stub with
  | error error =>
    rcases stands with rfl | needs
    · exact .inl rfl
    · exact .inr needs
  | ok stub =>
    obtain ⟨message, rfl, stands⟩ := stands
    refine ⟨_, rfl, Builder.embed_stub _ _ stands fun compiled present nested nests => ?_⟩
    exact failure_stub agrees (held nested (holds_of_nestedType rfl run present nests))

end Validator

end Protovalidate
