import Protovalidate.EncodeFrames
import Protovalidate.Visits

/-!
# What a message is encoded for

The places that a walk gets to, from the validators and the message alone, decide
whether it encodes any message: it does so for a program that binds one, or for an item
that is a message and skipped if it is the zero value.
-/

namespace Protovalidate

open Recording Relation

namespace Encodes
variable {R : Runtime}

/-- A walk goes on after a part of it that ends well and, if it stops at the first
violation, reports none. -/
def Passes (failFast : Bool) (x : Emit Violation (Error R.Error) Unit) : Prop :=
  x.result = .ok () ∧ (failFast = true → x.out = [])

/-- Whether a value has rules that are CEL programs. -/
def hasPrograms (self : ValueValidator R) : Bool :=
  self.custom.isSome || self.predefined.isSome

/-- Whether there are CEL programs at a place that bind a message, a repeated field or a
map to `this`, and no scalar. -/
def binds : Visit R → Bool
  | .message validator _ _ => validator.cel.isSome
  | .missing _ => false
  | .value validator bind v => hasPrograms validator && (celScalar v bind.kind).isNone
  | .key validator kind k =>
    hasPrograms validator && (celScalar (some (.atom k) : Option (Val R)) kind).isNone

variable (walk : Walk R) (failFast : Bool)

/-- A place that a walk from another one gets to, also one that may stop at the first
violation. -/
abbrev Gets : Place R → Place R → Prop := ReflTransGen (Enters walk (Passes failFast))

/-- Among the items of a message's fields, a walk gets to one that is a message and
skipped if it is the zero value. -/
inductive Tests : Place R → Prop
  | element {validator : MessageValidator R} {frame : CelFrame R} {m : Message R}
      {path : List FieldPathElement} {rules : FieldValidator R} {l : ListView R}
      {items : ItemValidator R} {kind : Singular} {len index : Nat} {sub : Message R} :
    AtContents walk (Passes failFast) validator frame m path rules (.list l) →
    rules.kind = .list (some items) → rules.field.kind = .list kind →
    l.len = .ok len → index < len →
    Passes failFast ((List.range index).forM fun i =>
      Spec.item walk items rules.element kind i (l.get i) ⟨path, false⟩) →
    l.get index = .ok (some (.message sub)) → items.ignoreEmpty = true →
    Tests ⟨path, .message validator frame m⟩
  | entry {validator : MessageValidator R} {frame : CelFrame R} {m : Message R}
      {path : List FieldPathElement} {rules : FieldValidator R} {map : MapView R}
      {element : FieldPathElement} {keys : Option (ItemValidator R)} {values : ItemValidator R}
      {key : Scalar} {kind : Singular} {before after : List (Atom × Val R)} {k : Atom}
      {sub : Message R} :
    AtContents walk (Passes failFast) validator frame m path rules (.map map) →
    rules.kind = .map element keys (some values) → rules.field.kind = .map key kind →
    map.entries = before ++ (k, .message sub) :: after →
    Passes failFast (Spec.entryList walk ⟨.scalar key, kind, keys, some values⟩ element before
      ⟨path, false⟩) →
    Passes failFast (Spec.key walk ⟨.scalar key, kind, keys, some values⟩ k
      ⟨path ++ [element.withSubscript (keySubscript k)], false⟩) →
    values.ignoreEmpty = true →
    Tests ⟨path, .message validator frame m⟩

/-! ### The walk that counts goes on where the specification passes -/

/-- A state that a walk of a value goes on from. -/
structure Ready (s : State R) : Prop where
  sound : Sound walk s
  failFast : s.out.failFast = failFast
  forKey : s.out.forKey = false

/-- From a state, a step that counts goes on exactly if what it specifies passes. -/
structure Follows (s : State R) (y : CountM R Unit) (z : SpecM R.Error Unit) : Prop where
  passes : ∀ path, (y s).1 = .ok () ↔ Passes failFast (z ⟨path, false⟩)
  ready : (y s).1 = .ok () → Ready walk failFast (y s).2
  grown : Grown s (y s).2

section Follows
variable {walk failFast} {s : State R}

theorem observed_ok (x : Emit Violation (Error R.Error) Unit) :
    (observed failFast x).result = .ok () ↔ Passes failFast x := by
  obtain ⟨out, result⟩ := x
  cases failFast <;> cases out <;> cases result <;>
    simp [observed, Emit.cut, Passes, Except.mapError]

/-- Where it is makes no difference to whether a part of a walk passes. -/
theorem passes_anywhere {z : SpecM R.Error Unit} (relocates : (relocation R.Error).Rel z z)
    (path path' : List FieldPathElement) :
    Passes failFast (z ⟨path, false⟩) ↔ Passes failFast (z ⟨path', false⟩) := by
  have root : ∀ base, Passes failFast (z ⟨base, false⟩) ↔ Passes failFast (z ⟨[], false⟩) := by
    intro base
    have moved := relocates base [] false
    rw [List.append_nil] at moved
    simp [moved, Passes, Emit.mapOut]
  rw [root path, root path']

theorem follows {x : WalkM R.Error Unit} {y : CountM R Unit} {z : SpecM R.Error Unit}
    (tracks : Tracks walk s x y) (simulated : (simulation R.Error failFast false).Rel x z)
    (relocates : (relocation R.Error).Rel z z) (ready : Ready walk failFast s) :
    Follows walk failFast s y z := by
  have ends := tracks s ready.sound (Grown.refl s)
  have out : s.out = ⟨failFast, s.out.path, false, s.out.list⟩ := by
    rw [← ready.failFast, ← ready.forKey]
  have ran := simulated s.out.path s.out.list
  rw [← out] at ran
  refine ⟨fun path => ?_, fun done => ⟨ends.sound () done, ?_, ?_⟩, ends.grown⟩
  · rw [ends.result, ran, observed_ok]
    exact passes_anywhere relocates _ _
  · rw [ends.out, ran]
  · rw [ends.out, ran]

/-- The state inside of a part of a message, and how a step goes on from it. -/
def State.inside (element : FieldPathElement) (s : State R) : State R :=
  { s with out := { s.out with path := s.out.path ++ [⟨element, element.subscript⟩] } }

/-- Where the walk is, and what was found, makes no difference. -/
theorem Ready.move (ready : Ready walk failFast s) {out : Violations}
    (stops : out.failFast = s.out.failFast) (forKey : out.forKey = s.out.forKey) :
    Ready walk failFast { s with out := out } :=
  ⟨⟨ready.sound.toCounted.of_eq rfl rfl rfl, ready.sound.fresh, ready.sound.right⟩,
    stops.trans ready.failFast, forKey.trans ready.forKey⟩

theorem Ready.framed (ready : Ready walk failFast s) (made : Located R) :
    Ready walk failFast (s.framed made) :=
  ⟨ready.sound.framed made, ready.failFast, ready.forKey⟩

theorem Ready.inside (ready : Ready walk failFast s) (element : FieldPathElement) :
    Ready walk failFast (State.inside element s) :=
  ready.move rfl rfl

theorem Follows.inside {element : FieldPathElement} {y : CountM R Unit} {z : SpecM R.Error Unit}
    (follows : Follows walk failFast s (within element y) z) :
    Follows walk failFast (State.inside element s) y z where
  passes := follows.passes
  ready done := (follows.ready done).move rfl rfl
  grown := ⟨follows.grown.frames, follows.grown.encodes⟩

theorem Follows.within {element : FieldPathElement} {y : CountM R Unit} {z : SpecM R.Error Unit}
    (follows : Follows walk failFast (State.inside element s) y z) :
    Follows walk failFast s (within element y) (within element z) where
  passes path := follows.passes (path ++ [element])
  ready done := (follows.ready done).move rfl rfl
  grown := ⟨follows.grown.frames, follows.grown.encodes⟩

/-- What is known where a step went on. -/
theorem Follows.ended {y : CountM R Unit} {z : SpecM R.Error Unit} {s' : State R}
    (follows : Follows walk failFast s y z) (ran : y s = (.ok (), s')) :
    Ready walk failFast s' ∧ Grown s s' ∧ ∀ path, Passes failFast (z ⟨path, false⟩) := by
  have ready := follows.ready (congrArg Prod.fst ran)
  have grown := follows.grown
  rw [ran] at ready grown
  exact ⟨ready, grown, fun path => (follows.passes path).mp (congrArg Prod.fst ran)⟩

variable (ready : Ready walk failFast s)
include ready

theorem rules_follow (validator : ValueValidator R) {bind : Bind R} (valid : bind.Valid s)
    {child : Option (Framed R)} (own : ∀ frame, child = some frame → frame.Valid s)
    (value : Option (Val R)) :
    Follows walk failFast s (valueRules walk validator bind child value)
      (validator.runRules walk bind.unframed (child.map (·.toCelFrame)) value) :=
  follows (valueRules_tracks validator bind child value valid own)
    (valueRules_similar _ walk _ _ _ _) (valueRules_similar _ walk _ _ _ _) ready

theorem key_follows (entries : Entries R) (k : Atom) :
    Follows walk failFast s (validateKey walk entries k) (Spec.key walk entries k) :=
  follows (key_tracks entries k) (key_simulated walk entries k)
    (Spec.key_similar walk _ (fun _ _ => forKey_relocates) entries k) ready

theorem option_follows (validator : ValueValidator R) {bind : Bind R} (valid : bind.Valid s)
    (location : Location) (value : Option (Val R)) :
    Follows walk failFast s (validateOption walk validator bind location value)
      (Spec.option walk validator bind.unframed value) :=
  follows (option_tracks (fun v _ => value_tracked v) validator bind location valid)
    (option_simulated walk (fun v _ => value_simulated walk failFast v) validator _)
    (Spec.option_similar walk _ (fun v _ => value_relocates walk v) validator _) ready

theorem message_follows (validator : MessageValidator R) {frame : Framed R}
    (valid : frame.Valid s) (m : Message R) :
    Follows walk failFast s (validateMessage walk validator frame m)
      (Spec.message walk validator frame.toCelFrame m) :=
  follows (message_tracks (fun v _ => value_tracked v) validator valid)
    (message_simulated walk failFast m validator _)
    (Spec.message_similar walk _ (fun _ _ => forKey_relocates) (fun v _ => value_relocates walk v)
      validator _) ready

theorem list_follows (items : ItemValidator R) (container : FieldPathElement) (kind : Singular)
    (location : Location) (l : ListView R) :
    Follows walk failFast (State.inside container s) (validateList walk items kind location l)
      (Spec.list walk items container kind l) := by
  refine Follows.inside (follows ((tracking walk s).within container ?_)
    (list_simulated walk (fun v _ => value_simulated walk failFast v) items container kind)
    (Spec.list_similar walk _ (fun v _ => value_relocates walk v) items container kind) ready)
  exact list_tracks s (fun v _ => value_tracked v) items kind location

theorem map_follows (entries : Entries R) (container : FieldPathElement) (location : Location)
    (m : MapView R) :
    Follows walk failFast (State.inside container s) (validateMap walk entries location m)
      (Spec.map walk entries container m) := by
  refine Follows.inside (follows ((tracking walk s).within container ?_)
    (map_simulated walk (fun v _ => value_simulated walk failFast v) entries container)
    (Spec.map_similar walk _ (fun _ _ => forKey_relocates) (fun v _ => value_relocates walk v)
      entries container) ready)
  exact map_tracks s (fun v _ => value_tracked v) entries location

theorem skips_follow (items : ItemValidator R) (item : Val R) :
    ((skips items item s).1 = (items.skips item).mapError fun e => .error (.read e)) ∧
      (∀ skip, items.skips item = .ok skip → Ready walk failFast (skips items item s).2) := by
  have tracks : Tracks walk s (read (items.skips item)) (skips items item) := skips_tracks _ _
  have ends := tracks s ready.sound (Grown.refl s)
  cases held : items.skips item with
  | error e =>
    rw [held] at ends
    exact ⟨ends.result, fun _ same => by cases same⟩
  | ok found =>
    rw [held] at ends
    refine ⟨ends.result, fun _ _ => ⟨ends.sound _ ends.result, ?_, ?_⟩⟩
    · rw [ends.out]
      exact ready.failFast
    · rw [ends.out]
      exact ready.forKey

/-- An item that was tested is skipped as its validator says. -/
theorem skips_ran {items : ItemValidator R} {item : Val R} {skip : Bool} {s' : State R}
    (ran : skips items item s = (.ok skip, s')) :
    items.skips item = .ok skip ∧ Ready walk failFast s' := by
  obtain ⟨result, next⟩ := skips_follow ready items item
  rw [ran] at result next
  cases held : items.skips item with
  | error e =>
    rw [held] at result
    cases result
  | ok found =>
    rw [held] at result
    cases result
    exact ⟨rfl, next _ held⟩

theorem skips_runs {items : ItemValidator R} {item : Val R} {skip : Bool}
    (held : items.skips item = .ok skip) :
    ∃ s', skips items item s = (.ok skip, s') ∧ Ready walk failFast s' := by
  obtain ⟨result, next⟩ := skips_follow ready items item
  rw [held] at result
  exact ⟨_, Prod.ext result rfl, next _ held⟩

end Follows

section Steps
variable {walk failFast} {α β : Type} {s s' : State R}

theorem bind_ran {x : CountM R α} {f : α → CountM R β} {a : α} (ran : x s = (.ok a, s')) :
    (x >>= f) s = f a s' := by
  change CountM.andThen x f s = f a s'
  rw [CountM.andThen, ran]

theorem read_ran {r : Except R.Error α} {a : α} (ran : (read r : CountM R α) s = (.ok a, s')) :
    r = .ok a ∧ s' = s := by
  cases r with
  | error e => cases ran
  | ok found =>
    cases ran
    exact ⟨rfl, rfl⟩

/-- An item and its position in a list. -/
theorem zipIdx_split {ι : Type} {items : List ι} {first index : Nat} {i : ι}
    {before after : List (ι × Nat)}
    (split : items.zipIdx first = before ++ (i, index) :: after) :
    ∃ earlier later, items = earlier ++ i :: later ∧ before = earlier.zipIdx first ∧
      index = first + earlier.length := by
  induction before generalizing items first with
  | nil =>
    cases items with
    | nil => simp at split
    | cons head rest =>
      obtain ⟨same, -⟩ := List.cons.inj split
      cases same
      exact ⟨[], rest, rfl, rfl, rfl⟩
  | cons head before ih =>
    cases items with
    | nil => simp at split
    | cons item rest =>
      obtain ⟨same, others⟩ := List.cons.inj split
      obtain ⟨earlier, later, rfl, rfl, rfl⟩ := ih others
      cases same
      exact ⟨item :: earlier, later, rfl, rfl, by simp; omega⟩

variable (walk) in
/-- The field of a message that a validator at a position is for, or why its rules did not
compile. -/
def fieldEntry (frame : Framed R) (m : Message R) :
    Except String (FieldValidator R) × Nat → CountM R Unit
  | (.error error, _) => abort (.compilation error)
  | (.ok rules, index) =>
    validateField walk rules m frame (frame.location ++ [.field index]) (m.get rules.field)

theorem validateMessage_eq (validator : MessageValidator R) (frame : Framed R) (m : Message R) :
    validateMessage walk validator frame m = (do
      messageRules walk validator frame m
      validator.fields.zipIdx.forM (fieldEntry walk frame m)) := by
  cases m
  rfl

theorem validateEntries_eq (entries : Entries R) (location : Location)
    (visited : List (Atom × Val R)) (first : Nat) :
    validateEntries walk entries location first visited =
      (visited.zipIdx first).forM fun entry => validateEntry entry.1.1
        (validateEntryValues walk entries (location ++ [.entry entry.2]) entry.1) := by
  induction visited generalizing first with
  | nil => rfl
  | cons entry rest ih => exact congrArg (_ >>= fun _ => ·) (ih (first + 1))

/-- What comes before a field ended well, and so did the message with those fields only. -/
theorem message_ran {validator : MessageValidator R} {frame : Framed R} {m : Message R}
    {before : List (Except String (FieldValidator R))} {s'' : State R}
    (own : messageRules walk validator frame m s = (.ok (), s'))
    (earlier : before.zipIdx.forM (fieldEntry walk frame m) s' = (.ok (), s'')) :
    validateMessage walk { validator with fields := before } frame m s = (.ok (), s'') := by
  rw [validateMessage_eq]
  exact (bind_ran own).trans earlier

end Steps

end Encodes

end Protovalidate
