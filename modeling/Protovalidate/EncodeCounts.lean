import Protovalidate.Encodes

/-!
# How often a message is encoded

The walk that counts ends as the walk does, whatever it starts from. Each frame is
encoded once at most, and each message value has one frame at most, so that it is
encoded for CEL once at most.
-/

namespace Protovalidate

open Recording

namespace Encodes
variable {R : Runtime}

/-- What the counts are, also where the walk ended with an error. -/
structure Counted (s : State R) : Prop where
  once : ∀ id, s.frameEncodes id ≤ 1
  failing : s.failed = true → s.encodes ≠ 0

/-- The counts do not depend on the rest of the state. -/
theorem Counted.of_eq {s s' : State R} (counted : Counted s)
    (frameEncodes : s'.frameEncodes = s.frameEncodes) (encodes : s'.encodes = s.encodes)
    (failed : s'.failed = s.failed) : Counted s' := by
  constructor
  · intro id
    rw [frameEncodes]
    exact counted.once id
  · rw [encodes, failed]
    exact counted.failing

variable (walk : Walk R)

/-- A frame that is not parsed was not encoded, and one that is was parsed from its own
message. -/
structure Sound (s : State R) : Prop extends Counted s where
  fresh : ∀ id, s.parsed id = none → s.frameEncodes id = 0
  right : ∀ id frame, s.parsed id = some frame →
    ∃ made, s.frames[id]? = some made ∧ made.toCelFrame.parsed walk = .ok frame

/-- The frames that were made stay, and nothing is counted less. -/
structure Grown (s s' : State R) : Prop where
  frames : s.frames <+: s'.frames
  encodes : s.encodes ≤ s'.encodes

/-- The counting walk ends as the walk does. -/
structure Ends {α : Type} (s : State R) (expected : Except (Abort R.Error) α × Violations)
    (got : Except (Abort R.Error) α × State R) : Prop where
  result : got.1 = expected.1
  out : got.2.out = expected.2
  grown : Grown s got.2
  counted : Counted got.2
  sound : ∀ a, got.1 = .ok a → Sound walk got.2

/-- A step of the walk, and one that counts, from any state after another one. -/
def Tracks {α : Type} (base : State R) (x : WalkM R.Error α) (y : CountM R α) : Prop :=
  ∀ s, Sound walk s → Grown base s → Ends walk s (x s.out) (y s)

/-- A frame is the one that was made with its number. -/
def Framed.Valid (s : State R) (frame : Framed R) : Prop :=
  s.frames[frame.id]? = some frame.toLocated

def Bind.Valid (s : State R) : Bind R → Prop
  | .field frame _ => frame.Valid s
  | .item _ => True

theorem Grown.refl (s : State R) : Grown s s := ⟨List.prefix_rfl, Nat.le_refl _⟩

theorem Grown.trans {s s' s'' : State R} (first : Grown s s') (second : Grown s' s'') :
    Grown s s'' :=
  ⟨first.frames.trans second.frames, first.encodes.trans second.encodes⟩

theorem Framed.Valid.mono {s s' : State R} {frame : Framed R} (valid : frame.Valid s)
    (grown : Grown s s') : frame.Valid s' := by
  obtain ⟨more, same⟩ := grown.frames
  rw [Framed.Valid, ← same, List.getElem?_append_left]
  · exact valid
  · exact (List.getElem?_eq_some_iff.mp valid).1

theorem Bind.Valid.mono {s s' : State R} {bind : Bind R} (valid : bind.Valid s)
    (grown : Grown s s') : bind.Valid s' := by
  cases bind with
  | field frame bound => exact Framed.Valid.mono valid grown
  | item kind => trivial

section Tracked
variable {walk} {α β : Type} {base : State R}

/-- A step that ends in the state it started from, but for the violations. -/
theorem ends_same {s : State R} (sound : Sound walk s) (result : Except (Abort R.Error) α)
    (out : Violations) : Ends walk s (result, out) (result, { s with out := out }) where
  result := rfl
  out := rfl
  grown := ⟨List.prefix_rfl, Nat.le_refl _⟩
  counted := sound.toCounted.of_eq rfl rfl rfl
  sound _ _ := ⟨sound.toCounted.of_eq rfl rfl rfl, sound.fresh, sound.right⟩

theorem tracks_bind {x : WalkM R.Error α} {y : CountM R α} {f : α → WalkM R.Error β}
    {g : α → CountM R β} (first : Tracks walk base x y)
    (next : ∀ a, Tracks walk base (f a) (g a)) : Tracks walk base (x >>= f) (y >>= g) := by
  intro s sound grown
  have ends := first s sound grown
  change Ends walk s (WalkM.andThen x f s.out) (CountM.andThen y g s)
  unfold WalkM.andThen CountM.andThen
  rcases walked : x s.out with ⟨expected, out⟩
  rcases counted : y s with ⟨got, s'⟩
  rw [walked, counted] at ends
  obtain rfl : got = expected := ends.result
  obtain rfl : s'.out = out := ends.out
  cases got with
  | error e => exact ⟨rfl, rfl, ends.grown, ends.counted, fun _ same => by cases same⟩
  | ok a =>
    have later := next a s' (ends.sound a rfl) (grown.trans ends.grown)
    exact ⟨later.result, later.out, ends.grown.trans later.grown, later.counted, later.sound⟩

theorem tracks_around {x : WalkM R.Error α} {y : CountM R α} (enter : Violations → Violations)
    (leave : Violations → Violations → Violations) (tracks : Tracks walk base x y) :
    Tracks walk base
      (fun out => ((x (enter out)).1, leave out (x (enter out)).2))
      (CountM.around enter leave y) := by
  intro s sound grown
  have inside := tracks { s with out := enter s.out }
    ⟨sound.toCounted.of_eq rfl rfl rfl, sound.fresh, sound.right⟩ ⟨grown.frames, grown.encodes⟩
  refine ⟨inside.result, congrArg (leave s.out) inside.out,
    ⟨inside.grown.frames, inside.grown.encodes⟩, inside.counted.of_eq rfl rfl rfl,
    fun a done => ?_⟩
  have sound' := inside.sound a done
  exact ⟨sound'.toCounted.of_eq rfl rfl rfl, sound'.fresh, sound'.right⟩

variable (walk base) in
/-- What does not make a frame, or need one, is the same with counts. -/
def tracking : Similarity (WalkM R.Error) (CountM R) where
  Rel := Tracks walk base
  pure a := fun s sound _ => ends_same sound (.ok a) s.out
  bind := tracks_bind
  record _ := fun _ sound _ => ends_same sound _ _
  abort e := fun s sound _ => ends_same sound (.error (.error e)) s.out
  within element _ _ rel := tracks_around
    (fun out => { out with path := out.path ++ [⟨element, element.subscript⟩] })
    (fun _ out => { out with path := out.path.dropLast }) rel

/-- The state with one more frame. -/
def State.framed (s : State R) (made : Located R) : State R :=
  { s with frames := s.frames ++ [made] }

theorem Grown.framed (s : State R) (made : Located R) : Grown s (s.framed made) :=
  ⟨List.prefix_append _ _, Nat.le_refl _⟩

theorem Framed.valid_framed (s : State R) (made : Located R) :
    Framed.Valid (s.framed made) ⟨made, s.frames.length⟩ := by
  simp [Framed.Valid, State.framed]

theorem Sound.framed {s : State R} (sound : Sound walk s) (made : Located R) :
    Sound walk (s.framed made) := by
  refine ⟨sound.toCounted.of_eq rfl rfl rfl, sound.fresh, fun id frame parsed => ?_⟩
  obtain ⟨old, found, right⟩ := sound.right id frame parsed
  refine ⟨old, ?_, right⟩
  exact (List.getElem?_append_left (List.getElem?_eq_some_iff.mp found).1).trans found

/-- Makes a frame, which is not parsed before. -/
theorem tracks_frame {made : Located R} {x : WalkM R.Error β} {y : Framed R → CountM R β}
    (rest : ∀ frame base', frame.toLocated = made → Grown base base' → frame.Valid base' →
      Tracks walk base' x (y frame)) :
    Tracks walk base x (CountM.frame made >>= y) := by
  intro s sound grown
  have more := Grown.framed s made
  have later := rest ⟨made, s.frames.length⟩ _ rfl (grown.trans more)
    (Framed.valid_framed s made) _ (sound.framed made) (Grown.refl _)
  exact ⟨later.result, later.out, more.trans later.grown, later.counted, later.sound⟩

/-- A frame is encoded when it is first needed. -/
theorem parsed_tracks {frame : Framed R} (valid : frame.Valid base) :
    Tracks walk base (orAbort (frame.toCelFrame.parsed walk)) (frame.parsed walk) := by
  intro s sound grown
  have known : s.frames[frame.id]? = some frame.toLocated := valid.mono grown
  unfold Framed.parsed
  cases parsed : s.parsed frame.id with
  | some found =>
    obtain ⟨made, same, right⟩ := sound.right _ _ parsed
    rw [known] at same
    cases same
    rw [right]
    exact ends_same sound (.ok found) s.out
  | none =>
    have unread := sound.fresh _ parsed
    have counted : Counted { s.encode frame.message with
        frameEncodes :=
          Function.update s.frameEncodes frame.id (s.frameEncodes frame.id + 1) } := by
      refine ⟨fun id => ?_, fun _ => Nat.succ_ne_zero _⟩
      by_cases same : id = frame.id
      · subst same
        simp [unread]
      · simpa [Function.update_of_ne same] using sound.once id
    dsimp only
    cases result : frame.toCelFrame.parsed walk with
    | error e => exact ⟨rfl, rfl, ⟨List.prefix_rfl, Nat.le_succ _⟩, counted,
        fun _ same => by cases same⟩
    | ok found =>
      refine ⟨rfl, rfl, ⟨List.prefix_rfl, Nat.le_succ _⟩, counted.of_eq rfl rfl rfl, fun _ _ =>
        ⟨counted.of_eq rfl rfl rfl, fun id empty => ?_, fun id f held => ?_⟩⟩
      · by_cases same : id = frame.id
        · subst same
          simp at empty
        · simp only [Function.update_of_ne same] at empty ⊢
          exact sound.fresh id empty
      · by_cases same : id = frame.id
        · subst same
          simp only [Function.update_self, Option.some.injEq] at held
          subst held
          exact ⟨frame.toLocated, known, result⟩
        · simp only [Function.update_of_ne same] at held
          exact sound.right id f held

/-- An item is skipped as in the walk, and counted if it is encoded. -/
theorem skips_tracks (items : ItemValidator R) (item : Val R) :
    Tracks walk base (read (items.skips item)) (skips items item) := by
  unfold ItemValidator.skips skips
  cases items.ignoreEmpty with
  | false => exact (tracking walk base).pure _
  | true =>
    cases item with
    | message m =>
      intro s sound grown
      have sound' : Sound walk (s.encode m) :=
        ⟨⟨sound.once, fun _ => Nat.succ_ne_zero _⟩, sound.fresh, sound.right⟩
      have more : Grown s (s.encode m) := ⟨List.prefix_rfl, Nat.le_succ _⟩
      have later := read_similar (tracking walk base) (Protovalidate.isEmptyItem (.message m)) _
        sound' (grown.trans more)
      exact ⟨later.result, later.out, more.trans later.grown, later.counted, later.sound⟩
    | _ => exact read_similar (tracking walk base) _

/-! ### The rules of a value -/

/-- A frame that `this` is bound through. -/
theorem bound_tracks {frame : Framed R} (valid : frame.Valid base) (f : Frame → This) :
    Tracks walk base (orAbort do return f (← frame.toCelFrame.parsed walk))
      (do return f (← frame.parsed walk)) := by
  have split : (orAbort do return f (← frame.toCelFrame.parsed walk) : WalkM R.Error This) =
      orAbort (frame.toCelFrame.parsed walk) >>= fun parsed => pure (f parsed) := by
    cases frame.toCelFrame.parsed walk <;> rfl
  rw [split]
  exact tracks_bind (parsed_tracks valid) fun parsed => (tracking walk base).pure _

theorem celThis_scalar {value : Option (Val R)} {bind : Bind R} {scalar : ScalarValue}
    (found : celScalar value bind.unframed.kind = some scalar) (child : Option (CelFrame R)) :
    Protovalidate.celThis walk value bind.unframed child = .ok (.scalar scalar) := by
  cases bind with
  | field frame bound =>
    rw [Bind.unframed, CelBind.kind] at found
    cases held : bound.kind <;> rw [held] at found <;>
      simp only [Protovalidate.celThis, Bind.unframed, held, found]
  | item kind =>
    rw [Bind.unframed, CelBind.kind] at found
    simp only [Protovalidate.celThis, Bind.unframed, found]

theorem celThis_field {value : Option (Val R)} {frame : Framed R} {bound : Field R}
    (none : celScalar value (Bind.field frame bound).unframed.kind = none)
    (child : Option (CelFrame R)) :
    Protovalidate.celThis walk value (.field frame.toCelFrame bound) child =
      (do return .field (← frame.toCelFrame.parsed walk) (fieldNumber bound.number)) := by
  rw [Bind.unframed, CelBind.kind] at none
  cases held : bound.kind <;> rw [held] at none <;>
    simp only [Protovalidate.celThis, held, none]

theorem celThis_tracks (value : Option (Val R)) {bind : Bind R} (valid : bind.Valid base)
    {child : Option (Framed R)} (own : ∀ frame, child = some frame → frame.Valid base) :
    Tracks walk base
      (orAbort (Protovalidate.celThis walk value bind.unframed (child.map (·.toCelFrame))))
      (celThis walk value bind child) := by
  cases scalar : celScalar value bind.unframed.kind with
  | some found =>
    simp only [celThis_scalar scalar, celThis, scalar]
    exact (tracking walk base).pure _
  | none =>
    simp only [celThis, scalar]
    cases bind with
    | field frame bound =>
      rw [Bind.unframed, celThis_field scalar]
      exact bound_tracks valid fun parsed => .field parsed _
    | item kind =>
      rw [Bind.unframed, CelBind.kind] at scalar
      cases child with
      | none =>
        simp only [Protovalidate.celThis, Bind.unframed, scalar, Option.map_none]
        exact (tracking walk base).abort _
      | some frame =>
        simp only [Protovalidate.celThis, Bind.unframed, scalar, Option.map_some]
        exact bound_tracks (own frame rfl) This.message

theorem programs_tracks (programs : Option CelPrograms) (value : Option (Val R)) {bind : Bind R}
    (valid : bind.Valid base) {child : Option (Framed R)}
    (own : ∀ frame, child = some frame → frame.Valid base) :
    Tracks walk base
      (Protovalidate.runPrograms walk programs value bind.unframed (child.map (·.toCelFrame)))
      (runPrograms walk programs value bind child) := by
  cases programs with
  | none => exact (tracking walk base).pure _
  | some programs =>
    exact tracks_bind (celThis_tracks value valid own) fun this =>
      celRun_similar (tracking walk base) programs this

theorem valueRules_tracks (validator : ValueValidator R) (bind : Bind R)
    (child : Option (Framed R)) (value : Option (Val R)) (valid : bind.Valid base)
    (own : ∀ frame, child = some frame → frame.Valid base) :
    Tracks walk base
      (validator.runRules walk bind.unframed (child.map (·.toCelFrame)) value)
      (valueRules walk validator bind child value) := by
  refine tracks_bind (programs_tracks _ _ valid own) fun _ => ?_
  refine tracks_bind (check_similar (tracking walk base) walk _ _ _) fun _ => ?_
  exact programs_tracks _ _ valid own

theorem messageRules_tracks (validator : MessageValidator R) {frame : Framed R}
    (valid : frame.Valid base) (message : Message R) :
    Tracks walk base (validator.runRules walk frame.toCelFrame message)
      (messageRules walk validator frame message) := by
  refine tracks_bind ?_ fun _ => tracks_bind ?_ fun _ => ?_
  · cases validator.cel with
    | none => exact (tracking walk base).pure _
    | some programs =>
      exact tracks_bind (parsed_tracks valid) fun parsed =>
        celRun_similar (tracking walk base) programs _
  · exact (tracking walk base).forM _ fun oneof _ => messageOneof_similar (tracking walk base) _ _
  · exact (tracking walk base).forM _ fun oneof _ => oneofRequired_similar (tracking walk base) _ _

/-! ### The walk -/

theorem nested_tracks {validator : ValueValidator R} {location : Location} {sub : Message R}
    {x : Option (MessageValidator R × CelFrame R) → WalkM R.Error β}
    {y : Option (MessageValidator R × Framed R) → CountM R β}
    (rest : ∀ nested base', Grown base base' →
      (∀ found, nested = some found → Framed.Valid base' found.2) →
      Tracks walk base' (x (nested.map fun found => (found.1, found.2.toCelFrame))) (y nested)) :
    Tracks walk base (orAbort (validator.nestedMessage walk sub) >>= x)
      (nestedMessage walk validator location sub >>= y) := by
  unfold nestedMessage
  cases validator.nestedMessage walk sub with
  | error e => exact (tracking walk base).abort _
  | ok nested =>
    cases nested with
    | none => exact rest none base (Grown.refl _) fun _ same => by cases same
    | some found =>
      obtain ⟨nested, child⟩ := found
      have made : Tracks walk base (x (some (nested, child)))
          (CountM.frame ⟨child, location⟩ >>= fun frame => y (some (nested, frame))) := by
        refine tracks_frame fun frame base' same grown valid => ?_
        have later := rest (some (nested, frame)) base' grown fun _ same => ?_
        · rwa [Option.map_some, same] at later
        · cases same
          exact valid
      exact made

theorem key_tracks (entries : Entries R) (k : Atom) :
    Tracks walk base (Protovalidate.validateKey walk entries k) (validateKey walk entries k) := by
  unfold Protovalidate.validateKey validateKey
  cases entries.keys with
  | none => exact (tracking walk base).pure _
  | some keys =>
    refine tracks_bind (skips_tracks keys _) fun skip => ?_
    refine (tracking walk base).ite ((tracking walk base).pure _) ?_
    have rules : Tracks walk base
        (keys.value.runRules walk (.item entries.key) none (some (.atom k)))
        (valueRules walk keys.value (.item entries.key) none (some (.atom k))) :=
      valueRules_tracks keys.value (.item entries.key) none _ trivial fun _ same => by cases same
    exact tracks_around (fun out => { out with forKey := true })
      (fun _ out => { out with forKey := false }) rules

/-- A value is walked alike wherever the walk is. -/
def Tracked (walk : Walk R) (v : Val R) : Prop :=
  ∀ (base : State R) (validator : ValueValidator R) (bind : Bind R) (location : Location),
    bind.Valid base → Tracks walk base (validator.validate walk bind.unframed v)
      (validateValue walk validator bind location v)

theorem option_tracks {found : Option (Val R)} (parts : ∀ v, found = some v → Tracked walk v)
    (validator : ValueValidator R) (bind : Bind R) (location : Location)
    (valid : bind.Valid base) :
    Tracks walk base (validator.validateOption walk bind.unframed found)
      (validateOption walk validator bind location found) := by
  cases found with
  | none => exact valueRules_tracks validator bind none none valid fun _ same => by cases same
  | some v => exact parts v rfl base validator bind location valid

theorem item_tracks {found : Except R.Error (Option (Val R))}
    (parts : ∀ v, found = .ok (some v) → Tracked walk v) (items : ItemValidator R)
    (kind : Singular) (location : Location) (index : Nat) :
    Tracks walk base (items.validateItem walk kind index found)
      (validateItem walk items kind location index found) := by
  cases found with
  | error e => exact (tracking walk base).abort _
  | ok found =>
    cases found with
    | none => exact (tracking walk base).pure _
    | some v =>
      refine tracks_bind (skips_tracks items v) fun skip => ?_
      refine (tracking walk base).ite ((tracking walk base).pure _) (tracks_bind ?_ fun _ => ?_)
      · exact fun s sound _ => ends_same sound (.ok ()) _
      · exact parts v rfl base items.value (.item kind) _ trivial

variable (base) in
theorem list_tracks {l : ListView R} (parts : ∀ v, Part v (.list l) → Tracked walk v)
    (items : ItemValidator R) (kind : Singular) (location : Location) :
    Tracks walk base (items.validateList walk kind l)
      (validateList walk items kind location l) := by
  obtain ⟨len, get⟩ := l
  refine tracks_bind (read_similar (tracking walk base) _) fun len => ?_
  refine (tracking walk base).forM _ fun index _ => ?_
  exact item_tracks (fun v got => parts v (.element got)) items kind location index

theorem entry_tracks {k : Atom} {v : Val R} (part : Tracked walk v) (entries : Entries R)
    (location : Location) :
    Tracks walk base (Protovalidate.validateEntryValues walk entries (k, v))
      (validateEntryValues walk entries location (k, v)) := by
  refine tracks_bind (key_tracks entries k) fun _ => ?_
  cases entries.values with
  | none => exact (tracking walk base).pure _
  | some values =>
    refine tracks_bind (skips_tracks values v) fun skip => ?_
    refine (tracking walk base).ite ((tracking walk base).pure _) ?_
    exact part base values.value (.item entries.value) location trivial

theorem entries_tracks {visited : List (Atom × Val R)} (parts : ∀ e ∈ visited, Tracked walk e.2)
    (entries : Entries R) (location : Location) (index : Nat) :
    Tracks walk base (Protovalidate.validateEntries walk entries visited)
      (validateEntries walk entries location index visited) := by
  induction visited generalizing index with
  | nil => exact (tracking walk base).pure _
  | cons first rest ih =>
    obtain ⟨k, v⟩ := first
    refine tracks_bind ?_ fun _ => ih (fun e member => parts e (List.mem_cons_of_mem _ member)) _
    exact tracks_around id
      (fun out after => after.subscriptSince out.list.length (keySubscript k))
      (entry_tracks (parts _ List.mem_cons_self) entries _)

variable (base) in
theorem map_tracks {m : MapView R} (parts : ∀ v, Part v (.map m) → Tracked walk v)
    (entries : Entries R) (location : Location) :
    Tracks walk base (Protovalidate.validateMap walk entries m)
      (validateMap walk entries location m) := by
  obtain ⟨len, visited, fault⟩ := m
  refine tracks_bind (entries_tracks (fun e member => parts e.2 ?_) entries location 0) fun _ => ?_
  · exact .entry (k := e.1) member
  · cases fault with
    | none => exact (tracking walk base).pure _
    | some e => exact (tracking walk base).abort _

theorem items_tracks {found : Option (Val R)}
    (parts : ∀ v w, found = some v → Part w v → Tracked walk w) (validator : FieldValidator R)
    (location : Location) :
    Tracks walk base (validator.validateItems walk found)
      (validateItems walk validator location found) := by
  cases found with
  | none => exact (tracking walk base).pure _
  | some v =>
    cases v with
    | list l =>
      simp only [FieldValidator.validateItems, validateItems]
      have elements := list_tracks base fun w part => parts _ w rfl part
      cases validator.kind with
      | list items =>
        cases items <;> cases validator.field.kind <;>
          first
          | exact (tracking walk base).within _ (elements _ _ _)
          | exact (tracking walk base).pure _
      | _ => exact (tracking walk base).pure _
    | map m =>
      simp only [FieldValidator.validateItems, validateItems]
      have mapped := map_tracks base fun w part => parts _ w rfl part
      cases validator.kind with
      | map element keys values =>
        cases validator.field.kind <;>
          first
          | exact (tracking walk base).within _ (mapped _ _)
          | exact (tracking walk base).pure _
      | _ => exact (tracking walk base).pure _
    | _ => exact (tracking walk base).pure _

theorem field_tracks {found : Except R.Error (Option (Val R))}
    (parts : ∀ v, found = .ok (some v) → Tracked walk v ∧ ∀ w, Part w v → Tracked walk w)
    (validator : FieldValidator R) (m : Message R) {frame : Framed R} (location : Location)
    (valid : frame.Valid base) :
    Tracks walk base (validator.validate walk m frame.toCelFrame found)
      (validateField walk validator m frame location found) := by
  cases found with
  | error e => exact (tracking walk base).abort _
  | ok found =>
    refine tracks_bind (read_similar (tracking walk base) _) fun set => ?_
    refine (tracking walk base).ite ((tracking walk base).within _
      (push_similar (tracking walk base) _ _ _)) ?_
    refine (tracking walk base).ite ((tracking walk base).pure _) (tracks_bind ?_ fun _ => ?_)
    · refine (tracking walk base).within _ ?_
      exact option_tracks (fun v same => (parts v (by rw [same])).1) _
        (.field frame validator.field) location valid
    · exact items_tracks (fun v w same => (parts v (by rw [same])).2 w) _ location

/-- The position of an item makes no difference to a loop that does not look at it. -/
theorem forM_zipIdx {m : Type → Type} [Monad m] {ι : Type} (items : List ι) (f : ι → m PUnit)
    (start : Nat) : (items.zipIdx start).forM (fun item => f item.1) = items.forM f := by
  induction items generalizing start with
  | nil => rfl
  | cons first rest ih => exact congrArg (f first >>= fun _ => ·) (ih (start + 1))

theorem message_tracks {m : Message R} (parts : ∀ v, Below v (.message m) → Tracked walk v)
    (validator : MessageValidator R) {frame : Framed R} (valid : frame.Valid base) :
    Tracks walk base (validator.validate walk frame.toCelFrame m)
      (validateMessage walk validator frame m) := by
  obtain ⟨has, get, encode⟩ := m
  refine tracks_bind (messageRules_tracks validator valid _) fun _ => ?_
  rw [← forM_zipIdx _ _ 0]
  refine (tracking walk base).forM _ fun rules _ => ?_
  obtain ⟨rules | rules, index⟩ := rules
  · exact (tracking walk base).abort _
  · refine field_tracks (fun v got => ?_) _ _ _ valid
    have direct : Part v (.message ⟨has, get, encode⟩) := .field got
    exact ⟨parts v (.single direct), fun w part => parts w (.head part (.single direct))⟩

/-- By induction on the value: its parts are walked alike already. -/
theorem value_tracked (v : Val R) : Tracked walk v := by
  induction v using Val.below_induction with
  | step v below =>
    intro base validator bind location valid
    cases v with
    | message sub =>
      refine nested_tracks fun nested base' grown own => ?_
      have valid' := valid.mono grown
      have frames : ∀ frame, nested.map Prod.snd = some frame → frame.Valid base' := by
        intro frame same
        obtain ⟨found, held, rfl⟩ := Option.map_eq_some_iff.mp same
        exact own found held
      refine tracks_bind ?_ fun _ => ?_
      · have rules : Tracks walk base' _ _ :=
          valueRules_tracks validator bind (nested.map Prod.snd) (some (.message sub)) valid' frames
        simpa [Option.map_map, Function.comp_def] using rules
      · cases nested with
        | none => exact (tracking walk base').pure _
        | some found => exact message_tracks below found.1 (own found rfl)
    | _ => exact valueRules_tracks validator bind none _ valid fun _ same => by cases same

end Tracked

/-- The walk that counts ends as the walk does, and its counts are right. -/
theorem validate_ends (failFast : Bool) (validator : MessageValidator R) (message : Message R)
    (typeName : String) :
    Ends walk (.start failFast)
      (validator.validate walk ⟨typeName, message⟩ message (Violations.new failFast))
      (validate walk failFast validator message typeName) := by
  have sound : Sound walk (.start failFast) := by
    refine ⟨⟨fun id => Nat.zero_le 1, fun failed => ?_⟩, fun _ _ => rfl,
      fun id frame parsed => ?_⟩
    · cases failed
    · cases parsed
  have tracks : Tracks walk (.start failFast)
      (validator.validate walk ⟨typeName, message⟩ message)
      (CountM.frame ⟨⟨typeName, message⟩, []⟩ >>= fun frame =>
        validateMessage walk validator frame message) := by
    refine tracks_frame fun frame base' same grown valid => ?_
    have framed : frame.toCelFrame = ⟨typeName, message⟩ := congrArg (·.toCelFrame) same
    rw [← framed]
    exact message_tracks (fun v _ => value_tracked v) validator valid
  exact tracks _ sound (Grown.refl _)

/-- Parsing a frame once and keeping it makes no difference to what a walk reports. -/
theorem validate_counted (failFast : Bool) (validator : MessageValidator R) (message : Message R)
    (typeName : String) :
    (validate walk failFast validator message typeName).1 =
        (validator.validate walk ⟨typeName, message⟩ message (Violations.new failFast)).1 ∧
      (validate walk failFast validator message typeName).2.out =
        (validator.validate walk ⟨typeName, message⟩ message (Violations.new failFast)).2 :=
  ⟨(validate_ends walk failFast validator message typeName).result,
    (validate_ends walk failFast validator message typeName).out⟩


end Encodes

end Protovalidate
