import Protovalidate.EncodeReach

/-!
# Every message that is encoded is encoded for a reason

A walk from a place encodes nothing unless it gets to a place whose programs bind a
message, or to an item that is a message and skipped if it is the zero value.
-/

namespace Protovalidate

open Recording Relation

namespace Encodes
variable {R : Runtime} {walk : Walk R} {failFast : Bool}

/-- A step that encodes a message does so for a reason. -/
def Spends {α : Type} (reason : Prop) (x : CountM R α) (s : State R) : Prop :=
  (x s).2.encodes ≠ s.encodes → reason

/-- A step that encodes nothing. -/
def Idle {α : Type} (x : CountM R α) : Prop := ∀ s, (x s).2.encodes = s.encodes

section Spends
variable {α β : Type} {reason reason' : Prop} {x : CountM R α} {f : α → CountM R β} {s : State R}

theorem Idle.spends (idle : Idle x) : Spends reason x s := fun more => absurd (idle s) more

theorem Spends.mono (spends : Spends reason x s) (implies : reason → reason') :
    Spends reason' x s := fun more => implies (spends more)

theorem Spends.bind (first : Spends reason x s)
    (next : ∀ a s', x s = (.ok a, s') → Spends reason (f a) s') : Spends reason (x >>= f) s := by
  intro more
  change (CountM.andThen x f s).2.encodes ≠ s.encodes at more
  unfold CountM.andThen at more
  by_cases early : (x s).2.encodes = s.encodes
  · rcases ran : x s with ⟨e | a, s'⟩ <;> rw [ran] at more early
    · exact absurd early more
    · exact next a s' ran fun later => more (later.trans early)
  · exact first early

theorem Spends.around {enter : Violations → Violations}
    {leave : Violations → Violations → Violations}
    (spends : Spends reason x { s with out := enter s.out }) :
    Spends reason (CountM.around enter leave x) s := spends

theorem Spends.forKey (spends : ∀ s, Spends reason x s) : Spends reason x.forKey s := spends _

theorem Spends.forM {ι : Type} {items : List ι} {f : ι → CountM R PUnit}
    (each : ∀ before i after, items = before ++ i :: after → ∀ s',
      before.forM f s = (.ok (), s') → Spends reason (f i) s') :
    Spends reason (items.forM f) s := by
  induction items generalizing s with
  | nil => exact fun more => absurd rfl more
  | cons first rest ih =>
    have both : Spends reason (f first >>= fun _ => rest.forM f) s := by
      refine Spends.bind (each [] first rest rfl s rfl) fun _ s' ran => ih ?_
      intro before i after split s'' earlier
      refine each (first :: before) i after (by rw [split, List.cons_append]) s'' ?_
      exact (bind_ran ran).trans earlier
    exact both

theorem Idle.bind (first : Idle x) (next : ∀ a, Idle (f a)) : Idle (x >>= f) := by
  intro s
  by_contra more
  exact (Spends.bind first.spends fun a _ _ => (next a).spends : Spends False (x >>= f) s) more

variable (R) in
/-- Recording encodes nothing. -/
def idling : Similarity (CountM R) (CountM R) where
  Rel x _ := Idle x
  pure _ := fun _ => rfl
  bind := Idle.bind
  record _ := fun _ => rfl
  abort _ := fun _ => rfl
  within _ _ _ rel := fun _ => rel _

theorem pure_idle (a : α) : Idle (pure a : CountM R α) := fun _ => rfl

theorem abort_idle (e : Error R.Error) : Idle (abort e : CountM R α) := fun _ => rfl

end Spends

/-! ### Rules -/

section Rules
variable {s : State R}

theorem skips_spends (items : ItemValidator R) (item : Val R) :
    Spends (items.ignoreEmpty = true ∧ ∃ sub, item = .message sub) (skips items item) s := by
  unfold skips
  split
  · rename_i ignoreEmpty
    cases item with
    | message sub => exact fun _ => ⟨ignoreEmpty, sub, rfl⟩
    | _ => exact Idle.spends (read_similar (idling R) _)
  · exact (pure_idle _).spends

theorem celThis_spends (value : Option (Val R)) (bind : Bind R) (child : Option (Framed R)) :
    Spends ((celScalar value bind.unframed.kind).isNone = true) (celThis walk value bind child)
      s := by
  unfold celThis
  split
  · exact (pure_idle _).spends
  · rename_i none
    exact fun _ => by rw [none, Option.isNone_none]

theorem programs_spends (programs : Option CelPrograms) (value : Option (Val R)) (bind : Bind R)
    (child : Option (Framed R)) :
    Spends (programs.isSome = true ∧ (celScalar value bind.unframed.kind).isNone = true)
      (runPrograms walk programs value bind child) s := by
  cases programs with
  | none => exact (pure_idle _).spends
  | some programs =>
    refine Spends.bind ((celThis_spends value bind child).mono fun none => ⟨rfl, none⟩) ?_
    exact fun this s' _ => Idle.spends (celRun_similar (idling R) programs this)

theorem valueRules_spends (validator : ValueValidator R) (bind : Bind R)
    (child : Option (Framed R)) (value : Option (Val R)) :
    Spends ((hasPrograms validator && (celScalar value bind.unframed.kind).isNone) = true)
      (valueRules walk validator bind child value) s := by
  refine Spends.bind ((programs_spends _ value bind child).mono fun bound => ?_) fun _ s' _ =>
    Spends.bind (Idle.spends (check_similar (idling R) walk _ _ _)) fun _ s'' _ =>
      (programs_spends _ value bind child).mono fun bound => ?_
  · simp [hasPrograms, bound]
  · simp [hasPrograms, bound]

theorem messageRules_spends (validator : MessageValidator R) (frame : Framed R) (m : Message R) :
    Spends (validator.cel.isSome = true) (messageRules walk validator frame m) s := by
  refine Spends.bind ?_ fun _ _ _ => Spends.bind (Idle.spends ?_) fun _ _ _ => Idle.spends ?_
  · cases validator.cel with
    | none => exact (pure_idle _).spends
    | some programs => exact fun _ => rfl
  · exact (idling R).forM _ fun oneof _ => messageOneof_similar (idling R) oneof m
  · exact (idling R).forM _ fun oneof _ => oneofRequired_similar (idling R) oneof m

end Rules

/-! ### The walk -/

variable (walk failFast) in
/-- From a place, a walk gets to where a message is needed. -/
def Wanted (place : Place R) : Prop :=
  ∃ reached, Gets walk failFast place reached ∧
    (binds reached.visit = true ∨ Tests walk failFast reached)

theorem Wanted.here {place : Place R} (bound : binds place.visit = true) :
    Wanted walk failFast place :=
  ⟨place, .refl, .inl bound⟩

theorem Wanted.enter {place next : Place R} (enters : Enters walk (Passes failFast) place next)
    (wanted : Wanted walk failFast next) : Wanted walk failFast place := by
  obtain ⟨reached, gets, needed⟩ := wanted
  exact ⟨reached, gets.head enters, needed⟩

variable (walk failFast) in
/-- A walk of a value encodes only what is wanted from where it is. -/
def ValueSpends (v : Val R) : Prop :=
  ∀ s, Ready walk failFast s → ∀ validator (bind : Bind R) location path, bind.Valid s →
    Spends (Wanted walk failFast ⟨path, .value validator bind.unframed (some v)⟩)
      (validateValue walk validator bind location v) s

section Fields
variable {s : State R} {validator : MessageValidator R} {frame : CelFrame R} {m : Message R}
variable {path : List FieldPathElement} {rules : FieldValidator R}

theorem option_spends {value : Option (Val R)}
    (parts : ∀ v, value = some v → ValueSpends walk failFast v)
    (ready : Ready walk failFast s) (validator : ValueValidator R) (bind : Bind R)
    (location : Location) (path : List FieldPathElement) (valid : bind.Valid s) :
    Spends (Wanted walk failFast ⟨path, .value validator bind.unframed value⟩)
      (validateOption walk validator bind location value) s := by
  cases value with
  | none => exact (valueRules_spends validator bind none none).mono fun bound => Wanted.here bound
  | some v => exact parts v rfl s ready validator bind location path valid

theorem list_spends {l : ListView R} {items : ItemValidator R} {kind : Singular}
    (parts : ∀ v, Part v (.list l) → ValueSpends walk failFast v)
    (ready : Ready walk failFast s)
    (reached : AtContents walk (Passes failFast) validator frame m path rules (.list l))
    (held : rules.kind = .list (some items)) (listed : rules.field.kind = .list kind)
    (location : Location) :
    Spends (Wanted walk failFast ⟨path, .message validator frame m⟩)
      (validateList walk items kind location l) (State.inside rules.element s) := by
  obtain ⟨len, get⟩ := l
  refine Spends.bind (Idle.spends (read_similar (idling R) _)) fun len s' ran => ?_
  obtain ⟨rfl, rfl⟩ := read_ran ran
  refine Spends.forM fun before index after split s' ran => ?_
  obtain ⟨rfl, inside⟩ := range_split split
  obtain ⟨ready', -, passed⟩ :=
    (list_follows ready items rules.element kind location ⟨.ok index, get⟩).ended ran
  have earlier := passed path
  rw [Spec.list_eq walk _ _ _ rfl] at earlier
  cases got : get index with
  | error e => exact (abort_idle _).spends
  | ok found =>
    cases found with
    | none => exact (pure_idle _).spends
    | some v =>
      refine Spends.bind ((skips_spends items v).mono ?_) fun skip s'' ran => ?_
      · rintro ⟨ignoreEmpty, sub, rfl⟩
        exact ⟨_, .refl, .inr (.element reached held listed rfl inside earlier got ignoreEmpty)⟩
      · obtain ⟨kept, ready''⟩ := skips_ran ready' ran
        cases skip with
        | true => exact (pure_idle _).spends
        | false =>
          have moved : Ready walk failFast
              { s'' with out := s''.out.subscript (some (.index index)) } := ready''.move rfl rfl
          refine Spends.bind (fun more => absurd rfl more) fun _ s3 same => ?_
          cases same
          exact (parts v (.element got) _ moved _ (.item kind) _ _ trivial).mono
            (Wanted.enter (.element reached held listed rfl inside earlier got kept))

theorem key_spends {entries : Entries R} {k : Atom} (position : List FieldPathElement)
    (enters : ∀ keys, entries.keys = some keys → keys.skips (.atom k : Val R) = .ok false →
      Enters walk (Passes failFast) ⟨path, .message validator frame m⟩
        ⟨position, .key keys.value entries.key k⟩) (ready : Ready walk failFast s) :
    Spends (Wanted walk failFast ⟨path, .message validator frame m⟩)
      (validateKey walk entries k) s := by
  unfold validateKey
  cases held : entries.keys with
  | none => exact (pure_idle _).spends
  | some keys =>
    refine Spends.bind ((skips_spends keys _).mono fun ⟨_, sub, same⟩ => ?_) fun skip s' ran => ?_
    · cases same
    · obtain ⟨kept, -⟩ := skips_ran ready ran
      cases skip with
      | true => exact (pure_idle _).spends
      | false =>
        refine Spends.forKey fun s => (valueRules_spends keys.value (.item entries.key) none
          (some (.atom k))).mono fun bound => ?_
        exact Wanted.enter (enters keys held kept) (Wanted.here bound)

theorem entry_spends {map : MapView R} {element : FieldPathElement}
    {keys values : Option (ItemValidator R)} {key : Scalar} {kind : Singular}
    {before after : List (Atom × Val R)} {k : Atom} {v : Val R}
    (part : ValueSpends walk failFast v) (ready : Ready walk failFast s)
    (reached : AtContents walk (Passes failFast) validator frame m path rules (.map map))
    (held : rules.kind = .map element keys values) (mapped : rules.field.kind = .map key kind)
    (visited : map.entries = before ++ (k, v) :: after)
    (earlier : Passes failFast (Spec.entryList walk ⟨.scalar key, kind, keys, values⟩ element
      before ⟨path, false⟩)) (location : Location) :
    Spends (Wanted walk failFast ⟨path, .message validator frame m⟩)
      (validateEntryValues walk ⟨.scalar key, kind, keys, values⟩ location (k, v)) s := by
  refine Spends.bind ?_ fun _ s' ran => ?_
  · refine key_spends (path ++ [element.withSubscript (keySubscript k)])
      (fun found same kept => ?_) ready
    cases same
    exact .key reached held mapped visited earlier kept
  · obtain ⟨ready', -, passed⟩ := (key_follows ready _ k).ended ran
    cases values with
    | none => exact (pure_idle _).spends
    | some values =>
      refine Spends.bind ((skips_spends values v).mono ?_) fun skip s'' ran => ?_
      · rintro ⟨ignoreEmpty, sub, rfl⟩
        exact ⟨_, .refl, .inr (.entry reached held mapped visited earlier (passed _) ignoreEmpty)⟩
      · obtain ⟨kept, ready''⟩ := skips_ran ready' ran
        cases skip with
        | true => exact (pure_idle _).spends
        | false =>
          exact (part _ ready'' _ (.item kind) _ _ trivial).mono
            (Wanted.enter (.entry reached held mapped visited earlier (passed _) kept))

theorem map_spends {map : MapView R} {element : FieldPathElement}
    {keys values : Option (ItemValidator R)} {key : Scalar} {kind : Singular}
    (parts : ∀ v, Part v (.map map) → ValueSpends walk failFast v)
    (ready : Ready walk failFast s)
    (reached : AtContents walk (Passes failFast) validator frame m path rules (.map map))
    (held : rules.kind = .map element keys values) (mapped : rules.field.kind = .map key kind)
    (location : Location) :
    Spends (Wanted walk failFast ⟨path, .message validator frame m⟩)
      (validateMap walk ⟨.scalar key, kind, keys, values⟩ location map)
      (State.inside element s) := by
  obtain ⟨len, visited, fault⟩ := map
  refine Spends.bind ?_ fun _ s' _ => ?_
  · rw [validateEntries_eq]
    refine Spends.forM fun before entry after split s' ran => ?_
    obtain ⟨⟨k, v⟩, index⟩ := entry
    obtain ⟨earlier, later, rfl, rfl, rfl⟩ := zipIdx_split split
    rw [← validateEntries_eq] at ran
    obtain ⟨ready', -, passed⟩ := (map_follows ready ⟨.scalar key, kind, keys, values⟩ element
      location ⟨.ok 0, earlier, none⟩).ended ((bind_ran ran).trans rfl)
    have before := passed path
    rw [Spec.map_eq, bind_pure] at before
    have part := parts v (.entry (k := k) (List.mem_append_right _ List.mem_cons_self))
    exact Spends.around (entry_spends part ready' reached held mapped rfl before _)
  · cases fault with
    | none => exact (pure_idle _).spends
    | some e => exact (abort_idle _).spends

theorem items_spend {v : Val R} (parts : ∀ w, Part w v → ValueSpends walk failFast w)
    (ready : Ready walk failFast s)
    (reached : AtContents walk (Passes failFast) validator frame m path rules v)
    (location : Location) :
    Spends (Wanted walk failFast ⟨path, .message validator frame m⟩)
      (validateItems walk rules location (some v)) s := by
  cases v with
  | list l =>
    simp only [validateItems]
    split
    · rename_i held listed
      exact Spends.around (list_spends parts ready reached held listed location)
    · exact (pure_idle _).spends
  | map map =>
    simp only [validateItems]
    split
    · rename_i held mapped
      exact Spends.around (map_spends parts ready reached held mapped location)
    · exact (pure_idle _).spends
  | _ => exact (pure_idle _).spends

theorem field_spends {framed : Framed R} {value : Option (Val R)} {set : Bool}
    (parts : ∀ v, Below v (.message m) → ValueSpends walk failFast v)
    (ready : Ready walk failFast s) (valid : framed.Valid s)
    (reached : AtField walk (Passes failFast) validator framed.toCelFrame m path rules value set)
    (location : Location) :
    Spends (Wanted walk failFast ⟨path, .message validator framed.toCelFrame m⟩)
      (validateField walk rules m framed location (.ok value)) s := by
  refine Spends.bind (Idle.spends (read_similar (idling R) _)) fun found s' ran => ?_
  obtain ⟨isSet, rfl⟩ := read_ran ran
  obtain rfl : found = set := Except.ok.inj (isSet.symm.trans reached.isSet)
  split
  · exact Spends.around (Idle.spends (push_similar (idling R) _ _ _))
  · split
    · exact (pure_idle _).spends
    · have runs : rules.Runs found := by
        rename_i required ignoreEmpty
        cases found <;> simp_all [FieldValidator.Runs]
      have enters := Enters.field reached runs
      have held : ∀ v, value = some v → ValueSpends walk failFast v := fun v same =>
        parts v (.single (.field (by rw [reached.got, same])))
      have own := option_spends held (ready.inside rules.element) rules.value
        (.field framed rules.field) location (path ++ [rules.element]) valid
      refine Spends.bind (Spends.around (own.mono (Wanted.enter enters))) fun _ s'' ran => ?_
      cases value with
      | none => exact (pure_idle _).spends
      | some v =>
        have bound : (Bind.field framed rules.field).Valid (State.inside rules.element s') := valid
        obtain ⟨ready', -, passed⟩ := (option_follows (ready.inside rules.element) rules.value
          bound location (some v)).within.ended ran
        have direct : Part v (.message m) := .field reached.got
        exact items_spend (fun w part => parts w (.head part (.single direct))) ready'
          ⟨⟨found, reached, runs⟩, passed path⟩ location

theorem message_spends {framed : Framed R}
    (parts : ∀ v, Below v (.message m) → ValueSpends walk failFast v)
    (ready : Ready walk failFast s) (valid : framed.Valid s) (validator : MessageValidator R)
    (path : List FieldPathElement) :
    Spends (Wanted walk failFast ⟨path, .message validator framed.toCelFrame m⟩)
      (validateMessage walk validator framed m) s := by
  rw [validateMessage_eq]
  refine Spends.bind ((messageRules_spends validator framed m).mono fun bound =>
    Wanted.here bound) fun _ s' own => ?_
  refine Spends.forM fun before entry after split s'' ran => ?_
  obtain ⟨rules, index⟩ := entry
  obtain ⟨earlier, later, fields, rfl, rfl⟩ := zipIdx_split split
  obtain ⟨ready', grown, passed⟩ :=
    (message_follows ready { validator with fields := earlier } valid m).ended
      (message_ran own ran)
  cases rules with
  | error e => exact (abort_idle _).spends
  | ok rules =>
    rw [fieldEntry]
    cases got : m.get rules.field with
    | error e => exact (abort_idle _).spends
    | ok value =>
      cases isSet : rules.isSet m value with
      | error e =>
        rw [validateField, isSet]
        exact Spends.bind (abort_idle _).spends fun _ _ ran => by cases ran
      | ok set =>
        exact field_spends parts ready' (valid.mono grown)
          ⟨⟨earlier, later, fields, passed path⟩, got, isSet⟩ _

end Fields

/-- By induction on the value. -/
theorem value_spends (v : Val R) : ValueSpends walk failFast v := by
  induction v using Val.below_induction with
  | step v below =>
    intro s ready validator bind location path valid
    cases v with
    | message sub =>
      unfold validateValue nestedMessage
      cases looked : validator.nestedMessage walk sub with
      | error e => exact (abort_idle _).spends
      | ok nested =>
        cases nested with
        | none =>
          refine Spends.bind (Idle.spends (pure_idle _)) fun nested s' ran => ?_
          cases ran
          exact Spends.bind ((valueRules_spends validator bind none _).mono fun bound =>
            Wanted.here bound) fun _ _ _ => (pure_idle _).spends
        | some nested =>
          obtain ⟨nested, child⟩ := nested
          have grown := Grown.framed s ⟨child, location⟩
          have ready' := ready.framed ⟨child, location⟩
          have own := Framed.valid_framed s ⟨child, location⟩
          refine Spends.bind (fun more => absurd rfl more) fun found s' ran => ?_
          cases ran
          refine Spends.bind ((valueRules_spends validator bind _ _).mono fun bound =>
            Wanted.here bound) fun _ s' ran => ?_
          obtain ⟨ready'', grown', passed⟩ := (rules_follow ready' validator (valid.mono grown)
            (fun frame same => by cases same; exact own) _).ended ran
          have rules : Passes failFast ((validator.runRules walk bind.unframed
              ((some (nested, child)).map Prod.snd) (some (.message sub)) :
              SpecM R.Error Unit) ⟨path, false⟩) := passed path
          rw [nestedMessage_child looked] at rules
          exact (message_spends below ready'' (own.mono grown') nested path).mono
            (Wanted.enter (.nested looked rules))
    | _ => exact (valueRules_spends validator bind none _).mono fun bound => Wanted.here bound

end Encodes

end Protovalidate
