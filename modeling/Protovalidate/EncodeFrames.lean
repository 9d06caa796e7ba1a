import Protovalidate.EncodeCounts

/-!
# The frames of a walk

A walk makes one frame at most for each message value: those it makes below a value are
all at locations that are below it, and no two of them are at the same one.
-/

namespace Protovalidate

open Recording

namespace Encodes
variable {R : Runtime}

/-- A step counts no less, and the frames it makes are at different locations, all of
them in `area`. -/
def Makes {α : Type} (area : Location → Prop) (x : CountM R α) : Prop :=
  ∀ s, s.encodes ≤ (x s).2.encodes ∧ ∃ made : List (Located R),
    (x s).2.frames = s.frames ++ made ∧ (made.map Located.location).Nodup ∧
      ∀ frame ∈ made, area frame.location

/-- A step that makes no frame. -/
abbrev Quiet {α : Type} (x : CountM R α) : Prop := Makes (fun _ => False) x

section Makes
variable {α β : Type} {area area' : Location → Prop} {x : CountM R α} {f : α → CountM R β}

theorem Makes.mono (makes : Makes area x) (inside : ∀ l, area l → area' l) : Makes area' x := by
  intro s
  obtain ⟨grows, made, frames, distinct, all⟩ := makes s
  exact ⟨grows, made, frames, distinct, fun frame member => inside _ (all frame member)⟩

theorem Quiet.makes (quiet : Quiet x) : Makes area x := Makes.mono quiet fun _ => False.elim

/-- A step that leaves the frames there are. -/
theorem Quiet.intro (grows : ∀ s, s.encodes ≤ (x s).2.encodes)
    (frames : ∀ s, (x s).2.frames = s.frames) : Quiet x := fun s =>
  ⟨grows s, [], by rw [frames s, List.append_nil], List.nodup_nil,
    fun _ none => (List.not_mem_nil none).elim⟩

theorem Makes.bind (first : Makes area x) (next : ∀ a, Makes area' (f a))
    (apart : ∀ l, area l → ¬ area' l) : Makes (fun l => area l ∨ area' l) (x >>= f) := by
  intro s
  obtain ⟨grows, made, frames, distinct, all⟩ := first s
  change s.encodes ≤ (CountM.andThen x f s).2.encodes ∧
    ∃ made, (CountM.andThen x f s).2.frames = _ ∧ _
  unfold CountM.andThen
  rcases ran : x s with ⟨e | a, s'⟩ <;> rw [ran] at grows frames
  · exact ⟨grows, made, frames, distinct, fun frame member => .inl (all frame member)⟩
  · obtain ⟨grows', more, frames', distinct', all'⟩ := next a s'
    refine ⟨grows.trans grows', made ++ more, ?_, ?_, fun frame member => ?_⟩
    · rw [frames', frames, List.append_assoc]
    · rw [List.map_append]
      refine List.nodup_append.mpr ⟨distinct, distinct', fun old here new there same => ?_⟩
      obtain ⟨frame, member, rfl⟩ := List.mem_map.mp here
      obtain ⟨later, member', rfl⟩ := List.mem_map.mp there
      exact apart _ (all frame member) (same ▸ all' later member')
    · exact (List.mem_append.mp member).imp (all frame) (all' frame)

theorem Makes.after (quiet : Quiet x) (next : ∀ a, Makes area (f a)) : Makes area (x >>= f) :=
  (Makes.bind quiet next fun _ none => none.elim).mono fun _ inside => inside.elim False.elim id

theorem Makes.before (first : Makes area x) (quiet : ∀ a, Quiet (f a)) : Makes area (x >>= f) :=
  (Makes.bind first quiet fun _ _ none => none).mono fun _ inside => inside.elim id False.elim

theorem Quiet.bind (first : Quiet x) (next : ∀ a, Quiet (f a)) : Quiet (x >>= f) :=
  Makes.after first next

theorem Makes.around {enter : Violations → Violations}
    {leave : Violations → Violations → Violations} (makes : Makes area x) :
    Makes area (CountM.around enter leave x) := fun s => makes { s with out := enter s.out }

/-- A new frame, and those that are made once there is one. -/
theorem Makes.frame {made : Located R} {f : Framed R → CountM R α}
    (next : ∀ frame, frame.toLocated = made → Makes area (f frame))
    (apart : ¬ area made.location) :
    Makes (fun l => l = made.location ∨ area l) (CountM.frame made >>= f) := by
  intro s
  obtain ⟨grows, more, frames, distinct, all⟩ :=
    next ⟨made, s.frames.length⟩ rfl { s with frames := s.frames ++ [made] }
  refine ⟨grows, made :: more, ?_, ?_, fun frame member => ?_⟩
  · exact frames.trans (by simp)
  · rw [List.map_cons, List.nodup_cons]
    refine ⟨fun again => ?_, distinct⟩
    obtain ⟨frame, member, same⟩ := List.mem_map.mp again
    exact apart (same ▸ all frame member)
  · rcases List.mem_cons.mp member with rfl | member
    · exact .inl rfl
    · exact .inr (all frame member)

variable (R) in
/-- Recording makes no frame. -/
def framing : Similarity (CountM R) (CountM R) where
  Rel x _ := Quiet x
  pure _ := .intro (fun _ => Nat.le_refl _) fun _ => rfl
  bind := Quiet.bind
  record _ := .intro (fun _ => Nat.le_refl _) fun _ => rfl
  abort _ := .intro (fun _ => Nat.le_refl _) fun _ => rfl
  within _ _ _ rel := Makes.around rel

theorem pure_quiet (a : α) : Quiet (pure a : CountM R α) := (framing R).pure a

theorem abort_quiet (e : Error R.Error) : Quiet (abort e : CountM R α) := (framing R).abort e

/-- Steps that make frames in areas that are apart. -/
theorem Makes.forM {ι : Type} {items : List ι} {f : ι → CountM R PUnit}
    {areas : ι → Location → Prop} (each : ∀ i ∈ items, Makes (areas i) (f i))
    (apart : items.Pairwise fun i j => ∀ l, areas i l → ¬ areas j l) :
    Makes (fun l => ∃ i ∈ items, areas i l) (items.forM f) := by
  induction items with
  | nil => exact (pure_quiet _).makes
  | cons first rest ih =>
    rw [List.pairwise_cons] at apart
    have later := ih (fun i member => each i (List.mem_cons_of_mem _ member)) apart.2
    have both : Makes _ (f first >>= fun _ => rest.forM f) :=
      (each first List.mem_cons_self).bind (fun _ => later) fun l here there => by
        obtain ⟨i, member, inside⟩ := there
        exact apart.1 i member l here inside
    refine both.mono fun l inside => ?_
    rcases inside with here | ⟨i, member, inside⟩
    · exact ⟨first, List.mem_cons_self, here⟩
    · exact ⟨i, List.mem_cons_of_mem _ member, inside⟩

end Makes

/-- Two steps from a location to one do not lead to the same one. -/
theorem step_unique {location l : Location} {step step' : Step}
    (first : location ++ [step] <+: l) (second : location ++ [step'] <+: l) : step = step' := by
  have same : location ++ [step] = location ++ [step'] :=
    (List.prefix_of_prefix_length_le first second (by simp)).eq_of_length (by simp)
  simpa using same

theorem below_of_step {location l : Location} {step : Step} (below : location ++ [step] <+: l) :
    location <+: l :=
  (List.prefix_append _ _).trans below

/-! ### What makes no frame -/

section Quiet
variable {walk : Walk R}

theorem skips_quiet (items : ItemValidator R) (item : Val R) : Quiet (skips items item) := by
  unfold skips
  split
  · cases item with
    | message m =>
      intro s
      obtain ⟨grows, made, rest⟩ :=
        read_similar (framing R) (Protovalidate.isEmptyItem (.message m)) (s.encode m)
      exact ⟨(Nat.le_succ _).trans grows, made, rest⟩
    | _ => exact read_similar (framing R) _
  · exact pure_quiet _

theorem parsed_quiet (frame : Framed R) : Quiet (frame.parsed walk) := by
  refine .intro (fun s => ?_) fun s => ?_ <;> unfold Framed.parsed <;> cases s.parsed frame.id
  · dsimp only
    cases frame.toCelFrame.parsed walk <;> exact Nat.le_succ _
  · exact Nat.le_refl _
  · dsimp only
    cases frame.toCelFrame.parsed walk <;> rfl
  · rfl

theorem celThis_quiet (value : Option (Val R)) (bind : Bind R) (child : Option (Framed R)) :
    Quiet (celThis walk value bind child) := by
  unfold celThis
  split
  · exact pure_quiet _
  · split
    · exact (parsed_quiet _).bind fun _ => pure_quiet _
    · exact (parsed_quiet _).bind fun _ => pure_quiet _
    · exact abort_quiet _

theorem programs_quiet (programs : Option CelPrograms) (value : Option (Val R)) (bind : Bind R)
    (child : Option (Framed R)) : Quiet (runPrograms walk programs value bind child) := by
  cases programs with
  | none => exact pure_quiet _
  | some programs =>
    exact (celThis_quiet value bind child).bind fun this => celRun_similar (framing R) programs this

theorem valueRules_quiet (validator : ValueValidator R) (bind : Bind R)
    (child : Option (Framed R)) (value : Option (Val R)) :
    Quiet (valueRules walk validator bind child value) :=
  (programs_quiet _ value bind child).bind fun _ =>
    Quiet.bind (check_similar (framing R) walk _ _ _) fun _ => programs_quiet _ value bind child

theorem messageRules_quiet (validator : MessageValidator R) (frame : Framed R) (m : Message R) :
    Quiet (messageRules walk validator frame m) := by
  refine Quiet.bind ?_ fun _ => Quiet.bind ?_ fun _ => ?_
  · cases validator.cel with
    | none => exact pure_quiet _
    | some programs =>
      exact (parsed_quiet frame).bind fun parsed => celRun_similar (framing R) programs _
  · exact (framing R).forM _ fun oneof _ => messageOneof_similar (framing R) oneof m
  · exact (framing R).forM _ fun oneof _ => oneofRequired_similar (framing R) oneof m

theorem key_quiet (entries : Entries R) (k : Atom) : Quiet (validateKey walk entries k) := by
  unfold validateKey
  cases entries.keys with
  | none => exact pure_quiet _
  | some keys =>
    refine (skips_quiet keys _).bind fun skip => ?_
    split
    · exact pure_quiet _
    · exact Makes.around (valueRules_quiet keys.value _ none _)

end Quiet

/-! ### What makes frames -/

section Frames
variable {walk : Walk R}

variable (walk) in
/-- The frames that a walk of a value makes are at its location and below. -/
def MakesBelow (v : Val R) : Prop :=
  ∀ validator bind location, Makes (location <+: ·) (validateValue walk validator bind location v)

theorem item_makes {found : Except R.Error (Option (Val R))}
    (parts : ∀ v, found = .ok (some v) → MakesBelow walk v) (items : ItemValidator R)
    (kind : Singular) (location : Location) (index : Nat) :
    Makes (location ++ [.element index] <+: ·)
      (validateItem walk items kind location index found) := by
  cases found with
  | error e => exact (abort_quiet _).makes
  | ok found =>
    cases found with
    | none => exact (pure_quiet _).makes
    | some v =>
      refine Makes.after (skips_quiet items v) fun skip => ?_
      cases skip with
      | true => exact (pure_quiet _).makes
      | false =>
        have moved : Quiet (CountM.subscript (some (.index index)) : CountM R Unit) :=
          .intro (fun _ => Nat.le_refl _) fun _ => rfl
        exact Makes.after moved fun _ => parts v rfl _ _ _

theorem list_makes {l : ListView R} (parts : ∀ v, Part v (.list l) → MakesBelow walk v)
    (items : ItemValidator R) (kind : Singular) (location : Location) :
    Makes (location <+: ·) (validateList walk items kind location l) := by
  obtain ⟨len, get⟩ := l
  refine Makes.after (read_similar (framing R) len) fun len => ?_
  have each : ∀ index ∈ List.range len, Makes (location ++ [.element index] <+: ·)
      (validateItem walk items kind location index (get index)) := fun index _ =>
    item_makes (fun v got => parts v (.element got)) items kind location index
  refine (Makes.forM each ?_).mono fun l ⟨index, _, below⟩ => below_of_step below
  refine List.nodup_range.imp fun different l first second => different ?_
  cases step_unique first second
  rfl

theorem entry_makes {k : Atom} {v : Val R} (part : MakesBelow walk v) (entries : Entries R)
    (location : Location) :
    Makes (location <+: ·) (validateEntryValues walk entries location (k, v)) := by
  refine Makes.after (key_quiet entries k) fun _ => ?_
  cases entries.values with
  | none => exact (pure_quiet _).makes
  | some values =>
    refine Makes.after (skips_quiet values v) fun skip => ?_
    cases skip with
    | true => exact (pure_quiet _).makes
    | false => exact part _ _ _

theorem entries_make {visited : List (Atom × Val R)} (parts : ∀ e ∈ visited, MakesBelow walk e.2)
    (entries : Entries R) (location : Location) (index : Nat) :
    Makes (fun l => ∃ i, index ≤ i ∧ location ++ [.entry i] <+: l)
      (validateEntries walk entries location index visited) := by
  induction visited generalizing index with
  | nil => exact (pure_quiet _).makes
  | cons first rest ih =>
    obtain ⟨k, v⟩ := first
    have here : Makes (location ++ [.entry index] <+: ·) (validateEntry k
        (validateEntryValues walk entries (location ++ [.entry index]) (k, v))) :=
      (entry_makes (parts _ List.mem_cons_self) entries _).around
    have later := ih (fun e member => parts e (List.mem_cons_of_mem _ member)) (index + 1)
    refine (here.bind (fun _ => later) ?_).mono ?_
    · rintro l below ⟨i, later, below'⟩
      cases step_unique below below'
      exact Nat.not_succ_le_self _ later
    · intro l inside
      rcases inside with below | ⟨i, later, below⟩
      · exact ⟨index, Nat.le_refl _, below⟩
      · exact ⟨i, Nat.le_of_succ_le later, below⟩

theorem map_makes {m : MapView R} (parts : ∀ v, Part v (.map m) → MakesBelow walk v)
    (entries : Entries R) (location : Location) :
    Makes (location <+: ·) (validateMap walk entries location m) := by
  obtain ⟨len, visited, fault⟩ := m
  have visits := entries_make (fun e member => parts e.2 (.entry (k := e.1) member)) entries
    location 0
  refine Makes.before (visits.mono fun l ⟨_, _, below⟩ => below_of_step below) fun _ => ?_
  cases fault with
  | none => exact pure_quiet _
  | some e => exact abort_quiet _

theorem items_make {v : Val R} (parts : ∀ w, Part w v → MakesBelow walk w)
    (validator : FieldValidator R) (location : Location) :
    Makes (location <+: ·) (validateItems walk validator location (some v)) := by
  cases v with
  | list l =>
    simp only [validateItems]
    split
    · exact (list_makes parts _ _ location).around
    · exact (pure_quiet _).makes
  | map m =>
    simp only [validateItems]
    split
    · exact (map_makes parts _ location).around
    · exact (pure_quiet _).makes
  | _ => exact (pure_quiet _).makes

/-- Either the value of a field is a message, or it may have items. -/
theorem field_makes {found : Except R.Error (Option (Val R))}
    (parts : ∀ v, found = .ok (some v) → MakesBelow walk v ∧ ∀ w, Part w v → MakesBelow walk w)
    (validator : FieldValidator R) (m : Message R) (frame : Framed R) (location : Location) :
    Makes (location <+: ·) (validateField walk validator m frame location found) := by
  cases found with
  | error e => exact (abort_quiet _).makes
  | ok found =>
    refine Makes.after (read_similar (framing R) _) fun set => ?_
    split
    · exact Quiet.makes (Makes.around (push_similar (framing R) _ _ _))
    · split
      · exact (pure_quiet _).makes
      · cases found with
        | none =>
          refine Quiet.makes (Quiet.bind (Makes.around ?_) fun _ => pure_quiet _)
          exact valueRules_quiet validator.value _ none none
        | some v =>
          obtain ⟨own, below⟩ := parts v rfl
          cases v with
          | message sub => exact Makes.before (own _ _ location).around fun _ => pure_quiet _
          | atom a =>
            exact Makes.after (Makes.around (valueRules_quiet validator.value _ none _))
              fun _ => items_make below validator location
          | list l =>
            exact Makes.after (Makes.around (valueRules_quiet validator.value _ none _))
              fun _ => items_make below validator location
          | map map =>
            exact Makes.after (Makes.around (valueRules_quiet validator.value _ none _))
              fun _ => items_make below validator location

theorem message_makes {m : Message R} (parts : ∀ v, Below v (.message m) → MakesBelow walk v)
    (validator : MessageValidator R) (frame : Framed R) :
    Makes (fun l => ∃ step, frame.location ++ [step] <+: l)
      (validateMessage walk validator frame m) := by
  obtain ⟨has, get, encode⟩ := m
  refine Makes.after (messageRules_quiet validator frame _) fun _ => ?_
  refine (@Makes.forM _ _ _ _ (fun entry l => frame.location ++ [.field entry.2] <+: l)
    (fun entry member => ?_) ?_).mono fun l ⟨entry, _, below⟩ => ⟨_, below⟩
  · obtain ⟨rules | rules, index⟩ := entry
    · exact (abort_quiet _).makes
    · refine field_makes (fun v got => ?_) rules _ frame _
      have direct : Part v (.message ⟨has, get, encode⟩) := .field got
      exact ⟨parts v (.single direct), fun w part => parts w (.head part (.single direct))⟩
  · have numbered : (validator.fields.zipIdx.map Prod.snd).Nodup := by
      rw [List.zipIdx_map_snd]
      exact List.nodup_range'
    refine (List.pairwise_map.mp numbered).imp fun different l first second => different ?_
    simpa using step_unique first second

theorem value_makes (v : Val R) : MakesBelow walk v := by
  induction v using Val.below_induction with
  | step v below =>
    intro validator bind location
    cases v with
    | message sub =>
      unfold validateValue nestedMessage
      cases validator.nestedMessage walk sub with
      | error e => exact (abort_quiet _).makes
      | ok nested =>
        cases nested with
        | none => exact ((valueRules_quiet validator bind none _).bind fun _ => pure_quiet _).makes
        | some nested =>
          have inner (child : Framed R) (same : child.toLocated = ⟨nested.2, location⟩) :
              Makes (fun l => ∃ step, location ++ [step] <+: l)
                (valueRules walk validator bind (some child) (some (.message sub)) >>= fun _ =>
                  validateMessage walk nested.1 child sub) := by
            have held : child.location = location := congrArg Located.location same
            rw [← held]
            exact Makes.after (valueRules_quiet validator bind _ _) fun _ =>
              message_makes below nested.1 child
          refine (Makes.frame inner fun ⟨step, again⟩ => ?_).mono fun l inside => ?_
          · exact absurd again.length_le (by simp)
          · rcases inside with rfl | ⟨step, below⟩
            · exact List.prefix_rfl
            · exact below_of_step below
    | _ => exact (valueRules_quiet validator bind none _).makes

/-- No two frames of a walk are of the same message value. -/
theorem frames_distinct (failFast : Bool) (validator : MessageValidator R) (message : Message R)
    (typeName : String) :
    ((validate walk failFast validator message typeName).2.frames.map
      Located.location).Nodup := by
  have inner (frame : Framed R) (root : frame.toLocated = ⟨⟨typeName, message⟩, []⟩) :
      Makes (fun l => ∃ step, [step] <+: l) (validateMessage walk validator frame message) := by
    have held : frame.location = [] := congrArg Located.location root
    have below : Makes (fun l => ∃ step, frame.location ++ [step] <+: l)
        (validateMessage walk validator frame message) :=
      message_makes (fun v _ => value_makes v) validator frame
    rwa [held] at below
  have makes := Makes.frame inner fun ⟨step, below⟩ => absurd below.length_le (by simp)
  obtain ⟨-, made, frames, distinct, -⟩ := makes (.start failFast)
  have all : (validate walk failFast validator message typeName).2.frames = made := frames
  rwa [all]

/-- Counts at a location that one frame is at come from that frame. -/
theorem encodesAt_le {frames : List (Located R)} (distinct : (frames.map Located.location).Nodup)
    {count : Nat → Nat} (once : ∀ id, count id ≤ 1) (location : Location) (first : Nat) :
    ((frames.zipIdx first).map fun made =>
      if made.1.location = location then count made.2 else 0).sum ≤ 1 := by
  induction frames generalizing first with
  | nil => exact Nat.zero_le 1
  | cons frame rest ih =>
    rw [List.map_cons, List.nodup_cons] at distinct
    rw [List.zipIdx_cons, List.map_cons, List.sum_cons]
    by_cases here : frame.location = location
    · have others : ∀ n ∈ (rest.zipIdx (first + 1)).map fun made =>
          if made.1.location = location then count made.2 else 0, n = 0 := by
        intro n member
        obtain ⟨made, listed, rfl⟩ := List.mem_map.mp member
        refine if_neg fun same => distinct.1 (List.mem_map.mpr ⟨made.1, ?_, same.trans here.symm⟩)
        exact List.fst_mem_of_mem_zipIdx listed
      rw [if_pos here, List.sum_eq_zero_iff_forall_eq_nat.mpr others]
      exact once first
    · rw [if_neg here, Nat.zero_add]
      exact ih distinct.2 (first + 1)

/-- Each message value is encoded for CEL once at most. -/
theorem encodesAt_le_one (failFast : Bool) (validator : MessageValidator R) (message : Message R)
    (typeName : String) (location : Location) :
    (validate walk failFast validator message typeName).2.encodesAt location ≤ 1 :=
  encodesAt_le (frames_distinct failFast validator message typeName)
    (validate_ends walk failFast validator message typeName).counted.once location 0

end Frames

end Encodes

end Protovalidate
