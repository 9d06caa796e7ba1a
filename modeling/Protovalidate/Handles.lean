import Mathlib.Data.Multiset.Count
import Mathlib.Logic.Function.Basic
import Mathlib.Logic.Relation

/-!
# Who frees what of the CEL backend

An engine is freed once the `Engine` and every `Program` and `Frame` made from it are
gone, which own it together. Dropping a program frees what is its own, then its share of
the engine, and whoever drops the last share frees the engine. Other threads may come in
between at every point.
-/

namespace Protovalidate

namespace Shim

open Relation (ReflTransGen)

/-- Where the shim allocated something. -/
abbrev Address := Nat

/-- What the shim allocates. A program or a frame is bound to an engine. -/
inductive Object
  | engine
  | program (engine : Address)
  | frame (engine : Address)
  deriving DecidableEq, Repr

/-- What is allocated. -/
abbrev Memory := Address → Option Object

/-- The calls of the shim that use or free something. -/
inductive ShimCall
  | engineNew (address : Address)
  /-- Adding a file, registering a function, or a compilation that fails. -/
  | engineUse (engine : Address)
  | programNew (engine address : Address)
  | frameNew (engine address : Address)
  | programEval (program : Address) (frame : Option Address)
  | programFree (program : Address)
  | frameFree (frame : Address)
  | engineFree (engine : Address)
  deriving DecidableEq, Repr

namespace ShimCall

/-- What a call relies on: what it uses is allocated, with the engine that it is bound to,
and an engine outlives what is bound to it. -/
def Allowed (memory : Memory) : ShimCall → Prop
  | .engineNew address => memory address = none
  | .engineUse engine => memory engine = some .engine
  | .programNew engine address | .frameNew engine address =>
    memory engine = some .engine ∧ memory address = none
  | .programEval program frame =>
    (∃ engine, memory program = some (.program engine) ∧ memory engine = some .engine) ∧
      ∀ f ∈ frame, ∃ engine, memory f = some (.frame engine) ∧ memory engine = some .engine
  | .programFree program =>
    ∃ engine, memory program = some (.program engine) ∧ memory engine = some .engine
  | .frameFree frame =>
    ∃ engine, memory frame = some (.frame engine) ∧ memory engine = some .engine
  | .engineFree engine => memory engine = some .engine ∧
    ∀ address, memory address ≠ some (.program engine) ∧ memory address ≠ some (.frame engine)

def after (memory : Memory) : ShimCall → Memory
  | .engineNew address => Function.update memory address (some .engine)
  | .engineUse _ | .programEval _ _ => memory
  | .programNew engine address => Function.update memory address (some (.program engine))
  | .frameNew engine address => Function.update memory address (some (.frame engine))
  | .programFree address | .frameFree address | .engineFree address =>
    Function.update memory address none

end ShimCall

/-- A value that owns something of the shim's. -/
inductive Handle
  | engine (shared : Address)
  | program (raw shared : Address)
  | frame (raw shared : Address)
  /-- A share of an engine, of a value that is being dropped. -/
  | share (shared : Address)
  /-- The last share, being dropped. -/
  | last (shared : Address)
  deriving DecidableEq, Repr

namespace Handle

def shared : Handle → Address
  | .engine e | .program _ e | .frame _ e | .share e | .last e => e

/-- What a handle keeps from being freed. -/
def Holds (handle : Handle) (address : Address) (object : Object) : Prop :=
  address = handle.shared ∧ object = .engine ∨
  match handle with
  | .program raw e => address = raw ∧ object = .program e
  | .frame raw e => address = raw ∧ object = .frame e
  | _ => False

/-- What a handle is to free. -/
def frees : Handle → Option Address
  | .program raw _ | .frame raw _ => some raw
  | .last e => some e
  | _ => none

/-- The engine whose shares a handle is counted among. -/
def counted : Handle → Option Address
  | .last _ => none
  | handle => some handle.shared

section Lemmas
variable {e raw address : Address} {object : Object} {handle : Handle}

@[simp] theorem holds_engine : (engine e).Holds address object ↔ address = e ∧ object = .engine :=
  Iff.of_eq (or_false _)

@[simp] theorem holds_share : (share e).Holds address object ↔ address = e ∧ object = .engine :=
  Iff.of_eq (or_false _)

@[simp] theorem holds_last : (last e).Holds address object ↔ address = e ∧ object = .engine :=
  Iff.of_eq (or_false _)

@[simp] theorem holds_program : (program raw e).Holds address object ↔
    address = e ∧ object = .engine ∨ address = raw ∧ object = .program e := Iff.rfl

@[simp] theorem holds_frame : (frame raw e).Holds address object ↔
    address = e ∧ object = .engine ∨ address = raw ∧ object = .frame e := Iff.rfl

theorem holds_shared (handle : Handle) : handle.Holds handle.shared .engine := .inl ⟨rfl, rfl⟩

/-- A handle holds what it is to free. -/
theorem holds_frees (frees : handle.frees = some address) :
    ∃ object, handle.Holds address object := by
  cases handle with
  | engine _ | share _ => cases frees
  | program raw e =>
    cases frees
    exact ⟨.program e, holds_program.mpr (.inr ⟨rfl, rfl⟩)⟩
  | frame raw e =>
    cases frees
    exact ⟨.frame e, holds_frame.mpr (.inr ⟨rfl, rfl⟩)⟩
  | last e =>
    cases frees
    exact ⟨.engine, holds_last.mpr ⟨rfl, rfl⟩⟩

/-- A handle is to free what it holds of its own. -/
theorem frees_holds (holds : handle.Holds address object) (bound : object ≠ .engine) :
    handle.frees = some address := by
  cases handle with
  | engine | share | last => exact absurd (by simpa using holds : _ ∧ _).2 bound
  | program raw e =>
    rcases holds_program.mp holds with ⟨-, same⟩ | ⟨rfl, -⟩
    · exact absurd same bound
    · rfl
  | frame raw e =>
    rcases holds_frame.mp holds with ⟨-, same⟩ | ⟨rfl, -⟩
    · exact absurd same bound
    · rfl

theorem shared_counted (counted : handle.counted = some e) : handle.shared = e := by
  cases handle <;> cases counted <;> rfl

/-- A share of an engine is counted, unless it is the last one. -/
theorem counted_or_last (handle : Handle) :
    handle.counted = some handle.shared ∨ handle = .last handle.shared := by
  cases handle with
  | last _ => exact .inr rfl
  | _ => exact .inl rfl

end Lemmas

end Handle

/-- The memory of the shim, the number of shares of each engine, and the values that own
something of it, wherever they are. -/
structure Process where
  memory : Memory
  strong : Address → Nat
  handles : Multiset Handle

/-- One step of any thread, with the shim's function that it calls. A value that is
borrowed is not dropped meanwhile. -/
inductive Process.Step : Process → Option ShimCall → Process → Prop
  | newEngine {memory : Memory} {strong : Address → Nat} {handles : Multiset Handle}
      {address : Address} : memory address = none →
    Step ⟨memory, strong, handles⟩ (some (.engineNew address))
      ⟨(ShimCall.engineNew address).after memory, Function.update strong address 1,
        .engine address ::ₘ handles⟩
  | useEngine {p : Process} {e : Address} : .engine e ∈ p.handles →
    Step p (some (.engineUse e)) p
  | compile {memory : Memory} {strong : Address → Nat} {handles : Multiset Handle}
      {e address : Address} : .engine e ∈ handles → memory address = none →
    Step ⟨memory, strong, handles⟩ (some (.programNew e address))
      ⟨(ShimCall.programNew e address).after memory, Function.update strong e (strong e + 1),
        .program address e ::ₘ handles⟩
  | frame {memory : Memory} {strong : Address → Nat} {handles : Multiset Handle}
      {e address : Address} : .engine e ∈ handles → memory address = none →
    Step ⟨memory, strong, handles⟩ (some (.frameNew e address))
      ⟨(ShimCall.frameNew e address).after memory, Function.update strong e (strong e + 1),
        .frame address e ::ₘ handles⟩
  | eval {p : Process} {program e : Address} {frame : Option Address} :
    .program program e ∈ p.handles → (∀ f ∈ frame, ∃ e', .frame f e' ∈ p.handles) →
    Step p (some (.programEval program frame)) p
  | dropEngine {memory : Memory} {strong : Address → Nat} {rest : Multiset Handle} {e : Address} :
    Step ⟨memory, strong, .engine e ::ₘ rest⟩ none ⟨memory, strong, .share e ::ₘ rest⟩
  | dropProgram {memory : Memory} {strong : Address → Nat} {rest : Multiset Handle}
      {raw e : Address} :
    Step ⟨memory, strong, .program raw e ::ₘ rest⟩ (some (.programFree raw))
      ⟨(ShimCall.programFree raw).after memory, strong, .share e ::ₘ rest⟩
  | dropFrame {memory : Memory} {strong : Address → Nat} {rest : Multiset Handle}
      {raw e : Address} :
    Step ⟨memory, strong, .frame raw e ::ₘ rest⟩ (some (.frameFree raw))
      ⟨(ShimCall.frameFree raw).after memory, strong, .share e ::ₘ rest⟩
  | release {memory : Memory} {strong : Address → Nat} {rest : Multiset Handle} {e : Address} :
    strong e ≠ 1 →
    Step ⟨memory, strong, .share e ::ₘ rest⟩ none
      ⟨memory, Function.update strong e (strong e - 1), rest⟩
  | releaseLast {memory : Memory} {strong : Address → Nat} {rest : Multiset Handle}
      {e : Address} : strong e = 1 →
    Step ⟨memory, strong, .share e ::ₘ rest⟩ none
      ⟨memory, Function.update strong e 0, .last e ::ₘ rest⟩
  | freeEngine {memory : Memory} {strong : Address → Nat} {rest : Multiset Handle}
      {e : Address} :
    Step ⟨memory, strong, .last e ::ₘ rest⟩ (some (.engineFree e))
      ⟨(ShimCall.engineFree e).after memory, strong, rest⟩

namespace Process

def start : Process := ⟨fun _ => none, fun _ => 0, 0⟩

def Reachable (p : Process) : Prop :=
  ReflTransGen (fun p p' => ∃ call, Step p call p') start p

/-- Exactly what is held is allocated. -/
def Held (memory : Memory) (handles : Multiset Handle) : Prop :=
  ∀ address object, memory address = some object ↔
    ∃ handle ∈ handles, handle.Holds address object

/-- How many values are to free what is at an address. -/
def freeing (handles : Multiset Handle) (address : Address) : Nat :=
  handles.countP fun handle => handle.frees = some address

/-- How many shares of an engine there are. -/
def sharing (handles : Multiset Handle) (e : Address) : Nat :=
  handles.countP fun handle => handle.counted = some e

/-- Exactly what is held is allocated, one handle is to free it, and an engine's shares
are counted until the last one is dropped. -/
structure Sound (p : Process) : Prop where
  held : Held p.memory p.handles
  once : ∀ address, freeing p.handles address ≤ 1
  shares : ∀ e, p.strong e = sharing p.handles e
  last : ∀ e, .last e ∈ p.handles → p.strong e = 0

/-! ### What is allocated -/

section Held
variable {memory : Memory} {handles rest : Multiset Handle} {address : Address}

/-- A new value holds what was allocated for it, beside what is held already. -/
theorem Held.alloc (held : Held memory handles) (free : memory address = none) {object : Object}
    {new : Handle} (own : new.Holds address object)
    (others : ∀ other o, new.Holds other o → other = address ∧ o = object ∨
      memory other = some o) :
    Held (Function.update memory address (some object)) (new ::ₘ handles) := by
  intro other o
  simp only [Multiset.mem_cons, exists_eq_or_imp]
  by_cases here : other = address
  · subst here
    rw [Function.update_self, Option.some.injEq]
    constructor
    · rintro rfl
      exact .inl own
    · rintro (holds | before)
      · rcases others other o holds with ⟨-, rfl⟩ | before
        · rfl
        · cases free.symm.trans before
      · cases free.symm.trans ((held other o).mpr before)
  · rw [Function.update_of_ne here, held]
    constructor
    · exact .inr
    · rintro (holds | before)
      · exact (held other o).mp ((others other o holds).resolve_left fun same => here same.1)
      · exact before

/-- What one value is to free is held by no other, and what else it holds by the ones that
are left. -/
theorem Held.free {gone : Handle} (held : Held memory (gone ::ₘ rest)) {left : Multiset Handle}
    (alone : ∀ handle ∈ left, ∀ object, ¬handle.Holds address object)
    (keeps : ∀ other object, other ≠ address → gone.Holds other object →
      ∃ handle ∈ left, handle.Holds other object)
    (within : rest ≤ left)
    (from_ : ∀ handle ∈ left, ∀ other object, handle.Holds other object →
      memory other = some object) :
    Held (Function.update memory address none) left := by
  intro other object
  by_cases here : other = address
  · subst here
    rw [Function.update_self]
    constructor
    · intro none
      cases none
    · rintro ⟨handle, member, holds⟩
      exact absurd holds (alone handle member object)
  · rw [Function.update_of_ne here]
    constructor
    · intro present
      obtain ⟨handle, member, holds⟩ := (held other object).mp present
      rcases Multiset.mem_cons.mp member with rfl | member
      · exact keeps other object here holds
      · exact ⟨handle, Multiset.mem_of_le within member, holds⟩
    · rintro ⟨handle, member, holds⟩
      exact from_ handle member other object holds

end Held

section Counts
variable {handle : Handle} {handles : Multiset Handle} {address e : Address}

theorem freeing_cons : freeing (handle ::ₘ handles) address =
    freeing handles address + if handle.frees = some address then 1 else 0 :=
  Multiset.countP_cons ..

theorem sharing_cons : sharing (handle ::ₘ handles) e =
    sharing handles e + if handle.counted = some e then 1 else 0 :=
  Multiset.countP_cons ..

theorem freeing_pos : 0 < freeing handles address ↔
    ∃ handle ∈ handles, handle.frees = some address :=
  Multiset.countP_pos

theorem sharing_pos : 0 < sharing handles e ↔ ∃ handle ∈ handles, handle.counted = some e :=
  Multiset.countP_pos

end Counts

section Sound
variable {p : Process} {e address : Address} {handle gone : Handle} {rest : Multiset Handle}

theorem Sound.present (sound : p.Sound) (member : handle ∈ p.handles) {object : Object}
    (holds : handle.Holds address object) : p.memory address = some object :=
  (sound.held address object).mpr ⟨handle, member, holds⟩

theorem Sound.engine (sound : p.Sound) (member : handle ∈ p.handles) :
    p.memory handle.shared = some .engine :=
  sound.present member handle.holds_shared

/-- A counted share is one at least. -/
theorem Sound.pos (sound : p.Sound) (member : handle ∈ p.handles)
    (counted : handle.counted = some e) : 0 < p.strong e := by
  rw [sound.shares]
  exact sharing_pos.mpr ⟨handle, member, counted⟩

/-- While the last share of an engine is being dropped there is no other. -/
theorem Sound.last_shared (sound : p.Sound) (last : .last e ∈ p.handles)
    (member : handle ∈ p.handles) (shares : handle.shared = e) : handle = .last e := by
  rcases handle.counted_or_last with counted | same
  · have positive := sound.pos member counted
    rw [shares, sound.last e last] at positive
    cases positive
  · rw [same, shares]

theorem Sound.owner_program (sound : p.Sound) (present : p.memory address = some (.program e)) :
    .program address e ∈ p.handles := by
  obtain ⟨handle, member, holds⟩ := (sound.held address _).mp present
  cases handle <;> simp at holds
  obtain ⟨rfl, rfl⟩ := holds
  exact member

theorem Sound.owner_frame (sound : p.Sound) (present : p.memory address = some (.frame e)) :
    .frame address e ∈ p.handles := by
  obtain ⟨handle, member, holds⟩ := (sound.held address _).mp present
  cases handle <;> simp at holds
  obtain ⟨rfl, rfl⟩ := holds
  exact member

/-- No other handle is to free the same. -/
theorem Sound.alone (sound : p.Sound) (split : p.handles = gone ::ₘ rest)
    (own : gone.frees = some address) (member : handle ∈ rest) : handle.frees ≠ some address := by
  intro same
  have once := sound.once address
  rw [split, freeing_cons, if_pos own] at once
  have positive := freeing_pos.mpr ⟨handle, member, same⟩
  omega

/-- Nothing that is freed or counted is where nothing is allocated. -/
theorem Sound.unused (sound : p.Sound) (free : p.memory address = none)
    (member : handle ∈ p.handles) : handle.frees ≠ some address ∧ handle.shared ≠ address := by
  constructor
  · intro own
    obtain ⟨object, holds⟩ := Handle.holds_frees own
    cases free.symm.trans (sound.present member holds)
  · rintro rfl
    cases free.symm.trans (sound.engine member)

/-- A call of a step is allowed. -/
theorem Sound.allowed (sound : p.Sound) {call : ShimCall} {p' : Process}
    (step : Step p (some call) p') : call.Allowed p.memory := by
  cases step with
  | newEngine free => exact free
  | useEngine member => exact sound.engine member
  | compile member free => exact ⟨sound.engine member, free⟩
  | frame member free => exact ⟨sound.engine member, free⟩
  | @eval _ program e frame member frames =>
    refine ⟨⟨e, sound.present member (by simp), sound.engine member⟩, fun f given => ?_⟩
    obtain ⟨e', member'⟩ := frames f given
    exact ⟨e', sound.present member' (by simp), sound.engine member'⟩
  | @dropProgram _ _ rest raw e =>
    have member : .program raw e ∈ (Handle.program raw e ::ₘ rest) := Multiset.mem_cons_self _ _
    exact ⟨e, sound.present member (by simp), sound.engine member⟩
  | @dropFrame _ _ rest raw e =>
    have member : .frame raw e ∈ (Handle.frame raw e ::ₘ rest) := Multiset.mem_cons_self _ _
    exact ⟨e, sound.present member (by simp), sound.engine member⟩
  | @freeEngine _ _ rest e =>
    have last : .last e ∈ (Handle.last e ::ₘ rest) := Multiset.mem_cons_self _ _
    refine ⟨sound.engine last, fun address => ⟨fun present => ?_, fun present => ?_⟩⟩
    · cases sound.last_shared last (sound.owner_program present) rfl
    · cases sound.last_shared last (sound.owner_frame present) rfl

theorem Sound.freeing_none (sound : p.Sound) (free : p.memory address = none) :
    freeing p.handles address = 0 := by
  refine Nat.eq_zero_of_not_pos fun positive => ?_
  obtain ⟨handle, member, frees⟩ := freeing_pos.mp positive
  exact (sound.unused free member).1 frees

/-- A new value, with its share of its engine, where nothing was allocated. -/
theorem Sound.alloc {object : Object} (sound : p.Sound) (free : p.memory address = none)
    (member : gone ∈ p.handles) (counted : gone.counted = some e)
    (own : handle.Holds address object) (frees : handle.frees = some address)
    (shares : handle.counted = some e)
    (others : ∀ other o, handle.Holds other o → other = address ∧ o = object ∨
      other = e ∧ o = .engine) :
    Sound ⟨Function.update p.memory address (some object),
      Function.update p.strong e (p.strong e + 1), handle ::ₘ p.handles⟩ where
  held := sound.held.alloc free own fun other o holds => by
    rcases others other o holds with here | ⟨rfl, rfl⟩
    · exact .inl here
    · exact .inr (Handle.shared_counted counted ▸ sound.engine member)
  once other := by
    simp only [freeing_cons, frees, Option.some.injEq]
    by_cases here : address = other
    · rw [if_pos here, ← here, sound.freeing_none free]
    · rw [if_neg here]
      exact sound.once other
  shares other := by
    simp only [sharing_cons, shares, Option.some.injEq, ← sound.shares]
    by_cases here : other = e
    · subst here
      rw [if_pos rfl]
      exact Function.update_self ..
    · rw [if_neg (Ne.symm here)]
      exact Function.update_of_ne here ..
  last other last := by
    have before : .last other ∈ p.handles := by
      rcases Multiset.mem_cons.mp last with rfl | before
      · cases shares
      · exact before
    have apart : other ≠ e := by
      rintro rfl
      have positive := sound.pos member counted
      rw [sound.last other before] at positive
      cases positive
    exact (Function.update_of_ne apart ..).trans (sound.last other before)

/-- A program or a frame frees what is its own, and keeps its share. -/
theorem Sound.drop {memory : Memory} {strong : Address → Nat} {raw : Address} {object : Object}
    (sound : Sound ⟨memory, strong, gone ::ₘ rest⟩) (own : gone.frees = some raw)
    (shares : gone.counted = some e) (bound : object ≠ .engine)
    (holds : ∀ other o, gone.Holds other o ↔ other = e ∧ o = .engine ∨ other = raw ∧ o = object) :
    Sound ⟨Function.update memory raw none, strong, .share e ::ₘ rest⟩ where
  held := by
    have self : gone ∈ gone ::ₘ rest := Multiset.mem_cons_self _ _
    have here : memory raw = some object :=
      sound.present self ((holds raw object).mpr (.inr ⟨rfl, rfl⟩))
    have engine : memory e = some .engine :=
      sound.present self ((holds e .engine).mpr (.inl ⟨rfl, rfl⟩))
    have apart : raw ≠ e := by
      rintro rfl
      exact bound (Option.some.inj (here.symm.trans engine))
    refine sound.held.free ?_ ?_ (Multiset.le_cons_self _ _) ?_
    · intro handle member o held
      rcases Multiset.mem_cons.mp member with rfl | member
      · exact apart (Handle.holds_share.mp held).1
      · have present := sound.present (Multiset.mem_cons_of_mem member) held
        obtain rfl : o = object := Option.some.inj (present.symm.trans here)
        exact sound.alone rfl own member (Handle.frees_holds held bound)
    · intro other o elsewhere held
      rcases (holds other o).mp held with ⟨rfl, rfl⟩ | ⟨rfl, -⟩
      · exact ⟨.share other, Multiset.mem_cons_self _ _, Handle.holds_share.mpr ⟨rfl, rfl⟩⟩
      · exact absurd rfl elsewhere
    · intro handle member other o held
      rcases Multiset.mem_cons.mp member with rfl | member
      · obtain ⟨rfl, rfl⟩ := Handle.holds_share.mp held
        exact engine
      · exact sound.present (Multiset.mem_cons_of_mem member) held
  once other := by
    have before := sound.once other
    rw [freeing_cons] at before ⊢
    exact (Nat.le_add_right ..).trans before
  shares other := by
    have before := sound.shares other
    rw [sharing_cons, shares] at before
    rw [sharing_cons]
    exact before
  last other last := by
    rcases Multiset.mem_cons.mp last with same | before
    · cases same
    · exact sound.last other (Multiset.mem_cons_of_mem before)

/-- An engine, with the first share of it. -/
theorem Sound.create (sound : p.Sound) (free : p.memory address = none) :
    Sound ⟨Function.update p.memory address (some .engine), Function.update p.strong address 1,
      .engine address ::ₘ p.handles⟩ where
  held := sound.held.alloc free (Handle.holds_engine.mpr ⟨rfl, rfl⟩) fun other o holds =>
    .inl (Handle.holds_engine.mp holds)
  once other := by
    rw [freeing_cons]
    exact sound.once other
  shares other := by
    have counts : (Handle.engine address).counted = some address := rfl
    simp only [sharing_cons, counts, Option.some.injEq, ← sound.shares]
    by_cases here : other = address
    · subst here
      have none : p.strong other = 0 := by
        refine Nat.eq_zero_of_not_pos fun positive => ?_
        obtain ⟨handle, member, counted⟩ := sharing_pos.mp (sound.shares other ▸ positive)
        exact (sound.unused free member).2 (Handle.shared_counted counted)
      rw [if_pos rfl, none]
      exact Function.update_self ..
    · rw [if_neg (Ne.symm here)]
      exact Function.update_of_ne here ..
  last other last := by
    rcases Multiset.mem_cons.mp last with same | before
    · cases same
    · have apart : other ≠ address := (sound.unused free before).2
      exact (Function.update_of_ne apart ..).trans (sound.last other before)

/-- A value in the place of one that holds the same. -/
theorem Held.replace {memory : Memory} (held : Held memory (gone ::ₘ rest))
    (same : ∀ address object, handle.Holds address object ↔ gone.Holds address object) :
    Held memory (handle ::ₘ rest) := by
  intro address object
  rw [held]
  simp only [Multiset.mem_cons, exists_eq_or_imp, same]

theorem Sound.dropEngine {memory : Memory} {strong : Address → Nat}
    (sound : Sound ⟨memory, strong, .engine e ::ₘ rest⟩) :
    Sound ⟨memory, strong, .share e ::ₘ rest⟩ where
  held := sound.held.replace fun address object => by simp
  once other := by
    have before := sound.once other
    rw [freeing_cons] at before ⊢
    exact before
  shares other := by
    have before := sound.shares other
    rw [sharing_cons] at before ⊢
    exact before
  last other last := by
    rcases Multiset.mem_cons.mp last with same | before
    · cases same
    · exact sound.last other (Multiset.mem_cons_of_mem before)

section Release
variable {memory : Memory} {strong : Address → Nat}
  (sound : Sound ⟨memory, strong, .share e ::ₘ rest⟩)
include sound

theorem Sound.left (other : Address) : sharing rest other = if other = e then strong e - 1
    else strong other := by
  have before : strong other = _ := sound.shares other
  have counts : (Handle.share e).counted = some e := rfl
  simp only [sharing_cons, counts, Option.some.injEq] at before
  by_cases here : other = e
  · subst here
    rw [if_pos rfl] at before ⊢
    omega
  · rw [if_neg (Ne.symm here)] at before
    rw [if_neg here]
    omega

/-- An engine with a share that is counted has none that is the last. -/
theorem Sound.no_last {other : Address} (last : .last other ∈ rest) : other ≠ e := by
  rintro rfl
  have positive : 0 < strong other :=
    sound.pos (Multiset.mem_cons_self (Handle.share other) rest) rfl
  have none : strong other = 0 := sound.last other (Multiset.mem_cons_of_mem last)
  omega

theorem Sound.release (more : strong e ≠ 1) :
    Sound ⟨memory, Function.update strong e (strong e - 1), rest⟩ where
  held address object := by
    rw [sound.held]
    simp only [Multiset.mem_cons, exists_eq_or_imp, Handle.holds_share]
    refine or_iff_right_of_imp ?_
    rintro ⟨rfl, rfl⟩
    have positive : 0 < strong address :=
      sound.pos (Multiset.mem_cons_self (Handle.share address) rest) rfl
    have others := sound.left address
    rw [if_pos rfl] at others
    have some : 0 < sharing rest address := by omega
    obtain ⟨handle, member, counted⟩ := sharing_pos.mp some
    exact ⟨handle, member, Handle.shared_counted counted ▸ handle.holds_shared⟩
  once other := by
    have before := sound.once other
    rw [freeing_cons] at before
    exact (Nat.le_add_right ..).trans before
  shares other := by
    rw [sound.left]
    exact Function.update_apply ..
  last other last := by
    have apart := sound.no_last last
    exact (Function.update_of_ne apart ..).trans (sound.last other (Multiset.mem_cons_of_mem last))

theorem Sound.releaseLast (one : strong e = 1) :
    Sound ⟨memory, Function.update strong e 0, .last e ::ₘ rest⟩ where
  held := sound.held.replace fun address object => by simp
  once other := by
    have before := sound.once other
    have nothing : (Handle.share e).frees = none := rfl
    have frees : (Handle.last e).frees = some e := rfl
    simp only [freeing_cons, nothing, frees, Option.some.injEq] at before ⊢
    by_cases here : e = other
    · subst here
      have none : freeing rest e = 0 := by
        refine Nat.eq_zero_of_not_pos fun positive => ?_
        obtain ⟨handle, member, frees⟩ := freeing_pos.mp positive
        have engine : memory e = some .engine :=
          sound.engine (Multiset.mem_cons_self (Handle.share e) rest)
        have held : ∀ object, handle.Holds e object → memory e = some object :=
          fun object => sound.present (Multiset.mem_cons_of_mem member)
        cases handle with
        | engine | share => cases frees
        | program raw e' =>
          cases frees
          cases engine.symm.trans (held _ (Handle.holds_program.mpr (.inr ⟨rfl, rfl⟩)))
        | frame raw e' =>
          cases frees
          cases engine.symm.trans (held _ (Handle.holds_frame.mpr (.inr ⟨rfl, rfl⟩)))
        | last e' =>
          cases frees
          exact sound.no_last member rfl
      rw [none, if_pos rfl]
    · rw [if_neg here]
      simpa using before
  shares other := by
    have nothing : (Handle.last e).counted = none := rfl
    simp only [sharing_cons, nothing, sound.left, Function.update_apply]
    by_cases here : other = e
    · simp [here, one]
    · simp [here]
  last other last := by
    rcases Multiset.mem_cons.mp last with same | before
    · cases same
      exact Function.update_self ..
    · have apart := sound.no_last before
      exact (Function.update_of_ne apart ..).trans
        (sound.last other (Multiset.mem_cons_of_mem before))

end Release

theorem Sound.freeEngine {memory : Memory} {strong : Address → Nat}
    (sound : Sound ⟨memory, strong, .last e ::ₘ rest⟩) :
    Sound ⟨Function.update memory e none, strong, rest⟩ where
  held := by
    have self : Handle.last e ∈ Handle.last e ::ₘ rest := Multiset.mem_cons_self _ _
    refine sound.held.free ?_ ?_ le_rfl ?_
    · intro handle member object holds
      have present := sound.present (Multiset.mem_cons_of_mem member) holds
      obtain rfl : object = .engine := Option.some.inj (present.symm.trans (sound.engine self))
      have shares : handle.shared = e := (holds.resolve_right fun own => by
        cases handle <;> simp at own).1.symm
      have same := sound.last_shared self (Multiset.mem_cons_of_mem member) shares
      exact sound.alone rfl rfl member (same ▸ rfl)
    · intro other object elsewhere holds
      exact absurd (Handle.holds_last.mp holds).1 elsewhere
    · exact fun handle member other object holds =>
        sound.present (Multiset.mem_cons_of_mem member) holds
  once other := by
    have before := sound.once other
    rw [freeing_cons] at before
    exact (Nat.le_add_right ..).trans before
  shares other := by
    have before := sound.shares other
    rw [sharing_cons] at before
    exact before
  last other last := sound.last other (Multiset.mem_cons_of_mem last)

end Sound

theorem step_sound {p p' : Process} {call : Option ShimCall} (sound : p.Sound)
    (step : Step p call p') : p'.Sound := by
  cases step with
  | newEngine free => exact sound.create free
  | useEngine member | eval member frames => exact sound
  | compile member free =>
    exact sound.alloc free member rfl (by simp) rfl rfl fun other o holds => by
      simpa [or_comm] using holds
  | frame member free =>
    exact sound.alloc free member rfl (by simp) rfl rfl fun other o holds => by
      simpa [or_comm] using holds
  | dropEngine => exact sound.dropEngine
  | dropProgram => exact sound.drop rfl rfl (by simp) fun other o => Handle.holds_program
  | dropFrame => exact sound.drop rfl rfl (by simp) fun other o => Handle.holds_frame
  | release more => exact sound.release more
  | releaseLast one => exact sound.releaseLast one
  | freeEngine => exact sound.freeEngine

theorem start_sound : start.Sound where
  held address object := by simp [start]
  once address := Nat.zero_le 1
  shares e := rfl
  last e last := absurd last (Multiset.notMem_zero _)

theorem reachable_sound {p : Process} (reachable : p.Reachable) : p.Sound := by
  induction reachable with
  | refl => exact start_sound
  | tail _ step ih =>
    obtain ⟨call, step⟩ := step
    exact step_sound ih step

/-- In every interleaving the shim is called with what is allocated and frees nothing twice
nor before what is bound to it, and what is allocated is what some value holds: nothing
when all of them are dropped. -/
theorem reachable_frees {p : Process} (reachable : p.Reachable) :
    (∀ call p', Step p (some call) p' → call.Allowed p.memory) ∧
    (∀ address object, p.memory address = some object ↔
      ∃ handle ∈ p.handles, handle.Holds address object) ∧
    (p.handles = 0 → p.memory = fun _ => none) := by
  have sound := reachable_sound reachable
  refine ⟨fun call p' step => sound.allowed step, sound.held, fun none => ?_⟩
  funext address
  refine Option.eq_none_iff_forall_ne_some.mpr fun object present => ?_
  obtain ⟨handle, member, -⟩ := (sound.held address object).mp present
  rw [none] at member
  exact Multiset.notMem_zero handle member

/-- The engine is dropped before the program that was made from it. -/
def kept : Process where
  memory := (ShimCall.programNew 0 1).after ((ShimCall.engineNew 0).after start.memory)
  strong := Function.update (Function.update (Function.update start.strong 0 1) 0 2) 0 1
  handles := .program 1 0 ::ₘ 0

theorem kept_reachable : kept.Reachable := by
  have created : Step start (some (.engineNew 0)) ⟨(ShimCall.engineNew 0).after start.memory,
      Function.update start.strong 0 1, .engine 0 ::ₘ 0⟩ := .newEngine rfl
  have compiled : Step ⟨(ShimCall.engineNew 0).after start.memory,
      Function.update start.strong 0 1, .engine 0 ::ₘ 0⟩ (some (.programNew 0 1))
      ⟨kept.memory, Function.update (Function.update start.strong 0 1) 0 2,
        .engine 0 ::ₘ .program 1 0 ::ₘ 0⟩ := by
    rw [Multiset.cons_swap]
    exact .compile (Multiset.mem_cons_self _ _) rfl
  refine .tail (.tail (.tail (.tail .refl ⟨_, created⟩) ⟨_, compiled⟩) ⟨_, .dropEngine⟩) ⟨none, ?_⟩
  exact .release (by simp)

/-- A program is left, which may still be evaluated and freed, and its engine with it. -/
theorem reachable_frees_kept : kept.memory 0 = some .engine ∧
    (ShimCall.programEval 1 none).Allowed kept.memory := by
  obtain ⟨allowed, held, -⟩ := reachable_frees kept_reachable
  have member : Handle.program 1 0 ∈ kept.handles :=
    Multiset.mem_cons_self (Handle.program 1 0) 0
  refine ⟨(held 0 .engine).mpr ⟨.program 1 0, member, Handle.holds_shared (.program 1 0)⟩, ?_⟩
  exact allowed _ kept (.eval member (by simp))

end Process

end Shim

end Protovalidate
