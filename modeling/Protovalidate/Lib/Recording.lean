import Mathlib.Data.List.Basic

/-!
# Computations that record reports and may stop early

`Emit` is the pure form: the reports recorded so far, and the value or the
error the computation ended with. `Recorder` is the interface shared by every
way of recording, with a position that reports are made at. A `Similarity` is
a relation between two recorders that the interface preserves, so that one
proof about a computation written against the interface relates all its runs.
-/

namespace Recording

/-- Reports in the order they were recorded, and how the computation ended.
What was recorded before an error is kept. -/
structure Emit (ω ε α : Type) where
  out : List ω
  result : Except ε α

namespace Emit
variable {ω χ ε δ : Type} {α β : Type}

@[ext] theorem ext {x y : Emit ω ε α} (out : x.out = y.out) (result : x.result = y.result) :
    x = y := by
  cases x; cases y; simp_all

def ret (a : α) : Emit ω ε α := ⟨[], .ok a⟩

def fail (e : ε) : Emit ω ε α := ⟨[], .error e⟩

def report (v : ω) : Emit ω ε Unit := ⟨[v], .ok ()⟩

def andThen (x : Emit ω ε α) (f : α → Emit ω ε β) : Emit ω ε β :=
  match x.result with
  | .ok a => ⟨x.out ++ (f a).out, (f a).result⟩
  | .error e => ⟨x.out, .error e⟩

instance : Monad (Emit ω ε) where
  pure := ret
  bind := andThen

theorem pure_def (a : α) : (pure a : Emit ω ε α) = ⟨[], .ok a⟩ := rfl

theorem bind_def (x : Emit ω ε α) (f : α → Emit ω ε β) : x >>= f = x.andThen f := rfl

@[simp] theorem bind_ok (out : List ω) (a : α) (f : α → Emit ω ε β) :
    (⟨out, .ok a⟩ : Emit ω ε α) >>= f = ⟨out ++ (f a).out, (f a).result⟩ := rfl

@[simp] theorem bind_error (out : List ω) (e : ε) (f : α → Emit ω ε β) :
    (⟨out, .error e⟩ : Emit ω ε α) >>= f = ⟨out, .error e⟩ := rfl

theorem map_id (x : Emit ω ε α) : id <$> x = x := by
  obtain ⟨out, _ | a⟩ := x
  · rfl
  · exact ext (List.append_nil out) rfl

theorem bind_assoc {γ : Type} (x : Emit ω ε α) (f : α → Emit ω ε β) (g : β → Emit ω ε γ) :
    x >>= f >>= g = x >>= fun a => f a >>= g := by
  obtain ⟨out, _ | a⟩ := x
  · rfl
  · simp only [bind_ok]
    cases h : (f a).result <;> simp [bind_def, andThen, h]

instance : LawfulMonad (Emit ω ε) :=
  LawfulMonad.mk' _ map_id (fun _ _ => rfl) bind_assoc

/-- Rewrites every report. -/
def mapOut (g : ω → χ) (x : Emit ω ε α) : Emit χ ε α := ⟨x.out.map g, x.result⟩

@[simp] theorem mapOut_bind (g : ω → χ) (x : Emit ω ε α) (f : α → Emit ω ε β) :
    mapOut g (x >>= f) = mapOut g x >>= fun a => mapOut g (f a) := by
  obtain ⟨out, _ | a⟩ := x
  · rfl
  · simp [mapOut]

/-- Stops at the first report when `stopping`, with `stop` for an error.
`err` embeds the errors of the full computation. -/
def cut (stopping : Bool) (err : ε → δ) (stop : δ) (x : Emit ω ε α) : Emit ω δ α :=
  match stopping, x.out with
  | true, v :: _ => ⟨[v], .error stop⟩
  | _, out => ⟨out, x.result.mapError err⟩

variable (stopping : Bool) (err : ε → δ) (stop : δ)

theorem cut_false (x : Emit ω ε α) :
    cut false err stop x = ⟨x.out, x.result.mapError err⟩ := rfl

theorem cut_silent (x : Emit ω ε α) (silent : x.out = []) :
    cut stopping err stop x = ⟨[], x.result.mapError err⟩ := by
  cases stopping <;> simp [cut, silent]

theorem cut_cons (v : ω) (rest : List ω) (r : Except ε α) :
    cut true err stop (⟨v :: rest, r⟩ : Emit ω ε α) = ⟨[v], .error stop⟩ := rfl

/-- Stopping at the first report commutes with sequencing. -/
theorem cut_bind (x : Emit ω ε α) (f : α → Emit ω ε β) :
    cut stopping err stop (x >>= f) =
      cut stopping err stop x >>= fun a => cut stopping err stop (f a) := by
  obtain ⟨out, e | a⟩ := x
  · cases stopping <;> cases out <;> rfl
  · cases stopping with
    | false => rfl
    | true =>
      cases out with
      | nil => simp [cut_silent, Except.mapError]
      | cons v rest => simp [cut_cons]

theorem cut_mapOut (g : ω → χ) (x : Emit ω ε α) :
    cut stopping err stop (mapOut g x) = mapOut g (cut stopping err stop x) := by
  obtain ⟨out, r⟩ := x
  cases stopping <;> cases out <;> rfl

theorem cut_subset (x : Emit ω ε α) : (cut stopping err stop x).out ⊆ x.out := by
  obtain ⟨out, r⟩ := x
  cases stopping with
  | false => exact List.Subset.refl out
  | true => cases out <;> simp [cut]

theorem cut_out_length_le (x : Emit ω ε α) : (cut true err stop x).out.length ≤ 1 := by
  obtain ⟨out, r⟩ := x
  cases out <;> simp [cut]

end Emit

/-- Recording reports `ρ` at a position made of steps `σ`, stopping with an
error `ε`. -/
class Recorder (m : Type → Type) (ρ σ ε : outParam Type) extends Monad m where
  record : ρ → m Unit
  abort {α : Type} : ε → m α
  within {α : Type} : σ → m α → m α

export Recorder (record abort within)

/-- A relation between two recorders that every operation of the interface
preserves. -/
structure Similarity (m n : Type → Type) {ρ σ ε : Type} [Recorder m ρ σ ε]
    [Recorder n ρ σ ε] where
  Rel : {α : Type} → m α → n α → Prop
  pure : ∀ {α : Type} (a : α), Rel (pure a) (pure a)
  bind : ∀ {α β : Type} {x : m α} {y : n α} {f : α → m β} {g : α → n β},
    Rel x y → (∀ a, Rel (f a) (g a)) → Rel (x >>= f) (y >>= g)
  record : ∀ r, Rel (record r) (record r)
  abort : ∀ {α : Type} (e : ε), Rel (abort (α := α) e) (abort e)
  within : ∀ {α : Type} (s : σ) {x : m α} {y : n α}, Rel x y → Rel (within s x) (within s y)

namespace Similarity
variable {m n : Type → Type} {ρ σ ε : Type} [Recorder m ρ σ ε] [Recorder n ρ σ ε]
variable (S : Similarity m n)

theorem forM {ι : Type} (items : List ι) {f : ι → m PUnit} {g : ι → n PUnit}
    (each : ∀ i ∈ items, S.Rel (f i) (g i)) : S.Rel (items.forM f) (items.forM g) := by
  induction items with
  | nil => exact S.pure _
  | cons i rest ih =>
    refine S.bind (each i List.mem_cons_self) (fun _ => ?_)
    exact ih (fun j hj => each j (List.mem_cons_of_mem i hj))

theorem foldlM {ι β : Type} (items : List ι) {f : β → ι → m β} {g : β → ι → n β}
    (each : ∀ b, ∀ i ∈ items, S.Rel (f b i) (g b i)) (b : β) :
    S.Rel (items.foldlM f b) (items.foldlM g b) := by
  induction items generalizing b with
  | nil => exact S.pure _
  | cons i rest ih =>
    refine S.bind (each b i List.mem_cons_self) (fun b => ?_)
    exact ih (fun b j hj => each b j (List.mem_cons_of_mem i hj)) b

theorem ite {α : Type} {c : Prop} [Decidable c] {x x' : m α} {y y' : n α}
    (yes : S.Rel x y) (no : S.Rel x' y') :
    S.Rel (if c then x else x') (if c then y else y') := by
  split
  · exact yes
  · exact no

end Similarity

end Recording
