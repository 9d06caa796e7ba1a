import Protovalidate.Lib.Recording

/-!
# What a recorded run reports, part by part

`Outcome` bounds what a run reports and fails with, from bounds on its parts.
`PartOf` is the other direction: what a part reports, the run does without a
break, and what it fails with. A part of a loop is run once the iterations
before it ended well. `UpTo` compares a run with one that may stop before it does.
-/

namespace Recording

namespace Emit
variable {ω ε : Type} {α β : Type}

/-- Every report of a run is in `P`, and the error it ends with, if any, is in
`Q`. -/
structure Outcome (P : ω → Prop) (Q : ε → Prop) (x : Emit ω ε α) : Prop where
  reported : ∀ v ∈ x.out, P v
  failed : ∀ e, x.result = .error e → Q e

/-- The run of `x` contains a run of `y`. -/
structure PartOf (y : Emit ω ε β) (x : Emit ω ε α) : Prop where
  segment : y.out <:+: x.out
  failed : ∀ e, y.result = .error e → x.result = .error e

/-- What a run in sequence reports and fails with. -/
theorem bind_out (x : Emit ω ε α) (f : α → Emit ω ε β) {v : ω} :
    v ∈ (x >>= f).out ↔ v ∈ x.out ∨ ∃ a, x.result = .ok a ∧ v ∈ (f a).out := by
  obtain ⟨out, e | a⟩ := x <;> simp

theorem bind_result_error (x : Emit ω ε α) (f : α → Emit ω ε β) {e : ε} :
    (x >>= f).result = .error e ↔
      x.result = .error e ∨ ∃ a, x.result = .ok a ∧ (f a).result = .error e := by
  obtain ⟨out, e | a⟩ := x <;> simp

theorem bind_result_ok (x : Emit ω ε α) (f : α → Emit ω ε β) {b : β} :
    (x >>= f).result = .ok b ↔ ∃ a, x.result = .ok a ∧ (f a).result = .ok b := by
  obtain ⟨out, e | a⟩ := x <;> simp

/-- A loop over the items of two lists is a loop over each. -/
theorem forM_append {ι : Type} (before after : List ι) (f : ι → Emit ω ε PUnit) :
    (before ++ after).forM f = before.forM f >>= fun _ => after.forM f := by
  induction before with
  | nil => exact (LawfulMonad.pure_bind PUnit.unit fun _ => after.forM f).symm
  | cons i before ih =>
    calc ((i :: before) ++ after).forM f
        = f i >>= fun _ => (before ++ after).forM f := rfl
      _ = f i >>= fun _ => before.forM f >>= fun _ => after.forM f := by rw [ih]
      _ = (i :: before).forM f >>= fun _ => after.forM f := (bind_assoc _ _ _).symm

/-- Two loops are the same if their iterations are, each after those before it. -/
theorem forM_congr {ι : Type} {items : List ι} {f g : ι → Emit ω ε PUnit}
    (each : ∀ before i after, items = before ++ i :: after →
      (before.forM f).result = .ok PUnit.unit → f i = g i) : items.forM f = items.forM g := by
  induction items with
  | nil => rfl
  | cons i items ih =>
    have first : f i = g i := each [] i items rfl rfl
    change f i >>= (fun _ => items.forM f) = g i >>= fun _ => items.forM g
    rw [← first]
    cases done : (f i).result with
    | error e =>
      -- Neither loop goes on.
      generalize f i = failed at done
      obtain ⟨out, result⟩ := failed
      obtain rfl : result = .error e := done
      rfl
    | ok u =>
      have rest : items.forM f = items.forM g := ih fun before j after split ended =>
        each (i :: before) j after (by rw [split, List.cons_append])
          ((bind_result_ok _ _).mpr ⟨u, done, ended⟩)
      rw [rest]

/-- A loop ends well if all its iterations do. -/
theorem forM_ended {ι : Type} {items : List ι} {f : ι → Emit ω ε PUnit} :
    (items.forM f).result = .ok PUnit.unit ↔ ∀ i ∈ items, (f i).result = .ok PUnit.unit := by
  induction items with
  | nil => exact ⟨fun _ i member => absurd member List.not_mem_nil, fun _ => rfl⟩
  | cons i items ih =>
    rw [List.forall_mem_cons, ← ih]
    refine (bind_result_ok (f i) fun _ => items.forM f).trans ?_
    constructor
    · rintro ⟨_, first, rest⟩
      exact ⟨first, rest⟩
    · rintro ⟨first, rest⟩
      exact ⟨_, first, rest⟩

namespace Outcome
variable {P P' : ω → Prop} {Q Q' : ε → Prop}

theorem pure (a : α) : Outcome P Q (Pure.pure a : Emit ω ε α) :=
  ⟨fun _ none => (List.not_mem_nil none).elim, fun _ never => by cases never⟩

theorem fail {e : ε} (failing : Q e) : Outcome P Q (Emit.fail e : Emit ω ε α) := by
  refine ⟨fun _ none => (List.not_mem_nil none).elim, fun e' same => ?_⟩
  cases same
  exact failing

theorem mono {x : Emit ω ε α} (outcome : Outcome P Q x) (reports : ∀ v, P v → P' v)
    (fails : ∀ e, Q e → Q' e) : Outcome P' Q' x :=
  ⟨fun v found => reports v (outcome.reported v found),
    fun e ended => fails e (outcome.failed e ended)⟩

theorem bind {x : Emit ω ε α} {f : α → Emit ω ε β} (first : Outcome P Q x)
    (rest : ∀ a, x.result = .ok a → Outcome P Q (f a)) : Outcome P Q (x >>= f) := by
  constructor
  · intro v found
    rcases (bind_out x f).mp found with found | ⟨a, done, found⟩
    · exact first.reported v found
    · exact (rest a done).reported v found
  · intro e ended
    rcases (bind_result_error x f).mp ended with ended | ⟨a, done, ended⟩
    · exact first.failed e ended
    · exact (rest a done).failed e ended

/-- A loop, from each of its iterations after those before it. -/
theorem forM {ι : Type} {items : List ι} {f : ι → Emit ω ε PUnit}
    (each : ∀ before i after, items = before ++ i :: after →
      (before.forM f).result = .ok PUnit.unit → Outcome P Q (f i)) :
    Outcome P Q (items.forM f) := by
  induction items with
  | nil => exact pure PUnit.unit
  | cons i items ih =>
    refine bind (each [] i items rfl rfl) (fun _ first => ih fun before j after split done => ?_)
    refine each (i :: before) j after (by rw [split, List.cons_append]) ?_
    exact (bind_result_ok _ _).mpr ⟨_, first, done⟩

end Outcome

namespace PartOf
variable {γ : Type}

theorem reported {x : Emit ω ε α} {y : Emit ω ε β} (part : PartOf y x) :
    ∀ v ∈ y.out, v ∈ x.out := fun _ found =>
  part.segment.subset found

theorem refl (x : Emit ω ε α) : PartOf x x := ⟨List.infix_rfl, fun _ ended => ended⟩

theorem trans {x : Emit ω ε α} {y : Emit ω ε β} {z : Emit ω ε γ} (inner : PartOf x y)
    (outer : PartOf y z) : PartOf x z :=
  ⟨inner.segment.trans outer.segment, fun e ended => outer.failed e (inner.failed e ended)⟩

theorem bind_left (x : Emit ω ε α) (f : α → Emit ω ε β) : PartOf x (x >>= f) := by
  refine ⟨?_, fun _ ended => (bind_result_error x f).mpr (.inl ended)⟩
  obtain ⟨out, e | a⟩ := x
  · exact List.infix_rfl
  · exact (List.prefix_append out (f a).out).isInfix

theorem after {x : Emit ω ε α} {a : α} (done : x.result = .ok a) (y : Emit ω ε β) :
    PartOf y (x >>= fun _ => y) := by
  refine ⟨?_, fun _ ended => (bind_result_error x _).mpr (.inr ⟨a, done, ended⟩)⟩
  obtain ⟨out, result⟩ := x
  obtain rfl : result = .ok a := done
  exact (List.suffix_append out y.out).isInfix

theorem forM {ι : Type} {before after : List ι} {i : ι} {f : ι → Emit ω ε PUnit}
    (done : (before.forM f).result = .ok PUnit.unit) :
    PartOf (f i) ((before ++ i :: after).forM f) := by
  rw [forM_append]
  have iteration : PartOf (f i) ((i :: after).forM f) := bind_left (f i) fun _ => after.forM f
  exact iteration.trans (PartOf.after done _)

end PartOf

/-- A run is the same as another, or stops before that one ends, with an error
in `Q`. -/
def UpTo (Q : ε → Prop) (x y : Emit ω ε α) : Prop :=
  x = y ∨ (∃ e, x.result = .error e ∧ Q e) ∧ x.out <+: y.out

namespace UpTo
variable {Q : ε → Prop}

theorem refl (x : Emit ω ε α) : UpTo Q x x := .inl rfl

theorem fail {e : ε} (stops : Q e) (y : Emit ω ε α) : UpTo Q (Emit.fail e) y :=
  .inr ⟨⟨e, rfl, stops⟩, List.nil_prefix⟩

theorem bind {x y : Emit ω ε α} {f g : α → Emit ω ε β} (first : UpTo Q x y)
    (rest : ∀ a, UpTo Q (f a) (g a)) : UpTo Q (x >>= f) (y >>= g) := by
  rcases first with rfl | ⟨⟨e, failed, stops⟩, shorter⟩
  · obtain ⟨out, e | a⟩ := x
    · exact .inl rfl
    · rcases rest a with same | ⟨stopped, shorter⟩
      · exact .inl (by simp only [bind_ok, same])
      · exact .inr ⟨stopped, (List.prefix_append_right_inj out).mpr shorter⟩
  · obtain ⟨out, result⟩ := x
    obtain rfl : result = .error e := failed
    refine .inr ⟨⟨e, rfl, stops⟩, shorter.trans ?_⟩
    obtain ⟨out', e' | a⟩ := y
    · exact List.prefix_rfl
    · exact List.prefix_append _ _

/-- Loops over related items. -/
theorem forM {ι κ : Type} {P : ι → κ → Prop} {items : List ι} {others : List κ}
    {f : ι → Emit ω ε PUnit} {g : κ → Emit ω ε PUnit} (pairs : List.Forall₂ P items others)
    (each : ∀ i, ∀ j ∈ others, P i j → UpTo Q (f i) (g j)) :
    UpTo Q (items.forM f) (others.forM g) := by
  induction pairs with
  | nil => exact refl _
  | cons first _ ih =>
    refine bind (each _ _ List.mem_cons_self first) fun _ => ih fun i j member => ?_
    exact each i j (List.mem_cons_of_mem _ member)

/-- Stopping at the first report too. -/
theorem cut {δ : Type} {x y : Emit ω ε α} (upTo : UpTo Q x y) (stopping : Bool) (err : ε → δ)
    (stop : δ) : x.cut stopping err stop = y.cut stopping err stop ∨
      ∃ e, (x.cut stopping err stop).result = .error (err e) ∧ Q e := by
  rcases upTo with rfl | ⟨⟨e, failed, stops⟩, shorter⟩
  · exact .inl rfl
  · obtain ⟨out, result⟩ := x
    obtain rfl : result = .error e := failed
    cases stopping with
    | false => exact .inr ⟨e, rfl, stops⟩
    | true =>
      cases out with
      | nil => exact .inr ⟨e, rfl, stops⟩
      | cons v rest =>
        -- Both stop at the same report.
        obtain ⟨more, same⟩ := shorter
        obtain ⟨out', result'⟩ := y
        obtain rfl : v :: rest ++ more = out' := same
        exact .inl rfl

end UpTo

end Emit

end Recording
