import Mathlib.Logic.Function.Basic

/-!
# Programs that ask a machine questions

A client asks a machine one question after the other, each depending on the answers so
far. Two machines that answer alike as far as a client asks are the same to it.
-/

namespace Protovalidate

/-- A machine answers a question and moves on. -/
abbrev Machine (Q A σ : Type) := σ → Q → σ × A

/-- A program that asks questions and ends with a result. -/
inductive Client (Q A ρ : Type)
  | done (result : ρ)
  | ask (question : Q) (next : A → Client Q A ρ)

namespace Client
variable {Q A ρ σ τ : Type}

def run (machine : Machine Q A σ) : Client Q A ρ → σ → ρ
  | done result, _ => result
  | ask question next, s =>
    run machine (next (machine s question).2) (machine s question).1

/-- Two machines whose states answer alike for as many questions as the relation says. -/
def Simulates (machine : Machine Q A σ) (other : Machine Q A τ) (inv : σ → Prop)
    (related : Nat → σ → τ → Prop) : Prop :=
  ∀ s question, inv s → inv (machine s question).1 ∧ ∀ k t, related (k + 1) s t →
    (other t question).2 = (machine s question).2 ∧
      related k (machine s question).1 (other t question).1

/-- A client asks so many questions, in a run. -/
theorem Simulates.run {machine : Machine Q A σ} {other : Machine Q A τ} {inv : σ → Prop}
    {related : Nat → σ → τ → Prop} (simulates : Simulates machine other inv related)
    (client : Client Q A ρ) : ∀ s, inv s → ∃ k, ∀ t, related k s t →
      client.run other t = client.run machine s := by
  induction client with
  | done result => exact fun s _ => ⟨0, fun t _ => rfl⟩
  | ask question next ih =>
    intro s held
    obtain ⟨kept, answers⟩ := simulates s question held
    obtain ⟨k, same⟩ := ih (machine s question).2 (machine s question).1 kept
    refine ⟨k + 1, fun t related => ?_⟩
    obtain ⟨answer, after⟩ := answers k t related
    rw [Client.run, answer]
    exact same _ after

end Client

end Protovalidate
