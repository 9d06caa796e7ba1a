import Mathlib.Data.Finset.Card
import Mathlib.Data.Finset.Filter
import Mathlib.Data.List.Chain
import Mathlib.Logic.Relation

/-!
# Searching a finite graph

A loop over a stack of pending nodes that visits what can be reached from a
root without going through a node to skip.
-/

namespace Protovalidate

/-- A graph with finitely many nodes that have successors. -/
structure FiniteGraph (α : Type) where
  successors : α → List α
  nodes : Finset α
  outside : ∀ a, a ∉ nodes → successors a = []

namespace FiniteGraph

section Reached
variable {α : Type} (graph : FiniteGraph α) (skip : α → Bool)

/-- A node reached from `root` along successors, none of them to skip. -/
inductive Reached (root : α) : α → Prop
  | root : skip root = false → Reached root root
  | step {a b : α} : Reached root a → b ∈ graph.successors a → skip b = false → Reached root b

variable {graph skip}

theorem Reached.head {a b c : α} (fresh : skip a = false) (edge : b ∈ graph.successors a)
    (reached : graph.Reached skip b c) : graph.Reached skip a c := by
  induction reached with
  | root next => exact .step (.root fresh) edge next
  | step _ edge next ih => exact .step ih edge next

/-- A node is reached along a path of successors, none of them to skip. -/
theorem reached_iff_path {root a : α} : graph.Reached skip root a ↔
    ∃ path : List α, path.head? = some root ∧ path.getLast? = some a ∧
      path.IsChain (fun a b => b ∈ graph.successors a) ∧ ∀ b ∈ path, skip b = false := by
  constructor
  · intro reached
    induction reached with
    | root fresh => exact ⟨[root], rfl, rfl, .singleton _, by simpa using fresh⟩
    | @step a b _ edge fresh ih =>
      obtain ⟨path, first, last, chain, avoids⟩ := ih
      refine ⟨path ++ [b], ?_, by simp, ?_, ?_⟩
      · simp [first]
      · refine List.isChain_append.mpr ⟨chain, .singleton _, ?_⟩
        simpa [last] using edge
      · intro c member
        rcases List.mem_append.mp member with earlier | here
        · exact avoids c earlier
        · rw [List.mem_singleton.mp here]
          exact fresh
  · rintro ⟨path, first, last, chain, avoids⟩
    induction path generalizing root with
    | nil => cases first
    | cons b rest ih =>
      cases first
      have fresh : skip b = false := avoids b List.mem_cons_self
      cases rest with
      | nil =>
        cases last
        exact .root fresh
      | cons c rest =>
        rw [List.isChain_cons_cons] at chain
        have later : ∀ d ∈ c :: rest, skip d = false :=
          fun d member => avoids d (List.mem_cons_of_mem b member)
        rw [List.getLast?_cons_cons] at last
        exact Reached.head fresh chain.1 (ih rfl last chain.2 later)

end Reached

variable {α : Type} [DecidableEq α] (graph : FiniteGraph α) (skip : α → Bool)

/-- The nodes there are still successors to take from. -/
def remaining (visited : List α) : Finset α := graph.nodes.filter (fun a => a ∉ visited)

theorem remaining_cons_subset (visited : List α) (a : α) :
    graph.remaining (a :: visited) ⊆ graph.remaining visited := by
  intro b left
  obtain ⟨node, unseen⟩ := Finset.mem_filter.mp left
  exact Finset.mem_filter.mpr ⟨node, fun seen => unseen (List.mem_cons_of_mem a seen)⟩

theorem remaining_cons_lt {visited : List α} {a : α} (node : a ∈ graph.nodes)
    (fresh : a ∉ visited) :
    (graph.remaining (a :: visited)).card < (graph.remaining visited).card := by
  refine Finset.card_lt_card ⟨graph.remaining_cons_subset visited a, fun below => ?_⟩
  have again := below (Finset.mem_filter.mpr ⟨node, fresh⟩)
  exact (Finset.mem_filter.mp again).2 (List.mem_cons_self ..)

/-- Takes nodes off the stack until it is empty. A node that is neither skipped
nor visited is visited, and its successors go on the stack. -/
def search (visited : List α) : List α → List α
  | [] => visited
  | a :: rest =>
    if skip a || visited.contains a then search visited rest
    else search (a :: visited) ((graph.successors a).reverseAux rest)
termination_by pending => ((graph.remaining visited).card, pending.length)
decreasing_by
  · exact Prod.Lex.right _ (by simp)
  · rename_i fresh
    simp only [Bool.or_eq_true, List.contains_iff_mem, not_or] at fresh
    by_cases node : a ∈ graph.nodes
    · exact Prod.Lex.left _ _ (graph.remaining_cons_lt node fresh.2)
    · rcases (Finset.card_le_card (graph.remaining_cons_subset visited a)).lt_or_eq with less | same
      · exact Prod.Lex.left _ _ less
      · rw [same]
        exact Prod.Lex.right _ (by simp [graph.outside a node])

variable {graph skip}

theorem visited_subset (visited pending : List α) :
    visited ⊆ graph.search skip visited pending := by
  fun_induction graph.search skip visited pending with
  | case1 visited => exact fun _ seen => seen
  | case2 visited a rest found ih => exact ih
  | case3 visited a rest fresh ih =>
    exact fun b seen => ih (List.mem_cons_of_mem a seen)

/-- No node is visited twice. -/
theorem search_nodup (visited pending : List α) (nodup : visited.Nodup) :
    (graph.search skip visited pending).Nodup := by
  fun_induction graph.search skip visited pending with
  | case1 visited => exact nodup
  | case2 visited a rest found ih => exact ih nodup
  | case3 visited a rest fresh ih =>
    simp only [Bool.or_eq_true, List.contains_iff_mem, not_or] at fresh
    exact ih (List.nodup_cons.mpr ⟨fresh.2, nodup⟩)

/-- What is visited was reached from the stack. -/
theorem search_sound (visited pending : List α) {b : α}
    (found : b ∈ graph.search skip visited pending) :
    b ∈ visited ∨ ∃ a ∈ pending, graph.Reached skip a b := by
  fun_induction graph.search skip visited pending with
  | case1 visited => exact .inl found
  | case2 visited a rest _ ih =>
    rcases ih found with seen | ⟨c, pending, reached⟩
    · exact .inl seen
    · exact .inr ⟨c, List.mem_cons_of_mem a pending, reached⟩
  | case3 visited a rest fresh ih =>
    simp only [Bool.or_eq_true, List.contains_iff_mem, not_or, Bool.not_eq_true] at fresh
    rcases ih found with seen | ⟨c, pending, reached⟩
    · rcases List.mem_cons.mp seen with rfl | seen
      · exact .inr ⟨b, List.mem_cons_self .., .root fresh.1⟩
      · exact .inl seen
    · rcases List.mem_reverseAux.mp pending with edge | pending
      · exact .inr ⟨a, List.mem_cons_self .., reached.head fresh.1 edge⟩
      · exact .inr ⟨c, List.mem_cons_of_mem a pending, reached⟩

/-- What the stack holds is visited, unless it is skipped. -/
theorem pending_visited (visited pending : List α) {a : α} (held : a ∈ pending)
    (fresh : skip a = false) : a ∈ graph.search skip visited pending := by
  fun_induction graph.search skip visited pending with
  | case1 visited => cases held
  | case2 visited b rest found ih =>
    rcases List.mem_cons.mp held with rfl | held
    · refine visited_subset _ _ ?_
      simpa [fresh] using found
    · exact ih held
  | case3 visited b rest _ ih =>
    rcases List.mem_cons.mp held with rfl | held
    · exact visited_subset _ _ (List.mem_cons_self ..)
    · exact ih (List.mem_reverseAux.mpr (.inr held))

/-- The successors of what is visited are visited too, if they were or are on
the stack when the search starts. -/
theorem search_closed (visited pending : List α)
    (covered : ∀ a ∈ visited, ∀ b ∈ graph.successors a,
      skip b = false → b ∈ visited ∨ b ∈ pending) :
    ∀ a ∈ graph.search skip visited pending, ∀ b ∈ graph.successors a,
      skip b = false → b ∈ graph.search skip visited pending := by
  fun_induction graph.search skip visited pending with
  | case1 visited =>
    exact fun a seen b edge fresh => (covered a seen b edge fresh).resolve_right (by simp)
  | case2 visited c rest found ih =>
    refine ih fun a seen b edge fresh => ?_
    rcases covered a seen b edge fresh with seen | held
    · exact .inl seen
    · rcases List.mem_cons.mp held with rfl | held
      · exact .inl (by simpa [fresh] using found)
      · exact .inr held
  | case3 visited c rest _ ih =>
    refine ih fun a seen b edge fresh => ?_
    rcases List.mem_cons.mp seen with rfl | seen
    · exact .inr (List.mem_reverseAux.mpr (.inl edge))
    · rcases covered a seen b edge fresh with seen | held
      · exact .inl (List.mem_cons_of_mem c seen)
      · rcases List.mem_cons.mp held with rfl | held
        · exact .inl (List.mem_cons_self ..)
        · exact .inr (List.mem_reverseAux.mpr (.inr held))

/-- The search visits exactly what can be reached from its root. -/
theorem mem_search {root a : α} :
    a ∈ graph.search skip [] [root] ↔ graph.Reached skip root a := by
  constructor
  · intro found
    obtain ⟨b, held, reached⟩ := (search_sound [] [root] found).resolve_left (by simp)
    rwa [List.mem_singleton.mp held] at reached
  · intro reached
    induction reached with
    | root fresh => exact pending_visited _ _ (List.mem_singleton_self root) fresh
    | step _ edge fresh ih =>
      exact search_closed [] [root] (fun a seen => by cases seen) _ ih _ edge fresh

/-- A pending node that is skipped makes no difference. -/
theorem search_cons_skipped {a : α} (skipped : skip a = true) (visited rest : List α) :
    graph.search skip visited (a :: rest) = graph.search skip visited rest := by
  rw [search, if_pos (by simp [skipped])]

theorem search_skipped {first : List α} (skipped : ∀ a ∈ first, skip a = true)
    (visited rest : List α) :
    graph.search skip visited (first.reverseAux rest) = graph.search skip visited rest := by
  induction first generalizing rest with
  | nil => rfl
  | cons a first ih =>
    have later : ∀ b ∈ first, skip b = true := fun b held => skipped b (List.mem_cons_of_mem a held)
    rw [List.reverseAux_cons, ih later, search_cons_skipped (skipped a List.mem_cons_self)]

/-- When a node to skip only leads to others, skipping them leaves the rest of
the search as it is. -/
theorem search_filter (closed : ∀ a, skip a = true → ∀ b ∈ graph.successors a, skip b = true)
    (visited pending : List α) :
    graph.search skip (visited.filter fun a => !skip a) pending =
      (graph.search (fun _ => false) visited pending).filter fun a => !skip a := by
  fun_induction graph.search (fun _ => false) visited pending with
  | case1 visited => rw [search]
  | case2 visited a rest found ih =>
    rw [← ih]
    cases skipped : skip a with
    | true => exact search_cons_skipped skipped _ _
    | false =>
      have seen : a ∈ visited := by simpa using found
      rw [search, if_pos (by simp [skipped, seen])]
  | case3 visited a rest fresh ih =>
    rw [← ih]
    cases skipped : skip a with
    | true =>
      rw [search_cons_skipped skipped, search_skipped (closed a skipped)]
      simp [skipped]
    | false =>
      have unseen : a ∉ visited := by simpa using fresh
      rw [search, if_neg (by simp [skipped, unseen])]
      simp [skipped]

end FiniteGraph

end Protovalidate
