import Mathlib.Data.List.Basic

/-!
# Lists in the order of another list

A list follows another one when its elements come from it, in its order, any of
them left out or repeated.
-/

namespace Protovalidate

/-- The elements of a list are those of the first, in order, each any number of
times. -/
inductive Follows {α : Type} : List α → List α → Prop
  | nil {order : List α} : Follows order []
  | skip {a : α} {order as : List α} : Follows order as → Follows (a :: order) as
  | here {a : α} {order as : List α} : Follows (a :: order) as → Follows (a :: order) (a :: as)

namespace Follows
variable {α : Type} {order order' as bs : List α} {a b : α}

@[simp] theorem nil_right : Follows order ([] : List α) := .nil

@[simp] theorem nil_left : Follows [] as ↔ as = [] := by
  constructor
  · intro follows
    cases follows
    rfl
  · rintro rfl
    exact .nil

/-- The head of the order is met now or not at all before what follows it. -/
theorem cons_cons : Follows (a :: order) (b :: bs) ↔
    (a = b ∧ Follows (a :: order) bs) ∨ Follows order (b :: bs) := by
  constructor
  · intro follows
    cases follows with
    | skip later => exact .inr later
    | here later => exact .inl ⟨rfl, later⟩
  · rintro (⟨rfl, later⟩ | later)
    · exact .here later
    · exact .skip later

theorem right (follows : Follows order as) : Follows (order' ++ order) as := by
  induction order' with
  | nil => exact follows
  | cons a order' ih => exact .skip ih

/-- Lists that follow two orders follow one after the other. -/
theorem append (first : Follows order as) (second : Follows order' bs) :
    Follows (order ++ order') (as ++ bs) := by
  induction first with
  | nil => exact second.right
  | skip _ ih => exact .skip ih
  | here _ ih => exact .here ih

/-- A list of one element, any number of times. -/
theorem of_constant (constant : ∀ b ∈ bs, b = a) : Follows [a] bs := by
  induction bs with
  | nil => exact .nil
  | cons b bs ih =>
    obtain rfl := constant b List.mem_cons_self
    exact .here (ih fun c later => constant c (List.mem_cons_of_mem b later))

theorem mem (follows : Follows order as) (member : b ∈ as) : b ∈ order := by
  induction follows with
  | nil => cases member
  | skip _ ih => exact List.mem_cons_of_mem _ (ih member)
  | here _ ih =>
    rcases List.mem_cons.mp member with rfl | later
    · exact List.mem_cons_self
    · exact ih later

theorem sublist (follows : Follows order as) (below : bs.Sublist as) : Follows order bs := by
  induction follows generalizing bs with
  | nil =>
    rw [List.sublist_nil.mp below]
    exact .nil
  | skip _ ih => exact .skip (ih below)
  | here _ ih =>
    cases below with
    | cons _ below => exact ih below
    | cons_cons _ below => exact .here (ih below)

end Follows

end Protovalidate
