import Mathlib.Data.List.Infix

/-! Words none of which is empty or begins another one. A concatenation of such words can be taken apart in one
way only, and where it ends in the middle, so do the words. -/
namespace PrefixCode

variable {α : Type*}

/-- The words of a prefix code. -/
structure IsCode (word : List α → Prop) : Prop where
  nonempty : ¬ word []
  apart : ∀ x y, word x → word y → x <+: y → x = y

variable {word : List α → Prop} {xs ys : List (List α)}

theorem flatten_prefix_iff (code : IsCode word) (left : ∀ x ∈ xs, word x) (right : ∀ y ∈ ys, word y) :
    xs.flatten <+: ys.flatten ↔ xs <+: ys := by
  constructor
  · intro begins
    induction xs generalizing ys with
    | nil => exact List.nil_prefix
    | cons x xs ih =>
      rw [List.forall_mem_cons] at left
      rw [List.flatten_cons] at begins
      cases ys with
      | nil =>
        have empty : x = [] := (List.append_eq_nil_iff.mp (List.prefix_nil.mp begins)).1
        exact absurd (empty ▸ left.1) code.nonempty
      | cons y ys =>
        rw [List.forall_mem_cons] at right
        rw [List.flatten_cons] at begins
        have same : x = y := by
          rcases List.prefix_or_prefix_of_prefix ((List.prefix_append x _).trans begins) (List.prefix_append y _)
            with short | long
          · exact code.apart x y left.1 right.1 short
          · exact (code.apart y x right.1 left.1 long).symm
        subst same
        exact (List.prefix_cons_inj x).mpr (ih left.2 right.2 ((List.prefix_append_right_inj x).mp begins))
  · rintro ⟨more, rfl⟩
    exact ⟨more.flatten, List.flatten_append.symm⟩

end PrefixCode
