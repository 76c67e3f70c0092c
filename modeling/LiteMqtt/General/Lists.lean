import Mathlib.Algebra.GroupWithZero.Nat
import Mathlib.Data.List.Basic

/-! The entry at an index of a list, and the list without it or with another in its place.
A sum that is positive has a positive term. A filter in front of a partial map. -/
namespace Lists

variable {α : Type*}

theorem split_at {l : List α} {i : Nat} {a : α} (found : l[i]? = some a) :
    ∃ xs ys, l = xs ++ a :: ys ∧ l.eraseIdx i = xs ++ ys ∧ ∀ b, l.set i b = xs ++ b :: ys := by
  obtain ⟨inside, rfl⟩ := List.getElem?_eq_some_iff.mp found
  refine ⟨l.take i, l.drop (i + 1), ?_, List.eraseIdx_eq_take_drop_succ _ _, fun b => ?_⟩
  · rw [← List.drop_eq_getElem_cons inside, List.take_append_drop]
  · rw [List.set_eq_take_append_cons_drop, if_pos inside]

theorem exists_pos_of_sum {f : α → Nat} {l : List α} (many : 0 < (l.map f).sum) : ∃ a ∈ l, 0 < f a := by
  by_contra none
  refine absurd (List.sum_eq_zero_iff_forall_eq_nat.mpr fun n among => ?_) (Nat.ne_of_gt many)
  obtain ⟨a, inside, rfl⟩ := List.mem_map.mp among
  exact Nat.eq_zero_of_not_pos fun positive => none ⟨a, inside, positive⟩

/-- A filter that keeps what `f` maps does not matter to `f`. -/
theorem filterMap_filter_of {α β : Type*} (f : α → Option β) {q : α → Bool}
    (kept : ∀ a, (f a).isSome = true → q a = true)
    (xs : List α) : (xs.filter q).filterMap f = xs.filterMap f := by
  rw [List.filterMap_filter]
  congr 1
  funext a
  by_cases keeps : q a = true
  · rw [if_pos keeps]
  · rw [if_neg keeps]
    cases found : f a with
    | none => rfl
    | some b => exact absurd (kept a (by simp [found])) keeps

end Lists
