import Mathlib.Data.List.Basic
import Mathlib.Logic.Function.Iterate

/-! A stream that arrives cut into segments. Taking exactly `n` elements gathers them
from as many segments as it needs; the result depends only on the concatenation. -/
namespace Segments

variable {α : Type*}

/-- Exactly `n` elements off the front, or `none` when the stream ends before that. -/
def take : Nat → List (List α) → Option (List α × List (List α))
  | 0, segments => some ([], segments)
  | _ + 1, [] => none
  | n + 1, segment :: rest =>
      if segment.length ≤ n + 1 then
        (take (n + 1 - segment.length) rest).map fun (xs, left) => (segment ++ xs, left)
      else some (segment.take (n + 1), segment.drop (n + 1) :: rest)

theorem take_of_append {segments : List (List α)} {xs ys : List α}
    (h : segments.flatten = xs ++ ys) :
    ∃ left, take xs.length segments = some (xs, left) ∧ left.flatten = ys := by
  induction segments generalizing xs with
  | nil =>
    obtain ⟨rfl, rfl⟩ := List.append_eq_nil_iff.mp h.symm
    exact ⟨[], rfl, rfl⟩
  | cons segment rest ih =>
    cases size : xs.length with
    | zero =>
      obtain rfl := List.length_eq_zero_iff.mp size
      exact ⟨segment :: rest, rfl, h⟩
    | succ n =>
      rw [List.flatten_cons] at h
      unfold take
      split
      · rename_i whole
        -- the segment is used up: what is still wanted comes from the later ones
        obtain ⟨more, rfl⟩ : segment <+: xs :=
          List.prefix_of_prefix_length_le ⟨_, h⟩ ⟨_, rfl⟩ (by omega)
        rw [List.append_assoc] at h
        obtain ⟨left, taken, remains⟩ := ih (List.append_cancel_left h)
        have count : n + 1 - segment.length = more.length := by
          rw [← size, List.length_append]; omega
        exact ⟨left, by rw [count, taken]; rfl, remains⟩
      · rename_i inside
        obtain ⟨more, rfl⟩ : xs <+: segment :=
          List.prefix_of_prefix_length_le ⟨_, rfl⟩ ⟨_, h⟩ (by omega)
        rw [List.append_assoc] at h
        refine ⟨more :: rest, ?_, List.append_cancel_left h⟩
        rw [← size, List.take_left, List.drop_left]

theorem take_short {segments : List (List α)} {n : Nat} (h : segments.flatten.length < n) :
    take n segments = none := by
  induction segments generalizing n with
  | nil =>
    cases n with
    | zero => cases h
    | succ n => rfl
  | cons segment rest ih =>
    rw [List.flatten_cons, List.length_append] at h
    cases n with
    | zero => omega
    | succ n =>
      unfold take
      rw [if_pos (by omega), ih (by omega)]
      rfl

/-- What is taken is the front of the stream. -/
theorem take_some {segments : List (List α)} {n : Nat} {xs : List α} {left : List (List α)}
    (taken : take n segments = some (xs, left)) : xs.length = n ∧ segments.flatten = xs ++ left.flatten := by
  by_cases short : segments.flatten.length < n
  · rw [take_short short] at taken
    cases taken
  have whole : segments.flatten = segments.flatten.take n ++ segments.flatten.drop n := (List.take_append_drop n _).symm
  have size : (segments.flatten.take n).length = n := List.length_take_of_le (by omega)
  obtain ⟨left', front, remains⟩ := take_of_append whole
  rw [size, taken] at front
  obtain ⟨rfl, rfl⟩ := Prod.mk.inj (Option.some.inj front)
  exact ⟨size, remains ▸ whole⟩

end Segments
