import Mathlib.Data.List.Basic

/-! What a history says of the past. A history is a list with the newest event first, and an event is judged with
what came before it. -/
namespace Past

variable {α : Type*}

/-- An event was seen, and all events after it keep. -/
def Since (keeps : α → Prop) (seen : α → List α → Prop) (log : List α) : Prop :=
  ∃ news e earlier, log = news ++ e :: earlier ∧ seen e earlier ∧ ∀ x ∈ news, keeps x

/-- Every event is justified by what came before it. -/
def Always (justified : α → List α → Prop) : List α → Prop
  | [] => True
  | e :: earlier => justified e earlier ∧ Always justified earlier

variable {keeps : α → Prop} {seen justified : α → List α → Prop} {news log : List α} {e : α}

theorem Since.now (found : seen e log) : Since keeps seen (e :: log) :=
  ⟨[], e, log, rfl, found, fun _ among => absurd among List.not_mem_nil⟩

theorem Since.append (since : Since keeps seen log) (kept : ∀ x ∈ news, keeps x) :
    Since keeps seen (news ++ log) := by
  obtain ⟨later, e, earlier, rfl, found, after⟩ := since
  refine ⟨news ++ later, e, earlier, (List.append_assoc _ _ _).symm, found, fun x among => ?_⟩
  rcases List.mem_append.mp among with new | old
  · exact kept x new
  · exact after x old

theorem Since.cons (since : Since keeps seen log) (kept : keeps e) : Since keeps seen (e :: log) :=
  have only : ∀ x ∈ [e], keeps x := fun _ among => List.mem_singleton.mp among ▸ kept
  since.append only

/-- Events that need no justification. -/
theorem Always.append (always : Always justified log) (free : ∀ x ∈ news, ∀ earlier, justified x earlier) :
    Always justified (news ++ log) := by
  induction news with
  | nil => exact always
  | cons x news ih => exact ⟨free x List.mem_cons_self _, ih fun y among => free y (List.mem_cons_of_mem x among)⟩

theorem Always.justifies (always : Always justified log) {later earlier : List α}
    (split : log = later ++ e :: earlier) :
    justified e earlier := by
  subst split
  induction later with
  | nil => exact always.1
  | cons x later ih => exact ih always.2

end Past
