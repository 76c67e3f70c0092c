import Mathlib.Logic.Relation

/-! Runs of a partial step function driven by an arbitrary list of actions.
A guard restricts which actions may be taken in which states. Invariants are
proved once per step and hold in every state a guarded run reaches. -/
namespace Runs

variable {σ α : Type*}

/-- One step by some action that the guard admits. -/
def Move (step : σ → α → Option σ) (guard : σ → α → Prop) (s t : σ) : Prop :=
  ∃ a, guard s a ∧ step s a = some t

/-- The guard that admits every action. -/
def Any : σ → α → Prop := fun _ _ => True

/-- States reached from `s` by steps that each meet the guard. -/
abbrev Reaches (step : σ → α → Option σ) (guard : σ → α → Prop) : σ → σ → Prop :=
  Relation.ReflTransGen (Move step guard)

/-- Run a list of actions in order. -/
def exec (step : σ → α → Option σ) : σ → List α → Option σ
  | s, [] => some s
  | s, a :: rest => (step s a).bind fun t => exec step t rest

/-- Every step of the run of `actions` from `s` meets the guard. -/
def Along (step : σ → α → Option σ) (guard : σ → α → Prop) : σ → List α → Prop
  | _, [] => True
  | s, a :: rest => ∀ t, step s a = some t → guard s a ∧ Along step guard t rest

/-- Every state that the run of `actions` from `s` visits has `P`. -/
def Throughout (step : σ → α → Option σ) (P : σ → Prop) : σ → List α → Prop
  | s, [] => P s
  | s, a :: rest => P s ∧ ∀ t, step s a = some t → Throughout step P t rest

variable {step : σ → α → Option σ} {guard : σ → α → Prop} {s t u : σ}

instance [∀ s a, Decidable (guard s a)] : ∀ s actions, Decidable (Along step guard s actions)
  | _, [] => inferInstanceAs (Decidable True)
  | s, a :: rest =>
      match taken : step s a with
      | none => .isTrue fun _ same => absurd (taken.symm.trans same) nofun
      | some t =>
          have := instDecidableAlong t rest
          decidable_of_iff (guard s a ∧ Along step guard t rest)
            ⟨fun h _ same => Option.some.inj (taken.symm.trans same) ▸ h, fun h => h t taken⟩

theorem Reaches.invariant {I : σ → Prop} (start : I s)
    (keep : ∀ s a t, I s → guard s a → step s a = some t → I t)
    (reach : Reaches step guard s t) : I t := by
  induction reach with
  | refl => exact start
  | tail _ move ih =>
    obtain ⟨a, admitted, taken⟩ := move
    exact keep _ a _ ih admitted taken

theorem Throughout.start {P : σ → Prop} {actions : List α} (h : Throughout step P s actions) : P s := by
  cases actions with
  | nil => exact h
  | cons a rest => exact h.1

/-- What follows from an invariant holds throughout every run. -/
theorem throughout_of_invariant {P I : σ → Prop} (keep : ∀ s a t, I s → step s a = some t → I t)
    (holds : ∀ s, I s → P s) {actions : List α} (start : I s) : Throughout step P s actions := by
  induction actions generalizing s with
  | nil => exact holds s start
  | cons a rest ih => exact ⟨holds s start, fun t taken => ih (keep s a t start taken)⟩

/-- What follows from an invariant of the steps that the guard admits holds throughout every run along it. -/
theorem throughout_of_along {P I : σ → Prop} (keep : ∀ s a t, I s → guard s a → step s a = some t → I t)
    (holds : ∀ s, I s → P s) {actions : List α} (start : I s) (along : Along step guard s actions) :
    Throughout step P s actions := by
  induction actions generalizing s with
  | nil => exact holds s start
  | cons a rest ih =>
    refine ⟨holds s start, fun t taken => ?_⟩
    obtain ⟨admitted, later⟩ := along t taken
    exact ih (keep s a t start admitted taken) later

/-- Where a step from a state with `P` and `I` keeps `P` exactly if the guard admits it, a run
has `P` throughout exactly if it stays along the guard. -/
theorem throughout_iff_along {P I : σ → Prop} (inside : ∀ s a t, I s → step s a = some t → I t)
    (keep : ∀ s a t, I s → P s → step s a = some t → (P t ↔ guard s a))
    {actions : List α} (invariant : I s) (start : P s) :
    Throughout step P s actions ↔ Along step guard s actions := by
  induction actions generalizing s with
  | nil => exact iff_of_true start trivial
  | cons a rest ih =>
    have one : ∀ t, step s a = some t → (P t ↔ guard s a) := fun t => keep s a t invariant start
    constructor
    · rintro ⟨_, later⟩ t taken
      have after := later t taken
      exact ⟨(one t taken).mp after.start, (ih (inside s a t invariant taken) after.start).mp after⟩
    · intro along
      refine ⟨start, fun t taken => ?_⟩
      obtain ⟨admitted, after⟩ := along t taken
      exact (ih (inside s a t invariant taken) ((one t taken).mpr admitted)).mpr after

/-- Two guards that agree on the steps taken from states with `I` admit the same runs, where
the steps that the second admits keep `I`. -/
theorem along_iff_along_kept {other : σ → α → Prop} {I : σ → Prop}
    (keep : ∀ s a t, I s → other s a → step s a = some t → I t)
    (agree : ∀ s a t, I s → step s a = some t → (guard s a ↔ other s a))
    {actions : List α} (invariant : I s) : Along step guard s actions ↔ Along step other s actions := by
  induction actions generalizing s with
  | nil => exact Iff.rfl
  | cons a rest ih =>
    refine forall_congr' fun t => imp_congr_right fun taken => ?_
    rw [agree s a t invariant taken]
    exact and_congr_right fun admitted => ih (keep s a t invariant admitted taken)

theorem along_iff_along {other : σ → α → Prop} {I : σ → Prop}
    (inside : ∀ s a t, I s → step s a = some t → I t)
    (agree : ∀ s a t, I s → step s a = some t → (guard s a ↔ other s a))
    {actions : List α} (invariant : I s) : Along step guard s actions ↔ Along step other s actions :=
  along_iff_along_kept (fun s a t invariant _ => inside s a t invariant) agree invariant

theorem exec_cons {a : α} {rest : List α} (h : exec step s (a :: rest) = some t) :
    ∃ m, step s a = some m ∧ exec step m rest = some t := by
  simpa [exec, Option.bind_eq_some_iff] using h

theorem exec_append {xs ys : List α} :
    exec step s (xs ++ ys) = (exec step s xs).bind fun m => exec step m ys := by
  induction xs generalizing s with
  | nil => rfl
  | cons a xs ih =>
    simp only [List.cons_append, exec, Option.bind_assoc]
    congr
    funext m
    exact ih

/-- A run whose steps all meet the guard ends in a state the guard reaches. -/
theorem exec_reaches {actions : List α} (h : exec step s actions = some t)
    (along : Along step guard s actions) : Reaches step guard s t := by
  induction actions generalizing s with
  | nil =>
    obtain rfl := Option.some.inj h
    exact .refl
  | cons a rest ih =>
    obtain ⟨m, first, later⟩ := exec_cons h
    exact .head ⟨a, (along m first).1, first⟩ (ih later (along m first).2)

/-- The last step of a run along the guard meets it. -/
theorem along_last {actions : List α} {a : α} (along : Along step guard s (actions ++ [a]))
    (done : exec step s actions = some t) (taken : step t a = some u) : guard t a := by
  induction actions generalizing s with
  | nil =>
    obtain rfl := Option.some.inj done
    exact (along u taken).1
  | cons b rest ih =>
    obtain ⟨m, first, later⟩ := exec_cons done
    exact ih (along m first).2 later

theorem along_append_left {xs ys : List α} (along : Along step guard s (xs ++ ys)) : Along step guard s xs := by
  induction xs generalizing s with
  | nil => trivial
  | cons a xs ih =>
    intro t taken
    obtain ⟨admitted, later⟩ := along t taken
    exact ⟨admitted, ih later⟩

/-- A run stays along the guard or takes a first step that the guard does not admit. -/
theorem along_or_breaks (guard : σ → α → Prop) {actions : List α} (done : exec step s actions = some t) :
    Along step guard s actions ∨ ∃ before a after m n, actions = before ++ a :: after ∧
      exec step s before = some m ∧ step m a = some n ∧ ¬ guard m a := by
  induction actions generalizing s with
  | nil => exact .inl trivial
  | cons a rest ih =>
    obtain ⟨m, first, later⟩ := exec_cons done
    by_cases admitted : guard s a
    · rcases ih later with along | ⟨before, b, after, x, y, rfl, start, taken, refused⟩
      · refine .inl fun n taken => ?_
        obtain rfl := Option.some.inj (first.symm.trans taken)
        exact ⟨admitted, along⟩
      · exact .inr ⟨a :: before, b, after, x, y, rfl, by simp [exec, first, start], taken, refused⟩
    · exact .inr ⟨[], a, rest, s, m, rfl, rfl, first, admitted⟩

theorem throughout_last {P : σ → Prop} {actions : List α} (h : Throughout step P s actions)
    (done : exec step s actions = some t) : P t := by
  induction actions generalizing s with
  | nil => exact Option.some.inj done ▸ h
  | cons a rest ih =>
    obtain ⟨m, first, later⟩ := exec_cons done
    exact ih (h.2 m first) later

theorem along_any (actions : List α) : Along step Any s actions := by
  induction actions generalizing s with
  | nil => trivial
  | cons a rest ih => exact fun _ _ => ⟨trivial, ih⟩

theorem exec_of_check {actions : List α} {p : σ → Bool}
    (h : (exec step s actions).map p = some true) : ∃ t, exec step s actions = some t ∧ p t = true := by
  cases done : exec step s actions with
  | none => simp [done] at h
  | some t => exact ⟨t, rfl, by simpa [done] using h⟩

/-- A concrete run along the guard ends in a state with `p`, so such a state is reached. -/
theorem reaches_of_along {actions : List α} {p : σ → Bool} (along : Along step guard s actions)
    (h : (exec step s actions).map p = some true) : ∃ t, Reaches step guard s t ∧ p t = true := by
  obtain ⟨t, done, holds⟩ := exec_of_check h
  exact ⟨t, exec_reaches done along, holds⟩

theorem reaches_of_exec {actions : List α} {p : σ → Bool}
    (h : (exec step s actions).map p = some true) : ∃ t, Reaches step Any s t ∧ p t = true :=
  reaches_of_along (along_any actions) h

end Runs
