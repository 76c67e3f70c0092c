import Mathlib.Logic.Relation

/-! Calls of a machine with a stack, whose steps are a partial function.
A call that starts above a floor has returned in the first state at the floor, and
that state is the only one it returns in. -/
namespace Calls

variable {σ : Type*}

/-- Steps taken above the floor. -/
def Above (step : σ → Option σ) (height : σ → Nat) (floor : Nat) : σ → σ → Prop :=
  Relation.ReflTransGen fun s t => floor < height s ∧ step s = some t

/-- From `s` the calls above the floor run until they have all returned, in `t`. -/
def Returns (step : σ → Option σ) (height : σ → Nat) (floor : Nat) (s t : σ) : Prop :=
  Above step height floor s t ∧ height t ≤ floor

/-- Steps until the floor is reached, as far as the fuel goes. -/
def run (step : σ → Option σ) (height : σ → Nat) (floor : Nat) : Nat → σ → Option σ
  | 0, _ => none
  | fuel + 1, s => if height s ≤ floor then some s else (step s).bind (run step height floor fuel)

variable {step : σ → Option σ} {height : σ → Nat} {floor level : Nat} {s t u : σ}

theorem Above.one (above : floor < height s) (taken : step s = some t) : Above step height floor s t :=
  .single ⟨above, taken⟩

/-- A run that stays above a level stays above every lower floor. -/
theorem Above.lower (lower : floor ≤ level) (run : Above step height level s t) : Above step height floor s t :=
  Relation.ReflTransGen.mono (fun _ _ ⟨above, taken⟩ => ⟨Nat.lt_of_le_of_lt lower above, taken⟩) _ _ run

theorem Above.invariant {I : σ → Prop} (run : Above step height floor s t) (start : I s)
    (keep : ∀ s t, I s → step s = some t → I t) : I t := by
  induction run with
  | refl => exact start
  | tail _ move ih => exact keep _ _ ih move.2

/-- What returns goes through every state on the way. -/
theorem Returns.after (returned : Returns step height floor s t) (run : Above step height floor s u) :
    Returns step height floor u t := by
  induction run using Relation.ReflTransGen.head_induction_on with
  | refl => exact returned
  | head move _ ih =>
    obtain ⟨above, taken⟩ := move
    refine ih ?_
    obtain ⟨run, low⟩ := returned
    rcases run.cases_head with rfl | ⟨v, ⟨-, also⟩, later⟩
    · omega
    · obtain rfl := Option.some.inj (taken.symm.trans also)
      exact ⟨later, low⟩

theorem Returns.unique (first : Returns step height floor s t) (second : Returns step height floor s u) : t = u := by
  rcases (second.after first.1).1.cases_head with same | ⟨v, ⟨above, -⟩, -⟩
  · exact same
  · have := first.2
    omega

/-- Where a call is stuck above the floor, nothing returns. -/
theorem Above.stuck (run : Above step height floor s u) (stuck : step u = none) (above : floor < height u) :
    ¬ Returns step height floor s t := by
  intro returned
  obtain ⟨later, low⟩ := returned.after run
  rcases later.cases_head with rfl | ⟨v, ⟨-, taken⟩, -⟩
  · omega
  · exact absurd (stuck.symm.trans taken) nofun

theorem returns_of_run {fuel : Nat} (ran : run step height floor fuel s = some t) : Returns step height floor s t := by
  induction fuel generalizing s with
  | zero => contradiction
  | succ fuel ih =>
    unfold run at ran
    split at ran
    · rename_i low
      exact Option.some.inj ran ▸ ⟨.refl, low⟩
    · rename_i above
      obtain ⟨u, taken, later⟩ := Option.bind_eq_some_iff.mp ran
      obtain ⟨run, low⟩ := ih later
      exact ⟨.head ⟨Nat.lt_of_not_le above, taken⟩ run, low⟩

end Calls
