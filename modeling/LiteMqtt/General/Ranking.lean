import Mathlib.Logic.Relation
import Mathlib.Order.WellFounded

/-! Machines whose busy steps lower a rank, which no other step raises. Such a machine is not busy for ever,
whatever comes between its busy steps, and where it can always go on it comes to rest. -/
namespace Ranking

variable {σ β : Type*} {busy aside : σ → σ → Prop} {lower : β → β → Prop} {rank : σ → β}

/-- A busy step, after any number of others. -/
def Goes (busy aside : σ → σ → Prop) (s t : σ) : Prop := ∃ u, Relation.ReflTransGen aside s u ∧ busy u t

theorem rank_aside (kept : ∀ s t, aside s t → rank t = rank s ∨ lower (rank t) (rank s)) {s t : σ}
    (chain : Relation.ReflTransGen aside s t) : Relation.ReflTransGen lower (rank t) (rank s) := by
  induction chain with
  | refl => exact .refl
  | @tail t u _ last ih =>
    rcases kept t u last with same | fell
    · rwa [same]
    · exact .head fell ih

theorem goes_wellFounded (well : WellFounded lower)
    (kept : ∀ s t, aside s t → rank t = rank s ∨ lower (rank t) (rank s))
    (falls : ∀ s t, busy s t → lower (rank t) (rank s)) : WellFounded fun t s => Goes busy aside s t := by
  refine Subrelation.wf ?_ (InvImage.wf rank well.transGen)
  rintro t s ⟨u, chain, step⟩
  exact Relation.TransGen.head' (falls u t step) (rank_aside kept chain)

/-- A machine that can always go on unless it rests comes to rest. -/
theorem comes_to_rest (well : WellFounded lower) (falls : ∀ s t, busy s t → lower (rank t) (rank s))
    {rests : σ → Prop} (goesOn : ∀ s, ¬ rests s → ∃ t, busy s t) (s : σ) :
    ∃ t, Relation.ReflTransGen busy s t ∧ rests t := by
  induction s using (InvImage.wf rank well).induction with
  | _ s ih =>
    by_cases resting : rests s
    · exact ⟨s, .refl, resting⟩
    · obtain ⟨t, step⟩ := goesOn s resting
      obtain ⟨u, later, last⟩ := ih t (falls s t step)
      exact ⟨u, .head step later, last⟩

/-- Five numbers, the first of which counts most. -/
abbrev Five : Type := Nat × Nat × Nat × Nat × Nat

def Five.Lower : Five → Five → Prop :=
  Prod.Lex (· < ·) (Prod.Lex (· < ·) (Prod.Lex (· < ·) (Prod.Lex (· < ·) (· < ·))))

theorem five_wellFounded : WellFounded Five.Lower :=
  WellFounded.prod_lex wellFounded_lt (WellFounded.prod_lex wellFounded_lt (WellFounded.prod_lex wellFounded_lt
    (WellFounded.prod_lex wellFounded_lt wellFounded_lt)))

theorem lower_iff {a b c d e a' b' c' d' e' : Nat} : Five.Lower (a, b, c, d, e) (a', b', c', d', e') ↔
    a < a' ∨ a = a' ∧ (b < b' ∨ b = b' ∧ (c < c' ∨ c = c' ∧ (d < d' ∨ d = d' ∧ e < e'))) := by
  simp only [Five.Lower, Prod.lex_def]

end Ranking
