import Mathlib.Data.List.Basic

/-! Computations that change a state and leave a trace of events. That a state stays good and that no event
is a bad one is shown of a computation part by part. -/

structure Traced (σ τ α : Type) where
  run : σ → (α × σ) × List τ

namespace Traced

variable {σ τ α β : Type}

instance : Monad (Traced σ τ) where
  pure a := ⟨fun s => ((a, s), [])⟩
  bind m f := ⟨fun s =>
    (((f (m.run s).1.1).run (m.run s).1.2).1, (m.run s).2 ++ ((f (m.run s).1.1).run (m.run s).1.2).2)⟩

def emit (event : τ) : Traced σ τ Unit := ⟨fun s => (((), s), [event])⟩

theorem run_pure (a : α) (s : σ) : (pure a : Traced σ τ α).run s = ((a, s), []) := rfl

theorem run_bind (m : Traced σ τ α) (f : α → Traced σ τ β) (s : σ) : (m >>= f).run s =
    (((f (m.run s).1.1).run (m.run s).1.2).1, (m.run s).2 ++ ((f (m.run s).1.1).run (m.run s).1.2).2) := rfl

/-- From a state with `I` to a state with `I`, by events that have `P`. -/
def Keeps (I : σ → Prop) (P : τ → Prop) (m : Traced σ τ α) : Prop :=
  ∀ s, I s → I (m.run s).1.2 ∧ ∀ event ∈ (m.run s).2, P event

variable {I : σ → Prop} {P : τ → Prop}

theorem keeps_pure (a : α) : Keeps I P (pure a : Traced σ τ α) := fun _ good => ⟨good, nofun⟩

theorem keeps_bind {m : Traced σ τ α} {f : α → Traced σ τ β} (first : Keeps I P m) (second : ∀ a, Keeps I P (f a)) :
    Keeps I P (m >>= f) := by
  intro s good
  obtain ⟨middle, before⟩ := first s good
  obtain ⟨final, after⟩ := second (m.run s).1.1 (m.run s).1.2 middle
  refine ⟨final, fun event among => ?_⟩
  rcases List.mem_append.mp among with early | late
  · exact before event early
  · exact after event late

theorem keeps_ite {c : Prop} [Decidable c] {m k : Traced σ τ α} (yes : Keeps I P m) (no : Keeps I P k) :
    Keeps I P (if c then m else k) := by
  split
  · exact yes
  · exact no

end Traced
