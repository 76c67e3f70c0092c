import LiteMqtt.General.Lists
import LiteMqtt.General.Runs

/-! Threads that lock mutexes, call foreign code and join other threads. A thread that takes its locks in the order
of a rank, and holds none when it joins or calls, waits for nothing for ever: following who waits for whom, one always
comes to a thread that can go on. -/
namespace Locks

variable {M : Type*}

inductive Act (M : Type*) where
  | acquire (m : M)
  | release (m : M)
  /-- Foreign code is running. -/
  | foreign
  | join (thread : Nat)
  deriving DecidableEq

/-- The mutexes that a thread holds, the last one first, and what it has yet to do. -/
structure Thread (M : Type*) where
  held : List M := []
  rest : List (Act M)
  deriving DecidableEq

section Semantics

variable [DecidableEq M]

/-- A mutex that some thread holds is not acquired, and a thread is joined when it has nothing left to do. -/
def step (s : List (Thread M)) (i : Nat) : Option (List (Thread M)) :=
  match s[i]? with
  | none => none
  | some t =>
      match t.rest with
      | [] => none
      | .acquire m :: rest =>
          if s.all fun other => m ∉ other.held then some (s.set i { held := m :: t.held, rest }) else none
      | .release m :: rest => if m ∈ t.held then some (s.set i { held := t.held.erase m, rest }) else none
      | .foreign :: rest => some (s.set i { t with rest })
      | .join j :: rest => if s[j]?.all fun other => other.rest.isEmpty then some (s.set i { t with rest }) else none

end Semantics

/-- `i` cannot go on before `j` has. -/
def WaitsFor (s : List (Thread M)) (i j : Nat) : Prop :=
  ∃ t u rest, s[i]? = some t ∧ s[j]? = some u ∧
    ((∃ m, t.rest = .acquire m :: rest ∧ m ∈ u.held) ∨ t.rest = .join j :: rest ∧ u.rest ≠ [])

/-! ### The discipline -/

/-- Mutexes are acquired in the order of their ranks and released in reverse, and nothing is held in a join or in
foreign code. Only threads of a lower level are joined. -/
def Fits (rank : M → Nat) (level : Nat → Nat) (own : Nat) : List M → List (Act M) → Prop
  | held, [] => held = []
  | held, .acquire m :: rest => (∀ h ∈ held, rank h < rank m) ∧ Fits rank level own (m :: held) rest
  | [], .release _ :: _ => False
  | h :: held, .release m :: rest => m = h ∧ Fits rank level own held rest
  | held, .foreign :: rest => held = [] ∧ Fits rank level own [] rest
  | held, .join j :: rest => held = [] ∧ level j < own ∧ Fits rank level own [] rest

def Disciplined (rank : M → Nat) (level : Nat → Nat) (s : List (Thread M)) : Prop :=
  ∀ i t, s[i]? = some t → Fits rank level (level i) t.held t.rest

section Progress

variable {rank : M → Nat} {level : Nat → Nat} {own : Nat} {held : List M} {rest : List (Act M)} {m : M}
  {s t : List (Thread M)} {i : Nat}

theorem Fits.release (fits : Fits rank level own held (.release m :: rest)) :
    ∃ tail, held = m :: tail ∧ Fits rank level own tail rest := by
  cases held with
  | nil => exact fits.elim
  | cons h tail =>
    obtain ⟨rfl, later⟩ := fits
    exact ⟨tail, rfl, later⟩

theorem disciplined_set {u : Thread M} (disciplined : Disciplined rank level s)
    (fits : Fits rank level (level i) u.held u.rest) : Disciplined rank level (s.set i u) := by
  intro j v found
  rw [List.getElem?_set] at found
  split at found
  · rename_i same
    subst same
    split at found
    · exact Option.some.inj found ▸ fits
    · contradiction
  · exact disciplined j v found

variable [DecidableEq M]

theorem disciplined_step (disciplined : Disciplined rank level s) (taken : step s i = some t) :
    Disciplined rank level t := by
  unfold step at taken
  split at taken
  · contradiction
  rename_i own found
  have fits := disciplined i own found
  split at taken
  · contradiction
  · rename_i m rest next
    rw [next] at fits
    split at taken
    · exact Option.some.inj taken ▸ disciplined_set disciplined fits.2
    · contradiction
  · rename_i m rest next
    rw [next] at fits
    obtain ⟨tail, held, later⟩ := fits.release
    split at taken
    · refine Option.some.inj taken ▸ disciplined_set disciplined ?_
      dsimp only
      rwa [held, List.erase_cons_head]
    · contradiction
  · rename_i rest next
    rw [next] at fits
    obtain ⟨none, later⟩ := fits
    exact Option.some.inj taken ▸ disciplined_set disciplined (none ▸ later)
  · rename_i j rest next
    rw [next] at fits
    obtain ⟨none, -, later⟩ := fits
    split at taken
    · exact Option.some.inj taken ▸ disciplined_set disciplined (none ▸ later)
    · contradiction

/-- Some thread can go on for which `i` waits, or `i` can itself. -/
def Freed (s : List (Thread M)) (i : Nat) : Prop :=
  ∃ j, Relation.ReflTransGen (WaitsFor s) i j ∧ (step s j).isSome = true

theorem Freed.now (able : (step s i).isSome = true) : Freed s i := ⟨i, .refl, able⟩

theorem Freed.waiting {j : Nat} (waits : WaitsFor s i j) (freed : Freed s j) : Freed s i := by
  obtain ⟨k, chain, able⟩ := freed
  exact ⟨k, .head waits chain, able⟩

/-- A thread about to acquire a mutex can do so or waits for the one that holds it. -/
theorem acquire_or_waits {own : Thread M} (found : s[i]? = some own) (next : own.rest = .acquire m :: rest) :
    (step s i).isSome = true ∨ ∃ j u, s[j]? = some u ∧ m ∈ u.held ∧ WaitsFor s i j := by
  by_cases free : (s.all fun other => m ∉ other.held) = true
  · left
    unfold step
    rw [found]
    dsimp only
    rw [next]
    dsimp only
    rw [if_pos free]
    rfl
  · right
    simp only [List.all_eq_true, decide_eq_true_eq, not_forall, not_not] at free
    obtain ⟨u, among, holds⟩ := free
    obtain ⟨j, at_j⟩ := List.mem_iff_getElem?.mp among
    exact ⟨j, u, at_j, holds, own, u, rest, found, at_j, .inl ⟨m, next, holds⟩⟩

theorem release_able {own : Thread M} (found : s[i]? = some own) (next : own.rest = .release m :: rest)
    (holds : m ∈ own.held) : (step s i).isSome = true := by
  unfold step
  rw [found]
  dsimp only
  rw [next]
  dsimp only
  rw [if_pos holds]
  rfl

/-- The rank of what a thread waits for rises along the chain. -/
theorem freed_of_held {top : Nat} (bounded : ∀ m, rank m ≤ top) (disciplined : Disciplined rank level s)
    {own : Thread M} (found : s[i]? = some own) (holds : m ∈ own.held) : Freed s i := by
  induction height : top - rank m using Nat.strongRecOn generalizing i own m with
  | ind n ih =>
    have fits := disciplined i own found
    cases next : own.rest with
    | nil =>
      rw [next] at fits
      exact absurd holds (fits ▸ List.not_mem_nil)
    | cons act rest =>
      rw [next] at fits
      cases act with
      | acquire m' =>
        rcases acquire_or_waits found next with able | ⟨j, u, at_j, other, waits⟩
        · exact .now able
        · have higher := fits.1 m holds
          have bound := bounded m'
          exact (ih _ (by omega) at_j other rfl).waiting waits
      | release m' =>
        obtain ⟨tail, held, -⟩ := fits.release
        exact .now (release_able found next (held ▸ List.mem_cons_self))
      | foreign => exact absurd holds (fits.1 ▸ List.not_mem_nil)
      | join j => exact absurd holds (fits.1 ▸ List.not_mem_nil)

/-- The level of what is joined falls along the chain. -/
theorem freed_of_disciplined {top : Nat} (bounded : ∀ m, rank m ≤ top) (disciplined : Disciplined rank level s)
    {own : Thread M} (found : s[i]? = some own) (unfinished : own.rest ≠ []) : Freed s i := by
  induction depth : level i using Nat.strongRecOn generalizing i own with
  | ind n ih =>
    have fits := disciplined i own found
    cases next : own.rest with
    | nil => exact absurd next unfinished
    | cons act rest =>
      rw [next] at fits
      cases act with
      | acquire m =>
        rcases acquire_or_waits found next with able | ⟨j, u, at_j, holds, waits⟩
        · exact .now able
        · exact (freed_of_held bounded disciplined at_j holds).waiting waits
      | release m =>
        obtain ⟨tail, held, -⟩ := fits.release
        exact .now (release_able found next (held ▸ List.mem_cons_self))
      | foreign =>
        refine .now ?_
        unfold step
        rw [found]
        dsimp only
        rw [next]
        rfl
      | join j =>
        by_cases finished : (s[j]?.all fun other => other.rest.isEmpty) = true
        · refine .now ?_
          unfold step
          rw [found]
          dsimp only
          rw [next]
          dsimp only
          rw [if_pos finished]
          rfl
        · cases at_j : s[j]? with
          | none => simp [at_j] at finished
          | some u =>
            have goesOn : u.rest ≠ [] := by simpa [at_j, List.isEmpty_iff] using finished
            have waits : WaitsFor s i j := ⟨own, u, rest, found, at_j, .inr ⟨next, goesOn⟩⟩
            exact (ih _ (by rw [← depth]; exact fits.2.1) at_j goesOn rfl).waiting waits

/-- In every run of threads that keep the discipline: a thread that is not done can go on, or waits for one that can.
Foreign code runs with nothing held. -/
theorem freed_run {top : Nat} {threads : List (Thread M)} {actions : List Nat} (bounded : ∀ m, rank m ≤ top)
    (disciplined : Disciplined rank level threads) (done : Runs.exec step threads actions = some s) {own : Thread M}
    (found : s[i]? = some own) :
    (own.rest ≠ [] → Freed s i) ∧ ∀ rest, own.rest = .foreign :: rest → own.held = [] := by
  have kept : Disciplined rank level s := Runs.Reaches.invariant disciplined
    (fun _ _ _ before _ taken => disciplined_step before taken) (Runs.exec_reaches done (Runs.along_any actions))
  refine ⟨freed_of_disciplined bounded kept found, fun rest next => ?_⟩
  have fits := kept i own found
  rw [next] at fits
  exact fits.1

end Progress

/-! ### Code -/

/-- What code does with locks. A guard holds its mutex while its body runs. -/
inductive Code (M : Type*) where
  | skip
  | guard (m : M) (body : Code M)
  | seq (first later : Code M)
  | choice (left right : Code M)
  /-- Any number of times. -/
  | many (body : Code M)
  | foreign
  | join (thread : Nat)

/-- What a thread does in a run of the code. Foreign code may enter the code again. -/
inductive Trace (entry : Code M → Prop) : Code M → List (Act M) → Prop where
  | skip : Trace entry .skip []
  | guard {m : M} {body : Code M} {acts : List (Act M)} (inside : Trace entry body acts) :
      Trace entry (.guard m body) (.acquire m :: acts ++ [.release m])
  | seq {first later : Code M} {acts more : List (Act M)} (one : Trace entry first acts)
      (two : Trace entry later more) :
      Trace entry (.seq first later) (acts ++ more)
  | left {left right : Code M} {acts : List (Act M)} (taken : Trace entry left acts) :
    Trace entry (.choice left right) acts
  | right {left right : Code M} {acts : List (Act M)} (taken : Trace entry right acts) :
    Trace entry (.choice left right) acts
  | enough {body : Code M} : Trace entry (.many body) []
  | again {body : Code M} {acts more : List (Act M)} (one : Trace entry body acts)
      (others : Trace entry (.many body) more) :
      Trace entry (.many body) (acts ++ more)
  | returns : Trace entry .foreign [.foreign]
  | calls {code : Code M} {acts more : List (Act M)} (known : entry code) (one : Trace entry code acts)
      (others : Trace entry .foreign more) : Trace entry .foreign (.foreign :: acts ++ more)
  | join {thread : Nat} : Trace entry (.join thread) [.join thread]

/-- The discipline, of code that starts with these mutexes held. -/
def Code.Ordered (rank : M → Nat) (level : Nat → Nat) (own : Nat) : List M → Code M → Prop
  | _, .skip => True
  | held, .guard m body => (∀ h ∈ held, rank h < rank m) ∧ body.Ordered rank level own (m :: held)
  | held, .seq first later => first.Ordered rank level own held ∧ later.Ordered rank level own held
  | held, .choice left right => left.Ordered rank level own held ∧ right.Ordered rank level own held
  | held, .many body => body.Ordered rank level own held
  | held, .foreign => held = []
  | held, .join thread => held = [] ∧ level thread < own

section Code

variable {rank : M → Nat} {level : Nat → Nat} {own : Nat} {held : List M} {entry : Code M → Prop} {code : Code M}
  {acts rest : List (Act M)}

theorem Trace.lock (m : M) : Trace entry (.guard m .skip) [.acquire m, .release m] := .guard .skip

theorem fits_trace (entries : ∀ c, entry c → c.Ordered rank level own []) (trace : Trace entry code acts)
    (ordered : code.Ordered rank level own held) (fits : Fits rank level own held rest) :
    Fits rank level own held (acts ++ rest) := by
  induction trace generalizing held rest with
  | skip => exact fits
  | @guard m body acts inside ih =>
    have whole : Act.acquire m :: acts ++ [.release m] ++ rest = .acquire m :: (acts ++ .release m :: rest) := by simp
    rw [whole]
    exact ⟨ordered.1, ih ordered.2 ⟨rfl, fits⟩⟩
  | seq one two first later =>
    rw [List.append_assoc]
    exact first ordered.1 (later ordered.2 fits)
  | left taken ih => exact ih ordered.1 fits
  | right taken ih => exact ih ordered.2 fits
  | enough => exact fits
  | again one others first later =>
    rw [List.append_assoc]
    exact first ordered (later ordered fits)
  | returns =>
    obtain rfl : held = [] := ordered
    exact ⟨rfl, fits⟩
  | calls known one others first later =>
    obtain rfl : held = [] := ordered
    rw [List.cons_append, List.cons_append, List.append_assoc]
    exact ⟨rfl, first (entries _ known) (later rfl fits)⟩
  | join =>
    obtain ⟨rfl, lower⟩ := ordered
    exact ⟨rfl, lower, fits⟩

theorem fits_of_ordered (entries : ∀ c, entry c → c.Ordered rank level own []) (trace : Trace entry code acts)
    (ordered : code.Ordered rank level own []) : Fits rank level own [] acts := by
  have whole : Fits rank level own [] (acts ++ []) := fits_trace entries trace ordered rfl
  rwa [List.append_nil] at whole

end Code
end Locks
