import LiteMqtt.Helper.Budget

/-!
# The backoff waits

The shift is capped so that it is defined for every counter, and the result so that nobody waits longer
than half a minute. The second cap hides the first.
-/

namespace LiteMqtt

/-- A value of a signed type with that many bits. -/
def FitsSigned (bits : Nat) (value : Int) : Prop := -2 ^ (bits - 1) ≤ value ∧ value < 2 ^ (bits - 1)

instance (bits : Nat) (value : Int) : Decidable (FitsSigned bits value) := inferInstanceAs (Decidable (_ ∧ _))

/-- What the wait after `attempts` failures should be. -/
def backoff (maxAttempts baseDelayMs : Int) (attempts : Nat) : Int :=
  if maxAttempts = -1 then max baseDelayMs 0 else min (max baseDelayMs 0 * 2 ^ attempts) 30000

theorem backoff_monotone (maxAttempts baseDelayMs : Int) {attempts later : Nat} (order : attempts ≤ later) :
    backoff maxAttempts baseDelayMs attempts ≤ backoff maxAttempts baseDelayMs later := by
  unfold backoff
  split
  · exact Int.le_refl _
  · have grows : (2 : Int) ^ attempts ≤ 2 ^ later := by exact_mod_cast Nat.pow_le_pow_right (by decide) order
    have product := Int.mul_le_mul_of_nonneg_left grows (Int.le_max_right baseDelayMs 0)
    omega

theorem backoff_capped (maxAttempts baseDelayMs : Int) (attempts : Nat) :
    backoff maxAttempts baseDelayMs attempts = backoff maxAttempts baseDelayMs (min attempts 20) := by
  by_cases few : attempts ≤ 20
  · rw [Nat.min_eq_left few]
  rw [Nat.min_eq_right (by omega)]
  unfold backoff
  split
  · rfl
  · generalize base : max baseDelayMs 0 = b
    have nonneg : 0 ≤ b := base ▸ Int.le_max_right baseDelayMs 0
    by_cases zero : b = 0
    · simp [zero]
    have grows : (2 : Int) ^ 20 ≤ 2 ^ attempts := by exact_mod_cast Nat.pow_le_pow_right (by decide) (by omega)
    have product := Int.mul_le_mul_of_nonneg_left grows nonneg
    omega

namespace Helper

variable {h : Helper}

/-- The values `do_reconnect` computes for a wait, in their order, each with the bits of its type: the
shift, the power, the base delay as a `long long`, the product, its minimum with the cap, that as an
`int`, and the counter. -/
def delayValues (h : Helper) : List (Nat × Int) :=
  let shift := min h.reconnectAttempts 20
  let grown := h.baseReconnectDelayMs * 2 ^ shift.toNat
  [(32, shift), (64, 2 ^ shift.toNat), (64, h.baseReconnectDelayMs), (64, grown), (64, min grown 30000),
    (32, min grown 30000), (32, h.countAttempt.reconnectAttempts)]

theorem countAttempt_counter (h : Helper) : h.countAttempt.reconnectAttempts =
    if h.reconnectAttempts < 1000000 then h.reconnectAttempts + 1 else h.reconnectAttempts := by
  unfold countAttempt
  split <;> rfl

theorem counter_saturates (count : Nat) :
    (if min (count : Int) 1000000 < 1000000 then min (count : Int) 1000000 + 1 else min (count : Int) 1000000) =
      min ((count + 1 : Nat) : Int) 1000000 := by
  push_cast
  split <;> omega

theorem delayValues_fit (base : 0 ≤ h.baseReconnectDelayMs ∧ FitsSigned 32 h.baseReconnectDelayMs)
    (counter : 0 ≤ h.reconnectAttempts ∧ FitsSigned 32 h.reconnectAttempts) :
    ∀ entry ∈ h.delayValues, FitsSigned entry.1 entry.2 := by
  have shift : (min h.reconnectAttempts 20).toNat ≤ 20 := by omega
  have power : (2 : Int) ^ (min h.reconnectAttempts 20).toNat ≤ 2 ^ 20 := by
    exact_mod_cast Nat.pow_le_pow_right (by decide) shift
  have positive : (0 : Int) < 2 ^ (min h.reconnectAttempts 20).toNat := Int.pow_pos (by decide)
  obtain ⟨nonneg, -, upper⟩ := base
  obtain ⟨started, -, counted⟩ := counter
  have lower := Int.mul_nonneg nonneg (Int.le_of_lt positive)
  have product := Int.mul_le_mul (show h.baseReconnectDelayMs ≤ 2 ^ 31 by omega) power (Int.le_of_lt positive)
    (by decide)
  have count : 0 ≤ h.countAttempt.reconnectAttempts ∧ h.countAttempt.reconnectAttempts < 2 ^ 31 := by
    rw [countAttempt_counter]
    split
    · omega
    · exact ⟨started, counted⟩
  unfold delayValues FitsSigned
  simp only [List.forall_mem_cons, List.not_mem_nil, false_implies, implies_true, and_true]
  omega

theorem setReconnectConfig_base (h : Helper) (maxAttempts baseDelayMs : Int) :
    (h.setReconnectConfig maxAttempts baseDelayMs).baseReconnectDelayMs = max baseDelayMs 0 := by
  unfold setReconnectConfig
  dsimp only
  split <;> omega

theorem setReconnectConfig_unlimited (h : Helper) (maxAttempts baseDelayMs : Int) :
    (h.setReconnectConfig maxAttempts baseDelayMs).maxReconnectAttempts = -1 ↔ maxAttempts = -1 := by
  unfold setReconnectConfig
  dsimp only
  split <;> omega

theorem reconnectDelay_eq {maxAttempts baseDelayMs : Int} {attempts : Nat}
    (base : h.baseReconnectDelayMs = max baseDelayMs 0) (unlimited : h.maxReconnectAttempts = -1 ↔ maxAttempts = -1)
    (counter : h.reconnectAttempts = attempts) : h.reconnectDelay = backoff maxAttempts baseDelayMs attempts := by
  have shift : (min (attempts : Int) 20).toNat = min attempts 20 := by omega
  rw [backoff_capped, reconnectDelay, backoff, base, counter, shift]
  simp only [unlimited]

/-- What `do_reconnect` finds when it arms a wait: the flags allow it, no wait is pending, and the budget is not
used up. -/
def Retries (h : Helper) : Prop :=
  h.shouldReconnect = true ∧ h.userStopped = false ∧ h.reconnectPending = false ∧
    (h.maxReconnectAttempts = -1 ∨ h.reconnectAttempts < h.maxReconnectAttempts)

instance (h : Helper) : Decidable h.Retries := inferInstanceAs (Decidable (_ ∧ _ ∧ _ ∧ (_ ∨ _)))

theorem doReconnect_retries (retries : h.Retries) :
    h.doReconnect.armed = h.armed ++ [h.reconnectDelay] ∧ h.doReconnect.wait = some h.reconnectDelay ∧
      h.doReconnect.reconnectAttempts = h.countAttempt.reconnectAttempts := by
  obtain ⟨should, on, free, left⟩ := retries
  have unspent : ¬ h.Spent := by
    rintro ⟨limited, used⟩
    exact left.elim limited (Int.not_lt.mpr used)
  rw [doReconnect_left should on free unspent]
  unfold countAttempt
  split <;> exact ⟨rfl, rfl, rfl⟩

theorem doReconnect_rests (rests : ¬ h.Retries) :
    h.doReconnect.armed = h.armed ∧ h.doReconnect.wait = h.wait ∧
      h.doReconnect.reconnectAttempts = h.reconnectAttempts := by
  unfold doReconnect
  split
  · exact ⟨rfl, rfl, rfl⟩
  split
  · exact ⟨rfl, rfl, rfl⟩
  split
  · exact ⟨rfl, rfl, rfl⟩
  · rename_i allowed free unused
    refine absurd ⟨?_, ?_, by simpa using free, by omega⟩ rests
    · cases should : h.shouldReconnect <;> simp [should] at allowed ⊢
    · cases on : h.userStopped <;> simp [on] at allowed ⊢

theorem doReconnect_config (h : Helper) : h.doReconnect.baseReconnectDelayMs = h.baseReconnectDelayMs ∧
    h.doReconnect.maxReconnectAttempts = h.maxReconnectAttempts := by
  unfold doReconnect countAttempt
  split
  · exact ⟨rfl, rfl⟩
  split
  · exact ⟨rfl, rfl⟩
  split
  · exact ⟨rfl, rfl⟩
  · split <;> exact ⟨rfl, rfl⟩

/-- The handlers of the helper's own chores leave the configuration, the counter and the history alone. -/
theorem perform_same (h : Helper) (c : Chore) : (h.perform c).baseReconnectDelayMs = h.baseReconnectDelayMs ∧
    (h.perform c).maxReconnectAttempts = h.maxReconnectAttempts ∧ (h.perform c).armed = h.armed ∧
    (h.perform c).reconnectAttempts = h.reconnectAttempts := by
  cases c with
  | waited ec =>
    unfold perform onWaited
    dsimp only
    split
    · exact ⟨rfl, rfl, rfl, rfl⟩
    split
    · rw [doConnect_only]
      exact ⟨rfl, rfl, rfl, rfl⟩
    · exact ⟨rfl, rfl, rfl, rfl⟩
  | rearm =>
    unfold perform onRearm
    dsimp only
    split
    · exact ⟨rfl, rfl, rfl, rfl⟩
    · rw [doConnect_only]
      exact ⟨rfl, rfl, rfl, rfl⟩

end Helper

namespace Policy

variable {s t : Policy} {maxAttempts baseDelayMs : Int}

/-- The waits since the budget was renewed are those after one failure, two, and so on, as the counter says. -/
structure Paced (maxAttempts baseDelayMs : Int) (s : Policy) : Prop where
  base : s.helper.baseReconnectDelayMs = max baseDelayMs 0
  unlimited : s.helper.maxReconnectAttempts = -1 ↔ maxAttempts = -1
  before : s.armedBefore ≤ s.helper.armed.length
  counter : s.helper.reconnectAttempts = min (s.waitsArmed : Int) 1000000
  waits : s.helper.armed.drop s.armedBefore = (List.range s.waitsArmed).map (backoff maxAttempts baseDelayMs)

theorem paced_same (paced : s.Paced maxAttempts baseDelayMs)
    (base : t.helper.baseReconnectDelayMs = s.helper.baseReconnectDelayMs)
    (budget : t.helper.maxReconnectAttempts = s.helper.maxReconnectAttempts) (armed : t.helper.armed = s.helper.armed)
    (counter : t.helper.reconnectAttempts = s.helper.reconnectAttempts) (before : t.armedBefore = s.armedBefore) :
    t.Paced maxAttempts baseDelayMs := by
  have waits : t.waitsArmed = s.waitsArmed := by rw [waitsArmed, armed, before, waitsArmed]
  constructor
  · exact base.trans paced.base
  · rw [budget]
    exact paced.unlimited
  · rw [before, armed]
    exact paced.before
  · rw [counter, waits]
    exact paced.counter
  · rw [armed, before, waits]
    exact paced.waits

theorem paced_renewed {h : Helper} {phase : Phase} (base : h.baseReconnectDelayMs = max baseDelayMs 0)
    (unlimited : h.maxReconnectAttempts = -1 ↔ maxAttempts = -1) (fresh : h.reconnectAttempts = 0) :
    Paced maxAttempts baseDelayMs { s.renew h with phase } := by
  constructor
  · exact base
  · exact unlimited
  · exact Nat.le_refl _
  · rw [waitsArmed]
    simp only [renew, Nat.sub_self]
    exact fresh
  · simp [waitsArmed, renew]

/-- The next wait is the exact one: the shift does not see that the counter is saturated. -/
theorem Paced.delay (paced : s.Paced maxAttempts baseDelayMs) :
    s.helper.reconnectDelay = backoff maxAttempts baseDelayMs s.waitsArmed := by
  have counted : s.helper.reconnectAttempts = (s.helper.reconnectAttempts.toNat : Int) := by
    have := paced.counter
    omega
  rw [Helper.reconnectDelay_eq paced.base paced.unlimited counted, backoff_capped, backoff_capped _ _ s.waitsArmed,
    paced.counter]
  congr 1
  omega

theorem paced_failed {failures askedBefore : Nat} {phase : Phase} (paced : s.Paced maxAttempts baseDelayMs) :
    Paced maxAttempts baseDelayMs { s with helper := s.helper.doReconnect, phase, failures, askedBefore } := by
  obtain ⟨base, budget⟩ := s.helper.doReconnect_config
  by_cases retries : s.helper.Retries
  case neg =>
    obtain ⟨armed, -, counter⟩ := Helper.doReconnect_rests retries
    exact paced_same paced base budget armed counter rfl
  obtain ⟨armed, -, counter⟩ := Helper.doReconnect_retries retries
  have before := paced.before
  have count :
      waitsArmed { s with helper := s.helper.doReconnect, phase, failures, askedBefore } = s.waitsArmed + 1 := by
    simp only [waitsArmed, armed, List.length_append, List.length_singleton]
    omega
  have delay := paced.delay
  constructor
  · exact base.trans paced.base
  · rw [budget]
    exact paced.unlimited
  · rw [armed, List.length_append]
    exact Nat.le_add_right_of_le before
  · rw [count, counter, Helper.countAttempt_counter, paced.counter, Helper.counter_saturates]
  · rw [count, List.range_succ, List.map_append, ← paced.waits, armed, List.drop_append_of_le_length before, delay]
    rfl

theorem paced_step {a : Outcome} (paced : s.Paced maxAttempts baseDelayMs) (taken : s.step a = some t) :
    t.Paced maxAttempts baseDelayMs := by
  cases a with
  | start =>
    simp only [step] at taken
    split at taken
    · exact Option.some.inj taken ▸ paced
    · rename_i idle
      obtain rfl := Option.some.inj taken
      unfold Helper.start
      rw [if_neg idle, Helper.doConnect_only]
      exact paced_renewed paced.base paced.unlimited rfl
  | stop onIoThread =>
    obtain rfl := Option.some.inj taken
    obtain ⟨-, -, budget, armed, base, counter⟩ := s.helper.stop_same onIoThread
    exact paced_same paced base budget armed counter rfl
  | rearm =>
    simp only [step] at taken
    split at taken
    · rename_i able
      obtain rfl := Option.some.inj taken
      unfold Helper.rearmReconnect
      simp only [Bool.and_eq_true, Bool.not_eq_true'] at able
      obtain ⟨⟨runs, on⟩, off⟩ := able
      rw [if_neg (by simp [runs, on]), if_neg (by simp [off])]
      have renewed : Paced maxAttempts baseDelayMs { s.renew ({ s.helper with
          shouldReconnect := true, reconnectAttempts := 0, initialConnect := false }.queue .rearm) with
          phase := s.phase } := paced_renewed paced.base paced.unlimited rfl
      exact renewed
    · rename_i unable
      obtain rfl := Option.some.inj taken
      have same : s.helper.rearmReconnect.1 = s.helper := by
        unfold Helper.rearmReconnect
        cases runs : s.helper.running <;> cases on : s.helper.userStopped <;>
          cases off : s.helper.shouldReconnect <;> simp_all
      rw [same]
      exact paced
  | perform =>
    simp only [step] at taken
    split at taken
    · contradiction
    · rename_i c rest _
      obtain rfl := Option.some.inj taken
      obtain ⟨base, budget, armed, counter⟩ := Helper.perform_same { s.helper with chores := rest } c
      exact paced_same paced base budget armed counter rfl
  | expire =>
    simp only [step] at taken
    split at taken
    · obtain rfl := Option.some.inj taken
      exact paced_same paced rfl rfl rfl rfl rfl
    · contradiction
  | failed closing =>
    simp only [step] at taken
    split at taken
    · obtain rfl := Option.some.inj taken
      rw [Helper.failed_same]
      exact paced_failed paced
    · contradiction
  | connected =>
    simp only [step] at taken
    split at taken
    · obtain rfl := Option.some.inj taken
      unfold Helper.onConnect Helper.restoreSubscriptions
      simp only [Bool.not_true, Bool.false_eq_true, if_false]
      split
      · exact paced_renewed paced.base paced.unlimited rfl
      · exact paced_renewed paced.base paced.unlimited rfl
    · contradiction

/-- What every state of a run keeps to: since the budget was renewed the waits have been the exact ones, the next
failure that may be followed by a wait arms the one after these, and it computes nothing that leaves its type. -/
structure Backed (maxAttempts baseDelayMs : Int) (s : Policy) : Prop where
  waits : s.helper.armed.drop s.armedBefore = (List.range s.waitsArmed).map (backoff maxAttempts baseDelayMs)
  increasing : (s.helper.armed.drop s.armedBefore).Pairwise (· ≤ ·)
  next : s.helper.Retries →
    s.helper.doReconnect.armed = s.helper.armed ++ [backoff maxAttempts baseDelayMs s.waitsArmed] ∧
      s.helper.doReconnect.wait = some (backoff maxAttempts baseDelayMs s.waitsArmed)
  fit : ∀ entry ∈ s.helper.delayValues ++ [(32, s.helper.reconnectAttempts + 1)], FitsSigned entry.1 entry.2

theorem Paced.backed (paced : s.Paced maxAttempts baseDelayMs) (fits : FitsSigned 32 baseDelayMs) :
    s.Backed maxAttempts baseDelayMs := by
  refine ⟨paced.waits, ?_, fun retries => ?_, ?_⟩
  · rw [paced.waits, List.pairwise_map]
    exact List.pairwise_lt_range.imp fun order => backoff_monotone _ _ (Nat.le_of_lt order)
  · obtain ⟨armed, wait, -⟩ := Helper.doReconnect_retries retries
    rw [← paced.delay]
    exact ⟨armed, wait⟩
  · have counter := paced.counter
    obtain ⟨lower, upper⟩ := fits
    have base : 0 ≤ s.helper.baseReconnectDelayMs ∧ FitsSigned 32 s.helper.baseReconnectDelayMs := by
      rw [paced.base, FitsSigned]
      omega
    have few : 0 ≤ s.helper.reconnectAttempts ∧ s.helper.reconnectAttempts ≤ 1000000 := by omega
    have values := s.helper.delayValues_fit base ⟨few.1, by unfold FitsSigned; omega⟩
    intro entry among
    rcases List.mem_append.mp among with value | last
    · exact values entry value
    · obtain rfl := List.mem_singleton.mp last
      show FitsSigned 32 (s.helper.reconnectAttempts + 1)
      unfold FitsSigned
      omega

/-- A `do_reconnect` that may retry arms a wait, and no other one does. The wait is the exact exponential one, capped at
half a minute, or the base delay if the budget has no end. No value leaves its type, and between two renewals of the
budget no wait is shorter than the one before. -/
theorem backoff_exact (maxAttempts baseDelayMs : Int) (range : FitsSigned 32 baseDelayMs) :
    (∀ h : Helper, 0 ≤ h.reconnectAttempts →
      let g := h.setReconnectConfig maxAttempts baseDelayMs
      let delay := backoff maxAttempts baseDelayMs g.reconnectAttempts.toNat
      g.reconnectDelay = delay ∧
        (g.Retries → g.doReconnect.armed = g.armed ++ [delay] ∧ g.doReconnect.wait = some delay) ∧
        (¬ g.Retries → g.doReconnect.armed = g.armed ∧ g.doReconnect.wait = g.wait) ∧
        (FitsSigned 32 g.reconnectAttempts → ∀ entry ∈ g.delayValues, FitsSigned entry.1 entry.2)) ∧
    ∀ outcomes, Runs.Throughout step (Backed maxAttempts baseDelayMs)
        (configured maxAttempts baseDelayMs) outcomes := by
  constructor
  · intro h started g delay
    have base : g.baseReconnectDelayMs = max baseDelayMs 0 := h.setReconnectConfig_base maxAttempts baseDelayMs
    have exact : g.reconnectDelay = delay :=
      Helper.reconnectDelay_eq base (h.setReconnectConfig_unlimited maxAttempts baseDelayMs)
        (Int.toNat_of_nonneg started).symm
    refine ⟨exact, fun retries => ?_, fun rests => ?_, fun counter => ?_⟩
    · obtain ⟨armed, wait, -⟩ := Helper.doReconnect_retries retries
      exact ⟨exact ▸ armed, exact ▸ wait⟩
    · obtain ⟨armed, wait, -⟩ := Helper.doReconnect_rests rests
      exact ⟨armed, wait⟩
    · refine g.delayValues_fit ⟨?_, ?_⟩ ⟨started, counter⟩
      · omega
      · obtain ⟨lower, upper⟩ := range
        rw [base, FitsSigned]
        omega
  · intro outcomes
    have start : Paced maxAttempts baseDelayMs (configured maxAttempts baseDelayMs) :=
      ⟨Helper.setReconnectConfig_base _ _ _, Helper.setReconnectConfig_unlimited _ _ _, Nat.le_refl _, rfl, rfl⟩
    exact Runs.throughout_of_invariant (fun _ _ _ => paced_step) (fun _ paced => paced.backed range) start

/-- After five failures with the default base delay, `do_reconnect` arms a wait at the cap. -/
theorem backoff_exact_capped :
    (({ reconnectAttempts := 5 } : Helper).setReconnectConfig 10 1000).doReconnect.wait = some 30000 :=
  (((backoff_exact 10 1000 (by decide)).1 { reconnectAttempts := 5 } (by decide)).2.1 (by decide)).2

end Policy
end LiteMqtt
