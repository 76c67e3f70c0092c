import LiteMqtt.General.Runs
import LiteMqtt.Helper.Model

/-!
# The reconnect budget

Attempts fail or get through, sessions are lost, and waits expire, in any order that the outcomes
allow. A failure is reported after the backoff wait before it has fired.
-/

namespace LiteMqtt

inductive Phase where
  | idle
  /-- `do_connect` was called and has not been answered. -/
  | trying
  | up
  deriving DecidableEq, Repr

inductive Outcome where
  | start
  | stop (onIoThread : Bool)
  | rearm
  /-- The io thread takes the first chore. -/
  | perform
  | expire
  /-- An attempt fails, or its session is lost. -/
  | failed (closing : Bool)
  | connected
  deriving DecidableEq, Repr

/-- `failures` counts the consecutive failures since the budget was last renewed. The last two fields
are how many waits had been armed by then, and how many calls made when the last failure was reported. -/
structure Policy where
  helper : Helper
  phase : Phase := .idle
  failures : Nat := 0
  armedBefore : Nat := 0
  askedBefore : Nat := 0
  deriving DecidableEq, Repr

namespace Policy

/-- The budget counts from here. -/
def renew (s : Policy) (helper : Helper) : Policy :=
  { s with helper, failures := 0, armedBefore := helper.armed.length }

/-- The helper goes on, perhaps with a new attempt. -/
def follow (s : Policy) (helper : Helper) : Policy :=
  { s with
    helper, phase := if .asyncConnect ∈ helper.asked.drop s.helper.asked.length then .trying else s.phase }

def step (s : Policy) : Outcome → Option Policy
  | .start =>
      if s.helper.running then some s
      else some { s.renew s.helper.start with phase := .trying }
  | .stop onIoThread => some { s with helper := s.helper.stop onIoThread }
  | .rearm =>
      if s.helper.running && !s.helper.userStopped && !s.helper.shouldReconnect then
        some (s.renew s.helper.rearmReconnect.1)
      else some { s with helper := s.helper.rearmReconnect.1 }
  | .perform =>
      match s.helper.chores with
      | [] => none
      | c :: rest => some (s.follow ({ s.helper with chores := rest }.perform c))
  | .expire => if s.helper.wait.isSome then some { s with helper := s.helper.expireReconnectTimer } else none
  | .failed closing =>
      if s.phase ≠ .idle ∧ s.helper.wait = none ∧ .waited none ∉ s.helper.chores then
        some { s with
          helper := if closing then s.helper.onClose else s.helper.onConnect false, phase := .idle
          failures := s.failures + 1, askedBefore := s.helper.asked.length }
      else none
  | .connected => if s.phase = .trying then some { s.renew (s.helper.onConnect true) with phase := .up } else none

/-- The waits armed since the budget was renewed. -/
def waitsArmed (s : Policy) : Nat := s.helper.armed.length - s.armedBefore

/-- The calls of `do_connect` since the last failure. -/
def connects (s : Policy) : Nat := (s.helper.asked.drop s.askedBefore).count .asyncConnect

/-- The budget has no end, or is not used up. -/
def Within (s : Policy) : Prop :=
  s.helper.maxReconnectAttempts = -1 ∨ (s.failures : Int) ≤ s.helper.maxReconnectAttempts

/-- Every failure within the budget has armed one wait, and the next one made the helper give up. -/
structure Budgeted (s : Policy) : Prop where
  within : s.helper.running = true → s.Within → s.helper.shouldReconnect = true ∧ s.waitsArmed = s.failures
  beyond : s.helper.running = true → ¬ s.Within → s.helper.shouldReconnect = false ∧
    (s.waitsArmed : Int) = s.helper.maxReconnectAttempts ∧ s.helper.wait = none ∧
    .waited none ∉ s.helper.chores ∧ s.connects = 0

end Policy

namespace Helper

variable {h : Helper}

theorem onClose_same (h : Helper) : h.onClose = h.doReconnect := by
  unfold onClose
  split
  · rfl
  · rename_i off
    unfold doReconnect
    rw [if_pos]
    cases should : h.shouldReconnect <;> simp_all

theorem failed_same (h : Helper) (closing : Bool) :
    (if closing then h.onClose else h.onConnect false) = h.doReconnect := by
  cases closing
  · rfl
  · exact onClose_same h

/-- The budget is spent. -/
def Spent (h : Helper) : Prop := h.maxReconnectAttempts ≠ -1 ∧ h.reconnectAttempts ≥ h.maxReconnectAttempts

theorem doReconnect_spent (should : h.shouldReconnect = true) (on : h.userStopped = false)
    (free : h.reconnectPending = false) (spent : h.Spent) :
    h.doReconnect = { h with shouldReconnect := false, reconnectPending := false } := by
  have used : h.maxReconnectAttempts ≠ -1 ∧ h.reconnectAttempts ≥ h.maxReconnectAttempts := spent
  unfold doReconnect
  rw [if_neg (by simp [should, on]), if_neg (by simp [free]), if_pos used]

theorem doReconnect_left (should : h.shouldReconnect = true) (on : h.userStopped = false)
    (free : h.reconnectPending = false) (left : ¬ h.Spent) :
    h.doReconnect = { h with reconnectPending := true }.countAttempt.armReconnectTimer h.reconnectDelay := by
  have unused : ¬ (h.maxReconnectAttempts ≠ -1 ∧ h.reconnectAttempts ≥ h.maxReconnectAttempts) := left
  unfold doReconnect
  rw [if_neg (by simp [should, on]), if_neg (by simp [free]), if_neg unused]

theorem doReconnect_waits (should : h.shouldReconnect = true) (on : h.userStopped = false)
    (free : h.reconnectPending = false) (quiet : h.wait = none) (left : ¬ h.Spent) :
    h.doReconnect = { h with
      reconnectPending := true, wait := some h.reconnectDelay, armed := h.armed ++ [h.reconnectDelay]
      reconnectAttempts :=
          if h.reconnectAttempts < 1000000 then h.reconnectAttempts + 1 else h.reconnectAttempts } := by
  rw [doReconnect_left should on free left]
  unfold countAttempt
  dsimp only
  split <;> simp [armReconnectTimer, cancelReconnectTimer, quiet]

theorem doConnect_only (h : Helper) : h.doConnect = { h with asked := h.doConnect.asked } := by
  unfold doConnect
  split <;> rfl

theorem stop_same (h : Helper) (onIoThread : Bool) : (h.stop onIoThread).running = false ∧
    (h.stop onIoThread).reconnectPending = false ∧
    (h.stop onIoThread).maxReconnectAttempts = h.maxReconnectAttempts ∧ (h.stop onIoThread).armed = h.armed ∧
    (h.stop onIoThread).baseReconnectDelayMs = h.baseReconnectDelayMs ∧
    (h.stop onIoThread).reconnectAttempts = h.reconnectAttempts := by
  have released : ∀ g : Helper, g.releaseClient.running = g.running ∧
      g.releaseClient.reconnectPending = g.reconnectPending ∧
      g.releaseClient.maxReconnectAttempts = g.maxReconnectAttempts ∧ g.releaseClient.armed = g.armed ∧
      g.releaseClient.baseReconnectDelayMs = g.baseReconnectDelayMs ∧
      g.releaseClient.reconnectAttempts = g.reconnectAttempts := by
    intro g
    unfold releaseClient
    split <;> exact ⟨rfl, rfl, rfl, rfl, rfl, rfl⟩
  have begun : h.beginStop.running = false ∧ h.beginStop.reconnectPending = false ∧
      h.beginStop.maxReconnectAttempts = h.maxReconnectAttempts ∧ h.beginStop.armed = h.armed ∧
      h.beginStop.baseReconnectDelayMs = h.baseReconnectDelayMs ∧
      h.beginStop.reconnectAttempts = h.reconnectAttempts := by
    unfold beginStop
    dsimp only
    split <;> exact ⟨rfl, rfl, rfl, rfl, rfl, rfl⟩
  unfold stop
  split
  · unfold stopOnIoThread
    dsimp only
    split <;> exact ⟨rfl, rfl, rfl, rfl, rfl, rfl⟩
  · unfold stopElsewhere finishStop
    dsimp only
    split <;> split <;> (
      obtain ⟨running, pending, budget, armed, base, attempts⟩ := released _
      rw [running, pending, budget, armed, base, attempts]
      exact begun)

end Helper

namespace Policy

variable {s t : Policy}

/-- What holds while failures and waits are counted, with a budget the counter can reach. -/
structure Counting (s : Policy) : Prop where
  range : -1 ≤ s.helper.maxReconnectAttempts ∧ s.helper.maxReconnectAttempts ≤ 1000000
  on : s.helper.running = true → s.helper.userStopped = false
  pending : s.helper.reconnectPending = true → s.helper.wait.isSome = true ∨ .waited none ∈ s.helper.chores
  before : s.armedBefore ≤ s.helper.armed.length
  retrying : s.helper.running = true → s.helper.shouldReconnect = true →
    s.helper.reconnectAttempts = min (s.failures : Int) 1000000 ∧ s.Within ∧ s.waitsArmed = s.failures
  givenUp : s.helper.running = true → s.helper.shouldReconnect = false →
    s.helper.maxReconnectAttempts ≠ -1 ∧ (s.failures : Int) = s.helper.maxReconnectAttempts + 1 ∧
      (s.waitsArmed : Int) = s.helper.maxReconnectAttempts ∧ s.helper.wait = none ∧
      .waited none ∉ s.helper.chores ∧ s.connects = 0 ∧ s.phase = .idle

theorem Counting.budgeted (counting : s.Counting) : s.Budgeted := by
  refine ⟨fun runs within => ?_, fun runs beyond => ?_⟩
  · cases should : s.helper.shouldReconnect with
    | true => exact ⟨rfl, (counting.retrying runs should).2.2⟩
    | false =>
      obtain ⟨finite, failures, -⟩ := counting.givenUp runs should
      rcases within with none | few
      · exact absurd none finite
      · omega
  · cases should : s.helper.shouldReconnect with
    | true => exact absurd (counting.retrying runs should).2.1 beyond
    | false =>
      obtain ⟨-, -, waits, quiet, handled, calls, -⟩ := counting.givenUp runs should
      exact ⟨rfl, waits, quiet, handled, calls⟩

theorem counting_failed (counting : s.Counting) (active : s.phase ≠ .idle) (quiet : s.helper.wait = none)
    (handled : .waited none ∉ s.helper.chores) : Counting { s with
      helper := s.helper.doReconnect, phase := .idle, failures := s.failures + 1
      askedBefore := s.helper.asked.length } := by
  have free : s.helper.reconnectPending = false := by
    cases pending : s.helper.reconnectPending with
    | false => rfl
    | true =>
      rcases counting.pending pending with waits | queued
      · simp [quiet] at waits
      · exact absurd queued handled
  by_cases off : s.helper.shouldReconnect = true ∧ s.helper.userStopped = false
  · obtain ⟨should, on⟩ := off
    by_cases spent : s.helper.Spent
    · rw [Helper.doReconnect_spent should on free spent]
      refine ⟨counting.range, counting.on, nofun, counting.before, fun _ => nofun, fun runs _ => ?_⟩
      obtain ⟨attempts, within, waits⟩ := counting.retrying runs should
      obtain ⟨finite, used⟩ := spent
      obtain ⟨lower, upper⟩ := counting.range
      have few := within.resolve_left finite
      simp only [waitsArmed, connects] at waits ⊢
      refine ⟨finite, ?_, ?_, quiet, handled, by simp, trivial⟩
      · push_cast
        omega
      · omega
    · rw [Helper.doReconnect_waits should on free quiet spent]
      refine ⟨counting.range, counting.on, fun _ => .inl rfl, ?_, fun runs _ => ?_, fun _ none => ?_⟩
      · exact Nat.le_trans counting.before (by simp)
      · obtain ⟨attempts, within, waits⟩ := counting.retrying runs should
        have before := counting.before
        have left : s.helper.maxReconnectAttempts = -1 ∨
            s.helper.reconnectAttempts < s.helper.maxReconnectAttempts := by
          by_contra neither
          exact spent ⟨fun none => neither (.inl none), by omega⟩
        simp only [waitsArmed, Within, List.length_append, List.length_singleton] at waits within ⊢
        refine ⟨?_, ?_, by omega⟩
        · push_cast
          split <;> omega
        · refine left.imp_right fun more => ?_
          obtain ⟨lower, upper⟩ := counting.range
          push_cast
          omega
      · exact absurd (should.symm.trans none) nofun
  · have same : s.helper.doReconnect = s.helper := by
      unfold Helper.doReconnect
      rw [if_pos]
      cases should : s.helper.shouldReconnect <;> simp_all
    rw [same]
    refine ⟨counting.range, counting.on, counting.pending, counting.before, fun runs should => ?_, fun runs none => ?_⟩
    · exact absurd ⟨should, counting.on runs⟩ off
    · exact absurd (counting.givenUp runs none).2.2.2.2.2.2 active

theorem counting_follow {h : Helper} (counting : s.Counting) (same : h = { s.helper with
      asked := h.asked, wait := h.wait, chores := h.chores, reconnectPending := h.reconnectPending })
    (pending : h.reconnectPending = true → h.wait.isSome = true ∨ .waited none ∈ h.chores)
    (givenUp : s.helper.shouldReconnect = false → h.asked = s.helper.asked ∧ h.wait = s.helper.wait ∧
      ∀ c ∈ h.chores, c ∈ s.helper.chores) : (s.follow h).Counting := by
  obtain ⟨asked, wait, chores, reconnectPending, rfl⟩ : ∃ asked wait chores pending, h = { s.helper with
      asked, wait, chores, reconnectPending := pending } := ⟨_, _, _, _, same⟩
  refine ⟨counting.range, counting.on, pending, counting.before, counting.retrying, fun runs off => ?_⟩
  obtain ⟨rfl, rfl, fewer⟩ := givenUp off
  obtain ⟨finite, failures, waits, quiet, handled, calls, idle⟩ := counting.givenUp runs off
  refine ⟨finite, failures, waits, quiet, fun among => handled (fewer _ among), calls, ?_⟩
  simp [follow, idle]

theorem counting_perform {c : Chore} {rest : List Chore} (counting : s.Counting)
    (first : s.helper.chores = c :: rest) :
    (s.follow ({ s.helper with chores := rest }.perform c)).Counting := by
  have later : ∀ x ∈ rest, x ∈ s.helper.chores := fun x among => first ▸ List.mem_cons_of_mem c among
  cases c with
  | waited ec =>
    simp only [Helper.perform, Helper.onWaited]
    split
    · exact counting_follow counting rfl nofun fun _ => ⟨rfl, rfl, later⟩
    · split
      · rename_i _ should
        rw [Helper.doConnect_only]
        refine counting_follow counting rfl nofun fun off => ?_
        simp [off] at should
      · exact counting_follow counting rfl nofun fun _ => ⟨rfl, rfl, later⟩
  | rearm =>
    simp only [Helper.perform, Helper.onRearm]
    split
    · refine counting_follow counting rfl (fun pending => ?_) fun _ => ⟨rfl, rfl, later⟩
      refine (counting.pending pending).imp_right fun queued => ?_
      rw [first] at queued
      exact (List.mem_cons.mp queued).resolve_left nofun
    · rename_i should
      rw [Helper.doConnect_only]
      refine counting_follow counting rfl nofun fun off => ?_
      simp [off] at should

theorem counting_renewed {h : Helper} {phase : Phase}
    (range : -1 ≤ h.maxReconnectAttempts ∧ h.maxReconnectAttempts ≤ 1000000)
    (on : h.running = true → h.userStopped = false)
    (pending : h.reconnectPending = true → h.wait.isSome = true ∨ .waited none ∈ h.chores)
    (should : h.running = true → h.shouldReconnect = true) (fresh : h.running = true → h.reconnectAttempts = 0) :
    Counting { s.renew h with phase } := by
  refine ⟨range, on, pending, Nat.le_refl _, fun runs _ => ⟨?_, ?_, ?_⟩, fun runs off => ?_⟩
  · exact (fresh runs).trans rfl
  · simp only [Within, renew]
    omega
  · simp [waitsArmed, renew]
  · exact absurd ((should runs).symm.trans off) nofun

theorem counting_step {a : Outcome} (counting : s.Counting) (taken : s.step a = some t) : t.Counting := by
  cases a with
  | start =>
    simp only [step] at taken
    split at taken
    · exact Option.some.inj taken ▸ counting
    · rename_i idle
      obtain rfl := Option.some.inj taken
      unfold Helper.start
      rw [if_neg idle, Helper.doConnect_only]
      exact counting_renewed counting.range (fun _ => rfl) nofun (fun _ => rfl) fun _ => rfl
  | stop onIoThread =>
    obtain rfl := Option.some.inj taken
    obtain ⟨running, pending, budget, armed, -⟩ := s.helper.stop_same onIoThread
    refine ⟨budget ▸ counting.range, fun runs => ?_, fun waits => ?_, armed ▸ counting.before, fun runs => ?_,
      fun runs => ?_⟩
    · exact absurd (running.symm.trans runs) nofun
    · exact absurd (pending.symm.trans waits) nofun
    · exact absurd (running.symm.trans runs) nofun
    · exact absurd (running.symm.trans runs) nofun
  | rearm =>
    simp only [step] at taken
    split at taken
    · rename_i able
      obtain rfl := Option.some.inj taken
      simp only [Bool.and_eq_true, Bool.not_eq_true'] at able
      obtain ⟨⟨runs, on⟩, off⟩ := able
      have again : s.helper.rearmReconnect.1 =
          { s.helper with shouldReconnect := true, reconnectAttempts := 0, initialConnect := false }.queue .rearm := by
        simp [Helper.rearmReconnect, runs, on, off]
      rw [again]
      have renewed : Counting { s.renew ({ s.helper with
          shouldReconnect := true, reconnectAttempts := 0, initialConnect := false }.queue .rearm) with
          phase := s.phase } := counting_renewed counting.range counting.on
        (fun pending => (counting.pending pending).imp_right (List.mem_append_left _)) (fun _ => rfl) fun _ => rfl
      exact renewed
    · rename_i unable
      obtain rfl := Option.some.inj taken
      have same : s.helper.rearmReconnect.1 = s.helper := by
        unfold Helper.rearmReconnect
        cases runs : s.helper.running <;> cases on : s.helper.userStopped <;>
          cases off : s.helper.shouldReconnect <;> simp_all
      rw [same]
      exact counting
  | perform =>
    simp only [step] at taken
    split at taken
    · contradiction
    · exact Option.some.inj taken ▸ counting_perform counting ‹_›
  | expire =>
    simp only [step] at taken
    split at taken
    · rename_i waits
      obtain rfl := Option.some.inj taken
      refine ⟨counting.range, counting.on, fun _ => .inr (by simp [Helper.expireReconnectTimer, Helper.queue]),
        counting.before, counting.retrying, fun runs off => ?_⟩
      obtain ⟨-, -, -, quiet, -⟩ := counting.givenUp runs off
      simp [quiet] at waits
    · contradiction
  | failed closing =>
    simp only [step] at taken
    split at taken
    · rename_i reported
      obtain rfl := Option.some.inj taken
      rw [Helper.failed_same]
      exact counting_failed counting reported.1 reported.2.1 reported.2.2
    · contradiction
  | connected =>
    simp only [step] at taken
    split at taken
    · rename_i trying
      obtain rfl := Option.some.inj taken
      have should : s.helper.running = true → s.helper.shouldReconnect = true := by
        intro runs
        by_contra off
        have idle := (counting.givenUp runs (by simpa using off)).2.2.2.2.2.2
        exact absurd (trying.symm.trans idle) nofun
      unfold Helper.onConnect Helper.restoreSubscriptions
      simp only [Bool.not_true, Bool.false_eq_true, if_false]
      split
      · exact counting_renewed (s := s) counting.range counting.on counting.pending should fun _ => rfl
      · exact counting_renewed (s := s) counting.range counting.on counting.pending should fun _ => rfl
    · contradiction

/-! ### A budget that the counter does not reach -/

/-- The attempt after `k` failures is in progress. -/
structure Failing (budget : Int) (k : Nat) (s : Policy) : Prop where
  budget : s.helper.maxReconnectAttempts = budget
  active : s.helper.running = true ∧ s.helper.shouldReconnect = true ∧ s.helper.userStopped = false ∧
    s.helper.client = true
  quiet : s.helper.reconnectPending = false ∧ s.helper.wait = none ∧ s.helper.chores = []
  phase : s.phase = .trying
  attempts : s.helper.reconnectAttempts ≤ 1000000
  failures : s.failures = k

/-- One more attempt fails, and its backoff wait fires. -/
def round : List Outcome := [.failed false, .expire, .perform]

theorem failing_round {budget : Int} {k : Nat} (endless : 1000000 < budget) (failing : s.Failing budget k) :
    ∃ t, Runs.exec step s round = some t ∧ t.Failing budget (k + 1) := by
  obtain ⟨same, ⟨runs, should, on, client⟩, ⟨free, quiet, empty⟩, phase, attempts, failures⟩ := failing
  have left : ¬ s.helper.Spent := fun spent => by
    have := spent.2
    omega
  have reported : s.phase ≠ .idle ∧ s.helper.wait = none ∧ .waited none ∉ s.helper.chores := by
    simp [phase, quiet, empty]
  have waits := s.helper.doReconnect_waits should on free quiet left
  have failed : s.step (.failed false) = some { s with
      helper := s.helper.doReconnect, phase := .idle, failures := s.failures + 1
      askedBefore := s.helper.asked.length } := if_pos reported
  generalize s.helper.doReconnect = h at waits failed
  have armed : h.wait.isSome = true := by rw [waits]; rfl
  have queued : h.expireReconnectTimer.chores = [.waited none] := by
    rw [waits]
    simp [Helper.expireReconnectTimer, Helper.queue, empty]
  have connects : { h.expireReconnectTimer with chores := [] }.perform (.waited none) = { h with
      wait := none, chores := [], reconnectPending := false, asked := h.asked ++ [.asyncConnect] } := by
    rw [waits]
    simp [Helper.perform, Helper.onWaited, Helper.doConnect, Helper.ask, Helper.expireReconnectTimer, Helper.queue,
      should, on, client]
  let u : Policy := { s with
    helper := h, phase := .idle, failures := s.failures + 1, askedBefore := s.helper.asked.length }
  have expired : u.step .expire = some { u with helper := h.expireReconnectTimer } := if_pos armed
  have performed : step { u with helper := h.expireReconnectTimer } .perform = some (follow
      { u with helper := h.expireReconnectTimer }
          ({ h.expireReconnectTimer with chores := [] }.perform (.waited none))) := by
    simp only [step, queued]
  have ran : Runs.exec step s round = some (follow
      { u with helper := h.expireReconnectTimer }
          ({ h.expireReconnectTimer with chores := [] }.perform (.waited none))) := by
    simp only [round, Runs.exec, failed, Option.bind_some]
    exact (congrArg (Option.bind · _) expired).trans ((congrArg (Option.bind · _) performed).trans rfl)
  refine ⟨_, ran, ?_⟩
  rw [connects]
  refine ⟨?_, ?_, ⟨rfl, rfl, rfl⟩, ?_, ?_, congrArg (· + 1) failures⟩
  · exact (congrArg Helper.maxReconnectAttempts waits).trans same
  · simp only [follow]
    rw [waits]
    exact ⟨runs, should, on, client⟩
  · simp [follow, Helper.expireReconnectTimer, Helper.queue]
  · simp only [follow]
    rw [waits]
    dsimp only
    split <;> omega

def rounds : Nat → List Outcome
  | 0 => [.start]
  | k + 1 => rounds k ++ round

theorem failing_rounds {h : Helper} (fresh : h.running = false) (empty : h.wait = none ∧ h.chores = [])
    (endless : 1000000 < h.maxReconnectAttempts) (k : Nat) :
    ∃ t, Runs.exec step { helper := h } (rounds k) = some t ∧ t.Failing h.maxReconnectAttempts k := by
  induction k with
  | zero =>
    refine ⟨{ ({ helper := h } : Policy).renew h.start with phase := .trying },
      by simp [rounds, Runs.exec, step, fresh], ?_⟩
    unfold Helper.start
    rw [if_neg (by simp [fresh]), Helper.doConnect_only]
    exact ⟨rfl, ⟨rfl, rfl, rfl, rfl⟩, ⟨rfl, empty.1, empty.2⟩, rfl, by simp [renew, Helper.startIoThread], rfl⟩
  | succ k ih =>
    obtain ⟨s, done, failing⟩ := ih
    obtain ⟨t, again, failed⟩ := failing_round endless failing
    exact ⟨t, by rw [rounds, Runs.exec_append, done]; exact again, failed⟩

/-- A helper that was given this configuration. -/
def configured (maxAttempts baseDelayMs : Int) : Policy :=
  { helper := ({} : Helper).setReconnectConfig maxAttempts baseDelayMs }

/-- With a larger budget there is a run in which the helper does not give up when it should. -/
theorem never_gives_up (maxAttempts baseDelayMs : Int) (large : 1000000 < maxAttempts) :
    ¬ ∀ outcomes, Runs.Throughout step Budgeted (configured maxAttempts baseDelayMs) outcomes := by
  intro budgeted
  have budget : (configured maxAttempts baseDelayMs).helper.maxReconnectAttempts = maxAttempts := by
    simp only [configured, Helper.setReconnectConfig]
    rw [if_neg (by omega)]
  obtain ⟨s, done, failing⟩ := failing_rounds (h := (configured maxAttempts baseDelayMs).helper) rfl ⟨rfl, rfl⟩
    (by rw [budget]; exact large) (maxAttempts.toNat + 1)
  rw [budget] at failing
  have beyond : ¬ s.Within := by
    rw [Within, failing.budget, failing.failures]
    push_cast
    omega
  have givesUp := (Runs.throughout_last (budgeted _) done).beyond failing.active.1 beyond
  exact absurd (failing.active.2.1.symm.trans givesUp.1) nofun

/-- For every budget: in every run, each failure within the budget arms one backoff wait and the next one
makes the helper give up, exactly if the budget is at most a million. -/
theorem reconnect_budget (maxAttempts baseDelayMs : Int) :
    (∀ outcomes, Runs.Throughout step Budgeted (configured maxAttempts baseDelayMs) outcomes) ↔
      maxAttempts ≤ 1000000 := by
  constructor
  · intro budgeted
    by_contra large
    exact never_gives_up maxAttempts baseDelayMs (by omega) budgeted
  · intro small outcomes
    have range : -1 ≤ (configured maxAttempts baseDelayMs).helper.maxReconnectAttempts ∧
        (configured maxAttempts baseDelayMs).helper.maxReconnectAttempts ≤ 1000000 := by
      simp only [configured, Helper.setReconnectConfig]
      split <;> omega
    have counting : (configured maxAttempts baseDelayMs).Counting :=
      ⟨range, nofun, nofun, Nat.le_refl _, nofun, nofun⟩
    exact Runs.throughout_of_invariant (fun _ _ _ => counting_step) (fun _ => Counting.budgeted) counting

/-- The budget of 1 000 001 attempts is one that the saturated counter does not reach. -/
theorem budget_beyond_counter :
    ¬ ∀ maxAttempts baseDelayMs outcomes, (-1 ≤ maxAttempts ∧ maxAttempts ≤ 2147483647) →
      Runs.Throughout step Budgeted (configured maxAttempts baseDelayMs) outcomes := by
  intro claimed
  exact never_gives_up 1000001 0 (by decide) fun outcomes => claimed 1000001 0 outcomes (by decide)

end Policy
end LiteMqtt
