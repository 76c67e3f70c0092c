import LiteMqtt.Client.Waiting

/-!
# A connect timeout that comes late

`handle_connack` cancels the connect timer. A wait that has already expired is not revoked, and
`handle_connect_timeout` looks at `closed_` only, which an accepted CONNACK clears.
-/

namespace LiteMqtt
namespace Sys

variable {s t u v : Sys} {attempt : Nat}

/-- The step leaves the session alone: nothing is closed and the user is told nothing. -/
structure Spares (s t : Sys) : Prop where
  closed : t.closed = s.closed
  connection : t.net.closed = s.net.closed ∧ t.net.socket = s.net.socket
  quiet : t.log = s.log ∧ t.net.stack = s.net.stack.tail

/-- The run handles an accepted CONNACK in `s`. Later, in the step from `u` to `v`, it handles an
expired connect timer of an attempt begun by then. -/
structure LateExpiry (actions : List Action) (s u v : Sys) (attempt : Nat) : Prop where
  run : ∃ before a t between b rest, actions = before ++ a :: (between ++ b :: rest) ∧
    Runs.exec step {} before = some s ∧ s.step a = some t ∧ (s.accepting a).isSome = true ∧
    Runs.exec step t between = some u ∧ u.step b = some v ∧ u.expiring b = some attempt
  begun : attempt ≤ s.attempts

/-- The connect timer's wait has expired and is queued. -/
def Expired (s : Sys) (attempt : Nat) : Prop := .timer (.connectTimeout attempt) none ∈ s.net.posted

/-- The connect timeout waits on the connect timer. -/
def Timed (s : Sys) : Prop := ∀ w ∈ s.waits, ∀ attempt, w.handler = .connectTimeout attempt → w.timer = connectTimer

theorem Timed.of_fewer (timed : s.Timed) (waits : ∀ w ∈ t.waits, w ∈ s.waits) : t.Timed :=
  fun w among => timed w (waits w among)

theorem closeConnection_waits (s : Sys) : s.closeConnection.waits = s.waits := by
  unfold closeConnection
  split <;> rfl

theorem timed_cancelTimer (timer : Nat) (timed : s.Timed) : (s.cancelTimer timer).Timed :=
  timed.of_fewer fun _ => List.mem_of_mem_filter

theorem timed_asyncConnect (callback : Bool) (timed : s.Timed) : (s.asyncConnect callback).Timed := by
  unfold asyncConnect
  dsimp only
  split
  · intro w among attempt same
    rcases List.mem_append.mp among with before | last
    · exact timed w (List.mem_of_mem_filter before) attempt same
    · exact List.mem_singleton.mp last ▸ rfl
  · exact timed

theorem timed_apply {e : Effect} (inside : e.within elsewhere = true) (timed : s.Timed) : (s.apply e).Timed := by
  cases e with
  | cancelTimer timer => exact timed_cancelTimer timer timed
  | closeConnection => exact timed.of_fewer fun _ => closeConnection_waits s ▸ id
  | await w =>
    intro v among attempt same
    rcases List.mem_append.mp among with before | last
    · exact timed v before attempt same
    · obtain rfl := List.mem_singleton.mp last
      exact absurd (congrArg TimerHandler.topic same) (Effect.topic_of_within inside (by decide))
  | asyncConnect callback => exact timed_asyncConnect callback timed
  | _ => exact timed

theorem timed_step {a : Action} (timed : s.Timed) (taken : s.step a = some t) : t.Timed := by
  have told : ∀ (u : Sys) success returnCode, (u.reportConnect success returnCode).waits = u.waits := by
    intro u success returnCode
    unfold reportConnect
    split <;> rfl
  cases outline taken with
  | bare a t bare => exact timed.of_fewer (bare_waits bare)
  | asyncConnect callback idle => exact timed_asyncConnect callback timed
  | connack a u attempt data popped accepting handled =>
    have before : (u.cancelTimer connectTimer).Timed := by
      refine timed_cancelTimer connectTimer (timed.of_fewer fun w => ?_)
      rw [popped.same]
      exact id
    unfold handleConnack
    dsimp only
    split
    · exact before
    · exact before.of_fewer fun w => by
        rw [closeConnection_waits]
        exact id
  | timeout attempt rest front =>
    unfold handleConnectTimeout
    split
    · exact timed
    · exact timed.of_fewer fun w => by
        rw [closeConnection_waits]
        exact id
  | onConnect attempt ec rest front =>
    unfold onConnect
    split
    · exact timed
    · split
      · exact timed.of_fewer fun w => by
          rw [told]
          exact id
      · exact timed
  | report success returnCode rest front =>
    exact timed.of_fewer fun w => by
      rw [told]
      exact id
  | other a u t popped does accepting expiring =>
    have before : u.Timed := timed.of_fewer fun w => by
      rw [popped.same]
      exact id
    exact does.keeps (fun _ _ inside => timed_apply inside) before

/-! ### After the CONNACK -/

/-- No connect timeout of a begun attempt is left to come. -/
structure Settles (attempt : Nat) (s : Sys) : Prop where
  silent : s.Silent (.connectTimeout attempt)
  begun : attempt ≤ s.attempts

theorem silent_reportConnect {h : TimerHandler} (success : Bool) (returnCode : UInt8) (silent : s.Silent h) :
    (s.reportConnect success returnCode).Silent h := by
  unfold reportConnect
  split
  · exact silent_apply (s := s.record _) (e := .push .user) rfl nofun nofun (silent.of_same rfl rfl rfl)
  · exact silent

/-- The connect timer is cancelled, and nothing is armed. -/
theorem silent_handleConnack {h : TimerHandler} (data : Bytes) (silent : (s.cancelTimer connectTimer).Silent h) :
    (s.handleConnack data).Silent h := by
  have reporting : ∀ (u : Sys) k, Work.isPosted k = false → u.Silent h → (u.push [k]).Silent h := by
    intro u k called before
    exact silent_apply (e := .push k) (by simp [Effect.fits, called]) nofun nofun before
  unfold handleConnack
  dsimp only
  split
  · exact reporting _ _ rfl (silent.of_same rfl rfl rfl)
  · exact silent_closeConnection (reporting _ _ rfl (silent.of_same rfl rfl rfl))

theorem silent_handleConnectTimeout {h : TimerHandler} (silent : s.Silent h) : s.handleConnectTimeout.Silent h := by
  unfold handleConnectTimeout
  split
  · exact silent
  · exact silent_closeConnection (silent_apply (s := { s with closed := true }) (e := .push (.reportConnect false 255))
      rfl nofun nofun (silent.of_same rfl rfl rfl))

theorem silent_onConnect {h : TimerHandler} (i : Nat) (ec : ErrorCode) (silent : s.Silent h) :
    (s.onConnect i ec).Silent h := by
  unfold onConnect
  split
  · exact silent
  · split
    · exact silent_reportConnect _ _ silent
    · exact silent_apply (e := .write _ _) rfl nofun nofun silent

theorem attempts_apply {e : Effect} (inside : e.within elsewhere = true) : (s.apply e).attempts = s.attempts := by
  cases e with
  | closeConnection =>
    change s.closeConnection.attempts = _
    unfold closeConnection
    split <;> rfl
  | asyncConnect callback => exact absurd rfl (Effect.topic_of_within inside (by decide))
  | _ => rfl

theorem closeConnection_attempts (s : Sys) : s.closeConnection.attempts = s.attempts := by
  unfold closeConnection
  split <;> rfl

theorem reportConnect_attempts (s : Sys) (success : Bool) (returnCode : UInt8) :
    (s.reportConnect success returnCode).attempts = s.attempts := by
  unfold reportConnect
  split <;> rfl

theorem handleConnack_attempts (s : Sys) (data : Bytes) : (s.handleConnack data).attempts = s.attempts := by
  unfold handleConnack
  dsimp only
  split
  · rfl
  · exact closeConnection_attempts _

theorem asyncConnect_counts (s : Sys) (callback : Bool) : (s.asyncConnect callback).attempts = s.attempts + 1 := by
  unfold asyncConnect
  dsimp only
  split <;> rfl

theorem bare_attempts {a : Action} (bare : s.Bare a t) : t.attempts = s.attempts := by
  cases bare <;> rfl

theorem begun_step {a : Action} (taken : s.step a = some t) : s.attempts ≤ t.attempts := by
  cases outline taken with
  | bare a t bare => exact (bare_attempts bare).ge
  | asyncConnect callback idle =>
    rw [asyncConnect_counts]
    exact Nat.le_succ _
  | connack a u attempt data popped accepting handled =>
    rw [handleConnack_attempts, popped.same]
  | timeout attempt rest front =>
    unfold handleConnectTimeout
    split
    · exact Nat.le_refl _
    · rw [closeConnection_attempts]
      exact Nat.le_refl _
  | onConnect attempt ec rest front =>
    unfold onConnect
    split
    · exact Nat.le_refl _
    · split
      · rw [reportConnect_attempts]
        exact Nat.le_refl _
      · exact Nat.le_refl _
  | report success returnCode rest front =>
    rw [reportConnect_attempts]
    exact Nat.le_refl _
  | other a u t popped does accepting expiring =>
    have same : t.attempts = u.attempts :=
      does.keeps (I := fun v => v.attempts = u.attempts) (fun _ _ inside => (attempts_apply inside).trans) rfl
    rw [same, popped.same]

theorem settles_step {a : Action} (settles : s.Settles attempt) (taken : s.step a = some t) :
    t.Settles attempt := by
  obtain ⟨silent, begun⟩ := settles
  refine ⟨?_, begun.trans (begun_step taken)⟩
  cases outline taken with
  | bare a t bare => exact silent_bare bare silent
  | asyncConnect callback idle =>
    refine silent_asyncConnect callback ?_ silent
    intro same
    have := TimerHandler.connectTimeout.inj same
    omega
  | connack a u i data popped accepting handled =>
    exact silent_handleConnack data (silent_cancelTimer connectTimer (silent_popped popped silent))
  | timeout i rest front => exact silent_handleConnectTimeout (silent_goesOn front silent)
  | onConnect i ec rest front => exact silent_onConnect i ec (silent_goesOn front silent)
  | report success returnCode rest front => exact silent_reportConnect _ _ (silent_goesOn front silent)
  | other a u t popped does accepting expiring =>
    exact silent_does .connect rfl (by decide) does (silent_popped popped silent)

/-- The CONNACK settles every attempt whose connect timer has not expired. -/
theorem settles_accepting {a : Action} (posting : s.Posting) (timed : s.Timed) (taken : s.step a = some t)
    (accepts : (s.accepting a).isSome = true) (begun : attempt ≤ s.attempts) (fresh : ¬ s.Expired attempt) :
    t.Settles attempt := by
  refine ⟨?_, begun.trans (begun_step taken)⟩
  obtain ⟨u, data, rfl, -, popped, taken⟩ := accepting_outline taken accepts
  refine silent_handleConnack data ⟨fun w among same => ?_, fun among => ?_, fun among => ?_⟩
  · obtain ⟨before, other⟩ := List.mem_filter.mp among
    have connects : w.timer = connectTimer := timed w (by rw [popped.same] at before; exact before) attempt same
    simp [connects] at other
  · rw [cancelTimer_posted] at among
    rcases List.mem_append.mp among with before | aborted
    · exact fresh (by rw [popped.same] at before; exact before)
    · obtain ⟨w, -, same⟩ := List.mem_map.mp aborted
      exact absurd (Work.timer.inj same).2 nofun
  · have clear : u.Clear := by
      rcases taken with ⟨entry, rest, front, rfl⟩ | ⟨rfl, idle⟩
      · exact posting.clear front
      · exact posting.idle idle
    exact absurd (clear _ among) nofun

theorem expired_of_late {actions : List Action} (late : LateExpiry actions s u v attempt) : s.Expired attempt := by
  obtain ⟨⟨before, a, t, between, b, rest, -, start, taken, accepts, later, handled, expires⟩, begun⟩ := late
  have reach := Runs.exec_reaches start (Runs.along_any before)
  have posting : s.Posting := reach.invariant
    ⟨fun _ among => absurd among List.not_mem_nil, fun _ among => absurd among List.not_mem_nil⟩
    fun _ _ _ h _ => posting_step h
  have timed : s.Timed := reach.invariant (fun _ among => absurd among List.not_mem_nil) fun _ _ _ h _ => timed_step h
  by_contra fresh
  have settled := settles_accepting posting timed taken accepts begun fresh
  have settles : u.Settles attempt := (Runs.exec_reaches later (Runs.along_any between)).invariant settled
    fun _ _ _ h _ => settles_step h
  obtain ⟨stack, front, -⟩ := expiring_outline handled expires
  refine settles.silent.running ?_
  simp [Net.running, front, StackEntry.own?]

/-- What the handling of an expired connect timer does depends on `closed_` alone. -/
theorem spares_iff {b : Action} (handled : u.step b = some v) (expires : u.expiring b = some attempt) :
    Spares u v ↔ u.closed = true := by
  obtain ⟨rest, front, rfl⟩ := expiring_outline handled expires
  unfold handleConnectTimeout
  by_cases ended : u.closed = true
  · rw [if_pos (by exact ended)]
    exact iff_of_true ⟨rfl, ⟨rfl, rfl⟩, rfl, by rw [front]; rfl⟩ ended
  · rw [if_neg (by exact ended)]
    refine iff_of_false (fun spares => ended ?_) ended
    have set : ({ u.goesOn rest with closed := true }.push [.reportConnect false 255]).closeConnection.closed =
        true := by
      unfold closeConnection
      split <;> rfl
    exact spares.closed.symm.trans set

/-- In every run: the connect timeouts that come after an accepted CONNACK leave the session alone
exactly if each one that was queued when the CONNACK was handled finds `closed_` set. -/
theorem late_timeout_spares_session (actions : List Action) :
    (∀ s u v attempt, LateExpiry actions s u v attempt → Spares u v) ↔
      ∀ s u v attempt, LateExpiry actions s u v attempt → s.Expired attempt → u.closed = true := by
  refine forall₃_congr fun s u v => forall₂_congr fun attempt late => ?_
  rw [imp_iff_right (expired_of_late late)]
  obtain ⟨⟨before, a, t, between, b, rest, -, start, taken, accepts, later, handled, expires⟩, begun⟩ := late
  exact spares_iff handled expires

/-- The CONNACK arrives when the time is up, and the expiry is queued behind its read handler. -/
def racing : List Action :=
  connecting ++ [.kernel (.read 0 (.ok [0x20, 2])), .run, .kernel (.read 0 (.ok [0, 0])), .run, .advance 10000,
    .expire 0, .run, .exec]

/-- The expiry closes the session that was just accepted. -/
theorem late_timeout_closes :
    ¬ ∀ actions s u v attempt, LateExpiry actions s u v attempt → Spares u v := by
  intro claimed
  have first : (Runs.exec step ({} : Sys) racing).map (fun s => (s.accepting .exec).isSome && s.attempts == 1 &&
      ((s.step .exec).any fun t => (Runs.exec step t [.exec, .ret, .exec, .run]).any fun u =>
        u.expiring .exec == some 1 && (u.step .exec).any fun v => v.closed && !u.closed)) = some true := by
    decide +kernel
  obtain ⟨s, start, first⟩ := Runs.exec_of_check first
  simp only [Bool.and_eq_true, Option.any_eq_true, beq_iff_eq, Bool.not_eq_true'] at first
  obtain ⟨⟨accepts, begun⟩, t, taken, u, later, expires, v, handled, ended, live⟩ := first
  have spares := claimed (racing ++ .exec :: ([.exec, .ret, .exec, .run] ++ .exec :: [])) s u v 1
    ⟨⟨racing, .exec, t, _, .exec, [], rfl, start, taken, accepts, later, handled, expires⟩, begun ▸ Nat.le_refl _⟩
  exact absurd (spares.closed.symm.trans ended) (by simp [live])

end Sys
end LiteMqtt
