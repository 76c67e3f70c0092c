import LiteMqtt.Client.Ending

/-!
# What the client posts

The `async_*_impl` functions and the timer handlers are only ever posted. Such a task runs on
an otherwise empty stack, so no other code of the client is interrupted by it.
-/

namespace LiteMqtt
namespace Sys

variable {s t u : Sys}

/-- No task that was posted is running. -/
def Clear (s : Sys) : Prop := ∀ k ∈ s.net.running, k.isPosted = false

structure Posting (s : Sys) : Prop where
  posted : ∀ k ∈ s.net.posted, k.isPosted = true
  alone : ∀ k ∈ s.net.running, k.isPosted = true → s.net.stack = [.own k]

theorem cancelTimer_posted (s : Sys) (timer : Nat) :
    (s.cancelTimer timer).net.posted = s.net.posted ++ s.aborted timer := by
  simp only [Net.posted, cancelTimer, aborted, List.filterMap_append, List.filterMap_map]
  congr 1
  exact List.filterMap_eq_map ▸ rfl

theorem closeConnection_posted (s : Sys) : s.closeConnection.net.posted = s.net.posted := by
  unfold closeConnection
  split
  · rfl
  · exact Net.close_posted s.net

theorem asyncConnect_net (s : Sys) (callback : Bool) : ∃ u : Sys, (u = s ∨ u = s.cancelTimer connectTimer) ∧
    (s.asyncConnect callback).net = u.net.asyncConnect (.connect (s.attempts + 1)) := by
  unfold asyncConnect
  dsimp only
  split
  · exact ⟨_, .inr rfl, rfl⟩
  · exact ⟨_, .inl rfl, rfl⟩

theorem posted_post {k : Work} (is : k.isPosted = true) (posted : ∀ k ∈ s.net.posted, k.isPosted = true) :
    ∀ other ∈ (s.post k).net.posted, other.isPosted = true := by
  intro other among
  rcases List.mem_append.mp (Net.post_posted s.net (.own k) ▸ among) with before | same
  · exact posted other before
  · obtain rfl : other = k := by simpa [Task.own?] using same
    exact is

/-- Effects post only what is posted. -/
theorem posted_apply {e : Effect} (fits : e.fits = true) (posted : ∀ k ∈ s.net.posted, k.isPosted = true) :
    ∀ k ∈ (s.apply e).net.posted, k.isPosted = true := by
  have cancelled : ∀ timer, ∀ k ∈ (s.cancelTimer timer).net.posted, k.isPosted = true := by
    intro timer k among
    rw [cancelTimer_posted] at among
    rcases List.mem_append.mp among with before | aborted
    · exact posted k before
    · obtain ⟨w, _, rfl⟩ := List.mem_map.mp aborted
      rfl
  cases e with
  | post k => exact posted_post (Bool.and_eq_true_iff.mp fits).1 posted
  | write p h => exact Net.asyncWritePacket_posted s.net _ _ ▸ posted
  | closeConnection => exact closeConnection_posted s ▸ posted
  | cancelTimer timer => exact cancelled timer
  | startReadLoop attempt => exact Net.asyncReadPacket_posted s.net _ ▸ posted
  | asyncConnect callback =>
    obtain ⟨u, which, net⟩ := asyncConnect_net s callback
    change ∀ k ∈ (s.asyncConnect callback).net.posted, _
    rw [net]
    rcases which with rfl | rfl
    · exact posted
    · exact cancelled connectTimer
  | _ => exact posted

theorem clear_apply {e : Effect} (fits : e.fits = true) (clear : s.Clear) : (s.apply e).Clear := by
  have kept : ∀ {n : Net Handler Work}, n.running = s.net.running → ∀ k ∈ n.running, k.isPosted = false :=
    fun same => same ▸ clear
  cases e with
  | push k =>
    intro other among
    rcases List.mem_cons.mp among with rfl | before
    · simpa [Effect.fits] using fits
    · exact clear other before
  | closeConnection => exact kept (closeConnection_tame s).running
  | startReadLoop attempt => exact kept (Net.tame_asyncReadPacket s.net _).running
  | asyncConnect callback =>
    obtain ⟨u, which, net⟩ := asyncConnect_net s callback
    refine kept ((congrArg Net.running net).trans ?_)
    rcases which with rfl | rfl <;> rfl
  | _ => exact clear

theorem posted_does {topics : List Topic} (h : Does topics s t)
    (posted : ∀ k ∈ s.net.posted, k.isPosted = true) : ∀ k ∈ t.net.posted, k.isPosted = true :=
  h.keeps (I := fun u => ∀ k ∈ u.net.posted, k.isPosted = true)
    (fun _ _ inside => posted_apply (Effect.fits_of_within inside)) posted

theorem posting_does {topics : List Topic} (h : Does topics s t)
    (posted : ∀ k ∈ s.net.posted, k.isPosted = true) (clear : s.Clear) : t.Posting ∧ t.Clear := by
  have after : t.Clear := h.keeps (fun _ _ inside => clear_apply (Effect.fits_of_within inside)) clear
  exact ⟨⟨posted_does h posted, fun k among runs => absurd ((after k among).symm.trans runs) nofun⟩, after⟩

/-- Once a piece of code is off the stack, no posted task is on it. -/
theorem Posting.clear (h : s.Posting) {entry : StackEntry Handler Work} {rest : List (StackEntry Handler Work)}
    (front : s.net.stack = entry :: rest) : (s.goesOn rest).Clear := by
  intro k among
  cases runs : k.isPosted with
  | false => rfl
  | true =>
    have within : k ∈ s.net.running := by
      rw [Net.running, front, List.filterMap_cons]
      split
      · exact among
      · exact .tail _ among
    have only := front.symm.trans (h.alone k within runs)
    obtain ⟨-, rfl⟩ := List.cons.inj only
    exact absurd among (List.not_mem_nil)

theorem Posting.idle (h : s.Posting) (idle : s.idle = true) : s.Clear := by
  intro k among
  cases runs : k.isPosted with
  | false => rfl
  | true =>
    have only := h.alone k among runs
    simp only [Sys.idle, only] at idle
    split at idle
    · contradiction
    · rename_i same
      obtain ⟨front, -⟩ := List.cons.inj same
      obtain rfl := StackEntry.own.inj front
      contradiction
    · contradiction

/-- The stack is the same, or nothing that was posted is on it. -/
theorem Posting.of_left (h : s.Posting) (posted : ∀ k ∈ t.net.posted, k.isPosted = true)
    (stack : t.net.stack = s.net.stack) : t.Posting :=
  ⟨posted, fun k among runs => by
    rw [stack]
    exact h.alone k (by rwa [Net.running, ← stack]) runs⟩

theorem posting_step {a : Action} (h : s.Posting) (taken : s.step a = some t) : t.Posting := by
  cases (steps taken).2 with
  | run n ran =>
    obtain ⟨idle, task, tail, ready, rfl⟩ := Net.run_cases ran
    have before : ∀ k ∈ (s.net.leaving tail).posted, k.isPosted = true := fun k among => by
      refine h.posted k ?_
      rw [Net.posted, ready, List.filterMap_cons]
      split
      · exact among
      · exact .tail _ among
    refine ⟨Net.runTask_posted (s.net.leaving tail) task ▸ before, fun k among runs => ?_⟩
    have running := (Net.runTask_ran (s.net.leaving tail) task).running
    have quiet : (s.net.leaving tail).running = [] := by rw [Net.running, Net.leaving, idle]; rfl
    rw [quiet, List.append_nil] at running
    change k ∈ ((s.net.leaving tail).runTask task).running at among
    rw [running] at among
    cases task with
    | own j =>
      obtain rfl : k = j := by simpa [Task.own?] using among
      change [StackEntry.own k] ++ s.net.stack = _
      rw [idle]
      rfl
    | _ => exact absurd among List.not_mem_nil
  | work k rest front busy =>
    exact (posting_does (does_execute (s.goesOn rest) k) h.posted (h.clear front)).1
  | invoke call rest front =>
    refine (posting_does (does_onInvoke _ call) ?_ ?_).1
    · cases call <;> exact h.posted
    · cases call <;> exact h.clear front
  | afterWrite ec rest front =>
    have tame := Net.tame_afterWrite (s.goesOn rest).net ec
    have clear : ∀ k ∈ ((s.goesOn rest).net.afterWrite ec).running, k.isPosted = false := tame.running ▸ h.clear front
    refine ⟨Net.afterWrite_posted (s.goesOn rest).net ec ▸ h.posted, fun k among runs => ?_⟩
    cases (clear k among).symm.trans runs
  | closeHandler rest front =>
    have clear : ∀ k ∈ (s.goesOn rest).net.running ++ [], k.isPosted = false := by
      rw [List.append_nil]
      exact h.clear front
    refine ⟨h.posted, fun k among runs => absurd ((clear k ?_).symm.trans runs) (by simp)⟩
    simpa [Net.running, Net.push, List.filterMap_append, StackEntry.own?] using among
  | ret rest front =>
    exact ⟨h.posted, fun k among runs => absurd ((h.clear front k among).symm.trans runs) (by simp)⟩
  | call c allowed =>
    by_cases idle : s.idle = true
    · exact (posting_does (does_call s c) h.posted (h.idle idle)).1
    · have posted := posted_does (does_call s c) h.posted
      cases c with
      | asyncDisconnect onClosed => exact h.of_left posted rfl
      | asyncPublish => exact h.of_left posted rfl
      | asyncSubscribe => exact h.of_left posted rfl
      | _ => cases allowed.resolve_left idle
  | kernel event n moved => exact h.of_left (Net.kernel_posted moved ▸ h.posted) (Net.kernel_stack moved)
  | expire index w waiting due =>
    exact h.of_left (posted_post (s := { s with waits := s.waits.eraseIdx index }) (k := .timer w.handler none)
      rfl h.posted) rfl
  | advance ms => exact ⟨h.posted, h.alone⟩

/-! ### What code adds to the tasks -/

/-- Nothing that was queued or on the stack is lost. -/
structure Retains (s t : Sys) : Prop where
  posted : ∀ k ∈ s.net.posted, k ∈ t.net.posted
  running : ∀ k ∈ s.net.running, k ∈ t.net.running

theorem Retains.refl (s : Sys) : Retains s s := ⟨fun _ => id, fun _ => id⟩

theorem Retains.trans (first : Retains s t) (later : Retains t u) : Retains s u :=
  ⟨fun k among => later.posted k (first.posted k among), fun k among => later.running k (first.running k among)⟩

theorem retains_same (posted : t.net.posted = s.net.posted) (running : t.net.running = s.net.running) : Retains s t :=
  ⟨fun _ => posted ▸ id, fun _ => running ▸ id⟩

theorem retains_cancelTimer (s : Sys) (timer : Nat) : Retains s (s.cancelTimer timer) := by
  refine ⟨fun k among => ?_, fun _ => id⟩
  rw [cancelTimer_posted]
  exact List.mem_append_left _ among

theorem retains_apply (s : Sys) (e : Effect) : Retains s (s.apply e) := by
  cases e with
  | push k => exact ⟨fun _ => id, fun _ among => List.mem_cons_of_mem _ among⟩
  | post k =>
    refine ⟨fun j among => ?_, fun _ => id⟩
    change j ∈ (s.net.post (.own k)).posted
    rw [Net.post_posted]
    exact List.mem_append_left _ among
  | write packet handler => exact retains_same (Net.asyncWritePacket_posted _ _ _) rfl
  | closeConnection => exact retains_same (closeConnection_posted s) (closeConnection_tame s).running
  | cancelTimer timer => exact retains_cancelTimer s timer
  | startReadLoop attempt => exact retains_same (Net.asyncReadPacket_posted _ _) (Net.tame_asyncReadPacket _ _).running
  | asyncConnect callback =>
    obtain ⟨v, which, net⟩ := asyncConnect_net s callback
    have started : Retains v (s.asyncConnect callback) := by
      refine retains_same ?_ ?_ <;> rw [net] <;> rfl
    rcases which with rfl | rfl
    · exact started
    · exact (retains_cancelTimer s connectTimer).trans started
  | _ => exact retains_same rfl rfl

theorem retains_does {topics : List Topic} (does : Does topics s t) : Retains s t := by
  induction does with
  | refl => exact .refl s
  | tail _ last ih =>
    obtain ⟨e, -, rfl⟩ := last
    exact ih.trans (retains_apply _ e)

theorem goesOn_runs {k j : Work} {rest : List (StackEntry Handler Work)} (front : s.net.stack = .own k :: rest)
    (among : j ∈ s.net.running) : j = k ∨ j ∈ (s.goesOn rest).net.running := by
  rw [goesOn_running front] at among
  exact List.mem_cons.mp among

theorem goesOn_invoke {call : Invocation Handler} {rest : List (StackEntry Handler Work)}
    (front : s.net.stack = .invoke call :: rest) : Retains s { s with net := (s.goesOn rest).net.recordCall call } := by
  have running : s.net.running = (s.goesOn rest).net.running := by
    rw [Net.running, front]
    rfl
  cases call <;> exact ⟨fun _ => id, fun k among => running ▸ among⟩

end Sys
end LiteMqtt
