import LiteMqtt.Client.Outline
import LiteMqtt.Client.Posting

/-!
# Waits that are over

A timer handler runs without an error only if one of its waits was outstanding. Once none of a
handler's waits is outstanding or queued, the handler stays silent until it is armed again.
-/

namespace LiteMqtt
namespace Sys

/-- No wait of `h` is outstanding, and none has expired and is still to be handled. -/
structure Silent (h : TimerHandler) (s : Sys) : Prop where
  waits : ∀ w ∈ s.waits, w.handler ≠ h
  posted : .timer h none ∉ s.net.posted
  running : .timer h none ∉ s.net.running

variable {s t u : Sys} {h : TimerHandler}

theorem Silent.of_fewer (silent : s.Silent h) (waits : ∀ w ∈ t.waits, w ∈ s.waits)
    (posted : ∀ k ∈ t.net.posted, k ∈ s.net.posted) (running : ∀ k ∈ t.net.running, k ∈ s.net.running) :
    t.Silent h :=
  ⟨fun w among => silent.waits w (waits w among), fun among => silent.posted (posted _ among),
    fun among => silent.running (running _ among)⟩

theorem Silent.of_same (silent : s.Silent h) (waits : t.waits = s.waits)
    (posted : t.net.posted = s.net.posted) (running : t.net.running = s.net.running) : t.Silent h :=
  silent.of_fewer (fun _ => waits ▸ id) (fun _ => posted ▸ id) (fun _ => running ▸ id)

theorem silent_post {k : Work} (other : k ≠ .timer h none) (silent : s.Silent h) : (s.post k).Silent h := by
  refine ⟨silent.waits, fun among => ?_, silent.running⟩
  change Work.timer h none ∈ (s.net.post (.own k)).posted at among
  rw [Net.post_posted] at among
  rcases List.mem_append.mp among with before | same
  · exact silent.posted before
  · exact other (by simpa [Task.own?] using same : _ = k).symm

/-- Cancelling posts the waits with an error. -/
theorem silent_cancelTimer (timer : Nat) (silent : s.Silent h) : (s.cancelTimer timer).Silent h := by
  refine ⟨fun w among => silent.waits w (List.mem_of_mem_filter among), fun among => ?_, silent.running⟩
  rw [cancelTimer_posted] at among
  rcases List.mem_append.mp among with before | aborted
  · exact silent.posted before
  · obtain ⟨w, -, same⟩ := List.mem_map.mp aborted
    exact nomatch same

theorem silent_await {w : Wait} (other : w.handler ≠ h) (silent : s.Silent h) :
    Silent h { s with waits := s.waits ++ [w] } := by
  refine ⟨fun v among => ?_, silent.posted, silent.running⟩
  rcases List.mem_append.mp among with before | same
  · exact silent.waits v before
  · exact List.mem_singleton.mp same ▸ other

theorem silent_closeConnection (silent : s.Silent h) : s.closeConnection.Silent h := by
  refine silent.of_same ?_ (closeConnection_posted s) (closeConnection_tame s).running
  unfold closeConnection
  split <;> rfl

theorem silent_asyncConnect (callback : Bool) (other : h ≠ .connectTimeout (s.attempts + 1))
    (silent : s.Silent h) : (s.asyncConnect callback).Silent h := by
  have started : ∀ {u : Sys} (x : Handler), u.Silent h → Silent h { u with net := u.net.asyncConnect x } :=
    fun _ before => before.of_same rfl rfl rfl
  unfold asyncConnect
  dsimp only
  refine started _ ?_
  split
  · exact silent_await (s := Sys.cancelTimer _ connectTimer) other.symm
      (silent_cancelTimer connectTimer (silent.of_same rfl rfl rfl))
  · exact silent.of_same rfl rfl rfl

theorem silent_apply {e : Effect} (fits : e.fits = true) (awaits : ∀ w, e = .await w → w.handler ≠ h)
    (connects : ∀ callback, e = .asyncConnect callback → h ≠ .connectTimeout (s.attempts + 1))
    (silent : s.Silent h) : (s.apply e).Silent h := by
  cases e with
  | push k =>
    refine ⟨silent.waits, silent.posted, fun among => ?_⟩
    rcases List.mem_cons.mp among with rfl | before
    · exact absurd fits nofun
    · exact silent.running before
  | post k =>
    refine silent_post ?_ silent
    rintro rfl
    exact absurd fits nofun
  | write p handler => exact silent.of_same rfl (Net.asyncWritePacket_posted _ _ _) rfl
  | closeConnection => exact silent_closeConnection silent
  | cancelTimer timer => exact silent_cancelTimer timer silent
  | await w => exact silent_await (awaits w rfl) silent
  | startReadLoop attempt =>
    exact silent.of_same rfl (Net.asyncReadPacket_posted _ _) (Net.tame_asyncReadPacket _ _).running
  | asyncConnect callback => exact silent_asyncConnect callback (connects callback rfl) silent
  | _ => exact silent.of_same rfl rfl rfl

/-- Code that is not about the handler's topic does not arm it. -/
theorem silent_does {topics : List Topic} (about : Topic) (topic : h.topic = some about) (absent : about ∉ topics)
    (does : Does topics s t) (silent : s.Silent h) : t.Silent h := by
  refine does.keeps (fun u e inside => silent_apply (Effect.fits_of_within inside) ?_ ?_) silent
  · rintro w rfl rfl
    exact Effect.topic_of_within inside absent topic
  · rintro callback rfl rfl
    exact Effect.topic_of_within inside absent topic

theorem silent_run {n : Net Handler Work} (taken : s.net.run = some n) (silent : s.Silent h) :
    Silent h { s with net := n } := by
  obtain ⟨idle, task, tail, ready, rfl⟩ := Net.run_cases taken
  have posted : s.net.posted = task.own?.toList ++ (s.net.leaving tail).posted := by
    rw [Net.posted, ready, List.filterMap_cons]
    cases task.own? <;> rfl
  have none : (s.net.leaving tail).running = [] := by rw [Net.running, Net.leaving, idle]; rfl
  refine ⟨silent.waits, fun among => silent.posted ?_, fun among => silent.posted ?_⟩
  · rw [posted]
    exact List.mem_append_right _ (Net.runTask_posted (s.net.leaving tail) task ▸ among)
  · rw [posted]
    have running := (Net.runTask_ran (s.net.leaving tail) task).running
    rw [none, List.append_nil] at running
    exact List.mem_append_left _ (running ▸ among)

theorem silent_goesOn {entry : StackEntry Handler Work} {rest : List (StackEntry Handler Work)}
    (front : s.net.stack = entry :: rest) (silent : s.Silent h) : (s.goesOn rest).Silent h := by
  refine silent.of_fewer (fun _ => id) (fun _ => id) fun k among => ?_
  rw [Net.running, front, List.filterMap_cons]
  split
  · exact among
  · exact .tail _ among

theorem popped_running (popped : s.Popped u) : ∀ k ∈ u.net.running, k ∈ s.net.running := by
  intro k among
  rw [Net.running] at among ⊢
  rcases popped.stack with same | fewer
  · exact same ▸ among
  · rw [fewer] at among
    obtain ⟨entry, later, own⟩ := List.mem_filterMap.mp among
    exact List.mem_filterMap.mpr ⟨entry, List.mem_of_mem_tail later, own⟩

theorem silent_popped {h : TimerHandler} (popped : s.Popped u) (silent : s.Silent h) : u.Silent h :=
  silent.of_fewer (fun w => by rw [popped.same]; exact id) (fun k => by rw [popped.same]; exact id)
    (popped_running popped)

theorem silent_expire {index : Nat} {w : Wait} (waiting : s.waits[index]? = some w) (silent : s.Silent h) :
    (({ s with waits := s.waits.eraseIdx index } : Sys).post (.timer w.handler none)).Silent h := by
  refine silent_post ?_ (silent.of_fewer (fun _ => List.mem_of_mem_eraseIdx) (fun _ => id) (fun _ => id))
  intro same
  exact silent.waits w (List.mem_of_getElem? waiting) (Work.timer.inj same).1

/-- The rest of the connection's own code. -/
theorem silent_left {n : Net Handler Work} (posted : n.posted = s.net.posted) (running : n.running = s.net.running)
    (silent : s.Silent h) : Silent h { s with net := n } := silent.of_same rfl posted running

theorem silent_bare {a : Action} (bare : s.Bare a t) (silent : s.Silent h) : t.Silent h := by
  cases bare with
  | run n ran => exact silent_run ran silent
  | afterWrite ec rest front =>
    exact silent_left (s := s.goesOn rest) (Net.afterWrite_posted _ ec) (Net.tame_afterWrite _ ec).running
      (silent_goesOn front silent)
  | closeHandler rest front =>
    refine silent_left (s := s.goesOn rest) rfl ?_ (silent_goesOn front silent)
    simp [Net.running, Net.push, List.filterMap_append, StackEntry.own?]
  | kernel event n moved => exact silent_left (Net.kernel_posted moved) (Net.tame_kernel moved).running silent
  | expire index w waiting due => exact silent_expire waiting silent
  | advance ms => exact silent.of_same rfl rfl rfl

end Sys
end LiteMqtt
