import LiteMqtt.Client.Steps
import LiteMqtt.Connection.Attempts

/-!
# A client that is closed has closed its connection

`closed_` is set by `notify_closed_once`, which closes the connection when its loops are done,
by a refused CONNACK and by the connect timer, which close it at once.
-/

namespace LiteMqtt
namespace Sys

variable {s t : Sys}

/-- The connection is closed, or a loop of `notify_closed_once` will close it. -/
def Ends (s : Sys) : Prop :=
  s.net.closed = true ∨ (∃ k ∈ s.net.running, k.topic = some .loop) ∨ s.undefined = true

def Ending (s : Sys) : Prop := s.closed = true → s.Ends

theorem closeConnection_closed (s : Sys) : s.closeConnection.net.closed = true := by
  unfold closeConnection
  split
  · assumption
  · exact Net.close_closed s.net

theorem closeConnection_tame (s : Sys) : Net.Tame s.net s.closeConnection.net := by
  unfold closeConnection
  split
  · exact .refl _
  · exact Net.tame_close s.net

theorem push_running (s : Sys) (k : Work) : (s.push [k]).net.running = k :: s.net.running := rfl

theorem cancelTimer_tame (s : Sys) (timer : Nat) : Net.Tame s.net (s.cancelTimer timer).net := by
  refine .of_same rfl rfl rfl rfl ?_ rfl
  simp [cancelTimer, List.filterMap_append, Task.connecting?]

theorem write_tame (s : Sys) (p : Packet) (h : Handler) : Net.Tame s.net (s.write p h).net :=
  Net.tame_asyncWritePacket _ _ _

theorem ends_of_tame (h : Net.Tame s.net t.net) (undefined : t.undefined = s.undefined) (ends : s.Ends) :
    t.Ends := by
  rcases ends with closed | loop | crashed
  · exact .inl (h.closed closed)
  · exact .inr (.inl (h.running ▸ loop))
  · exact .inr (.inr (undefined.trans crashed))

theorem ends_push (s : Sys) (k : Work) (ends : s.Ends) : (s.push [k]).Ends := by
  rcases ends with closed | ⟨frame, among, loop⟩ | crashed
  · exact .inl closed
  · exact .inr (.inl ⟨frame, .tail _ among, loop⟩)
  · exact .inr (.inr crashed)

theorem ends_push_loop (s : Sys) {k : Work} (loop : k.topic = some .loop) : (s.push [k]).Ends :=
  .inr (.inl ⟨k, .head _, loop⟩)

/-- Only a new attempt opens the connection. -/
theorem ends_apply {e : Effect} (old : ∀ callback, e ≠ .asyncConnect callback) (ends : s.Ends) :
    (s.apply e).Ends := by
  cases e with
  | push k => exact ends_push s k ends
  | post k => exact ends_of_tame (Net.tame_post _ rfl) rfl ends
  | write p handler => exact ends_of_tame (write_tame s p handler) rfl ends
  | closeConnection => exact .inl (closeConnection_closed s)
  | cancelTimer timer => exact ends_of_tame (cancelTimer_tame s timer) rfl ends
  | startReadLoop attempt => exact ends_of_tame (Net.tame_asyncReadPacket _ _) rfl ends
  | asyncConnect callback => exact absurd rfl (old callback)
  | crash => exact .inr (.inr rfl)
  | _ => exact ends

theorem asyncConnect_opens (s : Sys) (callback : Bool) : (s.asyncConnect callback).closed = false := by
  unfold asyncConnect
  dsimp only
  split <;> rfl

theorem closed_apply {e : Effect}
    (h : e.within [.connect, .publish, .subscribe, .loop, .packet, .settings, .crash] = true)
    (closed : (s.apply e).closed = true) : s.closed = true ∧ ∀ callback, e ≠ .asyncConnect callback := by
  cases e with
  | asyncConnect callback => exact absurd ((asyncConnect_opens s callback).symm.trans closed) nofun
  | setClosed => exact absurd h (by decide)
  | accept => exact absurd closed nofun
  | closeConnection =>
    refine ⟨?_, nofun⟩
    change s.closeConnection.closed = true at closed
    unfold closeConnection at closed
    split at closed <;> exact closed
  | _ => exact ⟨closed, nofun⟩

theorem ending_does {topics : List Topic} (h : Does topics s t)
    (few : topics ⊆ [.connect, .publish, .subscribe, .loop, .packet, .settings, .crash]) (ending : s.Ending) :
      t.Ending := by
  refine (h.mono few).keeps (fun u e inside ending closed => ?_) ending
  obtain ⟨before, old⟩ := closed_apply inside closed
  exact ends_apply old (ending before)

theorem ends_does (topics : List Topic) (h : Does topics s t)
    (few : topics ⊆ [.publish, .subscribe, .session, .loop, .packet, .settings, .crash]) (ends : s.Ends) : t.Ends := by
  refine (h.mono few).keeps (fun u e inside => ends_apply fun callback same => ?_) ends
  subst same
  exact absurd rfl (Effect.topic_of_within inside (by decide))

theorem ending_handleConnectTimeout (ending : s.Ending) : s.handleConnectTimeout.Ending := by
  unfold handleConnectTimeout
  split
  · exact ending
  · exact fun _ => .inl (closeConnection_closed _)

theorem ending_handleConnack (s : Sys) (data : Bytes) : (s.handleConnack data).Ending := by
  unfold handleConnack
  dsimp only
  split
  · exact fun closed => absurd closed nofun
  · exact fun _ => .inl (closeConnection_closed _)

theorem ending_handlePacket (attempt : Nat) (data : Bytes) (ending : s.Ending) :
    (s.handlePacket attempt data).Ending := by
  have does := does_handlePacket s attempt data
  cases data with
  | nil => exact ending
  | cons byte rest =>
    unfold packetTopics at does
    unfold handlePacket at does ⊢
    dsimp only at does ⊢
    cases type : PacketType.ofUint8 (byte >>> 4) <;> simp only [type] at does ⊢
    case connack => exact ending_handleConnack s _
    all_goals exact ending_does does (by decide) ending

theorem ending_notifyClosedOnce (ending : s.Ending) : s.notifyClosedOnce.Ending := by
  unfold notifyClosedOnce
  split
  · exact ending
  · dsimp only
    split
    · exact fun _ => ends_push_loop _ rfl
    · exact fun _ => ends_push_loop _ rfl

/-- Each loop goes on with a loop, or closes the connection. -/
theorem ends_loop (s : Sys) {k : Work} (loop : k.topic = some .loop) : (s.execute k).Ends := by
  cases k with
  | publishEach p =>
    change (s.publishEach p).Ends
    unfold publishEach
    split
    · exact .inr (.inr rfl)
    · exact ends_does [.publish] (does_tellPublish _ _ _ _ _ _ (.head _)) (by decide) (ends_push_loop s rfl)
  | publishCancel p =>
    change (s.publishCancel p).Ends
    unfold publishCancel
    split
    · exact .inr (.inr rfl)
    · split <;> exact ends_push_loop _ rfl
  | publishClear =>
    change s.publishClear.Ends
    unfold publishClear
    dsimp only
    split <;> exact ends_push_loop _ rfl
  | subscribeEach p =>
    change (s.subscribeEach p).Ends
    unfold subscribeEach
    split
    · exact .inr (.inr rfl)
    · exact ends_push_loop _ rfl
  | subscribeFilters p cb rest =>
    change (s.subscribeFilters p cb rest).Ends
    unfold subscribeFilters
    split
    · split
      · exact ends_does [.subscribe] (does_tellSubscribe _ _ _ _ _ (.head _)) (by decide) (ends_push_loop s rfl)
      · split <;> exact ends_push_loop _ rfl
    · exact .inr (.inr rfl)
  | subscribeClear => exact .inl (closeConnection_closed _)
  | _ => exact absurd loop nofun

theorem goesOn_running {k : Work} {rest : List (StackEntry Handler Work)} (front : s.net.stack = .own k :: rest) :
    s.net.running = k :: (s.goesOn rest).net.running := by
  rw [Net.running, front]
  rfl

theorem ending_goesOn {k : Work} {rest : List (StackEntry Handler Work)} (front : s.net.stack = .own k :: rest)
    (other : k.topic ≠ some .loop) (ending : s.Ending) : (s.goesOn rest).Ending := by
  intro closed
  rcases ending closed with shut | ⟨frame, among, loop⟩ | crashed
  · exact .inl shut
  · rw [goesOn_running front] at among
    rcases List.mem_cons.mp among with rfl | later
    · exact absurd loop other
    · exact .inr (.inl ⟨frame, later, loop⟩)
  · exact .inr (.inr crashed)

theorem ending_work (k : Work) (other : k.topic ≠ some .loop) (ending : s.Ending) : (s.execute k).Ending := by
  have does := does_execute s k
  cases k with
  | timer h ec =>
    change (s.onTimer h ec).Ending
    unfold onTimer
    split
    · exact ending
    · rename_i fine
      have does := does_onTimer s h ec
      unfold onTimer at does
      rw [if_neg fine] at does
      cases h with
      | connectTimeout => exact ending_handleConnectTimeout ending
      | _ => exact ending_does does (by simp [timerTopics]) ending
  | handlePacket attempt data => exact ending_handlePacket attempt data ending
  | notifyClosedOnce => exact ending_notifyClosedOnce ending
  | publishEach | publishCancel | publishClear | subscribeEach | subscribeFilters | subscribeClear =>
    exact absurd rfl other
  | _ => exact ending_does does (by simp [workTopics]) ending

theorem ending_call (c : Call) (ending : s.Ending) : (s.call c).Ending := by
  have does := does_call s c
  cases c with
  | handlePacket data => exact ending_handlePacket _ data ending
  | _ => exact ending_does does (by simp [callTopics]) ending

theorem resume_tame {n m : Net Handler Work} {entry : StackEntry Handler Work}
    {rest : List (StackEntry Handler Work)} (front : n.stack = entry :: rest) (own : entry.own? = none)
    (h : Net.Tame { n with stack := rest } m) :
    (n.closed = true → m.closed = true) ∧ m.running = n.running := by
  refine ⟨h.closed, h.running.trans ?_⟩
  simp [Net.running, front, own]

theorem ends_of_left (closed : s.net.closed = true → t.net.closed = true)
    (running : t.net.running = s.net.running) (undefined : t.undefined = s.undefined) (ends : s.Ends) :
    t.Ends := by
  rcases ends with shut | loop | crashed
  · exact .inl (closed shut)
  · exact .inr (.inl (running ▸ loop))
  · exact .inr (.inr (undefined.trans crashed))

theorem ending_step {a : Action} (ending : s.Ending) (taken : s.step a = some t) : t.Ending := by
  obtain ⟨sane, how⟩ := steps taken
  cases how with
  | run n ran =>
    obtain ⟨idle, task, tail, ready, rfl⟩ := Net.run_cases ran
    intro closed
    rcases ending closed with shut | ⟨frame, among, _⟩ | crashed
    · exact .inl ((Net.runTask_ran _ task).closed shut)
    · simp [Net.running, idle] at among
    · cases sane.symm.trans crashed
  | work k rest front busy =>
    by_cases loop : k.topic = some .loop
    · exact fun _ => ends_loop _ loop
    · exact ending_work k loop (ending_goesOn front loop ending)
  | invoke call rest front =>
    refine ending_does (does_onInvoke _ call) ?_ fun closed => ends_of_left (s := s) ?_ ?_ rfl (ending closed)
    · exact List.Subset.trans (invocationTopics_few call) (by decide)
    · cases call <;> exact id
    · cases call <;> simp [Net.running, front, goesOn, Net.recordCall, List.filterMap_cons, StackEntry.own?]
  | afterWrite ec rest front =>
    obtain ⟨shut, running⟩ := resume_tame front rfl (Net.tame_afterWrite _ ec)
    exact fun closed => ends_of_left (s := s) shut running rfl (ending closed)
  | closeHandler rest front =>
    have tame : Net.Tame (s.goesOn rest).net ((s.goesOn rest).net.push
        (s.net.closeHandler.toList.map fun h => .invoke (.closed h))) := by
      refine Net.tame_push _ fun e among => ?_
      obtain ⟨h, _, rfl⟩ := List.mem_map.mp among
      exact ⟨rfl, rfl⟩
    obtain ⟨shut, running⟩ := resume_tame front rfl tame
    exact fun closed => ends_of_left (s := s) shut running rfl (ending closed)
  | ret rest front => exact ending_goesOn front (by decide) ending
  | call c allowed => exact ending_call c ending
  | kernel event n moved =>
    exact fun closed => ends_of_tame (s := s) (Net.tame_kernel moved) rfl (ending closed)
  | expire index w waiting due =>
    exact fun closed => ends_of_tame (s := s) (Net.tame_post _ rfl) rfl (ending closed)
  | advance ms => exact ending

end Sys
end LiteMqtt
