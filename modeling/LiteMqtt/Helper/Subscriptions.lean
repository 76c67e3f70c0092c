import LiteMqtt.Client.Openness
import LiteMqtt.Helper.Model

/-!
# Subscriptions from any thread

`subscribe` registers under `pending_mutex_`, then reads the state of the connection, then hands over
to the client. Between these steps the io thread may accept a session, hand every registered
subscription over, and lose the session again.
-/

namespace LiteMqtt

/-- A registered subscription, with the number of the call it comes from. -/
structure Subscription where
  call : Nat
  topic : Bytes
  qos : UInt8
  deriving DecidableEq, Repr

/-- The calls of `subscribe` by how far they have come, and the io thread's part. `announced` says that
`handle_connack` has stored the state and is about to call `on_connect`; `restoring` is what its loop
has left, and it holds `pending_mutex_` meanwhile. `restored` says that the session has been connected
without interruption since. What was handed to the client is kept with the session. -/
structure Registry where
  client : Bool := false
  state : ConnectionState := .disconnected
  session : Nat := 0
  announced : Bool := false
  restoring : Option (List Subscription) := none
  restored : Bool := false
  subscribes : List Subscription := []
  nextCall : Nat := 0
  called : List Subscription := []
  pushed : List Subscription := []
  connected : List Subscription := []
  returned : List Subscription := []
  handed : List (Nat × Subscription) := []
  deriving DecidableEq, Repr

namespace Registry

inductive Action where
  /-- The client exists from here on. -/
  | start
  | subscribe (topic : Bytes) (qos : UInt8)
  | push (item : Subscription)
  | isConnected (item : Subscription)
  | asyncSubscribe (item : Subscription)
  /-- The io thread stores the state `connected`. -/
  | markConnected
  | onConnect
  | restore
  | restoreDone
  /-- The io thread stores another state. -/
  | leave (state : ConnectionState)
  deriving DecidableEq, Repr

/-- The io thread is in `handle_connack`. -/
def busy (s : Registry) : Bool := s.announced || s.restoring.isSome

def hand (s : Registry) (item : Subscription) : Registry := { s with handed := s.handed ++ [(s.session, item)] }

def step (s : Registry) : Action → Option Registry
  | .start => some { s with client := true }
  | .subscribe topic qos =>
      some { s with nextCall := s.nextCall + 1, called := { call := s.nextCall, topic, qos } :: s.called }
  | .push item =>
      if item ∈ s.called ∧ s.restoring = none then
        some { s with
          called := s.called.erase item, pushed := item :: s.pushed, subscribes := s.subscribes ++ [item] }
      else none
  | .isConnected item =>
      if item ∈ s.pushed then
        if s.client && s.state == .connected then
          some { s with pushed := s.pushed.erase item, connected := item :: s.connected }
        else some { s with pushed := s.pushed.erase item, returned := item :: s.returned }
      else none
  | .asyncSubscribe item =>
      if item ∈ s.connected then
        some { s.hand item with connected := s.connected.erase item, returned := item :: s.returned }
      else none
  | .markConnected =>
      if s.client && !s.busy then
        some { s with state := .connected, session := s.session + 1, announced := true, restored := false }
      else none
  | .onConnect =>
      if s.announced then some { s with announced := false, restoring := some s.subscribes } else none
  | .restore =>
      match s.restoring with
      | some (item :: rest) => some { s.hand item with restoring := some rest }
      | _ => none
  | .restoreDone =>
      match s.restoring with
      | some [] => some { s with restoring := none, restored := true }
      | _ => none
  | .leave state =>
      if state ≠ .connected ∧ s.busy = false then some { s with state, restored := false } else none

/-- Every call that has returned was handed over in the session that goes on. -/
def NoneLost (s : Registry) : Prop := s.restored = true → ∀ item ∈ s.returned, (s.session, item) ∈ s.handed

/-- A call registers before it looks at the state, and the loop misses nothing that was registered
before it: nothing is registered while it runs. -/
structure Registered (s : Registry) : Prop where
  pushed : ∀ item ∈ s.pushed, item ∈ s.subscribes
  connected : ∀ item ∈ s.connected, item ∈ s.subscribes
  returned : ∀ item ∈ s.returned, item ∈ s.subscribes
  restoring : ∀ rest ∈ s.restoring, (s.client = true ∧ s.state = .connected) ∧
    ∀ item ∈ s.subscribes, (s.session, item) ∈ s.handed ∨ item ∈ rest
  announced : s.announced = true → (s.client = true ∧ s.state = .connected) ∧ s.restoring = none
  restored : s.restored = true → s.client = true ∧ s.state = .connected ∧ s.busy = false
  none : s.NoneLost

variable {s t : Registry}

theorem registered_step {a : Action} (h : s.Registered) (taken : s.step a = some t) : t.Registered := by
  cases a with
  | start =>
    obtain rfl := Option.some.inj taken
    exact ⟨h.pushed, h.connected, h.returned,
      fun rest loops => ⟨⟨rfl, (h.restoring rest loops).1.2⟩, (h.restoring rest loops).2⟩,
      fun announced => ⟨⟨rfl, (h.announced announced).1.2⟩, (h.announced announced).2⟩,
      fun restored => ⟨rfl, (h.restored restored).2⟩, h.none⟩
  | subscribe topic qos =>
    obtain rfl := Option.some.inj taken
    exact ⟨h.pushed, h.connected, h.returned, h.restoring, h.announced, h.restored, h.none⟩
  | push item =>
    simp only [step] at taken
    split at taken
    · rename_i free
      obtain rfl := Option.some.inj taken
      refine ⟨fun other among => ?_, fun other among => ?_, fun other among => ?_, fun rest loops => ?_, h.announced,
        h.restored, h.none⟩
      · rcases List.mem_cons.mp among with rfl | before
        · exact List.mem_append_right _ (List.mem_singleton.mpr rfl)
        · exact List.mem_append_left _ (h.pushed other before)
      · exact List.mem_append_left _ (h.connected other among)
      · exact List.mem_append_left _ (h.returned other among)
      · exact absurd (free.2.symm.trans loops) nofun
    · contradiction
  | isConnected item =>
    simp only [step] at taken
    split at taken
    · rename_i among
      have mine := h.pushed item among
      have fewer : ∀ other ∈ s.pushed.erase item, other ∈ s.subscribes := fun other left =>
        h.pushed other (List.mem_of_mem_erase left)
      split at taken
      · obtain rfl := Option.some.inj taken
        refine ⟨fewer, fun other among => ?_, h.returned, h.restoring, h.announced, h.restored, h.none⟩
        exact (List.mem_cons.mp among).elim (fun same => same ▸ mine) (h.connected other)
      · rename_i away
        obtain rfl := Option.some.inj taken
        refine ⟨fewer, h.connected, fun other among => ?_, h.restoring, h.announced, h.restored, fun restored => ?_⟩
        · exact (List.mem_cons.mp among).elim (fun same => same ▸ mine) (h.returned other)
        · obtain ⟨client, connected, -⟩ := h.restored restored
          exact absurd (by simp [client, connected]) away
    · contradiction
  | asyncSubscribe item =>
    simp only [step] at taken
    split at taken
    · rename_i among
      obtain rfl := Option.some.inj taken
      have mine := h.connected item among
      refine ⟨h.pushed, fun other left => h.connected other (List.mem_of_mem_erase left), fun other among => ?_,
        fun rest loops => ?_, h.announced, h.restored, fun restored other among => ?_⟩
      · exact (List.mem_cons.mp among).elim (fun same => same ▸ mine) (h.returned other)
      · obtain ⟨state, left⟩ := h.restoring rest loops
        exact ⟨state, fun other among => (left other among).imp_left (List.mem_append_left _)⟩
      · rcases List.mem_cons.mp among with rfl | before
        · exact List.mem_append_right _ (List.mem_singleton.mpr rfl)
        · exact List.mem_append_left _ (h.none restored other before)
    · contradiction
  | markConnected =>
    simp only [step] at taken
    split at taken
    · rename_i free
      obtain rfl := Option.some.inj taken
      simp only [busy, Bool.and_eq_true, Bool.not_eq_true', Bool.or_eq_false_iff] at free
      obtain ⟨client, -, idle⟩ := free
      have idle : s.restoring = none := by simpa using idle
      exact ⟨h.pushed, h.connected, h.returned, fun rest loops => absurd (idle.symm.trans loops) nofun,
        fun _ => ⟨⟨client, rfl⟩, idle⟩, nofun, nofun⟩
    · contradiction
  | onConnect =>
    simp only [step] at taken
    split at taken
    · rename_i announced
      obtain rfl := Option.some.inj taken
      obtain ⟨state, -⟩ := h.announced announced
      have unrestored : s.restored = true → False := fun restored => by
        simpa [busy, announced] using (h.restored restored).2.2
      refine ⟨h.pushed, h.connected, h.returned, fun rest loops => ⟨state, fun item among => .inr ?_⟩, nofun,
        fun restored => (unrestored restored).elim, fun restored => (unrestored restored).elim⟩
      exact Option.some.inj loops ▸ among
    · contradiction
  | restore =>
    simp only [step] at taken
    split at taken
    · rename_i item rest loops
      obtain rfl := Option.some.inj taken
      obtain ⟨state, left⟩ := h.restoring _ loops
      have unrestored : s.restored = true → False := fun restored => by
        simpa [busy, loops] using (h.restored restored).2.2
      refine ⟨h.pushed, h.connected, h.returned, fun others same => ⟨state, fun other among => ?_⟩, fun announced => ?_,
        fun restored => (unrestored restored).elim, fun restored => (unrestored restored).elim⟩
      · obtain rfl := Option.some.inj same
        rcases left other among with before | later
        · exact .inl (List.mem_append_left _ before)
        · rcases List.mem_cons.mp later with rfl | later
          · exact .inl (List.mem_append_right _ (List.mem_singleton.mpr rfl))
          · exact .inr later
      · exact absurd ((h.announced announced).2.symm.trans loops) nofun
    · contradiction
  | restoreDone =>
    simp only [step] at taken
    split at taken
    · rename_i loops
      obtain rfl := Option.some.inj taken
      obtain ⟨⟨client, state⟩, left⟩ := h.restoring _ loops
      have quiet : s.announced = false := by
        by_contra announced
        exact absurd ((h.announced (by simpa using announced)).2.symm.trans loops) nofun
      refine ⟨h.pushed, h.connected, h.returned, nofun, fun announced => absurd (quiet.symm.trans announced) nofun,
        fun _ => ⟨client, state, by simp [busy, quiet]⟩, fun _ item among => ?_⟩
      exact (left item (h.returned item among)).resolve_right List.not_mem_nil
    · contradiction
  | leave state =>
    simp only [step] at taken
    split at taken
    · rename_i free
      obtain rfl := Option.some.inj taken
      have quiet : s.announced = false ∧ s.restoring = none := by simpa [busy] using free.2
      refine ⟨h.pushed, h.connected, h.returned, fun rest loops => ?_, fun announced => ?_, nofun, nofun⟩
      · exact absurd (quiet.2.symm.trans loops) nofun
      · exact absurd (quiet.1.symm.trans announced) nofun
    · contradiction

theorem registered_start : Registered {} :=
  ⟨fun _ among => absurd among List.not_mem_nil, fun _ among => absurd among List.not_mem_nil,
    fun _ among => absurd among List.not_mem_nil, fun _ loops => absurd loops nofun,
      fun announced => absurd announced nofun,
    fun restored => absurd restored nofun, fun restored => absurd restored nofun⟩

/-! ### The helper's loop and the client's events -/

theorem exec_restore {rest : List Subscription} (loops : s.restoring = some rest) :
    Runs.exec step s (rest.map (fun _ => .restore) ++ [.restoreDone]) = some { s with
      handed := s.handed ++ rest.map (s.session, ·), restoring := none, restored := true } := by
  induction rest generalizing s with
  | nil => simp [Runs.exec, step, loops]
  | cons item rest ih =>
    have first : s.step .restore = some { s.hand item with restoring := some rest } := by simp only [step, loops]
    simp only [List.map_cons, List.cons_append, Runs.exec, first, Option.bind_some]
    rw [ih rfl]
    simp [hand]

theorem onConnect_asked (h : Helper) (client : h.client = true) (same : h.subscribes = s.subscribes.map fun item =>
    (item.topic, item.qos)) : (h.onConnect true).asked = h.asked ++ s.subscribes.map fun item =>
      .asyncSubscribe item.topic item.qos := by
  simp [Helper.onConnect, Helper.restoreSubscriptions, client, same, Function.comp_def]

end Registry

namespace Sys

variable {s t u : Sys}

theorem connected_closeConnection (after : s.closeConnection.net.state = .connected) : s.net.state = .connected := by
  unfold closeConnection at after
  split at after
  · exact after
  · have state : s.net.close.state = .disconnected := s.net.close_state (by simpa using ‹¬ s.net.closed = true›)
    exact absurd (state.symm.trans after) nofun

theorem connected_apply {e : Effect} (inside : e.within elsewhere = true)
    (after : (s.apply e).net.state = .connected) : s.net.state = .connected := by
  cases e with
  | closeConnection => exact connected_closeConnection after
  | startReadLoop attempt => exact (Net.steady_asyncReadPacket _ _).connected after
  | asyncConnect callback => exact absurd rfl (Effect.topic_of_within inside (by decide))
  | accept => exact absurd rfl (Effect.topic_of_within inside (by decide))
  | _ => exact after

theorem connected_does (does : Does elsewhere s t) (after : t.net.state = .connected) : s.net.state = .connected := by
  induction does with
  | refl => exact after
  | tail _ last ih =>
    obtain ⟨e, inside, rfl⟩ := last
    exact ih (connected_apply inside after)

theorem connected_reportConnect (success : Bool) (returnCode : UInt8) :
    (s.reportConnect success returnCode).net.state = s.net.state := by
  unfold reportConnect
  split <;> rfl

theorem connected_popped (popped : s.Popped u) : u.net.state = s.net.state := by rw [popped.same]

theorem connected_handleConnack (data : Bytes) (refused : (ConnackPacket.parse data).returnCode ≠ 0)
    (after : (s.handleConnack data).net.state = .connected) : s.net.state = .connected := by
  unfold handleConnack at after
  simp only [refused, if_false] at after
  have before := connected_closeConnection after
  exact before

theorem connected_handleConnectTimeout (after : s.handleConnectTimeout.net.state = .connected) :
    s.net.state = .connected := by
  unfold handleConnectTimeout at after
  split at after
  · exact after
  · have before := connected_closeConnection after
    exact before

/-- Only an accepted CONNACK makes the connection connected, and the next code to run is the call of
`on_connect_cb_`. -/
theorem connected_announced {a : Action} (taken : s.step a = some t) (after : t.net.state = .connected) :
    s.net.state = .connected ∨
      (s.accepting a).isSome = true ∧ ∃ rest, t.net.stack = .own (.reportConnect true 0) :: rest := by
  cases outline taken with
  | bare a t bare =>
    refine .inl ?_
    cases bare with
    | run n ran => exact (Net.steady_run ran).connected after
    | afterWrite ec rest front => exact (Net.steady_afterWrite (s.goesOn rest).net ec).connected after
    | kernel event n moved => exact (Net.steady_kernel moved).connected after
    | _ => exact after
  | asyncConnect callback idle => exact absurd ((asyncConnect_state s callback).symm.trans after) nofun
  | connack a u attempt data popped accepting handled =>
    by_cases success : (ConnackPacket.parse data).returnCode = 0
    · refine .inr ⟨by simp [accepting, success], ?_⟩
      unfold handleConnack
      dsimp only
      rw [if_pos success]
      exact ⟨_, rfl⟩
    · exact .inl ((connected_popped popped).symm.trans (connected_handleConnack data success after))
  | timeout attempt rest front =>
    have before := connected_handleConnectTimeout after
    exact .inl before
  | onConnect attempt ec rest front =>
    refine .inl ?_
    unfold onConnect at after
    split at after
    · exact after
    · split at after
      · rw [connected_reportConnect] at after
        exact after
      · exact after
  | report success returnCode rest front =>
    rw [connected_reportConnect] at after
    exact .inl after
  | other a u t popped does accepting expiring =>
    exact .inl ((connected_popped popped).symm.trans (connected_does does after))

end Sys

namespace Registry

/-- The io thread's part is what the client and the helper do. The connection comes to be connected only when an
accepted CONNACK is handled, and the next code to run then is the call of `on_connect`. Undisturbed, the loop behind
that call hands over what the helper's `on_connect` asks for. -/
theorem io_refines :
    (∀ (s t : Sys) (a : Sys.Action), s.step a = some t → t.net.state = .connected → s.net.state = .connected ∨
      (s.accepting a).isSome = true ∧ ∃ rest, t.net.stack = .own (.reportConnect true 0) :: rest) ∧
    ∀ (s : Registry) (h : Helper), s.announced = true → h.client = true →
      (h.subscribes = s.subscribes.map fun item => (item.topic, item.qos)) →
      ∃ t, Runs.exec step s (.onConnect :: (s.subscribes.map (fun _ => .restore) ++ [.restoreDone])) = some t ∧
        t.restored = true ∧ (h.onConnect true).asked = h.asked ++ (t.handed.drop s.handed.length).map fun entry =>
          .asyncSubscribe entry.2.topic entry.2.qos := by
  refine ⟨fun _ _ _ => Sys.connected_announced, fun s h announced client same => ?_⟩
  let begun : Registry := { s with announced := false, restoring := some s.subscribes }
  have first : s.step .onConnect = some begun := by simp [step, announced, begun]
  let ended : Registry := { begun with
    handed := begun.handed ++ s.subscribes.map (begun.session, ·), restoring := none, restored := true }
  refine ⟨ended, ?_, rfl, ?_⟩
  · rw [Runs.exec, first, Option.bind_some, exec_restore (s := begun) rfl]
  · have handed : ended.handed.drop s.handed.length = s.subscribes.map (s.session, ·) := List.drop_left
    rw [onConnect_asked h client same, handed, List.map_map]
    rfl

/-- In every state of every run, whatever the threads do: once the io thread has restored the
subscriptions of a session that still goes on, every call of `subscribe` that has returned was handed to
the client in this session. -/
theorem no_lost_subscription (actions : List Action) : Runs.Throughout step NoneLost {} actions :=
  Runs.throughout_of_invariant (fun _ _ _ => registered_step) (fun _ => Registered.none) registered_start

end Registry
end LiteMqtt
