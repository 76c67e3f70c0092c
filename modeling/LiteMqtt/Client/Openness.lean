import LiteMqtt.Client.Outline
import LiteMqtt.Connection.Closing

/-!
# Connected means open

A CONNACK may still wait to be handled when its connection is closed. `handle_connack` then
calls the connection connected, and nothing else does so.
-/

namespace LiteMqtt
namespace Sys

/-- A connected connection has not been closed since the `async_connect` that opened it. -/
def Open (s : Sys) : Prop := s.net.state = .connected → s.net.closed = false

/-- A CONNACK that accepts the session is handled only while the connection is not closed. -/
def AcceptsOpen (s : Sys) (a : Action) : Prop := (s.accepting a).isSome = true → s.net.closed = false

variable {s t u : Sys}

theorem open_of_steady (h : Net.Steady s.net t.net) (opened : s.Open) : t.Open := fun connected =>
  h.closed.trans (opened (h.connected connected))

theorem open_of_popped (popped : s.Popped u) (opened : s.Open) : u.Open :=
  open_of_steady (.of_same (by rw [popped.same]) (by rw [popped.same])) opened

theorem open_closeConnection (opened : s.Open) : s.closeConnection.Open := by
  unfold closeConnection
  split
  · exact opened
  · intro connected
    have state : s.net.close.state = .disconnected := s.net.close_state (by simpa using ‹¬ s.net.closed = true›)
    exact absurd (state.symm.trans connected) nofun

theorem open_apply {e : Effect} (inside : e.within elsewhere = true) (opened : s.Open) : (s.apply e).Open := by
  cases e with
  | closeConnection => exact open_closeConnection opened
  | startReadLoop attempt => exact open_of_steady (Net.steady_asyncReadPacket _ _) opened
  | asyncConnect callback => exact absurd rfl (Effect.topic_of_within inside (by decide))
  | accept => exact absurd rfl (Effect.topic_of_within inside (by decide))
  | _ => exact open_of_steady (t := s.apply _) (.of_same rfl rfl) opened

theorem open_does (h : Does elsewhere s t) (opened : s.Open) : t.Open :=
  h.keeps (fun _ _ inside => open_apply inside) opened

theorem asyncConnect_state (s : Sys) (callback : Bool) : (s.asyncConnect callback).net.state = .connecting := rfl

theorem open_reportConnect (success : Bool) (returnCode : UInt8) (opened : s.Open) :
    (s.reportConnect success returnCode).Open := by
  unfold reportConnect
  split
  · exact open_of_steady (.of_same rfl rfl) opened
  · exact opened

theorem open_onConnect (attempt : Nat) (ec : ErrorCode) (opened : s.Open) : (s.onConnect attempt ec).Open := by
  unfold onConnect
  split
  · exact opened
  · split
    · exact open_reportConnect _ _ opened
    · exact open_of_steady (.of_same rfl rfl) opened

theorem open_handleConnectTimeout (opened : s.Open) : s.handleConnectTimeout.Open := by
  unfold handleConnectTimeout
  split
  · exact opened
  · exact open_closeConnection (open_of_steady (.of_same rfl rfl) opened)

/-- An accepted CONNACK makes the connection connected and leaves `closed_` of it as it is. -/
theorem handleConnack_accepted (data : Bytes) (accepted : (ConnackPacket.parse data).returnCode = 0) :
    (s.handleConnack data).net.state = .connected ∧ (s.handleConnack data).net.closed = s.net.closed := by
  unfold handleConnack
  dsimp only
  rw [if_pos accepted]
  exact ⟨rfl, rfl⟩

theorem open_handleConnack (data : Bytes) (opened : s.Open) :
    (s.handleConnack data).Open ↔ ((ConnackPacket.parse data).returnCode = 0 → s.net.closed = false) := by
  by_cases accepted : (ConnackPacket.parse data).returnCode = 0
  · obtain ⟨connected, same⟩ := handleConnack_accepted (s := s) data accepted
    simp [Open, connected, same, accepted]
  · refine iff_of_true ?_ fun h => absurd h accepted
    unfold handleConnack
    dsimp only
    rw [if_neg accepted]
    exact open_closeConnection (open_of_steady (.of_same rfl rfl) opened)

theorem open_bare {a : Action} (bare : s.Bare a t) (opened : s.Open) : t.Open := by
  cases bare with
  | run n ran => exact open_of_steady (Net.steady_run ran) opened
  | afterWrite ec rest front => exact open_of_steady ((Net.steady_afterWrite _ ec).after rfl rfl) opened
  | closeHandler rest front => exact open_of_steady (.of_same rfl rfl) opened
  | kernel event n moved => exact open_of_steady (Net.steady_kernel moved) opened
  | expire index w waiting due => exact open_of_steady (.of_same rfl rfl) opened
  | advance ms => exact opened

theorem open_step {a : Action} (opened : s.Open) (taken : s.step a = some t) : t.Open ↔ s.AcceptsOpen a := by
  have free : s.accepting a = none → t.Open → (t.Open ↔ s.AcceptsOpen a) := fun none after =>
    iff_of_true after (by simp [AcceptsOpen, none])
  cases outline taken with
  | bare a t bare => exact free (bare_outside bare).1 (open_bare bare opened)
  | asyncConnect callback idle =>
    exact free rfl fun connected => absurd ((asyncConnect_state s callback).symm.trans connected) nofun
  | connack a u attempt data popped accepting handled =>
    rw [open_handleConnack data (open_of_popped popped opened), AcceptsOpen, accepting]
    have same : u.net.closed = s.net.closed := by rw [popped.same]
    by_cases accepted : (ConnackPacket.parse data).returnCode = 0 <;> simp [accepted, same]
  | timeout attempt rest front =>
    exact free (by simp [accepting, front])
      (open_handleConnectTimeout (open_of_popped (popped_goesOn front) opened))
  | onConnect attempt ec rest front =>
    exact free (by simp [accepting, front]) (open_onConnect _ _ (open_of_popped (popped_goesOn front) opened))
  | report success returnCode rest front =>
    exact free (by simp [accepting, front]) (open_reportConnect _ _ (open_of_popped (popped_goesOn front) opened))
  | other a u t popped does accepting expiring =>
    exact free accepting (open_does does (open_of_popped popped opened))

/-- In every run: the connection is open in every state in which it is connected exactly if no
accepted CONNACK is handled after it was closed. -/
theorem connected_means_open (actions : List Action) :
    Runs.Throughout step Open {} actions ↔ Runs.Along step AcceptsOpen {} actions :=
  Runs.throughout_iff_along (I := fun _ => True) (fun _ _ _ _ _ => trivial)
    (fun _ _ _ _ opened taken => open_step opened taken) trivial nofun

/-- A CONNACK has been read and is posted to its handler when the user closes the client. -/
def connackAfterClose : List Action :=
  connecting ++ [.kernel (.read 0 (.ok [0x20, 2])), .run, .kernel (.read 0 (.ok [0, 0])), .run, .call .close, .exec,
    .run, .exec, .exec, .exec, .ret, .exec]

/-- It brings the closed connection back to connected, also between two steps of the io thread. -/
theorem connack_revives_closed :
    ¬ ∀ actions, Runs.Throughout step (fun s => s.net.stack = [] → s.Open) {} actions := by
  intro claimed
  have run : (Runs.exec step ({} : Sys) connackAfterClose).map (fun s =>
      s.net.stack.isEmpty && s.net.state == .connected && s.net.closed) = some true := by
    decide +kernel
  obtain ⟨s, done, revived⟩ := Runs.exec_of_check run
  simp only [Bool.and_eq_true, List.isEmpty_iff, beq_iff_eq] at revived
  obtain ⟨⟨between, connected⟩, closed⟩ := revived
  exact absurd ((Runs.throughout_last (claimed connackAfterClose) done between connected).symm.trans closed) nofun

end Sys
end LiteMqtt
