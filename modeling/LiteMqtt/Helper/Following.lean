import LiteMqtt.Helper.Rig

/-!
# Every step of the helper with its client

Each kind of step in the form that results about the client need: a new client, a call of the user, a step of
the client that the helper answers, or calls of the helper alone. Until the client is released the helper only
connects, subscribes and disconnects.
-/

namespace LiteMqtt
namespace Rig

/-- The client gets calls of the helper and nothing else. -/
def Carried (r t : Rig) : Prop :=
  ∃ asks : List Ask, (∀ a ∈ asks, Gentle a) ∧ t.helper.client = r.helper.client ∧ t.sys = asks.foldl carry r.sys

/-- The user does not call the client, which is neither made nor released. -/
def Action.isPlain : Action → Bool
  | .configure _ | .setReconnectConfig .. | .rearmReconnect | .stopOnIoThread | .beginStop | .expireReconnectTimer
  | .perform => true
  | _ => false

inductive Steps (r : Rig) : Action → Rig → Prop where
  | start (t : Rig) (begins : r.helper.running = false) (client : t.helper.client = true)
      (sys : t.sys = carry (setupCallbacks (initClient r.config)) .asyncConnect) : Steps r .start t
  | started (runs : r.helper.running = true) : Steps r .start r
  | publish (topic payload : Bytes) (qos : UInt8) (callable : Bool) :
      Steps r (.publish topic payload qos callable) (r.publish topic payload qos callable)
  | subscribe (topic : Bytes) (qos : UInt8) (callable : Bool) :
      Steps r (.subscribe topic qos callable) (r.subscribe topic qos callable)
  | plain (a : Action) (t : Rig) (plain : a.isPlain = true) (carried : Carried r t) : Steps r a t
  | finishStop (wasRunning : Bool) (t : Rig) (released : t.helper.client = false) : Steps r (.finishStop wasRunning) t
  | io (a : Sys.Action) (u : Sys) (t : Rig) (taken : r.sys.step a = some u) (inside : ∀ c, a ≠ .call c)
      (carried : Carried { r with sys := u } t) : Steps r (.io a) t

variable {r t u : Rig} {g : Helper}

theorem Carried.trans (first : Carried r u) (later : Carried u t) : Carried r t := by
  obtain ⟨asks, gentle, client, sys⟩ := first
  obtain ⟨more, mild, same, next⟩ := later
  refine ⟨asks ++ more, fun a among => ?_, same.trans client, ?_⟩
  · exact (List.mem_append.mp among).elim (gentle a) (mild a)
  · rw [next, sys, List.foldl_append]

theorem carried_same (client : t.helper.client = r.helper.client) (sys : t.sys = r.sys) : Carried r t :=
  ⟨[], nofun, client, sys⟩

theorem carried_follow {asks : List Ask} (turn : Turn r.helper g asks) : Carried r (r.follow g) := by
  rw [turn.follow]
  exact ⟨asks, turn.gentle, turn.client, rfl⟩

/-- The helper answers a report with calls. -/
theorem carried_notify (sound : r.Sound) (e : Event) : (r.notify e).Sound ∧ Carried r (r.notify e) := by
  have answers : ∀ {g : Helper} {asks : List Ask}, Turn r.helper g asks → (r.follow g).Sound ∧ Carried r (r.follow g) :=
    fun turn => ⟨sound_follow sound turn, carried_follow turn⟩
  cases e with
  | connectReport success returnCode =>
    cases success with
    | false => exact answers (turn_doReconnect sound.pending).1
    | true =>
      obtain ⟨asks, turn, -⟩ := turn_onConnected sound.pending
      exact answers turn
  | closeReport => exact answers (turn_onClose sound.pending).1
  | _ => exact ⟨sound, carried_same rfl rfl⟩

theorem carried_notified (events : List Event) (sound : r.Sound) : Carried r (events.foldl notify r) := by
  induction events generalizing r with
  | nil => exact carried_same rfl rfl
  | cons e rest ih =>
    obtain ⟨next, carried⟩ := carried_notify sound e
    exact carried.trans (ih next)

theorem steps {a : Action} (sound : r.Sound) (taken : r.step a = some t) : Steps r a t := by
  unfold step at taken
  split at taken
  · contradiction
  cases a with
  | configure config =>
    obtain rfl := Option.some.inj taken
    exact .plain _ _ rfl (carried_same rfl rfl)
  | setReconnectConfig maxAttempts baseDelayMs =>
    obtain rfl := Option.some.inj taken
    exact .plain _ _ rfl (carried_same rfl rfl)
  | start =>
    obtain rfl := Option.some.inj taken
    split
    · rename_i runs
      exact .started runs
    · rename_i off
      have begins : r.helper.running = false := Bool.eq_false_iff.mpr off
      refine .start _ begins ?_ ?_
      · change r.helper.start.client = true
        unfold Helper.start
        rw [if_neg off]
        rfl
      · change (r.helper.start.asked.drop r.helper.asked.length).foldl carry _ = _
        unfold Helper.start
        rw [if_neg off]
        change ((r.helper.asked ++ [Ask.asyncConnect]).drop r.helper.asked.length).foldl carry _ = _
        rw [List.drop_left]
        rfl
  | publish topic payload qos callable => exact Option.some.inj taken ▸ .publish topic payload qos callable
  | subscribe topic qos callable => exact Option.some.inj taken ▸ .subscribe topic qos callable
  | rearmReconnect =>
    obtain rfl := Option.some.inj taken
    have same : Turn r.helper r.helper.rearmReconnect.1 [] := by
      unfold Helper.rearmReconnect
      split
      · exact turn_same rfl rfl id id sound.pending
      split
      · exact turn_same rfl rfl id id sound.pending
      · exact turn_same rfl rfl id id fun waits => (sound.pending waits).imp id (List.mem_append_left _)
    exact .plain _ _ rfl (carried_follow same)
  | stopOnIoThread =>
    dsimp only at taken
    split at taken
    · obtain rfl := Option.some.inj taken
      obtain ⟨asks, turn, -⟩ := turn_stopOnIoThread r.helper
      exact .plain _ _ rfl (carried_follow turn)
    · contradiction
  | beginStop =>
    obtain rfl := Option.some.inj taken
    obtain ⟨asks, turn, -⟩ := turn_beginStop r.helper
    exact .plain _ _ rfl (carried_follow turn)
  | finishStop wasRunning =>
    dsimp only at taken
    split at taken
    · obtain rfl := Option.some.inj taken
      exact .finishStop wasRunning _ (finishStop_released r.helper wasRunning).1
    · contradiction
  | expireReconnectTimer =>
    dsimp only at taken
    split at taken
    · obtain rfl := Option.some.inj taken
      exact .plain _ _ rfl (carried_same rfl rfl)
    · contradiction
  | perform =>
    dsimp only at taken
    split at taken
    · rename_i c rest first _
      obtain rfl := Option.some.inj taken
      obtain ⟨asks, turn, -⟩ := turn_perform first sound.pending
      exact .plain _ _ rfl (carried_follow turn)
    · contradiction
  | io a =>
    cases a with
    | call c => contradiction
    | _ =>
      obtain ⟨u, moved, rfl⟩ := Option.map_eq_some_iff.mp taken
      have next : Sound { r with sys := u } :=
        ⟨fun client => Sys.grounded_step (sound.grounded client) moved nofun, sound.pending, fun runs on =>
          (sound.ready runs on).imp id fun listening => Sys.listening_step listening moved nofun⟩
      exact .io _ u _ moved nofun (carried_notified _ next)

end Rig
end LiteMqtt
