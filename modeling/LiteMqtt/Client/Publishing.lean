import LiteMqtt.Client.Exchange
import LiteMqtt.Client.Outline

/-!
# The steps that concern the publishes

A publish is called for, taken on, sent again, written, acknowledged, given up, or told of. The
code of every other step is about something else.
-/

namespace LiteMqtt
namespace Sys

variable {s t u : Sys}

/-- The topics that leave the publishes alone. -/
def apart : List Topic := [.connect, .subscribe, .session, .loop, .packet, .settings, .crash]

inductive Publishing (s : Sys) : Action → Sys → Prop where
  | bare (a : Action) (t : Sys) (bare : s.Bare a t) : Publishing s a t
  | asyncPublish (topic payload : Bytes) (qos : UInt8) (callable : Bool) :
      Publishing s (.call (.asyncPublish topic payload qos callable)) (s.asyncPublish topic payload qos callable)
  | impl (topic payload : Bytes) (qos : UInt8) (callback : Callback) (rest : List (StackEntry Handler Work))
      (front : s.net.stack = .own (.asyncPublishImpl topic payload qos callback) :: rest) :
      Publishing s .exec ((s.goesOn rest).asyncPublishImpl topic payload qos callback)
  | retry (packetId : UInt16) (rest : List (StackEntry Handler Work))
      (front : s.net.stack = .own (.timer (.publishRetry packetId) none) :: rest) :
      Publishing s .exec ((s.goesOn rest).onPublishRetry packetId)
  | failure (packetId : UInt16) (rest : List (StackEntry Handler Work))
      (front : s.net.stack = .own (.finishPublishFailure packetId) :: rest) :
      Publishing s .exec ((s.goesOn rest).finishPublishFailure packetId)
  | report (callback : Callback) (topic : Bytes) (qos : UInt8) (rest : List (StackEntry Handler Work))
      (front : s.net.stack = .own (.reportPublish callback topic qos) :: rest) :
      Publishing s .exec ((s.goesOn rest).tellPublish callback false topic qos 0)
  | each (packetId : UInt16) (rest : List (StackEntry Handler Work))
      (front : s.net.stack = .own (.publishEach packetId) :: rest) :
      Publishing s .exec ((s.goesOn rest).publishEach packetId)
  | clear (rest : List (StackEntry Handler Work)) (front : s.net.stack = .own .publishClear :: rest) :
      Publishing s .exec (s.goesOn rest).publishClear
  | written0 (serial : Nat) (callback : Callback) (topic : Bytes) (ec : ErrorCode)
      (rest : List (StackEntry Handler Work))
      (front : s.net.stack = .invoke (.write serial (.publish0 callback topic) ec) :: rest) :
      Publishing s .exec ({ s with net := (s.goesOn rest).net.recordCall (.write serial (.publish0 callback topic) ec) }
        |>.tellPublish callback ec.isNone topic 0 0)
  | written (serial : Nat) (packetId : UInt16) (rest : List (StackEntry Handler Work))
      (front : s.net.stack = .invoke (.write serial (.publish packetId) none) :: rest) :
      Publishing s .exec ({ s with net := (s.goesOn rest).net.recordCall (.write serial (.publish packetId) none) }
        |>.armPublishRetryTimer packetId)
  | acked (a : Action) (u v : Sys) (packetId : UInt16) (popped : s.Popped u) (does : Does apart u v)
      (deed : s.deed a = .puback packetId ∨ s.deed a = .pubcomp packetId) :
      Publishing s a (v.finishPublishSuccess packetId)
  | other (a : Action) (u t : Sys) (popped : s.Popped u) (does : Does apart u t) : Publishing s a t

/-- An acknowledgement that is a success. -/
theorem does_received (pt : PacketType) (p : UInt16) (codes : List UInt8)
    (about : (Event.received pt p codes).topic = none) : Does apart s (s.record (.received pt p codes)) :=
  does_one (.record _) (by simp [Effect.within, Effect.fits, Effect.topic, about])

theorem puback_publishing {a : Action} (data : Bytes) (popped : s.Popped u)
    (deed : s.deed a = .puback (parseId data)) : Publishing s a (u.handlePuback data) :=
  .acked a u _ (parseId data) popped (does_received .puback _ _ rfl) (.inl deed)

theorem pubcomp_publishing {a : Action} (data : Bytes) (popped : s.Popped u)
    (deed : s.deed a = .pubcomp (parseId data)) : Publishing s a (u.handlePubcomp data) :=
  .acked a u _ (parseId data) popped ((does_received .pubcomp _ _ rfl).trans (does_erasePubrec _ _)) (.inr deed)

theorem packet_publishing {a : Action} (attempt : Nat) (data : Bytes) (popped : s.Popped u)
    (deed : s.deed a = packetDeed data) : Publishing s a (u.handlePacket attempt data) := by
  have does := does_handlePacket u attempt data
  cases data with
  | nil => exact .other a u _ popped (.refl u)
  | cons byte rest =>
    unfold packetTopics handlePacket at does
    unfold packetDeed at deed
    unfold handlePacket
    dsimp only at does deed ⊢
    cases kind : PacketType.ofUint8 (byte >>> 4) with
    | puback => exact puback_publishing _ popped (by rw [deed, kind])
    | pubcomp => exact pubcomp_publishing _ popped (by rw [deed, kind])
    | _ =>
      rw [kind] at does
      exact .other a u _ popped (does.mono (by simp [apart]))

theorem work_publishing (k : Work) (rest : List (StackEntry Handler Work)) (front : s.net.stack = .own k :: rest) :
    Publishing s .exec ((s.goesOn rest).execute k) := by
  have does := does_execute (s.goesOn rest) k
  have popped := popped_goesOn front
  cases k with
  | asyncPublishImpl topic payload qos cb => exact .impl topic payload qos cb rest front
  | timer h ec =>
    cases h with
    | publishRetry p =>
      cases ec with
      | none => exact .retry p rest front
      | some ec => exact .other .exec _ _ popped (.refl _)
    | _ => exact .other .exec _ _ popped (does.mono (by simp [workTopics, timerTopics, apart]))
  | handlePacket attempt data => exact packet_publishing attempt data popped (by simp [deed, front])
  | finishPublishFailure p => exact .failure p rest front
  | reportPublish cb topic qos => exact .report cb topic qos rest front
  | publishEach p => exact .each p rest front
  | publishClear => exact .clear rest front
  | _ => exact .other .exec _ _ popped (does.mono (by simp [workTopics, apart]))

theorem invoke_publishing (call : Invocation Handler) (rest : List (StackEntry Handler Work))
    (front : s.net.stack = .invoke call :: rest) :
    Publishing s .exec ({ s with net := (s.goesOn rest).net.recordCall call }.onInvoke call) := by
  have does := does_onInvoke { s with net := (s.goesOn rest).net.recordCall call } call
  have popped := popped_recordCall front
  have other : invocationTopics call ⊆ apart → Publishing s .exec
      ({ s with net := (s.goesOn rest).net.recordCall call }.onInvoke call) := fun few =>
    .other .exec _ _ popped (does.mono few)
  cases call with
  | write serial h ec =>
    cases h with
    | publish0 cb topic => exact .written0 serial cb topic ec rest front
    | publish p =>
      cases ec with
      | none => exact .written serial p rest front
      | some ec => exact .other .exec _ _ popped (does_one (.push (.finishPublishFailure p)) rfl)
    | _ => exact other (by simp [invocationTopics, apart])
  | _ => exact other (by simp [invocationTopics, apart])

theorem call_publishing (c : Call) : Publishing s (.call c) (s.call c) := by
  have does := does_call s c
  cases c with
  | asyncPublish topic payload qos callable => exact .asyncPublish topic payload qos callable
  | handlePacket data => exact packet_publishing s.attempts data (popped_refl s) rfl
  | handlePuback data => exact puback_publishing data (popped_refl s) rfl
  | handlePubcomp data => exact pubcomp_publishing data (popped_refl s) rfl
  | _ => exact .other _ s _ (popped_refl s) (does.mono (by simp [callTopics, apart]))

theorem publishing_outline {a : Action} (taken : s.step a = some t) : Publishing s a t := by
  cases (steps taken).2 with
  | run n ran => exact .bare .run _ (.run n ran)
  | work k rest front busy => exact work_publishing k rest front
  | invoke call rest front => exact invoke_publishing call rest front
  | afterWrite ec rest front => exact .bare .exec _ (.afterWrite ec rest front)
  | closeHandler rest front => exact .bare .exec _ (.closeHandler rest front)
  | ret rest front => exact .other .ret _ _ (popped_goesOn front) (.refl _)
  | call c allowed => exact call_publishing c
  | kernel event n moved => exact .bare _ _ (.kernel event n moved)
  | expire index w waiting due => exact .bare _ _ (.expire index w waiting due)
  | advance ms => exact .bare _ _ (.advance ms)

end Sys
end LiteMqtt
