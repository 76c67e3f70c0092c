import LiteMqtt.Client.Accounts

/-!
# Callbacks are numbered apart

Each call of `async_publish` and `async_subscribe` gives its callback the next number, and no other code of
the client numbers one.
-/

namespace LiteMqtt

/-- The user gives a callback away. -/
def Call.numbers : Call → Bool
  | .asyncPublish .. | .asyncSubscribe .. => true
  | _ => false

namespace Sys

variable {s t : Sys}

@[simp] theorem nextCallback_cancelTimers (s : Sys) (timers : List Nat) :
    (s.cancelTimers timers).nextCallback = s.nextCallback := by
  induction timers generalizing s with
  | nil => rfl
  | cons timer timers ih => exact ih _

@[simp] theorem nextCallback_closeConnection (s : Sys) : s.closeConnection.nextCallback = s.nextCallback := by
  unfold closeConnection
  split <;> rfl

@[simp] theorem nextCallback_tellPublish (s : Sys) (cb : Callback) (ok : Bool) (topic : Bytes) (qos : UInt8)
    (p : UInt16) : (s.tellPublish cb ok topic qos p).nextCallback = s.nextCallback := by
  unfold tellPublish
  split <;> rfl

@[simp] theorem nextCallback_tellSubscribe (s : Sys) (cb : Callback) (ok : Bool) (topic : Bytes) (qos : UInt8) :
    (s.tellSubscribe cb ok topic qos).nextCallback = s.nextCallback := by
  unfold tellSubscribe
  split <;> rfl

@[simp] theorem nextCallback_armPublishRetryTimer (s : Sys) (p : UInt16) :
    (s.armPublishRetryTimer p).nextCallback = s.nextCallback := by
  unfold armPublishRetryTimer
  split <;> rfl

@[simp] theorem nextCallback_armPubrecRetryTimer (s : Sys) (p : UInt16) :
    (s.armPubrecRetryTimer p).nextCallback = s.nextCallback := by
  unfold armPubrecRetryTimer
  split <;> rfl

@[simp] theorem nextCallback_cancelPublishRetryTimer (s : Sys) (p : UInt16) :
    (s.cancelPublishRetryTimer p).nextCallback = s.nextCallback := by
  unfold cancelPublishRetryTimer
  split <;> rfl

@[simp] theorem nextCallback_sendPublishEntry (s : Sys) (p : UInt16) :
    (s.sendPublishEntry p).nextCallback = s.nextCallback := by
  unfold sendPublishEntry
  split
  · rfl
  · exact nextCallback_armPublishRetryTimer s p

@[simp] theorem nextCallback_erasePubrec (s : Sys) (p : UInt16) : (s.erasePubrec p).nextCallback = s.nextCallback := by
  unfold erasePubrec
  split <;> rfl

theorem nextCallback_finishPublishSuccess (s : Sys) (p : UInt16) :
    (s.finishPublishSuccess p).nextCallback = s.nextCallback := by
  unfold finishPublishSuccess
  split <;> simp

theorem nextCallback_handlePubrec (s : Sys) (data : Bytes) : (s.handlePubrec data).nextCallback = s.nextCallback := by
  unfold handlePubrec
  dsimp only
  split
  · refine (nextCallback_armPubrecRetryTimer _ _).trans ?_
    unfold insertPubrec
    dsimp only
    split <;> exact nextCallback_cancelPublishRetryTimer _ _
  · rfl

theorem nextCallback_handleSuback (s : Sys) (data : Bytes) : (s.handleSuback data).nextCallback = s.nextCallback := by
  unfold handleSuback
  dsimp only
  split
  · rfl
  · split
    · rfl
    · split <;> rfl

theorem nextCallback_handlePublish (s : Sys) (data : Bytes) : (s.handlePublish data).nextCallback = s.nextCallback := by
  unfold handlePublish
  dsimp only
  split
  · rfl
  · split <;> rfl

theorem nextCallback_handlePacket (s : Sys) (attempt : Nat) (data : Bytes) :
    (s.handlePacket attempt data).nextCallback = s.nextCallback := by
  cases data with
  | nil => rfl
  | cons byte rest =>
    unfold handlePacket
    dsimp only
    cases PacketType.ofUint8 (byte >>> 4) with
    | connack =>
      unfold handleConnack
      dsimp only
      split
      · rfl
      · exact nextCallback_closeConnection _
    | publish => exact nextCallback_handlePublish s _
    | suback => exact nextCallback_handleSuback s _
    | puback => exact nextCallback_finishPublishSuccess _ _
    | pubrec => exact nextCallback_handlePubrec s _
    | pubcomp => exact (nextCallback_finishPublishSuccess _ _).trans (nextCallback_erasePubrec _ _)
    | pingresp =>
      unfold schedulePingreq
      dsimp only
      split <;> rfl
    | _ => rfl

theorem nextCallback_onTimer (s : Sys) (h : TimerHandler) (ec : ErrorCode) :
    (s.onTimer h ec).nextCallback = s.nextCallback := by
  unfold onTimer
  split
  · rfl
  · cases h with
    | connectTimeout =>
      unfold handleConnectTimeout
      dsimp only
      split
      · rfl
      · exact nextCallback_closeConnection _
    | publishRetry p =>
      unfold onPublishRetry
      dsimp only
      split
      · rfl
      · split
        · rfl
        · exact nextCallback_sendPublishEntry _ _
    | pubrecRetry p =>
      unfold onPubrecRetry
      dsimp only
      split
      · rfl
      · split
        · rfl
        · exact nextCallback_armPubrecRetryTimer _ _
    | _ => rfl

theorem nextCallback_execute (s : Sys) (k : Work) : (s.execute k).nextCallback = s.nextCallback := by
  cases k with
  | asyncPublishImpl topic payload qos cb =>
    change (s.asyncPublishImpl topic payload qos cb).nextCallback = _
    unfold asyncPublishImpl
    split
    · simp
    split
    · simp
    split
    · simp
    split
    · rfl
    dsimp only
    split
    · rfl
    split
    · exact nextCallback_tellPublish _ _ _ _ _ _
    · exact nextCallback_sendPublishEntry _ _
  | asyncSubscribeImpl topic qos cb =>
    change (s.asyncSubscribeImpl topic qos cb).nextCallback = _
    unfold asyncSubscribeImpl
    split
    · simp
    split
    · simp
    dsimp only
    split <;> rfl
  | timer h ec => exact nextCallback_onTimer s h ec
  | handlePacket attempt data => exact nextCallback_handlePacket s attempt data
  | acknowledge qos p =>
    change (s.acknowledge qos p).nextCallback = _
    unfold acknowledge
    split
    · rfl
    · split <;> rfl
  | notifyClosedOnce =>
    change s.notifyClosedOnce.nextCallback = _
    unfold notifyClosedOnce
    split
    · rfl
    · dsimp only
      split <;> rfl
  | publishEach p =>
    change (s.publishEach p).nextCallback = _
    unfold publishEach
    split
    · rfl
    · exact nextCallback_tellPublish _ _ _ _ _ _
  | publishCancel p =>
    change (s.publishCancel p).nextCallback = _
    unfold publishCancel
    split
    · rfl
    · split <;> rfl
  | publishClear =>
    change s.publishClear.nextCallback = _
    unfold publishClear
    dsimp only
    split <;> exact (nextCallback_cancelTimers _ _).trans (nextCallback_cancelTimers s _)
  | subscribeEach p =>
    change (s.subscribeEach p).nextCallback = _
    unfold subscribeEach
    split <;> rfl
  | subscribeFilters p cb rest =>
    change (s.subscribeFilters p cb rest).nextCallback = _
    unfold subscribeFilters
    split
    · split
      · exact nextCallback_tellSubscribe _ _ _ _ _
      · split <;> rfl
    · rfl
  | subscribeClear => exact nextCallback_closeConnection _
  | notifyClose =>
    change s.notifyClose.nextCallback = _
    unfold notifyClose
    split <;> rfl
  | finishPublishFailure p =>
    change (s.finishPublishFailure p).nextCallback = _
    unfold finishPublishFailure
    split
    · rfl
    · exact (nextCallback_tellPublish _ _ _ _ _ _).trans (nextCallback_cancelPublishRetryTimer s p)
  | subackEach cb rest =>
    cases rest with
    | nil => rfl
    | cons first rest => exact nextCallback_tellSubscribe _ _ _ _ _
  | subscribeWritten p cb rest =>
    cases rest with
    | nil => rfl
    | cons first rest =>
      change (s.subscribeWritten p cb (first :: rest)).nextCallback = _
      unfold subscribeWritten
      dsimp only
      split
      · exact nextCallback_tellSubscribe _ _ _ _ _
      · rfl
  | reportConnect ok rc =>
    change (s.reportConnect ok rc).nextCallback = _
    unfold reportConnect
    split <;> rfl
  | reportPublish cb topic qos => exact nextCallback_tellPublish s _ _ _ _ _
  | reportSubscribe cb topic => exact nextCallback_tellSubscribe s _ _ _ _
  | _ => rfl

theorem nextCallback_onWritten (s : Sys) (h : Handler) (ec : ErrorCode) :
    (s.onWritten h ec).nextCallback = s.nextCallback := by
  have closing : (if ec.isSome then s.push [.notifyClosedOnce] else s).nextCallback = s.nextCallback := by
    split <;> rfl
  cases h with
  | connectWrite attempt =>
    unfold onWritten onConnectWritten schedulePingreq
    dsimp only
    split
    · rfl
    · unfold startReadLoop
      dsimp only
      split <;> rfl
  | publish0 cb topic => exact nextCallback_tellPublish s _ _ _ _ _
  | publish p =>
    unfold onWritten
    dsimp only
    split
    · rfl
    · exact nextCallback_armPublishRetryTimer s p
  | pubrel p =>
    unfold onWritten onPubrelWritten
    dsimp only
    split
    · exact nextCallback_erasePubrec s p
    · exact nextCallback_armPubrecRetryTimer s p
  | subscribe p =>
    unfold onWritten onSubscribeWritten
    dsimp only
    split
    · rfl
    · split
      · split <;> rfl
      · split <;> rfl
  | acknowledged => exact closing
  | pingreq attempt =>
    unfold onWritten onPingreqWritten
    dsimp only
    split <;> rfl
  | disconnect onClosed =>
    refine (nextCallback_closeConnection _).trans ?_
    split <;> rfl
  | _ => rfl

theorem nextCallback_onInvoke (s : Sys) (call : Invocation Handler) :
    (s.onInvoke call).nextCallback = s.nextCallback := by
  unfold onInvoke
  split
  · unfold onConnect reportConnect
    split
    · rfl
    · split
      · split <;> rfl
      · rfl
  · unfold onRead
    split <;> rfl
  · exact nextCallback_onWritten s _ _
  · rfl

theorem nextCallback_call (s : Sys) (c : Call) :
    (s.call c).nextCallback = if c.numbers then s.nextCallback + 1 else s.nextCallback := by
  cases c with
  | asyncConnect callback =>
    change (s.asyncConnect callback).nextCallback = _
    unfold asyncConnect
    dsimp only
    split <;> rfl
  | close => exact nextCallback_closeConnection s
  | handlePacket data => exact nextCallback_handlePacket s _ data
  | handlePuback data => exact nextCallback_finishPublishSuccess _ _
  | handlePubrec data => exact nextCallback_handlePubrec s data
  | handlePubcomp data => exact (nextCallback_finishPublishSuccess _ _).trans (nextCallback_erasePubrec _ _)
  | handleSuback data => exact nextCallback_handleSuback s data
  | handlePublish data => exact nextCallback_handlePublish s data
  | _ => rfl

/-- Only the two calls that take a callback give it a number. -/
theorem nextCallback_step {a : Action} (taken : s.step a = some t) :
    t.nextCallback = s.nextCallback ∨ (∃ c, a = .call c ∧ c.numbers = true ∧ t = s.call c) ∧
      t.nextCallback = s.nextCallback + 1 := by
  cases (steps taken).2 with
  | work k rest front busy => exact .inl (nextCallback_execute _ k)
  | invoke call rest front => exact .inl (nextCallback_onInvoke _ call)
  | call c allowed =>
    have numbered := nextCallback_call s c
    cases numbers : c.numbers with
    | false => exact .inl (by rw [numbered, numbers]; rfl)
    | true => exact .inr ⟨⟨c, rfl, numbers, rfl⟩, by rw [numbered, numbers]; rfl⟩
  | _ => exact .inl rfl

end Sys
end LiteMqtt
