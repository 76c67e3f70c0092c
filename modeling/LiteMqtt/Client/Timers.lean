import LiteMqtt.Client.KeepAlive
import LiteMqtt.Client.Orphans

/-!
# The outstanding waits

Code cancels the waits of a timer, or cancels them and waits anew. So no timer ever has two waits, and with each
wait on the timer of its entry there are never more than the entries can account for.
-/

namespace LiteMqtt

/-- One call of `cancel`, or of `expires_after` and `async_wait`. -/
inductive Sets (due : TimerHandler → Nat) (waits : List Wait) : List Wait → Prop where
  | cancel (timer : Nat) : Sets due waits (waits.filter fun w => w.timer != timer)
  | await (timer : Nat) (h : TimerHandler) :
      Sets due waits ((waits.filter fun w => w.timer != timer) ++ [⟨timer, due h, h⟩])

def Rearms (due : TimerHandler → Nat) : List Wait → List Wait → Prop := Relation.ReflTransGen (Sets due)

section

variable {due : TimerHandler → Nat} {waits later last : List Wait}

theorem Rearms.refl (waits : List Wait) : Rearms due waits waits := Relation.ReflTransGen.refl

theorem Rearms.trans (first : Rearms due waits later) (second : Rearms due later last) : Rearms due waits last :=
  Relation.ReflTransGen.trans first second

theorem Sets.one (sets : Sets due waits later) (one : (waits.map Wait.timer).Nodup) :
    (later.map Wait.timer).Nodup := by
  have left : ∀ timer, ((waits.filter fun w => w.timer != timer).map Wait.timer).Nodup := fun timer =>
    one.sublist (List.filter_sublist.map _)
  cases sets with
  | cancel timer => exact left timer
  | await timer h =>
    rw [List.map_append, List.nodup_append]
    have alone : [timer].Nodup := List.nodup_cons.mpr ⟨List.not_mem_nil, List.nodup_nil⟩
    refine ⟨left timer, alone, fun other before last among => ?_⟩
    obtain ⟨w, kept, rfl⟩ := List.mem_map.mp before
    have apart := (List.mem_filter.mp kept).2
    rw [List.mem_singleton.mp among]
    simpa using apart

theorem Rearms.one (rearms : Rearms due waits later) (one : (waits.map Wait.timer).Nodup) :
    (later.map Wait.timer).Nodup := by
  induction rearms with
  | refl => exact one
  | tail _ last ih => exact last.one ih

/-- A wait was there before, or was armed. -/
theorem Rearms.old (rearms : Rearms due waits later) : ∀ w ∈ later, w ∈ waits ∨ w.deadline = due w.handler := by
  induction rearms with
  | refl => exact fun w => .inl
  | tail _ last ih =>
    intro w among
    cases last with
    | cancel timer => exact ih w (List.mem_of_mem_filter among)
    | await timer h =>
      rcases List.mem_append.mp among with before | new
      · exact ih w (List.mem_of_mem_filter before)
      · obtain rfl := List.mem_singleton.mp new
        exact .inr rfl

end

namespace Sys

variable {s t u : Sys} {dueAt : TimerHandler → Nat} {waits later : List Wait}

/-- When a wait falls due that is armed now. -/
def dueIn (s : Sys) : TimerHandler → Nat
  | .connectTimeout _ => s.now + s.connectTimeoutMs
  | .ping _ => s.now + s.keepAliveSeconds.toNat * 1000
  | .pingDeadline _ => s.now + s.keepAliveSeconds.toNat / 2 * 1000
  | .publishRetry _ | .pubrecRetry _ => s.now + 5000

theorem rearms_same (same : later = waits) : Rearms dueAt waits later := same ▸ .refl later

theorem rearms_clock (same : t.clock = s.clock) : Rearms dueAt s.waits t.waits :=
  rearms_same (congrArg Clock.waits same)

theorem rearms_cancelTimer (s : Sys) (timer : Nat) : Rearms dueAt s.waits (s.cancelTimer timer).waits :=
  .single (.cancel timer)

theorem rearms_armTimer (s : Sys) (timer : Nat) {after : Nat} {h : TimerHandler} (same : s.now + after = dueAt h) :
    Rearms dueAt s.waits (s.armTimer timer after h).waits := by
  have armed : Sets dueAt s.waits ((s.waits.filter fun w => w.timer != timer) ++ [⟨timer, dueAt h, h⟩]) :=
    .await timer h
  rw [← same] at armed
  exact .single armed

theorem rearms_cancelTimers (s : Sys) (timers : List Nat) : Rearms dueAt s.waits (s.cancelTimers timers).waits := by
  induction timers generalizing s with
  | nil => exact .refl _
  | cons timer rest ih => exact (rearms_cancelTimer s timer).trans (ih _)

theorem rearms_schedulePingreq (s : Sys) (attempt : Nat) :
    Rearms s.dueIn s.waits (s.schedulePingreq attempt).waits := by
  unfold schedulePingreq
  split
  · exact .refl _
  · exact rearms_armTimer s _ rfl

theorem rearms_armPublishRetryTimer (s : Sys) (p : UInt16) :
    Rearms s.dueIn s.waits (s.armPublishRetryTimer p).waits := by
  unfold armPublishRetryTimer
  split
  · exact .refl _
  · exact rearms_armTimer s _ rfl

theorem rearms_armPubrecRetryTimer (s : Sys) (p : UInt16) :
    Rearms s.dueIn s.waits (s.armPubrecRetryTimer p).waits := by
  unfold armPubrecRetryTimer
  split
  · exact .refl _
  · exact rearms_armTimer s _ rfl

theorem rearms_cancelPublishRetryTimer (s : Sys) (p : UInt16) :
    Rearms dueAt s.waits (s.cancelPublishRetryTimer p).waits := by
  unfold cancelPublishRetryTimer
  split
  · exact .refl _
  · exact rearms_cancelTimer s _

theorem rearms_sendPublishEntry (s : Sys) (p : UInt16) : Rearms s.dueIn s.waits (s.sendPublishEntry p).waits := by
  unfold sendPublishEntry
  split
  · exact .refl _
  · exact rearms_armPublishRetryTimer s p

theorem rearms_asyncConnect (s : Sys) (callback : Bool) : Rearms s.dueIn s.waits (s.asyncConnect callback).waits := by
  unfold asyncConnect
  dsimp only
  split
  · let u : Sys := { s with onConnectCb := s.onConnectCb || callback, closed := false, attempts := s.attempts + 1 }
    exact rearms_armTimer (u.record .connectCalled) connectTimer rfl
  · exact .refl _

theorem rearms_asyncPublishImpl (s : Sys) (topic payload : Bytes) (qos : UInt8) (cb : Callback) :
    Rearms s.dueIn s.waits (s.asyncPublishImpl topic payload qos cb).waits := by
  have tells : ∀ u : Sys, Rearms s.dueIn u.waits (u.tellPublish cb false topic qos 0).waits := fun u =>
    rearms_clock (clock_tellPublish u ..)
  obtain ⟨next, p, same, -⟩ := acquirePacketId_cases s
  unfold asyncPublishImpl
  rw [same]
  split
  · exact tells s
  split
  · exact tells s
  split
  · exact tells s
  split
  · exact .refl _
  dsimp only
  split
  · exact .refl _
  split
  · exact tells { s with nextPacketId := next }
  · exact rearms_sendPublishEntry (({ s with nextPacketId := next } : Sys).insertPublish p topic payload qos cb) p

theorem rearms_notifyClosedOnce (s : Sys) : Rearms dueAt s.waits s.notifyClosedOnce.waits := by
  have cancelled : Rearms dueAt s.waits
      ((({ s with closed := true } : Sys).cancelTimer pingTimer).cancelTimer connectTimer).waits :=
    (rearms_cancelTimer { s with closed := true } pingTimer).trans (rearms_cancelTimer _ connectTimer)
  unfold notifyClosedOnce
  split
  · exact .refl _
  · dsimp only
    split <;> exact cancelled

theorem rearms_publishCancel (s : Sys) (p : UInt16) : Rearms dueAt s.waits (s.publishCancel p).waits := by
  unfold publishCancel
  split
  · exact .refl _
  · split <;> exact rearms_cancelTimer s _

theorem rearms_publishClear (s : Sys) : Rearms dueAt s.waits s.publishClear.waits := by
  let u := s.cancelTimers (s.pendingPublishes.entries.map fun e => e.2.timer)
  have both : Rearms dueAt s.waits (u.cancelTimers (u.pendingPubrecs.entries.map fun e => e.2.timer)).waits :=
    (rearms_cancelTimers s _).trans (rearms_cancelTimers u _)
  unfold publishClear
  dsimp only
  split <;> exact both

theorem rearms_finishPublishFailure (s : Sys) (p : UInt16) :
    Rearms dueAt s.waits (s.finishPublishFailure p).waits := by
  unfold finishPublishFailure
  split
  · exact .refl _
  · exact (rearms_cancelPublishRetryTimer s p).trans (rearms_same (tellPublish_waits _ ..))

theorem rearms_finishPublishSuccess (s : Sys) (p : UInt16) :
    Rearms dueAt s.waits (s.finishPublishSuccess p).waits := by
  unfold finishPublishSuccess
  split
  · exact .refl _
  · exact (rearms_cancelPublishRetryTimer s p).trans (rearms_same (tellPublish_waits _ ..))

theorem rearms_onPublishRetry (s : Sys) (p : UInt16) : Rearms s.dueIn s.waits (s.onPublishRetry p).waits := by
  unfold onPublishRetry
  split
  · exact .refl _
  rename_i entry found
  split
  · exact .refl _
  · let v : Sys := { s with
      pendingPublishes := s.pendingPublishes.insert p { entry with attempts := entry.attempts + 1 } }
    exact rearms_sendPublishEntry v p

theorem rearms_onPubrecRetry (s : Sys) (p : UInt16) : Rearms s.dueIn s.waits (s.onPubrecRetry p).waits := by
  unfold onPubrecRetry
  split
  · exact .refl _
  rename_i entry found
  split
  · exact rearms_cancelTimer s entry.timer
  · let v : Sys := { s with
      pendingPubrecs := s.pendingPubrecs.insert p { entry with attempts := entry.attempts + 1 } }
    exact rearms_armPubrecRetryTimer v p

theorem rearms_erasePubrec (s : Sys) (p : UInt16) : Rearms dueAt s.waits (s.erasePubrec p).waits := by
  unfold erasePubrec
  split
  · exact .refl _
  · exact rearms_cancelTimer s _

theorem rearms_insertPubrec (s : Sys) (p : UInt16) : Rearms dueAt s.waits (s.insertPubrec p).waits := by
  unfold insertPubrec
  dsimp only
  split
  · exact .refl _
  · exact rearms_cancelTimer s _

theorem dueIn_insertPubrec (s : Sys) (p : UInt16) : (s.insertPubrec p).dueIn = s.dueIn := by
  unfold insertPubrec
  dsimp only
  split <;> rfl

theorem dueIn_cancelPublishRetryTimer (s : Sys) (p : UInt16) : (s.cancelPublishRetryTimer p).dueIn = s.dueIn := by
  unfold cancelPublishRetryTimer
  split <;> rfl

theorem rearms_handlePubrec (s : Sys) (data : Bytes) : Rearms s.dueIn s.waits (s.handlePubrec data).waits := by
  unfold handlePubrec
  dsimp only
  split
  · generalize (PubrecPacket.parse data).packetId = p
    let u := s.record (.received .pubrec p [])
    let v := u.cancelPublishRetryTimer p
    have same : (v.insertPubrec p).dueIn = s.dueIn :=
      (dueIn_insertPubrec v p).trans (dueIn_cancelPublishRetryTimer u p)
    have sent := rearms_armPubrecRetryTimer (v.insertPubrec p) p
    rw [same] at sent
    exact (rearms_cancelPublishRetryTimer u p).trans ((rearms_insertPubrec v p).trans sent)
  · exact .refl _

theorem rearms_handleConnack (s : Sys) (data : Bytes) : Rearms dueAt s.waits (s.handleConnack data).waits := by
  refine (rearms_cancelTimer s connectTimer).trans ?_
  unfold handleConnack
  dsimp only
  split
  · exact .refl _
  · exact rearms_clock (clock_closeConnection _)

theorem rearms_handlePubcomp (s : Sys) (data : Bytes) : Rearms dueAt s.waits (s.handlePubcomp data).waits := by
  unfold handlePubcomp
  dsimp only
  exact (rearms_erasePubrec (s.record _) _).trans (rearms_finishPublishSuccess _ _)

/-! ### Each piece of client code -/

theorem rearms_handlePacket (s : Sys) (attempt : Nat) (data : Bytes) :
    Rearms s.dueIn s.waits (s.handlePacket attempt data).waits := by
  cases data with
  | nil => exact .refl _
  | cons byte rest =>
    unfold handlePacket
    dsimp only
    cases PacketType.ofUint8 (byte >>> 4) with
    | connack => exact rearms_handleConnack s _
    | publish => exact rearms_clock (clock_handlePublish s _)
    | suback => exact rearms_clock (clock_handleSuback s _)
    | puback => exact rearms_finishPublishSuccess (s.record _) _
    | pubrec => exact rearms_handlePubrec s _
    | pubcomp => exact rearms_handlePubcomp s _
    | pingresp =>
      exact (rearms_cancelTimer s pingTimer).trans (rearms_schedulePingreq (s.cancelTimer pingTimer) attempt)
    | _ => exact .refl _

theorem rearms_onTimer (s : Sys) (h : TimerHandler) (ec : ErrorCode) :
    Rearms s.dueIn s.waits (s.onTimer h ec).waits := by
  unfold onTimer
  split
  · exact .refl _
  · cases h with
    | connectTimeout attempt => exact rearms_clock (clock_handleConnectTimeout s)
    | publishRetry p => exact rearms_onPublishRetry s p
    | pubrecRetry p => exact rearms_onPubrecRetry s p
    | _ => exact .refl _

theorem rearms_execute (s : Sys) (k : Work) : Rearms s.dueIn s.waits (s.execute k).waits := by
  cases k with
  | asyncPublishImpl topic payload qos callback => exact rearms_asyncPublishImpl s topic payload qos callback
  | asyncSubscribeImpl topic qos callback => exact rearms_clock (clock_asyncSubscribeImpl s topic qos callback)
  | timer h ec => exact rearms_onTimer s h ec
  | handlePacket attempt data => exact rearms_handlePacket s attempt data
  | acknowledge qos p => exact rearms_clock (clock_acknowledge s qos p)
  | notifyClosedOnce => exact rearms_notifyClosedOnce s
  | publishEach p => exact rearms_clock (clock_publishEach s p)
  | publishCancel p => exact rearms_publishCancel s p
  | publishClear => exact rearms_publishClear s
  | subscribeEach p => exact rearms_clock (clock_subscribeEach s p)
  | subscribeFilters p callback rest => exact rearms_clock (clock_subscribeFilters s p callback rest)
  | subscribeClear => exact rearms_clock (t := s.subscribeClear) (clock_closeConnection _)
  | notifyClose => exact rearms_clock (clock_notifyClose s)
  | finishPublishFailure p => exact rearms_finishPublishFailure s p
  | subackEach callback rest => exact rearms_clock (clock_subackEach s callback rest)
  | subscribeWritten p callback rest => exact rearms_clock (clock_subscribeWritten s p callback rest)
  | reportConnect success returnCode => exact rearms_clock (clock_reportConnect s success returnCode)
  | reportPublish callback topic qos => exact rearms_clock (clock_tellPublish s ..)
  | reportSubscribe callback topic => exact rearms_clock (clock_tellSubscribe s ..)
  | user | startReadLoop attempt | onClosed => exact .refl _

theorem rearms_onWritten (s : Sys) (h : Handler) (ec : ErrorCode) :
    Rearms s.dueIn s.waits (s.onWritten h ec).waits := by
  unfold onWritten
  cases h with
  | connectWrite attempt =>
    dsimp only [onConnectWritten]
    split
    · exact .refl _
    · exact rearms_schedulePingreq s attempt
  | publish0 callback topic => exact rearms_clock (clock_tellPublish s ..)
  | publish p =>
    dsimp only
    split
    · exact .refl _
    · exact rearms_armPublishRetryTimer s p
  | pubrel p =>
    dsimp only [onPubrelWritten]
    split
    · exact rearms_erasePubrec s p
    · exact rearms_armPubrecRetryTimer s p
  | subscribe p => exact rearms_clock (clock_onSubscribeWritten s p ec)
  | acknowledged =>
    dsimp only
    split <;> exact .refl _
  | pingreq attempt =>
    dsimp only [onPingreqWritten]
    split
    · exact .refl _
    · exact rearms_armTimer s pingTimer rfl
  | disconnect onClosed =>
    refine rearms_clock ((clock_closeConnection _).trans ?_)
    split <;> rfl
  | connect | read => exact .refl _

theorem rearms_onInvoke (s : Sys) (call : Invocation Handler) : Rearms s.dueIn s.waits (s.onInvoke call).waits := by
  unfold onInvoke
  split
  · exact rearms_clock (clock_onConnect s ..)
  · unfold onRead
    split <;> exact .refl _
  · exact rearms_onWritten s _ _
  · exact .refl _

theorem rearms_call (s : Sys) (c : Call) : Rearms s.dueIn s.waits (s.call c).waits := by
  cases c with
  | asyncConnect callback => exact rearms_asyncConnect s callback
  | asyncDisconnect onClosed => exact rearms_cancelTimer s pingTimer
  | close => exact rearms_clock (clock_closeConnection s)
  | handlePacket data => exact rearms_handlePacket s s.attempts data
  | handlePuback data => exact rearms_finishPublishSuccess (s.record _) _
  | handlePubrec data => exact rearms_handlePubrec s data
  | handlePubcomp data => exact rearms_handlePubcomp s data
  | handleSuback data => exact rearms_clock (clock_handleSuback s data)
  | handlePublish data => exact rearms_clock (clock_handlePublish s data)
  | _ => exact .refl _

/-! ### The whole run -/

theorem now_does {topics : List Topic} (does : Does topics s t) : t.now = s.now := by
  refine does.keeps (I := fun u => u.now = s.now) (fun u e _ same => ?_) rfl
  refine Eq.trans ?_ same
  cases e with
  | closeConnection =>
    change (closeConnection u).now = u.now
    unfold closeConnection
    split <;> rfl
  | asyncConnect callback =>
    change (Sys.asyncConnect u callback).now = u.now
    unfold asyncConnect
    dsimp only
    split <;> rfl
  | _ => rfl

/-- No timer has two waits, every wait is on the timer of what it is for, and retries are due within five seconds. -/
structure Tidy (s : Sys) : Prop where
  one : (s.waits.map Wait.timer).Nodup
  sound : s.clock.Sound
  soon : ∀ w ∈ s.waits, w.handler.retries = true → w.deadline ≤ s.now + 5000

theorem tidy_rearms (tidy : s.Tidy) (sound : t.clock.Sound) (now : t.now = s.now)
    (rearms : Rearms s.dueIn s.waits t.waits) : t.Tidy := by
  refine ⟨rearms.one tidy.one, sound, fun w among retries => ?_⟩
  rw [now]
  rcases rearms.old w among with before | armed
  · exact tidy.soon w before retries
  · rw [armed]
    cases shape : w.handler with
    | publishRetry | pubrecRetry => exact le_rfl
    | _ => simp [shape, TimerHandler.retries] at retries

theorem tidy_step {a : Action} (tidy : s.Tidy) (taken : s.step a = some t) : t.Tidy := by
  have sound := sound_step tidy.sound taken
  cases (steps taken).2 with
  | work k rest front busy =>
    have now : ((s.goesOn rest).execute k).now = (s.goesOn rest).now := now_does (does_execute _ k)
    exact tidy_rearms tidy sound now (rearms_execute (s.goesOn rest) k)
  | invoke call rest front =>
    let u : Sys := { s with net := (s.goesOn rest).net.recordCall call }
    have now : (u.onInvoke call).now = u.now := now_does (does_onInvoke u call)
    exact tidy_rearms tidy sound now (rearms_onInvoke u call)
  | call c allowed => exact tidy_rearms tidy sound (now_does (does_call s c)) (rearms_call s c)
  | expire index w waiting due =>
    have fewer : (s.waits.eraseIdx index).Sublist s.waits := List.eraseIdx_sublist ..
    exact ⟨tidy.one.sublist (fewer.map _), sound, fun w among => tidy.soon w (fewer.subset among)⟩
  | advance ms =>
    refine ⟨tidy.one, sound, fun w among retries => ?_⟩
    have before : w.deadline ≤ s.now + 5000 := tidy.soon w among retries
    change w.deadline ≤ s.now + ms + 5000
    omega
  | _ => exact ⟨tidy.one, sound, tidy.soon⟩

theorem not_holds_fresh {h : TimerHandler} {timer : Nat} (retries : h.retries = true) :
    ¬ ({} : Sys).clock.Holds h timer := by
  intro held
  cases h with
  | publishRetry p | pubrecRetry p =>
    obtain ⟨entry, found, -⟩ := held
    exact absurd (OrderedMap.find?_eq_some.mp found) List.not_mem_nil
  | _ => simp [TimerHandler.retries] at retries

theorem tidy_fresh : ({} : Sys).Tidy where
  one := List.nodup_nil
  sound := ⟨Nat.le_refl 2, fun _ among => absurd among List.not_mem_nil,
    fun _ _ retries held => absurd held (not_holds_fresh retries),
    fun _ _ _ retries _ held => absurd held (not_holds_fresh retries)⟩
  soon := fun _ among => absurd among List.not_mem_nil

/-- Every outstanding wait is accounted for. -/
structure Accounted (s : Sys) : Prop where
  one : (s.waits.map Wait.timer).Nodup
  own : ∀ w ∈ s.waits, s.clock.Holds w.handler w.timer
  soon : ∀ w ∈ s.waits, w.handler.retries = true → w.deadline ≤ s.now + 5000
  few : s.waits.length ≤ s.pendingPublishes.size + s.pendingPubrecs.size + 2

theorem accounted_of_tidy (tidy : s.Tidy) : s.Accounted := by
  refine ⟨tidy.one, tidy.sound.waits, tidy.soon, ?_⟩
  have timers : s.waits.map Wait.timer ⊆ [pingTimer, connectTimer] ++
      (s.pendingPublishes.entries.map (fun e => e.2.timer) ++ s.pendingPubrecs.entries.map fun e => e.2.timer) := by
    intro timer among
    obtain ⟨w, waiting, rfl⟩ := List.mem_map.mp among
    have own := tidy.sound.waits w waiting
    cases shape : w.handler with
    | publishRetry p =>
      obtain ⟨entry, held, same⟩ := shape ▸ own
      refine List.mem_append_right _ (List.mem_append_left _ (List.mem_map.mpr ⟨(p, entry), ?_, same⟩))
      exact OrderedMap.find?_eq_some.mp held
    | pubrecRetry p =>
      obtain ⟨entry, held, same⟩ := shape ▸ own
      refine List.mem_append_right _ (List.mem_append_right _ (List.mem_map.mpr ⟨(p, entry), ?_, same⟩))
      exact OrderedMap.find?_eq_some.mp held
    | _ =>
      have low : w.timer < 2 := (shape ▸ own :)
      refine List.mem_append_left _ ?_
      simp only [pingTimer, connectTimer, List.mem_cons, List.not_mem_nil, or_false]
      omega
  have fewer := tidy.one.length_le_of_subset timers
  simp only [List.length_map, List.length_append, List.length_cons, List.length_nil] at fewer
  simp only [OrderedMap.size]
  omega

/-- In every state of every run no timer has two waits, and each wait is on the timer of the session, or on that of the
publish or of the PUBREL that it will send again, within five seconds. So there are at most two more waits than
pending entries. -/
theorem waits_accounted (actions : List Action) : Runs.Throughout step Accounted {} actions :=
  Runs.throughout_of_invariant (I := Tidy) (fun _ _ _ => tidy_step) (fun _ => accounted_of_tidy) tidy_fresh

end Sys
end LiteMqtt
