import LiteMqtt.Client.Callbacks
import LiteMqtt.Client.Publishing

/-!
# Every publish is answered once

The callback of a publish is held by its posted task, by its entry of `pending_publishes_` or, for QoS 0, by
its write item, until it is called. Two things go wrong. A callback that `notify_closed_once` calls may lead
back to an entry the loop has told already, which is told once more; and a write that is started over an
item in flight takes the handler of that item with it.
-/

namespace LiteMqtt

/-- The loop over `pending_publishes_` has told the publish with this packet id. -/
def Work.answered : Work → UInt16 → Bool
  | .publishEach q, p => decide (p < q)
  | .publishCancel q, p => decide (p ≤ q)
  | .publishClear, _ => true
  | _, _ => false

/-- The callback of a publish is called. -/
def Event.answers (c : Callback) : Event → Bool
  | .published callback .. => decide (callback = c)
  | _ => false

/-- The account of the callback of a publish. -/
def publishAccount (c : Callback) : Account where
  scale := {
    handler := fun h =>
      match h with
      | .publish0 callback _ => callback.share c
      | _ => 0
    work := fun k =>
      match k with
      | .asyncPublishImpl _ _ _ callback | .reportPublish callback _ _ => callback.share c
      | _ => 0 }
  pending := fun publishes _ => publishes.entries.map fun e => (e.1, e.2.callback.share c)
  passed := Work.answered
  asks := fun e => decide (e = .publishCalled c)
  tells := Event.answers c
  silent := fun e other => by cases e <;> first | exact ⟨rfl, rfl⟩ | contradiction
  weightless := fun k other => by cases k <;> first | rfl | contradiction
  foreign := fun h other => by cases h <;> first | rfl | contradiction
  loops := fun k p steady => by cases k <;> first | rfl | exact absurd rfl steady

namespace Net

/-- A write handler that has not been called: its item is posted, queued or in flight, or its call is next. -/
def Keeps {H K : Type} (n : Net H K) (h : H) : Prop :=
  (∃ item : WriteItem H, item.handler = some h ∧
    (.enqueueWrite item ∈ n.ready ∨ .rejectWrite item ∈ n.ready ∨ item ∈ n.writeQueue ∨ n.inFlight = some item)) ∨
  ∃ serial ec, .invoke (.write serial h ec) ∈ n.stack

end Net

namespace Sys

variable {s t u : Sys} {c : Callback}

/-- The publish that the step reports, if it is pending. -/
def reportee (s : Sys) (a : Action) : Option UInt16 :=
  match s.deed a with
  | .puback p | .pubcomp p => some p
  | _ =>
      match a, s.net.stack with
      | .exec, .own (.finishPublishFailure p) :: _ | .exec, .own (.publishEach p) :: _ => some p
      | _, _ => none

/-- A loop of `notify_closed_once`, other than the one that takes the step, has told the publish. -/
def answered (s : Sys) (a : Action) (p : UInt16) : Bool :=
  match a with
  | .exec => (s.goesOn s.net.stack.tail).net.running.any (·.answered p)
  | _ => s.net.running.any (·.answered p)

/-- The step tells the callback of a pending publish that a loop has told already. -/
def repeats (s : Sys) (a : Action) : Bool :=
  (s.reportee a).any fun p => (s.pendingPublishes.find? p).any (·.callback.callable) && s.answered a p

/-- The step starts a write over a QoS 0 publish in flight. -/
def forfeits (s : Sys) (a : Action) : Bool :=
  (s.displaced a).any fun item =>
    match item.handler with
    | some (.publish0 callback _) => callback.callable
    | _ => false

def Orderly (s : Sys) (a : Action) : Prop := s.repeats a = false ∧ s.forfeits a = false

instance (s : Sys) (a : Action) : Decidable (s.Orderly a) := inferInstanceAs (Decidable (_ ∧ _))

/-- The callback is held by its task, which may be running, by its pending publish, or by its write item. -/
def HoldsPublish (s : Sys) (c : Callback) : Prop :=
  (∃ topic payload qos, .asyncPublishImpl topic payload qos c ∈ s.net.posted ++ s.net.running) ∨
  (∃ topic qos, .reportPublish c topic qos ∈ s.net.running) ∨
  (∃ p entry, s.pendingPublishes.find? p = some entry ∧ entry.callback = c) ∨
  ∃ topic, s.net.Keeps (.publish0 c topic)

/-- The callback was called at most once, and until then it is held. -/
structure Answered (s : Sys) (c : Callback) : Prop where
  once : s.log.countP (Event.answers c) ≤ 1
  held : s.log.countP (Event.answers c) = 0 → s.HoldsPublish c

/-! ### What each piece of code adds -/

open Account

@[simp] theorem publishAccount_passed (c : Callback) : (publishAccount c).passed = Work.answered := rfl

theorem gains_tellPublish (callable : c.callable = true) (s : Sys) (cb : Callback) (ok : Bool) (topic : Bytes)
    (qos : UInt8) (p : UInt16) : (publishAccount c).Gains (cb.share c) s (s.tellPublish cb ok topic qos p) := by
  unfold tellPublish
  by_cases calls : cb.callable = true
  · rw [if_pos calls]
    have told := (gains_record (A := publishAccount c) (s := s) (.published cb ok topic qos p) rfl).trans
      (gains_call (k := .user) rfl nofun)
    simpa [publishAccount, Event.answers, Callback.share] using told
  · have other : cb ≠ c := fun same => calls (same ▸ callable)
    rw [if_neg calls, Callback.share_other other]
    exact .refl _ s

/-- What leaves the publishes, their loops and the connecting alone. -/
theorem light_of_within {e : Effect} (inside : e.within [.subscribe, .session, .packet, .settings, .crash] = true) :
    (publishAccount c).Light e := by
  have other : e.topic ≠ some .publish := Effect.topic_of_within inside (by decide)
  have steady : e.topic ≠ some .loop := Effect.topic_of_within inside (by decide)
  have apart : e.topic ≠ some .connect := Effect.topic_of_within inside (by decide)
  cases e with
  | record e => cases e <;> first | exact ⟨rfl, rfl⟩ | exact absurd rfl other
  | push k => cases k <;> first | exact ⟨rfl, fun _ => rfl⟩ | exact absurd rfl other | exact absurd rfl steady
  | post k => cases k <;> first | exact rfl | exact absurd rfl other
  | write packet h =>
    cases h with
    | publish0 cb topic => cases packet <;> first | exact absurd rfl other | exact absurd rfl apart
    | _ => exact rfl
  | setPublishes => exact absurd rfl other
  | setSubscribes => exact fun _ _ _ => rfl
  | _ => trivial

theorem gains_apart {topics : List Topic} (does : Does topics s t)
    (few : topics ⊆ [.subscribe, .session, .packet, .settings, .crash]) : (publishAccount c).Gains 0 s t :=
  gains_does (fun _ => light_of_within) (does.mono few)

theorem gains_armPublishRetryTimer (s : Sys) (p : UInt16) :
    (publishAccount c).Gains 0 s (s.armPublishRetryTimer p) := by
  unfold armPublishRetryTimer
  split
  · exact .refl _ s
  · exact gains_armTimer s _ _ _

theorem gains_sendPublishEntry (s : Sys) (p : UInt16) : (publishAccount c).Gains 0 s (s.sendPublishEntry p) := by
  unfold sendPublishEntry
  split
  · exact .refl _ s
  · exact (gains_armPublishRetryTimer s p).after (gains_write _ _ (.publish p))

/-- What an entry counts for while the loops have told these. -/
def due (c : Callback) (passes : UInt16 → Bool) (e : UInt16 × PendingPublish) : Nat :=
  if passes e.1 then 0 else e.2.callback.share c

theorem owing_eq (s : Sys) : (publishAccount c).owing s =
    s.pendingPublishes.weight (due c ((publishAccount c).passes s)) := by
  unfold owing publishAccount
  rw [List.map_map]
  rfl

theorem owing_erase {entry : PendingPublish} {p : UInt16} (found : s.pendingPublishes.find? p = some entry) :
    (publishAccount c).owing s = due c ((publishAccount c).passes s) (p, entry) +
      (publishAccount c).owing { s with pendingPublishes := s.pendingPublishes.erase p } := by
  rw [owing_eq, OrderedMap.weight_erase found, owing_eq]
  rfl

theorem owing_insert {p : UInt16} (fresh : s.pendingPublishes.find? p = none) (entry : PendingPublish) :
    (publishAccount c).owing { s with pendingPublishes := s.pendingPublishes.insert p entry } =
      due c ((publishAccount c).passes s) (p, entry) + (publishAccount c).owing s := by
  rw [owing_eq, OrderedMap.weight_insert fresh, owing_eq]
  rfl

/-- An entry that is replaced goes on counting for its callback. -/
theorem owing_replace {old entry : PendingPublish} {p : UInt16} (found : s.pendingPublishes.find? p = some old)
    (same : entry.callback = old.callback) :
    (publishAccount c).owing { s with pendingPublishes := s.pendingPublishes.insert p entry } =
      (publishAccount c).owing s := by
  rw [owing_eq, OrderedMap.weight_replace, owing_eq, OrderedMap.weight_erase found, due, due, same]
  rfl

theorem gains_setPublishes {entries : OrderedMap UInt16 PendingPublish} {n : Nat}
    (owing : (publishAccount c).owing { s with pendingPublishes := entries } = (publishAccount c).owing s + n) :
    (publishAccount c).Gains n s { s with pendingPublishes := entries } := by
  refine ⟨?_, rfl⟩
  rw [total, owing, total]
  change s.net.holds _ + _ + s.log.countP _ = _
  omega

theorem gains_acquirePacketId (s : Sys) : (publishAccount c).Gains 0 s s.acquirePacketId.1 :=
  gains_of_net rfl rfl rfl rfl rfl

theorem gains_insertPublish {p : UInt16} (fresh : s.pendingPublishes.find? p = none)
    (clear : (publishAccount c).passes s p = false) (topic payload : Bytes) (qos : UInt8) (cb : Callback) :
    (publishAccount c).Gains (cb.share c) s (s.insertPublish p topic payload qos cb) := by
  let entry : PendingPublish := { topic, qos, payload, callback := cb, timer := s.nextTimer, attempts := 1 }
  let u : Sys := { s with nextTimer := s.nextTimer + 1 }
  have numbered : (publishAccount c).Gains 0 s u := gains_of_net rfl rfl rfl rfl rfl
  have stored : (publishAccount c).Gains (cb.share c) u
      { u with pendingPublishes := u.pendingPublishes.insert p entry } := by
    refine gains_setPublishes ?_
    rw [owing_insert (s := u) fresh, Nat.add_comm]
    have passes : (publishAccount c).passes u p = false := clear
    simp [due, passes, entry]
  exact numbered.after (stored.trans (gains_note rfl))

/-- The task of `async_publish` tells its callback, or hands it on. -/
theorem gains_asyncPublishImpl (callable : c.callable = true) (clear : ∀ p, (publishAccount c).passes s p = false)
    (topic payload : Bytes) (qos : UInt8) (cb : Callback) :
    (publishAccount c).Gains (cb.share c) s (s.asyncPublishImpl topic payload qos cb) := by
  unfold asyncPublishImpl
  split
  · exact gains_tellPublish callable s _ _ _ _ _
  split
  · exact gains_tellPublish callable s _ _ _ _ _
  split
  · exact gains_tellPublish callable s _ _ _ _ _
  split
  · exact (gains_note (e := .accepted 0 0 cb) rfl).after (gains_write _ _ (.publish0 cb topic))
  have acquired := gains_acquirePacketId (c := c) s
  dsimp only
  split
  · have pushed : (publishAccount c).Gains (cb.share c) s.acquirePacketId.1
        (s.acquirePacketId.1.push [.reportPublish cb topic qos]) :=
      gains_push (A := publishAccount c) (k := .reportPublish cb topic qos) fun _ => rfl
    exact acquired.after (pushed.trans (gains_call (k := .notifyClosedOnce) rfl nofun))
  split
  · exact acquired.after (gains_tellPublish callable _ _ _ _ _ _)
  · rename_i found _
    have fresh : s.pendingPublishes.find? s.acquirePacketId.2 = none := by
      have free := acquirePacketId_free found
      simp only [takenId, Bool.or_eq_false_iff, OrderedMap.contains] at free
      simpa using free.1.1
    have inserted := gains_insertPublish (s := s.acquirePacketId.1) (c := c) fresh (clear _) topic payload qos cb
    exact acquired.after (inserted.trans (gains_sendPublishEntry _ _))

/-- The entry of `p` is not one that a loop has told its callback of. -/
def Untold (c : Callback) (s : Sys) (p : UInt16) : Prop :=
  ∀ entry, s.pendingPublishes.find? p = some entry → entry.callback = c → (publishAccount c).passes s p = false

/-- An entry is taken out and told. -/
theorem gains_finish (callable : c.callable = true) {p : UInt16} {entry : PendingPublish}
    (found : s.pendingPublishes.find? p = some entry) (untold : Untold c s p)
    (gains : (publishAccount c).Gains 0 { s with pendingPublishes := s.pendingPublishes.erase p } u)
    (ok : Bool) (topic : Bytes) (qos : UInt8) (id : UInt16) :
    (publishAccount c).Gains 0 s (u.tellPublish entry.callback ok topic qos id) := by
  have told := gains.after (gains_tellPublish callable u entry.callback ok topic qos id)
  have before := owing_erase (c := c) found
  have weight : due c ((publishAccount c).passes s) (p, entry) = entry.callback.share c := by
    unfold due
    by_cases own : entry.callback = c
    · rw [if_neg (by simp [untold entry found own])]
    · rw [Callback.share_other own, ite_self]
  refine ⟨?_, told.given⟩
  rw [told.total, total, total, before, weight]
  change s.net.holds _ + _ + s.log.countP _ + _ = s.net.holds _ + _ + s.log.countP _ + 0
  omega

theorem finish_cancels (s : Sys) (p : UInt16) : (publishAccount c).Gains 0
    { s with pendingPublishes := s.pendingPublishes.erase p }
    { s.cancelPublishRetryTimer p with
      pendingPublishes := (s.cancelPublishRetryTimer p).pendingPublishes.erase p } := by
  unfold cancelPublishRetryTimer
  split
  · exact .refl _ _
  · rename_i entry _
    exact gains_cancelTimer { s with pendingPublishes := s.pendingPublishes.erase p } entry.timer

theorem gains_finishPublishSuccess (callable : c.callable = true) {p : UInt16} (untold : Untold c s p) :
    (publishAccount c).Gains 0 s (s.finishPublishSuccess p) := by
  unfold finishPublishSuccess
  split
  · exact .refl _ s
  · rename_i entry found
    exact gains_finish callable found untold (finish_cancels s p) _ _ _ _

theorem gains_finishPublishFailure (callable : c.callable = true) {p : UInt16} (untold : Untold c s p) :
    (publishAccount c).Gains 0 s (s.finishPublishFailure p) := by
  unfold finishPublishFailure
  split
  · exact gains_call (k := .notifyClosedOnce) rfl nofun
  · rename_i entry found
    exact gains_finish callable found untold
      ((finish_cancels s p).after (gains_call (k := .notifyClosedOnce) rfl nofun)) _ _ _ _

theorem gains_onPublishRetry (s : Sys) (p : UInt16) : (publishAccount c).Gains 0 s (s.onPublishRetry p) := by
  unfold onPublishRetry
  split
  · exact .refl _ s
  · rename_i entry found
    split
    · exact gains_call (k := .finishPublishFailure p) rfl nofun
    · have stored : (publishAccount c).Gains 0 s { s with
          pendingPublishes := s.pendingPublishes.insert p { entry with attempts := entry.attempts + 1 } } :=
        gains_setPublishes (owing_replace found rfl)
      exact stored.after (gains_sendPublishEntry _ p)

/-! ### The loop over the pending publishes -/

theorem owing_of_passes (publishes : t.pendingPublishes = s.pendingPublishes)
    (passes : ∀ e ∈ s.pendingPublishes.entries, (publishAccount c).passes t e.1 = (publishAccount c).passes s e.1) :
    (publishAccount c).owing t = (publishAccount c).owing s := by
  rw [owing_eq, owing_eq, publishes]
  refine OrderedMap.weight_congr fun e among => ?_
  unfold due
  rw [passes e among]

theorem gains_notifyClosedOnce (s : Sys) : (publishAccount c).Gains 0 s s.notifyClosedOnce := by
  unfold notifyClosedOnce
  split
  · exact .refl _ s
  let v := ({ s with closed := true }.cancelPingTimer).cancelTimer connectTimer
  have begun : (publishAccount c).Gains 0 s v :=
    (gains_setClosed s).after ((gains_cancelTimer _ pingTimer).after (gains_cancelTimer _ connectTimer))
  refine begun.after ?_
  dsimp only
  split
  · rename_i first least
    refine gains_move (holds_call rfl v) (owing_of_passes rfl fun e among => ?_) rfl
    have above : first ≤ e.1 := (OrderedMap.find?_of_first? least).2 e among
    change (decide (e.1 < first) || (publishAccount c).passes v e.1) = _
    rw [decide_eq_false (not_lt.mpr above), Bool.false_or]
  · rename_i none
    have empty : v.pendingPublishes.entries = [] := OrderedMap.entries_of_first?_none none
    refine gains_move (holds_call rfl v) (owing_of_passes rfl fun e among => ?_) rfl
    rw [empty] at among
    exact absurd among List.not_mem_nil

/-- The loop tells the entry it has come to. -/
theorem gains_publishEach (callable : c.callable = true) {p : UInt16} {rest : List (StackEntry Handler Work)}
    (front : s.net.stack = .own (.publishEach p) :: rest) (untold : Untold c (s.goesOn rest) p) :
    (s.goesOn rest).publishEach p = (s.goesOn rest).crash ∨
      (publishAccount c).Gains 0 s ((s.goesOn rest).publishEach p) := by
  unfold publishEach
  split
  · exact .inl rfl
  rename_i entry found
  refine .inr ?_
  let v := (s.goesOn rest).push [.publishCancel p]
  have told := gains_tellPublish callable v entry.callback false entry.topic entry.qos p
  have others : (publishAccount c).owing { v with pendingPublishes := v.pendingPublishes.erase p } =
      (publishAccount c).owing { s with pendingPublishes := s.pendingPublishes.erase p } := by
    refine owing_of_passes rfl fun e among => ?_
    have other : e.1 ≠ p := by simpa [OrderedMap.erase] using (List.mem_filter.mp among).2
    have place : decide (e.1 ≤ p) = decide (e.1 < p) :=
      decide_eq_decide.mpr ⟨fun within => lt_of_le_of_ne within other, le_of_lt⟩
    change (decide (e.1 ≤ p) || (publishAccount c).passes (s.goesOn rest) e.1) = (publishAccount c).passes s e.1
    rw [passes_front front, place]
    rfl
  have before := owing_erase (c := c) (s := s) found
  have after := owing_erase (c := c) (s := v) found
  have done : due c ((publishAccount c).passes v) (p, entry) = 0 := if_pos (by
    change (decide (p ≤ p) || _) = true
    simp)
  have due : due c ((publishAccount c).passes s) (p, entry) = entry.callback.share c := by
    unfold due
    by_cases own : entry.callback = c
    · have first : (publishAccount c).passes s p = false := by
        rw [passes_front front, untold entry found own, Bool.or_false]
        exact decide_eq_false (lt_irrefl p)
      rw [first, if_neg Bool.false_ne_true]
    · rw [Callback.share_other own, ite_self]
  have holds : v.net.holds (publishAccount c).scale = s.net.holds (publishAccount c).scale :=
    (holds_call rfl _).trans (holds_front front rfl)
  refine ⟨?_, told.given⟩
  rw [told.total, total, total, after, before, done, due, others, holds]
  change _ + _ + s.log.countP _ + _ = _
  omega

theorem gains_publishCancel {p : UInt16} {rest : List (StackEntry Handler Work)}
    (front : s.net.stack = .own (.publishCancel p) :: rest) :
    (s.goesOn rest).publishCancel p = (s.goesOn rest).crash ∨
      (publishAccount c).Gains 0 s ((s.goesOn rest).publishCancel p) := by
  unfold publishCancel
  split
  · exact .inl rfl
  rename_i entry found
  refine .inr ?_
  let v := (s.goesOn rest).cancelTimer entry.timer
  have goes : ∀ k : Work, k.carries = false →
      (∀ e ∈ s.pendingPublishes.entries, k.answered e.1 = decide (e.1 ≤ p)) →
      (publishAccount c).Gains 0 s (v.push [k]) := by
    intro k bare place
    refine gains_move ?_ (owing_of_passes rfl fun e among => ?_) rfl
    · exact (holds_call bare v).trans ((Account.holds_cancelTimer _ _).trans (holds_front front rfl))
    · change (k.answered e.1 || (publishAccount c).passes (s.goesOn rest) e.1) = _
      rw [place e among, passes_front front]
      rfl
  split
  · rename_i next later
    obtain ⟨above, -, least⟩ := OrderedMap.find?_of_next? later
    refine goes _ rfl fun e among => decide_eq_decide.mpr ⟨fun before => ?_, fun before => before.trans_lt above⟩
    by_contra beyond
    exact absurd (least e among (not_le.mp beyond)) (not_le.mpr before)
  · rename_i last
    exact goes .publishClear rfl fun e among => (decide_eq_true (OrderedMap.next?_none last e among)).symm

theorem gains_publishClear {rest : List (StackEntry Handler Work)}
    (front : s.net.stack = .own .publishClear :: rest) : (publishAccount c).Gains 0 s (s.goesOn rest).publishClear := by
  have settled : (publishAccount c).owing s = 0 := by
    rw [owing_eq]
    exact OrderedMap.weight_zero fun e _ => if_pos (by rw [passes_front front]; rfl)
  unfold publishClear
  let v := (s.goesOn rest).cancelTimers (s.pendingPublishes.entries.map fun e => e.2.timer)
  let w := v.cancelTimers (v.pendingPubrecs.entries.map fun e => e.2.timer)
  have holds : w.net.holds (publishAccount c).scale = s.net.holds (publishAccount c).scale := by
    rw [Account.holds_cancelTimers, Account.holds_cancelTimers, holds_front front rfl]
  have goes : ∀ k : Work, k.carries = false → (publishAccount c).Gains 0 s
      ({ w with pendingPublishes := .empty, pendingPubrecs := .empty }.push [k]) := fun k bare =>
    gains_move ((holds_call bare _).trans holds) settled.symm
      ((cancelTimers_same _ _).1.trans (cancelTimers_same _ _).1)
  dsimp only
  split
  · exact goes _ rfl
  · exact goes _ rfl

/-! ### Every step -/

theorem Untold.of_same {p : UInt16} (untold : Untold c s p) (publishes : t.pendingPublishes = s.pendingPublishes)
    (running : t.net.running = s.net.running) : Untold c t p := by
  intro entry found own
  rw [passes_of_running running]
  exact untold entry (publishes ▸ found) own

theorem gains_handlePuback (callable : c.callable = true) (data : Bytes) (untold : Untold c s (parseId data)) :
    (publishAccount c).Gains 0 s (s.handlePuback data) :=
  (gains_note (e := .received .puback _ []) rfl).after (gains_finishPublishSuccess callable (untold.of_same rfl rfl))

theorem gains_handlePubcomp (callable : c.callable = true) (data : Bytes) (untold : Untold c s (parseId data)) :
    (publishAccount c).Gains 0 s (s.handlePubcomp data) := by
  let v := s.record (.received .pubcomp (parseId data) [])
  have same : (v.erasePubrec (parseId data)).pendingPublishes = s.pendingPublishes ∧
      (v.erasePubrec (parseId data)).net.running = s.net.running := by
    unfold erasePubrec
    split <;> exact ⟨rfl, rfl⟩
  have received : (publishAccount c).Gains 0 s v := gains_note rfl
  have does : Does [] v (v.erasePubrec (parseId data)) := does_erasePubrec v _
  have erased : (publishAccount c).Gains 0 v (v.erasePubrec (parseId data)) := gains_apart does (by decide)
  exact received.after (erased.after (gains_finishPublishSuccess callable (untold.of_same same.1 same.2)))

theorem gains_handlePacket (callable : c.callable = true) (attempt : Nat) (data : Bytes)
    (untold : ∀ p, packetDeed data = .puback p ∨ packetDeed data = .pubcomp p → Untold c s p) :
    (publishAccount c).Gains 0 s (s.handlePacket attempt data) := by
  have does := does_handlePacket s attempt data
  cases data with
  | nil => exact .refl _ s
  | cons byte rest =>
    unfold packetDeed at untold
    unfold packetTopics at does
    unfold handlePacket at does ⊢
    dsimp only at untold does ⊢
    cases type : PacketType.ofUint8 (byte >>> 4) <;> simp only [type] at untold does ⊢
    case connack => exact gains_handleConnack s _
    case puback => exact gains_handlePuback callable _ (untold _ (.inl rfl))
    case pubcomp => exact gains_handlePubcomp callable _ (untold _ (.inr rfl))
    all_goals exact gains_apart does (by decide)

theorem gains_onTimer (s : Sys) (h : TimerHandler) (ec : ErrorCode) :
    (publishAccount c).Gains 0 s (s.onTimer h ec) := by
  have does := does_onTimer s h ec
  cases h with
  | connectTimeout attempt =>
    unfold onTimer
    split
    · exact .refl _ s
    · exact gains_handleConnectTimeout s
  | publishRetry p =>
    unfold onTimer
    split
    · exact .refl _ s
    · exact gains_onPublishRetry s p
  | _ => exact gains_apart does (by simp [timerTopics])

theorem gains_onInvoke (callable : c.callable = true) (s : Sys) (call : Invocation Handler) :
    (publishAccount c).Gains ((publishAccount c).scale.entry (.invoke call)) s (s.onInvoke call) := by
  have does := does_onInvoke s call
  cases call with
  | connect h ec =>
    cases h with
    | connect attempt => exact gains_onConnect s attempt ec
    | _ => exact .refl _ s
  | write serial h ec =>
    cases h with
    | publish0 cb topic => exact gains_tellPublish callable s cb ec.isNone topic 0 0
    | publish p =>
      change (publishAccount c).Gains 0 s (if ec.isSome then s.push [.finishPublishFailure p]
        else s.armPublishRetryTimer p)
      split
      · exact gains_call (k := .finishPublishFailure p) rfl nofun
      · exact gains_armPublishRetryTimer s p
    | _ => exact gains_apart does (by simp [invocationTopics])
  | _ => exact gains_apart does (by simp [invocationTopics])

theorem untold_exec {p : UInt16} {entry : StackEntry Handler Work} {rest : List (StackEntry Handler Work)}
    (callable : c.callable = true) (front : s.net.stack = entry :: rest) (orderly : s.Orderly .exec)
    (reports : s.reportee .exec = some p) : Untold c (s.goesOn rest) p := by
  intro e found own
  have once := orderly.1
  simp only [repeats, reports, Option.any_some, answered, front, List.tail_cons, Bool.and_eq_false_iff] at once
  refine once.resolve_left ?_
  have held : s.pendingPublishes.find? p = some e := found
  simp [held, own, callable]

theorem untold_call {p : UInt16} {d : Call} (callable : c.callable = true) (orderly : s.Orderly (.call d))
    (reports : s.reportee (.call d) = some p) : Untold c s p := by
  intro e found own
  have once := orderly.1
  simp only [repeats, reports, Option.any_some, answered, Bool.and_eq_false_iff] at once
  refine once.resolve_left ?_
  simp [found, own, callable]

theorem gains_called (callable : c.callable = true) {d : Call} (orderly : s.Orderly (.call d)) :
    (publishAccount c).Gains 0 s (s.call d) ∨ ∃ topic payload qos able, d = .asyncPublish topic payload qos able := by
  have does := does_call s d
  cases d with
  | asyncPublish topic payload qos able => exact .inr ⟨topic, payload, qos, able, rfl⟩
  | asyncConnect callback => exact .inl (gains_asyncConnect s callback)
  | handlePuback data => exact .inl (gains_handlePuback callable data (untold_call callable orderly rfl))
  | handlePubcomp data => exact .inl (gains_handlePubcomp callable data (untold_call callable orderly rfl))
  | handlePacket data =>
    refine .inl (gains_handlePacket callable s.attempts data fun p acked => untold_call callable orderly ?_)
    have same : s.deed (.call (.handlePacket data)) = packetDeed data := rfl
    rcases acked with acked | acked <;> simp [reportee, same, acked]
  | _ => exact .inl (gains_apart does (by simp [callTopics]))

/-- The callback that the user gives away is held by the task. -/
theorem asyncPublish_asks (s : Sys) (topic payload : Bytes) (qos : UInt8) (able : Bool) :
    (publishAccount c).total (s.asyncPublish topic payload qos able) =
        (publishAccount c).total s + Callback.share { id := s.nextCallback, callable := able } c ∧
      (publishAccount c).given (s.asyncPublish topic payload qos able) =
        (publishAccount c).given s + Callback.share { id := s.nextCallback, callable := able } c := by
  let cb : Callback := { id := s.nextCallback, callable := able }
  let u : Sys := { s with nextCallback := s.nextCallback + 1 }.record (.publishCalled cb)
  have posted : (publishAccount c).Gains (cb.share c) u (u.post (.asyncPublishImpl topic payload qos cb)) :=
    gains_post (A := publishAccount c) u (.asyncPublishImpl topic payload qos cb)
  have given : (publishAccount c).given u = (publishAccount c).given s + cb.share c := by
    change (Event.publishCalled cb :: s.log).countP _ = _
    rw [List.countP_cons]
    simp [publishAccount, Account.given, Callback.share]
  have total : (publishAccount c).total u = (publishAccount c).total s := by
    unfold Account.total
    change s.net.holds _ + (publishAccount c).owing s + (Event.publishCalled cb :: s.log).countP _ = _
    rw [List.countP_cons_of_neg (by simp [publishAccount, Event.answers])]
  exact ⟨posted.total.trans (congrArg (· + _) total), posted.given.trans given⟩

theorem gains_subscribeEach (s : Sys) (p : UInt16) : (publishAccount c).Gains 0 s (s.subscribeEach p) := by
  unfold subscribeEach
  split
  · exact gains_of_net rfl rfl rfl rfl rfl
  · exact gains_turn rfl (fun _ => rfl) s

theorem gains_subscribeFilters (s : Sys) (p : UInt16) (cb : Callback) (rest : List (Bytes × UInt8)) :
    (publishAccount c).Gains 0 s (s.subscribeFilters p cb rest) := by
  unfold subscribeFilters
  split
  · split
    · have told : ∀ (v : Sys) topic, (publishAccount c).Gains 0 v (v.tellSubscribe cb false topic 0) := by
        intro v topic
        have does : Does [.subscribe] v (v.tellSubscribe cb false topic 0) := does_tellSubscribe v _ _ _ _ (.head _)
        exact gains_apart does (by decide)
      exact (gains_turn rfl (fun _ => rfl) s).after (told _ _)
    · split <;> exact gains_turn rfl (fun _ => rfl) s
  · exact gains_of_net rfl rfl rfl rfl rfl

theorem gains_work (callable : c.callable = true) {k : Work} {rest : List (StackEntry Handler Work)}
    (posting : s.Posting) (orderly : s.Orderly .exec) (front : s.net.stack = .own k :: rest) :
    Lapses s ((s.goesOn rest).execute k) ∨ (publishAccount c).Gains 0 s ((s.goesOn rest).execute k) := by
  have does := does_execute (s.goesOn rest) k
  -- the frame is taken off, and the code adds what the frame counted for
  have one : (∀ p, k.answered p = false) → (publishAccount c).Gains ((publishAccount c).scale.work k) (s.goesOn rest)
      ((s.goesOn rest).execute k) → Lapses s ((s.goesOn rest).execute k) ∨
        (publishAccount c).Gains 0 s ((s.goesOn rest).execute k) := by
    intro stays gains
    refine .inr ⟨?_, gains.given⟩
    rw [gains.total, total_goesOn front fun j own => Option.some.inj own ▸ stays]
    rfl
  have lapse : k.topic = some .loop → (s.goesOn rest).execute k = (s.goesOn rest).crash ∨
      (publishAccount c).Gains 0 s ((s.goesOn rest).execute k) → Lapses s ((s.goesOn rest).execute k) ∨
        (publishAccount c).Gains 0 s ((s.goesOn rest).execute k) := fun loop =>
    Or.imp_left fun same => ⟨k, rest, front, loop, same⟩
  cases k with
  | asyncPublishImpl topic payload qos cb =>
    refine one (fun _ => rfl) (gains_asyncPublishImpl callable (fun p => ?_) topic payload qos cb)
    have alone :=
      posting.alone (.asyncPublishImpl topic payload qos cb) (by rw [goesOn_running front]; exact .head _) rfl
    obtain ⟨-, rfl⟩ := List.cons.inj (front.symm.trans alone)
    rfl
  | timer h ec => exact one (fun _ => rfl) (gains_onTimer _ h ec)
  | handlePacket attempt data =>
    refine one (fun _ => rfl) (gains_handlePacket callable attempt data fun p acked =>
      untold_exec callable front orderly ?_)
    have same : s.deed .exec = packetDeed data := by simp [deed, front]
    rcases acked with acked | acked <;> simp [reportee, same, acked]
  | notifyClosedOnce => exact one (fun _ => rfl) (gains_notifyClosedOnce _)
  | publishEach p =>
    exact lapse rfl
      (gains_publishEach callable front (untold_exec callable front orderly (by simp [reportee, deed, front])))
  | publishCancel p => exact lapse rfl (gains_publishCancel front)
  | publishClear => exact .inr (gains_publishClear front)
  | subscribeEach p => exact one (fun _ => rfl) (gains_subscribeEach _ p)
  | subscribeFilters p cb filters => exact one (fun _ => rfl) (gains_subscribeFilters _ p cb filters)
  | finishPublishFailure p =>
    exact one (fun _ => rfl) (gains_finishPublishFailure callable
      (untold_exec callable front orderly (by simp [reportee, deed, front])))
  | reportPublish cb topic qos => exact one (fun _ => rfl) (gains_tellPublish callable _ cb false topic qos 0)
  | reportConnect ok rc => exact one (fun _ => rfl) (gains_reportConnect _ ok rc)
  | _ => exact one (fun _ => rfl) (gains_apart does (by simp [workTopics]))

theorem lost_none (callable : c.callable = true) {a : Action} (orderly : s.Orderly a) :
    (publishAccount c).lost s a = 0 := by
  have kept := orderly.2
  unfold forfeits at kept
  unfold Account.lost
  cases flying : s.displaced a with
  | none => rfl
  | some item =>
    rw [flying, Option.any_some] at kept
    rw [Option.toList_some, Scale.items_cons, Scale.items_nil, Nat.add_zero, Scale.item]
    cases handler : item.handler with
    | none => rfl
    | some h =>
      rw [handler] at kept
      cases h with
      | publish0 cb topic =>
        refine Callback.share_other fun own => ?_
        rw [own] at kept
        exact absurd (kept.symm.trans callable) nofun
      | _ => rfl

/-- In every step but a call of `async_publish`, what a callback counts for stays the same. -/
theorem balance_step {a : Action} (callable : c.callable = true) (posting : s.Posting) (orderly : s.Orderly a)
    (taken : s.step a = some t) : Lapses s t ∨ (publishAccount c).Gains 0 s t ∨
      ∃ topic payload qos able, a = .call (.asyncPublish topic payload qos able) ∧
        t = s.asyncPublish topic payload qos able := by
  have bare : s.Bare a t → (publishAccount c).Gains 0 s t := by
    intro bare
    obtain ⟨total, given⟩ := total_bare (A := publishAccount c) posting bare
    rw [lost_none callable orderly] at total
    exact ⟨total, given⟩
  cases (steps taken).2 with
  | run n ran => exact .inr (.inl (bare (.run n ran)))
  | work k rest front busy => exact (gains_work callable posting orderly front).imp_right .inl
  | invoke call rest front =>
    refine .inr (.inl ?_)
    let u : Sys := { s with net := (s.goesOn rest).net.recordCall call }
    have gains : (publishAccount c).Gains _ u (u.onInvoke call) := gains_onInvoke callable u call
    have taken : (publishAccount c).total u = (publishAccount c).total (s.goesOn rest) := by cases call <;> rfl
    have popped := total_goesOn (A := publishAccount c) front nofun
    refine ⟨?_, gains.given⟩
    rw [gains.total, taken, popped]
    rfl
  | afterWrite ec rest front => exact .inr (.inl (bare (.afterWrite ec rest front)))
  | closeHandler rest front => exact .inr (.inl (bare (.closeHandler rest front)))
  | ret rest front =>
    have popped := total_goesOn (A := publishAccount c) front fun j own p => Option.some.inj own ▸ rfl
    exact .inr (.inl ⟨popped.symm, rfl⟩)
  | call d allowed =>
    rcases gains_called callable orderly with gains | ⟨topic, payload, qos, able, rfl⟩
    · exact .inr (.inl gains)
    · exact .inr (.inr ⟨topic, payload, qos, able, rfl, rfl⟩)
  | kernel event n moved => exact .inr (.inl (bare (.kernel event n moved)))
  | expire index w waiting due => exact .inr (.inl (bare (.expire index w waiting due)))
  | advance ms => exact .inr (.inl (bare (.advance ms)))

/-! ### Every run -/

/-- What counts for a callback is in one of its places. -/
theorem holds_of_counts (posting : s.Posting)
    (counts : 0 < s.net.holds (publishAccount c).scale + (publishAccount c).owing s) : s.HoldsPublish c := by
  have own : ∀ {cb : Callback}, 0 < cb.share c → cb = c := by
    intro cb positive
    by_contra other
    rw [Callback.share_other other] at positive
    exact absurd positive (Nat.lt_irrefl 0)
  have written : ∀ {i : WriteItem Handler}, (.enqueueWrite i ∈ s.net.ready ∨ .rejectWrite i ∈ s.net.ready ∨
      i ∈ s.net.writeQueue ∨ s.net.inFlight = some i) → 0 < (publishAccount c).scale.item i → s.HoldsPublish c := by
    intro i place positive
    unfold Scale.item at positive
    cases handler : i.handler with
    | none =>
      rw [handler] at positive
      exact absurd positive (Nat.lt_irrefl 0)
    | some h =>
      rw [handler] at positive
      cases h with
      | publish0 cb topic => exact .inr (.inr (.inr ⟨topic, .inl ⟨i, own positive ▸ handler, place⟩⟩))
      | _ => exact absurd positive (Nat.lt_irrefl 0)
  by_cases held : 0 < s.net.holds (publishAccount c).scale
  · rcases Net.holds_pos _ held with
      ⟨task, among, positive⟩ | ⟨e, among, positive⟩ | ⟨i, among, positive⟩ | ⟨i, flies, positive⟩
    · cases task with
      | enqueueWrite i => exact written (.inl among) positive
      | rejectWrite i => exact written (.inr (.inl among)) positive
      | own k =>
        have posted : k ∈ s.net.posted := List.mem_filterMap.mpr ⟨_, among, rfl⟩
        cases k with
        | asyncPublishImpl topic payload qos cb =>
          exact .inl ⟨topic, payload, qos, own positive ▸ List.mem_append_left _ posted⟩
        | reportPublish cb topic qos => exact absurd (posting.posted _ posted) nofun
        | _ => exact absurd positive (Nat.lt_irrefl 0)
      | _ => exact absurd positive (Nat.lt_irrefl 0)
    · cases e with
      | invoke call =>
        cases call with
        | write serial h ec =>
          cases h with
          | publish0 cb topic => exact .inr (.inr (.inr ⟨topic, .inr ⟨serial, ec, own positive ▸ among⟩⟩))
          | _ => exact absurd positive (Nat.lt_irrefl 0)
        | _ => exact absurd positive (Nat.lt_irrefl 0)
      | own k =>
        have running : k ∈ s.net.running := List.mem_filterMap.mpr ⟨_, among, rfl⟩
        cases k with
        | asyncPublishImpl topic payload qos cb =>
          exact .inl ⟨topic, payload, qos, own positive ▸ List.mem_append_right _ running⟩
        | reportPublish cb topic qos => exact .inr (.inl ⟨topic, qos, own positive ▸ running⟩)
        | _ => exact absurd positive (Nat.lt_irrefl 0)
      | _ => exact absurd positive (Nat.lt_irrefl 0)
    · exact written (.inr (.inr (.inl among))) positive
    · exact written (.inr (.inr (.inr flies))) positive
  · have owes : 0 < (publishAccount c).owing s := by omega
    rw [owing_eq] at owes
    obtain ⟨⟨p, entry⟩, among, positive⟩ := Lists.exists_pos_of_sum owes
    refine .inr (.inr (.inl ⟨p, entry, OrderedMap.find?_eq_some.mpr among, own ?_⟩))
    unfold due at positive
    split at positive
    · exact absurd positive (Nat.lt_irrefl 0)
    · exact positive

/-- A frame of a loop holds no callback. -/
theorem HoldsPublish.lapse (lapses : Lapses s t) (held : s.HoldsPublish c) : t.HoldsPublish c := by
  obtain ⟨k, rest, front, loop, rfl⟩ := lapses
  have running : ∀ j ∈ s.net.running, j.topic ≠ some .loop → j ∈ (s.goesOn rest).net.running := by
    intro j among steady
    rw [goesOn_running front] at among
    exact (List.mem_cons.mp among).resolve_left fun same => steady (same ▸ loop)
  rcases held with ⟨topic, payload, qos, among⟩ | ⟨topic, qos, among⟩ | pending | ⟨topic, item | ⟨serial, ec, among⟩⟩
  · refine .inl ⟨topic, payload, qos, ?_⟩
    rcases List.mem_append.mp among with posted | runs
    · exact List.mem_append_left _ posted
    · exact List.mem_append_right _ (running _ runs nofun)
  · exact .inr (.inl ⟨topic, qos, running _ among nofun⟩)
  · exact .inr (.inr (.inl pending))
  · exact .inr (.inr (.inr ⟨topic, .inl item⟩))
  · rw [front] at among
    exact .inr (.inr (.inr ⟨topic, .inr ⟨serial, ec, (List.mem_cons.mp among).resolve_left nofun⟩⟩))

/-- What every state of an orderly run has. -/
structure Balanced (s : Sys) : Prop where
  posting : s.Posting
  level : s.undefined = false → ∀ c : Callback,
    c.callable = true → (publishAccount c).total s = (publishAccount c).given s
  fresh : ∀ c : Callback, c.callable = true → s.nextCallback ≤ c.id → (publishAccount c).given s = 0
  single : ∀ c : Callback, c.callable = true → (publishAccount c).given s ≤ 1
  answered : ∀ c : Callback, c.callable = true → .publishCalled c ∈ s.log → s.Answered c

theorem balanced_of_level (posting : s.Posting)
    (level : ∀ c : Callback, c.callable = true → (publishAccount c).total s = (publishAccount c).given s)
    (fresh : ∀ c : Callback, c.callable = true → s.nextCallback ≤ c.id → (publishAccount c).given s = 0)
    (single : ∀ c : Callback, c.callable = true → (publishAccount c).given s ≤ 1) : s.Balanced := by
  refine ⟨posting, fun _ => level, fresh, single, fun c callable called => ?_⟩
  have asked : 0 < (publishAccount c).given s := List.countP_pos_iff.mpr ⟨_, called, decide_eq_true rfl⟩
  have one := single c callable
  have balance := level c callable
  unfold Account.total at balance
  change _ + s.log.countP (Event.answers c) = _ at balance
  refine ⟨by omega, fun silent => holds_of_counts posting ?_⟩
  omega

theorem balanced_step {a : Action} (balanced : s.Balanced) (orderly : s.Orderly a) (taken : s.step a = some t) :
    t.Balanced := by
  have posting := posting_step balanced.posting taken
  have level := balanced.level (steps taken).1
  by_cases lapses : Lapses s t
  · have held := fun c => HoldsPublish.lapse (c := c) lapses
    obtain ⟨k, rest, front, loop, rfl⟩ := lapses
    exact ⟨posting, nofun, balanced.fresh, balanced.single, fun c callable called =>
      ⟨(balanced.answered c callable called).once,
        fun silent => held c ((balanced.answered c callable called).held silent)⟩⟩
  by_cases publishes : ∃ topic payload qos able, a = .call (.asyncPublish topic payload qos able) ∧
      t = s.asyncPublish topic payload qos able
  · obtain ⟨topic, payload, qos, able, -, rfl⟩ := publishes
    have asks := fun c => asyncPublish_asks (c := c) s topic payload qos able
    refine balanced_of_level posting (fun c callable => ?_) (fun c callable later => ?_) fun c callable => ?_
    · rw [(asks c).1, (asks c).2, level c callable]
    · rw [(asks c).2, balanced.fresh c callable (Nat.le_of_succ_le later)]
      refine (Nat.zero_add _).trans (Callback.share_other fun same => ?_)
      exact absurd (congrArg Callback.id same ▸ later) (Nat.not_succ_le_self _)
    · rw [(asks c).2]
      by_cases same : ({ id := s.nextCallback, callable := able } : Callback) = c
      · rw [balanced.fresh c callable (same ▸ Nat.le_refl s.nextCallback), same, Callback.share_self]
      · rw [Callback.share_other same]
        exact balanced.single c callable
  · have gains : ∀ c : Callback, c.callable = true → (publishAccount c).Gains 0 s t := fun c callable =>
      ((balance_step callable balanced.posting orderly taken).resolve_left lapses).resolve_right publishes
    have later : s.nextCallback ≤ t.nextCallback := by
      rcases nextCallback_step taken with same | ⟨-, more⟩ <;> omega
    refine balanced_of_level posting (fun c callable => ?_) (fun c callable after => ?_) fun c callable => ?_
    · rw [(gains c callable).total, (gains c callable).given, level c callable]
      rfl
    · rw [(gains c callable).given]
      exact balanced.fresh c callable (later.trans after)
    · rw [(gains c callable).given]
      exact balanced.single c callable

/-- In every state of every orderly run, each callback given to `async_publish` was called at most once, and
is held until it is called. -/
theorem publishes_answered (actions : List Action) (orderly : Runs.Along step Orderly {} actions) :
    Runs.Throughout step (fun s => ∀ c : Callback, c.callable = true → .publishCalled c ∈ s.log → s.Answered c) {}
      actions := by
  refine Runs.throughout_of_along (I := Balanced) (fun _ _ _ => balanced_step) (fun _ => Balanced.answered)
    ⟨⟨nofun, nofun⟩, fun _ _ _ => rfl, fun _ _ _ => rfl, fun _ _ => Nat.zero_le 1, nofun⟩ orderly

/-- A publish of QoS 1 is acknowledged, and the session is closed. -/
def acknowledged : List Action :=
  opened ++ publishing 1 ++ receive 0x40 2 0 2 ++ [.ret, .exec, .run, .exec, .call .close, .exec, .run, .run,
    .exec, .exec]

theorem acknowledged_answered : Runs.Throughout step
    (fun s => ∀ c : Callback, c.callable = true → .publishCalled c ∈ s.log → s.Answered c) {} acknowledged :=
  publishes_answered acknowledged (by decide +kernel)

/-- Two publishes are pending when the read fails. The callback of the second calls `close`, which fails the
writes, and with its write the second publish once more. -/
def closedWithin : List Action :=
  opened ++ [.call (.asyncPublish [0x74] [] 1 true), .run, .exec, .run, .call (.asyncPublish [0x74] [] 1 true), .run,
    .exec, .run, .kernel (.read 0 (.error .operationAborted)), .run, .run, .exec, .exec, .exec, .ret, .exec, .exec,
    .call .close, .exec, .exec]

theorem publish_answered_twice : ¬ ∀ actions, Runs.Throughout step
    (fun s => ∀ c : Callback, c.callable = true → .publishCalled c ∈ s.log → s.Answered c) {} actions := by
  intro claimed
  have run : (Runs.exec step ({} : Sys) closedWithin).map (fun s => s.log.contains (.publishCalled ⟨1, true⟩) &&
      s.log.countP (Event.answers ⟨1, true⟩) == 2) = some true := by
    decide +kernel
  obtain ⟨s, reached, facts⟩ := Runs.exec_of_check run
  simp only [Bool.and_eq_true, List.contains_iff_mem, beq_iff_eq] at facts
  have once := (Runs.throughout_last (claimed closedWithin) reached ⟨1, true⟩ rfl facts.1).once
  omega

end Sys
end LiteMqtt
