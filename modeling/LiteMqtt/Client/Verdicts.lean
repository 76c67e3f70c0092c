import LiteMqtt.Client.Acceptance
import LiteMqtt.Client.Callbacks

/-!
# What becomes of the callback of a subscription

It is held by its posted task, by its entry of `pending_subscribes_`, or by the loop that calls it for each
filter. The write handler of the SUBSCRIBE calls it as well and leaves the entry where it is. A SUBACK with
fewer return codes than there are filters takes the entry, and nobody is called.
-/

namespace LiteMqtt

/-- The loop over `pending_subscribes_` has told the subscription with this packet id. -/
def Work.informed : Work → UInt16 → Bool
  | .subscribeEach q, p => decide (p < q)
  | .subscribeFilters q _ _, p => decide (p ≤ q)
  | .subscribeClear, _ => true
  | _, _ => false

/-- The callback of a subscription is called. -/
def Event.judges (c : Callback) : Event → Bool
  | .subscribeReport callback .. => decide (callback = c)
  | _ => false

/-- The account of the callback of a subscription. What the write handler tells was held nowhere. -/
def subscribeAccount (c : Callback) : Account where
  scale := {
    handler := fun _ => 0
    work := fun k =>
      match k with
      | .asyncSubscribeImpl _ _ callback | .reportSubscribe callback _ => callback.share c
      | .subackEach callback rest | .subscribeFilters _ callback rest => callback.share c * rest.length
      | _ => 0 }
  pending := fun _ subscribes => subscribes.entries.map fun e => (e.1, e.2.callback.share c * e.2.filters.length)
  passed := Work.informed
  asks := fun e => decide (e = .subscribeCalled c)
  tells := Event.judges c
  silent := fun e other => by cases e <;> first | exact ⟨rfl, rfl⟩ | contradiction
  weightless := fun k other => by cases k <;> first | rfl | contradiction
  foreign := fun _ _ => rfl
  loops := fun k p steady => by cases k <;> first | rfl | exact absurd rfl steady

def subackOf (data : Bytes) : Option SubackPacket :=
  match data with
  | [] => none
  | byte :: _ => if PacketType.ofUint8 (byte >>> 4) = .suback then some (.parse data) else none

namespace Sys

variable {s t u : Sys} {c : Callback}

/-- The SUBACK that the step handles. -/
def suback (s : Sys) : Action → Option SubackPacket
  | .call (.handleSuback data) => some (.parse data)
  | a => (s.dispatched a).bind subackOf

/-- A subscription with a callback waits for its SUBACK. -/
def expects (s : Sys) (p : UInt16) : Bool := (s.pendingSubscribes.find? p).any (·.callback.callable)

/-- A loop of `notify_closed_once`, other than the one that takes the step, has told the subscription. -/
def informed (s : Sys) (a : Action) (p : UInt16) : Bool :=
  match a with
  | .exec => (s.goesOn s.net.stack.tail).net.running.any (·.informed p)
  | _ => s.net.running.any (·.informed p)

/-- The SUBACK has fewer return codes than its subscription has filters, and the callback was not called. -/
def shortens (s : Sys) (a : Action) : Bool :=
  (s.suback a).any fun pkt => (s.pendingSubscribes.find? pkt.packetId).any fun entry =>
    entry.callback.callable && decide (pkt.returnCodes.length < entry.filters.length) && !s.informed a pkt.packetId

/-- The write handler of a SUBSCRIBE calls the callback. -/
def presumes (s : Sys) (a : Action) : Bool :=
  match a, s.net.stack with
  | .exec, .own (.subscribeWritten p callback (_ :: _)) :: _ => callback.callable && s.pendingSubscribes.contains p
  | _, _ => false

/-- The subscription that the step takes up to tell its callback. -/
def takenUp (s : Sys) (a : Action) : Option UInt16 :=
  match a, s.net.stack with
  | .exec, .own (.subscribeEach p) :: _ => some p
  | _, _ => (s.suback a).map (·.packetId)

/-- The step takes up a subscription that a loop has told. -/
def retells (s : Sys) (a : Action) : Bool := (s.takenUp a).any fun p => s.expects p && s.informed a p

/-- The callback is called by the SUBACK, by a loop that tells it once, or by its own task. -/
def Candid (s : Sys) (a : Action) : Prop := s.presumes a = false ∧ s.retells a = false

/-- The source reads freed memory, and nobody is told. -/
def Halts (s t : Sys) : Prop := t.undefined = true ∧ t.log = s.log

/-- The callback is held by its task, which may be running, by its pending subscription, or by the loop that
tells it. -/
def HoldsSubscribe (s : Sys) (c : Callback) : Prop :=
  (∃ topic qos, .asyncSubscribeImpl topic qos c ∈ s.net.posted ++ s.net.running) ∨
  (∃ topic, .reportSubscribe c topic ∈ s.net.running) ∨
  (∃ rest, rest ≠ [] ∧ .subackEach c rest ∈ s.net.running) ∨
  (∃ p rest, rest ≠ [] ∧ .subscribeFilters p c rest ∈ s.net.running) ∨
  ∃ p entry, s.pendingSubscribes.find? p = some entry ∧ entry.callback = c ∧ entry.filters ≠ []

end Sys

namespace Verdicts
open Sys Account

variable {s t u : Sys} {c : Callback} {p : UInt16} {rest : List (StackEntry Handler Work)}

/-- The account rises, and where the code is exact it stays level. -/
def Rises (c : Callback) (exact : Prop) (s t : Sys) : Prop :=
  ∃ n, (subscribeAccount c).Gains n s t ∧ (exact → n = 0)

theorem Rises.level {exact : Prop} (gains : (subscribeAccount c).Gains 0 s t) : Rises c exact s t :=
  ⟨0, gains, fun _ => rfl⟩

theorem Rises.mono {exact other : Prop} (rises : Rises c exact s t) (less : other → exact) : Rises c other s t := by
  obtain ⟨n, gains, zero⟩ := rises
  exact ⟨n, gains, zero ∘ less⟩

theorem share_unable {cb : Callback} (callable : c.callable = true) (unable : cb.callable = false) : cb.share c = 0 :=
  Callback.share_other fun same => absurd (unable.symm.trans ((congrArg Callback.callable same).trans callable)) nofun

/-! ### What each piece of code adds -/

theorem gains_tellSubscribe (callable : c.callable = true) (s : Sys) (cb : Callback) (ok : Bool) (topic : Bytes)
    (qos : UInt8) : (subscribeAccount c).Gains (cb.share c) s (s.tellSubscribe cb ok topic qos) := by
  unfold tellSubscribe
  by_cases calls : cb.callable = true
  · rw [if_pos calls]
    have told := (gains_record (A := subscribeAccount c) (s := s) (.subscribeReport cb ok topic qos) rfl).trans
      (gains_call (k := .user) rfl nofun)
    simpa [subscribeAccount, Event.judges, Callback.share] using told
  · rw [if_neg calls, share_unable callable (Bool.eq_false_iff.mpr calls)]
    exact .refl _ s

theorem light_of_within {e : Effect}
    (inside : e.within [.connect, .publish, .session, .packet, .settings, .crash] = true) :
    (subscribeAccount c).Light e := by
  have other : e.topic ≠ some .subscribe := Effect.topic_of_within inside (by decide)
  have steady : e.topic ≠ some .loop := Effect.topic_of_within inside (by decide)
  cases e with
  | record e => cases e <;> first | exact ⟨rfl, rfl⟩ | exact absurd rfl other
  | push k => cases k <;> first | exact ⟨rfl, fun _ => rfl⟩ | exact absurd rfl other | exact absurd rfl steady
  | post k => cases k <;> first | exact rfl | exact absurd rfl other | exact absurd rfl steady
  | write packet h => exact rfl
  | setPublishes => exact fun _ _ _ => rfl
  | setSubscribes => exact absurd rfl other
  | _ => trivial

theorem gains_apart {topics : List Topic} (does : Does topics s t)
    (few : topics ⊆ [.connect, .publish, .session, .packet, .settings, .crash]) : (subscribeAccount c).Gains 0 s t :=
  gains_does (fun _ => light_of_within) (does.mono few)

/-- What an entry counts for while the loops have told these. -/
def debt (c : Callback) (passes : UInt16 → Bool) (e : UInt16 × PendingSubscribe) : Nat :=
  if passes e.1 then 0 else e.2.callback.share c * e.2.filters.length

theorem owing_eq (s : Sys) : (subscribeAccount c).owing s =
    s.pendingSubscribes.weight (debt c ((subscribeAccount c).passes s)) := by
  unfold owing subscribeAccount
  rw [List.map_map]
  rfl

theorem owing_erase {entry : PendingSubscribe} (found : s.pendingSubscribes.find? p = some entry) :
    (subscribeAccount c).owing s = debt c ((subscribeAccount c).passes s) (p, entry) +
      (subscribeAccount c).owing { s with pendingSubscribes := s.pendingSubscribes.erase p } := by
  rw [owing_eq, OrderedMap.weight_erase found, owing_eq]
  rfl

theorem owing_of_passes (subscribes : t.pendingSubscribes = s.pendingSubscribes)
    (passes : ∀ e ∈ s.pendingSubscribes.entries,
      (subscribeAccount c).passes t e.1 = (subscribeAccount c).passes s e.1) :
    (subscribeAccount c).owing t = (subscribeAccount c).owing s := by
  rw [owing_eq, owing_eq, subscribes]
  refine OrderedMap.weight_congr fun e among => ?_
  unfold debt
  rw [passes e among]

theorem total_erase {entry : PendingSubscribe} (found : s.pendingSubscribes.find? p = some entry) :
    (subscribeAccount c).total { s with pendingSubscribes := s.pendingSubscribes.erase p } +
      debt c ((subscribeAccount c).passes s) (p, entry) = (subscribeAccount c).total s := by
  have before := owing_erase (c := c) found
  rw [total, total, before]
  change s.net.holds _ + _ + s.log.countP _ + _ = _
  omega

theorem debt_other {passes : UInt16 → Bool} {entry : PendingSubscribe} (other : entry.callback ≠ c) :
    debt c passes (p, entry) = 0 := by
  unfold debt
  rw [Callback.share_other other, Nat.zero_mul, ite_self]

theorem debt_told {passes : UInt16 → Bool} {entry : PendingSubscribe} (told : passes p = true) :
    debt c passes (p, entry) = 0 := if_pos told

theorem gains_insertSubscribe (fresh : s.pendingSubscribes.find? p = none)
    (clear : (subscribeAccount c).passes s p = false) (filters : List (Bytes × UInt8)) (cb : Callback) :
    (subscribeAccount c).Gains (cb.share c * filters.length) s (s.insertSubscribe p filters cb) := by
  let entry : PendingSubscribe := { filters, callback := cb }
  have owing : (subscribeAccount c).owing { s with pendingSubscribes := s.pendingSubscribes.insert p entry } =
      cb.share c * filters.length + (subscribeAccount c).owing s := by
    rw [owing_eq, OrderedMap.weight_insert fresh, owing_eq]
    refine congrArg (· + _) ?_
    exact if_neg (Bool.eq_false_iff.mp clear)
  have stored : (subscribeAccount c).Gains (cb.share c * filters.length) s
      { s with pendingSubscribes := s.pendingSubscribes.insert p entry } := by
    refine ⟨?_, rfl⟩
    rw [total, owing, total]
    change s.net.holds _ + _ + s.log.countP _ = _
    omega
  exact stored.trans (gains_note rfl)

theorem gains_asyncSubscribeImpl (callable : c.callable = true) (clear : ∀ p, (subscribeAccount c).passes s p = false)
    (topic : Bytes) (qos : UInt8) (cb : Callback) :
    (subscribeAccount c).Gains (cb.share c) s (s.asyncSubscribeImpl topic qos cb) := by
  unfold asyncSubscribeImpl
  split
  · exact gains_tellSubscribe callable s _ _ _ _
  split
  · exact gains_tellSubscribe callable s _ _ _ _
  have acquired : (subscribeAccount c).Gains 0 s s.acquirePacketId.1 := gains_of_net rfl rfl rfl rfl rfl
  dsimp only
  split
  · have pushed : (subscribeAccount c).Gains (cb.share c) s.acquirePacketId.1
        (s.acquirePacketId.1.push [.reportSubscribe cb topic]) :=
      gains_push (A := subscribeAccount c) (k := .reportSubscribe cb topic) fun _ => rfl
    exact acquired.after (pushed.trans (gains_call (k := .notifyClosedOnce) rfl nofun))
  · rename_i found
    have fresh : s.pendingSubscribes.find? s.acquirePacketId.2 = none := by
      have free := acquirePacketId_free found
      simp only [takenId, Bool.or_eq_false_iff, OrderedMap.contains] at free
      simpa using free.1.2
    have inserted := gains_insertSubscribe (s := s.acquirePacketId.1) (c := c) fresh (clear _) [(topic, qos)] cb
    rw [List.length_singleton, Nat.mul_one] at inserted
    exact acquired.after (inserted.trans (gains_write _ _ (.subscribe _)))

/-- No loop has told the entry of `p`, if its callback is `c`. -/
def Untold (c : Callback) (s : Sys) (p : UInt16) : Prop :=
  ∀ entry, s.pendingSubscribes.find? p = some entry → entry.callback = c → (subscribeAccount c).passes s p = false

theorem debt_untold {entry : PendingSubscribe} (found : s.pendingSubscribes.find? p = some entry)
    (untold : Untold c s p) :
    debt c ((subscribeAccount c).passes s) (p, entry) = entry.callback.share c * entry.filters.length := by
  by_cases own : entry.callback = c
  · have first := untold entry found own
    unfold debt
    rw [first, if_neg Bool.false_ne_true]
  · rw [debt_other own, Callback.share_other own, Nat.zero_mul]

theorem debt_le {passes : UInt16 → Bool} {entry : PendingSubscribe} :
    debt c passes (p, entry) ≤ entry.callback.share c * entry.filters.length := by
  unfold debt
  split
  · exact Nat.zero_le _
  · exact Nat.le_refl _

/-- The entry that a SUBACK takes out has a callback to tell for every filter, or was told. -/
theorem rises_handleSuback (callable : c.callable = true) (s : Sys) (data : Bytes)
    (enough : ∀ entry, s.pendingSubscribes.find? (SubackPacket.parse data).packetId = some entry → entry.callback = c →
      (subscribeAccount c).passes s (SubackPacket.parse data).packetId = true ∨
        entry.filters.length ≤ (SubackPacket.parse data).returnCodes.length) :
    Rises c (Untold c s (SubackPacket.parse data).packetId) s (s.handleSuback data) := by
  unfold handleSuback
  generalize SubackPacket.parse data = pkt at enough ⊢
  dsimp only
  let v := s.record (.received .suback pkt.packetId pkt.returnCodes)
  have received : (subscribeAccount c).Gains 0 s v := gains_note rfl
  split
  · exact .level received
  rename_i entry found
  have erased := total_erase (c := c) (s := v) found
  let w : Sys := { v with pendingSubscribes := v.pendingSubscribes.erase pkt.packetId }
  -- where the entry counts for nothing, taking it out changes nothing
  have dropped : debt c ((subscribeAccount c).passes v) (pkt.packetId, entry) = 0 →
      (subscribeAccount c).Gains 0 s w := by
    intro nothing
    rw [nothing] at erased
    exact received.after ⟨erased, rfl⟩
  split
  · rename_i unable
    have other : entry.callback ≠ c := fun same => by simp [same, callable] at unable
    exact .level (dropped (debt_other other))
  split
  · rename_i few
    refine .level ((dropped ?_).after (gains_call (k := .notifyClosedOnce) rfl nofun))
    by_cases own : entry.callback = c
    · exact debt_told ((enough entry found own).resolve_right (Nat.not_le.mpr few))
    · exact debt_other own
  · rename_i many
    let pairs := (entry.filters.map Prod.fst).zip pkt.returnCodes
    have each : pairs.length = entry.filters.length := by
      rw [List.length_zip, List.length_map]
      exact Nat.min_eq_left (Nat.not_lt.mp many)
    have pushed : (subscribeAccount c).Gains (entry.callback.share c * pairs.length) w
        (w.push [.subackEach entry.callback pairs]) :=
      gains_push (A := subscribeAccount c) (k := .subackEach entry.callback pairs) fun _ => rfl
    rw [each] at pushed
    have most : debt c ((subscribeAccount c).passes v) (pkt.packetId, entry) ≤
      entry.callback.share c * entry.filters.length := debt_le
    refine ⟨entry.callback.share c * entry.filters.length - debt c ((subscribeAccount c).passes v)
        (pkt.packetId, entry),
      ⟨?_, pushed.given⟩, fun untold => ?_⟩
    · have same : (subscribeAccount c).total w + debt c ((subscribeAccount c).passes v) (pkt.packetId, entry) =
          (subscribeAccount c).total s := erased.trans received.total
      rw [pushed.total]
      omega
    · rw [debt_untold (s := v) found untold, Nat.sub_self]

theorem rises_onSubscribeWritten (callable : c.callable = true) (s : Sys) (p : UInt16) (ec : ErrorCode) :
    Halts s (s.onSubscribeWritten p ec) ∨ (subscribeAccount c).Gains 0 s (s.onSubscribeWritten p ec) := by
  unfold onSubscribeWritten
  split
  · exact .inr (.refl _ s)
  rename_i entry found
  split
  · split
    · exact .inr (gains_turn rfl (fun _ => rfl) s)
    · exact .inr (.refl _ s)
  · dsimp only
    split
    · exact .inl ⟨rfl, rfl⟩
    · rename_i unable
      have other : entry.callback ≠ c := fun same => unable (same ▸ callable)
      have erased := total_erase (c := c) found
      rw [debt_other other] at erased
      exact .inr ⟨erased, rfl⟩

theorem rises_subscribeWritten (callable : c.callable = true) (s : Sys) (p : UInt16) (cb : Callback)
    (filters : List (Bytes × UInt8)) : Halts s (s.subscribeWritten p cb filters) ∨
      Rises c (filters ≠ [] → cb.callable = true → s.pendingSubscribes.contains p = false) s
        (s.subscribeWritten p cb filters) := by
  cases filters with
  | nil => exact .inr (.level (.refl _ s))
  | cons first filters =>
    unfold subscribeWritten
    dsimp only
    split
    · rename_i among
      have told :=
          (gains_turn (A := subscribeAccount c) (k := .subscribeWritten p cb filters) rfl (fun _ => rfl) s).after
        (gains_tellSubscribe callable (s.push [.subscribeWritten p cb filters]) cb true first.1 first.2)
      refine .inr ⟨_, told, fun exact => ?_⟩
      by_cases calls : cb.callable = true
      · exact absurd (among.symm.trans (exact nofun calls)) nofun
      · exact share_unable callable (Bool.eq_false_iff.mpr calls)
    · exact .inl ⟨rfl, rfl⟩

theorem gains_subackEach (callable : c.callable = true) (s : Sys) (cb : Callback) (rest : List (Bytes × UInt8)) :
    (subscribeAccount c).Gains (cb.share c * rest.length) s (s.subackEach cb rest) := by
  cases rest with
  | nil => exact .refl _ s
  | cons first rest =>
    have pushed : (subscribeAccount c).Gains (cb.share c * rest.length) s (s.push [.subackEach cb rest]) :=
      gains_push (A := subscribeAccount c) (k := .subackEach cb rest) fun _ => rfl
    exact pushed.trans (gains_tellSubscribe callable _ cb _ _ _)

/-! ### The loops of `notify_closed_once` -/

theorem gains_notifyClosedOnce (s : Sys) : (subscribeAccount c).Gains 0 s s.notifyClosedOnce := by
  unfold notifyClosedOnce
  split
  · exact .refl _ s
  let v := ({ s with closed := true }.cancelPingTimer).cancelTimer connectTimer
  have begun : (subscribeAccount c).Gains 0 s v :=
    (gains_setClosed s).after ((gains_cancelTimer _ pingTimer).after (gains_cancelTimer _ connectTimer))
  dsimp only
  split
  · exact begun.after (gains_turn rfl (fun _ => rfl) v)
  · exact begun.after (gains_turn rfl (fun _ => rfl) v)

theorem gains_publishEach (s : Sys) (p : UInt16) :
    Halts s (s.publishEach p) ∨ (subscribeAccount c).Gains 0 s (s.publishEach p) := by
  unfold publishEach
  split
  · exact .inl ⟨rfl, rfl⟩
  · rename_i entry _
    let v := s.push [.publishCancel p]
    have does : Does [.publish] v (v.tellPublish entry.callback false entry.topic entry.qos p) :=
      does_tellPublish v _ _ _ _ _ (.head _)
    exact .inr ((gains_turn rfl (fun _ => rfl) s).after (gains_apart does (by decide)))

theorem gains_publishCancel (s : Sys) (p : UInt16) :
    Halts s (s.publishCancel p) ∨ (subscribeAccount c).Gains 0 s (s.publishCancel p) := by
  unfold publishCancel
  split
  · exact .inl ⟨rfl, rfl⟩
  · split
    · exact .inr ((gains_cancelTimer s _).after (gains_turn rfl (fun _ => rfl) _))
    · exact .inr ((gains_cancelTimer s _).after (gains_turn rfl (fun _ => rfl) _))

theorem gains_publishClear (s : Sys) : (subscribeAccount c).Gains 0 s s.publishClear := by
  unfold publishClear
  let v := s.cancelTimers (s.pendingPublishes.entries.map fun e => e.2.timer)
  let w := v.cancelTimers (v.pendingPubrecs.entries.map fun e => e.2.timer)
  let x : Sys := { w with pendingPublishes := .empty, pendingPubrecs := .empty }
  have clears : Does [.publish] w x := (does_one (.setPublishes .empty) rfl).trans (does_one (.setPubrecs .empty) rfl)
  have does : Does [.publish] s x := (does_cancelTimers s _).trans ((does_cancelTimers v _).trans clears)
  refine (gains_apart does (by decide)).after ?_
  dsimp only
  split
  · rename_i first least
    refine gains_move (holds_call rfl x) (owing_of_passes rfl fun e among => ?_) rfl
    have above : first ≤ e.1 := (OrderedMap.find?_of_first? least).2 e among
    change (decide (e.1 < first) || (subscribeAccount c).passes x e.1) = _
    rw [decide_eq_false (not_lt.mpr above), Bool.false_or]
  · rename_i none
    have empty : x.pendingSubscribes.entries = [] := OrderedMap.entries_of_first?_none none
    refine gains_move (holds_call rfl x) (owing_of_passes rfl fun e among => ?_) rfl
    rw [empty] at among
    exact absurd among List.not_mem_nil

theorem rises_subscribeEach (callable : c.callable = true) (front : s.net.stack = .own (.subscribeEach p) :: rest) :
    Halts s ((s.goesOn rest).subscribeEach p) ∨
      Rises c (Untold c (s.goesOn rest) p) s ((s.goesOn rest).subscribeEach p) := by
  unfold subscribeEach
  split
  · exact .inl ⟨rfl, rfl⟩
  rename_i entry found
  refine .inr ?_
  let filters := if entry.callback.callable then entry.filters else []
  let v := (s.goesOn rest).push [.subscribeFilters p entry.callback filters]
  have weight : entry.callback.share c * filters.length = entry.callback.share c * entry.filters.length := by
    by_cases own : entry.callback = c
    · simp only [filters, own, callable, if_true]
    · rw [Callback.share_other own, Nat.zero_mul, Nat.zero_mul]
  have holds : v.net.holds (subscribeAccount c).scale =
      s.net.holds (subscribeAccount c).scale + entry.callback.share c * entry.filters.length := by
    rw [← weight, ← holds_front front rfl]
    exact Net.holds_push _ _ _
  have others : (subscribeAccount c).owing { v with pendingSubscribes := v.pendingSubscribes.erase p } =
      (subscribeAccount c).owing { s with pendingSubscribes := s.pendingSubscribes.erase p } := by
    refine owing_of_passes rfl fun e among => ?_
    have other : e.1 ≠ p := by simpa [OrderedMap.erase] using (List.mem_filter.mp among).2
    have place : decide (e.1 ≤ p) = decide (e.1 < p) :=
      decide_eq_decide.mpr ⟨fun within => lt_of_le_of_ne within other, le_of_lt⟩
    change (decide (e.1 ≤ p) || (subscribeAccount c).passes (s.goesOn rest) e.1) = (subscribeAccount c).passes s e.1
    rw [passes_front front, place]
    rfl
  have before := owing_erase (c := c) (s := s) found
  have after := owing_erase (c := c) (s := v) found
  have done : debt c ((subscribeAccount c).passes v) (p, entry) = 0 := debt_told <| by
    change (decide (p ≤ p) || (subscribeAccount c).passes (s.goesOn rest) p) = true
    rw [decide_eq_true (le_refl p), Bool.true_or]
  have most : debt c ((subscribeAccount c).passes s) (p, entry) ≤
    entry.callback.share c * entry.filters.length := debt_le
  refine ⟨entry.callback.share c * entry.filters.length - debt c ((subscribeAccount c).passes s) (p, entry),
    ⟨?_, rfl⟩, fun untold => ?_⟩
  · change (subscribeAccount c).total v = _
    rw [total, total, after, before, done, others, holds]
    change _ + _ + s.log.countP _ = _
    omega
  · have first : Untold c s p := fun e held own => by
      rw [passes_front front, untold e held own, Bool.or_false]
      exact decide_eq_false (lt_irrefl p)
    rw [debt_untold (s := s) found first, Nat.sub_self]

theorem gains_subscribeFilters (callable : c.callable = true) {cb : Callback} {filters : List (Bytes × UInt8)}
    (front : s.net.stack = .own (.subscribeFilters p cb filters) :: rest) :
    Halts s ((s.goesOn rest).subscribeFilters p cb filters) ∨
      (subscribeAccount c).Gains 0 s ((s.goesOn rest).subscribeFilters p cb filters) := by
  have popped : s.net.holds (subscribeAccount c).scale =
      (s.goesOn rest).net.holds (subscribeAccount c).scale + cb.share c * filters.length := holds_goesOn front
  unfold subscribeFilters
  split
  · refine .inr ?_
    split
    · rename_i topic qos filters
      let v := (s.goesOn rest).push [.subscribeFilters p cb filters]
      have told := gains_tellSubscribe callable v cb false topic 0
      have holds : v.net.holds (subscribeAccount c).scale =
          (s.goesOn rest).net.holds (subscribeAccount c).scale + cb.share c * filters.length := Net.holds_push _ _ _
      have owing : (subscribeAccount c).owing v = (subscribeAccount c).owing s :=
        owing_of_passes rfl fun e _ => by
          rw [passes_front front]
          rfl
      refine ⟨?_, told.given⟩
      rw [told.total, total, total, holds, owing, popped, List.length_cons, Nat.mul_succ]
      change _ + _ + s.log.countP _ + _ = _
      omega
    · have bare : (s.goesOn rest).net.holds (subscribeAccount c).scale = s.net.holds (subscribeAccount c).scale := by
        rw [popped, List.length_nil, Nat.mul_zero, Nat.add_zero]
      have goes : ∀ k : Work, k.carries = false →
          (∀ e ∈ s.pendingSubscribes.entries, k.informed e.1 = decide (e.1 ≤ p)) →
          (subscribeAccount c).Gains 0 s ((s.goesOn rest).push [k]) := by
        intro k carries place
        refine gains_move ((holds_call carries _).trans bare) (owing_of_passes rfl fun e among => ?_) rfl
        change (k.informed e.1 || (subscribeAccount c).passes (s.goesOn rest) e.1) = _
        rw [place e among, passes_front front]
        rfl
      split
      · rename_i next later
        obtain ⟨above, -, least⟩ := OrderedMap.find?_of_next? later
        refine goes _ rfl fun e among => decide_eq_decide.mpr ⟨fun before => ?_, fun before => before.trans_lt above⟩
        by_contra beyond
        exact absurd (least e among (not_le.mp beyond)) (not_le.mpr before)
      · rename_i last
        exact goes .subscribeClear rfl fun e among => (decide_eq_true (OrderedMap.next?_none last e among)).symm
  · exact .inl ⟨rfl, rfl⟩

theorem gains_subscribeClear (front : s.net.stack = .own .subscribeClear :: rest) :
    (subscribeAccount c).Gains 0 s (s.goesOn rest).subscribeClear := by
  have settled : (subscribeAccount c).owing s = 0 := by
    rw [owing_eq]
    exact OrderedMap.weight_zero fun e _ => debt_told (by rw [passes_front front]; rfl)
  let v : Sys := { s.goesOn rest with pendingSubscribes := .empty }
  have cleared : (subscribeAccount c).Gains 0 s v := gains_move (holds_front front rfl) settled.symm rfl
  exact cleared.after ((gains_call (k := .notifyClose) rfl nofun).after (gains_closeConnection _))

/-! ### Every step -/

theorem rises_handlePacket (callable : c.callable = true) (s : Sys) (attempt : Nat) (data : Bytes)
    (enough : ∀ pkt entry, subackOf data = some pkt → s.pendingSubscribes.find? pkt.packetId = some entry →
      entry.callback = c → (subscribeAccount c).passes s pkt.packetId = true ∨
        entry.filters.length ≤ pkt.returnCodes.length) :
    Rises c (∀ pkt, subackOf data = some pkt → Untold c s pkt.packetId) s (s.handlePacket attempt data) := by
  have does := does_handlePacket s attempt data
  cases data with
  | nil => exact .level (.refl _ s)
  | cons byte more =>
    unfold packetTopics at does
    unfold handlePacket at does ⊢
    unfold subackOf at enough ⊢
    dsimp only at does enough ⊢
    cases type : PacketType.ofUint8 (byte >>> 4) <;> simp only [type] at does enough ⊢
    case suback =>
      rw [if_pos trivial] at enough ⊢
      exact (rises_handleSuback callable s _ fun entry => enough _ entry rfl).mono fun untold => untold _ rfl
    all_goals exact .level (gains_apart does (by decide))

theorem untold_of_candid {a : Action} (callable : c.callable = true)
    (subscribes : u.pendingSubscribes = s.pendingSubscribes)
    (passes : ∀ p, (subscribeAccount c).passes u p = s.informed a p) (takes : s.takenUp a = some p)
    (candid : s.Candid a) : Untold c u p := by
  intro entry found own
  have once := candid.2
  simp only [retells, takes, Option.any_some, Bool.and_eq_false_iff] at once
  rw [passes]
  refine once.resolve_left ?_
  rw [expects, ← subscribes, found, Option.any_some, own, callable]
  nofun

theorem enough_of_whole {a : Action} {pkt : SubackPacket} {entry : PendingSubscribe} (callable : c.callable = true)
    (subscribes : u.pendingSubscribes = s.pendingSubscribes)
    (passes : ∀ p, (subscribeAccount c).passes u p = s.informed a p)
    (whole : s.shortens a = false) (takes : s.suback a = some pkt)
    (found : u.pendingSubscribes.find? pkt.packetId = some entry) (own : entry.callback = c) :
    (subscribeAccount c).passes u pkt.packetId = true ∨ entry.filters.length ≤ pkt.returnCodes.length := by
  have held : s.pendingSubscribes.find? pkt.packetId = some entry := subscribes ▸ found
  simp only [shortens, takes, held, Option.any_some, own, callable, Bool.true_and, Bool.and_eq_false_iff,
    decide_eq_false_iff_not, Nat.not_lt, Bool.not_eq_false'] at whole
  rw [passes]
  exact whole.symm

theorem passes_exec {e : StackEntry Handler Work} (front : s.net.stack = e :: rest) (p : UInt16) :
    (subscribeAccount c).passes (s.goesOn rest) p = s.informed .exec p := by
  unfold informed
  rw [front]
  rfl

theorem lost_none (c : Callback) (s : Sys) (a : Action) : (subscribeAccount c).lost s a = 0 := by
  unfold lost
  cases s.displaced a with
  | none => rfl
  | some item =>
    change (subscribeAccount c).scale.item item + 0 = 0
    unfold Scale.item
    cases item.handler <;> rfl

theorem rises_work (callable : c.callable = true) {k : Work} (posting : s.Posting) (whole : s.shortens .exec = false)
    (front : s.net.stack = .own k :: rest) :
    Halts s ((s.goesOn rest).execute k) ∨ Rises c (s.Candid .exec) s ((s.goesOn rest).execute k) := by
  have does := does_execute (s.goesOn rest) k
  -- the frame is taken off, and the code adds what the frame counted for and more
  have popped : (∀ p, k.informed p = false) → ∀ n t, (subscribeAccount c).Gains ((subscribeAccount c).scale.work k + n)
      (s.goesOn rest) t → (subscribeAccount c).Gains n s t := by
    intro stays n t gains
    refine ⟨?_, gains.given⟩
    rw [gains.total, total_goesOn front fun j own => Option.some.inj own ▸ stays]
    exact (Nat.add_assoc _ _ _).symm
  have level :
      (∀ p, k.informed p = false) → (subscribeAccount c).Gains ((subscribeAccount c).scale.work k) (s.goesOn rest)
      ((s.goesOn rest).execute k) → Halts s ((s.goesOn rest).execute k) ∨
        Rises c (s.Candid .exec) s ((s.goesOn rest).execute k) := fun stays gains =>
    .inr (.level (popped stays 0 _ gains))
  have light : (∀ p, k.informed p = false) → (subscribeAccount c).scale.work k = 0 →
      ∀ {exact : Prop} {t : Sys}, (s.Candid .exec → exact) → Rises c exact (s.goesOn rest) t →
        Rises c (s.Candid .exec) s t := by
    intro stays weightless exact t candid ⟨n, gains, zero⟩
    refine ⟨n, popped stays n t ?_, fun once => zero (candid once)⟩
    rw [weightless, Nat.zero_add]
    exact gains
  cases k with
  | asyncSubscribeImpl topic qos cb =>
    refine level (fun _ => rfl) (gains_asyncSubscribeImpl callable (fun p => ?_) topic qos cb)
    have alone := posting.alone (.asyncSubscribeImpl topic qos cb) (by rw [goesOn_running front]; exact .head _) rfl
    obtain ⟨-, rfl⟩ := List.cons.inj (front.symm.trans alone)
    rfl
  | handlePacket attempt data =>
    have takes : ∀ pkt, subackOf data = some pkt → s.suback .exec = some pkt := by
      intro pkt same
      simp [suback, dispatched, front, same]
    refine .inr (light (fun _ => rfl) rfl (fun candid pkt same => ?_) (rises_handlePacket callable _ attempt data
      fun pkt entry same => enough_of_whole (s := s) callable rfl (passes_exec front) whole (takes pkt same)))
    refine untold_of_candid (s := s) callable rfl (passes_exec front) ?_ candid
    simp [takenUp, front, takes pkt same]
  | notifyClosedOnce => exact level (fun _ => rfl) (gains_notifyClosedOnce _)
  | publishEach p =>
    exact (gains_publishEach (s.goesOn rest) p).imp id fun gains => .level (popped (fun _ => rfl) 0 _ gains)
  | publishCancel p =>
    exact (gains_publishCancel (s.goesOn rest) p).imp id fun gains => .level (popped (fun _ => rfl) 0 _ gains)
  | publishClear => exact level (fun _ => rfl) (gains_publishClear _)
  | subscribeEach p =>
    refine (rises_subscribeEach callable front).imp id fun rises => rises.mono fun candid => ?_
    exact untold_of_candid (s := s) callable rfl (passes_exec front) (by simp [takenUp, front]) candid
  | subscribeFilters p cb filters => exact (gains_subscribeFilters callable front).imp id .level
  | subscribeClear => exact .inr (.level (gains_subscribeClear front))
  | subackEach cb more => exact level (fun _ => rfl) (gains_subackEach callable _ cb more)
  | subscribeWritten p cb filters =>
    refine (rises_subscribeWritten callable (s.goesOn rest) p cb filters).imp id (light (fun _ => rfl) rfl ?_)
    intro candid some calls
    obtain ⟨first, more, rfl⟩ := List.exists_cons_of_ne_nil some
    have honest := candid.1
    simp only [presumes, front, calls, Bool.true_and] at honest
    exact honest
  | reportSubscribe cb topic => exact level (fun _ => rfl) (gains_tellSubscribe callable _ cb false topic 0)
  | timer h ec => exact level (fun _ => rfl) (gains_apart does (by cases h <;> simp [workTopics, timerTopics]))
  | _ => exact level (fun _ => rfl) (gains_apart does (by simp [workTopics]))

/-- In every step but a call of `async_subscribe`, what a callback counts for does not go down, and where the
client is candid it stays the same. -/
theorem rises_step {a : Action} (callable : c.callable = true) (posting : s.Posting) (whole : s.shortens a = false)
    (taken : s.step a = some t) : Halts s t ∨ Rises c (s.Candid a) s t ∨
      ∃ topic qos able, a = .call (.asyncSubscribe topic qos able) ∧ t = s.asyncSubscribe topic qos able := by
  have bare : s.Bare a t → Rises c (s.Candid a) s t := by
    intro bare
    obtain ⟨total, given⟩ := total_bare (A := subscribeAccount c) posting bare
    rw [lost_none] at total
    exact .level ⟨total, given⟩
  cases (steps taken).2 with
  | run n ran => exact .inr (.inl (bare (.run n ran)))
  | work k rest front busy => exact (rises_work callable posting whole front).imp id .inl
  | invoke call rest front =>
    let u : Sys := { s with net := (s.goesOn rest).net.recordCall call }
    have same : (subscribeAccount c).Gains 0 s u := by
      have popped := total_goesOn (A := subscribeAccount c) front nofun
      have weightless : (subscribeAccount c).scale.entry (.invoke call) = 0 := by cases call <;> rfl
      rw [weightless] at popped
      cases call <;> exact ⟨popped.symm, rfl⟩
    have does := does_onInvoke u call
    have done : Halts u (u.onInvoke call) ∨ (subscribeAccount c).Gains 0 u (u.onInvoke call) := by
      cases call with
      | write serial h ec =>
        cases h with
        | subscribe p => exact rises_onSubscribeWritten callable u p ec
        | _ => exact .inr (gains_apart does (by simp [invocationTopics]))
      | _ => exact .inr (gains_apart does (by simp [invocationTopics]))
    exact done.imp id fun gains => .inl (.level (same.after gains))
  | afterWrite ec rest front => exact .inr (.inl (bare (.afterWrite ec rest front)))
  | closeHandler rest front => exact .inr (.inl (bare (.closeHandler rest front)))
  | ret rest front =>
    have popped := total_goesOn (A := subscribeAccount c) front fun j own p => Option.some.inj own ▸ rfl
    exact .inr (.inl (.level ⟨popped.symm, rfl⟩))
  | call d allowed =>
    have does := does_call s d
    have passes : ∀ p, (subscribeAccount c).passes s p = s.informed (.call d) p := fun _ => rfl
    cases d with
    | asyncSubscribe topic qos able => exact .inr (.inr ⟨topic, qos, able, rfl, rfl⟩)
    | handleSuback data =>
      refine .inr (.inl ((rises_handleSuback callable s data fun entry => ?_).mono fun candid => ?_))
      · exact enough_of_whole callable rfl passes whole rfl
      · exact untold_of_candid callable rfl passes rfl candid
    | handlePacket data =>
      refine .inr (.inl ((rises_handlePacket callable s s.attempts data fun pkt entry same => ?_).mono
        fun candid pkt same => ?_))
      · exact enough_of_whole callable rfl passes whole same
      · exact untold_of_candid callable rfl passes (congrArg (Option.map _) same) candid
    | _ => exact .inr (.inl (.level (gains_apart does (by simp [callTopics]))))
  | kernel event n moved => exact .inr (.inl (bare (.kernel event n moved)))
  | expire index w waiting due => exact .inr (.inl (bare (.expire index w waiting due)))
  | advance ms => exact .inr (.inl (bare (.advance ms)))

theorem asyncSubscribe_asks (c : Callback) (s : Sys) (topic : Bytes) (qos : UInt8) (able : Bool) :
    (subscribeAccount c).total (s.asyncSubscribe topic qos able) =
        (subscribeAccount c).total s + Callback.share { id := s.nextCallback, callable := able } c ∧
      (subscribeAccount c).given (s.asyncSubscribe topic qos able) =
        (subscribeAccount c).given s + Callback.share { id := s.nextCallback, callable := able } c := by
  let cb : Callback := { id := s.nextCallback, callable := able }
  let u : Sys := { s with nextCallback := s.nextCallback + 1 }.record (.subscribeCalled cb)
  have posted : (subscribeAccount c).Gains (cb.share c) u (u.post (.asyncSubscribeImpl topic qos cb)) :=
    gains_post (A := subscribeAccount c) u (.asyncSubscribeImpl topic qos cb)
  have given : (subscribeAccount c).given u = (subscribeAccount c).given s + cb.share c := by
    change (Event.subscribeCalled cb :: s.log).countP _ = _
    rw [List.countP_cons]
    simp [subscribeAccount, Account.given, Callback.share]
  have total : (subscribeAccount c).total u = (subscribeAccount c).total s := by
    unfold Account.total
    change s.net.holds _ + (subscribeAccount c).owing s + (Event.subscribeCalled cb :: s.log).countP _ = _
    rw [List.countP_cons_of_neg (by simp [subscribeAccount, Event.judges])]
  exact ⟨posted.total.trans (congrArg (· + _) total), posted.given.trans given⟩

/-! ### Where a callback is -/

theorem holds_of_counts (posting : s.Posting)
    (counts : 0 < s.net.holds (subscribeAccount c).scale + (subscribeAccount c).owing s) : s.HoldsSubscribe c := by
  have own : ∀ {cb : Callback}, 0 < cb.share c → cb = c := by
    intro cb positive
    by_contra other
    rw [Callback.share_other other] at positive
    exact absurd positive (Nat.lt_irrefl 0)
  have some : ∀ {cb : Callback} {filters : List (Bytes × UInt8)}, 0 < cb.share c * filters.length →
      cb = c ∧ filters ≠ [] := by
    intro cb filters positive
    exact ⟨own (Nat.pos_of_mul_pos_right positive), List.ne_nil_of_length_pos (Nat.pos_of_mul_pos_left positive)⟩
  have unwritten : ∀ i : WriteItem Handler, ¬ 0 < (subscribeAccount c).scale.item i := by
    intro i positive
    unfold Scale.item at positive
    cases handler : i.handler <;> rw [handler] at positive <;> exact absurd positive (Nat.lt_irrefl 0)
  by_cases held : 0 < s.net.holds (subscribeAccount c).scale
  · rcases Net.holds_pos _ held with
      ⟨task, among, positive⟩ | ⟨e, among, positive⟩ | ⟨i, -, positive⟩ | ⟨i, -, positive⟩
    · cases task with
      | enqueueWrite i => exact absurd positive (unwritten i)
      | rejectWrite i => exact absurd positive (unwritten i)
      | own k =>
        have posted : k ∈ s.net.posted := List.mem_filterMap.mpr ⟨_, among, rfl⟩
        have only := posting.posted k posted
        cases k with
        | asyncSubscribeImpl topic qos cb => exact .inl ⟨topic, qos, own positive ▸ List.mem_append_left _ posted⟩
        | asyncPublishImpl | timer => exact absurd positive (Nat.lt_irrefl 0)
        | _ => exact absurd only nofun
      | _ => exact absurd positive (Nat.lt_irrefl 0)
    · cases e with
      | own k =>
        have running : k ∈ s.net.running := List.mem_filterMap.mpr ⟨_, among, rfl⟩
        cases k with
        | asyncSubscribeImpl topic qos cb => exact .inl ⟨topic, qos, own positive ▸ List.mem_append_right _ running⟩
        | reportSubscribe cb topic => exact .inr (.inl ⟨topic, own positive ▸ running⟩)
        | subackEach cb more =>
          obtain ⟨rfl, left⟩ := some positive
          exact .inr (.inr (.inl ⟨more, left, running⟩))
        | subscribeFilters p cb filters =>
          obtain ⟨rfl, left⟩ := some positive
          exact .inr (.inr (.inr (.inl ⟨p, filters, left, running⟩)))
        | _ => exact absurd positive (Nat.lt_irrefl 0)
      | invoke call => cases call <;> exact absurd positive (Nat.lt_irrefl 0)
      | _ => exact absurd positive (Nat.lt_irrefl 0)
    · exact absurd positive (unwritten i)
    · exact absurd positive (unwritten i)
  · have owes : 0 < (subscribeAccount c).owing s := by omega
    rw [owing_eq] at owes
    obtain ⟨⟨p, entry⟩, among, positive⟩ := Lists.exists_pos_of_sum owes
    have counted : 0 < entry.callback.share c * entry.filters.length := positive.trans_le debt_le
    obtain ⟨same, left⟩ := some counted
    exact .inr (.inr (.inr (.inr ⟨p, entry, OrderedMap.find?_eq_some.mpr among, same, left⟩)))

end Verdicts
end LiteMqtt
