import LiteMqtt.Client.Allocation

/-!
# Packet ids come round

`next_packet_id_` only moves on, and it passes no id that was free. An id that was let go comes into use again after
every other id was tried, so an acknowledgement that comes late finds the id unused for as long as can be.
-/

namespace LiteMqtt

namespace Ids

variable {i j k : Ids}

/-- Exchanges end or are updated, and the counter stays. -/
structure Shrinks (i j : Ids) : Prop where
  next : j.next = i.next
  publishes : ∀ p, j.publishes.contains p = true → i.publishes.contains p = true
  subscribes : ∀ p, j.subscribes.contains p = true → i.subscribes.contains p = true
  pubrecs : ∀ p, j.pubrecs.contains p = true → i.pubrecs.contains p = true ∨ i.publishes.contains p = true

theorem Shrinks.of_same (same : j = i) : Shrinks i j := same ▸ ⟨rfl, fun _ => id, fun _ => id, fun _ => .inl⟩

theorem Shrinks.trans (first : Shrinks i j) (later : Shrinks j k) : Shrinks i k := by
  refine ⟨later.next.trans first.next, fun p held => first.publishes p (later.publishes p held),
    fun p held => first.subscribes p (later.subscribes p held), fun p held => ?_⟩
  rcases later.pubrecs p held with recorded | published
  · exact first.pubrecs p recorded
  · exact .inr (first.publishes p published)

theorem Shrinks.taken (shrinks : Shrinks i j) {p : UInt16} (held : j.taken p = true) : i.taken p = true := by
  simp only [Ids.taken, Bool.or_eq_true] at held ⊢
  rcases held with (published | subscribed) | recorded
  · exact .inl (.inl (shrinks.publishes p published))
  · exact .inl (.inr (shrinks.subscribes p subscribed))
  · exact (shrinks.pubrecs p recorded).elim .inr fun published => .inl (.inl published)

theorem shrinks_erasePublish (i : Ids) (p : UInt16) : Shrinks i { i with publishes := i.publishes.erase p } :=
  ⟨rfl, fun _ held => ((OrderedMap.contains_erase _ _ _).mp held).2, fun _ => id, fun _ => .inl⟩

theorem shrinks_eraseSubscribe (i : Ids) (p : UInt16) : Shrinks i { i with subscribes := i.subscribes.erase p } :=
  ⟨rfl, fun _ => id, fun _ held => ((OrderedMap.contains_erase _ _ _).mp held).2, fun _ => .inl⟩

theorem shrinks_erasePubrec (i : Ids) (p : UInt16) : Shrinks i { i with pubrecs := i.pubrecs.erase p } :=
  ⟨rfl, fun _ => id, fun _ => id, fun _ held => .inl ((OrderedMap.contains_erase _ _ _).mp held).2⟩

end Ids

namespace Sys

variable {s t : Sys}

/-! ### Code that takes no packet id -/

/-- From `s` to `t` no packet id comes into use. -/
def Shrinks (s t : Sys) : Prop := s.ids.Shrinks t.ids

theorem shrinks_of_same (same : t.ids = s.ids) : Shrinks s t := Ids.Shrinks.of_same same

theorem Shrinks.then_same {u : Sys} (shrinks : Shrinks s t) (same : u.ids = t.ids) : Shrinks s u :=
  Ids.Shrinks.trans shrinks (.of_same same)

theorem shrinks_erased (s : Sys) (p : UInt16) : Shrinks s (s.erasePubrec p) := by
  unfold erasePubrec
  split
  · exact shrinks_of_same rfl
  · exact s.ids.shrinks_erasePubrec p

theorem shrinks_finishPublishSuccess (s : Sys) (p : UInt16) : Shrinks s (s.finishPublishSuccess p) := by
  unfold finishPublishSuccess
  split
  · exact shrinks_of_same rfl
  · refine Ids.Shrinks.trans (.of_same (ids_cancelPublishRetryTimer s p)) ?_
    exact Ids.Shrinks.trans (Ids.shrinks_erasePublish _ p) (.of_same (ids_tellPublish _ _ _ _ _ _))

theorem shrinks_finishPublishFailure (s : Sys) (p : UInt16) : Shrinks s (s.finishPublishFailure p) := by
  unfold finishPublishFailure
  split
  · exact shrinks_of_same rfl
  · refine Ids.Shrinks.trans (.of_same (ids_cancelPublishRetryTimer s p)) ?_
    exact Ids.Shrinks.trans (Ids.shrinks_erasePublish _ p) (.of_same (ids_tellPublish _ _ _ _ _ _))

theorem shrinks_onPublishRetry (s : Sys) (p : UInt16) : Shrinks s (s.onPublishRetry p) := by
  unfold onPublishRetry
  split
  · exact shrinks_of_same rfl
  · rename_i entry held
    split
    · exact shrinks_of_same rfl
    · have updated : Shrinks s { s with
          pendingPublishes := s.pendingPublishes.insert p { entry with attempts := entry.attempts + 1 } } :=
        ⟨rfl, fun _ => contains_update held, fun _ => id, fun _ => .inl⟩
      exact updated.then_same (ids_sendPublishEntry _ p)

theorem shrinks_onPubrecRetry (s : Sys) (p : UInt16) : Shrinks s (s.onPubrecRetry p) := by
  unfold onPubrecRetry
  split
  · exact shrinks_of_same rfl
  · rename_i entry held
    split
    · exact shrinks_of_same rfl
    · have updated : Shrinks s { s with
          pendingPubrecs := s.pendingPubrecs.insert p { entry with attempts := entry.attempts + 1 } } :=
        ⟨rfl, fun _ => id, fun _ => id, fun _ found => .inl (contains_update held found)⟩
      exact updated.then_same (ids_sendPubrel _ p)

/-- The id of a PUBREL is that of its publish. -/
theorem shrinks_handlePubrec (s : Sys) (data : Bytes) : Shrinks s (s.handlePubrec data) := by
  unfold handlePubrec
  dsimp only
  split
  · rename_i held
    let v := s.record (.received .pubrec (PubrecPacket.parse data).packetId [])
    have cancelled := ids_cancelPublishRetryTimer v (PubrecPacket.parse data).packetId
    have inserted : ∀ (w : Sys) (p : UInt16), w.ids = s.ids → s.pendingPublishes.contains p = true →
        Shrinks s (w.insertPubrec p) := by
      intro w p same published
      have recorded : ∀ entry, (s.ids.Shrinks { w.ids with pubrecs := w.ids.pubrecs.insert p entry }) := by
        intro entry
        rw [same]
        refine ⟨rfl, fun _ => id, fun _ => id, fun q found => ?_⟩
        rcases (OrderedMap.contains_insert _ _ _ _).mp found with rfl | before
        · exact .inr published
        · exact .inl before
      unfold insertPubrec
      split <;> exact recorded _
    exact (inserted _ _ cancelled held).then_same (ids_sendPubrel _ _)
  · exact shrinks_of_same rfl

theorem shrinks_handlePubcomp (s : Sys) (data : Bytes) : Shrinks s (s.handlePubcomp data) :=
  Ids.Shrinks.trans (shrinks_erased (s.record _) _) (shrinks_finishPublishSuccess _ _)

theorem shrinks_publishClear (s : Sys) : Shrinks s s.publishClear := by
  have cancelled : ∀ first later, ((s.cancelTimers first).cancelTimers later).ids = s.ids := by simp
  have cleared :
      ∀ v : Sys, v.ids = s.ids → Shrinks s { v with pendingPublishes := .empty, pendingPubrecs := .empty } := by
    intro v same
    have none : ∀ {V : Type} (p : UInt16), (OrderedMap.empty : OrderedMap UInt16 V).contains p = true → False := by
      intro V p found
      simp [OrderedMap.contains, OrderedMap.find?_empty] at found
    refine ⟨show v.ids.next = s.ids.next from congrArg Ids.next same, fun p found => (none p found).elim,
      fun p held => ?_, fun p found => (none p found).elim⟩
    exact (congrArg (fun i : Ids => i.subscribes.contains p) same) ▸ held
  unfold publishClear
  dsimp only
  split <;> exact (cleared _ (cancelled _ _)).then_same rfl

theorem shrinks_subscribeClear (s : Sys) : Shrinks s s.subscribeClear := by
  have cleared : Shrinks s { s with pendingSubscribes := .empty } := by
    refine ⟨rfl, fun _ => id, fun p found => ?_, fun _ => .inl⟩
    simp [ids, OrderedMap.contains, OrderedMap.find?_empty] at found
  exact cleared.then_same (ids_closeConnection _)

theorem shrinks_handleSuback (s : Sys) (data : Bytes) : Shrinks s (s.handleSuback data) := by
  unfold handleSuback
  dsimp only
  split
  · exact shrinks_of_same rfl
  · have erased :
        Shrinks s { s with pendingSubscribes := s.pendingSubscribes.erase (SubackPacket.parse data).packetId } :=
      s.ids.shrinks_eraseSubscribe _
    split
    · exact erased.then_same rfl
    · split <;> exact erased.then_same rfl

theorem shrinks_onSubscribeWritten (s : Sys) (p : UInt16) (ec : ErrorCode) : Shrinks s (s.onSubscribeWritten p ec) := by
  unfold onSubscribeWritten
  split
  · exact shrinks_of_same rfl
  · split
    · split <;> exact shrinks_of_same rfl
    · have erased : Shrinks s { s with pendingSubscribes := s.pendingSubscribes.erase p } :=
        s.ids.shrinks_eraseSubscribe p
      dsimp only
      split <;> exact erased.then_same rfl

theorem shrinks_onTimer (s : Sys) (h : TimerHandler) (ec : ErrorCode) : Shrinks s (s.onTimer h ec) := by
  unfold onTimer
  split
  · exact shrinks_of_same rfl
  · cases h with
    | connectTimeout => exact shrinks_of_same (ids_handleConnectTimeout s)
    | publishRetry p => exact shrinks_onPublishRetry s p
    | pubrecRetry p => exact shrinks_onPubrecRetry s p
    | _ => exact shrinks_of_same rfl

theorem shrinks_handlePacket (s : Sys) (attempt : Nat) (data : Bytes) : Shrinks s (s.handlePacket attempt data) := by
  unfold handlePacket
  split
  · exact shrinks_of_same rfl
  · split
    · exact shrinks_of_same (ids_handleConnack s _)
    · exact shrinks_of_same (ids_handlePublish s _)
    · exact shrinks_handleSuback s _
    · exact shrinks_finishPublishSuccess (s.record _) _
    · exact shrinks_handlePubrec s _
    · exact shrinks_of_same rfl
    · exact shrinks_handlePubcomp s _
    · exact shrinks_of_same (ids_schedulePingreq _ attempt)
    · exact shrinks_of_same rfl

/-- Only the two `_impl` functions take packet ids. -/
theorem shrinks_execute (s : Sys) {k : Work}
    (publish : ∀ topic payload qos cb, k ≠ .asyncPublishImpl topic payload qos cb)
    (subscribe : ∀ topic qos cb, k ≠ .asyncSubscribeImpl topic qos cb) : Shrinks s (s.execute k) := by
  cases k with
  | asyncPublishImpl topic payload qos cb => exact absurd rfl (publish topic payload qos cb)
  | asyncSubscribeImpl topic qos cb => exact absurd rfl (subscribe topic qos cb)
  | timer h ec => exact shrinks_onTimer s h ec
  | handlePacket attempt data => exact shrinks_handlePacket s attempt data
  | acknowledge qos p => exact shrinks_of_same (ids_acknowledge s qos p)
  | notifyClosedOnce => exact shrinks_of_same (ids_notifyClosedOnce s)
  | publishEach p => exact shrinks_of_same (ids_publishEach s p)
  | publishCancel p => exact shrinks_of_same (ids_publishCancel s p)
  | publishClear => exact shrinks_publishClear s
  | subscribeEach p => exact shrinks_of_same (ids_subscribeEach s p)
  | subscribeFilters p cb rest => exact shrinks_of_same (ids_subscribeFilters s p cb rest)
  | subscribeClear => exact shrinks_subscribeClear s
  | notifyClose => exact shrinks_of_same (ids_notifyClose s)
  | finishPublishFailure p => exact shrinks_finishPublishFailure s p
  | subackEach cb rest => exact shrinks_of_same (ids_subackEach s cb rest)
  | subscribeWritten p cb rest => exact shrinks_of_same (ids_subscribeWritten s p cb rest)
  | reportConnect ok rc => exact shrinks_of_same (ids_reportConnect s ok rc)
  | reportPublish cb topic qos => exact shrinks_of_same (ids_tellPublish s _ _ _ _ _)
  | reportSubscribe cb topic => exact shrinks_of_same (ids_tellSubscribe s _ _ _ _)
  | user | startReadLoop | onClosed => exact shrinks_of_same rfl

theorem shrinks_onWritten (s : Sys) (h : Handler) (ec : ErrorCode) : Shrinks s (s.onWritten h ec) := by
  unfold onWritten
  split
  · unfold onConnectWritten
    split
    · exact shrinks_of_same rfl
    · exact shrinks_of_same (ids_schedulePingreq s _)
  · exact shrinks_of_same (ids_tellPublish s _ _ _ _ _)
  · split
    · exact shrinks_of_same rfl
    · exact shrinks_of_same (ids_armPublishRetryTimer s _)
  · unfold onPubrelWritten
    split
    · exact shrinks_erased s _
    · exact shrinks_of_same (ids_armPubrecRetryTimer s _)
  · exact shrinks_onSubscribeWritten s _ ec
  · split <;> exact shrinks_of_same rfl
  · unfold onPingreqWritten
    split <;> exact shrinks_of_same rfl
  · refine shrinks_of_same ((ids_closeConnection _).trans ?_)
    split <;> rfl
  · exact shrinks_of_same rfl
  · exact shrinks_of_same rfl

theorem shrinks_onInvoke (s : Sys) (call : Invocation Handler) : Shrinks s (s.onInvoke call) := by
  unfold onInvoke
  split
  · exact shrinks_of_same (ids_onConnect s _ _)
  · unfold onRead
    split <;> exact shrinks_of_same rfl
  · exact shrinks_onWritten s _ _
  · exact shrinks_of_same rfl

theorem shrinks_call (s : Sys) (c : Call) : Shrinks s (s.call c) := by
  cases c with
  | asyncConnect callback => exact shrinks_of_same (ids_asyncConnect s callback)
  | close => exact shrinks_of_same (ids_closeConnection s)
  | handlePacket data => exact shrinks_handlePacket s s.attempts data
  | handlePuback data => exact shrinks_finishPublishSuccess (s.record _) _
  | handlePubrec data => exact shrinks_handlePubrec s data
  | handlePubcomp data => exact shrinks_handlePubcomp s data
  | handleSuback data => exact shrinks_handleSuback s data
  | handlePublish data => exact shrinks_of_same (ids_handlePublish s data)
  | _ => exact shrinks_of_same rfl

/-! ### Code that takes one -/

/-- The counter goes `k` ids on and passes only ids in use. What comes into use is the id where it ends. -/
structure Rotates (k : Nat) (s t : Sys) : Prop where
  next : t.nextPacketId = idAfter^[k] s.nextPacketId
  passed : ∀ i, 0 < i → i < k → s.takenId (idAfter^[i] s.nextPacketId) = true
  fresh : ∀ p, t.takenId p = true → s.takenId p = true ∨ 0 < k ∧ p = t.nextPacketId

theorem rotates_of_shrinks (shrinks : Shrinks s t) : Rotates 0 s t :=
  ⟨shrinks.next, fun _ positive below => absurd below (by omega), fun _ held => .inl (shrinks.taken held)⟩

theorem searches_passes {taken : UInt16 → Bool} {start next : UInt16} {result : UInt16 × Bool}
    (searches : Searches taken start next result) :
    ∃ k, 0 < k ∧ result.1 = idAfter^[k] next ∧ ∀ i, 0 < i → i < k → taken (idAfter^[i] next) = true := by
  induction searches with
  | back next same => exact ⟨1, Nat.one_pos, rfl, fun _ positive below => by omega⟩
  | free next other free => exact ⟨1, Nat.one_pos, rfl, fun _ positive below => by omega⟩
  | on next result other held later ih =>
    obtain ⟨k, positive, reached, passed⟩ := ih
    refine ⟨k + 1, Nat.succ_pos k, reached, fun i low high => ?_⟩
    cases i with
    | zero => omega
    | succ i =>
      cases i with
      | zero => exact held
      | succ i => exact passed (i + 1) (by omega) (by omega)

/-- What `acquire_packet_id` passes. -/
theorem acquirePacketId_passes (positive : s.nextPacketId ≠ 0) :
    ∃ next id k, s.acquirePacketId = ({ s with nextPacketId := next }, id) ∧
    0 < k ∧ next = idAfter^[k] s.nextPacketId ∧ (∀ i, 0 < i → i < k → s.takenId (idAfter^[i] s.nextPacketId) = true) ∧
    (id ≠ 0 → id = next) := by
  obtain ⟨next, free, searches, same⟩ := acquirePacketId_ends positive
  obtain ⟨k, low, reached, passed⟩ := searches_passes searches
  refine ⟨next, _, k, same, low, reached, passed, fun found => ?_⟩
  cases free with
  | false => exact absurd rfl found
  | true => rfl

/-- The id that the search ended with is put to use, or is not. -/
theorem rotates_acquired {next : UInt16} {k : Nat} (low : 0 < k) (reached : next = idAfter^[k] s.nextPacketId)
    (passed : ∀ i, 0 < i → i < k → s.takenId (idAfter^[i] s.nextPacketId) = true) (counter : t.ids.next = next)
    (fresh : ∀ p, t.ids.taken p = true → s.ids.taken p = true ∨ p = next) : Rotates k s t := by
  refine ⟨counter.trans reached, passed, fun p held => (fresh p held).imp_right fun same =>
    ⟨low, same.trans counter.symm⟩⟩

theorem rotates_asyncPublishImpl (positive : s.nextPacketId ≠ 0) (topic payload : Bytes) (qos : UInt8) (cb : Callback) :
    ∃ k, Rotates k s (s.asyncPublishImpl topic payload qos cb) := by
  have told : Shrinks s (s.tellPublish cb false topic qos 0) := shrinks_of_same (ids_tellPublish s _ _ _ _ _)
  obtain ⟨next, id, k, same, low, reached, passed, found⟩ := acquirePacketId_passes positive
  have unused : ∀ t : Sys, t.ids = { s.ids with next } → Rotates k s t := fun t ids =>
    rotates_acquired low reached passed (congrArg Ids.next ids) fun p held => .inl (by rwa [ids] at held)
  unfold asyncPublishImpl
  rw [same]
  split
  · exact ⟨0, rotates_of_shrinks told⟩
  split
  · exact ⟨0, rotates_of_shrinks told⟩
  split
  · exact ⟨0, rotates_of_shrinks told⟩
  split
  · exact ⟨0, rotates_of_shrinks (shrinks_of_same rfl)⟩
  dsimp only
  split
  · exact ⟨k, unused _ rfl⟩
  rename_i proper
  obtain rfl := found proper
  split
  · exact ⟨k, unused _ (ids_tellPublish _ _ _ _ _ _)⟩
  · refine ⟨k, rotates_acquired low reached passed (congrArg Ids.next (ids_sendPublishEntry _ _)) fun p held => ?_⟩
    rw [ids_sendPublishEntry] at held
    simp only [Ids.taken, Bool.or_eq_true] at held ⊢
    rcases held with (published | subscribed) | recorded
    · exact ((OrderedMap.contains_insert _ _ _ _).mp published).symm.imp_left fun before => .inl (.inl before)
    · exact .inl (.inl (.inr subscribed))
    · exact .inl (.inr recorded)

theorem rotates_asyncSubscribeImpl (positive : s.nextPacketId ≠ 0) (topic : Bytes) (qos : UInt8) (cb : Callback) :
    ∃ k, Rotates k s (s.asyncSubscribeImpl topic qos cb) := by
  have told : Shrinks s (s.tellSubscribe cb false topic 0) := shrinks_of_same (ids_tellSubscribe s _ _ _ _)
  obtain ⟨next, id, k, same, low, reached, passed, found⟩ := acquirePacketId_passes positive
  unfold asyncSubscribeImpl
  rw [same]
  split
  · exact ⟨0, rotates_of_shrinks told⟩
  split
  · exact ⟨0, rotates_of_shrinks told⟩
  dsimp only
  split
  · exact ⟨k, rotates_acquired low reached passed rfl fun p held => .inl held⟩
  rename_i proper
  obtain rfl := found proper
  refine ⟨k, rotates_acquired low reached passed rfl fun p held => ?_⟩
  simp only [Ids.taken, Bool.or_eq_true] at held ⊢
  rcases held with (published | subscribed) | recorded
  · exact .inl (.inl (.inl published))
  · exact ((OrderedMap.contains_insert _ _ _ _).mp subscribed).symm.imp_left fun before => .inl (.inr before)
  · exact .inl (.inr recorded)

theorem rotates_step {a : Action} (positive : s.nextPacketId ≠ 0) (taken : s.step a = some t) : ∃ k, Rotates k s t := by
  have quiet : Shrinks s t → ∃ k, Rotates k s t := fun shrinks => ⟨0, rotates_of_shrinks shrinks⟩
  cases (steps taken).2 with
  | work k rest front busy =>
    cases k with
    | asyncPublishImpl topic payload qos cb =>
      obtain ⟨k, next, passed, fresh⟩ := rotates_asyncPublishImpl (s := s.goesOn rest) positive topic payload qos cb
      exact ⟨k, next, passed, fresh⟩
    | asyncSubscribeImpl topic qos cb =>
      obtain ⟨k, next, passed, fresh⟩ := rotates_asyncSubscribeImpl (s := s.goesOn rest) positive topic qos cb
      exact ⟨k, next, passed, fresh⟩
    | _ => exact quiet (shrinks_execute (s.goesOn rest) (by simp) (by simp))
  | invoke call rest front => exact quiet (shrinks_onInvoke { s with net := (s.goesOn rest).net.recordCall call } call)
  | call c allowed => exact quiet (shrinks_call s c)
  | _ => exact quiet (shrinks_of_same rfl)

/-! ### Runs -/

/-- The packet id comes into use. -/
def Gives (p : UInt16) (s t : Sys) : Prop := s.takenId p = false ∧ t.takenId p = true

/-- In the course of the run the packet id is in use, or is the last one tried. -/
def tries (s : Sys) (actions : List Action) (q : UInt16) : Bool :=
  s.takenId q || s.nextPacketId == q ||
    match actions with
    | [] => false
    | a :: rest => (s.step a).any fun t => t.tries rest q

theorem tries_now {actions : List Action} {q : UInt16} (tried : s.takenId q = true ∨ s.nextPacketId = q) :
    s.tries actions q = true := by
  unfold tries
  rcases tried with held | rfl <;> simp_all

theorem tries_later {a : Action} {rest : List Action} {q : UInt16} (taken : s.step a = some t)
    (tried : t.tries rest q = true) :
    s.tries (a :: rest) q = true := by
  unfold tries
  simp [taken, tried]

theorem tries_last {actions : List Action} {q : UInt16} (ran : Runs.exec step s actions = some t)
    (tried : t.takenId q = true ∨ t.nextPacketId = q) : s.tries actions q = true := by
  induction actions generalizing s with
  | nil =>
    obtain rfl := Option.some.inj ran
    exact tries_now tried
  | cons a rest ih =>
    obtain ⟨m, taken, later⟩ := Runs.exec_cons ran
    exact tries_later taken (ih later)

/-- The counter goes on in every run, and each id on its way is tried. -/
theorem rotates_run {actions : List Action} (positive : s.nextPacketId ≠ 0) (ran : Runs.exec step s actions = some t) :
    ∃ n, t.nextPacketId = idAfter^[n] s.nextPacketId ∧
      ∀ i ≤ n, s.tries actions (idAfter^[i] s.nextPacketId) = true := by
  induction actions generalizing s with
  | nil =>
    obtain rfl := Option.some.inj ran
    refine ⟨0, rfl, fun i none => ?_⟩
    obtain rfl := Nat.le_zero.mp none
    exact tries_now (.inr rfl)
  | cons a rest ih =>
    obtain ⟨m, taken, later⟩ := Runs.exec_cons ran
    obtain ⟨k, rotates⟩ := rotates_step positive taken
    have proper : m.nextPacketId ≠ 0 := by
      rw [rotates.next]
      cases k with
      | zero => exact positive
      | succ k =>
        rw [Function.iterate_succ_apply']
        exact idAfter_positive _
    obtain ⟨n, reached, tried⟩ := ih proper later
    refine ⟨n + k, by rw [reached, rotates.next, ← Function.iterate_add_apply], fun i below => ?_⟩
    by_cases first : i < k
    · rcases Nat.eq_zero_or_pos i with rfl | low
      · exact tries_now (.inr rfl)
      · exact tries_now (.inl (rotates.passed i low first))
    · have shifted := tried (i - k) (by omega)
      rw [rotates.next, ← Function.iterate_add_apply, Nat.sub_add_cancel (not_lt.mp first)] at shifted
      exact tries_later taken shifted

/-- The ids as numbers: the way round goes up and begins again at 1. -/
theorem iterate_toNat {p : UInt16} (positive : p ≠ 0) (n : Nat) :
    (idAfter^[n] p).toNat = (p.toNat + n - 1) % 65535 + 1 := by
  have low : p.toNat ≠ 0 := fun zero => positive (UInt16.toNat_inj.mp zero)
  have bound := p.toNat_lt
  cases n with
  | zero =>
    show p.toNat = _
    omega
  | succ n => exact nthId_toNat p n

/-- Every id is on the way round. -/
theorem iterate_reaches {p q : UInt16} (positive : p ≠ 0) (proper : q ≠ 0) : ∃ i < 65535, idAfter^[i] p = q := by
  have low : p.toNat ≠ 0 := fun zero => positive (UInt16.toNat_inj.mp zero)
  have low' : q.toNat ≠ 0 := fun zero => proper (UInt16.toNat_inj.mp zero)
  have bound := p.toNat_lt
  have bound' := q.toNat_lt
  refine ⟨(q.toNat + 65535 - p.toNat) % 65535, Nat.mod_lt _ (by decide), UInt16.toNat_inj.mp ?_⟩
  rw [iterate_toNat positive]
  omega

/-- The way round has no short cut. -/
theorem iterate_returns {p : UInt16} {n : Nat} (positive : p ≠ 0) (low : 0 < n) (back : idAfter^[n] p = p) :
    65535 ≤ n := by
  have first : p.toNat ≠ 0 := fun zero => positive (UInt16.toNat_inj.mp zero)
  have bound := p.toNat_lt
  have same := iterate_toNat positive n
  rw [back] at same
  omega

/-- In every run a packet id that came into use does not do so again while another packet id was neither in use since
nor the last one tried. -/
theorem ids_come_round {before between : List Action} {a b : Action} {t u v : Sys} {p q : UInt16}
    (first : Runs.exec step ({} : Sys) before = some s) (taken : s.step a = some t) (gave : Gives p s t)
    (ran : Runs.exec step t between = some u) (again : u.step b = some v) (proper : q ≠ 0)
    (untried : t.tries between q = false) : ¬ Gives p u v := by
  intro gives
  refine absurd ?_ (Bool.eq_false_iff.mp untried)
  have start : s.ids.Sound := Runs.Reaches.invariant (I := fun s => s.ids.Sound) sound_start
    (fun _ _ _ before _ taken => Ids.sound_moves (step_identifies before.next taken) before)
    (Runs.exec_reaches first (Runs.along_any before))
  have given : ∀ {w x : Sys} {c : Action}, w.ids.Sound → w.step c = some x → Gives p w x →
      ∃ k, 0 < k ∧ p = idAfter^[k] w.nextPacketId ∧ x.nextPacketId = p ∧
        ∀ i, 0 < i → i < k → w.takenId (idAfter^[i] w.nextPacketId) = true := by
    intro w x c sound taken gives
    obtain ⟨k, next, passed, fresh⟩ := rotates_step sound.next taken
    rcases fresh p gives.2 with held | ⟨low, same⟩
    · exact absurd (gives.1.symm.trans held) Bool.false_ne_true
    · exact ⟨k, low, same.trans next, same.symm, passed⟩
  obtain ⟨-, -, -, here, -⟩ := given start taken gave
  have middle : t.ids.Sound := Ids.sound_moves (step_identifies start.next taken) start
  have positive : p ≠ 0 := here ▸ middle.next
  obtain ⟨n, reached, tried⟩ := rotates_run middle.next ran
  rw [here] at reached tried
  have late : u.ids.Sound := Runs.Reaches.invariant (I := fun s => s.ids.Sound) middle
    (fun _ _ _ before _ taken => Ids.sound_moves (step_identifies before.next taken) before)
    (Runs.exec_reaches ran (Runs.along_any between))
  obtain ⟨k, low, back, -, passed⟩ := given late again gives
  rw [reached, ← Function.iterate_add_apply] at back
  have whole := iterate_returns positive (by omega) back.symm
  obtain ⟨i, below, found⟩ := iterate_reaches positive proper
  by_cases early : i ≤ n
  · exact found ▸ tried i early
  · refine tries_last ran (.inl ?_)
    have held := passed (i - n) (by omega) (by omega)
    rwa [reached, ← Function.iterate_add_apply, Nat.sub_add_cancel (by omega), found] at held

/-- The io thread comes to accept a publish of QoS 1. -/
def accepting1 : List Action := [.call (.asyncPublish [0x74] [] 1 true), .run]

/-- A publish is written and acknowledged, and the io thread comes to accept another. -/
def renewing1 : List Action :=
  (publishing 1).drop 3 ++ receive 0x40 2 0 2 ++ [.ret, .exec, .run, .exec] ++ accepting1

/-- Packet id 2 is free again after its PUBACK, but the next publish gets 3. -/
theorem id_not_yet_given :
    ∃ s t u v : Sys, Runs.exec step ({} : Sys) (opened ++ accepting1) = some s ∧ s.step .exec = some t ∧
    Runs.exec step t renewing1 = some u ∧ u.step .exec = some v ∧ u.takenId 2 = false ∧ v.takenId 3 = true ∧
      ¬ Gives 2 u v := by
  have run : (Runs.exec step ({} : Sys) (opened ++ accepting1)).map (fun s => (s.step .exec).any fun t =>
      !s.takenId 2 && t.takenId 2 && !t.tries renewing1 100 && (Runs.exec step t renewing1).any fun u =>
        !u.takenId 2 && (u.step .exec).any fun v => v.takenId 3) = some true := by
    decide +kernel
  obtain ⟨s, first, facts⟩ := Runs.exec_of_check run
  obtain ⟨t, taken, facts⟩ := (Option.any_eq_true _ _).mp facts
  simp only [Bool.and_eq_true, Bool.not_eq_true'] at facts
  obtain ⟨⟨⟨free, given⟩, untried⟩, facts⟩ := facts
  obtain ⟨u, ran, facts⟩ := (Option.any_eq_true _ _).mp facts
  simp only [Bool.and_eq_true, Bool.not_eq_true'] at facts
  obtain ⟨renewed, facts⟩ := facts
  obtain ⟨v, again, next⟩ := (Option.any_eq_true _ _).mp facts
  exact ⟨s, t, u, v, first, taken, ran, again, renewed, next,
    ids_come_round first taken ⟨free, given⟩ ran again (by decide) untried⟩

end Sys
end LiteMqtt
