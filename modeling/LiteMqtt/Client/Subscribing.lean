import LiteMqtt.Client.Grants
import LiteMqtt.Client.Looping

/-!
# Every subscription gets one verdict

The SUBACK tells the callback of a subscription what was granted, and the end of the session tells it a
failure. The write handler of the SUBSCRIBE calls it too: after a success, before the broker has answered, and
after an error with an entry that it has erased. A CONNACK that refuses the session and the connect timer set
`closed_` without telling anybody.
-/

namespace LiteMqtt

/-- The callback is called with success. -/
def Event.rewards (c : Callback) : Event → Bool
  | .subscribeReport callback success .. => decide (callback = c) && success
  | _ => false

/-- The callback is called with a failure. -/
def Event.denies (c : Callback) : Event → Bool
  | .subscribeReport callback success .. => decide (callback = c) && !success
  | _ => false

/-- Each success that the callback was told had been granted before. -/
def Earned (c : Callback) : List Event → Prop
  | [] => True
  | e :: earlier => (e.rewards c = true → granted c earlier = true) ∧ Earned c earlier

namespace Sys

variable {s t u : Sys} {p : UInt16} {c : Callback}

/-- A loop of `notify_closed_once` is running. -/
def flushing (s : Sys) : Bool := s.net.running.any fun k => k.topic == some .loop

/-- Some subscription with a callback waits for its SUBACK. -/
def expecting (s : Sys) : Bool := s.pendingSubscribes.entries.any fun e => e.2.callback.callable

/-- A CONNACK or the connect timer sets `closed_` while a subscription waits for its SUBACK, and no loop is
there to tell it. -/
def abandons (s : Sys) (a : Action) : Bool :=
  !s.closed && (s.refuses a || (s.expiring a).isSome) && s.expecting && !s.flushing

/-- While a loop ends the session, the SUBACK of a subscription that waits for it is handled. -/
def interrupts (s : Sys) (a : Action) : Bool := s.flushing && (s.suback a).any fun pkt => s.expects pkt.packetId

/-- The step reads an entry that was erased from its map. -/
def dangles (s : Sys) (a : Action) : Bool :=
  match a, s.net.stack with
  | .exec, .own (.publishEach p) :: _ | .exec, .own (.publishCancel p) :: _ => !s.pendingPublishes.contains p
  | .exec, .own (.subscribeEach p) :: _ | .exec, .own (.subscribeFilters p _ _) :: _
  | .exec, .own (.subscribeWritten p _ (_ :: _)) :: _ => !s.pendingSubscribes.contains p
  | .exec, .invoke (.write _ (.subscribe p) (some _)) :: _ => s.expects p
  | _, _ => false

/-- The callback of a subscription is called by its SUBACK, which has a return code, or by the one loop that
ends its session, and no freed memory is read. -/
def Attentive (s : Sys) (a : Action) : Prop :=
  s.Candid a ∧ s.shortens a = false ∧ s.abandons a = false ∧ s.interrupts a = false ∧ s.dangles a = false

instance (s : Sys) (a : Action) : Decidable (s.Attentive a) :=
  inferInstanceAs (Decidable ((_ = false ∧ _ = false) ∧ _ = false ∧ _ = false ∧ _ = false ∧ _ = false))

/-! ### The loops -/

theorem flushing_iff : s.flushing = true ↔ ∃ k ∈ s.net.running, k.topic = some .loop := by simp [flushing]

theorem flushing_pushed {k : Work} (loop : k.topic = some .loop) (s : Sys) : (s.push [k]).flushing = true :=
  flushing_iff.mpr ⟨k, .head _, loop⟩

theorem flushing_retains (retains : Retains s t) (flushing : s.flushing = true) : t.flushing = true := by
  obtain ⟨k, among, loop⟩ := flushing_iff.mp flushing
  exact flushing_iff.mpr ⟨k, retains.running k among, loop⟩

theorem flushing_clearing (clearing : s.Clearing) : s.flushing = true := by
  obtain ⟨k, among, front⟩ := clearing
  refine flushing_iff.mpr ⟨k, among, ?_⟩
  cases k <;> first | rfl | cases front

theorem subscribeEach_flushing (defined : (s.subscribeEach p).undefined = false) :
    (s.subscribeEach p).flushing = true := by
  unfold subscribeEach at defined ⊢
  split
  · rename_i absent
    simp [absent, crash] at defined
  · exact flushing_pushed rfl _

theorem subscribeFilters_flushing {cb : Callback} {filters : List (Bytes × UInt8)}
    (defined : (s.subscribeFilters p cb filters).undefined = false) :
      (s.subscribeFilters p cb filters).flushing = true := by
  unfold subscribeFilters at defined ⊢
  split
  · split
    · rename_i topic _ later
      have told : Does [.subscribe] _ _ :=
        does_tellSubscribe (s.push [.subscribeFilters p cb later]) cb false topic 0 (.head _)
      exact flushing_retains (retains_does told) (flushing_pushed rfl s)
    · split
      · exact flushing_pushed rfl _
      · exact flushing_pushed rfl _
  · rename_i absent
    simp [absent, crash] at defined

theorem flushing_step {a : Action} (taken : s.step a = some t) (defined : t.undefined = false)
    (flushing : s.flushing = true) :
    t.flushing = true ∨ t.pendingSubscribes = .empty := by
  obtain ⟨k, among, loop⟩ := flushing_iff.mp flushing
  rcases running_step taken among with kept | ⟨rest, -, rfl | ⟨-, rfl⟩⟩
  · exact .inl (flushing_iff.mpr ⟨k, kept, loop⟩)
  · cases loop
  · cases k with
    | publishEach q => exact .inl (flushing_clearing (publishEach_clears (s := s.goesOn rest) defined))
    | publishCancel q => exact .inl (flushing_clearing (publishCancel_clears (s := s.goesOn rest) defined))
    | publishClear =>
      refine .inl ?_
      change (s.goesOn rest).publishClear.flushing = true
      unfold publishClear
      dsimp only
      split
      · exact flushing_pushed rfl _
      · exact flushing_pushed rfl _
    | subscribeEach q => exact .inl (subscribeEach_flushing (s := s.goesOn rest) defined)
    | subscribeFilters q cb filters => exact .inl (subscribeFilters_flushing (s := s.goesOn rest) defined)
    | subscribeClear =>
      refine .inr ?_
      change (s.goesOn rest).subscribeClear.pendingSubscribes = .empty
      unfold subscribeClear closeConnection
      split <;> rfl
    | _ => cases loop

theorem flushing_grows {topics : List Topic} (grows : Grows topics s t) (absent : Topic.loop ∉ topics)
    (flushing : t.flushing = true) : s.flushing = true := by
  by_contra none
  obtain ⟨k, among, loop⟩ := flushing_iff.mp flushing
  have quiet : NoLoops s.net.stack := fun j within loops =>
    none (flushing_iff.mpr ⟨j, List.mem_filterMap.mpr ⟨_, within, rfl⟩, loops⟩)
  obtain ⟨entry, within, own⟩ := List.mem_filterMap.mp among
  cases entry with
  | own j =>
    obtain rfl := Option.some.inj own
    exact noLoops_grows grows absent quiet j within loop
  | _ => cases own

theorem flushing_begins {a : Action} (posting : s.Posting) (taken : s.step a = some t) (flushing : t.flushing = true) :
    s.flushing = true ∨ s.closed = false ∧ t.closed = true := by
  have below : ∀ {entry : StackEntry Handler Work} {rest : List (StackEntry Handler Work)},
      s.net.stack = entry :: rest →
      (s.goesOn rest).flushing = true → s.flushing = true := by
    intro entry rest front flushing
    obtain ⟨k, among, loop⟩ := flushing_iff.mp flushing
    refine flushing_iff.mpr ⟨k, ?_, loop⟩
    rw [Net.running, front, List.filterMap_cons]
    split
    · exact among
    · exact List.mem_cons_of_mem _ among
  have same : t.net.running = s.net.running → s.flushing = true := by
    intro running
    obtain ⟨k, among, loop⟩ := flushing_iff.mp flushing
    exact flushing_iff.mpr ⟨k, running ▸ among, loop⟩
  cases (steps taken).2 with
  | run n ran =>
    obtain ⟨k, among, loop⟩ := flushing_iff.mp flushing
    obtain ⟨entry, within, own⟩ := List.mem_filterMap.mp among
    cases entry with
    | own j =>
      obtain rfl := Option.some.inj own
      have posted := run_posted posting ran within
      cases j <;> first | cases posted; done | cases loop
    | _ => cases own
  | work k rest front busy =>
    by_cases loop : k.topic = some .loop
    · refine .inl (flushing_iff.mpr ⟨k, ?_, loop⟩)
      rw [goesOn_running front]
      exact .head _
    have grows := grows_does (does_execute (s.goesOn rest) k)
    cases k with
    | notifyClosedOnce =>
      by_cases closed : s.closed = true
      · refine .inl (below front ?_)
        have done : (s.goesOn rest).notifyClosedOnce = s.goesOn rest := if_pos closed
        exact done ▸ flushing
      · refine .inr ⟨by simpa using closed, ?_⟩
        change (s.goesOn rest).notifyClosedOnce.closed = true
        unfold notifyClosedOnce
        rw [if_neg (by exact closed)]
        dsimp only
        split <;> rfl
    | timer h ec =>
      exact .inl (below front (flushing_grows grows (by cases h <;> simp [workTopics, timerTopics]) flushing))
    | handlePacket attempt data =>
      have absent : Topic.loop ∉ packetTopics data := fun among => absurd (packetTopics_few data among) (by decide)
      exact .inl (below front (flushing_grows grows absent flushing))
    | publishEach | publishCancel | publishClear | subscribeEach | subscribeFilters | subscribeClear =>
      exact absurd rfl loop
    | _ => exact .inl (below front (flushing_grows grows (by simp [workTopics]) flushing))
  | invoke call rest front =>
    refine .inl (below front ?_)
    let u : Sys := { s with net := (s.goesOn rest).net.recordCall call }
    have before : u.flushing = true := by
      have absent : Topic.loop ∉ invocationTopics call :=
        fun among => absurd (invocationTopics_few call among) (by decide)
      exact flushing_grows (grows_does (does_onInvoke u call)) absent flushing
    cases call <;> exact before
  | afterWrite ec rest front =>
    refine .inl (below front ?_)
    obtain ⟨k, among, loop⟩ := flushing_iff.mp flushing
    exact flushing_iff.mpr ⟨k, (Net.tame_afterWrite (s.goesOn rest).net ec).running ▸ among, loop⟩
  | closeHandler rest front =>
    refine .inl (below front ?_)
    obtain ⟨k, among, loop⟩ := flushing_iff.mp flushing
    refine flushing_iff.mpr ⟨k, ?_, loop⟩
    cases closing : s.net.closeHandler <;> simpa [Net.running, Net.push, closing, StackEntry.own?] using among
  | ret rest front => exact .inl (below front flushing)
  | call d allowed =>
    have absent : Topic.loop ∉ callTopics d := fun among => absurd (callTopics_few d among) (by decide)
    exact .inl (flushing_grows (grows_does (does_call s d)) absent flushing)
  | kernel event n moved => exact .inl (same (Net.tame_kernel moved).running)
  | expire index w waiting due => exact .inl (same rfl)
  | advance ms => exact .inl (same rfl)

/-! ### No freed memory is read -/

theorem defined_does {topics : List Topic} (does : Does topics s t) (absent : Topic.crash ∉ topics) :
    t.undefined = s.undefined := by
  refine does.keeps (I := fun u => u.undefined = s.undefined) (fun u e inside before => ?_) rfl
  cases e with
  | crash => exact absurd rfl (Effect.topic_of_within inside absent)
  | closeConnection =>
    change u.closeConnection.undefined = _
    unfold closeConnection
    split <;> exact before
  | asyncConnect callback =>
    change (u.asyncConnect callback).undefined = _
    unfold asyncConnect
    dsimp only
    split <;> exact before
  | _ => exact before

theorem defined_work {k : Work} {rest : List (StackEntry Handler Work)} (front : s.net.stack = .own k :: rest)
    (sane : s.undefined = false) (safe : s.dangles .exec = false) : ((s.goesOn rest).execute k).undefined = false := by
  have does := does_execute (s.goesOn rest) k
  have told : ∀ (u : Sys) (cb : Callback) (ok : Bool) (topic : Bytes) (qos : UInt8),
      (u.tellSubscribe cb ok topic qos).undefined = u.undefined := fun u cb ok topic qos => by
    have does : Does [.subscribe] u (u.tellSubscribe cb ok topic qos) := does_tellSubscribe u cb ok topic qos (.head _)
    exact defined_does does (by decide)
  have apart : Topic.crash ∉ workTopics k → ((s.goesOn rest).execute k).undefined = false := fun absent =>
    (defined_does does absent).trans sane
  simp only [dangles, front] at safe
  cases k with
  | publishEach p =>
    obtain ⟨entry, found⟩ := Option.isSome_iff_exists.mp (by simpa using safe : s.pendingPublishes.contains p = true)
    change ((s.goesOn rest).publishEach p).undefined = false
    have found : (s.goesOn rest).pendingPublishes.find? p = some entry := found
    unfold publishEach
    rw [found]
    have does : Does [.publish] _ _ := does_tellPublish ((s.goesOn rest).push [.publishCancel p]) entry.callback false
      entry.topic entry.qos p (.head _)
    exact (defined_does does (by decide)).trans sane
  | publishCancel p =>
    obtain ⟨entry, found⟩ := Option.isSome_iff_exists.mp (by simpa using safe : s.pendingPublishes.contains p = true)
    change ((s.goesOn rest).publishCancel p).undefined = false
    have found : (s.goesOn rest).pendingPublishes.find? p = some entry := found
    unfold publishCancel
    rw [found]
    dsimp only
    split <;> exact sane
  | subscribeEach p =>
    obtain ⟨entry, found⟩ := Option.isSome_iff_exists.mp (by simpa using safe : s.pendingSubscribes.contains p = true)
    change ((s.goesOn rest).subscribeEach p).undefined = false
    have found : (s.goesOn rest).pendingSubscribes.find? p = some entry := found
    unfold subscribeEach
    rw [found]
    exact sane
  | subscribeFilters p cb filters =>
    have contained : s.pendingSubscribes.contains p = true := by simpa using safe
    have among : (s.goesOn rest).pendingSubscribes.contains p = true := contained
    change ((s.goesOn rest).subscribeFilters p cb filters).undefined = false
    unfold subscribeFilters
    rw [if_pos among]
    split
    · exact (told _ _ _ _ _).trans sane
    · split <;> exact sane
  | subscribeWritten p cb filters =>
    cases filters with
    | nil => exact sane
    | cons filter later =>
      have contained : s.pendingSubscribes.contains p = true := by simpa using safe
      have among : (s.goesOn rest).pendingSubscribes.contains p = true := contained
      change ((s.goesOn rest).subscribeWritten p cb (filter :: later)).undefined = false
      unfold subscribeWritten
      dsimp only
      rw [if_pos among]
      exact (told _ _ _ _ _).trans sane
  | handlePacket attempt data => exact apart fun among => absurd (packetTopics_few data among) (by decide)
  | timer h ec => exact apart (by cases h <;> simp [workTopics, timerTopics])
  | _ => exact apart (by simp [workTopics])

theorem defined_step {a : Action} (taken : s.step a = some t) (safe : s.dangles a = false) : t.undefined = false := by
  have sane := (steps taken).1
  cases (steps taken).2 with
  | work k rest front busy => exact defined_work front sane safe
  | invoke call rest front =>
    let u : Sys := { s with net := (s.goesOn rest).net.recordCall call }
    have does := does_onInvoke u call
    have apart : Topic.crash ∉ invocationTopics call → (u.onInvoke call).undefined = false := fun absent =>
      (defined_does does absent).trans sane
    cases call with
    | write serial h ec =>
      cases h with
      | subscribe p =>
        change (u.onSubscribeWritten p ec).undefined = false
        unfold onSubscribeWritten
        split
        · exact sane
        rename_i entry found
        cases ec with
        | none =>
          dsimp only
          split
          · split <;> exact sane
          · contradiction
        | some ec =>
          have found : s.pendingSubscribes.find? p = some entry := found
          simp only [dangles, front, expects, found, Option.any_some] at safe
          dsimp only
          rw [safe]
          exact sane
      | _ => exact apart (by simp [invocationTopics])
    | _ => exact apart (by simp [invocationTopics])
  | call c allowed =>
    exact (defined_does (does_call s c) fun among => absurd (callTopics_few c among) (by decide)).trans sane
  | _ => exact sane

end Sys
end LiteMqtt
