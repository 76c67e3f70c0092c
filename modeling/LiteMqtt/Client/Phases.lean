import LiteMqtt.Client.Clearing
import LiteMqtt.Client.Identifiers
import LiteMqtt.Client.Releasing

/-!
# The PUBREL phase of a publish

An entry of `pending_pubrecs_` goes with a QoS 2 publish in `pending_publishes_`. `handle_pubrec` does not
look at the QoS of the publish, and `handle_puback` and `finish_publish_failure` do not look for the PUBREL
that goes with it.
-/

namespace LiteMqtt
namespace Sys

variable {s t u : Sys} {p q : UInt16}

/-- The publish `p` is pending at QoS 2. -/
def exactlyOnce (s : Sys) (p : UInt16) : Bool := (s.pendingPublishes.find? p).any fun entry => entry.qos == 2

/-- Every PUBREL goes with a pending QoS 2 publish. -/
def Paired (s : Sys) : Prop := ∀ e ∈ s.pendingPubrecs.entries, s.exactlyOnce e.1 = true

instance (s : Sys) : Decidable s.Paired := inferInstanceAs (Decidable (∀ e ∈ s.pendingPubrecs.entries, _))

/-- Between the steps of the io thread every PUBREL goes with a pending QoS 2 publish, and so does one that
is sent again or given up because its timer has expired. Nothing is said once the source has read an entry that was
erased, which cuts a loop of `notify_closed_once` short. -/
def InPhase (s : Sys) : Prop := s.undefined = false →
  (s.net.stack = [] → s.Paired) ∧
    ∀ p rest, s.net.stack = .own (.timer (.pubrecRetry p) none) :: rest → s.pendingPubrecs.contains p = true →
      s.exactlyOnce p = true

/-- The step handles a PUBREC for a publish that is not at QoS 2, or a PUBACK for one with a PUBREL. -/
def misplaced (s : Sys) (a : Action) : Bool :=
  match s.deed a with
  | .pubrec p => s.pendingPublishes.contains p && !s.exactlyOnce p
  | .puback p => s.pendingPublishes.contains p && s.pendingPubrecs.contains p
  | _ => false

/-- `finish_publish_failure` drops a publish with a PUBREL, and `closed_` keeps `notify_closed_once` from
dropping the PUBREL. -/
def strands (s : Sys) : Action → Bool
  | .exec =>
      match s.net.stack with
      | .own (.finishPublishFailure p) :: _ =>
          s.closed && s.pendingPublishes.contains p && s.pendingPubrecs.contains p
      | _ => false
  | _ => false

/-- The running code is about to clear the maps. -/
def settling (s : Sys) : Bool := s.net.running.any clears || !s.closed && s.net.running.contains .notifyClosedOnce

/-- A frame or a failure that takes one map of an exchange and leaves the other comes only while the maps
are about to be cleared, and nothing keeps them from it. -/
structure Phased (s : Sys) (a : Action) : Prop where
  frame : s.settling = true ∨ s.misplaced a = false
  failure : s.settling = true ∨ s.strands a = false
  refusal : s.refuses a = true → s.net.running.any clears = true ∨ s.Paired

instance (s : Sys) (a : Action) : Decidable (s.Phased a) :=
  decidable_of_iff ((s.settling = true ∨ s.misplaced a = false) ∧ (s.settling = true ∨ s.strands a = false) ∧
    (s.refuses a = true → s.net.running.any clears = true ∨ s.Paired))
    ⟨fun h => ⟨h.1, h.2.1, h.2.2⟩, fun h => ⟨h.frame, h.failure, h.refusal⟩⟩

theorem paired_iff : s.Paired ↔ ∀ p, s.pendingPubrecs.contains p = true → s.exactlyOnce p = true := by
  constructor
  · intro paired p held
    obtain ⟨v, among⟩ := OrderedMap.mem_of_contains held
    exact paired _ among
  · intro all e among
    exact all e.1 (OrderedMap.contains_of_mem among)

theorem settling_iff : s.settling = true ↔
    s.Clearing ∨ s.closed = false ∧ .notifyClosedOnce ∈ s.net.running := by
  simp [settling, Clearing]

/-! ### What a step does to either map -/

theorem pubrecs_step {a : Action} (taken : s.step a = some t) (held : t.pendingPubrecs.contains p = true) :
    s.pendingPubrecs.contains p = true ∨ s.deed a = .pubrec p ∧ s.pendingPublishes.contains p = true := by
  have exchanges := step_exchanges taken
  cases deed : s.deed a with
  | connect =>
    rw [deed] at exchanges
    exact .inl (exchanges.pubrecs ▸ held)
  | puback q =>
    rw [deed] at exchanges
    exact .inl (contains_of_kept exchanges.pubrecs p held)
  | pubcomp q =>
    rw [deed] at exchanges
    exact .inl (contains_of_kept exchanges.pubrecs p held)
  | pubrec q =>
    rw [deed] at exchanges
    rcases exchanges.pubrecs p held with before | ⟨rfl, pending⟩
    · exact .inl before
    · exact .inr ⟨rfl, pending⟩
  | other =>
    rw [deed] at exchanges
    rcases exchanges with calm | notable
    · exact .inl (contains_of_kept calm.pubrecs p held)
    · cases notable with
      | atMostOnce _ _ _ _ _ pubrecs => exact .inl (pubrecs ▸ held)
      | accept _ _ _ _ _ _ _ _ pubrecs => exact .inl (pubrecs ▸ held)
      | resend _ _ _ _ _ _ _ pubrecs => exact .inl (pubrecs ▸ held)
      | release _ _ _ _ pubrecs => exact .inl (pubrecs p held)

/-- A QoS 2 publish stays pending. -/
def Stays (p : UInt16) (s t : Sys) : Prop := s.exactlyOnce p = true → t.exactlyOnce p = true

theorem stays_same (same : t.pendingPublishes = s.pendingPublishes) : Stays p s t := by
  unfold Stays exactlyOnce
  rw [same]
  exact id

theorem Stays.trans (first : Stays p s t) (later : Stays p t u) : Stays p s u := fun before => later (first before)

theorem stays_insert {entry : PendingPublish} (kept : p = q → s.exactlyOnce p = true → entry.qos = 2) :
    Stays p s { s with pendingPublishes := s.pendingPublishes.insert q entry } := by
  intro before
  unfold exactlyOnce
  rw [OrderedMap.find?_insert]
  split
  · rename_i same
    simp [kept same before]
  · exact before

theorem stays_erase (other : p ≠ q) : Stays p s { s with pendingPublishes := s.pendingPublishes.erase q } := by
  intro before
  unfold exactlyOnce
  rw [OrderedMap.find?_erase, if_neg other]
  exact before

theorem stays_tellPublish (s : Sys) (cb : Callback) (ok : Bool) (topic : Bytes) (qos : UInt8) (q : UInt16) :
    Stays p s (s.tellPublish cb ok topic qos q) := stays_same (tellPublish_publishes s cb ok topic qos q).1

theorem publishes_apart (does : Does apart s t) : t.pendingPublishes = s.pendingPublishes := by
  refine does.keeps (I := fun u => u.pendingPublishes = s.pendingPublishes) (fun u e inside before => ?_) rfl
  cases e with
  | setPublishes entries => exact absurd rfl (Effect.topic_of_within inside (by decide))
  | closeConnection => exact (closeConnection_publishes u).2.trans before
  | asyncConnect callback => exact (asyncConnect_connects u callback).publishes.trans before
  | _ => exact before

theorem sendPublishEntry_publishes (s : Sys) (q : UInt16) :
    (s.sendPublishEntry q).pendingPublishes = s.pendingPublishes := by
  unfold sendPublishEntry
  split
  · rfl
  · exact (armPublishRetryTimer_same s q).2.1

theorem stays_onPublishRetry (s : Sys) (q : UInt16) : Stays p s (s.onPublishRetry q) := by
  unfold onPublishRetry
  split
  · exact stays_same rfl
  · rename_i entry held
    split
    · exact stays_same rfl
    · refine Stays.trans (stays_insert fun same before => ?_) (stays_same (sendPublishEntry_publishes _ q))
      rw [exactlyOnce, same, held] at before
      simpa using before

theorem stays_publishEach (s : Sys) (q : UInt16) : Stays p s (s.publishEach q) := by
  unfold publishEach
  split
  · exact stays_same rfl
  · exact (stays_same rfl).trans (stays_tellPublish (s.push [.publishCancel q]) _ _ _ _ _)

theorem stays_finishPublishFailure (other : p ≠ q) : Stays p s (s.finishPublishFailure q) := by
  unfold finishPublishFailure
  split
  · exact stays_same rfl
  · let v := s.cancelPublishRetryTimer q
    let w : Sys := { v with pendingPublishes := v.pendingPublishes.erase q }
    have erased : Stays p s w := Stays.trans (stays_same (cancelPublishRetryTimer_same s q).2.1) (stays_erase other)
    exact erased.trans (stays_tellPublish (w.push [.notifyClosedOnce]) _ _ _ _ _)

theorem stays_finishPublishSuccess (other : p ≠ q) : Stays p s (s.finishPublishSuccess q) := by
  unfold finishPublishSuccess
  split
  · exact stays_same rfl
  · refine Stays.trans (stays_same (cancelPublishRetryTimer_same s q).2.1) ((stays_erase other).trans ?_)
    exact stays_tellPublish _ _ _ _ _ _

theorem stays_extends (extends_ : Extends s t) : Stays p s t := by
  intro before
  obtain ⟨entry, held, qos⟩ := (Option.any_eq_true _ _).mp before
  exact (Option.any_eq_true _ _).mpr ⟨entry, extends_.publishes p entry held, qos⟩

/-- A pending QoS 2 publish goes by its acknowledgement, its failure, or with all others. -/
theorem stays_step {a : Action} (taken : s.step a = some t) : Stays p s t ∨
    (s.deed a = .puback p ∨ s.deed a = .pubcomp p) ∨
    (∃ rest, a = .exec ∧ s.net.stack = .own (.finishPublishFailure p) :: rest ∧
      t = (s.goesOn rest).finishPublishFailure p) ∨
    ∃ rest, s.net.stack = .own .publishClear :: rest ∧ t = (s.goesOn rest).publishClear := by
  have popping : ∀ {u : Sys}, s.Popped u → Stays p s u := fun popped => stays_same (by rw [popped.same])
  have going : ∀ {rest : List (StackEntry Handler Work)} {v : Sys}, Stays p (s.goesOn rest) v → Stays p s v := id
  cases publishing_outline taken with
  | bare a t bare => exact .inl (stays_same (bare_publishes bare))
  | asyncPublish topic payload qos callable => exact .inl (stays_same rfl)
  | impl topic payload qos cb rest front =>
    exact .inl (going (stays_extends (extends_asyncPublishImpl (s.goesOn rest) topic payload qos cb)))
  | retry q rest front => exact .inl (going (stays_onPublishRetry (s.goesOn rest) q))
  | failure q rest front =>
    by_cases same : p = q
    · subst same
      exact .inr (.inr (.inl ⟨rest, rfl, front, rfl⟩))
    · exact .inl (going (stays_finishPublishFailure (s := s.goesOn rest) same))
  | report cb topic qos rest front => exact .inl (going (stays_tellPublish (s.goesOn rest) _ _ _ _ _))
  | each q rest front => exact .inl (going (stays_publishEach (s.goesOn rest) q))
  | clear rest front => exact .inr (.inr (.inr ⟨rest, front, rfl⟩))
  | written0 serial cb topic ec rest front =>
    exact .inl ((popping (popped_recordCall front)).trans (stays_tellPublish _ _ _ _ _ _))
  | written serial q rest front =>
    exact .inl ((popping (popped_recordCall front)).trans (stays_same (armPublishRetryTimer_same _ q).2.1))
  | acked a u v q popped does deed =>
    by_cases same : p = q
    · subst same
      exact .inr (.inl deed)
    · exact .inl ((popping popped).trans ((stays_same (publishes_apart does)).trans (stays_finishPublishSuccess same)))
  | other a u t popped does => exact .inl ((popping popped).trans (stays_same (publishes_apart does)))

/-! ### Every step keeps the two maps in step -/

theorem handlePubcomp_drops (s : Sys) (data : Bytes) :
    (s.handlePubcomp data).pendingPubrecs.contains (parseId data) = false := by
  show ((Sys.erasePubrec _ (parseId data)).finishPublishSuccess (parseId data)).pendingPubrecs.contains _ = _
  rw [finishPublishSuccess_pubrecs]
  unfold erasePubrec
  split
  · rename_i absent
    simp [OrderedMap.contains, absent]
  · simp [OrderedMap.contains, OrderedMap.find?_erase]

theorem finishPublishFailure_notifies (live : s.closed = false) : (s.finishPublishFailure q).settling = true := by
  have notified : ∀ v : Sys, v.closed = false → .notifyClosedOnce ∈ v.net.running → v.settling = true :=
    fun v open_ among => settling_iff.mpr (.inr ⟨open_, among⟩)
  have same : (s.cancelPublishRetryTimer q).closed = s.closed := by
    unfold cancelPublishRetryTimer
    split <;> rfl
  unfold finishPublishFailure
  split
  · exact notified _ live List.mem_cons_self
  · unfold tellPublish
    dsimp only
    split
    · exact notified _ (same.trans live) (List.mem_cons_of_mem _ List.mem_cons_self)
    · exact notified _ (same.trans live) List.mem_cons_self

/-- Where nothing strands a PUBREL, the maps stay in step or are about to be cleared. -/
theorem paired_step {a : Action} (taken : s.step a = some t) (proper : s.misplaced a = false)
    (attended : s.strands a = false) (paired : s.Paired) : t.Paired ∨ t.settling = true := by
  rw [paired_iff] at paired
  by_cases failing : ∃ q rest, a = .exec ∧ s.net.stack = .own (.finishPublishFailure q) :: rest ∧ s.closed = false
  · obtain ⟨q, rest, rfl, front, live⟩ := failing
    rw [exec_work front taken]
    exact .inr (finishPublishFailure_notifies (s := s.goesOn rest) live)
  refine .inl (paired_iff.mpr fun p held => ?_)
  have pends : s.exactlyOnce p = true → s.pendingPublishes.contains p = true := fun level => by
    obtain ⟨entry, found, -⟩ := (Option.any_eq_true _ _).mp level
    exact contains_of_find? found
  rcases pubrecs_step taken held with before | ⟨deed, pending⟩
  · rcases stays_step (p := p) taken with stays | acked | ⟨rest, rfl, front, -⟩ | ⟨rest, front, rfl⟩
    · exact stays (paired p before)
    · rcases acked with puback | pubcomp
      · simp [misplaced, puback, before, pends (paired p before)] at proper
      · obtain ⟨u, data, handled, -⟩ := deed_handles taken (by simp [pubcomp]) (by simp [pubcomp])
        rw [pubcomp] at handled
        obtain ⟨rfl, rfl⟩ := handled
        exact absurd (held.symm.trans (handlePubcomp_drops u data)) nofun
    · cases live : s.closed with
      | false => exact absurd ⟨p, rest, rfl, front, live⟩ failing
      | true => simp [strands, front, live, before, pends (paired p before)] at attended
    · rw [(publishClear_empty _).2] at held
      exact absurd held nofun
  · have level : s.exactlyOnce p = true := by simpa [misplaced, deed, pending] using proper
    rcases stays_step (p := p) taken with stays | acked | ⟨rest, rfl, front, -⟩ | ⟨rest, front, rfl⟩
    · exact stays level
    · simp [deed] at acked
    · simp [Sys.deed, front] at deed
    · rw [(publishClear_empty _).2] at held
      exact absurd held nofun

theorem refuses_apart {a : Action} (refuses : s.refuses a = true) : s.misplaced a = false ∧ s.strands a = false := by
  have other : ∀ {data : Bytes}, isRefusal data = true → packetDeed data = .other := by
    intro data refusal
    cases data with
    | nil => rfl
    | cons byte rest =>
      have connack := (Bool.and_eq_true_iff.mp refusal).1
      simp only [isConnack, beq_iff_eq] at connack
      simp [packetDeed, connack]
  obtain ⟨data, dispatched, refusal⟩ := (Option.any_eq_true _ _).mp refuses
  unfold Sys.dispatched at dispatched
  split at dispatched
  · split at dispatched
    · rename_i front
      obtain rfl := Option.some.inj dispatched
      simp [misplaced, strands, deed, front, other refusal]
    · contradiction
  · obtain rfl := Option.some.inj dispatched
    simp [misplaced, strands, deed, other refusal]
  · contradiction

theorem settling_step {a : Action} (posting : s.Posting) (taken : s.step a = some t) (defined : t.undefined = false)
    (refusal : s.refuses a = true → s.net.running.any clears = true ∨ s.Paired) (settling : s.settling = true) :
    t.Paired ∨ t.settling = true := by
  have cleared : s.Clearing → t.Paired ∨ t.settling = true := by
    intro clearing
    rcases clearing_step taken defined clearing with still | ⟨-, none⟩
    · exact .inr (settling_iff.mpr (.inl still))
    · refine .inl (paired_iff.mpr fun p held => ?_)
      rw [none] at held
      cases held
  rcases settling_iff.mp settling with clearing | ⟨live, among⟩
  · exact cleared clearing
  have closing : ∀ rest, t = (s.goesOn rest).notifyClosedOnce → t.Paired ∨ t.settling = true := fun rest same =>
    .inr (settling_iff.mpr (.inl (same ▸ notifyClosedOnce_clears (s := s.goesOn rest) live)))
  rcases running_step taken among with kept | ⟨rest, -, same | ⟨-, rfl⟩⟩
  · cases shut : t.closed with
    | false => exact .inr (settling_iff.mpr (.inr ⟨shut, kept⟩))
    | true =>
      rcases shut_step taken live shut with ⟨rest, -, same⟩ | ⟨attempt, rest, -, front⟩ | refuses
      · exact closing rest same
      · -- the connect timer runs alone, and nothing is left to notify
        have runs : .timer (.connectTimeout attempt) none ∈ s.net.running := by
          rw [Net.running, front]
          exact List.mem_cons_self
        rw [Net.running, posting.alone _ runs rfl] at among
        cases List.mem_singleton.mp among
      · rcases refusal refuses with clearing | paired
        · exact cleared (by simpa [Clearing] using clearing)
        · exact paired_step taken (refuses_apart refuses).1 (refuses_apart refuses).2 paired
  · contradiction
  · exact closing rest rfl

/-! ### Runs -/

/-- The maps are in step, or about to be cleared. -/
structure Phases (s : Sys) : Prop where
  posting : s.Posting
  kept : s.undefined = false → s.Paired ∨ s.settling = true

theorem phases_step {a : Action} (phases : s.Phases) (guard : s.Phased a) (taken : s.step a = some t) : t.Phases := by
  refine ⟨posting_step phases.posting taken, fun defined => ?_⟩
  cases settles : s.settling with
  | true => exact settling_step phases.posting taken defined guard.refusal settles
  | false =>
    have paired := (phases.kept (steps taken).1).resolve_right (by simp [settles])
    exact paired_step taken (guard.frame.resolve_left (by simp [settles]))
      (guard.failure.resolve_left (by simp [settles])) paired

theorem inPhase_of_phases (phases : s.Phases) : s.InPhase := by
  intro defined
  have idle : (∀ k ∈ s.net.running, clears k = false ∧ k ≠ .notifyClosedOnce) → s.Paired := fun quiet => by
    refine (phases.kept defined).resolve_right fun settling => ?_
    rcases settling_iff.mp settling with ⟨k, among, front⟩ | ⟨-, among⟩
    · cases front.symm.trans (quiet k among).1
    · exact (quiet _ among).2 rfl
  constructor
  · intro between
    refine idle fun k among => ?_
    rw [Net.running, between] at among
    exact absurd among List.not_mem_nil
  · intro p rest front held
    have runs : .timer (.pubrecRetry p) none ∈ s.net.running := by
      rw [Net.running, front]
      exact List.mem_cons_self
    refine paired_iff.mp (idle fun k among => ?_) p held
    rw [Net.running, phases.posting.alone _ runs rfl] at among
    obtain rfl := List.mem_singleton.mp among
    exact ⟨rfl, by simp⟩

theorem phases_start : ({} : Sys).Phases :=
  ⟨⟨fun _ among => absurd among List.not_mem_nil, fun _ among => absurd among List.not_mem_nil⟩, fun _ => .inl nofun⟩

/-- In every run in which no frame and no failure takes one map of an exchange and leaves the other, every
PUBREL goes with a pending QoS 2 publish. -/
theorem pubrels_in_phase {actions : List Action} (along : Runs.Along step Phased ({} : Sys) actions) :
    Runs.Throughout step InPhase ({} : Sys) actions :=
  Runs.throughout_of_along (I := Phases) (fun _ _ _ => phases_step) (fun _ => inPhase_of_phases) phases_start along

/-- The PUBREC of the publish with packet id 2 is handled. -/
def recorded2 : List Action := receive 0x50 2 0 2 ++ [.exec]

/-- A QoS 2 publish comes to its PUBREL. -/
theorem pubrel_in_phase : Runs.Throughout step InPhase ({} : Sys) (opened ++ publishing 2 ++ recorded2) :=
  pubrels_in_phase (by decide +kernel)

/-- A QoS 1 publish does so too. -/
theorem pubrel_without_exchange : ¬ ∀ actions, Runs.Throughout step InPhase ({} : Sys) actions := by
  intro claimed
  have run : (Runs.exec step ({} : Sys) (opened ++ publishing 1 ++ recorded2)).map (fun s =>
      !s.undefined && s.net.stack.isEmpty && !decide s.Paired) = some true := by
    decide +kernel
  obtain ⟨s, done, facts⟩ := Runs.exec_of_check run
  simp only [Bool.and_eq_true, Bool.not_eq_true', List.isEmpty_iff, decide_eq_false_iff_not] at facts
  obtain ⟨⟨defined, between⟩, unpaired⟩ := facts
  exact unpaired ((Runs.throughout_last (claimed _) done defined).1 between)

end Sys
end LiteMqtt
