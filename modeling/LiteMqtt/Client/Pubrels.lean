import LiteMqtt.Client.Phases

/-!
# How often a PUBREL is sent

The entry in `pending_pubrecs_` counts the retries of a PUBREL. It starts at 0 where that of a publish
starts at 1, and every PUBREC for a publish that is still pending starts it anew.
-/

namespace LiteMqtt

/-- A PUBREL with this packet id is handed to the connection. -/
def Event.releases (p : UInt16) : Event → Bool
  | .handed (.pubrel q) => q == p
  | _ => false

namespace Sys

variable {s t u : Sys} {p q : UInt16}

/-! ### A second PUBREC -/

/-- Between the two states the exchanges are left alone, and nothing is handed to the connection. -/
structure Ignores (s t : Sys) : Prop where
  publishes : t.pendingPublishes = s.pendingPublishes
  pubrecs : t.pendingPubrecs = s.pendingPubrecs
  frames : t.net.submitted = s.net.submitted

theorem handlePubrec_pending {data : Bytes} (pending : s.pendingPublishes.contains (parseId data) = true) :
    ∃ v : Sys, s.handlePubrec data = v.sendPubrel (parseId data) ∧ v.net.submitted = s.net.submitted ∧
      v.log = .received .pubrec (parseId data) [] :: s.log ∧
      ∃ timer, v.pendingPubrecs = s.pendingPubrecs.insert (parseId data) { timer, attempts := 0 } := by
  let w := (s.record (.received .pubrec (parseId data) [])).cancelPublishRetryTimer (parseId data)
  obtain ⟨log, -, pubrecs⟩ :=
    cancelPublishRetryTimer_same (s.record (.received .pubrec (parseId data) [])) (parseId data)
  have frames : (w.insertPubrec (parseId data)).net.submitted = s.net.submitted := by
    unfold w insertPubrec cancelPublishRetryTimer
    dsimp only
    split <;> split <;> rfl
  refine ⟨w.insertPubrec (parseId data), ?_, frames, (insertPubrec_same w _).1.trans log, w.nextTimer, ?_⟩
  · show (if s.pendingPublishes.contains (parseId data) then _ else _) = _
    rw [if_pos pending]
    rfl
  · rw [insertPubrec_pubrecs, pubrecs]
    rfl

theorem handlePubrec_absent {data : Bytes} (absent : s.pendingPublishes.contains (parseId data) = false) :
    s.handlePubrec data = s.record (.received .pubrec (parseId data) []) := by
  show (if s.pendingPublishes.contains (parseId data) then _ else _) = _
  rw [absent]
  rfl

theorem sendPubrel_frames (s : Sys) (p : UInt16) :
    ∃ item, (s.sendPubrel p).net.submitted = s.net.submitted ++ [item] := by
  unfold sendPubrel armPubrecRetryTimer
  split <;> exact ⟨_, rfl⟩

/-- A PUBREC for an exchange in its PUBREL phase is ignored exactly if its publish is no longer pending. -/
theorem duplicate_pubrec_ignored_iff {a : Action} (taken : s.step a = some t) (handles : s.deed a = .pubrec p)
    (held : s.pendingPubrecs.contains p = true) : Ignores s t ↔ s.pendingPublishes.contains p = false := by
  obtain ⟨u, data, handled, popped, -⟩ := deed_handles taken (by simp [handles]) (by simp [handles])
  rw [handles] at handled
  obtain ⟨rfl, rfl⟩ := handled
  have same : u.pendingPublishes = s.pendingPublishes ∧ u.pendingPubrecs = s.pendingPubrecs ∧
      u.net.submitted = s.net.submitted := by
    rw [popped.same]
    exact ⟨rfl, rfl, rfl⟩
  obtain ⟨publishes, pubrecs, frames⟩ := same
  constructor
  · intro ignores
    by_contra pending
    have bound : u.pendingPublishes.contains (parseId data) = true := by rw [publishes]; simpa using pending
    obtain ⟨v, sent, before, -⟩ := handlePubrec_pending bound
    obtain ⟨item, more⟩ := sendPubrel_frames v (parseId data)
    have lengths := congrArg List.length ignores.frames
    rw [sent, more, before, frames] at lengths
    simp at lengths
  · intro absent
    rw [handlePubrec_absent (publishes ▸ absent)]
    exact ⟨publishes, pubrecs, frames⟩

/-- The publish has been acknowledged without its PUBCOMP, and the PUBREL is still there. -/
theorem duplicate_pubrec_ignored : let s : Sys := { pendingPubrecs := OrderedMap.empty.insert 2 ⟨2, 1⟩ }
    Ignores s (s.call (.handlePubrec [0x50, 2, 0, 2])) ↔ s.pendingPublishes.contains 2 = false :=
  duplicate_pubrec_ignored_iff (a := .call (.handlePubrec [0x50, 2, 0, 2])) rfl rfl rfl

/-- The PUBREL is written. The first task is the cancelled retry of the publish. -/
def released2 : List Action :=
  [.run, .exec, .run, .kernel (.send 1 4), .kernel (.write 1 none), .run, .exec, .exec, .run, .exec]

/-- A QoS 2 publish waits for its PUBCOMP when its PUBREC comes once more: another PUBREL is sent. -/
theorem duplicate_pubrec_answered : ¬ ∀ actions s, Runs.exec step ({} : Sys) actions = some s →
    ∀ a t p, s.step a = some t → s.deed a = .pubrec p → s.pendingPubrecs.contains p = true → Ignores s t := by
  intro claimed
  have run : (Runs.exec step ({} : Sys) (opened ++ publishing 2 ++ recorded2 ++ released2 ++
      (receive 0x50 2 0 2).dropLast)).map (fun s => s.deed .exec == .pubrec 2 && s.pendingPubrecs.contains 2 &&
        (s.step .exec).any fun t => t.net.submitted.length == s.net.submitted.length + 1) = some true := by
    decide +kernel
  obtain ⟨s, reached, facts⟩ := Runs.exec_of_check run
  simp only [Bool.and_eq_true, beq_iff_eq, Option.any_eq_true] at facts
  obtain ⟨⟨handles, held⟩, t, taken, more⟩ := facts
  have frames := congrArg List.length (claimed _ s reached .exec t 2 taken handles held).frames
  omega

/-! ### Steps that send none -/

/-- How many PUBRELs with this packet id were handed to the connection. -/
def pubrelsSent (s : Sys) (p : UInt16) : Nat := s.log.countP (Event.releases p)

/-- No PUBREL is sent for `p`, and its entry is not touched but perhaps dropped. -/
structure Rests (p : UInt16) (s t : Sys) : Prop where
  sent : t.pubrelsSent p = s.pubrelsSent p
  entry : ∀ entry, t.pendingPubrecs.find? p = some entry → s.pendingPubrecs.find? p = some entry

theorem Rests.trans (first : Rests p s t) (later : Rests p t u) : Rests p s u :=
  ⟨later.sent.trans first.sent, fun entry found => first.entry entry (later.entry entry found)⟩

theorem rests_same (log : t.log = s.log) (pubrecs : t.pendingPubrecs = s.pendingPubrecs) : Rests p s t :=
  ⟨by rw [pubrelsSent, log, pubrelsSent], fun _ => pubrecs ▸ id⟩

theorem rests_news (news : List Event) (log : t.log = news ++ s.log) (quiet : ∀ e ∈ news, e.releases p = false)
    (entry : ∀ entry, t.pendingPubrecs.find? p = some entry → s.pendingPubrecs.find? p = some entry) : Rests p s t := by
  refine ⟨?_, entry⟩
  have none : news.countP (Event.releases p) = 0 := List.countP_eq_zero.mpr fun e among => by simp [quiet e among]
  rw [pubrelsSent, log, List.countP_append, none, Nat.zero_add, pubrelsSent]

theorem rests_of_calm (calm : Calm s t) : Rests p s t := by
  obtain ⟨news, log, each⟩ := calm.log
  refine rests_news _ log (fun e among => ?_) (calm.pubrecs p)
  have still := each e among
  cases e with
  | handed packet => cases packet <;> first | rfl | contradiction
  | _ => rfl

theorem rests_of_acked {pt : PacketType} (acked : Acked pt q s t) : Rests p s t := by
  refine rests_news (s.successReport q ++ [.received pt q []]) (by rw [acked.log]; simp) (fun e among => ?_)
    (acked.pubrecs p)
  rcases List.mem_append.mp among with told | received
  · unfold successReport at told
    split at told
    · contradiction
    · split at told
      · rw [List.mem_singleton.mp told]
        rfl
      · contradiction
  · rw [List.mem_singleton.mp received]
    rfl

theorem rests_tellPublish (s : Sys) (cb : Callback) (ok : Bool) (topic : Bytes) (qos : UInt8) (q : UInt16) :
    Rests p s (s.tellPublish cb ok topic qos q) := by
  refine rests_news _ (tellPublish_log s cb ok topic qos q) (fun e among => ?_) fun _ =>
    (tellPublish_publishes s cb ok topic qos q).2 ▸ id
  split at among
  · rw [List.mem_singleton.mp among]
    rfl
  · contradiction

theorem rests_sendPublishEntry (s : Sys) (q : UInt16) : Rests p s (s.sendPublishEntry q) := by
  cases held : s.pendingPublishes.find? q with
  | none =>
    have same : s.sendPublishEntry q = s := by simp [sendPublishEntry, held]
    exact rests_same (by rw [same]) (by rw [same])
  | some entry =>
    obtain ⟨pkt, -, log, -, pubrecs⟩ := sendPublishEntry_same held
    exact rests_news [.handed (.publish pkt)] log (fun e among => List.mem_singleton.mp among ▸ rfl)
      fun _ => pubrecs ▸ id

theorem rests_record {e : Event} (quiet : e.releases p = false) : Rests p s (s.record e) :=
  rests_news [e] rfl (fun _ among => List.mem_singleton.mp among ▸ quiet) fun _ => id

theorem rests_asyncPublishImpl (topic payload : Bytes) (qos : UInt8) (cb : Callback) :
    Rests p s (s.asyncPublishImpl topic payload qos cb) := by
  unfold asyncPublishImpl
  split
  · exact rests_tellPublish _ _ _ _ _ _
  split
  · exact rests_tellPublish _ _ _ _ _ _
  split
  · exact rests_tellPublish _ _ _ _ _ _
  split
  · exact rests_news [.handed (.publish { topicName := topic, payload }), .accepted 0 0 cb] rfl
      (fun e among => by
        rcases List.mem_cons.mp among with rfl | last
        · rfl
        · exact List.mem_singleton.mp last ▸ rfl) fun _ => id
  dsimp only
  split
  · exact rests_same rfl rfl
  split
  · exact Rests.trans (t := s.acquirePacketId.1) (rests_same rfl rfl) (rests_tellPublish _ _ _ _ _ _)
  · refine Rests.trans ?_ (rests_sendPublishEntry _ _)
    exact rests_news [.accepted _ qos cb] rfl (fun e among => List.mem_singleton.mp among ▸ rfl) fun _ => id

theorem rests_onPublishRetry (s : Sys) (q : UInt16) : Rests p s (s.onPublishRetry q) := by
  unfold onPublishRetry
  split
  · exact rests_same rfl rfl
  · split
    · exact rests_same rfl rfl
    · rename_i entry _ _
      let v : Sys := { s with
        pendingPublishes := s.pendingPublishes.insert q { entry with attempts := entry.attempts + 1 } }
      exact Rests.trans (t := v) (rests_same rfl rfl) (rests_sendPublishEntry v q)

/-! ### Every step -/

theorem sendPubrel_sent (s : Sys) (q : UInt16) :
    (s.sendPubrel q).pubrelsSent p = s.pubrelsSent p + (if q = p then 1 else 0) := by
  rw [pubrelsSent, (sendPubrel_same s q).1, List.countP_cons, pubrelsSent]
  simp [Event.releases]

/-- The step handles an expiry of the PUBREL timer of `p` when its entry counts two retries. -/
def overruns (p : UInt16) (s : Sys) : Action → Bool
  | .exec =>
      match s.net.stack with
      | .own (.timer (.pubrecRetry q) none) :: _ =>
          q == p && (s.pendingPubrecs.find? p).any fun entry => entry.attempts == 2
      | _ => false
  | _ => false

/-- A PUBREL of `p` is sent once more, and counted. -/
structure Resends (p : UInt16) (entry : PendingPubrec) (s t : Sys) : Prop where
  held : s.pendingPubrecs.find? p = some entry
  fewer : entry.attempts < 3
  sent : t.pubrelsSent p = s.pubrelsSent p + 1
  entry : t.pendingPubrecs.find? p = some { entry with attempts := entry.attempts + 1 }

theorem onPubrecRetry_resends (s : Sys) (q : UInt16) : Rests p s (s.onPubrecRetry q) ∨
    q = p ∧ ∃ entry, Resends p entry s (s.onPubrecRetry q) := by
  unfold onPubrecRetry
  cases held : s.pendingPubrecs.find? q with
  | none => exact .inl (rests_same rfl rfl)
  | some entry =>
    dsimp only
    split
    · exact .inl (rests_same rfl rfl)
    · rename_i fewer
      let v : Sys := { s with
        pendingPubrecs := s.pendingPubrecs.insert q { entry with attempts := entry.attempts + 1 } }
      obtain ⟨-, -, pubrecs⟩ := sendPubrel_same v q
      have sent := sendPubrel_sent (p := p) v q
      by_cases same : q = p
      · subst same
        refine .inr ⟨rfl, entry, held, not_le.mp fewer, ?_, ?_⟩
        · rwa [if_pos rfl] at sent
        · show (v.sendPubrel q).pendingPubrecs.find? q = _
          rw [pubrecs, OrderedMap.find?_insert, if_pos rfl]
      · rw [if_neg same] at sent
        refine .inl ⟨sent, fun other found => ?_⟩
        change (v.sendPubrel q).pendingPubrecs.find? p = _ at found
        rwa [pubrecs, OrderedMap.find?_insert, if_neg (Ne.symm same)] at found

theorem rests_handlePubrec {data : Bytes} (other : parseId data ≠ p) : Rests p s (s.handlePubrec data) := by
  cases pending : s.pendingPublishes.contains (parseId data) with
  | false => exact handlePubrec_absent pending ▸ rests_record rfl
  | true =>
    obtain ⟨v, same, -, log, timer, pubrecs⟩ := handlePubrec_pending pending
    have sent := sendPubrel_sent (p := p) v (parseId data)
    rw [if_neg other] at sent
    rw [same]
    refine ⟨sent.trans ?_, fun entry found => ?_⟩
    · rw [pubrelsSent, log]
      rfl
    · rw [(sendPubrel_same v _).2.2, pubrecs, OrderedMap.find?_insert, if_neg (Ne.symm other)] at found
      exact found

theorem pubrels_step {a : Action} (taken : s.step a = some t) (another : s.deed a ≠ .pubrec p) : Rests p s t ∨
    ∃ rest entry, a = .exec ∧ s.net.stack = .own (.timer (.pubrecRetry p) none) :: rest ∧ Resends p entry s t := by
  have popping : ∀ {u : Sys}, s.Popped u → Rests p s u := fun popped =>
    rests_same (by rw [popped.same]) (by rw [popped.same])
  cases deed : s.deed a with
  | connect =>
    have connects := step_exchanges taken
    rw [deed] at connects
    refine .inl (rests_news [.connectCalled] connects.log (fun e among => List.mem_singleton.mp among ▸ rfl) ?_)
    exact fun _ => connects.pubrecs ▸ id
  | puback q =>
    have acked := step_exchanges taken
    rw [deed] at acked
    exact .inl (rests_of_acked acked)
  | pubcomp q =>
    have acked := step_exchanges taken
    rw [deed] at acked
    exact .inl (rests_of_acked acked)
  | pubrec q =>
    obtain ⟨u, data, handled, popped, -⟩ := deed_handles taken (by simp [deed]) (by simp [deed])
    rw [deed] at handled
    obtain ⟨rfl, rfl⟩ := handled
    refine .inl ((popping popped).trans (rests_handlePubrec fun same => another ?_))
    rw [deed, same]
  | other =>
    cases (steps taken).2 with
    | work k rest front busy =>
      have going : ∀ {v : Sys}, Rests p (s.goesOn rest) v → Rests p s v := (popping (popped_goesOn front)).trans
      cases stirring : stirs k with
      | false => exact .inl (going (rests_of_calm (calm_execute _ stirring)))
      | true =>
        cases k with
        | asyncPublishImpl topic payload qos cb => exact .inl (going (rests_asyncPublishImpl topic payload qos cb))
        | handlePacket attempt data =>
          have quiet : packetDeed data = .other := by simpa [Sys.deed, front] using deed
          exact .inl (going (rests_of_calm (calm_handlePacket _ attempt quiet)))
        | timer h ec =>
          cases ec with
          | some ec => exact .inl (going (rests_same rfl rfl))
          | none =>
            cases h with
            | connectTimeout => exact .inl (going (rests_of_calm (calm_handleConnectTimeout _)))
            | ping => exact .inl (going (rests_of_calm (calm_write _ rfl)))
            | pingDeadline => exact .inl (going (rests_of_calm (calm_push _ _)))
            | publishRetry q => exact .inl (going (rests_onPublishRetry _ q))
            | pubrecRetry q =>
              rcases onPubrecRetry_resends (p := p) (s.goesOn rest) q with rests | ⟨rfl, entry, again⟩
              · exact .inl (going rests)
              · exact .inr ⟨rest, entry, rfl, front, again.held, again.fewer, again.sent, again.entry⟩
        | _ => contradiction
    | invoke call rest front =>
      exact .inl ((popping (popped_recordCall front)).trans (rests_of_calm (calm_onInvoke _ call)))
    | call c allowed => exact .inl (rests_of_calm (calm_call s deed))
    | _ => exact .inl (rests_same rfl rfl)

/-! ### The budget -/

/-- Since `base` PUBRELs were sent for `p`, there was one more than its entry counts. -/
def Tallied (p : UInt16) (base : Nat) (s : Sys) : Prop :=
  ∀ entry, s.pendingPubrecs.find? p = some entry → s.pubrelsSent p = base + entry.attempts + 1

theorem tallied_step {a : Action} {base : Nat} (taken : s.step a = some t) (another : s.deed a ≠ .pubrec p)
    (tallied : Tallied p base s) : Tallied p base t := by
  intro entry found
  rcases pubrels_step taken another with rests | ⟨rest, old, -, -, again⟩
  · rw [rests.sent]
    exact tallied entry (rests.entry entry found)
  · obtain rfl := Option.some.inj (again.entry.symm.trans found)
    have before := tallied old again.held
    show t.pubrelsSent p = base + (old.attempts + 1) + 1
    rw [again.sent]
    omega

theorem pubrelsSent_step {a : Action} (taken : s.step a = some t) (another : s.deed a ≠ .pubrec p) :
    s.pubrelsSent p ≤ t.pubrelsSent p := by
  rcases pubrels_step taken another with rests | ⟨rest, entry, -, -, again⟩
  · exact rests.sent.ge
  · exact again.sent ▸ Nat.le_succ _

theorem pubrelsSent_run {actions : List Action} (done : Runs.exec step s actions = some t)
    (once : Runs.Along step (fun m b => m.deed b ≠ .pubrec p) s actions) : s.pubrelsSent p ≤ t.pubrelsSent p := by
  induction actions generalizing s with
  | nil => exact (congrArg (pubrelsSent · p) (Option.some.inj done)).le
  | cons a rest ih =>
    obtain ⟨m, first, later⟩ := Runs.exec_cons done
    obtain ⟨another, along⟩ := once m first
    exact (pubrelsSent_step first another).trans (ih later along)

theorem overruns_sends {a : Action} (taken : s.step a = some t) (overruns : s.overruns p a = true) :
    t.pubrelsSent p = s.pubrelsSent p + 1 ∧ ∃ entry, s.pendingPubrecs.find? p = some entry ∧ entry.attempts = 2 := by
  unfold Sys.overruns at overruns
  split at overruns
  · split at overruns
    · rename_i q rest front
      simp only [Bool.and_eq_true, beq_iff_eq, Option.any_eq_true] at overruns
      obtain ⟨rfl, entry, held, two⟩ := overruns
      refine ⟨?_, entry, held, two⟩
      rw [exec_work front taken]
      show ((s.goesOn rest).onPubrecRetry q).pubrelsSent q = _
      have stored : (s.goesOn rest).pendingPubrecs.find? q = some entry := held
      simp only [onPubrecRetry, stored, two]
      rw [if_neg (by decide), sendPubrel_sent, if_pos rfl]
      rfl
    · contradiction
  · contradiction

theorem budget_run {actions : List Action} {base : Nat} (tallied : Tallied p base s)
    (few : s.pubrelsSent p ≤ base + 3) (done : Runs.exec step s actions = some t)
    (once : Runs.Along step (fun m b => m.deed b ≠ .pubrec p) s actions) :
    t.pubrelsSent p ≤ base + 3 ↔ Runs.Along step (fun m b => m.overruns p b = false) s actions := by
  induction actions generalizing s with
  | nil => exact iff_of_true (Option.some.inj done ▸ few) trivial
  | cons a rest ih =>
    obtain ⟨m, first, later⟩ := Runs.exec_cons done
    obtain ⟨another, along⟩ := once m first
    cases late : s.overruns p a with
    | true =>
      -- the fourth PUBREL is sent, and none is taken back
      obtain ⟨sent, entry, held, two⟩ := overruns_sends first late
      have grown := pubrelsSent_run later along
      have before := tallied entry held
      refine iff_of_false (by omega) fun within => ?_
      exact absurd (late.symm.trans (within m first).1) nofun
    | false =>
      have still : m.pubrelsSent p ≤ base + 3 := by
        rcases pubrels_step first another with rests | ⟨tail, entry, rfl, front, again⟩
        · exact rests.sent ▸ few
        · have before := tallied entry again.held
          have other : entry.attempts ≠ 2 := by simpa [Sys.overruns, front, again.held] using late
          have fewer := again.fewer
          rw [again.sent]
          omega
      rw [ih (tallied_step first another tallied) still later along]
      constructor
      · intro within n taken
        obtain rfl := Option.some.inj (first.symm.trans taken)
        exact ⟨late, within⟩
      · exact fun within => (within m first).2

/-- After the PUBREC of a QoS 2 publish, and until there is another, at most three PUBRELs are sent exactly
if no expiry of their timer is handled after two retries. -/
theorem pubrel_budget_iff {a : Action} {between : List Action} (taken : s.step a = some t)
    (handles : s.deed a = .pubrec p) (pending : s.exactlyOnce p = true) (later : Runs.exec step t between = some u)
    (once : Runs.Along step (fun m b => m.deed b ≠ .pubrec p) t between) :
    u.pubrelsSent p ≤ s.pubrelsSent p + 3 ↔ Runs.Along step (fun m b => m.overruns p b = false) t between := by
  obtain ⟨v, data, handled, popped, -⟩ := deed_handles taken (by simp [handles]) (by simp [handles])
  rw [handles] at handled
  obtain ⟨rfl, rfl⟩ := handled
  have same : v.log = s.log ∧ v.pendingPublishes = s.pendingPublishes := by
    rw [popped.same]
    exact ⟨rfl, rfl⟩
  have bound : v.pendingPublishes.contains (parseId data) = true := by
    obtain ⟨entry, found, -⟩ := (Option.any_eq_true _ _).mp pending
    exact contains_of_find? (same.2 ▸ found)
  obtain ⟨w, sends, -, log, timer, pubrecs⟩ := handlePubrec_pending bound
  have first : (v.handlePubrec data).pubrelsSent (parseId data) = s.pubrelsSent (parseId data) + 1 := by
    rw [sends, sendPubrel_sent, if_pos rfl, pubrelsSent, log, same.1]
    rfl
  refine budget_run (fun entry found => ?_) (by omega) later once
  rw [sends, (sendPubrel_same w _).2.2, pubrecs, OrderedMap.find?_insert, if_pos rfl] at found
  obtain rfl := Option.some.inj found
  exact first

/-- The timer of the PUBREL expires and is handled. -/
def expired2 : List Action := [.advance 5000, .expire 1, .run, .exec, .run]

/-- The broker does not answer the PUBREL. -/
def unanswered2 : List Action := [.exec, .run, .exec, .run] ++ expired2 ++ expired2

/-- The broker leaves a PUBREL unanswered for ten seconds. -/
theorem pubrel_retried_twice :
    ∃ s t u : Sys, s.step .exec = some t ∧ s.deed .exec = .pubrec 2 ∧ s.exactlyOnce 2 = true ∧
    Runs.exec step t unanswered2 = some u ∧ (u.pubrelsSent 2 ≤ s.pubrelsSent 2 + 3 ↔
      Runs.Along step (fun m b => m.overruns 2 b = false) t unanswered2) := by
  have run : (Runs.exec step ({} : Sys) (opened ++ publishing 2 ++ (receive 0x50 2 0 2).dropLast)).map (fun s =>
      s.deed .exec == .pubrec 2 && s.exactlyOnce 2 && (s.step .exec).any fun t =>
        (Runs.exec step t unanswered2).isSome &&
          decide (Runs.Along step (fun m b => m.deed b ≠ .pubrec 2) t unanswered2)) =
      some true := by
    decide +kernel
  obtain ⟨s, -, facts⟩ := Runs.exec_of_check run
  simp only [Bool.and_eq_true, beq_iff_eq, Option.any_eq_true, decide_eq_true_eq] at facts
  obtain ⟨⟨handles, pending⟩, t, taken, done, once⟩ := facts
  obtain ⟨u, later⟩ := Option.isSome_iff_exists.mp done
  exact ⟨s, t, u, taken, handles, pending, later, pubrel_budget_iff taken handles pending later once⟩

/-- After fifteen seconds four PUBRELs have been sent, and the session is still up. -/
theorem pubrel_sent_four_times : ¬ ∀ actions s, Runs.exec step ({} : Sys) actions = some s →
    ∀ p a t between u, s.step a = some t → s.deed a = .pubrec p → s.exactlyOnce p = true →
      Runs.exec step t between = some u → Runs.Along step (fun m b => m.deed b ≠ .pubrec p ∧ m.deed b ≠ .pubcomp p ∧
        m.closed = false) t between → u.pubrelsSent p ≤ s.pubrelsSent p + 3 := by
  intro claimed
  have run : (Runs.exec step ({} : Sys) (opened ++ publishing 2 ++ (receive 0x50 2 0 2).dropLast)).map (fun s =>
      s.deed .exec == .pubrec 2 && s.exactlyOnce 2 && (s.step .exec).any fun t =>
        ((Runs.exec step t (unanswered2 ++ expired2)).any fun u => u.pubrelsSent 2 == s.pubrelsSent 2 + 4) &&
        decide (Runs.Along step (fun m b => m.deed b ≠ .pubrec 2 ∧ m.deed b ≠ .pubcomp 2 ∧ m.closed = false) t
          (unanswered2 ++ expired2))) = some true := by
    decide +kernel
  obtain ⟨s, reached, facts⟩ := Runs.exec_of_check run
  simp only [Bool.and_eq_true, beq_iff_eq, Option.any_eq_true, decide_eq_true_eq] at facts
  obtain ⟨⟨handles, pending⟩, t, taken, ⟨u, later, four⟩, ongoing⟩ := facts
  have few := claimed _ s reached 2 .exec t _ u taken handles pending later ongoing
  omega

end Sys
end LiteMqtt
