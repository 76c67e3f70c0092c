import LiteMqtt.Client.Posting

/-!
# One outcome per connect attempt

`on_connect_cb_` is called for a failed connect, for the connect timer and for a CONNACK, and
none of these takes the others back. An attempt has one outcome if the connect timer and the
CONNACK come while the attempt is going on, if no earlier attempt interferes, and if the next
attempt does not start before the outcome is reported.
-/

namespace LiteMqtt

/-- The outcomes reported since the last `async_connect`. -/
def outcomes : List Event → Nat
  | [] => 0
  | .connectCalled :: _ => 0
  | .connectReport .. :: earlier => outcomes earlier + 1
  | _ :: earlier => outcomes earlier

def isConnack : Bytes → Bool
  | [] => false
  | byte :: _ => PacketType.ofUint8 (byte >>> 4) == .connack

namespace Sys

variable {s t u : Sys}

/-- The resolve or the TCP connect of the last attempt may still fail or get through. -/
def attempting (s : Sys) : Bool := decide (0 < s.net.outstanding (.connect s.attempts))

def awaitsConnack (s : Sys) : Bool :=
  s.attempts == 0 || (s.net.state == .handshaking && !s.net.closed)

/-- What is handled for an attempt is handled in time: a completion of a resolve or a TCP
connect belongs to the last attempt, the connect timer and a CONNACK find it in progress, and
`async_connect` is not called between a failure and its report. -/
def timely (s : Sys) : Action → Bool
  | .run =>
      match s.net.ready with
      | .connected h _ _ none :: _ => s.closed || h == .connect s.attempts
      | _ => true
  | .exec =>
      match s.net.stack with
      | .invoke (.connect h (some _)) :: _ => s.closed || !s.onConnectCb || h == .connect s.attempts
      | .own (.timer (.connectTimeout _) none) :: _ => s.closed || s.attempting || s.awaitsConnack
      | .own (.handlePacket _ data) :: _ => !isConnack data || s.awaitsConnack
      | _ => true
  | .call (.asyncConnect _) => s.net.running.all fun k => k.topic != some .connect
  | .call (.handlePacket data) => !isConnack data || s.awaitsConnack
  | _ => true

def Timely (s : Sys) (a : Action) : Prop := s.timely a = true

instance (s : Sys) (a : Action) : Decidable (s.Timely a) := inferInstanceAs (Decidable (_ = true))

/-- Outcomes that running code is about to report. -/
def reporting (s : Sys) : Nat := s.net.running.countP fun k => k.topic == some .connect

def told (s : Sys) : Nat := outcomes s.log + s.reporting

/-- The invariant of an attempt. Once it has its outcome, neither a completion nor a CONNACK
can report another. -/
structure Attempt (s : Sys) : Prop where
  single : s.net.outstanding (.connect s.attempts) ≤ 1
  underway : 0 < s.net.outstanding (.connect s.attempts) → s.net.closed = true ∨ s.net.state ≠ .handshaking
  few : s.told ≤ 1
  settled : s.told = 1 → (s.closed = true ∨ s.net.outstanding (.connect s.attempts) = 0) ∧
    (s.net.closed = true ∨ s.net.state ≠ .handshaking)

structure Outcome (s : Sys) : Prop where
  fresh : ∀ i, s.attempts < i → s.net.outstanding (.connect i) = 0
  attempt : 0 < s.attempts → s.Attempt

/-- Nothing happens to the attempt. -/
structure Drifts (s t : Sys) : Prop where
  attempts : t.attempts = s.attempts
  outstanding : ∀ h, t.net.outstanding h ≤ s.net.outstanding h
  closed : s.closed = true → t.closed = true
  shut : s.net.closed = true → t.net.closed = true
  handshaking : t.net.state = .handshaking → s.net.state = .handshaking
  told : t.told ≤ s.told

theorem Drifts.refl (s : Sys) : Drifts s s := ⟨rfl, fun _ => Nat.le_refl _, id, id, id, Nat.le_refl _⟩

theorem Drifts.trans (h : Drifts s t) (g : Drifts t u) : Drifts s u :=
  ⟨g.attempts.trans h.attempts, fun x => (g.outstanding x).trans (h.outstanding x), g.closed ∘ h.closed,
    g.shut ∘ h.shut, h.handshaking ∘ g.handshaking, g.told.trans h.told⟩

theorem drifts_of_tame (h : Net.Tame s.net t.net) (attempts : t.attempts = s.attempts)
    (closed : t.closed = s.closed) (log : outcomes t.log = outcomes s.log) : Drifts s t :=
  ⟨attempts, fun x => Nat.le_of_eq (h.outstanding x), fun now => closed ▸ now, h.closed, h.handshaking, by
    rw [told, told, reporting, reporting, h.running, log]⟩

theorem Attempt.drifts (h : s.Attempt) (drifts : Drifts s t) : t.Attempt := by
  have fewer := drifts.outstanding (.connect s.attempts)
  have told := drifts.told
  have few := h.few
  have shut : s.net.closed = true ∨ s.net.state ≠ .handshaking → t.net.closed = true ∨ t.net.state ≠ .handshaking :=
    Or.imp drifts.shut fun before now => before (drifts.handshaking now)
  refine ⟨?_, ?_, by omega, ?_⟩ <;> rw [drifts.attempts]
  · exact fewer.trans h.single
  · exact fun more => shut (h.underway (by omega))
  · intro one
    obtain ⟨ended, left⟩ := h.settled (by omega)
    exact ⟨ended.imp drifts.closed fun none => by omega, shut left⟩

theorem Outcome.drifts (h : s.Outcome) (drifts : Drifts s t) : t.Outcome := by
  refine ⟨fun i later => ?_, fun some => ?_⟩
  · have := drifts.outstanding (.connect i)
    have := h.fresh i (drifts.attempts ▸ later)
    omega
  · exact (h.attempt (drifts.attempts ▸ some)).drifts drifts

theorem outcomes_other {e : Event} (other : e.topic ≠ some .connect) (log : List Event) :
    outcomes (e :: log) = outcomes log := by
  cases e with
  | connectCalled => exact absurd rfl other
  | connectReport => exact absurd rfl other
  | _ => rfl

theorem drifts_push {k : Work} (other : k.topic ≠ some .connect) : Drifts s (s.push [k]) := by
  refine ⟨rfl, fun _ => Nat.le_refl _, id, id, id, ?_⟩
  rw [told, reporting, push_running, List.countP_cons_of_neg (by simpa using other)]
  exact Nat.le_refl _

theorem drifts_closeConnection (s : Sys) : Drifts s s.closeConnection := by
  refine drifts_of_tame (closeConnection_tame s) ?_ ?_ ?_ <;> unfold closeConnection <;> split <;> rfl

theorem drifts_apply {e : Effect}
    (h : e.within [.publish, .subscribe, .session, .loop, .packet, .settings, .crash] = true) :
    Drifts s (s.apply e) := by
  have other : e.topic ≠ some .connect := by
    intro same
    simp [Effect.within, same] at h
  cases e with
  | record e =>
    exact drifts_of_tame (.refl _) rfl rfl (outcomes_other other s.log)
  | push k => exact drifts_push other
  | post k => exact drifts_of_tame (Net.tame_post _ rfl) rfl rfl rfl
  | write p handler => exact drifts_of_tame (write_tame s p handler) rfl rfl rfl
  | closeConnection => exact drifts_closeConnection s
  | cancelTimer timer => exact drifts_of_tame (cancelTimer_tame s timer) rfl rfl rfl
  | startReadLoop attempt => exact drifts_of_tame (Net.tame_asyncReadPacket _ _) rfl rfl rfl
  | setClosed => exact ⟨rfl, fun _ => Nat.le_refl _, fun _ => rfl, id, id, Nat.le_refl _⟩
  | asyncConnect => exact absurd rfl other
  | accept => exact absurd rfl other
  | _ => exact drifts_of_tame (.refl _) rfl rfl rfl

theorem drifts_does {topics : List Topic} (h : Does topics s t)
    (few : topics ⊆ [.publish, .subscribe, .session, .loop, .packet, .settings, .crash]) : Drifts s t :=
  (h.mono few).keeps (fun _ _ inside before => before.trans (drifts_apply inside)) (.refl s)

theorem drifts_goesOn {k : Work} {rest : List (StackEntry Handler Work)} (front : s.net.stack = .own k :: rest) :
    Drifts s (s.goesOn rest) := by
  refine ⟨rfl, fun x => ?_, id, id, id, ?_⟩
  · simp [Net.outstanding, goesOn, front, List.filterMap_cons, StackEntry.failing?]
  · rw [told, told, reporting, reporting, goesOn_running front, List.countP_cons]
    change outcomes s.log + _ ≤ outcomes s.log + _
    omega

/-- The connection goes on with code of its own. -/
theorem drifts_resumed {entry : StackEntry Handler Work} {rest : List (StackEntry Handler Work)}
    {n : Net Handler Work} (front : s.net.stack = entry :: rest) (own : entry.own? = none)
    (tame : Net.Tame (s.goesOn rest).net n) : Drifts s { s with net := n } := by
  have running : n.running = s.net.running := by
    rw [tame.running, Net.running, Net.running, front, List.filterMap_cons, own]
    rfl
  refine ⟨rfl, fun x => (tame.outstanding x).trans_le ?_, id, tame.closed, tame.handshaking, ?_⟩
  · simp only [Net.outstanding, goesOn, front, List.filterMap_cons]
    split
    · exact Nat.le_refl _
    · simp only [List.count_cons]
      omega
  · rw [told, reporting, running]
    exact Nat.le_refl _

/-! ### An outcome is reported -/

/-- The attempt gets its outcome: it had none, and what could bring another is over. -/
theorem Attempt.reported (h : s.Attempt) (open_ : ¬ (s.told = 1)) (attempts : t.attempts = s.attempts)
    (outstanding : t.net.outstanding (.connect s.attempts) ≤ s.net.outstanding (.connect s.attempts))
    (told : t.told ≤ s.told + 1)
    (ended : t.closed = true ∨ t.net.outstanding (.connect s.attempts) = 0)
    (left : t.net.closed = true ∨ t.net.state ≠ .handshaking) : t.Attempt := by
  have few := h.few
  refine ⟨?_, ?_, by omega, ?_⟩ <;> rw [attempts]
  · exact outstanding.trans h.single
  · exact fun _ => left
  · exact fun _ => ⟨ended, left⟩

theorem told_report (s : Sys) (ok : Bool) (rc : UInt8) : (s.reportConnect ok rc).told ≤ s.told + 1 := by
  unfold reportConnect
  split
  · have frame : (s.push [.user]).reporting = s.reporting := by
      rw [reporting, push_running, List.countP_cons_of_neg (by decide), reporting]
    change outcomes s.log + 1 + (s.push [.user]).reporting ≤ _
    rw [frame, told]
    omega
  · exact Nat.le_succ _

theorem reportConnect_same (s : Sys) (ok : Bool) (rc : UInt8) :
    (s.reportConnect ok rc).attempts = s.attempts ∧ (s.reportConnect ok rc).closed = s.closed ∧
      (s.reportConnect ok rc).net.closed = s.net.closed ∧ (s.reportConnect ok rc).net.state = s.net.state ∧
      ∀ h, (s.reportConnect ok rc).net.outstanding h = s.net.outstanding h := by
  unfold reportConnect
  split <;> exact ⟨rfl, rfl, rfl, rfl, fun _ => rfl⟩

/-- A pending report is made. -/
theorem drifts_reporting {ok : Bool} {rc : UInt8} {rest : List (StackEntry Handler Work)}
    (front : s.net.stack = .own (.reportConnect ok rc) :: rest) :
    Drifts s ((s.goesOn rest).reportConnect ok rc) := by
  obtain ⟨attempts, closed, shut, state, outstanding⟩ := reportConnect_same (s.goesOn rest) ok rc
  have pop := drifts_goesOn front
  refine ⟨attempts, fun x => (outstanding x).trans_le (pop.outstanding x), fun now => closed ▸ now,
    fun now => shut ▸ now, fun now => state ▸ now, (told_report _ ok rc).trans ?_⟩
  have counted : s.reporting = (s.goesOn rest).reporting + 1 := by
    rw [reporting, goesOn_running front, List.countP_cons_of_pos rfl, reporting]
  change outcomes s.log + (s.goesOn rest).reporting + 1 ≤ outcomes s.log + s.reporting
  omega

theorem reporting_push (s : Sys) (ok : Bool) (rc : UInt8) :
    (s.push [.reportConnect ok rc]).told = s.told + 1 := by
  rw [told, reporting, push_running, List.countP_cons_of_pos rfl]
  rfl

theorem handshaking_of_awaits (some : 0 < s.attempts) (awaits : s.awaitsConnack = true) :
    ¬ (s.net.closed = true ∨ s.net.state ≠ .handshaking) := by
  simp [awaitsConnack, Nat.ne_of_gt some] at awaits
  simp [awaits]

/-- An attempt that is going on has no outcome. -/
theorem Attempt.open (h : s.Attempt) (some : 0 < s.attempts)
    (going : s.closed = false ∧ s.attempting = true ∨ s.awaitsConnack = true) : s.told ≠ 1 := by
  intro one
  obtain ⟨ended, left⟩ := h.settled one
  rcases going with ⟨opened, going⟩ | awaits
  · have none := ended.resolve_left (by simp [opened])
    simp [attempting, none] at going
  · exact handshaking_of_awaits some awaits left

/-- The attempt is given up, by the connect timer or a refused CONNACK. -/
theorem outcome_fails (h : s.Outcome) (rc : UInt8) (unsettled : 0 < s.attempts → s.told ≠ 1) :
    (({ s with closed := true }.push [.reportConnect false rc]).closeConnection).Outcome := by
  let u : Sys := { s with closed := true }
  have closing := drifts_closeConnection (u.push [.reportConnect false rc])
  refine ⟨fun i later => ?_, fun some => ?_⟩
  · exact Nat.le_zero.mp ((closing.outstanding (.connect i)).trans_eq (h.fresh i (closing.attempts ▸ later)))
  · have some : 0 < s.attempts := closing.attempts ▸ some
    exact (h.attempt some).reported (unsettled some) closing.attempts (closing.outstanding _)
      (closing.told.trans_eq (reporting_push u false rc)) (.inl (closing.closed rfl))
      (.inl (closeConnection_closed _))

theorem outcome_handleConnectTimeout (h : s.Outcome)
    (due : s.closed = true ∨ s.attempting = true ∨ s.awaitsConnack = true) : s.handleConnectTimeout.Outcome := by
  unfold handleConnectTimeout
  split
  · exact h
  · rename_i opened
    refine outcome_fails h 255 fun some => (h.attempt some).open some ?_
    rcases due with shut | going | awaits
    · exact absurd shut opened
    · exact .inl ⟨by simpa using opened, going⟩
    · exact .inr awaits

theorem outcome_handleConnack (h : s.Outcome) (data : Bytes) (awaits : s.awaitsConnack = true) :
    (s.handleConnack data).Outcome := by
  let u := (s.cancelTimer connectTimer).record (.received .connack 0 [(ConnackPacket.parse data).returnCode])
  have drifts : Drifts s u := drifts_of_tame (cancelTimer_tame s connectTimer) rfl rfl rfl
  have before := h.drifts drifts
  have waits : u.awaitsConnack = true := awaits
  have unsettled : 0 < u.attempts → u.told ≠ 1 := fun some => (before.attempt some).open some (.inr waits)
  unfold handleConnack
  dsimp only
  split
  · refine ⟨before.fresh, fun some => ?_⟩
    have attempt := before.attempt some
    have through : u.net.outstanding (.connect u.attempts) = 0 := by
      by_contra more
      exact handshaking_of_awaits (s := u) some waits (attempt.underway (Nat.pos_of_ne_zero more))
    exact attempt.reported (unsettled some) rfl (Nat.le_refl _)
      (Nat.le_of_eq (reporting_push { u with net := u.net.markConnected, closed := false } true 0))
      (.inr through) (.inr nofun)
  · exact outcome_fails before _ unsettled

theorem asyncConnect_attempts (s : Sys) (callback : Bool) : (s.asyncConnect callback).attempts = s.attempts + 1 ∧
    (s.asyncConnect callback).log = .connectCalled :: s.log ∧
    (s.asyncConnect callback).net.running = s.net.running ∧
    (s.asyncConnect callback).net.state = .connecting ∧
    ∀ h, (s.asyncConnect callback).net.outstanding h =
      s.net.outstanding h + [Handler.connect (s.attempts + 1)].count h := by
  unfold asyncConnect
  dsimp only
  split
  · refine ⟨rfl, rfl, rfl, rfl, fun h => ?_⟩
    rw [Net.asyncConnect_outstanding]
    exact congrArg (· + _) ((cancelTimer_tame s connectTimer).outstanding h)
  · exact ⟨rfl, rfl, rfl, rfl, fun h => Net.asyncConnect_outstanding _ _ h⟩

theorem outcome_asyncConnect (h : s.Outcome) (callback : Bool)
    (quiet : s.net.running.all (fun k => k.topic != some .connect) = true) : (s.asyncConnect callback).Outcome := by
  obtain ⟨attempts, log, running, state, outstanding⟩ := asyncConnect_attempts s callback
  have none : (s.asyncConnect callback).told = 0 := by
    rw [told, log, reporting, running]
    simpa [outcomes] using quiet
  refine ⟨fun i later => ?_, fun _ => ⟨?_, fun _ => .inr (by rw [state]; decide), by omega, by omega⟩⟩
  · rw [attempts] at later
    have other : (Handler.connect (s.attempts + 1) == Handler.connect i) = false := by
      simp
      omega
    rw [outstanding, h.fresh i (by omega), List.count_singleton, other]
    rfl
  · rw [attempts, outstanding, h.fresh _ (Nat.lt_succ_self _)]
    simp

/-- A failed connect is handled. -/
theorem outcome_onConnect {attempt : Nat} {ec : ErrorCode} {rest : List (StackEntry Handler Work)}
    (h : s.Outcome) (front : s.net.stack = .invoke (.connect (.connect attempt) ec) :: rest)
    (latest : ec.isSome = true → s.closed = true ∨ s.onConnectCb = false ∨ attempt = s.attempts) :
    ((s.goesOn rest).onConnect attempt ec).Outcome := by
  have pop : Drifts s (s.goesOn rest) := drifts_resumed front rfl (.refl _)
  unfold onConnect
  split
  · exact h.drifts pop
  rename_i opened
  split
  · rename_i failed
    obtain ⟨attempts, closed, shut, state, outstanding⟩ := reportConnect_same (s.goesOn rest) false 255
    by_cases called : s.onConnectCb = true
    · obtain rfl : attempt = s.attempts := ((latest failed).resolve_left opened).resolve_left (by simp [called])
      have mine : s.net.outstanding (.connect s.attempts) =
          (s.goesOn rest).net.outstanding (.connect s.attempts) + 1 := by
        obtain ⟨e, rfl⟩ := Option.isSome_iff_exists.mp failed
        simp only [Net.outstanding, goesOn, front, List.filterMap_cons, StackEntry.failing?, List.count_cons]
        simp
        omega
      refine ⟨fun i later => ?_, fun some => ?_⟩
      · rw [outstanding]
        exact Nat.le_zero.mp ((pop.outstanding _).trans_eq (h.fresh i (attempts ▸ later)))
      · have some : 0 < s.attempts := attempts ▸ some
        have before := h.attempt some
        have single := before.single
        have unsettled : s.told ≠ 1 := fun one => by
          have := (before.settled one).1.resolve_left opened
          omega
        refine before.reported unsettled attempts ((outstanding _).trans_le (pop.outstanding _))
          ((told_report _ false 255).trans (Nat.add_le_add_right pop.told 1)) (.inr ?_) ?_
        · rw [outstanding]
          omega
        · rw [shut, state]
          exact before.underway (by omega)
    · have silent : (s.goesOn rest).reportConnect false 255 = s.goesOn rest := if_neg called
      rw [silent]
      exact h.drifts pop
  · exact h.drifts (pop.trans (drifts_of_tame (write_tame _ _ _) rfl rfl rfl))

/-! ### Every step -/

theorem outcome_handlePacket (h : s.Outcome) (attempt : Nat) (data : Bytes)
    (awaits : isConnack data = true → s.awaitsConnack = true) : (s.handlePacket attempt data).Outcome := by
  have does := does_handlePacket s attempt data
  cases data with
  | nil => exact h
  | cons byte rest =>
    unfold packetTopics at does
    unfold handlePacket at does ⊢
    dsimp only at does ⊢
    cases type : PacketType.ofUint8 (byte >>> 4) <;> simp only [type] at does ⊢
    case connack => exact outcome_handleConnack h _ (awaits (by simp [isConnack, type]))
    all_goals exact h.drifts (drifts_does does (by decide))

theorem outcome_work {k : Work} {rest : List (StackEntry Handler Work)} (h : s.Outcome)
    (front : s.net.stack = .own k :: rest) (admitted : s.Timely .exec) :
    ((s.goesOn rest).execute k).Outcome := by
  have pop := drifts_goesOn front
  have popped := h.drifts pop
  have does := does_execute (s.goesOn rest) k
  unfold Timely timely at admitted
  simp only [front] at admitted
  have outstanding :
      (s.goesOn rest).net.outstanding (.connect s.attempts) = s.net.outstanding (.connect s.attempts) := by
    simp only [Net.outstanding, goesOn, front, List.filterMap_cons, StackEntry.failing?]
  have same : (s.goesOn rest).attempting = s.attempting := congrArg (fun n => decide (0 < n)) outstanding
  have awaits : (s.goesOn rest).awaitsConnack = s.awaitsConnack := rfl
  cases k with
  | timer handler ec =>
    change ((s.goesOn rest).onTimer handler ec).Outcome
    have does := does_onTimer (s.goesOn rest) handler ec
    cases handler with
    | connectTimeout attempt =>
      cases ec with
      | some ec => exact popped
      | none =>
        refine outcome_handleConnectTimeout popped ?_
        rw [same, awaits]
        change s.closed = true ∨ _
        simpa [or_assoc] using admitted
    | _ => exact popped.drifts (drifts_does does (by simp [timerTopics]))
  | handlePacket attempt data =>
    refine outcome_handlePacket popped attempt data fun connack => ?_
    rw [awaits]
    simpa [connack] using admitted
  | reportConnect ok rc => exact h.drifts (drifts_reporting front)
  | _ => exact popped.drifts (drifts_does does (by simp [workTopics]))

theorem outcome_run {n : Net Handler Work} (h : s.Outcome) (ending : s.Ending) (posting : s.Posting)
    (sane : s.undefined = false) (ran : s.net.run = some n) (admitted : s.Timely .run) :
    Outcome { s with net := n } := by
  obtain ⟨idle, task, tail, ready, rfl⟩ := Net.run_cases ran
  have effect := Net.runTask_ran (s.net.leaving tail) task
  have left := Net.ready_outstanding ready
  have quiet : s.net.running = [] := by rw [Net.running, idle]; rfl
  have told : Sys.told { s with net := (s.net.leaving tail).runTask task } ≤ s.told := by
    have frames : ∀ k ∈ ((s.net.leaving tail).runTask task).running, (k.topic == some .connect) = false := by
      intro k among
      rw [effect.running, show (s.net.leaving tail).running = s.net.running from rfl, quiet, List.append_nil] at among
      have posted : k ∈ s.net.posted := by
        rw [Net.posted, ready, List.filterMap_cons]
        cases task with
        | own j => exact List.mem_singleton.mp among ▸ .head _
        | _ => exact absurd among List.not_mem_nil
      have kind := posting.posted k posted
      cases k <;> first | rfl | contradiction
    have none : Sys.reporting { s with net := (s.net.leaving tail).runTask task } = 0 :=
      List.countP_eq_zero.mpr fun k among => by simp [frames k among]
    rw [Sys.told, none]
    exact Nat.le_add_right _ _
  have drift : (((s.net.leaving tail).runTask task).state = .handshaking → s.net.state = .handshaking) →
      Drifts s { s with net := (s.net.leaving tail).runTask task } := fun handshaking =>
    ⟨rfl, fun x => (effect.outstanding x).trans_eq (left x), id, effect.closed, handshaking, told⟩
  by_cases through : ((s.net.leaving tail).runTask task).state = .handshaking ∧ s.net.state ≠ .handshaking
  · obtain ⟨⟨handler, rest, socket, rfl⟩, fewer⟩ := (effect.handshaking through.1).resolve_left through.2
    by_cases closed : s.closed = true
    · -- the connection is closed too, so the TCP connect of an attempt given up changes nothing
      have shut : s.net.closed = true := by
        rcases ending closed with shut | ⟨k, among, _⟩ | crashed
        · exact shut
        · rw [quiet] at among
          exact absurd among List.not_mem_nil
        · cases sane.symm.trans crashed
      have shut := effect.closed shut
      refine ⟨fun i later => ?_, fun some => ?_⟩
      · exact Nat.le_zero.mp ((effect.outstanding _).trans_eq ((left _).trans (h.fresh i later)))
      · have before := h.attempt some
        have few := before.few
        refine ⟨((effect.outstanding _).trans_eq (left _)).trans before.single, fun _ => .inl shut, ?_,
          fun _ => ⟨.inl closed, .inl shut⟩⟩
        exact told.trans few
    · have latest : handler = .connect s.attempts := by
        unfold Timely timely at admitted
        simpa [ready, closed] using admitted
      subst latest
      refine ⟨fun i later => ?_, fun some => ?_⟩
      · exact Nat.le_zero.mp ((effect.outstanding _).trans_eq ((left _).trans (h.fresh i later)))
      · have before := h.attempt some
        have single := before.single
        have few := before.few
        have last := left (.connect s.attempts)
        have gone := fewer (.connect s.attempts)
        simp only [Task.connecting?, Option.toList_some, List.count_singleton_self] at last
        have ended : ((s.net.leaving tail).runTask (.connected (.connect s.attempts) rest socket none)).outstanding
            (.connect s.attempts) = 0 := by omega
        refine ⟨by rw [ended]; exact Nat.zero_le _, fun more => ?_, told.trans few, fun one => ?_⟩
        · change 0 < ((s.net.leaving tail).runTask _).outstanding (.connect s.attempts) at more
          omega
        · have first := (before.settled (by omega)).1.resolve_left closed
          omega
  · exact h.drifts (drift fun now => by_contra fun before => through ⟨now, before⟩)

/-- The invariant of every timely run. -/
structure OneOutcome (s : Sys) : Prop where
  ending : s.Ending
  posting : s.Posting
  outcome : s.Outcome

theorem oneOutcome_step {a : Action} (h : s.OneOutcome) (admitted : s.Timely a) (taken : s.step a = some t) :
    t.OneOutcome := by
  refine ⟨ending_step h.ending taken, posting_step h.posting taken, ?_⟩
  obtain ⟨sane, how⟩ := steps taken
  have outcome := h.outcome
  cases how with
  | run n ran => exact outcome_run outcome h.ending h.posting sane ran admitted
  | work k rest front busy => exact outcome_work outcome front admitted
  | invoke call rest front =>
    have recorded : Net.Tame (s.goesOn rest).net ((s.goesOn rest).net.recordCall call) := by
      cases call <;> exact .of_same rfl rfl rfl rfl rfl rfl
    have resumed := drifts_resumed front rfl recorded
    have does := does_onInvoke { s with net := (s.goesOn rest).net.recordCall call } call
    cases call with
    | connect handler ec =>
      cases handler with
      | connect attempt =>
        refine outcome_onConnect outcome front fun failed => ?_
        obtain ⟨e, rfl⟩ := Option.isSome_iff_exists.mp failed
        simpa [Timely, timely, front, or_assoc] using admitted
      | _ => exact outcome.drifts resumed
    | write serial handler ec =>
      refine outcome.drifts (resumed.trans (drifts_does does ?_))
      cases handler <;> simp [invocationTopics]
    | _ => exact outcome.drifts (resumed.trans (drifts_does does (by simp [invocationTopics])))
  | afterWrite ec rest front => exact outcome.drifts (drifts_resumed front rfl (Net.tame_afterWrite _ ec))
  | closeHandler rest front =>
    refine outcome.drifts (drifts_resumed front rfl (Net.tame_push _ fun e among => ?_))
    obtain ⟨h, _, rfl⟩ := List.mem_map.mp among
    exact ⟨rfl, rfl⟩
  | ret rest front => exact outcome.drifts (drifts_goesOn front)
  | call c allowed =>
    have does := does_call s c
    cases c with
    | asyncConnect callback => exact outcome_asyncConnect outcome callback admitted
    | handlePacket data =>
      refine outcome_handlePacket outcome _ data fun connack => ?_
      simpa [Timely, timely, connack] using admitted
    | _ => exact outcome.drifts (drifts_does does (by simp [callTopics]))
  | kernel event n moved => exact outcome.drifts (drifts_of_tame (Net.tame_kernel moved) rfl rfl rfl)
  | expire index w waiting due =>
    exact outcome.drifts (drifts_of_tame (Net.tame_post _ rfl) rfl rfl rfl)
  | advance ms => exact outcome.drifts (drifts_of_tame (.refl _) rfl rfl rfl)

theorem oneOutcome_start : OneOutcome {} where
  ending := nofun
  posting := ⟨nofun, nofun⟩
  outcome := ⟨fun _ _ => rfl, nofun⟩

/-- Since the last `async_connect`, if there was one, at most one outcome was reported. -/
def OneReport (s : Sys) : Prop := 0 < s.attempts → outcomes s.log ≤ 1

/-- In every timely run each connect attempt has at most one outcome. -/
theorem one_outcome_per_attempt (reach : Runs.Reaches step Timely {} s) : s.OneReport := by
  have h := reach.invariant oneOutcome_start fun _ _ _ => oneOutcome_step
  intro some
  exact (Nat.le_add_right _ _).trans (h.outcome.attempt some).few

theorem one_outcome_opened : ∃ s, Runs.Reaches step Timely {} s ∧ outcomes s.log = 1 ∧ s.OneReport := by
  have along : Runs.Along step Timely {} opened := by decide +kernel
  obtain ⟨s, reach, once⟩ := Runs.reaches_of_along (p := fun s => outcomes s.log == 1) along (by decide +kernel)
  exact ⟨s, reach, beq_iff_eq.mp once, one_outcome_per_attempt reach⟩

/-- The TCP connect is refused, and the connect timer expires after that. -/
def refusedThenExpired : List Action :=
  [.call (.asyncConnect true), .kernel (.resolve 0 (.ok 0)), .run, .kernel (.connect 0 (some (.system 111))),
    .run, .exec, .ret, .advance 10000, .expire 0, .run, .exec, .exec, .exec]

/-- The failure of the TCP connect is reported again by the connect timer. -/
theorem failure_reported_twice : ¬ ∀ s, Runs.Reaches step Runs.Any {} s → s.OneReport := by
  intro claimed
  have run : (Runs.exec step ({} : Sys) refusedThenExpired).map
      (fun s => decide (0 < s.attempts) && outcomes s.log == 2) = some true := by
    decide +kernel
  obtain ⟨s, reach, twice⟩ := Runs.reaches_of_exec run
  simp only [Bool.and_eq_true, decide_eq_true_eq, beq_iff_eq] at twice
  have := claimed s reach twice.1
  omega

end Sys
end LiteMqtt
