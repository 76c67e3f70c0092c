import LiteMqtt.Client.GivingUp
import LiteMqtt.Client.Verdicts

/-!
# Closing the connection from outside

`close` leaves it to the close handler of the connection to end the session, and nobody sets that handler.
The session ends only where the handler of an unsent frame calls `notify_closed_once`.
-/

namespace LiteMqtt

/-- The callback of a publish or of a subscription is called. -/
def Event.concludes : Event → Bool
  | .published .. | .subscribeReport .. => true
  | _ => false

namespace Sys

variable {s t u v w : Sys} {floor : Nat} {p : UInt16}

/-- The failure of every pending publish and subscription, and of every QoS 0 publish that is not sent. -/
def window (s : Sys) (items : List (WriteItem Handler)) : List Event :=
  s.pendingPublishes.entries.flatMap publishFailure ++ s.pendingSubscribes.entries.flatMap subscribeFailures ++
    (items.flatMap writeFailure).filter Event.concludes

/-- Nothing of `s` is pending any more, and all of it was told once that it failed. -/
structure Failed (s t : Sys) : Prop where
  empty : t.Emptied
  told : ∃ events : List Event, t.log = events.reverse ++ s.log ∧
    (events.filter Event.concludes).Perm (s.window s.unsent)

/-- The handler ends the session when its write fails. -/
def ends : Handler → Bool
  | .connectWrite _ | .publish _ | .acknowledged | .pingreq _ => true
  | _ => false

/-- The first of these handlers that does more than report ends the session. The write handler of a pending
SUBSCRIBE with a callback goes on with freed memory. -/
def collapses (s : Sys) : List (WriteItem Handler) → Bool
  | [] => false
  | item :: rest =>
      match item.handler with
      | some (.subscribe p) => !s.expects p && s.collapses rest
      | some h => ends h || s.collapses rest
      | none => s.collapses rest

theorem collapses_cons {serial : Nat} {buffer : Bytes} {h : Handler} {rest : List (WriteItem Handler)} :
    s.collapses (⟨serial, buffer, some h⟩ :: rest) = true ↔
      ends h = true ∨ (∀ q, h = .subscribe q → s.expects q = false) ∧ s.collapses rest = true := by
  by_cases subscribes : ∃ p, h = .subscribe p
  · obtain ⟨p, rfl⟩ := subscribes
    show (!s.expects p && s.collapses rest) = true ↔ _
    rw [Bool.and_eq_true, Bool.not_eq_true']
    constructor
    · rintro ⟨quiet, more⟩
      exact .inr ⟨fun q same => Handler.subscribe.inj same ▸ quiet, more⟩
    · rintro (ending | ⟨quiet, more⟩)
      · contradiction
      · exact ⟨quiet p rfl, more⟩
  · have plain : s.collapses (⟨serial, buffer, some h⟩ :: rest) = (ends h || s.collapses rest) := by
      rw [collapses]
      split
      · rename_i p same
        exact absurd ⟨p, Option.some.inj same⟩ subscribes
      · rename_i same
        rw [Option.some.inj same]
      · contradiction
    rw [plain, Bool.or_eq_true, and_iff_right fun q same => absurd ⟨q, same⟩ subscribes]

/-! ### One handler -/

/-- A handler has run, and the session is still up. -/
structure Skips (events : List Event) (s t : Sys) : Prop where
  log : t.log = events.reverse ++ s.log
  stack : t.net.stack = s.net.stack
  closed : t.closed = s.closed
  shut : t.net.closed = s.net.closed
  defined : t.undefined = s.undefined
  publishes : t.pendingPublishes = s.pendingPublishes
  expects : ∀ q, t.expects q = s.expects q
  subscribes : (t.pendingSubscribes.entries.flatMap subscribeFailures).Perm
    (s.pendingSubscribes.entries.flatMap subscribeFailures)

theorem Says.skips {events : List Event} (told : Says events s t) : Skips events s t :=
  ⟨told.log, told.stack, told.closed, told.connection, told.defined, told.publishes,
    fun q => by rw [expects, expects, told.subscribes], by rw [told.subscribes]⟩

theorem skips_eraseSubscribe {entry : PendingSubscribe} (found : s.pendingSubscribes.find? p = some entry)
    (mute : entry.callback.callable = false) :
      Skips [] s { s with pendingSubscribes := s.pendingSubscribes.erase p } := by
  refine ⟨rfl, rfl, rfl, rfl, rfl, rfl, fun q => ?_, ?_⟩
  · by_cases same : q = p
    · subst same
      simp [expects, OrderedMap.find?_erase, found, mute]
    · simp [expects, OrderedMap.find?_erase, same]
  · have silent : subscribeFailures (p, entry) = [] := List.flatMap_eq_nil_iff.mpr fun _ _ => by simp [heard, mute]
    have perm := (OrderedMap.erase_perm found).flatMap_right subscribeFailures
    rw [List.flatMap_cons, silent] at perm
    exact perm.symm

theorem above_skips {h : Handler} (serial : Nat) (buffer : Bytes) (ec : AsioError) (shut : s.net.closed = true)
    (defined : s.undefined = false) (low : floor ≤ s.depth) (mild : ends h = false)
    (unexpected : ∀ q, h = .subscribe q → s.expects q = false) :
    ∃ t, Above floor (s.onWritten h (some ec)) t ∧ Skips (writeFailure ⟨serial, buffer, some h⟩) s t := by
  cases h with
  | publish0 callback topic =>
    obtain ⟨v, told, run⟩ := above_tellPublish [] callback false topic 0 0 defined low
    exact ⟨v, run, told.skips⟩
  | pubrel p =>
    refine ⟨s.erasePubrec p, .refl, ?_⟩
    unfold erasePubrec
    split
    · exact (says_nothing s).skips
    · exact ⟨rfl, rfl, rfl, rfl, rfl, rfl, fun _ => rfl, .refl _⟩
  | subscribe p =>
    have quiet := unexpected p rfl
    show ∃ t, Above floor (s.onSubscribeWritten p (some ec)) t ∧ _
    cases found : s.pendingSubscribes.find? p with
    | none =>
      refine ⟨s, ?_, (says_nothing s).skips⟩
      simp only [onSubscribeWritten, found]
      exact .refl
    | some entry =>
      have mute : entry.callback.callable = false := by simpa [expects, found] using quiet
      refine ⟨_, ?_, skips_eraseSubscribe found mute⟩
      simp only [onSubscribeWritten, found, mute, Option.isNone_some, Bool.false_eq_true, if_false]
      exact .refl
  | disconnect onClosed =>
    obtain ⟨v, told, run⟩ := above_disconnect onClosed shut defined low
    exact ⟨v, run, told.skips⟩
  | connect attempt => exact ⟨s, .refl, (says_nothing s).skips⟩
  | read attempt => exact ⟨s, .refl, (says_nothing s).skips⟩
  | _ => contradiction

/-- The session of `s` ends, and everything pending is told. -/
structure Collapses (s t : Sys) (items : List (WriteItem Handler)) : Prop where
  empty : t.Emptied
  shut : t.net.closed = true
  stack : t.net.stack = s.net.stack
  told : ∃ events : List Event, t.log = events.reverse ++ s.log ∧ (events.filter Event.concludes).Perm (s.window items)

theorem heard_concludes {callback : Callback} {e : Event} (concludes : e.concludes = true) :
    (heard callback e).filter Event.concludes = heard callback e := by
  unfold heard
  split
  · simp [concludes]
  · rfl

theorem flatMap_concludes {α : Type} {f : α → List Event} (l : List α)
    (all : ∀ a, (f a).filter Event.concludes = f a) : (l.flatMap f).filter Event.concludes = l.flatMap f := by
  rw [List.filter_flatMap]
  exact congrArg (fun g => l.flatMap g) (funext all)

theorem publishFailure_concludes (e : UInt16 × PendingPublish) :
    (publishFailure e).filter Event.concludes = publishFailure e := heard_concludes rfl

theorem subscribeFailures_concludes (e : UInt16 × PendingSubscribe) :
    (subscribeFailures e).filter Event.concludes = subscribeFailures e :=
  flatMap_concludes e.2.filters fun _ => heard_concludes rfl

/-- On a closed connection the end of the session tells what is pending, and no more. -/
theorem flush_window (shut : s.net.closed = true) : s.flush.filter Event.concludes = s.window [] := by
  have last : (if s.onCloseCb then [Event.closeReport] else []).filter Event.concludes = [] := by
    split <;> rfl
  have closes : s.closeFailures = [] := if_pos shut
  simp only [flush, window, closes, List.filter_append, last, flatMap_concludes _ publishFailure_concludes,
    flatMap_concludes _ subscribeFailures_concludes]
  exact List.append_nil _

theorem above_ends_quietly (opened : s.closed = false) (shut : s.net.closed = true) (defined : s.undefined = false)
    (low : floor ≤ s.depth) : ∃ t, Above floor (s.push [.notifyClosedOnce]) t ∧ Collapses s t [] := by
  obtain ⟨t, run, flushed, -⟩ := above_flush opened defined low
  exact ⟨t, run, flushed.empty, flushed.shut, flushed.stack, s.flush, flushed.log, flush_window shut ▸ .refl _⟩

theorem above_ends {h : Handler} (ec : AsioError) (opened : s.closed = false) (shut : s.net.closed = true)
    (defined : s.undefined = false) (low : floor ≤ s.depth) (ending : ends h = true) :
    ∃ t, Above floor (s.onWritten h (some ec)) t ∧ Collapses s t [] := by
  cases h with
  | publish p =>
    show ∃ t, Above floor (s.push [.finishPublishFailure p]) t ∧ _
    cases found : s.pendingPublishes.find? p with
    | none =>
      obtain ⟨t, run, collapses⟩ := above_ends_quietly opened shut defined low
      have first := above_push (k := .finishPublishFailure p) nofun defined low
      have entered : s.execute (.finishPublishFailure p) = s.push [.notifyClosedOnce] := by
        show s.finishPublishFailure p = _
        simp only [finishPublishFailure, found]
      rw [entered] at first
      exact ⟨t, first.trans run, collapses⟩
    | some entry =>
      obtain ⟨v, t, told, flushed, run⟩ := above_finishPublishFailure found opened defined low
      refine ⟨t, run, flushed.empty, flushed.shut, flushed.stack.trans told.stack,
        publishFailure (p, entry) ++ v.flush, ?_, ?_⟩
      · rw [flushed.log, told.log, List.reverse_append, List.append_assoc]
      · have apart := (OrderedMap.erase_perm found).flatMap_right publishFailure
        rw [List.flatMap_cons] at apart
        rw [List.filter_append, publishFailure_concludes, flush_window (told.connection.trans shut), window, window,
          told.publishes, told.subscribes, ← List.append_assoc, ← List.append_assoc]
        exact (apart.symm.append_right _).append_right _
  | _ => first | contradiction | exact above_ends_quietly opened shut defined low

/-! ### All of them -/

theorem above_one {h : Handler} (serial : Nat) (buffer : Bytes) (ec : AsioError)
    (under : List (StackEntry Handler Work))
    (shut : s.net.closed = true) (defined : s.undefined = false) (low : floor ≤ s.depth) (mild : ends h = false)
    (unexpected : ∀ q, h = .subscribe q → s.expects q = false) :
    ∃ t, Above floor (s.stacked (.invoke (.write serial h (some ec)) :: under)) (t.stacked under) ∧
      Skips (writeFailure ⟨serial, buffer, some h⟩) s t := by
  let u := s.stacked under
  let called : Sys := { u with net := u.net.recordCall (.write serial h (some ec)) }
  obtain ⟨t, run, skips⟩ := above_skips (s := called) serial buffer ec shut defined
    (stacked_below under low) mild unexpected
  refine ⟨t.goesOn s.net.stack, ?_, skips.log, rfl, skips.closed, skips.shut, skips.defined, skips.publishes,
    skips.expects, skips.subscribes⟩
  have same : (t.goesOn s.net.stack).stacked under = t := by
    unfold stacked goesOn Net.push
    rw [show under ++ s.net.stack = t.net.stack from skips.stack.symm]
  rw [same]
  exact (above_invoke (s := u) (.write serial h (some ec)) defined (stacked_below under low)).trans run

theorem above_last {h : Handler} (serial : Nat) (ec : AsioError) (under : List (StackEntry Handler Work))
    (opened : s.closed = false) (shut : s.net.closed = true) (defined : s.undefined = false) (low : floor ≤ s.depth)
    (ending : ends h = true) :
    ∃ t, Above floor (s.stacked (.invoke (.write serial h (some ec)) :: under)) (t.stacked under) ∧
      Collapses s t [] := by
  let u := s.stacked under
  let called : Sys := { u with net := u.net.recordCall (.write serial h (some ec)) }
  obtain ⟨t, run, ends⟩ := above_ends (s := called) ec opened shut defined (stacked_below under low) ending
  have empty := ends.empty
  refine ⟨t.goesOn s.net.stack, ?_, ⟨empty.closed, empty.publishes, empty.pubrecs, empty.subscribes, empty.defined⟩,
    ends.shut, rfl, ends.told⟩
  have same : (t.goesOn s.net.stack).stacked under = t := by
    unfold stacked goesOn Net.push
    rw [show under ++ s.net.stack = t.net.stack from ends.stack.symm]
  rw [same]
  exact (above_invoke (s := u) (.write serial h (some ec)) defined (stacked_below under low)).trans run

theorem collapses_congr (expects : ∀ q, t.expects q = s.expects q) (items : List (WriteItem Handler)) :
    t.collapses items = s.collapses items := by
  induction items with
  | nil => rfl
  | cons item rest ih => simp only [collapses, expects, ih]

theorem Skips.collapses {item : WriteItem Handler} {rest : List (WriteItem Handler)}
    (skips : Skips (writeFailure item) s t)
    (collapses : Collapses t u rest) : Collapses s u (item :: rest) := by
  obtain ⟨empty, shut, stack, events, log, perm⟩ := collapses
  refine ⟨empty, shut, stack.trans skips.stack, writeFailure item ++ events, ?_, ?_⟩
  · rw [log, skips.log, List.reverse_append, List.append_assoc]
  · refine List.perm_iff_count.mpr fun e => ?_
    have told := perm.count_eq e
    have subscribes := skips.subscribes.count_eq e
    simp only [window, List.filter_append, List.flatMap_cons, List.count_append, skips.publishes] at told ⊢
    omega

theorem Collapses.more {items : List (WriteItem Handler)} (collapses : Collapses s t [])
    (told : Says (items.flatMap writeFailure) t u) : Collapses s u items := by
  obtain ⟨empty, shut, stack, events, log, perm⟩ := collapses
  refine ⟨empty.told told, told.connection.trans shut, told.stack.trans stack,
    events ++ items.flatMap writeFailure, ?_, ?_⟩
  · rw [told.log, log, List.reverse_append, List.append_assoc]
  · rw [List.filter_append]
    exact (perm.append_right _).trans (by simp [window])

theorem above_collapse {items : List (WriteItem Handler)} (ec : AsioError) (under : List (StackEntry Handler Work))
    (opened : s.closed = false) (shut : s.net.closed = true) (defined : s.undefined = false) (low : floor ≤ s.depth)
    (collapses : s.collapses items = true) :
    ∃ t, Above floor (s.stacked (items.flatMap (·.invocation (some ec)) ++ under)) (t.stacked under) ∧
      Collapses s t items := by
  induction items generalizing s with
  | nil => contradiction
  | cons item rest ih =>
    obtain ⟨serial, buffer, handler⟩ := item
    cases handler with
    | none =>
      obtain ⟨t, run, empty, shut, stack, told⟩ := ih opened shut defined low collapses
      exact ⟨t, run, empty, shut, stack, told⟩
    | some h =>
      let entries : List (StackEntry Handler Work) :=
        rest.flatMap (fun item : WriteItem Handler => item.invocation (some ec)) ++ under
      by_cases ending : ends h = true
      · obtain ⟨t, run, collapsed⟩ := above_last serial ec entries opened shut defined low ending
        obtain ⟨u, told, later⟩ := above_unsent (s := t) rest ec under
          collapsed.empty collapsed.shut (show floor ≤ t.depth by rwa [depth, collapsed.stack])
        have mute : writeFailure ⟨serial, buffer, some h⟩ = [] := by
          cases h <;> first | contradiction | rfl
        obtain ⟨empty, shut, stack, events, log, perm⟩ := collapsed.more told
        refine ⟨u, run.trans later, empty, shut, stack, events, log, ?_⟩
        simpa only [window, List.flatMap_cons, mute, List.nil_append] using perm
      · have mild : ends h = false := Bool.eq_false_iff.mpr ending
        obtain ⟨unexpected, left⟩ := (collapses_cons.mp collapses).resolve_left ending
        obtain ⟨t, run, skips⟩ := above_one serial buffer ec entries shut defined low mild unexpected
        obtain ⟨u, later, collapsed⟩ := ih (skips.closed.trans opened) (skips.shut.trans shut)
          (skips.defined.trans defined) (by rwa [depth, skips.stack]) (collapses_congr skips.expects rest ▸ left)
        exact ⟨u, run.trans later, skips.collapses collapsed⟩

theorem survives {items : List (WriteItem Handler)} {ec : AsioError} (opened : s.closed = false)
    (shut : s.net.closed = true) (defined : s.undefined = false) (collapses : s.collapses items = false)
    (returned : Returns s.depth (s.stacked (items.flatMap (·.invocation (some ec)) ++ [.closeHandler])) t) :
    t.closed = false := by
  induction items generalizing s with
  | nil =>
    have here : Returns s.depth (s.stacked [.closeHandler]) s := ⟨above_closeHandler defined (le_refl _), le_refl _⟩
    rw [returned.unique here]
    exact opened
  | cons item rest ih =>
    obtain ⟨serial, buffer, handler⟩ := item
    cases handler with
    | none => exact ih opened shut defined collapses returned
    | some h =>
      let entries : List (StackEntry Handler Work) :=
        rest.flatMap (fun item : WriteItem Handler => item.invocation (some ec)) ++ [.closeHandler]
      have mild : ends h = false := Bool.eq_false_iff.mpr fun ending =>
        absurd (collapses.symm.trans (collapses_cons.mpr (.inl ending))) nofun
      by_cases unexpected : ∀ q, h = .subscribe q → s.expects q = false
      · obtain ⟨u, run, skips⟩ := above_one serial buffer ec entries shut
          defined (le_refl s.depth) mild unexpected
        have left : s.collapses rest = false := Bool.eq_false_iff.mpr fun more =>
          absurd (collapses.symm.trans (collapses_cons.mpr (.inr ⟨unexpected, more⟩))) nofun
        have level : u.depth = s.depth := by rw [depth, depth, skips.stack]
        refine ih (skips.closed.trans opened) (skips.shut.trans shut) (skips.defined.trans defined)
          (collapses_congr skips.expects rest ▸ left) ?_
        rw [level]
        exact returned.after run
      · push Not at unexpected
        obtain ⟨q, rfl, expected⟩ := unexpected
        obtain ⟨entry, found, callable⟩ := (Option.any_eq_true _ _).mp (Bool.eq_true_of_not_eq_false expected)
        let u := s.stacked entries
        let called : Sys := { u with net := u.net.recordCall (.write serial (.subscribe q) (some ec)) }
        have crashed : called.onWritten (.subscribe q) (some ec) =
            ({ called with pendingSubscribes := called.pendingSubscribes.erase q } : Sys).crash := by
          show called.onSubscribeWritten q (some ec) = _
          have found : called.pendingSubscribes.find? q = some entry := found
          simp only [onSubscribeWritten, found, callable, Option.isNone_some, Bool.false_eq_true, if_false, if_true]
        have run := above_invoke (s := u) (.write serial (.subscribe q) (some ec)) defined
          (stacked_below entries (le_refl _))
        change Above s.depth _ (called.onWritten (.subscribe q) (some ec)) at run
        rw [crashed] at run
        have higher :
            s.depth < ({ called with pendingSubscribes := called.pendingSubscribes.erase q } : Sys).crash.depth := by
          show s.net.stack.length < (entries ++ s.net.stack).length
          simp only [entries, List.length_append, List.length_singleton]
          omega
        exact absurd returned (run.stuck (proceed_undefined rfl) higher)

/-! ### close -/

/-- `close` fails the window of a session exactly if the connection is still open and the handlers of the
unsent frames end the session. -/
theorem close_fails_window_iff (opened : s.closed = false) (defined : s.undefined = false) :
    (∃ t, Returns s.depth s.close t ∧ Failed s t) ↔ s.net.closed = false ∧ s.collapses s.unsent = true := by
  cases shut : s.net.closed with
  | true =>
    have nothing : s.close = s := if_pos shut
    rw [nothing]
    refine iff_of_false ?_ (fun both => absurd both.1 nofun)
    rintro ⟨t, returned, failed⟩
    have here : Returns s.depth s s := ⟨.refl, le_refl _⟩
    rw [returned.unique here] at failed
    exact absurd (opened.symm.trans failed.empty.closed) nofun
  | false =>
    let u := s.closeConnection.goesOn s.net.stack
    have closing : s.closeConnection = { s with net := s.net.close }.record .ended := if_neg (by simp [shut])
    have same : u.closed = s.closed ∧ u.undefined = s.undefined ∧ u.log = .ended :: s.log ∧
        u.pendingPublishes = s.pendingPublishes ∧ u.pendingSubscribes = s.pendingSubscribes := by
      change (s.closeConnection.goesOn s.net.stack).closed = _ ∧ _
      simp only [u, closing]
      exact ⟨rfl, rfl, rfl, rfl, rfl⟩
    obtain ⟨closed, undefined, log, publishes, subscribes⟩ := same
    have expects : ∀ q, u.expects q = s.expects q := fun q => by rw [Sys.expects, subscribes]; rfl
    have called : s.close = u.stacked (s.unsent.flatMap (·.invocation (some .operationAborted)) ++ [.closeHandler]) :=
      closeConnection_opened shut
    rw [and_iff_right rfl, called, ← collapses_congr expects]
    constructor
    · rintro ⟨t, returned, failed⟩
      by_contra survived
      have up := survives (s := u) (closed.trans opened) (closeConnection_closed s) (undefined.trans defined)
        (Bool.eq_false_iff.mpr survived) returned
      exact absurd (up.symm.trans failed.empty.closed) nofun
    · intro collapses
      obtain ⟨t, run, empty, -, stack, events, told, perm⟩ := above_collapse (s := u) .operationAborted
        [.closeHandler] (closed.trans opened) (closeConnection_closed s) (undefined.trans defined)
        (le_refl s.depth) collapses
      have level : t.depth = s.depth := congrArg List.length stack
      refine ⟨t, ⟨run.trans (above_closeHandler empty.defined level.ge), level.le⟩, empty, .ended :: events, ?_, ?_⟩
      · rw [told, log]
        simp
      · rw [List.filter_cons_of_neg (by simp [Event.concludes])]
        simpa only [window, publishes, subscribes] using perm

/-- A QoS 1 publish is in flight. -/
def sending : List Action := opened ++ [.call (.asyncPublish [0x74] [] 1 true), .run, .exec, .run]

theorem publish_in_flight_fails : ∃ s t : Sys, s.unsent.length = 1 ∧ s.pendingPublishes.size = 1 ∧
    Returns s.depth s.close t ∧ Failed s t := by
  have run : (Runs.exec step ({} : Sys) sending).map (fun s => !s.closed && !s.undefined && !s.net.closed &&
      s.collapses s.unsent && s.unsent.length == 1 && s.pendingPublishes.size == 1) = some true := by
    decide +kernel
  obtain ⟨s, -, facts⟩ := Runs.exec_of_check run
  simp only [Bool.and_eq_true, Bool.not_eq_true', beq_iff_eq] at facts
  obtain ⟨⟨⟨⟨⟨opened, defined⟩, shut⟩, collapses⟩, one⟩, pending⟩ := facts
  obtain ⟨t, fails⟩ := (close_fails_window_iff opened defined).mpr ⟨shut, collapses⟩
  exact ⟨s, t, one, pending, fails⟩

/-- A publish whose frame was written waits for its PUBACK, and `close` tells it nothing. -/
theorem close_leaves_window : ¬ ∀ actions s, Runs.exec step ({} : Sys) actions = some s → s.closed = false →
    ∃ t, Returns s.depth s.close t ∧ Failed s t := by
  intro claimed
  have run : (Runs.exec step ({} : Sys) (opened ++ publishing 1)).map
      (fun s => !s.closed && s.pendingPublishes.size == 1 &&
        (Calls.run proceed depth s.depth 30 s.close).any fun t => !t.closed && t.pendingPublishes.size == 1) =
          some true := by
    decide +kernel
  obtain ⟨s, reached, facts⟩ := Runs.exec_of_check run
  simp only [Bool.and_eq_true, Bool.not_eq_true', Option.any_eq_true] at facts
  obtain ⟨⟨opened, -⟩, t, ran, up, -⟩ := facts
  obtain ⟨u, returned, failed⟩ := claimed _ s reached opened
  rw [returned.unique (Calls.returns_of_run ran)] at failed
  exact absurd (up.symm.trans failed.empty.closed) nofun

end Sys
end LiteMqtt
