import LiteMqtt.Client.Driving
import LiteMqtt.Client.Unwinding

/-!
# What the end of a session reports

`notify_closed_once` works off the pending publishes, then the pending subscriptions, and closes the
connection, whose unsent frames fail one after another before the user hears of the close.
-/

namespace LiteMqtt
namespace Sys

def publishFailure (e : UInt16 × PendingPublish) : List Event :=
  heard e.2.callback (.published e.2.callback false e.2.topic e.2.qos e.1)

def subscribeFailures (e : UInt16 × PendingSubscribe) : List Event :=
  e.2.filters.flatMap fun filter => heard e.2.callback (.subscribeReport e.2.callback false filter.1 0)

/-- What the handler of an unsent frame reports once the maps are empty. -/
def writeFailure (item : WriteItem Handler) : List Event :=
  match item.handler with
  | some (.publish0 callback topic) => heard callback (.published callback false topic 0 0)
  | some (.disconnect true) => [.disconnected]
  | _ => []

/-- The queued frames and the one in flight, in the order in which a close fails them. -/
def unsent (s : Sys) : List (WriteItem Handler) := s.net.writeQueue ++ s.net.inFlight.toList

/-- Nothing is left to write on a connection that is closed. -/
def Spared (s : Sys) : Prop := s.net.closed = true → s.net.writeQueue = [] ∧ s.net.inFlight = none

/-- What closing the connection reports once the maps are empty. -/
def closeFailures (s : Sys) : List Event := if s.net.closed then [] else .ended :: s.unsent.flatMap writeFailure

/-- Everything the end of the session reports, in order. -/
def flush (s : Sys) : List Event :=
  s.pendingPublishes.entries.flatMap publishFailure ++ s.pendingSubscribes.entries.flatMap subscribeFailures ++
    s.closeFailures ++ if s.onCloseCb then [.closeReport] else []

variable {s t u v : Sys} {floor : Nat} {first second : List Event} {p : UInt16}

/-! ### The pending publishes -/

theorem above_publishCancel {before after : List (UInt16 × PendingPublish)} {e : UInt16 × PendingPublish}
    (entries : s.pendingPublishes.entries = before ++ e :: after) (defined : s.undefined = false)
    (low : floor ≤ s.depth) :
    ∃ v, Says [] s v ∧ Above floor (s.push [.publishCancel e.1])
      (v.push [after.head?.elim .publishClear fun next => .publishEach next.1]) := by
  refine ⟨s.cancelTimer e.2.timer, says_cancelTimer s _,
    (above_push (k := .publishCancel e.1) nofun defined low).trans ?_⟩
  show Above floor (s.publishCancel e.1) _
  simp only [publishCancel, OrderedMap.find?_of_entries entries, OrderedMap.next?_of_entries entries]
  cases after with
  | nil => exact .refl
  | cons next rest => exact .refl

theorem above_publishEntry {before after : List (UInt16 × PendingPublish)} {e : UInt16 × PendingPublish}
    (entries : s.pendingPublishes.entries = before ++ e :: after) (defined : s.undefined = false)
    (low : floor ≤ s.depth) :
    ∃ v, Says (publishFailure e) s v ∧ Above floor (s.push [.publishEach e.1])
      (v.push [after.head?.elim .publishClear fun next => .publishEach next.1]) := by
  obtain ⟨u, told, run⟩ := above_tellPublish [.publishCancel e.1] e.2.callback false e.2.topic e.2.qos e.1 defined low
  have first : Above floor (s.push [.publishEach e.1]) (u.push [.publishCancel e.1]) := by
    refine (above_push (k := .publishEach e.1) nofun defined low).trans ?_
    show Above floor (s.publishEach e.1) _
    simpa only [publishEach, OrderedMap.find?_of_entries entries] using run
  rw [← told.publishes] at entries
  obtain ⟨v, silent, last⟩ := above_publishCancel entries (told.defined.trans defined) (told.low low)
  exact ⟨v, told.silent silent, first.trans last⟩

theorem above_publishEach {before after : List (UInt16 × PendingPublish)} {e : UInt16 × PendingPublish}
    (entries : s.pendingPublishes.entries = before ++ e :: after) (defined : s.undefined = false)
    (low : floor ≤ s.depth) :
    ∃ v, Says ((e :: after).flatMap publishFailure) s v ∧
      Above floor (s.push [.publishEach e.1]) (v.push [.publishClear]) := by
  induction after generalizing s before e with
  | nil =>
    obtain ⟨u, told, run⟩ := above_publishEntry entries defined low
    exact ⟨u, by simpa using told, run⟩
  | cons next rest ih =>
    obtain ⟨u, told, run⟩ := above_publishEntry entries defined low
    have behind : u.pendingPublishes.entries = (before ++ [e]) ++ next :: rest := by simp [told.publishes, entries]
    obtain ⟨v, later, last⟩ := ih behind (told.defined.trans defined) (told.low low)
    exact ⟨v, told.trans later, run.trans last⟩

/-! ### The pending subscriptions -/

theorem above_subscribeFilters (callback : Callback) (filters : List (Bytes × UInt8))
    (bound : s.pendingSubscribes.contains p = true) (defined : s.undefined = false) (low : floor ≤ s.depth) :
    ∃ v, Says (filters.flatMap fun filter => heard callback (.subscribeReport callback false filter.1 0)) s v ∧
      Above floor (s.push [.subscribeFilters p callback filters]) (v.push [.subscribeFilters p callback []]) := by
  induction filters generalizing s with
  | nil => exact ⟨s, says_nothing s, .refl⟩
  | cons filter rest ih =>
    obtain ⟨u, told, run⟩ :=
      above_tellSubscribe [.subscribeFilters p callback rest] callback false filter.1 0 defined low
    have first : Above floor (s.push [.subscribeFilters p callback (filter :: rest)])
        (u.push [.subscribeFilters p callback rest]) := by
      refine (above_push (k := .subscribeFilters p callback (filter :: rest)) nofun defined low).trans ?_
      show Above floor (s.subscribeFilters p callback (filter :: rest)) _
      rwa [subscribeFilters, if_pos bound]
    rw [← told.subscribes] at bound
    obtain ⟨v, later, last⟩ := ih bound (told.defined.trans defined) (told.low low)
    exact ⟨v, told.trans later, first.trans last⟩

theorem above_subscribeEntry {before after : List (UInt16 × PendingSubscribe)} {e : UInt16 × PendingSubscribe}
    (entries : s.pendingSubscribes.entries = before ++ e :: after) (defined : s.undefined = false)
    (low : floor ≤ s.depth) :
    ∃ v, Says (subscribeFailures e) s v ∧ Above floor (s.push [.subscribeEach e.1])
      (v.push [after.head?.elim .subscribeClear fun next => .subscribeEach next.1]) := by
  have found := OrderedMap.find?_of_entries entries
  have bound : s.pendingSubscribes.contains e.1 = true := by simp [OrderedMap.contains, found]
  obtain ⟨v, told, run⟩ := above_subscribeFilters e.2.callback
    (if e.2.callback.callable then e.2.filters else []) bound defined low
  have first : Above floor (s.push [.subscribeEach e.1]) (v.push [.subscribeFilters e.1 e.2.callback []]) := by
    refine (above_push (k := .subscribeEach e.1) (by simp) defined low).trans ?_
    show Above floor (s.subscribeEach e.1) _
    simpa only [subscribeEach, found] using run
  refine ⟨v, ?_, first.trans ((above_push (k := .subscribeFilters e.1 e.2.callback []) (by simp)
    (told.defined.trans defined) (told.low low)).trans ?_)⟩
  · unfold subscribeFailures
    cases callable : e.2.callback.callable with
    | true => simpa [callable] using told
    | false =>
      have mute : e.2.filters.flatMap (fun _ => ([] : List Event)) = [] := List.flatMap_eq_nil_iff.mpr fun _ _ => rfl
      simpa [callable, heard, mute] using told
  · show Above floor (v.subscribeFilters e.1 e.2.callback []) _
    rw [← told.subscribes] at entries bound
    simp only [subscribeFilters, bound, if_true, OrderedMap.next?_of_entries entries]
    cases after with
    | nil => exact .refl
    | cons next rest => exact .refl

theorem above_subscribeEach {before after : List (UInt16 × PendingSubscribe)} {e : UInt16 × PendingSubscribe}
    (entries : s.pendingSubscribes.entries = before ++ e :: after) (defined : s.undefined = false)
    (low : floor ≤ s.depth) :
    ∃ v, Says ((e :: after).flatMap subscribeFailures) s v ∧
      Above floor (s.push [.subscribeEach e.1]) (v.push [.subscribeClear]) := by
  induction after generalizing s before e with
  | nil =>
    obtain ⟨u, told, run⟩ := above_subscribeEntry entries defined low
    exact ⟨u, by simpa using told, run⟩
  | cons next rest ih =>
    obtain ⟨u, told, run⟩ := above_subscribeEntry entries defined low
    have behind : u.pendingSubscribes.entries = (before ++ [e]) ++ next :: rest := by simp [told.subscribes, entries]
    obtain ⟨v, later, last⟩ := ih behind (told.defined.trans defined) (told.low low)
    exact ⟨v, told.trans later, run.trans last⟩

/-! ### The unsent frames -/

/-- The session has ended, and nothing is pending any more. -/
structure Emptied (s : Sys) : Prop where
  closed : s.closed = true
  publishes : s.pendingPublishes = .empty
  pubrecs : s.pendingPubrecs = .empty
  subscribes : s.pendingSubscribes = .empty
  defined : s.undefined = false

theorem Emptied.told (empty : s.Emptied) (told : Says first s t) : t.Emptied :=
  ⟨told.closed.trans empty.closed, told.publishes.trans empty.publishes, told.pubrecs.trans empty.pubrecs,
    told.subscribes.trans empty.subscribes, told.defined.trans empty.defined⟩

theorem above_notifyClosedOnce (closed : s.closed = true) (defined : s.undefined = false) (low : floor ≤ s.depth) :
    Above floor (s.push [.notifyClosedOnce]) s := by
  have run := above_push (k := .notifyClosedOnce) nofun defined low
  rwa [show s.execute .notifyClosedOnce = s from if_pos closed] at run

theorem above_disconnect {serial : Nat} {buffer : Bytes} {ec : ErrorCode} (onClosed : Bool) (shut : s.net.closed = true)
    (defined : s.undefined = false) (low : floor ≤ s.depth) :
    ∃ v, Says (writeFailure { serial, buffer, handler := some (.disconnect onClosed) }) s v ∧
      Above floor (s.onWritten (.disconnect onClosed) ec) v := by
  have closed : ∀ u : Sys, u.net.closed = true → u.closeConnection = u := fun u shut => if_pos shut
  cases onClosed with
  | false =>
    refine ⟨s, says_nothing s, ?_⟩
    show Above floor s.closeConnection s
    rw [closed s shut]
    exact .refl
  | true =>
    refine ⟨s.record .disconnected, says_record s _, ?_⟩
    show Above floor (s.push [.onClosed]).closeConnection _
    rw [closed (s.push [.onClosed]) shut]
    exact (above_push (k := .onClosed) nofun defined low).trans (above_user (s := s.record .disconnected) defined low)

theorem above_writeFailure (serial : Nat) (h : Handler) (buffer : Bytes) (ec : AsioError) (empty : s.Emptied)
    (shut : s.net.closed = true) (low : floor ≤ s.depth) :
    ∃ v, Says (writeFailure { serial, buffer, handler := some h }) s v ∧ Above floor (s.onWritten h (some ec)) v := by
  have mute : Above floor (s.push [.notifyClosedOnce]) s := above_notifyClosedOnce empty.closed empty.defined low
  cases h with
  | publish0 callback topic => exact above_tellPublish [] callback false topic 0 0 empty.defined low
  | publish p =>
    have none : s.execute (.finishPublishFailure p) = s.push [.notifyClosedOnce] := by
      show s.finishPublishFailure p = _
      simp [finishPublishFailure, empty.publishes]
    have run := above_push (k := .finishPublishFailure p) nofun empty.defined low
    exact ⟨s, says_nothing s, run.trans (none ▸ mute)⟩
  | pubrel p =>
    have none : s.onWritten (.pubrel p) (some ec) = s := by
      show s.onPubrelWritten p (some ec) = s
      simp [onPubrelWritten, erasePubrec, empty.pubrecs]
    refine ⟨s, says_nothing s, ?_⟩
    rw [none]
    exact .refl
  | subscribe p =>
    have none : s.onWritten (.subscribe p) (some ec) = s := by
      show s.onSubscribeWritten p (some ec) = s
      simp [onSubscribeWritten, empty.subscribes]
    refine ⟨s, says_nothing s, ?_⟩
    rw [none]
    exact .refl
  | disconnect onClosed => exact above_disconnect onClosed shut empty.defined low
  | connectWrite attempt => exact ⟨s, says_nothing s, mute⟩
  | acknowledged => exact ⟨s, says_nothing s, mute⟩
  | pingreq attempt => exact ⟨s, says_nothing s, mute⟩
  | connect attempt => exact ⟨s, says_nothing s, .refl⟩
  | read attempt => exact ⟨s, says_nothing s, .refl⟩

theorem Says.popped {entries rest : List (StackEntry Handler Work)} (told : Says first (s.stacked entries) t)
    (stack : t.net.stack = entries ++ rest) (under : rest = s.net.stack) :
    Says first s (t.goesOn rest) ∧ t = (t.goesOn rest).stacked entries := by
  refine ⟨⟨told.log, under, told.closed, told.publishes, told.pubrecs, told.subscribes, told.listens, told.connection,
    told.queue, told.inFlight, told.defined⟩, ?_⟩
  unfold stacked goesOn Net.push
  rw [← stack]

theorem stacked_below (entries : List (StackEntry Handler Work)) (low : floor ≤ s.depth) :
    floor ≤ (s.stacked entries).depth := by
  simp only [depth, stacked, Net.push, List.length_append] at low ⊢
  omega

theorem above_unsent (items : List (WriteItem Handler)) (ec : AsioError) (under : List (StackEntry Handler Work))
    (empty : s.Emptied) (shut : s.net.closed = true) (low : floor ≤ s.depth) :
    ∃ v, Says (items.flatMap writeFailure) s v ∧
      Above floor (s.stacked (items.flatMap (·.invocation (some ec)) ++ under)) (v.stacked under) := by
  induction items generalizing s with
  | nil => exact ⟨s, says_nothing s, .refl⟩
  | cons item rest ih =>
    obtain ⟨serial, buffer, handler⟩ := item
    cases handler with
    | none => exact ih empty shut low
    | some h =>
      let entries := rest.flatMap (fun item : WriteItem Handler => item.invocation (some ec)) ++ under
      let u := s.stacked entries
      let called : Sys := { u with net := u.net.recordCall (.write serial h (some ec)) }
      obtain ⟨w, told, run⟩ := above_writeFailure (s := called) serial h buffer ec
        ⟨empty.closed, empty.publishes, empty.pubrecs, empty.subscribes, empty.defined⟩ shut (stacked_below entries low)
      have first : Above floor (u.stacked [.invoke (.write serial h (some ec))]) w :=
        (above_invoke (s := u) (.write serial h (some ec)) empty.defined (stacked_below entries low)).trans run
      have told : Says (writeFailure ⟨serial, buffer, some h⟩) (s.stacked entries) w :=
        ⟨told.log, told.stack, told.closed, told.publishes, told.pubrecs, told.subscribes, told.listens,
          told.connection, told.queue, told.inFlight, told.defined⟩
      obtain ⟨below, same⟩ := told.popped told.stack rfl
      obtain ⟨v, later, last⟩ := ih (empty.told below) (below.connection.trans shut) (below.low low)
      exact ⟨v, below.trans later, first.trans (same ▸ last)⟩

theorem closeConnection_opened (opened : s.net.closed = false) :
    s.closeConnection = (s.closeConnection.goesOn s.net.stack).stacked
      (s.unsent.flatMap (·.invocation (some .operationAborted)) ++ [.closeHandler]) := by
  have shut : ¬ s.net.closed = true := by simp [opened]
  have stack : s.closeConnection.net.stack =
      (s.unsent.flatMap (·.invocation (some .operationAborted)) ++ [.closeHandler]) ++ s.net.stack := by
    unfold closeConnection Net.close unsent
    rw [if_neg shut, if_neg shut]
    simp [record, Net.failPendingWrites, Net.push, Net.closeSocket]
  unfold stacked goesOn Net.push
  rw [← stack]

theorem above_closeConnection (empty : s.Emptied) (low : floor ≤ s.depth) :
    ∃ v, Above floor s.closeConnection v ∧ v.Emptied ∧ v.net.closed = true ∧ v.net.stack = s.net.stack ∧
      v.onCloseCb = s.onCloseCb ∧
      (s.Spared → v.net.writeQueue = [] ∧ v.net.inFlight = none) ∧
      v.log = s.closeFailures.reverse ++ s.log := by
  unfold closeFailures
  cases closed : s.net.closed with
  | true =>
    have same : s.closeConnection = s := if_pos closed
    refine ⟨s, ?_, empty, closed, rfl, rfl, fun spared => spared closed, by simp⟩
    rw [same]
    exact .refl
  | false =>
    let u := s.closeConnection.goesOn s.net.stack
    have opened : ¬ s.net.closed = true := by simp [closed]
    have closing : s.closeConnection = { s with net := s.net.close }.record .ended := if_neg opened
    have emptied : u.Emptied := by
      change (s.closeConnection.goesOn s.net.stack).Emptied
      rw [closing]
      exact ⟨empty.closed, empty.publishes, empty.pubrecs, empty.subscribes, empty.defined⟩
    have ended : u.log = .ended :: s.log ∧ u.onCloseCb = s.onCloseCb := by
      change (s.closeConnection.goesOn s.net.stack).log = _ ∧ (s.closeConnection.goesOn s.net.stack).onCloseCb = _
      rw [closing]
      exact ⟨rfl, rfl⟩
    have gone : u.net.writeQueue = [] ∧ u.net.inFlight = none := by
      change (s.closeConnection.goesOn s.net.stack).net.writeQueue = _ ∧
        (s.closeConnection.goesOn s.net.stack).net.inFlight = _
      rw [closing]
      unfold Net.close
      rw [if_neg opened]
      exact ⟨rfl, rfl⟩
    obtain ⟨v, told, run⟩ := above_unsent (s := u) s.unsent .operationAborted [.closeHandler]
      emptied (closeConnection_closed s) low
    rw [← closeConnection_opened closed] at run
    refine ⟨v, run.trans (above_closeHandler (told.defined.trans emptied.defined) (told.low low)), emptied.told told,
      told.connection.trans (closeConnection_closed s), told.stack, told.listens.trans ended.2,
        fun _ => ⟨told.queue.trans gone.1, told.inFlight.trans gone.2⟩, ?_⟩
    rw [told.log, ended.1]
    simp

/-! ### The whole of it -/

theorem above_publishes (defined : s.undefined = false) (low : floor ≤ s.depth) :
    ∃ v, Says (s.pendingPublishes.entries.flatMap publishFailure) s v ∧
      Above floor (s.push [match s.pendingPublishes.first? with
        | some packetId => .publishEach packetId
        | none => .publishClear]) (v.push [.publishClear]) := by
  cases entries : s.pendingPublishes.entries with
  | nil =>
    refine ⟨s, says_nothing s, ?_⟩
    simp only [OrderedMap.first?, entries]
    exact .refl
  | cons e rest =>
    obtain ⟨v, told, run⟩ := above_publishEach (show _ = [] ++ _ from entries) defined low
    exact ⟨v, told, by simpa [OrderedMap.first?, entries] using run⟩

theorem above_subscribes (defined : s.undefined = false) (low : floor ≤ s.depth) :
    ∃ v, Says (s.pendingSubscribes.entries.flatMap subscribeFailures) s v ∧
      Above floor (s.push [match s.pendingSubscribes.first? with
        | some packetId => .subscribeEach packetId
        | none => .subscribeClear]) (v.push [.subscribeClear]) := by
  cases entries : s.pendingSubscribes.entries with
  | nil =>
    refine ⟨s, says_nothing s, ?_⟩
    simp only [OrderedMap.first?, entries]
    exact .refl
  | cons e rest =>
    obtain ⟨v, told, run⟩ := above_subscribeEach (show _ = [] ++ _ from entries) defined low
    exact ⟨v, told, by simpa [OrderedMap.first?, entries] using run⟩

theorem above_publishClear (defined : s.undefined = false) (low : floor ≤ s.depth) :
    ∃ v, Says (s.pendingSubscribes.entries.flatMap subscribeFailures)
        { s with pendingPublishes := .empty, pendingPubrecs := .empty } v ∧
      Above floor (s.push [.publishClear]) (v.push [.subscribeClear]) := by
  let u := (s.cancelTimers (s.pendingPublishes.entries.map fun e => e.2.timer)).cancelTimers
    ((s.cancelTimers (s.pendingPublishes.entries.map fun e => e.2.timer)).pendingPubrecs.entries.map fun e => e.2.timer)
  have silent : Says [] s u := (says_cancelTimers s _).trans (says_cancelTimers _ _)
  let w : Sys := { u with pendingPublishes := .empty, pendingPubrecs := .empty }
  have cleared : Says [] { s with pendingPublishes := .empty, pendingPubrecs := .empty } w :=
    ⟨silent.log, silent.stack, silent.closed, rfl, rfl, silent.subscribes, silent.listens, silent.connection,
      silent.queue, silent.inFlight, silent.defined⟩
  obtain ⟨v, told, run⟩ := above_subscribes (s := w) (silent.defined.trans defined) (silent.low low)
  have entered : s.execute .publishClear = w.push [match w.pendingSubscribes.first? with
      | some packetId => .subscribeEach packetId
      | none => .subscribeClear] := by
    show (match w.pendingSubscribes.first? with
      | some packetId => w.push [.subscribeEach packetId]
      | none => w.push [.subscribeClear]) = _
    cases w.pendingSubscribes.first? <;> rfl
  have subscribes : w.pendingSubscribes = s.pendingSubscribes := silent.subscribes
  rw [subscribes] at told
  refine ⟨v, cleared.trans told, (above_push (k := .publishClear) nofun defined low).trans ?_⟩
  rw [entered]
  exact run

theorem above_subscribeClear (closed : s.closed = true) (publishes : s.pendingPublishes = .empty)
    (pubrecs : s.pendingPubrecs = .empty) (defined : s.undefined = false) (low : floor ≤ s.depth) :
    ∃ v, Above floor (s.push [.subscribeClear]) v ∧ v.Emptied ∧ v.net.closed = true ∧ v.net.stack = s.net.stack ∧
      (s.Spared → v.net.writeQueue = [] ∧ v.net.inFlight = none) ∧
      v.log = (s.closeFailures ++ if s.onCloseCb then [Event.closeReport] else []).reverse ++ s.log := by
  let u : Sys := { s with pendingSubscribes := .empty }.push [.notifyClose]
  obtain ⟨w, first, empty, shut, stack, listens, spared, log⟩ := above_closeConnection (s := u)
    ⟨closed, publishes, pubrecs, rfl, defined⟩ (push_below [.notifyClose] low)
  let v := w.goesOn s.net.stack
  have same : w = v.push [.notifyClose] := by
    unfold v push goesOn Net.push
    rw [show ([Work.notifyClose].map StackEntry.own : List (StackEntry Handler Work)) ++ s.net.stack =
      w.net.stack from stack.symm]
  have last := above_push (s := v) (k := .notifyClose) nofun empty.defined low
  rw [← same] at last
  have started : Above floor (s.push [.subscribeClear]) w :=
    (above_push (k := .subscribeClear) nofun defined low).trans first
  have ends : v.execute .notifyClose = if s.onCloseCb then (v.record .closeReport).push [.user] else v := by
    show (if w.onCloseCb then (v.record .closeReport).push [.user] else v) = _
    rw [listens]
    rfl
  cases callback : s.onCloseCb with
  | true =>
    rw [ends, callback, if_pos rfl] at last
    refine ⟨v.record .closeReport,
        started.trans (last.trans (above_user (s := v.record .closeReport) empty.defined low)),
      ⟨empty.closed, empty.publishes, empty.pubrecs, empty.subscribes, empty.defined⟩, shut, rfl, spared, ?_⟩
    show .closeReport :: w.log = _
    rw [log, List.reverse_append]
    rfl
  | false =>
    rw [ends, callback, if_neg nofun] at last
    refine ⟨v, started.trans last,
        ⟨empty.closed, empty.publishes, empty.pubrecs, empty.subscribes, empty.defined⟩, shut,
      rfl, spared, ?_⟩
    show w.log = _
    rw [log, List.reverse_append]
    rfl

/-- The session of `s` has ended, and everything that was open has been answered. -/
structure Flushed (s t : Sys) : Prop where
  log : t.log = s.flush.reverse ++ s.log
  empty : t.Emptied
  shut : t.net.closed = true
  stack : t.net.stack = s.net.stack

theorem above_flush (opened : s.closed = false) (defined : s.undefined = false) (low : floor ≤ s.depth) :
    ∃ t, Above floor (s.push [.notifyClosedOnce]) t ∧ Flushed s t ∧
      (s.Spared → t.net.writeQueue = [] ∧ t.net.inFlight = none) := by
  let a : Sys := ({ s with closed := true }.cancelPingTimer).cancelTimer connectTimer
  obtain ⟨b, published, publishes⟩ := above_publishes (s := a) defined low
  have entered : s.execute .notifyClosedOnce = a.push [match a.pendingPublishes.first? with
      | some packetId => .publishEach packetId
      | none => .publishClear] := by
    show s.notifyClosedOnce = _
    unfold notifyClosedOnce
    rw [if_neg (by simp [opened])]
    show (match s.pendingPublishes.first? with
      | some packetId => a.push [.publishEach packetId]
      | none => a.push [.publishClear]) = a.push [match s.pendingPublishes.first? with
        | some packetId => .publishEach packetId
        | none => .publishClear]
    cases s.pendingPublishes.first? <;> rfl
  obtain ⟨c, subscribed, subscribes⟩ := above_publishClear (published.defined.trans defined) (published.low low)
  have connection : c.net.closed = s.net.closed := subscribed.connection.trans published.connection
  have unsent : c.unsent = s.unsent := by
    show c.net.writeQueue ++ c.net.inFlight.toList = _
    rw [subscribed.queue, subscribed.inFlight]
    show b.net.writeQueue ++ b.net.inFlight.toList = _
    rw [published.queue, published.inFlight]
    rfl
  have spares : s.Spared → c.Spared := by
    intro spared
    rw [Spared, connection, subscribed.queue, subscribed.inFlight]
    show _ → b.net.writeQueue = [] ∧ b.net.inFlight = none
    rw [published.queue, published.inFlight]
    exact spared
  obtain ⟨t, closes, empty, shut, stack, gone, log⟩ := above_subscribeClear (s := c)
    (subscribed.closed.trans published.closed) subscribed.publishes subscribed.pubrecs
    (subscribed.defined.trans (published.defined.trans defined)) (subscribed.low (published.low low))
  have first := above_push (k := .notifyClosedOnce) nofun defined low
  rw [entered] at first
  refine ⟨t, first.trans (publishes.trans (subscribes.trans closes)), ⟨?_, empty, shut, ?_⟩, gone ∘ spares⟩
  · have subscriptions : b.pendingSubscribes = s.pendingSubscribes := published.subscribes
    have listens : c.onCloseCb = s.onCloseCb := subscribed.listens.trans published.listens
    have before : c.log = (b.pendingSubscribes.entries.flatMap subscribeFailures).reverse ++
        ((s.pendingPublishes.entries.flatMap publishFailure).reverse ++ s.log) :=
      subscribed.log.trans (congrArg _ published.log)
    rw [log, before, subscriptions, listens, closeFailures, connection, unsent, flush, closeFailures]
    simp only [List.reverse_append, List.append_assoc]
  · exact stack.trans (subscribed.stack.trans published.stack)

/-! ### Every reachable session -/

theorem sustained_exec_start {actions : List Action} (reached : Runs.exec step ({} : Sys) actions = some s) :
    s.net.Sustained := by
  have reaches : Runs.Reaches step Runs.Any ({} : Sys) s := Runs.exec_reaches reached (Runs.along_any actions)
  exact reaches.invariant (I := fun u => u.net.Sustained) Net.sustained_start fun _ _ _ held _ => sustained_step held

/-- A session that is open ends once, whatever is pending: every call returns, everything open is answered in order,
and a second end does nothing. -/
theorem session_end_flushes {actions : List Action} (reached : Runs.exec step ({} : Sys) actions = some s)
    (opened : s.closed = false) (defined : s.undefined = false) :
    ∃ t, (∀ u, Returns s.depth (s.push [.notifyClosedOnce]) u ↔ u = t) ∧ Flushed s t ∧ t.net.writeQueue = [] ∧
      t.net.inFlight = none ∧ ∀ u, Returns t.depth (t.push [.notifyClosedOnce]) u ↔ u = t := by
  obtain ⟨t, run, flushed, gone⟩ := above_flush opened defined (le_refl s.depth)
  obtain ⟨queue, inFlight⟩ := gone (sustained_exec_start reached).shut
  have returned : Returns s.depth (s.push [.notifyClosedOnce]) t := ⟨run, by simp [depth, flushed.stack]⟩
  have again : Returns t.depth (t.push [.notifyClosedOnce]) t :=
    ⟨above_notifyClosedOnce flushed.empty.closed flushed.empty.defined (le_refl _), le_refl _⟩
  refine ⟨t, fun u => ⟨fun other => other.unique returned, fun same => same ▸ returned⟩, flushed, queue, inFlight,
    fun u => ?_⟩
  exact ⟨fun other => other.unique again, fun same => same ▸ again⟩

/-- A QoS 1 publish, a subscription and a QoS 0 publish are taken on; the first is in flight. -/
def occupied : List Action :=
  opened ++ [.call (.asyncPublish [0x74] [] 1 true), .call (.asyncSubscribe [0x75] 0 true),
    .call (.asyncPublish [0x76] [] 0 true), .run, .exec, .run, .exec, .run, .exec, .run, .run, .run]

/-- All three fail when the session ends. -/
theorem occupied_session_flushed : ∃ s t : Sys, s.flush = [.published ⟨0, true⟩ false [0x74] 1 2,
      .subscribeReport ⟨1, true⟩ false [0x75] 0, .ended, .published ⟨2, true⟩ false [0x76] 0 0] ∧
    (∀ u, Returns s.depth (s.push [.notifyClosedOnce]) u ↔ u = t) ∧ Flushed s t ∧ t.net.writeQueue = [] ∧
      t.net.inFlight = none ∧ ∀ u, Returns t.depth (t.push [.notifyClosedOnce]) u ↔ u = t := by
  have run : (Runs.exec step ({} : Sys) occupied).map (fun s => !s.closed && !s.undefined &&
      s.flush == [.published ⟨0, true⟩ false [0x74] 1 2, .subscribeReport ⟨1, true⟩ false [0x75] 0, .ended,
        .published ⟨2, true⟩ false [0x76] 0 0]) = some true := by
    decide +kernel
  obtain ⟨s, reached, facts⟩ := Runs.exec_of_check run
  simp only [Bool.and_eq_true, Bool.not_eq_true', beq_iff_eq] at facts
  obtain ⟨⟨opened, defined⟩, listed⟩ := facts
  obtain ⟨t, ends⟩ := session_end_flushes reached opened defined
  exact ⟨s, t, listed, ends⟩

end Sys
end LiteMqtt
