import LiteMqtt.Client.Flushing
import LiteMqtt.Client.Verdicts

/-!
# What a SUBACK reports

`handle_suback` pairs the filters of the subscription with the return codes. It takes every code but
0x80 for a grant, and where codes are missing it ends the session without its callback.
-/

namespace LiteMqtt
namespace Sys

variable {s t u v : Sys} {floor : Nat}

/-! ### The reports -/

/-- The report of one filter: granted by the codes 0, 1 and 2, and by nothing else. -/
def verdict (callback : Callback) (topic : Bytes) : Option UInt8 → Event
  | some code => if code ≤ 2 then .subscribeReport callback true topic code else .subscribeReport callback false topic 0
  | none => .subscribeReport callback false topic 0

def verdicts (callback : Callback) : List (Bytes × UInt8) → List UInt8 → List Event
  | [], _ => []
  | filter :: filters, codes => verdict callback filter.1 codes.head? :: verdicts callback filters codes.tail

/-- `handle_suback`, with the session end it may bring about, tells the callback exactly this. -/
def Reports (s : Sys) (data : Bytes) (callback : Callback) (reports : List Event) : Prop :=
  ∃ (t : Sys) (events : List Event), Returns s.depth (s.handleSuback data) t ∧ t.log = events.reverse ++ s.log ∧
    events.filter (Event.judges callback) = reports

/-- No other pending subscription holds the callback of this one. -/
def HoldsAlone (s : Sys) (p : UInt16) (callback : Callback) : Prop :=
  ∀ q other, s.pendingSubscribes.find? q = some other → other.callback = callback → q = p

/-- The codes that mean what the report says. -/
def plain (code : UInt8) : Bool := code ≤ 2 || code == 0x80

def reported (callback : Callback) (pair : Bytes × UInt8) : Event :=
  .subscribeReport callback (pair.2 != 0x80) pair.1 (if pair.2 != 0x80 then pair.2 else 0)

theorem reported_plain (callback : Callback) (topic : Bytes) (code : UInt8) :
    reported callback (topic, code) = verdict callback topic (some code) ↔ plain code = true := by
  unfold reported verdict plain
  by_cases refused : code = 0x80
  · subst refused
    simp
  · by_cases granted : code ≤ 2
    · simp [refused, granted]
    · simp [refused, granted]

/-- With enough codes the reports are as they should be exactly if the codes used are plain. -/
theorem reported_all (callback : Callback) (filters : List (Bytes × UInt8)) (codes : List UInt8)
    (enough : filters.length ≤ codes.length) :
    ((filters.map Prod.fst).zip codes).map (reported callback) = verdicts callback filters codes ↔
      (codes.take filters.length).all plain = true := by
  induction filters generalizing codes with
  | nil => simp [verdicts]
  | cons filter rest ih =>
    cases codes with
    | nil => contradiction
    | cons code codes =>
      have one := reported_plain callback filter.1 code
      have later := ih codes (Nat.le_of_succ_le_succ enough)
      simp only [List.map_cons, List.zip_cons_cons, verdicts, List.head?_cons, List.tail_cons, List.cons.injEq,
        one, later, List.length_cons, List.take_succ_cons, List.all_cons, Bool.and_eq_true]

/-! ### The loop -/

theorem above_subackEach (callback : Callback) (pairs : List (Bytes × UInt8)) (callable : callback.callable = true)
    (defined : s.undefined = false) (low : floor ≤ s.depth) :
    ∃ v, Says (pairs.map (reported callback)) s v ∧ Above floor (s.push [.subackEach callback pairs]) v := by
  induction pairs generalizing s with
  | nil => exact ⟨s, says_nothing s, above_push (k := .subackEach callback []) (by simp) defined low⟩
  | cons pair rest ih =>
    obtain ⟨topic, code⟩ := pair
    obtain ⟨u, told, run⟩ := above_tellSubscribe [.subackEach callback rest] callback (code != 0x80) topic
      (if code != 0x80 then code else 0) defined low
    have heard : Says [reported callback (topic, code)] s u := by
      rwa [heard, if_pos callable] at told
    obtain ⟨v, later, last⟩ := ih (heard.defined.trans defined) (heard.low low)
    have first := above_push (k := .subackEach callback ((topic, code) :: rest)) (by simp) defined low
    exact ⟨v, heard.trans later, first.trans (run.trans last)⟩

theorem flush_spares (callback : Callback) (apart : ∀ e ∈ s.pendingSubscribes.entries, e.2.callback ≠ callback) :
    s.flush.filter (Event.judges callback) = [] := by
  have publishes : (s.pendingPublishes.entries.flatMap publishFailure).filter (Event.judges callback) = [] := by
    refine List.filter_eq_nil_iff.mpr fun e among => ?_
    obtain ⟨entry, -, told⟩ := List.mem_flatMap.mp among
    unfold publishFailure heard at told
    split at told
    · obtain rfl := List.mem_singleton.mp told
      exact Bool.false_ne_true
    · contradiction
  have subscribes : (s.pendingSubscribes.entries.flatMap subscribeFailures).filter (Event.judges callback) = [] := by
    refine List.filter_eq_nil_iff.mpr fun e among => ?_
    obtain ⟨entry, member, told⟩ := List.mem_flatMap.mp among
    obtain ⟨filter, -, told⟩ := List.mem_flatMap.mp told
    unfold heard at told
    split at told
    · obtain rfl := List.mem_singleton.mp told
      simpa [Event.judges] using apart entry member
    · contradiction
  have closes : s.closeFailures.filter (Event.judges callback) = [] := by
    unfold closeFailures
    split
    · rfl
    · refine List.filter_eq_nil_iff.mpr fun e among => ?_
      rcases List.mem_cons.mp among with rfl | among
      · exact Bool.false_ne_true
      · obtain ⟨item, -, told⟩ := List.mem_flatMap.mp among
        unfold writeFailure heard at told
        split at told
        · split at told
          · obtain rfl := List.mem_singleton.mp told
            exact Bool.false_ne_true
          · contradiction
        · obtain rfl := List.mem_singleton.mp told
          exact Bool.false_ne_true
        · contradiction
  have last : (if s.onCloseCb then [Event.closeReport] else []).filter (Event.judges callback) = [] := by
    split <;> rfl
  simp only [flush, List.filter_append, publishes, subscribes, closes, last, List.append_nil]

/-! ### The SUBACK of a pending subscription -/

/-- A SUBACK answers every filter of its subscription exactly if it has a code for each of them, and each
of these codes is 0, 1, 2 or 0x80. -/
theorem suback_reports_iff {data : Bytes} {entry : PendingSubscribe} (defined : s.undefined = false)
    (found : s.pendingSubscribes.find? (SubackPacket.parse data).packetId = some entry)
    (callable : entry.callback.callable = true)
    (alone : s.HoldsAlone (SubackPacket.parse data).packetId entry.callback) :
    s.Reports data entry.callback (verdicts entry.callback entry.filters (SubackPacket.parse data).returnCodes) ↔
      entry.filters.length ≤ (SubackPacket.parse data).returnCodes.length ∧
        ((SubackPacket.parse data).returnCodes.take entry.filters.length).all plain = true := by
  let p := (SubackPacket.parse data).packetId
  let codes := (SubackPacket.parse data).returnCodes
  let u : Sys := { s.record (.received .suback p codes) with pendingSubscribes := s.pendingSubscribes.erase p }
  -- The call returns in one state, so what it tells the callback is determined.
  have exactly : ∀ {t : Sys} {events : List Event}, Above s.depth (s.handleSuback data) t → t.net.stack = s.net.stack →
      t.log = events.reverse ++ u.log → (s.Reports data entry.callback (verdicts entry.callback entry.filters codes) ↔
        events.filter (Event.judges entry.callback) = verdicts entry.callback entry.filters codes) := by
    intro t events run stack log
    have returned : Returns s.depth (s.handleSuback data) t := ⟨run, by simp [depth, stack]⟩
    have all : t.log = (.received .suback p codes :: events).reverse ++ s.log := by
      rw [log]
      simp [u, record]
    constructor
    · rintro ⟨other, others, also, logged, told⟩
      obtain rfl := also.unique returned
      have same := List.append_cancel_right (logged.symm.trans all)
      rw [List.reverse_inj.mp same] at told
      exact told
    · intro told
      exact ⟨t, _, returned, all, told⟩
  let pairs := (entry.filters.map Prod.fst).zip codes
  have entered : s.handleSuback data = if codes.length < entry.filters.length then u.push [.notifyClosedOnce]
      else u.push [.subackEach entry.callback pairs] := by
    simp only [handleSuback, record, found, callable, Bool.not_true, Bool.false_eq_true, if_false]
    rfl
  by_cases enough : entry.filters.length ≤ codes.length
  · rw [if_neg (Nat.not_lt.mpr enough)] at entered
    obtain ⟨v, told, run⟩ := above_subackEach (s := u) entry.callback pairs callable defined (le_refl s.depth)
    rw [exactly (entered ▸ run) told.stack told.log]
    have mine : (pairs.map (reported entry.callback)).filter (Event.judges entry.callback) =
        pairs.map (reported entry.callback) := by
      refine List.filter_eq_self.mpr fun e among => ?_
      obtain ⟨pair, -, rfl⟩ := List.mem_map.mp among
      exact decide_eq_true rfl
    rw [mine, reported_all entry.callback entry.filters codes enough]
    exact (and_iff_right enough).symm
  · rw [if_pos (Nat.lt_of_not_le enough)] at entered
    have apart : ∀ e ∈ u.pendingSubscribes.entries, e.2.callback ≠ entry.callback := by
      rintro ⟨q, other⟩ member same
      obtain ⟨before, different⟩ := List.mem_filter.mp member
      have := alone q other (OrderedMap.find?_eq_some.mpr before) same
      simp [this, p] at different
    have missing : ([] : List Event) ≠ verdicts entry.callback entry.filters codes := by
      cases filters : entry.filters with
      | nil => simp [filters] at enough
      | cons filter rest => simp [verdicts]
    obtain ⟨t, events, run, stack, log, silent⟩ :
        ∃ (t : Sys) (events : List Event), Above s.depth (u.push [.notifyClosedOnce]) t ∧
        t.net.stack = s.net.stack ∧ t.log = events.reverse ++ u.log ∧
            events.filter (Event.judges entry.callback) = [] := by
      by_cases closed : u.closed = true
      · exact ⟨u, [], above_notifyClosedOnce closed defined (le_refl _), rfl, rfl, rfl⟩
      · obtain ⟨t, run, flushed, -⟩ := above_flush (s := u) (Bool.eq_false_iff.mpr closed) defined (le_refl u.depth)
        exact ⟨t, u.flush, run, flushed.stack, flushed.log, flush_spares entry.callback apart⟩
    rw [exactly (entered ▸ run) stack log, silent]
    exact iff_of_false missing fun both => enough both.1

def subscribing : List Action :=
  opened ++ [.call (.asyncSubscribe [0x74] 1 true), .call (.asyncSubscribe [0x75] 0 true), .run, .exec, .run, .exec]

def subscribed2 : List (UInt16 × PendingSubscribe) := [(2, ⟨[([0x74], 1)], ⟨0, true⟩⟩), (3, ⟨[([0x75], 0)], ⟨1, true⟩⟩)]

theorem first_of_two (entries : s.pendingSubscribes.entries = subscribed2) :
    s.pendingSubscribes.find? 2 = some ⟨[([0x74], 1)], ⟨0, true⟩⟩ ∧ s.HoldsAlone 2 ⟨0, true⟩ := by
  refine ⟨by simp [OrderedMap.find?, entries, subscribed2], fun q other held same => ?_⟩
  have member := OrderedMap.find?_eq_some.mp held
  rw [entries] at member
  rcases List.mem_cons.mp member with is | member
  · exact (Prod.mk.inj is).1
  · obtain ⟨-, rfl⟩ := Prod.mk.inj (List.mem_singleton.mp member)
    contradiction

theorem granted_subscription_reported : ∃ s : Sys,
    s.Reports (SubackPacket.serialize ⟨2, [1]⟩) ⟨0, true⟩ [.subscribeReport ⟨0, true⟩ true [0x74] 1] := by
  have run : (Runs.exec step ({} : Sys) subscribing).map (fun s => !s.undefined &&
      s.pendingSubscribes.entries == subscribed2) = some true := by
    decide +kernel
  obtain ⟨s, -, facts⟩ := Runs.exec_of_check run
  simp only [Bool.and_eq_true, Bool.not_eq_true', beq_iff_eq] at facts
  obtain ⟨defined, entries⟩ := facts
  have parsed : (SubackPacket.parse (SubackPacket.serialize ⟨2, [1]⟩)).packetId = 2 := by decide
  obtain ⟨found, alone⟩ := first_of_two entries
  rw [← parsed] at found alone
  exact ⟨s, (suback_reports_iff defined found rfl alone).mpr ⟨by decide, by decide⟩⟩

/-- A SUBACK without codes closes the session, and its subscription is not told. -/
theorem short_suback_unreported : ¬ ∀ actions s, Runs.exec step ({} : Sys) actions = some s → ∀ data entry,
    s.pendingSubscribes.find? (SubackPacket.parse data).packetId = some entry → entry.callback.callable = true →
      s.HoldsAlone (SubackPacket.parse data).packetId entry.callback →
        s.Reports data entry.callback
          (verdicts entry.callback entry.filters (SubackPacket.parse data).returnCodes) := by
  intro claimed
  have run : (Runs.exec step ({} : Sys) subscribing).map (fun s =>
      s.pendingSubscribes.entries == subscribed2 &&
      (Calls.run proceed depth s.depth 30 (s.handleSuback (SubackPacket.serialize ⟨2, []⟩))).any fun t =>
        s.log.all (fun e => !e.judges ⟨0, true⟩) && t.log.all fun e => !e.judges ⟨0, true⟩) = some true := by
    decide +kernel
  obtain ⟨s, reached, facts⟩ := Runs.exec_of_check run
  simp only [Bool.and_eq_true, beq_iff_eq, Option.any_eq_true] at facts
  obtain ⟨entries, t, ran, -, silent⟩ := facts
  have parsed : (SubackPacket.parse (SubackPacket.serialize ⟨2, []⟩)).packetId = 2 := by decide
  obtain ⟨found, alone⟩ := first_of_two entries
  rw [← parsed] at found alone
  obtain ⟨other, events, also, log, told⟩ := claimed _ s reached _ _ found rfl alone
  obtain rfl := also.unique (Calls.returns_of_run ran)
  have none : events.filter (Event.judges ⟨0, true⟩) = [] := by
    refine List.filter_eq_nil_iff.mpr fun e among => ?_
    have quiet := List.all_eq_true.mp silent e (log ▸ List.mem_append_left _ (List.mem_reverse.mpr among))
    simpa using quiet
  rw [none] at told
  contradiction

end Sys
end LiteMqtt
