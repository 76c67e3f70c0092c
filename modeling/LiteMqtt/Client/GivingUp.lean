import LiteMqtt.Client.Flushing

/-!
# Giving up on a publish

The retry timer of a QoS 1 publish expires after its third transmission. `finish_publish_failure`
reports the publish and then ends the session.
-/

namespace LiteMqtt
namespace Sys

variable {s t u v : Sys} {floor : Nat} {p : UInt16}

def retryExpires (s : Sys) (p : UInt16) : Bool :=
  match s.net.ready with
  | .own (.timer (.publishRetry q) none) :: _ => p == q
  | _ => false

/-- `p` is a QoS 1 publish that has been sent three times. -/
def spent (s : Sys) (p : UInt16) : Bool :=
  (s.pendingPublishes.find? p).any fun entry => entry.qos == 1 && decide (3 ≤ entry.attempts)

/-- Of everything in `s` only the publish `p` has failed and is gone. -/
structure FailsAlone (p : UInt16) (s t : Sys) : Prop where
  reported : ∃ entry, s.pendingPublishes.find? p = some entry ∧ t.log = (publishFailure (p, entry)).reverse ++ s.log ∧
    t.waits = s.waits.filter fun w => w.timer != entry.timer
  publishes : t.pendingPublishes = s.pendingPublishes.erase p
  pubrecs : t.pendingPubrecs = s.pendingPubrecs
  subscribes : t.pendingSubscribes = s.pendingSubscribes
  closed : t.closed = s.closed
  connection : t.net.closed = s.net.closed
  state : t.net.state = s.net.state
  queue : t.net.writeQueue = s.net.writeQueue
  inFlight : t.net.inFlight = s.net.inFlight

theorem above_finishPublishFailure {entry : PendingPublish} (found : s.pendingPublishes.find? p = some entry)
    (opened : s.closed = false) (defined : s.undefined = false) (low : floor ≤ s.depth) :
    ∃ v t, Says (publishFailure (p, entry)) { s with pendingPublishes := s.pendingPublishes.erase p } v ∧ Flushed v t ∧
      Above floor (s.push [.finishPublishFailure p]) t := by
  let w : Sys := { s with pendingPublishes := s.pendingPublishes.erase p }
  let u : Sys := w.cancelTimer entry.timer
  obtain ⟨v, told, reported⟩ :=
      above_tellPublish (s := u) [.notifyClosedOnce] entry.callback false entry.topic entry.qos p
    defined low
  have entered : s.execute (.finishPublishFailure p) =
      (u.push [.notifyClosedOnce]).tellPublish entry.callback false entry.topic entry.qos p := by
    show s.finishPublishFailure p = _
    simp only [finishPublishFailure, cancelPublishRetryTimer, found]
    rfl
  have first := above_push (k := .finishPublishFailure p) (by simp) defined low
  rw [entered] at first
  obtain ⟨t, run, flushed, -⟩ := above_flush (told.closed.trans opened) (told.defined.trans defined) (told.low low)
  exact ⟨v, t, (says_cancelTimer w entry.timer).trans told, flushed, first.trans (reported.trans run)⟩

/-- In no session that is up does giving up on a QoS 1 publish leave the rest alone: the expiry returns in
one state, where the session has ended. -/
theorem giving_up_ends_session (opened : s.closed = false) (expires : s.retryExpires p = true)
    (spent : s.spent p = true) (taken : s.step .run = some t) :
    ∃ u, (∀ v, Returns 0 t v ↔ v = u) ∧ u.closed = true ∧ ¬ FailsAlone p s u := by
  obtain ⟨defined, steps⟩ := steps taken
  obtain ⟨entry, found, three⟩ := (Option.any_eq_true _ _).mp spent
  have exhausted : 3 ≤ entry.attempts := by
    simp only [Bool.and_eq_true, decide_eq_true_eq] at three
    exact three.2
  obtain ⟨rest, ready⟩ : ∃ rest, s.net.ready = .own (.timer (.publishRetry p) none) :: rest := by
    unfold retryExpires at expires
    split at expires
    · exact ⟨_, by rwa [beq_iff_eq.mp expires]⟩
    · contradiction
  cases steps with
  | run n ran =>
    obtain ⟨idle, task, rest', ready', rfl⟩ := Net.run_cases ran
    obtain ⟨rfl, rfl⟩ := List.cons.inj (ready'.symm.trans ready)
    let a : Sys := { s with net := { s.net with ready := rest' } }
    have entered : a.execute (.timer (.publishRetry p) none) = a.push [.finishPublishFailure p] := by
      show a.onPublishRetry p = _
      have found' : a.pendingPublishes.find? p = some entry := found
      simp only [onPublishRetry, found', if_pos exhausted]
    have fired := above_push (s := a) (k := .timer (.publishRetry p) none) nofun defined (Nat.zero_le _)
    rw [entered] at fired
    obtain ⟨v, u, told, flushed, run⟩ :=
      above_finishPublishFailure (s := a) found opened defined (Nat.zero_le _)
    have returned : Returns 0 (a.push [.timer (.publishRetry p) none]) u := by
      refine ⟨fired.trans run, ?_⟩
      show u.net.stack.length ≤ 0
      rw [flushed.stack, told.stack]
      show s.net.stack.length ≤ 0
      rw [idle]
      exact le_refl 0
    refine ⟨u, fun v => ⟨fun other => other.unique returned, fun same => same ▸ returned⟩, flushed.empty.closed, ?_⟩
    intro alone
    exact absurd (opened.symm.trans (alone.closed.symm.trans flushed.empty.closed)) nofun

def retried : List Action :=
  [.advance 5000, .expire 1, .run, .exec, .run, .kernel (.send 1 7), .kernel (.write 1 none), .run, .exec, .exec,
    .run, .exec]

def unanswered1 : List Action :=
  opened ++ publishing 1 ++ retried ++ retried ++ publishing 1 ++ [.advance 5000, .expire 1]

theorem second_publish_fails_too : ∃ s t u : Sys, s.step .run = some t ∧
    ((∀ v, Returns 0 t v ↔ v = u) ∧ u.closed = true ∧ ¬ FailsAlone 2 s u) := by
  have run : (Runs.exec step ({} : Sys) unanswered1).map (fun s =>
      !s.closed && s.retryExpires 2 && s.spent 2 && (s.step .run).isSome) = some true := by
    decide +kernel
  obtain ⟨s, -, facts⟩ := Runs.exec_of_check run
  simp only [Bool.and_eq_true, Bool.not_eq_true'] at facts
  obtain ⟨⟨⟨opened, expires⟩, spent⟩, taken⟩ := facts
  obtain ⟨t, taken⟩ := Option.isSome_iff_exists.mp taken
  obtain ⟨u, ends⟩ := giving_up_ends_session opened expires spent taken
  exact ⟨s, t, u, taken, ends⟩

theorem giving_up_is_not_local : ¬ ∀ actions s, Runs.exec step ({} : Sys) actions = some s → s.closed = false →
    ∀ p, s.retryExpires p = true → s.spent p = true → ∀ t u, s.step .run = some t → Returns 0 t u →
      FailsAlone p s u := by
  intro claimed
  have run : (Runs.exec step ({} : Sys) unanswered1).map (fun s => !s.closed && s.retryExpires 2 && s.spent 2 &&
      (s.step .run).any fun t => (Calls.run proceed depth 0 30 t).any fun u => u.closed &&
        u.log.contains (.published ⟨1, true⟩ false [0x74] 1 3)) = some true := by
    decide +kernel
  obtain ⟨s, reached, facts⟩ := Runs.exec_of_check run
  simp only [Bool.and_eq_true, Bool.not_eq_true', Option.any_eq_true] at facts
  obtain ⟨⟨⟨opened, expires⟩, spent⟩, t, taken, u, ran, closed, -⟩ := facts
  have alone := claimed _ s reached opened 2 expires spent t u taken (Calls.returns_of_run ran)
  exact absurd (opened.symm.trans (alone.closed.symm.trans closed)) nofun

end Sys
end LiteMqtt
