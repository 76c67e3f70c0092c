import LiteMqtt.Client.Meaning
import LiteMqtt.General.Past

/-!
# The order of an exchange

A PUBREL is sent after a PUBREC, the PUBREC came after the PUBLISH was sent, and the PUBLISH was sent after the
publish was accepted, all within one life of the packet id, whatever the broker and the timers do.
-/

namespace LiteMqtt

/-- No publish is accepted anew under this packet id. -/
def Event.spares (packetId : UInt16) : Event → Prop
  | .accepted p qos _ => p = packetId → qos = 0
  | _ => True

namespace Exchange

variable {p : UInt16} {news log : List Event}

/-- A publish was accepted under this packet id, and no other since. -/
def Accepted (p : UInt16) : List Event → Prop :=
  Past.Since (Event.spares p) fun e _ => ∃ qos callback, e = .accepted p qos callback ∧ (qos = 1 ∨ qos = 2)

/-- Its PUBLISH was handed over. -/
def Sent (p : UInt16) : List Event → Prop :=
  Past.Since (Event.spares p) fun e earlier => ∃ pkt, e = .handed (.publish pkt) ∧ pkt.packetId = p ∧ Accepted p earlier

/-- After that a PUBREC came for it. -/
def Recorded (p : UInt16) : List Event → Prop :=
  Past.Since (Event.spares p) fun e earlier => e = .received .pubrec p [] ∧ Sent p earlier

/-- Only a PUBREL asks for something. -/
def Ordered : Event → List Event → Prop
  | .handed (.pubrel p), earlier => Recorded p earlier
  | _, _ => True

end Exchange

theorem Event.spares_of_accepts {e : Event} (none : e.accepts = false) (p : UInt16) : e.spares p := by
  cases e with
  | accepted q qos callback => exact fun _ => by simpa [Event.accepts] using none
  | _ => trivial

theorem Event.ordered_of_calm {e : Event} (calm : e.isCalm = true) (earlier : List Event) :
    Exchange.Ordered e earlier := by
  cases e with
  | handed packet =>
    cases packet with
    | pubrel => cases calm
    | _ => trivial
  | _ => trivial

namespace Sys

variable {s t : Sys}

open Exchange

/-- What is pending was sent, and what waits for its PUBCOMP was recorded. -/
structure Exchanging (s : Sys) : Prop where
  publishes : ∀ p, s.pendingPublishes.contains p = true → Sent p s.log
  pubrecs : ∀ p, s.pendingPubrecs.contains p = true → Exchange.Recorded p s.log
  ordered : Past.Always Ordered s.log

theorem exchanging_more (h : s.Exchanging) (news : List Event) (log : t.log = news ++ s.log)
    (spares : ∀ e ∈ news, e.accepts = false) (free : ∀ e ∈ news, ∀ earlier, Ordered e earlier)
    (publishes : ∀ p, t.pendingPublishes.contains p = true → s.pendingPublishes.contains p = true)
    (pubrecs : ∀ p, t.pendingPubrecs.contains p = true → s.pendingPubrecs.contains p = true) : t.Exchanging := by
  have spared : ∀ p, ∀ e ∈ news, e.spares p := fun p e among => Event.spares_of_accepts (spares e among) p
  refine ⟨fun p held => ?_, fun p held => ?_, log ▸ h.ordered.append free⟩
  · rw [log]
    exact (h.publishes p (publishes p held)).append (spared p)
  · rw [log]
    exact (h.pubrecs p (pubrecs p held)).append (spared p)

theorem exchanging_calm (h : s.Exchanging) (calm : Calm s t) : t.Exchanging := by
  obtain ⟨news, log, all⟩ := calm.log
  exact exchanging_more h news log (fun e among => accepts_of_calm (all e among))
    (fun e among => Event.ordered_of_calm (all e among)) (contains_of_kept calm.publishes)
      (contains_of_kept calm.pubrecs)

theorem exchanging_notable (h : s.Exchanging) (notable : Notable s t) : t.Exchanging := by
  cases notable with
  | atMostOnce cb pkt sent log publishes pubrecs =>
    exact exchanging_more h [.handed (.publish pkt), .accepted 0 0 cb] log (by simp [Event.accepts])
      (by simp [Ordered]) (fun p => publishes ▸ id) fun p => pubrecs ▸ id
  | accept p entry pkt fresh acknowledged sent log publishes pubrecs =>
    have unheld : s.pendingPubrecs.contains p = false := by
      simp only [takenId, Bool.or_eq_false_iff] at fresh
      exact fresh.2
    have spared :
        ∀ q, q ≠ p → ∀ e ∈ [Event.handed (.publish pkt), .accepted p entry.qos entry.callback], e.spares q := by
      intro q other e among
      rcases List.mem_pair.mp among with rfl | rfl
      · trivial
      · exact fun same => absurd same.symm other
    refine ⟨fun q held => ?_, fun q held => ?_, ?_⟩
    · rw [log]
      by_cases same : q = p
      · subst same
        exact .now ⟨pkt, rfl, sent, .now ⟨_, _, rfl, acknowledged⟩⟩
      · rw [publishes] at held
        have before := ((OrderedMap.contains_insert _ _ _ _).mp held).resolve_left same
        exact (h.publishes q before).append (spared q same)
    · rw [pubrecs] at held
      have other : q ≠ p := by
        rintro rfl
        exact absurd (unheld.symm.trans held) (by simp)
      rw [log]
      exact (h.pubrecs q held).append (spared q other)
    · rw [log]
      exact ⟨trivial, trivial, h.ordered⟩
  | resend p entry pkt held sent log publishes pubrecs =>
    refine exchanging_more h [.handed (.publish pkt)] log (by simp [Event.accepts]) (by simp [Ordered])
      (fun q found => ?_) fun q => pubrecs ▸ id
    rw [publishes] at found
    rcases (OrderedMap.contains_insert _ _ _ _).mp found with rfl | before
    · exact Option.isSome_iff_exists.mpr ⟨entry, held⟩
    · exact before
  | release p held log publishes pubrecs =>
    have spared : ∀ q, (Event.handed (.pubrel p)).spares q := fun _ => trivial
    refine ⟨fun q found => ?_, fun q found => ?_, ?_⟩
    · rw [log]
      exact (h.publishes q (publishes ▸ found)).cons (spared q)
    · rw [log]
      exact (h.pubrecs q (pubrecs q found)).cons (spared q)
    · rw [log]
      exact ⟨h.pubrecs p held, h.ordered⟩

theorem exchanging_acked {pt : PacketType} {p : UInt16} (h : s.Exchanging) (acked : Acked pt p s t) : t.Exchanging := by
  have log : t.log = (s.successReport p ++ [.received pt p []]) ++ s.log := by
    rw [acked.log, List.append_assoc]
    rfl
  refine exchanging_more h _ log (fun e among => ?_) (fun e among => ?_) (contains_of_kept acked.publishes)
    (contains_of_kept acked.pubrecs)
  · rcases List.mem_append.mp among with report | receipt
    · exact successReport_skip s p e report
    · obtain rfl := List.mem_singleton.mp receipt
      rfl
  · intro earlier
    rcases List.mem_append.mp among with report | receipt
    · unfold successReport at report
      split at report
      · cases report
      · split at report
        · obtain rfl := List.mem_singleton.mp report
          trivial
        · cases report
    · obtain rfl := List.mem_singleton.mp receipt
      trivial

theorem exchanging_recorded {p : UInt16} (h : s.Exchanging) (recorded : Recorded p s t) : t.Exchanging := by
  cases held : s.pendingPublishes.contains p with
  | false =>
    have log : t.log = [.received .pubrec p []] ++ s.log := by simpa [held] using recorded.log
    refine exchanging_more h _ log (by simp [Event.accepts]) (by simp [Ordered]) (fun q => recorded.publishes ▸ id)
      fun q found => ?_
    refine (recorded.pubrecs q found).resolve_right ?_
    rintro ⟨-, yes⟩
    exact absurd (held.symm.trans yes) (by simp)
  | true =>
    have log : t.log = .handed (.pubrel p) :: .received .pubrec p [] :: s.log := by simpa [held] using recorded.log
    have now : Exchange.Recorded p (.received .pubrec p [] :: s.log) := .now ⟨rfl, h.publishes p held⟩
    have spared : ∀ q, ∀ e ∈ [Event.handed (.pubrel p), .received .pubrec p []], e.spares q := by
      intro q e among
      rcases List.mem_pair.mp among with rfl | rfl <;> trivial
    refine ⟨fun q found => ?_, fun q found => ?_, ?_⟩
    · rw [log]
      exact (h.publishes q (recorded.publishes ▸ found)).append (spared q)
    · rw [log]
      rcases recorded.pubrecs q found with before | ⟨rfl, -⟩
      · exact (h.pubrecs q before).append (spared q)
      · exact now.cons trivial
    · rw [log]
      exact ⟨now, trivial, h.ordered⟩

theorem exchanging_step {a : Action} (h : s.Exchanging) (taken : s.step a = some t) : t.Exchanging := by
  have exchanges := step_exchanges taken
  cases deed : s.deed a with
  | connect =>
    rw [deed] at exchanges
    exact exchanging_more h [.connectCalled] exchanges.log (by simp [Event.accepts]) (by simp [Ordered])
      (fun p => exchanges.publishes ▸ id) fun p => exchanges.pubrecs ▸ id
  | puback p => exact exchanging_acked h (deed ▸ exchanges)
  | pubcomp p => exact exchanging_acked h (deed ▸ exchanges)
  | pubrec p => exact exchanging_recorded h (deed ▸ exchanges)
  | other =>
    rw [deed] at exchanges
    rcases exchanges with calm | notable
    · exact exchanging_calm h calm
    · exact exchanging_notable h notable

/-- In every run: each PUBREL follows a PUBREC for its packet id, that PUBREC follows a PUBLISH with it, and the PUBLISH
the acceptance of its publish. No other publish was accepted under the packet id since. -/
theorem pubrel_in_exchange {actions : List Action} (done : Runs.exec step ({} : Sys) actions = some s)
    {later earlier : List Event} {p : UInt16} (found : s.log = later ++ .handed (.pubrel p) :: earlier) :
    Exchange.Recorded p earlier := by
  have started : Exchanging ({} : Sys) := by
    refine ⟨?_, ?_, trivial⟩ <;> simp [OrderedMap.contains, OrderedMap.find?_empty]
  have kept := Runs.Reaches.invariant started (fun _ _ _ before _ taken => exchanging_step before taken)
    (Runs.exec_reaches done (Runs.along_any actions))
  exact kept.ordered.justifies found

/-- The PUBREC for packet id 2 brings its PUBREL. -/
theorem pubrel_after_pubrec :
    ∃ s earlier, Runs.exec step ({} : Sys) (opened ++ publishing 2 ++ receive 0x50 2 0 2) = some s ∧
    s.log = .handed (.pubrel 2) :: earlier ∧ Exchange.Recorded 2 earlier := by
  have run : (Runs.exec step ({} : Sys) (opened ++ publishing 2 ++ receive 0x50 2 0 2)).map (fun s =>
      decide (s.log = .handed (.pubrel 2) :: s.log.tail)) = some true := by
    decide +kernel
  obtain ⟨s, done, fact⟩ := Runs.exec_of_check run
  have newest := of_decide_eq_true fact
  have last : s.log = [] ++ .handed (.pubrel 2) :: s.log.tail := newest
  exact ⟨s, s.log.tail, done, newest, pubrel_in_exchange done last⟩

end Sys
end LiteMqtt
