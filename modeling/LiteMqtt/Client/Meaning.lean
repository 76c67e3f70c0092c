import LiteMqtt.Client.Exchange

/-!
# What a success means

A QoS 1 publish is reported a success because of a PUBACK with its packet id, a QoS 2 publish
because of a PUBCOMP after a PUBREC. The client looks at neither the QoS nor the phase of a
publish, so this is so exactly when the broker sends no other acknowledgements.
-/

namespace LiteMqtt

/-- The QoS and callback of the last acknowledged publish accepted under a packet id. -/
def latest (packetId : UInt16) : List Event → Option (UInt8 × Callback)
  | [] => none
  | .accepted p qos callback :: earlier =>
      if p = packetId ∧ qos ≠ 0 then some (qos, callback) else latest packetId earlier
  | _ :: earlier => latest packetId earlier

/-- A PUBREC with this id was handled since the last publish was accepted under it. -/
def recorded (packetId : UInt16) : List Event → Bool
  | [] => false
  | .received .pubrec p _ :: earlier => p == packetId || recorded packetId earlier
  | .accepted p qos _ :: earlier => !(p == packetId && qos != 0) && recorded packetId earlier
  | _ :: earlier => recorded packetId earlier

/-- What must have happened when an event is recorded. -/
def Justified (earlier : List Event) : Event → Prop
  | .published callback true _ qos p =>
      (qos = 1 → earlier.head? = some (.received .puback p []) ∧ latest p earlier = some (1, callback)) ∧
      (qos = 2 → earlier.head? = some (.received .pubcomp p []) ∧ latest p earlier = some (2, callback) ∧
        recorded p earlier = true)
  | _ => True

/-- Every success in the history is justified by what happened before it. -/
def Meaning : List Event → Prop
  | [] => True
  | e :: earlier => Justified earlier e ∧ Meaning earlier

theorem justified_calm {earlier : List Event} {e : Event} (calm : e.isCalm = true) : Justified earlier e := by
  unfold Justified
  split
  · rename_i qos p
    have zero : qos = 0 := by simpa [Event.isCalm] using calm
    subst zero
    exact ⟨nofun, nofun⟩
  · trivial

theorem meaning_calm {news log : List Event} (calm : ∀ e ∈ news, e.isCalm = true) (h : Meaning log) :
    Meaning (news ++ log) := by
  induction news with
  | nil => exact h
  | cons e news ih =>
    exact ⟨justified_calm (calm e List.mem_cons_self), ih fun x among => calm x (List.mem_cons_of_mem _ among)⟩

def Event.accepts : Event → Bool
  | .accepted _ qos _ => qos != 0
  | _ => false

theorem accepts_of_calm {e : Event} (calm : e.isCalm = true) : e.accepts = false := by
  cases e with
  | accepted => simp [Event.isCalm] at calm
  | _ => rfl

theorem latest_skip {news log : List Event} (skip : ∀ e ∈ news, e.accepts = false) (p : UInt16) :
    latest p (news ++ log) = latest p log := by
  induction news with
  | nil => rfl
  | cons e news ih =>
    have rest := ih fun x among => skip x (List.mem_cons_of_mem _ among)
    cases e with
    | accepted q qos cb =>
      have zero : qos = 0 := by simpa [Event.accepts] using skip _ List.mem_cons_self
      simpa [latest, zero] using rest
    | _ => exact rest

namespace Sys

variable {s t : Sys}

/-- Each pending publish is the last that was accepted under its packet id. -/
def Held (s : Sys) : Prop := ∀ p entry, s.pendingPublishes.find? p = some entry →
  (entry.qos = 1 ∨ entry.qos = 2) ∧ latest p s.log = some (entry.qos, entry.callback)

/-- The acknowledgement is the one that the pending publish asks for: a PUBACK for QoS 1, and
for QoS 2 a PUBCOMP once there was a PUBREC. -/
def Fits (s : Sys) : Deed → Prop
  | .puback p => ∀ entry ∈ s.pendingPublishes.find? p, entry.callback.callable = true → entry.qos = 1
  | .pubcomp p => ∀ entry ∈ s.pendingPublishes.find? p, entry.callback.callable = true →
      entry.qos = 2 ∧ recorded p s.log = true
  | _ => True

def Admitted (s : Sys) (a : Action) : Prop := s.Fits (s.deed a)

instance (s : Sys) : ∀ d, Decidable (s.Fits d)
  | .puback p => inferInstanceAs (Decidable (∀ entry ∈ s.pendingPublishes.find? p,
      entry.callback.callable = true → entry.qos = 1))
  | .pubcomp p => inferInstanceAs (Decidable (∀ entry ∈ s.pendingPublishes.find? p,
      entry.callback.callable = true → entry.qos = 2 ∧ recorded p s.log = true))
  | .connect | .pubrec _ | .other => .isTrue trivial

instance (s : Sys) (a : Action) : Decidable (s.Admitted a) := inferInstanceAs (Decidable (s.Fits _))

theorem successReport_skip (s : Sys) (p : UInt16) : ∀ e ∈ s.successReport p, e.accepts = false := by
  unfold successReport
  split
  · nofun
  · split
    · intro e among
      obtain rfl := List.mem_singleton.mp among
      rfl
    · nofun

theorem held_notable (h : Held s) (notable : Notable s t) : Held t := by
  intro q e found
  cases notable with
  | atMostOnce cb pkt sent log publishes =>
    have before := h q e (publishes ▸ found)
    exact ⟨before.1, by simpa [log, latest] using before.2⟩
  | accept p entry pkt fresh acknowledged sent log publishes =>
    rw [publishes, OrderedMap.find?_insert] at found
    rw [log]
    split at found
    · rename_i same
      obtain rfl := Option.some.inj found
      subst same
      refine ⟨acknowledged, ?_⟩
      have positive : entry.qos ≠ 0 := by rcases acknowledged with one | two <;> simp [*]
      simp [latest, positive]
    · rename_i other
      have before := h q e found
      refine ⟨before.1, ?_⟩
      simpa [latest, Ne.symm other] using before.2
  | resend p entry pkt held sent log publishes =>
    rw [publishes, OrderedMap.find?_insert] at found
    rw [log]
    split at found
    · rename_i same
      obtain rfl := Option.some.inj found
      exact same ▸ h p entry held
    · exact h q e found
  | release p held log publishes => exact log ▸ h q e (publishes ▸ found)

theorem held_step {a : Action} (h : Held s) (taken : s.step a = some t) : Held t := by
  have exchanges := step_exchanges taken
  have acked : ∀ {pt p}, Acked pt p s t → Held t := by
    intro pt p acked q e found
    have before := h q e (acked.publishes q e found)
    refine ⟨before.1, ?_⟩
    rw [acked.log, latest_skip (successReport_skip s p)]
    exact before.2
  cases d : s.deed a with
  | connect =>
    rw [d] at exchanges
    intro q e found
    have before := h q e (exchanges.publishes ▸ found)
    exact ⟨before.1, exchanges.log ▸ before.2⟩
  | puback => exact acked (d ▸ exchanges)
  | pubcomp => exact acked (d ▸ exchanges)
  | pubrec p =>
    rw [d] at exchanges
    intro q e found
    have before := h q e (exchanges.publishes ▸ found)
    refine ⟨before.1, ?_⟩
    rw [exchanges.log]
    split <;> exact before.2
  | other =>
    rw [d] at exchanges
    rcases exchanges with ⟨⟨news, log, calm⟩, publishes, _⟩ | notable
    · intro q e found
      have before := h q e (publishes q e found)
      refine ⟨before.1, ?_⟩
      rw [log, latest_skip fun x among => accepts_of_calm (calm x among)]
      exact before.2
    · exact held_notable h notable

theorem meaning_acked {pt : PacketType} {p : UInt16} (acked : Acked pt p s t) (before : Meaning s.log) :
    Meaning t.log ↔ ∀ entry ∈ s.pendingPublishes.find? p, entry.callback.callable = true →
      Justified (.received pt p [] :: s.log) (.published entry.callback true entry.topic entry.qos p) := by
  rw [acked.log, successReport]
  cases found : s.pendingPublishes.find? p with
  | none => exact ⟨by simp, fun _ => ⟨trivial, before⟩⟩
  | some entry =>
    simp only [Option.mem_some_iff, forall_eq']
    split
    · rename_i callable
      exact ⟨fun h _ => h.1, fun h => ⟨h callable, trivial, before⟩⟩
    · rename_i empty
      exact ⟨fun _ callable => absurd callable empty, fun _ => ⟨trivial, before⟩⟩

theorem justified_puback {p : UInt16} {entry : PendingPublish} (h : Held s)
    (found : s.pendingPublishes.find? p = some entry) :
    Justified (.received .puback p [] :: s.log) (.published entry.callback true entry.topic entry.qos p) ↔
      entry.qos = 1 := by
  obtain ⟨one | two, last⟩ := h p entry found
  · simpa [Justified, one, latest] using one ▸ last
  · simp [Justified, two]

theorem justified_pubcomp {p : UInt16} {entry : PendingPublish} (h : Held s)
    (found : s.pendingPublishes.find? p = some entry) :
    Justified (.received .pubcomp p [] :: s.log) (.published entry.callback true entry.topic entry.qos p) ↔
      entry.qos = 2 ∧ recorded p s.log = true := by
  obtain ⟨one | two, last⟩ := h p entry found
  · simp [Justified, one]
  · rw [two] at last
    simp [Justified, two, latest, recorded, last]

/-- A step keeps the history justified exactly when the acknowledgement it handles fits. -/
theorem meaning_step {a : Action} (h : Held s) (before : Meaning s.log) (taken : s.step a = some t) :
    Meaning t.log ↔ s.Admitted a := by
  have exchanges := step_exchanges taken
  unfold Admitted
  cases d : s.deed a with
  | connect =>
    rw [d] at exchanges
    exact iff_of_true (exchanges.log ▸ ⟨trivial, before⟩) trivial
  | puback p =>
    rw [d] at exchanges
    rw [meaning_acked exchanges before]
    exact forall_congr' fun entry => forall₂_congr fun found _ => justified_puback h found
  | pubrec p =>
    rw [d] at exchanges
    refine iff_of_true ?_ trivial
    rw [exchanges.log]
    split
    · exact ⟨trivial, trivial, before⟩
    · exact ⟨trivial, before⟩
  | pubcomp p =>
    rw [d] at exchanges
    rw [meaning_acked exchanges before]
    exact forall_congr' fun entry => forall₂_congr fun found _ => justified_pubcomp h found
  | other =>
    rw [d] at exchanges
    refine iff_of_true ?_ trivial
    rcases exchanges with ⟨⟨news, log, calm⟩, _⟩ | notable
    · exact log ▸ meaning_calm calm before
    · cases notable with
      | atMostOnce cb pkt sent log => exact log ▸ ⟨trivial, trivial, before⟩
      | accept p entry pkt fresh acknowledged sent log => exact log ▸ ⟨trivial, trivial, before⟩
      | resend p entry pkt held sent log => exact log ▸ ⟨trivial, before⟩
      | release p held log => exact log ▸ ⟨trivial, before⟩

/-- In every run, each success means what it should in every state exactly when every
acknowledgement that was handled for a pending publish was the one the publish asks for. -/
theorem success_means_acknowledged (actions : List Action) :
    Runs.Throughout step (fun s => Meaning s.log) {} actions ↔ Runs.Along step Admitted {} actions :=
  Runs.throughout_iff_along (I := Held) (fun _ _ _ => held_step) (fun _ _ _ => meaning_step) nofun trivial

example : Runs.Along step Admitted {} (opened ++ publishing 1 ++ receive 0x40 2 0 2) := by decide +kernel

/-- A PUBACK makes a QoS 2 publish a success. -/
theorem success_without_pubcomp :
    ¬ ∀ actions s, Runs.exec step {} actions = some s → Meaning s.log := by
  intro claimed
  have run : (Runs.exec step ({} : Sys) (opened ++ publishing 2 ++ receive 0x40 2 0 2)).map
      (fun s => s.log.take 2 == [.published ⟨0, true⟩ true [0x74] 2 2, .received .puback 2 []]) =
        some true := by
    decide +kernel
  obtain ⟨s, done, told⟩ := Runs.exec_of_check run
  have meaning := claimed _ s done
  rw [← List.take_append_drop 2 s.log, beq_iff_eq.mp told] at meaning
  simpa using (meaning.1.2 rfl).1

end Sys
end LiteMqtt
