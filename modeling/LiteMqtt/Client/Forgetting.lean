import LiteMqtt.Client.Exchange

/-!
# A disconnect forgets what was in flight

The pending maps survive the ways a session can end that do not run `notify_closed_once`, and
the retry timers look packet ids up in them. What was in flight is forgotten exactly if the
maps are empty whenever `async_connect` is called.
-/

namespace LiteMqtt

/-- A publish was accepted under this packet id since the last `async_connect`. -/
def acceptedSince (packetId : UInt16) : List Event → Bool
  | [] => false
  | .connectCalled :: _ => false
  | .accepted p _ _ :: earlier => p == packetId || acceptedSince packetId earlier
  | _ :: earlier => acceptedSince packetId earlier

/-- A PUBLISH or PUBREL is handed over for a publish of the present session. -/
def Belongs (earlier : List Event) : Event → Prop
  | .handed (.publish pkt) => acceptedSince pkt.packetId earlier = true
  | .handed (.pubrel p) => acceptedSince p earlier = true
  | _ => True

def Belonging : List Event → Prop
  | [] => True
  | e :: earlier => Belongs earlier e ∧ Belonging earlier

theorem acceptedSince_calm {news log : List Event} (calm : ∀ e ∈ news, e.isCalm = true) (p : UInt16) :
    acceptedSince p (news ++ log) = acceptedSince p log := by
  induction news with
  | nil => rfl
  | cons e news ih =>
    have rest := ih fun x among => calm x (List.mem_cons_of_mem _ among)
    have first := calm e List.mem_cons_self
    cases e with
    | connectCalled => simp [Event.isCalm] at first
    | accepted => simp [Event.isCalm] at first
    | _ => exact rest

theorem belonging_calm {news log : List Event} (calm : ∀ e ∈ news, e.isCalm = true)
    (h : Belonging log) : Belonging (news ++ log) := by
  induction news with
  | nil => exact h
  | cons e news ih =>
    refine ⟨?_, ih fun x among => calm x (List.mem_cons_of_mem _ among)⟩
    have first := calm e List.mem_cons_self
    unfold Belongs
    split
    · simp [Event.isCalm] at first
    · simp [Event.isCalm] at first
    · trivial

namespace Sys

variable {s t : Sys}

def inProgress (s : Sys) (p : UInt16) : Bool := s.pendingPublishes.contains p || s.pendingPubrecs.contains p

/-- No PUBLISH or PUBREL was handed over for a publish of an earlier session, and none is
pending that could be. -/
structure Forgets (s : Sys) : Prop where
  frames : Belonging s.log
  pending : ∀ p, s.inProgress p = true → acceptedSince p s.log = true

/-- `async_connect` is called with nothing in flight. -/
def Clean (s : Sys) : Action → Prop
  | .call (.asyncConnect _) => s.pendingPublishes.entries = [] ∧ s.pendingPubrecs.entries = []
  | _ => True

instance (s : Sys) : ∀ a, Decidable (s.Clean a)
  | .call c =>
      match c with
      | .asyncConnect _ =>
          inferInstanceAs (Decidable (s.pendingPublishes.entries = [] ∧ s.pendingPubrecs.entries = []))
      | .setClientId _ | .setKeepAlive _ | .setCleanSession _ | .setUsername _ | .setPassword _
      | .setConnectTimeout _ | .asyncDisconnect _ | .close | .asyncPublish .. | .asyncSubscribe ..
      | .onConnect _ | .onMessage _ | .onClose _ | .handlePacket _ | .handlePuback _ | .handlePubrec _
      | .handlePubcomp _ | .handlePubrel _ | .handleSuback _ | .handlePublish _ => .isTrue trivial
  | .run | .exec | .ret | .kernel _ | .expire _ | .advance _ => .isTrue trivial

theorem clean_other {a : Action} {d : Deed} (same : s.deed a = d) (other : d ≠ .connect) : s.Clean a := by
  unfold Clean
  split
  · exact absurd same.symm other
  · trivial

theorem inProgress_of_calm (h : Calm s t) {p : UInt16} (kept : t.inProgress p = true) :
    s.inProgress p = true := by
  unfold inProgress at kept ⊢
  rw [Bool.or_eq_true] at kept ⊢
  exact kept.imp (contains_of_kept h.publishes p) (contains_of_kept h.pubrecs p)

theorem inProgress_of_acked {pt : PacketType} {q : UInt16} (h : Acked pt q s t) {p : UInt16}
    (kept : t.inProgress p = true) : s.inProgress p = true := by
  unfold inProgress at kept ⊢
  rw [Bool.or_eq_true] at kept ⊢
  exact kept.imp (contains_of_kept h.publishes p) (contains_of_kept h.pubrecs p)

theorem forgets_notable (h : Forgets s) (notable : Notable s t) : Forgets t := by
  have ⟨frames, pending⟩ := h
  cases notable with
  | atMostOnce cb pkt sent log publishes pubrecs =>
    refine ⟨?_, fun q kept => ?_⟩
    · rw [log]
      refine ⟨?_, trivial, frames⟩
      simp [Belongs, acceptedSince, sent]
    · rw [inProgress, publishes, pubrecs] at kept
      simp [log, acceptedSince, pending q kept]
  | accept p entry pkt fresh acknowledged sent log publishes pubrecs =>
    refine ⟨?_, fun q kept => ?_⟩
    · rw [log]
      refine ⟨?_, trivial, frames⟩
      simp [Belongs, acceptedSince, sent]
    · rw [inProgress, publishes, pubrecs, Bool.or_eq_true, OrderedMap.contains_insert] at kept
      rw [log]
      by_cases same : q = p
      · simp [acceptedSince, same]
      · have before := pending q (by simpa [inProgress, same] using kept)
        simp [acceptedSince, before]
  | resend p entry pkt held sent log publishes pubrecs =>
    have bound : s.inProgress p = true := by simp [inProgress, OrderedMap.contains, held]
    refine ⟨?_, fun q kept => ?_⟩
    · rw [log]
      exact ⟨by simpa [Belongs, sent] using pending p bound, frames⟩
    · rw [inProgress, publishes, pubrecs, Bool.or_eq_true, OrderedMap.contains_insert] at kept
      rw [log]
      by_cases same : q = p
      · exact same ▸ pending p bound
      · exact pending q (by simpa [inProgress, same] using kept)
  | release p held log publishes pubrecs =>
    refine ⟨log ▸ ⟨pending p (by simp [inProgress, held]), frames⟩, fun q kept => ?_⟩
    rw [inProgress, publishes, Bool.or_eq_true] at kept
    exact log ▸ pending q (by simpa [inProgress] using kept.imp id (pubrecs q))

theorem forgets_acked {pt : PacketType} {p : UInt16} (h : Forgets s) (acked : Acked pt p s t) : Forgets t := by
  have report : ∀ log : List Event, Belonging log → Belonging (s.successReport p ++ log) ∧
      ∀ q, acceptedSince q (s.successReport p ++ log) = acceptedSince q log := by
    intro log belonging
    unfold successReport
    split
    · exact ⟨belonging, fun _ => rfl⟩
    · split
      · exact ⟨⟨trivial, belonging⟩, fun _ => rfl⟩
      · exact ⟨belonging, fun _ => rfl⟩
  obtain ⟨frames, since⟩ := report (.received pt p [] :: s.log) ⟨trivial, h.frames⟩
  refine ⟨acked.log ▸ frames, fun q kept => ?_⟩
  rw [acked.log, since]
  exact h.pending q (inProgress_of_acked acked kept)

theorem forgets_recorded {p : UInt16} (h : Forgets s) (recorded : Recorded p s t) : Forgets t := by
  have ⟨frames, pending⟩ := h
  have bound : s.pendingPublishes.contains p = true → acceptedSince p s.log = true :=
    fun held => pending p (by simp [inProgress, held])
  constructor
  · rw [recorded.log]
    split
    · exact ⟨bound ‹_›, trivial, frames⟩
    · exact ⟨trivial, frames⟩
  · intro q kept
    have since : acceptedSince q t.log = acceptedSince q s.log := by
      rw [recorded.log]
      split <;> rfl
    rw [since]
    rw [inProgress, recorded.publishes, Bool.or_eq_true] at kept
    rcases kept with publish | pubrec
    · exact pending q (by simp [inProgress, publish])
    · rcases recorded.pubrecs q pubrec with before | ⟨rfl, held⟩
      · exact pending q (by simp [inProgress, before])
      · exact bound held

theorem forgets_connects (h : Forgets s) (connects : Connects s t) :
    Forgets t ↔ s.pendingPublishes.entries = [] ∧ s.pendingPubrecs.entries = [] := by
  rw [OrderedMap.entries_eq_nil, OrderedMap.entries_eq_nil, ← forall_and]
  have pending : ∀ p, t.inProgress p = s.inProgress p := fun p => by
    rw [inProgress, connects.publishes, connects.pubrecs, inProgress]
  have since : ∀ p, acceptedSince p t.log = false := fun p => connects.log ▸ rfl
  constructor
  · intro forgets p
    have none : s.inProgress p = false := by
      rw [← pending, ← Bool.not_eq_true]
      exact fun kept => by simpa [since] using forgets.pending p kept
    simpa [inProgress] using none
  · intro none
    refine ⟨connects.log ▸ ⟨trivial, h.frames⟩, fun p kept => ?_⟩
    rw [pending] at kept
    simp [inProgress, none p] at kept

/-- A step keeps to the present session exactly if it does not connect over what is in flight. -/
theorem forgets_step {a : Action} (h : Forgets s) (taken : s.step a = some t) : Forgets t ↔ s.Clean a := by
  have exchanges := step_exchanges taken
  cases d : s.deed a with
  | connect =>
    obtain ⟨callback, rfl⟩ := deed_connect d
    exact forgets_connects h exchanges
  | puback p =>
    rw [d] at exchanges
    exact iff_of_true (forgets_acked h exchanges) (clean_other d nofun)
  | pubrec p =>
    rw [d] at exchanges
    exact iff_of_true (forgets_recorded h exchanges) (clean_other d nofun)
  | pubcomp p =>
    rw [d] at exchanges
    exact iff_of_true (forgets_acked h exchanges) (clean_other d nofun)
  | other =>
    rw [d] at exchanges
    refine iff_of_true ?_ (clean_other d nofun)
    rcases exchanges with calm | notable
    · obtain ⟨news, log, calmNews⟩ := calm.log
      refine ⟨log ▸ belonging_calm calmNews h.frames, fun p kept => ?_⟩
      rw [log, acceptedSince_calm calmNews]
      exact h.pending p (inProgress_of_calm calm kept)
    · exact forgets_notable h notable

/-- In every run, no frame of an earlier session's publish is handed over and none is left
pending, in any state, exactly if each `async_connect` finds nothing in flight. -/
theorem disconnect_forgets (actions : List Action) :
    Runs.Throughout step Forgets {} actions ↔ Runs.Along step Clean {} actions :=
  Runs.throughout_iff_along (I := fun _ => True) (fun _ _ _ _ _ => trivial)
    (fun _ _ _ _ => forgets_step) trivial ⟨trivial, nofun⟩

/-- A second CONNACK refuses the session while a publish waits for its PUBACK. The client
connects again, and the retry timer fires. -/
def refusedThenRetried : List Action :=
  opened ++ publishing 1 ++ receive 0x20 2 0 5 ++
    [.exec, .exec, .ret, .exec, .run, .run, .exec, .exec, .call (.asyncConnect true), .advance 5000,
      .expire 1, .run, .exec]

/-- The last two events are an `async_connect` and the handing over of a PUBLISH after it. -/
def publishedOnConnecting : List Event → Bool
  | .handed (.publish _) :: .connectCalled :: _ => true
  | _ => false

/-- The PUBLISH of the first session is handed over in the second. -/
theorem publish_outlives_session : ¬ ∀ actions s, Runs.exec step {} actions = some s → Belonging s.log := by
  intro claimed
  have run : (Runs.exec step ({} : Sys) refusedThenRetried).map (fun s => publishedOnConnecting s.log) = some true := by
    decide +kernel
  obtain ⟨s, done, handed⟩ := Runs.exec_of_check run
  have belonging := claimed _ s done
  unfold publishedOnConnecting at handed
  split at handed
  · rename_i pkt earlier log
    rw [log] at belonging
    simpa [Belongs, acceptedSince] using belonging.1
  · contradiction

end Sys
end LiteMqtt
