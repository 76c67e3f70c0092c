import LiteMqtt.Client.Delivery
import LiteMqtt.Client.Looping
import LiteMqtt.Connection.Guarantees

/-!
# The order of the acknowledgements

A PUBLISH is acknowledged when its callback has returned, and a PUBREL at once. The io thread starts
the next read only after a packet is handled, so the acknowledgements are handed to the connection in
the order of the frames, unless a callback has a frame handled itself.
-/

namespace LiteMqtt

/-! ### What a frame calls for -/

namespace Frame

def packetType (fr : Frame) : PacketType := PacketType.ofUint8 (fr.first >>> 4)

/-- A PUBLISH has the topic that it declares and its packet id, and a PUBREL its packet id. -/
def WellFormed (fr : Frame) : Prop :=
  match fr.packetType with
  | .publish => WellFormedPublish fr.qosBits fr.body
  | .pubrel => 2 ≤ fr.body.length
  | _ => True

instance (fr : Frame) : Decidable fr.WellFormed := by
  unfold WellFormed
  split <;> infer_instance

/-- The acknowledgement that the frame calls for, with the packet id in its body. -/
def acknowledgement? (fr : Frame) : Option Packet :=
  match fr.packetType with
  | .publish =>
      if fr.qosBits = 1 then some (.puback (idSlice fr.body))
      else if fr.qosBits = 2 then some (.pubrec (idSlice fr.body))
      else none
  | .pubrel => some (.pubcomp (word fr.body))
  | _ => none

end Frame

/-- What the client answers to a packet of this type. -/
def answerTo : PacketType → Bytes → Option Packet
  | .publish, data =>
    (Work.acknowledge (PublishPacket.parse data).qos (PublishPacket.parse data).packetId).acknowledgement?
  | .pubrel, data => some (.pubcomp (PubrelPacket.parse data).packetId)
  | _, _ => none

theorem parseId_body (fr : Frame) (enough : 2 ≤ fr.body.length) : parseId fr.bytes = word fr.body := by
  rw [parseId, afterFixedHeader_bytes]
  simp only [readUint16_word _ _ enough, Option.getD_some]

/-- A well-formed frame is answered with what it calls for. -/
theorem answerTo_bytes (fr : Frame) (wellFormed : fr.WellFormed) :
    answerTo fr.packetType fr.bytes = fr.acknowledgement? := by
  unfold Frame.WellFormed at wellFormed
  unfold Frame.acknowledgement?
  cases type : fr.packetType <;> rw [type] at wellFormed <;> try rfl
  case publish =>
    obtain ⟨qos, -, -, id⟩ := PublishPacket.parse_wellFormed fr wellFormed
    change _ = fr.qosBits at qos
    simp only [answerTo, Work.acknowledgement?, qos]
    by_cases zero : fr.qosBits = 0
    · rw [zero]
      rfl
    · rw [id zero]
  case pubrel => exact congrArg (fun id => some (Packet.pubcomp id)) (parseId_body fr wellFormed)

/-! ### What becomes of the answer to a frame -/

/-- Of what was owed and what is `new`, some is given and the rest is owed, the newest first. -/
inductive Settles {α : Type*} (new given owed given' owed' : List α) : Prop where
  | later (same : given' = given) (more : owed' = new ++ owed)
  | atOnce (more : given' = given ++ new) (same : owed' = owed)
  | settled (nothing : new = []) (due : List α) (more : given' = given ++ due) (before : owed = due ++ owed')

theorem Settles.perm {α : Type*} {new given owed given' owed' : List α}
    (settles : Settles new given owed given' owed') :
    (given' ++ owed').Perm (given ++ owed ++ new) := by
  cases settles with
  | later same more =>
    rw [same, more, List.append_assoc]
    exact List.perm_append_comm.append_left given
  | atOnce more same =>
    rw [more, same, List.append_assoc, List.append_assoc]
    exact List.perm_append_comm.append_left given
  | settled nothing due more before =>
    rw [more, before, nothing, List.append_nil, List.append_assoc]

/-- Nothing is owed when something new comes in. -/
theorem Settles.eq {α : Type*} {new given owed given' owed' : List α} (settles : Settles new given owed given' owed')
    (none : new ≠ [] → owed = []) : given' ++ owed' = given ++ owed ++ new := by
  by_cases nothing : new = []
  · subst nothing
    cases settles with
    | later same more => rw [same, more, List.nil_append, List.append_nil]
    | atOnce more same => rw [more, same, List.append_nil, List.append_nil]
    | settled _ due more before => rw [more, before, List.append_nil, List.append_assoc]
  · have empty := none nothing
    subst empty
    cases settles with
    | later same more => rw [same, more, List.append_nil, List.append_nil]
    | atOnce more same => rw [more, same, List.append_nil, List.append_nil]
    | settled nothing' => exact absurd nothing' nothing

def Handled.answer? : Handled → Option Packet
  | .publish pkt _ => (Work.acknowledge pkt.qos pkt.packetId).acknowledgement?
  | .pubrel p => some (.pubcomp p)

namespace Sys

variable {s t u : Sys} {topics : List Topic}

/-- The acknowledgements of the frames whose handling is not over. -/
def owed (s : Sys) : List Packet := s.net.running.filterMap Work.acknowledgement?

theorem owed_dealings (s : Sys) : s.dealings.due.filterMap Work.acknowledgement? = s.owed := by
  refine Lists.filterMap_filter_of _ (fun k found => ?_) _
  cases k <;> first | rfl | contradiction

theorem handled_due (item : Handled) : item.acknowledgements = [] ∧
      item.due.filterMap Work.acknowledgement? = item.answer?.toList ∨
    item.acknowledgements = item.answer?.toList ∧ item.due.filterMap Work.acknowledgement? = [] := by
  cases item with
  | pubrel p => exact .inr ⟨rfl, rfl⟩
  | publish pkt listening =>
    refine .inl ⟨rfl, ?_⟩
    simp only [Handled.due, Handled.answer?]
    split
    · rename_i high
      have one : pkt.qos ≠ 1 := fun same => absurd (same ▸ high) (by decide)
      have two : pkt.qos ≠ 2 := fun same => absurd (same ▸ high) (by decide)
      simp [Work.acknowledgement?, one, two]
    · cases answer : (Work.acknowledge pkt.qos pkt.packetId).acknowledgement? <;> simp [answer]

theorem step_settles {a : Action} (posting : s.Posting) (taken : s.step a = some t) :
    Settles ((s.handled a).bind Handled.answer?).toList s.acknowledgements s.owed t.acknowledgements t.owed := by
  rw [← owed_dealings s, ← owed_dealings t]
  change Settles _ s.dealings.acknowledgements _ t.dealings.acknowledgements _
  rcases step_dealings posting taken with same | ⟨unhandled, qos, p, answers⟩
  · cases found : s.handled a with
    | none =>
      rw [found] at same
      rw [same]
      exact .later rfl rfl
    | some item =>
      rw [found] at same
      rw [same]
      simp only [Dealings.after, List.filterMap_append, Option.bind_some]
      rcases handled_due item with ⟨none, due⟩ | ⟨written, none⟩
      · rw [none, due, List.append_nil]
        exact .later rfl rfl
      · rw [none, written, List.nil_append]
        exact .atOnce rfl rfl
  · rw [unhandled]
    refine .settled rfl _ answers.acknowledgements ?_
    rw [answers.due, List.filterMap_cons]
    cases (Work.acknowledge qos p).acknowledgement? <;> rfl

/-! ### A frame is handled when nothing is owed -/

end Sys

/-- A packet is about to be handled, or the handler of a read to be called. -/
def StackEntry.opens : StackEntry Handler Work → Bool
  | .own (.handlePacket ..) | .invoke (.read ..) => true
  | _ => false

namespace Sys

variable {s t u : Sys} {topics : List Topic}

/-- Nothing is owed below. -/
def Paid (stack : List (StackEntry Handler Work)) : Prop :=
  ∀ entry ∈ stack, entry.own?.bind Work.acknowledgement? = none

def Outer (stack : List (StackEntry Handler Work)) : Prop :=
  stack.Pairwise fun above below => above.opens = true → below.own?.bind Work.acknowledgement? = none

theorem outer_paid {stack : List (StackEntry Handler Work)} (paid : Paid stack) : Outer stack := by
  refine List.pairwise_iff_forall_sublist.mpr fun {above below} sub _ => paid below ?_
  exact sub.subset (.tail _ (.head _))

theorem outer_append {new below : List (StackEntry Handler Work)} (plain : ∀ entry ∈ new, entry.opens = false)
    (outer : Outer below) : Outer (new ++ below) := by
  have mute : ∀ above ∈ new, above.opens ≠ true :=
    fun above among opens => absurd ((plain above among).symm.trans opens) nofun
  refine List.pairwise_append.mpr ⟨?_, outer, fun above among _ _ opens => absurd opens (mute above among)⟩
  refine List.pairwise_iff_forall_sublist.mpr fun {above below} sub opens => absurd opens (mute above ?_)
  exact sub.subset (.head _)

/-- The entries that have come onto the stack open nothing. -/
def Piles (s t : Sys) : Prop := ∃ new, t.net.stack = new ++ s.net.stack ∧ ∀ entry ∈ new, entry.opens = false

theorem piles_same (stack : t.net.stack = s.net.stack) : Piles s t :=
  ⟨[], stack, fun _ among => absurd among List.not_mem_nil⟩

theorem Piles.trans (first : Piles s t) (second : Piles t u) : Piles s u := by
  obtain ⟨new, same, plain⟩ := first
  obtain ⟨more, again, also⟩ := second
  refine ⟨more ++ new, by rw [again, same, List.append_assoc], fun entry among => ?_⟩
  exact (List.mem_append.mp among).elim (also entry) (plain entry)

theorem invocation_plain (item : WriteItem Handler) (ec : ErrorCode) :
    ∀ entry ∈ item.invocation (K := Work) ec, entry.opens = false := by
  unfold WriteItem.invocation
  split
  · nofun
  · intro entry among
    obtain rfl := List.mem_singleton.mp among
    rfl

theorem invocations_plain (items : List (WriteItem Handler)) (ec : ErrorCode) :
    ∀ entry ∈ items.flatMap fun item => item.invocation (K := Work) ec, entry.opens = false := by
  intro entry among
  obtain ⟨item, -, calls⟩ := List.mem_flatMap.mp among
  exact invocation_plain item ec entry calls

theorem piles_closeConnection (s : Sys) : Piles s s.closeConnection := by
  unfold closeConnection
  split
  · exact piles_same rfl
  · rename_i isOpen
    unfold Net.close
    rw [if_neg isOpen]
    refine ⟨_, (List.append_assoc _ _ _).symm, fun entry among => ?_⟩
    rcases List.mem_append.mp among with queued | flying
    · exact invocations_plain _ _ entry queued
    · rcases List.mem_append.mp flying with flying | last
      · exact invocations_plain _ _ entry flying
      · obtain rfl := List.mem_singleton.mp last
        rfl

theorem piles_afterWrite (n : Net Handler Work) (ec : ErrorCode) :
    ∃ new, (n.afterWrite ec).stack = new ++ n.stack ∧ ∀ entry ∈ new, entry.opens = false := by
  cases ec with
  | some ec => exact ⟨_, rfl, invocations_plain _ _⟩
  | none =>
    refine ⟨[], ?_, nofun⟩
    unfold Net.afterWrite Net.doWrite
    dsimp only
    split
    · split
      · rfl
      split
      · rfl
      split <;> rfl
    · rfl

theorem piles_apply {e : Effect} (inside : e.within topics = true) (absent : Topic.packet ∉ topics) :
    Piles s (s.apply e) := by
  cases e with
  | push k =>
    refine ⟨[.own k], rfl, fun entry among => ?_⟩
    obtain rfl := List.mem_singleton.mp among
    cases k with
    | handlePacket => exact absurd rfl (Effect.topic_of_within inside absent)
    | _ => rfl
  | closeConnection => exact piles_closeConnection s
  | startReadLoop attempt => exact piles_same (asyncReadPacket_stack s.net _)
  | asyncConnect callback => exact piles_same (asyncConnect_stack s callback)
  | _ => exact piles_same rfl

theorem outer_does (does : Does topics s t) (absent : Topic.packet ∉ topics) (outer : Outer s.net.stack) :
    Outer t.net.stack := by
  have piles : Piles s t := by
    induction does with
    | refl => exact piles_same rfl
    | tail _ last ih =>
      obtain ⟨e, inside, rfl⟩ := last
      exact ih.trans (piles_apply inside absent)
  obtain ⟨new, same, plain⟩ := piles
  rw [same]
  exact outer_append plain outer

theorem outer_step {a : Action} (posting : s.Posting) (outer : Outer s.net.stack) (taken : s.step a = some t) :
    Outer t.net.stack := by
  have popped : ∀ {entry rest}, s.net.stack = entry :: rest → Outer rest := fun front =>
    (List.pairwise_cons.mp (front ▸ outer)).2
  cases (steps taken).2 with
  | run n ran =>
    refine outer_paid fun entry among => ?_
    cases own : entry.own? with
    | none => rfl
    | some k =>
      obtain rfl : entry = .own k := by
        cases entry with
        | own j => exact congrArg _ (Option.some.inj own)
        | _ => contradiction
      have posted := run_posted posting ran among
      cases k <;> first | rfl | contradiction
  | work k rest front busy =>
    have closed : Topic.packet ∉ workTopics k := fun among => absurd (workTopics_few k among) (by decide)
    exact outer_does (s := s.goesOn rest) (does_execute _ k) closed (popped front)
  | invoke call rest front =>
    have below : Outer ({ s with net := (s.goesOn rest).net.recordCall call } : Sys).net.stack := by
      have popped := popped front
      cases call <;> exact popped
    cases call with
    | read h ec packet =>
      have whole : Outer (.invoke (.read h ec packet) :: rest) := front ▸ outer
      have paid : Paid rest := fun entry among => (List.pairwise_cons.mp whole).1 entry among rfl
      show Outer (onInvoke (s.goesOn rest) (.read h ec packet)).net.stack
      unfold onInvoke
      split
      · contradiction
      · rename_i attempt ec data _
        unfold onRead
        split
        · show Outer ([.own .notifyClosedOnce] ++ rest)
          exact outer_append (by simp [StackEntry.opens]) below
        · refine outer_paid fun entry among => ?_
          rcases List.mem_cons.mp among with rfl | later
          · rfl
          · rcases List.mem_cons.mp later with rfl | before
            · rfl
            · exact paid entry before
      · contradiction
      · exact below
    | write serial h ec =>
      exact outer_does (does_onInvoke _ (.write serial h ec)) (by cases h <;> simp [invocationTopics]) below
    | connect h ec => exact outer_does (does_onInvoke _ (.connect h ec)) (by simp [invocationTopics]) below
    | closed h => exact outer_does (does_onInvoke _ (.closed h)) (by simp [invocationTopics]) below
  | afterWrite ec rest front =>
    obtain ⟨new, same, plain⟩ := piles_afterWrite (s.goesOn rest).net ec
    show Outer ((s.goesOn rest).net.afterWrite ec).stack
    rw [same]
    exact outer_append plain (popped front)
  | closeHandler rest front =>
    refine outer_append (fun entry among => ?_) (popped front)
    obtain ⟨h, -, rfl⟩ := List.mem_map.mp among
    rfl
  | ret rest front => exact popped front
  | call c allowed =>
    exact outer_does (does_call s c) (fun among => absurd (callTopics_few c among) (by decide)) outer
  | kernel event n moved =>
    show Outer n.stack
    rw [Net.kernel_stack moved]
    exact outer
  | expire index w waiting due => exact outer
  | advance ms => exact outer

theorem owed_paid {stack : List (StackEntry Handler Work)} (paid : Paid stack) :
    (stack.filterMap StackEntry.own?).filterMap Work.acknowledgement? = [] := by
  rw [List.filterMap_filterMap]
  exact List.filterMap_eq_nil_iff.mpr paid

/-! ### Which frame a step begins to handle -/

/-- `handle_packet` looks at the type byte. -/
def typed : Bytes → Option (PacketType × Bytes)
  | [] => none
  | byte :: rest => some (PacketType.ofUint8 (byte >>> 4), byte :: rest)

/-- The packet whose handling the step begins, and what it is handled as. -/
def begins (s : Sys) : Action → Option (PacketType × Bytes)
  | .exec =>
      match s.net.stack with
      | .own (.handlePacket _ data) :: _ => typed data
      | _ => none
  | .call (.handlePacket data) => typed data
  | .call (.handlePublish data) => some (.publish, data)
  | .call (.handleSuback data) => some (.suback, data)
  | .call (.handlePuback data) => some (.puback, data)
  | .call (.handlePubrec data) => some (.pubrec, data)
  | .call (.handlePubrel data) => some (.pubrel, data)
  | .call (.handlePubcomp data) => some (.pubcomp, data)
  | _ => none

theorem packetHandled_answer (s : Sys) (data : Bytes) :
    (s.packetHandled data).bind Handled.answer? = (typed data).bind fun h => answerTo h.1 h.2 := by
  cases data with
  | nil => rfl
  | cons byte rest =>
    simp only [packetHandled, typed, Option.bind_some]
    cases PacketType.ofUint8 (byte >>> 4) <;> rfl

theorem handled_answer (s : Sys) (a : Action) :
    (s.handled a).bind Handled.answer? = (s.begins a).bind fun h => answerTo h.1 h.2 := by
  cases a with
  | exec =>
    simp only [handled, begins]
    generalize s.net.stack = stack
    cases stack with
    | nil => rfl
    | cons entry rest =>
      cases entry with
      | own k =>
        cases k with
        | handlePacket attempt data => exact packetHandled_answer s data
        | _ => rfl
      | _ => rfl
  | call c =>
    cases c with
    | handlePacket data => exact packetHandled_answer s data
    | _ => rfl
  | _ => rfl

/-- A callback that runs for a frame to be acknowledged has another frame handled. -/
def nests (s : Sys) : Action → Bool
  | .call c => (s.begins (.call c)).isSome && !s.owed.isEmpty
  | _ => false

/-- The io thread handles a frame only when no other waits for its acknowledgement. -/
theorem owed_begins {a : Action} {h : PacketType × Bytes} (outer : Outer s.net.stack) (plain : s.nests a = false)
    (handles : s.begins a = some h) : s.owed = [] := by
  cases a with
  | exec =>
    simp only [begins] at handles
    split at handles
    · rename_i attempt data rest front
      have whole : Outer (.own (.handlePacket attempt data) :: rest) := front ▸ outer
      have paid : Paid rest := fun entry among => (List.pairwise_cons.mp whole).1 entry among rfl
      rw [owed, Net.running, front]
      exact owed_paid fun entry among => (List.mem_cons.mp among).elim (fun same => same ▸ rfl) (paid entry)
    · contradiction
  | call c => simpa [nests, handles] using plain
  | _ => contradiction

end Sys

/-! ### The frames that the connection gets -/

theorem framedWhole_id (typeByte : UInt8) (p : UInt16) (valid : isValidPacketType (typeByte >>> 4) = true) :
    FramedWhole (serializeId typeByte p) := by
  have same : serializeId typeByte p = frame typeByte (BufferWriter.writeUint16 [] p) := by
    have two : (BufferWriter.writeUint16 [] p).length = 2 := rfl
    rw [frame, BufferWriter.writeBytes, BufferWriter.writeRemainingLength, two]
    rfl
  rw [same]
  exact (framedWhole_frame typeByte (BufferWriter.writeUint16 [] p) valid).mpr (show 2 ≤ maxRemainingLength by decide)

theorem framedWhole_acknowledgement {packet : Packet} (is : packet.isAcknowledgement = true) :
    FramedWhole packet.serialize := by
  cases packet with
  | puback p => exact framedWhole_id _ p rfl
  | pubrec p => exact framedWhole_id _ p rfl
  | pubcomp p => exact framedWhole_id _ p rfl
  | _ => contradiction

namespace Sys

variable {s t : Sys} {topics : List Topic}

/-- The connection gets whole packets of the client. -/
def Serialized (s : Sys) : Prop := ∀ item ∈ s.net.submitted, ∃ packet : Packet, item.buffer = packet.serialize

theorem serialized_same (submitted : t.net.submitted = s.net.submitted) (serialized : s.Serialized) : t.Serialized :=
  fun item among => serialized item (submitted ▸ among)

theorem serialized_apply (e : Effect) (serialized : s.Serialized) : (s.apply e).Serialized := by
  cases e with
  | write packet handler =>
    intro item among
    rcases List.mem_append.mp among with before | new
    · exact serialized item before
    · obtain rfl := List.mem_singleton.mp new
      exact ⟨packet, rfl⟩
  | closeConnection =>
    refine serialized_same ?_ serialized
    show s.closeConnection.net.submitted = _
    unfold closeConnection
    split
    · rfl
    · exact Net.close_submitted s.net
  | startReadLoop attempt => exact serialized_same (Net.asyncReadPacket_submitted s.net _) serialized
  | asyncConnect callback =>
    obtain ⟨u, which, net⟩ := asyncConnect_net s callback
    refine serialized_same ((congrArg Net.submitted net).trans ?_) serialized
    rcases which with rfl | rfl <;> rfl
  | _ => exact serialized_same rfl serialized

theorem serialized_does (does : Does topics s t) (serialized : s.Serialized) : t.Serialized :=
  does.keeps (I := Serialized) (fun _ e _ => serialized_apply e) serialized

theorem serialized_step {a : Action} (serialized : s.Serialized) (taken : s.step a = some t) : t.Serialized := by
  cases (steps taken).2 with
  | run n ran =>
    obtain ⟨-, task, tail, -, rfl⟩ := Net.run_cases ran
    exact serialized_same (Net.runTask_submitted (s.net.leaving tail) task) serialized
  | work k rest front busy => exact serialized_does (s := s.goesOn rest) (does_execute _ k) serialized
  | invoke call rest front =>
    refine serialized_does (does_onInvoke _ call) (serialized_same ?_ serialized)
    cases call <;> rfl
  | afterWrite ec rest front => exact serialized_same (Net.afterWrite_submitted (s.goesOn rest).net ec) serialized
  | closeHandler rest front => exact serialized
  | ret rest front => exact serialized
  | call c allowed => exact serialized_does (does_call s c) serialized
  | kernel event n moved => exact serialized_same (Net.kernel_submitted moved) serialized
  | expire index w waiting due => exact serialized
  | advance ms => exact serialized

/-! ### The write queue of the client's connection -/

theorem writes_move {n m : Net Handler Work} {a : Net.Action Handler Work} (sound : n.writes.Sound)
    (orderly : n.Orderly a)
    (taken : n.step a = some m) : m.writes.Sound := by
  rcases Net.step_tracks taken orderly with same | moved
  · exact same ▸ sound
  · exact sound.step moved

theorem writes_exec {n m : Net Handler Work} {actions : List (Net.Action Handler Work)} (sound : n.writes.Sound)
    (calls : Net.Action.run ∉ actions) (done : Runs.exec Net.step n actions = some m) : m.writes.Sound := by
  induction actions generalizing n with
  | nil =>
    obtain rfl := Option.some.inj done
    exact sound
  | cons a rest ih =>
    obtain ⟨k, first, later⟩ := Runs.exec_cons done
    refine ih (writes_move sound ?_ first) (fun among => calls (.tail _ among)) later
    cases a with
    | run => exact absurd (.head _) calls
    | _ => trivial

theorem asks_calls (s : Sys) (e : Effect) : Net.Action.run ∉ s.asks e := by
  have posts : ∀ ks : List Work, Net.Action.run (H := Handler) ∉ ks.map Net.Action.post := by
    intro ks among
    obtain ⟨k, -, same⟩ := List.mem_map.mp among
    contradiction
  cases e with
  | cancelTimer timer => exact posts _
  | asyncConnect callback =>
    intro among
    rcases List.mem_append.mp among with cancelled | connect
    · split at cancelled
      · exact posts _ cancelled
      · contradiction
    · exact absurd (List.mem_singleton.mp connect) nofun
  | push k | post k | write packet handler | closeConnection | startReadLoop attempt | accept =>
    exact fun among => absurd (List.mem_singleton.mp among) nofun
  | _ => exact List.not_mem_nil

theorem writes_does (does : Does topics s t) (sound : s.net.writes.Sound) : t.net.writes.Sound :=
  does.keeps (I := fun u => u.net.writes.Sound)
    (fun u e _ sound => writes_exec sound (asks_calls u e) (exec_asks u e)) sound

theorem writes_step {a : Action} (sound : s.net.writes.Sound) (orderly : a = .run → s.net.Orderly .run)
    (taken : s.step a = some t) : t.net.writes.Sound := by
  cases (steps taken).2 with
  | run n ran => exact writes_move (a := .run) sound (orderly rfl) ran
  | work k rest front busy =>
    have popped : s.net.step .pop = some (s.goesOn rest).net := by simp [Net.step, front, goesOn]
    exact writes_does (does_execute _ k) (writes_move (a := .pop) sound trivial popped)
  | invoke call rest front =>
    have resumed : s.net.step .resume = some ((s.goesOn rest).net.recordCall call) := by
      simp [Net.step, Net.resume, front, goesOn]
    exact writes_does (does_onInvoke _ call) (writes_move (a := .resume) sound trivial resumed)
  | afterWrite ec rest front =>
    exact writes_move (a := .resume) sound trivial (by simp [Net.step, Net.resume, front, goesOn])
  | closeHandler rest front =>
    exact writes_move (a := .resume) sound trivial (by simp [Net.step, Net.resume, front, goesOn])
  | ret rest front => exact writes_move (a := .pop) sound trivial (by simp [Net.step, front, goesOn])
  | call c allowed => exact writes_does (does_call s c) sound
  | kernel event n moved => exact writes_move (a := .kernel event) sound trivial moved
  | expire index w waiting due => exact writes_move (a := .post (.timer w.handler none)) sound trivial rfl
  | advance ms => exact sound

end Sys

/-! ### Whole runs -/

/-- A client, with the frames whose handling has begun and what each was handled as. -/
structure Inbox where
  sys : Sys := {}
  handled : List (PacketType × Bytes) := []

namespace Inbox
open Sys

def step (l : Inbox) (a : Action) : Option Inbox :=
  (l.sys.step a).map fun t => { sys := t, handled := l.handled ++ (l.sys.begins a).toList }

def answers (l : Inbox) : List Packet := l.handled.filterMap fun h => answerTo h.1 h.2

theorem answers_step {l m : Inbox} {a : Action} {t : Sys} (moved : l.sys.step a = some t) (taken : l.step a = some m) :
    m.sys = t ∧ m.answers = l.answers ++ ((l.sys.handled a).bind Handled.answer?).toList := by
  simp only [step, moved, Option.map_some, Option.some.injEq] at taken
  subst taken
  refine ⟨rfl, ?_⟩
  rw [handled_answer]
  simp only [answers, List.filterMap_append]
  cases handles : l.sys.begins a with
  | none => rfl
  | some h => cases found : answerTo h.1 h.2 <;> simp [found]

structure Conserving (l : Inbox) : Prop where
  posting : l.sys.Posting
  outer : Outer l.sys.net.stack
  every : (l.sys.acknowledgements ++ l.sys.owed).Perm l.answers

theorem conserving_step {l m : Inbox} {a : Action} (conserving : l.Conserving) (taken : l.step a = some m) :
    m.Conserving := by
  obtain ⟨posting, outer, every⟩ := conserving
  obtain ⟨t, moved, -⟩ := Option.map_eq_some_iff.mp taken
  obtain ⟨rfl, more⟩ := answers_step moved taken
  refine ⟨posting_step posting moved, outer_step posting outer moved, ?_⟩
  rw [more]
  exact (step_settles posting moved).perm.trans (every.append_right _)

theorem conserving_start : ({} : Inbox).Conserving := ⟨⟨nofun, nofun⟩, .nil, .nil⟩

/-- No frame is handled by a callback that runs for another. -/
def Sequential (l : Inbox) (a : Action) : Prop := l.sys.nests a = false

instance (l : Inbox) (a : Action) : Decidable (l.Sequential a) := inferInstanceAs (Decidable (_ = _))

theorem answered_in_order {actions : List Action} {l : Inbox} (done : Runs.exec step {} actions = some l)
    (sequential : Runs.Along step Sequential {} actions) : l.sys.acknowledgements ++ l.sys.owed = l.answers := by
  have kept := Runs.Reaches.invariant (I := fun l : Inbox => l.Conserving ∧
    l.sys.acknowledgements ++ l.sys.owed = l.answers) ⟨conserving_start, rfl⟩ ?_ (Runs.exec_reaches done sequential)
  · exact kept.2
  · rintro l a m ⟨conserving, order⟩ plain taken
    obtain ⟨t, moved, -⟩ := Option.map_eq_some_iff.mp taken
    obtain ⟨rfl, more⟩ := answers_step moved taken
    refine ⟨conserving_step conserving taken, ?_⟩
    rw [more, ← order]
    refine (step_settles conserving.posting moved).eq fun new => ?_
    rw [handled_answer] at new
    cases handles : l.sys.begins a with
    | none => exact absurd (by rw [handles]; rfl) new
    | some h => exact owed_begins conserving.outer plain handles

/-- Deferred failures and completions of writes run as `Net.Orderly` says. -/
def WritesOrderly (l : Inbox) (a : Action) : Prop := a = .run → l.sys.net.Orderly .run

/-- What the peer gets of `frames`, which were handled in this order. -/
structure Acknowledges (l : Inbox) (actions : List Action) (frames : List Frame) : Prop where
  /-- Every frame is acknowledged once as it calls for, and nothing else is. -/
  every : (l.sys.acknowledgements ++ l.sys.owed).Perm (frames.filterMap Frame.acknowledgement?)
  /-- In the order of the frames, except that of the frame which is being handled. -/
  ordered : Runs.Along step Sequential {} actions →
    l.sys.acknowledgements ++ l.sys.owed = frames.filterMap Frame.acknowledgement?
  settled : l.sys.net.stack = [] → l.sys.owed = []
  /-- The framing delivers each as one packet. -/
  framed : ∀ item ∈ l.sys.net.submitted, (acknowledgementIn item.buffer).isSome = true → FramedWhole item.buffer
  /-- Each socket carries whole frames in the order in which the connection got them. -/
  wire : Runs.Along step WritesOrderly {} actions → ∀ socket ∈ l.sys.net.past ++ [l.sys.net.socket],
    ∃ items : List (WriteItem Handler), items.Sublist l.sys.net.submitted ∧
      socket.sent <+: (items.map WriteItem.buffer).flatten

theorem answers_frames {l : Inbox} {frames : List Frame}
    (heard : l.handled = frames.map fun fr => (fr.packetType, fr.bytes))
    (wellFormed : ∀ fr ∈ frames, fr.WellFormed) : l.answers = frames.filterMap Frame.acknowledgement? := by
  rw [answers, heard, List.filterMap_map]
  exact List.filterMap_congr fun fr among => answerTo_bytes fr (wellFormed fr among)

theorem written_whole {actions : List Action} {l : Inbox} (done : Runs.exec step {} actions = some l) :
    ∀ item ∈ l.sys.net.submitted, (acknowledgementIn item.buffer).isSome = true → FramedWhole item.buffer := by
  have serialized : l.sys.Serialized := by
    refine Runs.Reaches.invariant (I := fun l : Inbox => l.sys.Serialized)
        (fun _ none => absurd none List.not_mem_nil) ?_
      (Runs.exec_reaches done (Runs.along_any actions))
    rintro l a m before - taken
    obtain ⟨t, moved, rfl⟩ := Option.map_eq_some_iff.mp taken
    exact serialized_step before moved
  intro item among acknowledges
  obtain ⟨packet, same⟩ := serialized item among
  rw [same, acknowledgementIn_serialize] at acknowledges
  rw [same]
  refine framedWhole_acknowledgement ?_
  by_contra other
  rw [if_neg other] at acknowledges
  contradiction

theorem written_sound {actions : List Action} {l : Inbox} (done : Runs.exec step {} actions = some l)
    (orderly : Runs.Along step WritesOrderly {} actions) : l.sys.net.writes.Sound := by
  refine Runs.Reaches.invariant (I := fun l : Inbox => l.sys.net.writes.Sound) WriteQueue.sound_start ?_
    (Runs.exec_reaches done orderly)
  rintro l a m sound orderly taken
  obtain ⟨t, moved, rfl⟩ := Option.map_eq_some_iff.mp taken
  exact writes_step sound orderly moved

/-- In every run, well-formed frames are acknowledged one by one in the order in which they were handled. -/
theorem frames_acknowledged (actions : List Action) (frames : List Frame) (l : Inbox)
    (done : Runs.exec step {} actions = some l)
    (heard : l.handled = frames.map fun fr => (fr.packetType, fr.bytes))
    (wellFormed : ∀ fr ∈ frames, fr.WellFormed) : l.Acknowledges actions frames where
  every := by
    rw [← answers_frames heard wellFormed]
    exact (Runs.Reaches.invariant (I := Conserving) conserving_start (fun _ _ _ before _ => conserving_step before)
      (Runs.exec_reaches done (Runs.along_any actions))).every
  ordered sequential := by
    rw [← answers_frames heard wellFormed]
    exact answered_in_order done sequential
  settled idle := by
    rw [owed, Net.running, idle]
    rfl
  framed := written_whole done
  wire orderly socket among := Net.wire_frames (written_sound done orderly) among

/-- A frame whose length fits in one byte. -/
def shortFrame (first : UInt8) (body : Bytes) (typed : isValidPacketType (first >>> 4) = true)
    (field : isLengthField [UInt8.ofNat body.length] = true)
    (exact : lengthValue [UInt8.ofNat body.length] = body.length) : Frame where
  first
  lengthField := [UInt8.ofNat body.length]
  body
  typed
  field
  short := by simp
  exact

/-- The CONNACK, a QoS 2 PUBLISH, its PUBREL and a QoS 1 PUBLISH. -/
def broker : List Frame :=
  [shortFrame 0x20 [0, 0] rfl rfl rfl, shortFrame 0x34 [0, 1, 0x74, 0, 7] rfl rfl rfl,
    shortFrame 0x62 [0, 7] rfl rfl rfl, shortFrame 0x32 [0, 1, 0x74, 0, 9] rfl rfl rfl]

/-- They are handled one after another, and a callback publishes. -/
def exchanging : List Action :=
  opened ++ [.call (.onMessage true), .kernel (.read 0 (.ok [0x34, 5])), .run,
    .kernel (.read 0 (.ok [0, 1, 0x74, 0, 7])), .run, .run, .exec, .exec, .call (.asyncPublish [0x74] [] 1 true), .ret,
    .exec, .exec, .run, .exec, .run, .run, .kernel (.read 0 (.ok [0x62, 2])), .run,
    .kernel (.read 1 (.ok [0, 7])), .run,
    .run, .exec, .exec, .exec, .run, .kernel (.read 1 (.ok [0x32, 5])), .run,
    .kernel (.read 1 (.ok [0, 1, 0x74, 0, 9])),
    .run, .run, .exec, .exec, .ret, .exec]

theorem exchange_acknowledged : ∃ l, Runs.exec step {} exchanging = some l ∧
    l.sys.acknowledgements = [.pubrec 7, .pubcomp 7, .puback 9] ∧ l.Acknowledges exchanging broker := by
  have run : (Runs.exec step ({} : Inbox) exchanging).map (fun l =>
      l.handled == broker.map (fun fr => (fr.packetType, fr.bytes)) && l.sys.owed == []) = some true := by
    decide +kernel
  obtain ⟨l, done, seen⟩ := Runs.exec_of_check run
  simp only [Bool.and_eq_true, beq_iff_eq] at seen
  obtain ⟨heard, nothing⟩ := seen
  have sequential : Runs.Along step Sequential {} exchanging := by decide +kernel
  have acknowledged := frames_acknowledged exchanging broker l done heard (by decide)
  refine ⟨l, done, ?_, acknowledged⟩
  have order := acknowledged.ordered sequential
  rw [nothing, List.append_nil] at order
  exact order.trans (by decide)

end Inbox
end LiteMqtt
