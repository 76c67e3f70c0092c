import LiteMqtt.Client.Driving
import LiteMqtt.Client.Inbound
import LiteMqtt.Connection.Arrivals

/-!
# What the client receives

From the bytes of a socket to `handle_packet`: the connection cuts them into packets, and the read handler
calls `handle_packet` with each before it asks for the next. Nothing is lost, repeated or out of order on the way,
unless a socket is replaced while bytes of it are still to be handled.
-/

namespace LiteMqtt

def Work.packet? : Work → Option Bytes
  | .handlePacket _ data => some data
  | _ => none

namespace Sys

variable {s t u : Sys}

/-- What a step adds to what was read off the present socket. -/
def hears (s : Sys) (i : Intake) : Action → Intake
  | .kernel (.read _ result) => i.arrive result
  | .run =>
      match s.net.ready with
      | .read phase _ (.ok bytes) :: _ => i.handle (s.net.reading.onRead phase (.ok bytes)).2
      | _ => i
  | _ => i

/-- The packet that the read handler's `handle_packet` begins with. -/
def takesUp (s : Sys) : Action → Option Bytes
  | .exec =>
      match s.net.stack with
      | .own (.handlePacket _ data) :: _ => some data
      | _ => none
  | _ => none

/-- The step does not replace a socket while bytes that were read off it are still to be handled. -/
def keepsUp (s : Sys) (a : Action) : Bool :=
  (s.step a).all fun t => t.net.socket.number == s.net.socket.number || s.net.ready.all fun task => !task.isArrival

/-- The packets on their way from the connection to `handle_packet`. -/
def underway (s : Sys) : List Bytes := s.net.underway Work.packet?

/-! ### Client code -/

/-- It may ask for the next packet, and otherwise leaves what is read alone. -/
structure Attends (s t : Sys) : Prop where
  heard : ∀ i : Intake, Net.Heard i s.net → Net.Heard i t.net
  number : t.net.socket.number = s.net.socket.number
  underway : t.underway = s.underway

theorem Attends.trans (first : Attends s t) (later : Attends t u) : Attends s u :=
  ⟨fun i heard => later.heard i (first.heard i heard), later.number.trans first.number,
    later.underway.trans first.underway⟩

theorem attends_of_unread (unread : Net.Unread Work.packet? s.net t.net) (framing : s.net.Framing → t.net.Framing) :
    Attends s t :=
  ⟨fun _ heard => heard.unread unread (framing heard.framing), unread.number, unread.underway⟩

theorem attends_of_net (same : t.net = s.net) : Attends s t :=
  attends_of_unread (same ▸ .refl _) (same ▸ id)

theorem unread_posts (n : Net Handler Work) (ks : List Work) :
    Net.Unread Work.packet? n { n with ready := n.ready ++ ks.map .own } := by
  induction ks generalizing n with
  | nil => exact Net.unread_of_same rfl rfl rfl (List.append_nil _) rfl
  | cons k ks ih =>
    have rest := ih (n.post (.own k))
    rw [Net.post, List.append_assoc] at rest
    have posted : Net.Unread Work.packet? n (n.post (.own k)) := Net.unread_post n rfl rfl
    exact posted.trans rest

theorem unread_cancelTimer (s : Sys) (timer : Nat) : Net.Unread Work.packet? s.net (s.cancelTimer timer).net := by
  have posts := unread_posts s.net (s.aborted timer)
  rw [aborted, List.map_map] at posts
  exact posts

theorem unread_closeConnection (s : Sys) : Net.Unread Work.packet? s.net s.closeConnection.net := by
  unfold closeConnection
  split
  · exact .refl _
  · exact Net.unread_close s.net

theorem framing_apply (e : Effect) (framing : s.net.Framing) : (s.apply e).net.Framing :=
  have reached : Runs.Reaches Net.step Runs.Any s.net (s.apply e).net :=
    Runs.exec_reaches (exec_asks s e) (Runs.along_any _)
  reached.invariant framing fun _ _ _ held _ taken => Net.framing_step held taken

theorem attends_apply {topics : List Topic} {e : Effect} (inside : e.within topics = true)
    (absent : Topic.packet ∉ topics) :
    Attends s (s.apply e) := by
  have unread : Net.Unread Work.packet? s.net (s.apply e).net → Attends s (s.apply e) := fun unread =>
    attends_of_unread unread (framing_apply e)
  cases e with
  | push k =>
    refine unread (Net.unread_push s.net fun entry among => ?_)
    obtain rfl := List.mem_singleton.mp among
    cases k with
    | handlePacket attempt data => exact absurd rfl (Effect.topic_of_within inside absent)
    | _ => rfl
  | post k =>
    have posted : Net.Unread Work.packet? s.net (s.net.post (.own k)) := Net.unread_post s.net rfl rfl
    exact unread posted
  | write packet handler => exact unread (Net.unread_asyncWritePacket s.net _ _)
  | closeConnection => exact unread (unread_closeConnection s)
  | cancelTimer timer => exact unread (unread_cancelTimer s timer)
  | startReadLoop attempt =>
    exact ⟨fun i heard => Net.heard_asyncReadPacket heard _,
        congrArg Socket.number (Net.socket_asyncReadPacket s.net _),
      Net.underway_asyncReadPacket s.net _⟩
  | asyncConnect callback =>
    obtain ⟨v, which, net⟩ := asyncConnect_net s callback
    refine unread ?_
    have before : Net.Unread Work.packet? s.net v.net := by
      rcases which with rfl | rfl
      · exact .refl _
      · exact unread_cancelTimer s connectTimer
    show Net.Unread Work.packet? s.net (s.asyncConnect callback).net
    rw [net]
    exact before.trans (Net.unread_of_same rfl rfl rfl rfl rfl)
  | _ => exact unread (Net.unread_of_same rfl rfl rfl rfl rfl)

theorem attends_does {topics : List Topic} (does : Does topics s t) (absent : Topic.packet ∉ topics) : Attends s t :=
  does.keeps (I := fun u => Attends s u) (fun _ _ inside before => before.trans (attends_apply inside absent))
    (attends_of_net rfl)

/-! ### A step -/

/-- What becomes of the packets on their way: new ones get behind them, and `handle_packet` takes them from the
front. -/
inductive Relays (s t : Sys) (a : Action) (i : Intake) : Prop where
  | stays (heard : Net.Heard (s.hears i a) t.net) (timely : (s.hears i a).Timely) (news : List Bytes)
      (packets : (s.hears i a).packets = i.packets ++ news)
        (order : s.underway ++ news = (s.takesUp a).toList ++ t.underway)
      (number : t.net.socket.number = s.net.socket.number)
  | replaces (heard : Net.Heard {} t.net) (same : s.hears i a = i)
      (order : s.underway = (s.takesUp a).toList ++ t.underway)
      (number : t.net.socket.number ≠ s.net.socket.number)

variable {i : Intake} {entry : StackEntry Handler Work} {rest : List (StackEntry Handler Work)} {a : Action}

theorem heard_popped (front : s.net.stack = entry :: rest) (heard : Net.Heard i s.net) :
    Net.Heard i (s.goesOn rest).net :=
  ⟨⟨heard.framing.one, heard.framing.ops, heard.framing.ready,
    fun other among => heard.framing.stack other (front ▸ List.mem_cons_of_mem entry among)⟩,
    heard.frames, heard.before, heard.asked, heard.came, heard.between⟩

theorem underway_popped (front : s.net.stack = entry :: rest) :
    s.underway = (entry.packet? Work.packet?).toList ++ (s.goesOn rest).underway := by
  have rest : (s.goesOn rest).underway =
      rest.filterMap (StackEntry.packet? Work.packet?) ++ s.net.ready.filterMap Task.packet? := rfl
  rw [underway, Net.underway, front, List.filterMap_cons, rest]
  cases entry.packet? Work.packet? <;> rfl

/-- The code at the front goes on, and leaves what is read alone. -/
theorem relays_attends (front : s.net.stack = entry :: rest) (attends : Attends (s.goesOn rest) t)
    (taken : entry.packet? Work.packet? = s.takesUp .exec) (heard : Net.Heard i s.net) (timely : i.Timely) :
    Relays s t .exec i := by
  refine .stays (attends.heard i (heard_popped front heard)) timely [] (List.append_nil _).symm ?_ attends.number
  rw [List.append_nil, underway_popped front, attends.underway, taken]

theorem relays_aside (attends : Attends s t) (same : s.hears i a = i) (none : s.takesUp a = none)
    (heard : Net.Heard i s.net)
    (timely : i.Timely) : Relays s t a i := by
  refine .stays ?_ ?_ [] ?_ ?_ attends.number
  · rw [same]
    exact attends.heard i heard
  · rw [same]
    exact timely
  · rw [same, List.append_nil]
  · rw [List.append_nil, none, attends.underway]
    rfl

/-- The io thread takes a task. -/
theorem relays_run {n : Net Handler Work} (posting : s.Posting) (keepsUp : s.keepsUp .run = true)
    (taken : s.step .run = some { s with net := n }) (ran : s.net.run = some n) (heard : Net.Heard i s.net)
    (timely : i.Timely) : Relays s { s with net := n } .run i := by
  obtain ⟨idle, task, tail, front, rfl⟩ := Net.run_cases ran
  have hears : task.isArrival = false → s.hears i .run = i := by
    intro other
    simp only [Sys.hears, front]
    split
    · rename_i first
      obtain ⟨rfl, -⟩ := List.cons.inj first
      cases other
    · rfl
  cases reads : task.isRead with
  | true =>
    cases task with
    | read phase handler result =>
      have number : ((s.net.leaving tail).onRead phase handler result).socket.number = s.net.socket.number :=
        congrArg Socket.number (Net.socket_onRead _ phase handler result)
      cases result with
      | ok bytes =>
        have same : s.hears i .run = i.handle (s.net.reading.onRead phase (.ok bytes)).2 := by
          simp only [Sys.hears, front]
        refine .stays ?_ ?_ _ ((congrArg Intake.packets same).trans (Intake.handle_packets timely _)) ?_ number
        · rw [same]
          exact Net.heard_onRead heard front
        · rw [same]
          exact Intake.timely_handle timely _
        · exact (Net.underway_onRead front).symm
      | error ec =>
        have same : s.hears i .run = i := hears rfl
        refine .stays ?_ ?_ [] (by rw [same, List.append_nil]) ?_ number
        · rw [same]
          exact Net.heard_onRead_error heard front
        · rw [same]
          exact timely
        · exact (Net.underway_onRead front).symm
    | _ => cases reads
  | false =>
    have still : task.isArrival = false :=
      Bool.eq_false_iff.mpr fun arrival => absurd (Task.isRead_of_isArrival arrival) (by simp [reads])
    have posted : ∀ k, task = .own k → k.packet? = none := by
      rintro k rfl
      have is := posting.posted k (List.mem_filterMap.mpr ⟨.own k, front ▸ List.mem_cons_self, rfl⟩)
      cases k with
      | handlePacket => cases is
      | _ => rfl
    rcases Net.unread_runTask idle front reads posted with unread | ⟨handler, endpoints, replaced⟩
    · exact relays_aside (attends_of_unread unread fun framing => Net.framing_run framing ran)
        (hears still) rfl heard timely
    · have differs : ((s.net.leaving tail).runTask task).socket.number ≠ s.net.socket.number := by
        rw [replaced]
        exact Nat.succ_ne_self _
      have settled : ∀ other ∈ s.net.ready, other.isArrival = false := by
        have kept := keepsUp
        rw [Sys.keepsUp, taken] at kept
        simp only [Option.all_some, Bool.or_eq_true, beq_iff_eq, List.all_eq_true, Bool.not_eq_true'] at kept
        exact kept.resolve_left differs
      have empty : task.packet? = none := by
        cases task with
        | readHandler => exact absurd rfl differs
        | _ => rfl
      have left : Net.Unread Work.packet? s.net (s.net.leaving tail) := Net.unread_leaving front reads empty
      have framing := Net.framing_leaving heard.framing front reads
      refine .replaces ?_ (hears still) ?_ differs
      · show Net.Heard {} ((s.net.leaving tail).runTask task)
        rw [replaced]
        exact Net.heard_connectEndpoint framing
          (fun other among => settled other (front ▸ List.mem_cons_of_mem task among)) _ _
      · show s.underway = Net.underway Work.packet? ((s.net.leaving tail).runTask task)
        rw [replaced, Net.underway_connectEndpoint]
        exact left.underway.symm

/-- A packet's call of the read handler becomes one of `handle_packet`. -/
theorem relays_packet {attempt : Nat} {packet : Bytes}
    (front : s.net.stack = .invoke (.read (.read attempt) none packet) :: rest)
    (heard : Net.Heard i s.net) (timely : i.Timely) :
    Relays s ((s.goesOn rest).push [.handlePacket attempt packet, .startReadLoop attempt]) .exec i := by
  have popped := heard_popped front heard
  have pushed : ((s.goesOn rest).push [.handlePacket attempt packet, .startReadLoop attempt]).net.Framing :=
    Net.framing_push popped.framing (by simp [StackEntry.Sound])
  refine .stays ⟨pushed, popped.frames, popped.before, popped.asked, popped.came, popped.between⟩ timely []
    (List.append_nil _).symm ?_ rfl
  have nothing : s.takesUp .exec = none := by simp [takesUp, front]
  rw [List.append_nil, nothing, underway_popped front]
  rfl

theorem relays_invoke {call : Invocation Handler} (proper : Proper s.net) (front : s.net.stack = .invoke call :: rest)
    (heard : Net.Heard i s.net) (timely : i.Timely) :
    Relays s ({ s with net := (s.goesOn rest).net.recordCall call }.onInvoke call) .exec i := by
  have recorded : Attends (s.goesOn rest) { s with net := (s.goesOn rest).net.recordCall call } := by
    refine attends_of_unread ?_ fun framing => ?_
    · cases call <;> exact Net.unread_of_same rfl rfl rfl rfl rfl
    · cases call <;> exact ⟨framing.one, framing.ops, framing.ready, framing.stack⟩
  have does := does_onInvoke { s with net := (s.goesOn rest).net.recordCall call } call
  have other : s.takesUp .exec = none := by simp [takesUp, front]
  have plain : Topic.packet ∉ invocationTopics call → (StackEntry.invoke call).packet? Work.packet? = none →
      Relays s ({ s with net := (s.goesOn rest).net.recordCall call }.onInvoke call) .exec i := fun absent empty =>
    relays_attends front (recorded.trans (attends_does does absent)) (empty.trans other.symm) heard timely
  cases call with
  | connect h ec => exact plain (by simp [invocationTopics]) rfl
  | closed h => exact plain (by simp [invocationTopics]) rfl
  | write serial h ec => exact plain (by cases h <;> simp [invocationTopics]) rfl
  | read h ec packet =>
    have owes : s.net.Owes (.read h) := .inr (.inr (.inr (.inl ⟨_, front ▸ List.mem_cons_self, rfl⟩)))
    obtain ⟨attempt, rfl⟩ := proper _ owes
    cases ec with
    | none => exact relays_packet front heard timely
    | some ec =>
      have pushed : Attends (s.goesOn rest) ((s.goesOn rest).push [.notifyClosedOnce]) :=
        attends_of_unread (Net.unread_push _ (by simp [StackEntry.packet?, Work.packet?]))
          fun framing => Net.framing_push framing (by simp [StackEntry.Sound])
      exact relays_attends front pushed other.symm heard timely

theorem relays_work {k : Work} (front : s.net.stack = .own k :: rest) (heard : Net.Heard i s.net) (timely : i.Timely) :
    Relays s ((s.goesOn rest).execute k) .exec i := by
  have absent : Topic.packet ∉ workTopics k := fun among => absurd (workTopics_few k among) (by decide)
  refine relays_attends front (attends_does (does_execute _ k) absent) ?_ heard timely
  cases k <;> simp [takesUp, front, StackEntry.packet?, Work.packet?]

theorem relays_step {a : Action} (posting : s.Posting) (proper : Proper s.net) (keepsUp : s.keepsUp a = true)
    (taken : s.step a = some t) (heard : Net.Heard i s.net) (timely : i.Timely) : Relays s t a i := by
  have resumed : ∀ (entry : StackEntry Handler Work) {rest : List (StackEntry Handler Work)} {m : Net Handler Work},
      entry.Sound → ((s.goesOn rest).net.push [entry]).resume = some m → (s.goesOn rest).net.Framing → m.Framing :=
    fun _ _ _ sound moved framing => Net.framing_resume (Net.framing_push framing (by simpa using sound)) moved
  cases (steps taken).2 with
  | run n ran => exact relays_run posting keepsUp taken ran heard timely
  | work k rest front busy => exact relays_work front heard timely
  | invoke call rest front => exact relays_invoke proper front heard timely
  | afterWrite ec rest front =>
    have after : Attends (s.goesOn rest) { s with net := (s.goesOn rest).net.afterWrite ec } :=
      attends_of_unread (Net.unread_afterWrite _ ec) (resumed (.afterWrite ec) trivial rfl)
    exact relays_attends front after (by simp [takesUp, front, StackEntry.packet?]) heard timely
  | closeHandler rest front =>
    have pushed : Attends (s.goesOn rest) { s with
        net := (s.goesOn rest).net.push (s.net.closeHandler.toList.map fun h => .invoke (.closed h)) } := by
      refine attends_of_unread (Net.unread_push _ fun entry among => ?_) (resumed .closeHandler trivial rfl)
      obtain ⟨h, -, rfl⟩ := List.mem_map.mp among
      rfl
    exact relays_attends front pushed (by simp [takesUp, front, StackEntry.packet?]) heard timely
  | ret rest front =>
    refine .stays (heard_popped front heard) timely [] (List.append_nil _).symm ?_ rfl
    rw [List.append_nil, underway_popped front]
    rfl
  | call c allowed =>
    have absent : Topic.packet ∉ callTopics c := fun among => absurd (callTopics_few c among) (by decide)
    exact relays_aside (attends_does (does_call s c) absent) rfl rfl heard timely
  | kernel event n moved =>
    by_cases reads : ∃ index result, event = .read index result
    · obtain ⟨index, result, rfl⟩ := reads
      refine .stays (Net.heard_kernel heard moved) (Intake.timely_arrive timely result) [] ?_ ?_ ?_
      · exact (Intake.arrive_packets i result).trans (List.append_nil _).symm
      · exact (List.append_nil _).trans (Net.underway_kernel moved).symm
      · obtain ⟨phase, handler, rfl⟩ := Net.kernel_read moved
        rfl
    · have unread : Net.Unread Work.packet? s.net n :=
        Net.unread_kernel moved fun index result same => reads ⟨index, result, same⟩
      have same : s.hears i (.kernel event) = i := by
        cases event with
        | read index result => exact absurd ⟨index, result, rfl⟩ reads
        | _ => rfl
      have attends : Attends s { s with net := n } :=
        attends_of_unread unread fun framing => Net.framing_kernel framing moved
      exact relays_aside attends same rfl heard timely
  | expire index w waiting due =>
    have posted : Attends s ({ s with waits := s.waits.eraseIdx index }.post (.timer w.handler none)) :=
      attends_of_unread (Net.unread_post s.net rfl rfl) fun framing => Net.framing_post framing rfl trivial
    exact relays_aside posted rfl rfl heard timely
  | advance ms => exact relays_aside (attends_of_net rfl) rfl rfl heard timely

/-! ### Every run -/

/-- A client, what was read off its sockets, and the packets that `handle_packet` has begun with. -/
structure Reception where
  sys : Sys := {}
  earlier : List Intake := []
  present : Intake := {}
  handled : List Bytes := []

namespace Reception

variable {r q : Reception}

def step (r : Reception) (a : Action) : Option Reception :=
  (r.sys.step a).map fun t =>
    let heard := r.sys.hears r.present a
    let handled := r.handled ++ (r.sys.takesUp a).toList
    if t.net.socket.number = r.sys.net.socket.number then { r with sys := t, present := heard, handled }
    else { sys := t, earlier := r.earlier ++ [heard], handled }

/-- What was read off each socket, oldest first. -/
def intakes (r : Reception) : List Intake := r.earlier ++ [r.present]

def KeepsUp (r : Reception) (a : Action) : Prop := r.sys.keepsUp a = true

instance (r : Reception) (a : Action) : Decidable (r.KeepsUp a) := inferInstanceAs (Decidable (_ = true))

structure Kept (r : Reception) : Prop where
  posting : r.sys.Posting
  proper : Proper r.sys.net
  heard : Net.Heard r.present r.sys.net
  timely : r.present.Timely
  past : ∀ i ∈ r.earlier, (∀ packet ∈ i.delivered, ∃ fr : Frame, packet = fr.bytes) ∧ i.delivered.flatten <+: i.arrived
  order : r.intakes.flatMap Intake.packets = r.handled ++ r.sys.underway

theorem kept_step {a : Action} (kept : r.Kept) (keepsUp : r.KeepsUp a) (taken : r.step a = some q) : q.Kept := by
  obtain ⟨t, moved, rfl⟩ := Option.map_eq_some_iff.mp taken
  have posting := posting_step kept.posting moved
  have proper := proper_step kept.proper moved
  have order := kept.order
  rw [intakes, List.flatMap_append, List.flatMap_singleton] at order
  cases relays_step kept.posting kept.proper keepsUp moved kept.heard kept.timely with
  | stays heard timely news packets followed number =>
    simp only [number, if_true]
    refine ⟨posting, proper, heard, timely, kept.past, ?_⟩
    rw [intakes, List.flatMap_append, List.flatMap_singleton, packets, ← List.append_assoc, order, List.append_assoc,
      followed, List.append_assoc]
  | replaces heard same followed number =>
    simp only [number, if_false]
    refine ⟨posting, proper, heard, fun _ => rfl, fun i among => ?_, ?_⟩
    · rw [same] at among
      rcases List.mem_append.mp among with old | last
      · exact kept.past i old
      · obtain rfl := List.mem_singleton.mp last
        exact ⟨kept.heard.frames, kept.heard.before⟩
    · rw [intakes, List.flatMap_append, List.flatMap_append, List.flatMap_singleton, List.flatMap_singleton, same,
        order, followed]
      simp [Intake.packets]

theorem kept_start : ({} : Reception).Kept :=
  ⟨⟨nofun, nofun⟩, by simp [Proper, Net.Owes], ⟨⟨⟨rfl, Nat.zero_le 1⟩, nofun, nofun, nofun⟩, nofun, List.prefix_refl _,
    nofun, nofun, fun _ _ _ _ => rfl⟩, fun _ => rfl, nofun, rfl⟩

/-- What `handle_packet` gets of what the sockets carry. -/
structure Faithful (r : Reception) : Prop where
  /-- The packets of the sockets, in order and none twice, but for those on their way. -/
  order : r.intakes.flatMap Intake.packets = r.handled ++ r.sys.underway
  /-- Those of one socket, up to a failed read, are the first frames of its bytes: a peer that sends frames has sent
  these first. -/
  sent : ∀ i ∈ r.intakes, ∀ frames : List Frame, i.arrived <+: (frames.map Frame.bytes).flatten →
    i.delivered <+: frames.map Frame.bytes
  /-- A reader that is given these bytes in one go, or cut in any way, is handed the same packets first. -/
  read : ∀ i ∈ r.intakes, ∀ segments : List Bytes, segments.flatten = i.arrived → ∀ ends, ∃ k,
    ((ReadLoop.start segments).after ends k).delivered = i.delivered.map fun packet => (none, packet)
  /-- While no read has failed, nothing is kept back but the bytes of the packet that is being read. -/
  whole : r.present.failed = false → ∀ phase count handler, .read phase count handler ∈ r.sys.net.ops →
    r.present.arrived = r.present.delivered.flatten ++ r.sys.net.reading.taken phase

theorem Kept.faithful (kept : r.Kept) : r.Faithful := by
  have each : ∀ i ∈ r.intakes, (∀ packet ∈ i.delivered, ∃ fr : Frame, packet = fr.bytes) ∧
      i.delivered.flatten <+: i.arrived := by
    intro i among
    rcases List.mem_append.mp among with old | last
    · exact kept.past i old
    · obtain rfl := List.mem_singleton.mp last
      exact ⟨kept.heard.frames, kept.heard.before⟩
  refine ⟨kept.order, fun i among frames sent => ?_, fun i among segments same ends => ?_,
    fun whole => kept.heard.asked whole⟩
  · obtain ⟨framed, before⟩ := each i among
    refine (PrefixCode.flatten_prefix_iff frames_isCode framed fun data within => ?_).mp (before.trans sent)
    obtain ⟨fr, -, rfl⟩ := List.mem_map.mp within
    exact ⟨fr, rfl⟩
  · obtain ⟨framed, rest, before⟩ := each i among
    obtain ⟨frames, bytes⟩ := ReadLoop.frames_of_bytes framed
    rw [← before, ← bytes] at same
    obtain ⟨k, -, -, delivered⟩ := ReadLoop.frames_read ends (ReadLoop.start_idle segments) same
    refine ⟨k, ?_⟩
    rw [delivered, ← bytes, List.map_map]
    rfl

/-- In every run in which no socket is replaced before what was read off it is handled: `handle_packet` is called by the
read loop with the packets that are handed over, in order and each once, and those handed over before a read of their
socket failed are the first frames of its bytes. -/
theorem packets_arrive {actions : List Action} (done : Runs.exec step ({} : Reception) actions = some r)
    (along : Runs.Along step KeepsUp ({} : Reception) actions) : r.Faithful :=
  have kept :=
      Runs.Reaches.invariant (I := Kept) kept_start (fun _ _ _ held admitted taken => kept_step held admitted taken)
    (Runs.exec_reaches done along)
  kept.faithful

/-- A CONNACK and a PUBACK. -/
theorem two_packets_arrive : ∃ r, Runs.exec step ({} : Reception) (opened ++ receive 0x40 2 0 1) = some r ∧
    r.handled = [[0x20, 2, 0, 0], [0x40, 2, 0, 1]] ∧ r.Faithful := by
  have run : (Runs.exec step ({} : Reception) (opened ++ receive 0x40 2 0 1)).map
      (fun r => decide (r.handled = [[0x20, 2, 0, 0], [0x40, 2, 0, 1]])) = some true := by
    decide +kernel
  obtain ⟨r, done, handled⟩ := Runs.exec_of_check run
  exact ⟨r, done, of_decide_eq_true handled, packets_arrive done (by decide +kernel)⟩

end Reception

/-! ### Messages -/

/-- What `on_message_cb_` is told of a packet. -/
def messageIn (data : Bytes) : Option Event :=
  if data.head?.map (fun byte : UInt8 => PacketType.ofUint8 (byte >>> 4)) = some .publish then
    (Handled.publish (PublishPacket.parse data) true).delivery?
  else none

/-- The messages that the user was told, oldest first. -/
def messages (s : Sys) : List Event := (s.log.filter (·.isMessage)).reverse

/-- `on_message_cb_` is set when a packet is handled, and the user hands in no packets. -/
def listens (s : Sys) : Action → Bool
  | .exec => (s.takesUp .exec).isNone || s.onMessageCb
  | .call (.handlePacket _) | .call (.handlePublish _) => false
  | _ => true

theorem packetHandled_message (listening : s.onMessageCb = true) (data : Bytes) :
    (s.packetHandled data).bind Handled.delivery? = messageIn data := by
  cases data with
  | nil => rfl
  | cons byte rest =>
    simp only [packetHandled, messageIn, List.head?_cons, Option.map_some, Option.some.injEq]
    cases PacketType.ofUint8 (byte >>> 4) with
    | publish => simp [listening]
    | _ => rfl

theorem handled_exec (s : Sys) : s.handled .exec = (s.takesUp .exec).bind s.packetHandled := by
  cases front : s.net.stack with
  | nil => simp [handled, takesUp, front]
  | cons entry rest =>
    cases entry with
    | own k => cases k <;> simp [handled, takesUp, front]
    | _ => simp [handled, takesUp, front]

theorem handled_message (hearing : s.listens a = true) :
    (s.handled a).bind Handled.delivery? = (s.takesUp a).bind messageIn := by
  cases a with
  | exec =>
    rw [handled_exec]
    cases begun : s.takesUp .exec with
    | none => rfl
    | some data => exact packetHandled_message (by simpa [listens, begun] using hearing) data
  | call c =>
    cases c with
    | handlePacket data => contradiction
    | handlePublish data => contradiction
    | _ => rfl
  | _ => rfl

namespace Reception

variable {r q : Reception}

/-- The messages are those of the packets that were handled. -/
def Told (r : Reception) : Prop := r.sys.messages = r.handled.filterMap messageIn

theorem told_step {a : Action} (posting : r.sys.Posting) (told : r.Told) (hearing : r.sys.listens a = true)
    (taken : r.step a = some q) : q.Told := by
  obtain ⟨t, moved, rfl⟩ := Option.map_eq_some_iff.mp taken
  have more : t.messages = r.sys.messages ++ ((r.sys.takesUp a).bind messageIn).toList := by
    rw [← handled_message hearing]
    have filtered : t.log.filter (·.isMessage) =
        ((r.sys.handled a).bind Handled.delivery?).toList ++ r.sys.log.filter (·.isMessage) := by
      rcases step_receipts posting moved with same | ⟨unhandled, p, wrote⟩
      · refine (congrArg Receipts.messages same).trans ?_
        cases r.sys.handled a <;> rfl
      · rw [unhandled]
        exact wrote.messages
    rw [messages, filtered, List.reverse_append, messages]
    cases (r.sys.handled a).bind Handled.delivery? <;> rfl
  have all : t.messages = (r.handled ++ (r.sys.takesUp a).toList).filterMap messageIn := by
    rw [more, told, List.filterMap_append]
    cases r.sys.takesUp a with
    | none => rfl
    | some data => cases found : messageIn data <;> simp [found]
  dsimp only
  split <;> exact all

/-- In every run in which `on_message_cb_` is set whenever a packet is handled: the user is told of each PUBLISH of
QoS 0 to 2 that came off a socket, once, in the order in which they came, except of those on their way. -/
theorem messages_arrive {actions : List Action} (done : Runs.exec step ({} : Reception) actions = some r)
    (along : Runs.Along step (fun r a => r.KeepsUp a ∧ r.sys.listens a = true) ({} : Reception) actions) :
    (r.intakes.flatMap Intake.packets).filterMap messageIn = r.sys.messages ++ r.sys.underway.filterMap messageIn := by
  have kept := Runs.Reaches.invariant (I := fun r => r.Kept ∧ r.Told) ⟨kept_start, rfl⟩
    (fun _ _ _ held admitted taken =>
      ⟨kept_step held.1 admitted.1 taken, told_step held.1.posting held.2 admitted.2 taken⟩)
    (Runs.exec_reaches done along)
  rw [kept.1.order, List.filterMap_append, ← kept.2]

/-- A callback for messages is set, a session is opened, and a PUBLISH of QoS 1 arrives. -/
def listening : List Action :=
  .call (.onMessage true) :: opened ++ [.kernel (.read 0 (.ok [0x32, 5])), .run,
  .kernel (.read 0 (.ok [0, 1, 0x74, 0, 7])),
    .run, .run, .exec, .exec]

theorem one_message_arrives : ∃ r, Runs.exec step ({} : Reception) listening = some r ∧
    r.sys.messages = [.message [0x74] [] 1 7] ∧
    (r.intakes.flatMap Intake.packets).filterMap messageIn = r.sys.messages ++ r.sys.underway.filterMap messageIn := by
  have run : (Runs.exec step ({} : Reception) listening).map
      (fun r => decide (r.sys.messages = [.message [0x74] [] 1 7])) = some true := by
    decide +kernel
  obtain ⟨r, done, told⟩ := Runs.exec_of_check run
  exact ⟨r, done, of_decide_eq_true told, messages_arrive done (by decide +kernel)⟩

end Reception
end Sys
end LiteMqtt
