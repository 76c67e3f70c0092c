import LiteMqtt.Client.Acknowledging
import LiteMqtt.Client.Ordering
import LiteMqtt.Connection.PacketStream
import LiteMqtt.Connection.Transmission

/-!
# What the peer gets

A packet goes from the client to its connection, from there onto a socket, and the peer takes it off the bytes
of that socket. Put together, a peer that reads with the same framing gets packets of the client, whole and
in order, and every packet whose write succeeded.
-/

namespace LiteMqtt

def Packet.request? : Packet → Option Request
  | .publish pkt => if pkt.dup then none else some { topic := pkt.topicName, payload := pkt.payload, qos := pkt.qos }
  | _ => none

def Event.packet? : Event → Option Packet
  | .handed packet => some packet
  | _ => none

namespace Sys

variable {s t : Sys}

/-- The packets that were handed to the connection, in their order. -/
def packets (s : Sys) : List Packet := (s.log.filterMap Event.packet?).reverse

theorem packets_requests (s : Sys) : s.packets.filterMap Packet.request? = s.sent := by
  rw [packets, sent, List.filterMap_reverse, List.filterMap_filterMap]
  refine congrArg List.reverse (List.filterMap_congr fun e _ => ?_)
  cases e with
  | handed packet => cases packet <;> rfl
  | _ => rfl

/-! ### From the client to the connection -/

/-- What the connection gets was handed over, in this order. -/
def Serializes (s : Sys) : Prop :=
  ∃ packets : List Packet, packets.Sublist s.packets ∧
    s.net.submitted.map WriteItem.buffer = packets.map Packet.serialize

theorem serializes_same (submitted : t.net.submitted = s.net.submitted) (log : s.packets.Sublist t.packets)
    (serializes : s.Serializes) : t.Serializes := by
  obtain ⟨packets, among, same⟩ := serializes
  exact ⟨packets, among.trans log, submitted ▸ same⟩

theorem serializes_net (submitted : t.net.submitted = s.net.submitted) (log : t.log = s.log)
    (serializes : s.Serializes) :
    t.Serializes :=
  serializes_same submitted (by rw [packets, packets, log]) serializes

theorem packets_record (s : Sys) (e : Event) : (s.record e).packets = s.packets ++ e.packet?.toList := by
  show ((e :: s.log).filterMap Event.packet?).reverse = _
  cases found : e.packet? <;> simp [packets, found]

theorem serializes_record (e : Event) (serializes : s.Serializes) : (s.record e).Serializes :=
  serializes_same (s := s) rfl (packets_record s e ▸ List.sublist_append_left _ _) serializes

theorem serializes_apply (e : Effect) (serializes : s.Serializes) : (s.apply e).Serializes := by
  cases e with
  | record x => exact serializes_record x serializes
  | write packet handler =>
    obtain ⟨packets, among, same⟩ := serializes
    refine ⟨packets ++ [packet], ?_, ?_⟩
    · exact (packets_record _ (.handed packet)) ▸ among.append (.refl _)
    · show (s.net.submitted ++ [_]).map WriteItem.buffer = _
      rw [List.map_append, same, List.map_append]
      rfl
  | closeConnection =>
    show s.closeConnection.Serializes
    unfold closeConnection
    split
    · exact serializes
    · exact serializes_record _ (serializes_net (s := s) (Net.close_submitted s.net) rfl serializes)
  | startReadLoop attempt => exact serializes_net (s := s) (Net.asyncReadPacket_submitted s.net _) rfl serializes
  | asyncConnect callback =>
    obtain ⟨u, which, net⟩ := asyncConnect_net s callback
    refine serializes_same (s := s) ((congrArg Net.submitted net).trans ?_) ?_ serializes
    · rcases which with rfl | rfl <;> rfl
    · show s.packets.Sublist (s.asyncConnect callback).packets
      rw [packets, packets, (asyncConnect_connects s callback).log]
      exact .refl _
  | _ => exact serializes_net (s := s) rfl rfl serializes

theorem serializes_does {topics : List Topic} (does : Does topics s t) (serializes : s.Serializes) : t.Serializes :=
  does.keeps (I := Serializes) (fun _ e _ => serializes_apply e) serializes

theorem serializes_step {a : Action} (serializes : s.Serializes) (taken : s.step a = some t) : t.Serializes := by
  cases (steps taken).2 with
  | run n ran =>
    obtain ⟨-, task, tail, -, rfl⟩ := Net.run_cases ran
    exact serializes_net (s := s) (Net.runTask_submitted (s.net.leaving tail) task) rfl serializes
  | work k rest front busy => exact serializes_does (s := s.goesOn rest) (does_execute _ k) serializes
  | invoke call rest front =>
    refine serializes_does (does_onInvoke _ call) (serializes_net (s := s) ?_ rfl serializes)
    cases call <;> rfl
  | afterWrite ec rest front =>
    exact serializes_net (s := s) (Net.afterWrite_submitted (s.goesOn rest).net ec) rfl serializes
  | call c allowed => exact serializes_does (does_call s c) serializes
  | kernel event n moved => exact serializes_net (s := s) (Net.kernel_submitted moved) rfl serializes
  | _ => exact serializes

/-! ### From the connection to the socket -/

/-- Deferred failures and completions of writes run as `Net.Orderly` says. -/
def WritesOrderly (s : Sys) : Action → Prop
  | .run => s.net.Orderly .run
  | _ => True

instance (s : Sys) : ∀ a, Decidable (s.WritesOrderly a)
  | .run => inferInstanceAs (Decidable (s.net.Orderly .run))
  | .exec | .ret | .call _ | .kernel _ | .expire _ | .advance _ => inferInstanceAs (Decidable True)

theorem reaches_calls {n m : Net Handler Work} {actions : List (Net.Action Handler Work)}
    (calls : Net.Action.run ∉ actions)
    (done : Runs.exec Net.step n actions = some m) : Runs.Reaches Net.step Net.Orderly n m := by
  refine Runs.exec_reaches done ?_
  clear done
  induction actions generalizing n with
  | nil => trivial
  | cons a rest ih =>
    intro k _
    refine ⟨?_, ih fun among => calls (.tail _ among)⟩
    cases a with
    | run => exact absurd (.head _) calls
    | _ => trivial

theorem reaches_does {topics : List Topic} (does : Does topics s t) : Runs.Reaches Net.step Net.Orderly s.net t.net :=
  does.keeps (I := fun u => Runs.Reaches Net.step Net.Orderly s.net u.net)
    (fun u e _ before => before.trans (reaches_calls (asks_calls u e) (exec_asks u e))) .refl

theorem reaches_step {a : Action} (orderly : s.WritesOrderly a) (taken : s.step a = some t) :
    Runs.Reaches Net.step Net.Orderly s.net t.net := by
  have one : ∀ {n m : Net Handler Work} (b : Net.Action Handler Work), n.Orderly b → n.step b = some m →
      Runs.Reaches Net.step Net.Orderly n m := fun b orderly moved => .single ⟨b, orderly, moved⟩
  cases (steps taken).2 with
  | run n ran => exact one .run orderly ran
  | work k rest front busy =>
    have popped : s.net.step .pop = some (s.goesOn rest).net := by simp [Net.step, front, goesOn]
    exact (one .pop trivial popped).trans (reaches_does (does_execute _ k))
  | invoke call rest front =>
    have resumed : s.net.step .resume = some ((s.goesOn rest).net.recordCall call) := by
      simp [Net.step, Net.resume, front, goesOn]
    have invoked := does_onInvoke { s with net := (s.goesOn rest).net.recordCall call } call
    exact (one .resume trivial resumed).trans (reaches_does invoked)
  | afterWrite ec rest front => exact one .resume trivial (by simp [Net.step, Net.resume, front, goesOn])
  | closeHandler rest front => exact one .resume trivial (by simp [Net.step, Net.resume, front, goesOn])
  | ret rest front => exact one .pop trivial (by simp [Net.step, front, goesOn])
  | call c allowed => exact reaches_does (does_call s c)
  | kernel event n moved => exact one (.kernel event) trivial moved
  | expire index w waiting due => exact one (.post (.timer w.handler none)) trivial rfl
  | advance ms => exact .refl

/-! ### What is read of a socket -/

/-- What the peer gets of the bytes of one socket. -/
structure Receives (s : Sys) (calls : List Request) (socket : Socket) (peer : Nat → ReadLoop) (packets : List Packet) :
    Prop where
  /-- Packets of the client in their order, none twice. -/
  handed : packets.Sublist s.packets
  /-- The publishes among them, retransmissions apart, are in the order of their calls, and as these gave them. -/
  requested : (packets.filterMap Packet.request?).Sublist calls
  /-- Every packet whose write succeeded. -/
  through : ∀ frame ∈ socket.started, frame.1 ∈ s.net.succeeded → ∃ packet ∈ packets, packet.serialize = frame.2
  /-- The peer gets these and nothing else. -/
  read : ∃ k, ∀ j, k ≤ j → (peer j).packets = packets
  sooner : ∀ j, (peer j).packets <+: packets

theorem started_packets {socket : Socket} (serializes : s.Serializes) (sound : s.net.writes.Sound)
    (among : socket ∈ s.net.past ++ [s.net.socket]) :
    ∃ own : List Packet, own.Sublist s.packets ∧ socket.started.map Prod.snd = own.map Packet.serialize := by
  have listed : socket.wire ∈ s.net.writes.wires := by
    simpa [WriteQueue.wires, Net.writes] using List.mem_map_of_mem (f := Socket.wire) among
  have order : socket.started.Sublist (s.net.submitted.map WriteItem.frame) := by
    refine .trans ?_ ((List.sublist_append_left _ _).trans sound.ordered.order)
    exact List.sublist_flatten_of_mem (List.mem_map_of_mem (f := Wire.started) listed)
  obtain ⟨packets, few, same⟩ := serializes
  have buffers : (socket.started.map Prod.snd).Sublist (packets.map Packet.serialize) := by
    have frames := order.map Prod.snd
    rw [List.map_map] at frames
    exact same ▸ frames
  obtain ⟨own, within, started⟩ := List.sublist_map_iff.mp buffers
  exact ⟨own, within.trans few, started⟩

end Sys
end LiteMqtt
