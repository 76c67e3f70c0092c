import LiteMqtt.Connection.Writes
import Mathlib.Data.List.Nodup

/-!
# What a connection promises about its writes

One write at a time on a socket, and one answer for every write handler. Both hold in every
orderly run. They fail when the `fail_pending_writes` that `do_write` deferred runs after the
connection got through and put an item in flight.
-/

namespace LiteMqtt

variable {H K : Type}

namespace WriteQueue

/-- The invariant of every run. -/
structure Sound (w : WriteQueue H) : Prop where
  ordered : Ordered w
  pairedWrites : Paired w
  onWire : OnWire w
  accounted : Accounted w
  honest : Honest w
  pursued : Pursued w

theorem Sound.step {w v : WriteQueue H} (h : Sound w) (step : Step w v) : Sound v where
  ordered := h.ordered.step step
  pairedWrites := h.pairedWrites.step h.ordered step
  onWire := h.onWire.step h.pairedWrites h.ordered step
  accounted := h.accounted.step h.pairedWrites step
  honest := h.honest.step step
  pursued := h.pursued.step h.pairedWrites step

theorem sound_start : Sound ({} : WriteQueue H) where
  ordered := ⟨rfl, List.Sublist.refl _⟩
  pairedWrites := ⟨rfl, List.nil_sublist _, List.nodup_nil, nofun, nofun, Nat.zero_le 1, nofun⟩
  onWire := ⟨by simp [wires, Wire.bytes], nofun, nofun, nofun⟩
  accounted := List.Perm.refl _
  honest := ⟨nofun, nofun⟩
  pursued := ⟨nofun, nofun⟩

end WriteQueue

namespace Net

theorem sound {n : Net H K} (reach : Runs.Reaches step Orderly {} n) : n.writes.Sound := by
  refine Runs.Reaches.invariant (I := fun n => n.writes.Sound) WriteQueue.sound_start ?_ reach
  intro n a m h orderly taken
  rcases step_tracks taken orderly with same | moved
  · exact same ▸ h
  · exact h.step moved

/-- An orderly life: connect, write a frame and the one queued behind it, close. -/
def orderlyRun : List (Action Unit Unit) :=
  [.asyncConnect (), .kernel (.resolve 0 (.ok 0)), .run, .kernel (.connect 0 none), .run, .resume,
    .asyncWritePacket [0xC0, 0] (some ()), .asyncWritePacket [0xE0, 0] (some ()), .run, .run,
    .kernel (.send 0 2), .kernel (.write 0 none), .run, .resume, .resume,
    .kernel (.send 0 2), .kernel (.write 0 none), .run, .resume, .resume, .close, .resume]

/-- A frame is enqueued while the TCP connect is going on, so a failure is deferred. Before
it runs the connect completes and another enqueue starts the write. -/
def deferredRun : List (Action Unit Unit) :=
  [.asyncConnect (), .kernel (.resolve 0 (.ok 0)), .run, .asyncWritePacket [0xC0, 0] (some ()),
    .kernel (.connect 0 none), .asyncWritePacket [0xC0, 0] (some ()), .run, .run, .resume, .run,
    .asyncWritePacket [0xC0, 0] (some ()), .run, .resume]

/-- The third frame replaces the first in flight, and the connection is then closed. -/
def replacedRun : List (Action Unit Unit) :=
  deferredRun ++ [.run, .kernel (.send 0 2), .kernel (.write 0 none), .run, .resume, .resume,
    .kernel (.send 0 2), .kernel (.write 0 none), .run, .close, .resume]

/-- `writing_` says exactly whether `in_flight_` holds an item; an outstanding write is the
one of the item in flight, and there is at most one; the bytes of every socket are those of
submitted frames, whole and in order, the last perhaps cut short. -/
structure OneWrite (n : Net H K) : Prop where
  paired : n.writing = true ↔ n.inFlight ≠ none
  held : ∀ serial unsent, SocketOp.write serial unsent ∈ n.ops →
    ∃ item, n.inFlight = some item ∧ item.serial = serial
  single : (n.ops.countP fun op => (op.write?).isSome) ≤ 1
  wire : ∀ s ∈ n.past ++ [n.socket], ∃ frames : List (WriteItem H), frames.Sublist n.submitted ∧
    s.sent <+: (frames.map WriteItem.buffer).flatten

theorem flying_write {n : Net H K} (h : n.writes.Sound) {serial : Nat} {unsent : Bytes}
    (out : SocketOp.write serial unsent ∈ n.ops) : ∃ item, n.inFlight = some item ∧ item.serial = serial := by
  have among : (serial, unsent) ∈ n.writes.outstanding := List.mem_filterMap.mpr ⟨_, out, rfl⟩
  obtain ⟨xs, ys, flying⟩ := List.append_of_mem among
  exact (h.pairedWrites.alone flying).2.2

theorem few_writes {n : Net H K} (h : n.writes.Sound) :
    (n.ops.countP fun op => (op.write?).isSome) ≤ 1 := by
  have short := h.pairedWrites.held.length_le
  have count : n.ops.countP (fun op => (op.write?).isSome) = n.writes.outstanding.length := by
    simp [writes, List.length_filterMap_eq_countP]
  rw [count]
  refine Nat.le_trans (by simpa using short) ?_
  cases n.writes.inFlight <;> simp

theorem wire_frames {n : Net H K} (h : n.writes.Sound) {s : Socket} (among : s ∈ n.past ++ [n.socket]) :
    ∃ frames : List (WriteItem H), frames.Sublist n.submitted ∧ s.sent <+: (frames.map WriteItem.buffer).flatten := by
  have listed : s.wire ∈ n.writes.wires := by
    simpa [WriteQueue.wires, writes] using List.mem_map_of_mem (f := Socket.wire) among
  have order : s.started.Sublist (n.submitted.map WriteItem.frame) := by
    refine .trans ?_ ((List.sublist_append_left _ _).trans h.ordered.order)
    exact List.sublist_flatten_of_mem (List.mem_map_of_mem (f := Wire.started) listed)
  obtain ⟨frames, few, eq⟩ := List.sublist_map_iff.mp order
  refine ⟨frames, few, ?_⟩
  have sent := h.onWire.prefixes s.wire listed
  simp only [Wire.bytes, Socket.wire, eq, List.map_map] at sent
  exact sent

/-- Each write handler is called at most once, with success only after its own frame was
written, and exactly once when nothing is left to run. -/
structure AnsweredOnce (n : Net H K) : Prop where
  once : (n.handled.map Prod.fst).Nodup
  submitted : ∀ serial ec, (serial, ec) ∈ n.handled → ∃ item ∈ n.submitted,
    item.serial = serial ∧ item.handler ≠ none
  success : ∀ serial, (serial, none) ∈ n.handled → serial ∈ n.succeeded
  settled : n.ready = [] → n.stack = [] → n.ops = [] →
    ∀ item ∈ n.submitted, item.handler ≠ none → (n.handled.map Prod.fst).count item.serial = 1

theorem answered_once {n : Net H K} (reach : Runs.Reaches step Orderly {} n) : AnsweredOnce n := by
  have h := sound reach
  have once := h.accounted.once h.ordered
  refine ⟨once, ?_, ?_, ?_⟩
  · intro serial ec told
    have among : serial ∈ awaited n.submitted :=
      h.accounted.mem_iff.mp (List.mem_append_right _ (List.mem_map_of_mem told))
    obtain ⟨item, kept, rfl⟩ := List.mem_map.mp among
    obtain ⟨sent, awaits⟩ := List.mem_filter.mp kept
    exact ⟨item, sent, rfl, Option.isSome_iff_ne_none.mp awaits⟩
  · exact fun serial told => h.honest.called serial (List.mem_append_right _ told)
  · intro ready stack ops item among awaits
    have settled := h.pursued.settled h.accounted (by simp [writes, ready]) (by simp [writes, ready])
      (by simp [writes, ready]) (by simp [WriteQueue.live, writes, ready, ops]) (by simp [writes, stack])
      (by simp [writes, stack])
    refine List.count_eq_one_of_mem once (settled.mem_iff.mpr ?_)
    refine List.mem_map_of_mem (List.mem_filter.mpr ⟨among, ?_⟩)
    exact Option.isSome_iff_ne_none.mpr awaits

theorem answered_orderly : ∃ n, Runs.Reaches step Orderly ({} : Net Unit Unit) n ∧
    n.handled = [(0, none), (1, none)] ∧ AnsweredOnce n := by
  have along : Runs.Along step Orderly ({} : Net Unit Unit) orderlyRun := by decide
  obtain ⟨n, reach, told⟩ := Runs.reaches_of_along (p := (·.handled == [(0, none), (1, none)])) along (by decide)
  exact ⟨n, reach, beq_iff_eq.mp told, answered_once reach⟩

/-- After `close` and with nothing left to run, the first handler has never been called. -/
theorem handler_lost : ∃ n, Runs.Reaches step Runs.Any ({} : Net Unit Unit) n ∧ n.closed = true ∧
    n.resolves = [] ∧ n.ready = [] ∧ n.stack = [] ∧ n.ops = [] ∧
    ∃ item ∈ n.submitted, item.handler ≠ none ∧ (n.handled.map Prod.fst).count item.serial = 0 := by
  have run : (Runs.exec step {} replacedRun).map (fun n : Net Unit Unit => n.closed && n.resolves.isEmpty &&
      n.ready.isEmpty && n.stack.isEmpty && n.ops.isEmpty && n.submitted.any fun item =>
        item.handler.isSome && (n.handled.map Prod.fst).count item.serial == 0) = some true := by decide
  obtain ⟨n, reach, bad⟩ := Runs.reaches_of_exec run
  simp only [Bool.and_eq_true, List.isEmpty_iff, List.any_eq_true, Option.isSome_iff_ne_none,
    beq_iff_eq] at bad
  obtain ⟨⟨⟨⟨⟨closed, resolves⟩, ready⟩, stack⟩, ops⟩, lost⟩ := bad
  exact ⟨n, reach, closed, resolves, ready, stack, ops, lost⟩

end Net

end LiteMqtt
