import LiteMqtt.Connection.Model

/-!
# The write queue of a connection

`WriteQueue` keeps what a connection knows about its writes and nothing else, and `Step`
says what may happen to it. An item is posted, queued, put in flight and answered. A socket
carries one write at a time, and every handler is owed one answer.
-/

namespace LiteMqtt

/-- The writes started on one socket, and the bytes it has sent. -/
structure Wire where
  started : List (Nat × Bytes) := []
  sent : Bytes := []

def Wire.bytes (w : Wire) : Bytes := (w.started.map Prod.snd).flatten

structure WriteQueue (H : Type) where
  closed : Bool := false
  isOpen : Bool := false
  /-- Items whose `enqueue_write` has yet to run. -/
  posted : List (WriteItem H) := []
  /-- Items refused by a closed connection, and not yet answered. -/
  rejected : List (WriteItem H) := []
  queue : List (WriteItem H) := []
  inFlight : Option (WriteItem H) := none
  writing : Bool := false
  /-- The outstanding writes, each with what it has yet to send. -/
  outstanding : List (Nat × Bytes) := []
  /-- The writes whose completion is queued. -/
  completing : List (Nat × ErrorCode) := []
  /-- The posted `fail_pending_writes`. -/
  failing : List AsioError := []
  /-- The completion that waits for its handler to return. -/
  settling : List ErrorCode := []
  /-- The handler calls that the running task has yet to make. -/
  calls : List (Nat × ErrorCode) := []
  handled : List (Nat × ErrorCode) := []
  succeeded : List Nat := []
  nextSerial : Nat := 0
  submitted : List (WriteItem H) := []
  wire : Wire := {}
  past : List Wire := []

variable {H : Type}

def WriteItem.frame (item : WriteItem H) : Nat × Bytes := (item.serial, item.buffer)

/-- The call that answers an item, if it has a handler. -/
def WriteItem.answer (item : WriteItem H) (ec : ErrorCode) : List (Nat × ErrorCode) :=
  if item.handler.isSome then [(item.serial, ec)] else []

namespace WriteQueue

def wires (w : WriteQueue H) : List Wire := w.past ++ [w.wire]

def started (w : WriteQueue H) : List (Nat × Bytes) := w.wires.flatMap Wire.started

/-- The outstanding writes and the completed ones, by serial. -/
def live (w : WriteQueue H) : List Nat := w.outstanding.map Prod.fst ++ w.completing.map Prod.fst

/-- The socket is closed, which completes what was outstanding. -/
def abort (w : WriteQueue H) : WriteQueue H :=
  { w with
    isOpen := false
    completing := w.completing ++ w.outstanding.map fun o => (o.1, some .operationAborted)
    outstanding := [] }

def replace (w : WriteQueue H) : WriteQueue H :=
  { w with isOpen := true, past := w.past ++ [w.wire], wire := {} }

def start (w : WriteQueue H) (item : WriteItem H) (rest : List (WriteItem H)) : WriteQueue H :=
  { w with
    writing := true
    inFlight := some item
    queue := rest
    outstanding := w.outstanding ++ [item.frame]
    wire := { w.wire with started := w.wire.started ++ [item.frame] } }

def transmit (w : WriteQueue H) (bytes : Bytes) : WriteQueue H :=
  { w with wire := { w.wire with sent := w.wire.sent ++ bytes } }

def fail (w : WriteQueue H) (ec : AsioError) : WriteQueue H :=
  { w with
    queue := []
    writing := false
    calls := (w.queue.flatMap fun item : WriteItem H => item.answer (some ec)) ++ w.calls }

def finish (w : WriteQueue H) (item : WriteItem H) (ec : ErrorCode) : WriteQueue H :=
  { w with inFlight := none, writing := false, calls := item.answer ec ++ w.calls }

def accept (w : WriteQueue H) (item : WriteItem H) (rest : List (WriteItem H)) : WriteQueue H :=
  { w with posted := rest, queue := w.queue ++ [item] }

/-- `do_write`: nothing to do, or nothing that could be done, or the front item goes out. -/
inductive Kick (w : WriteQueue H) : WriteQueue H → Prop where
  | rest (nothing : w.writing = true ∨ w.queue = []) : Kick w w
  | defer (ec : AsioError) (free : w.writing = false) : Kick w { w with failing := w.failing ++ [ec] }
  | start (item : WriteItem H) (rest : List (WriteItem H)) (free : w.writing = false)
      (opened : w.isOpen = true) (front : w.queue = item :: rest) : Kick w (w.start item rest)

inductive Step (w : WriteQueue H) : WriteQueue H → Prop where
  | submit (item : WriteItem H) (number : item.serial = w.nextSerial) : Step w { w with
      nextSerial := w.nextSerial + 1
      submitted := w.submitted ++ [item]
      posted := w.posted ++ [item] }
  | accept (item : WriteItem H) (rest : List (WriteItem H)) {v : WriteQueue H}
      (front : w.posted = item :: rest) (opened : w.closed = false) (settled : w.settling = [])
      (kick : Kick (w.accept item rest) v) : Step w v
  | reject (item : WriteItem H) (rest : List (WriteItem H)) (front : w.posted = item :: rest)
      (shut : w.closed = true) : Step w { w with posted := rest, rejected := w.rejected ++ [item] }
  | refuse (item : WriteItem H) (rest : List (WriteItem H)) (front : w.rejected = item :: rest) :
      Step w { w with
        rejected := rest, calls := item.answer (some .operationAborted) ++ w.calls }
  | fail (ec : AsioError) (rest : List AsioError) (front : w.failing = ec :: rest)
      (landed : w.inFlight = none) : Step w ({ w with failing := rest }.fail ec)
  | stale (c : Nat × ErrorCode) (rest : List (Nat × ErrorCode)) (front : w.completing = c :: rest)
      (landed : w.inFlight = none) : Step w { w with completing := rest }
  | finish (item : WriteItem H) (ec : ErrorCode) (rest : List (Nat × ErrorCode))
      (front : w.completing = (item.serial, ec) :: rest) (flying : w.inFlight = some item)
      (settled : w.settling = []) :
      Step w { w.finish item ec with completing := rest, settling := [ec] }
  | settle (rest : List ErrorCode) {v : WriteQueue H} (front : w.settling = none :: rest)
      (kick : Kick { w with settling := rest } v) : Step w v
  | collapse (ec : AsioError) (rest : List ErrorCode) (front : w.settling = some ec :: rest) :
      Step w ({ w.abort with settling := rest }.fail ec)
  | call (c : Nat × ErrorCode) (rest : List (Nat × ErrorCode)) (front : w.calls = c :: rest) :
      Step w { w with calls := rest, handled := w.handled ++ [c] }
  | send (serial : Nat) (unsent : Bytes) (count : Nat) (xs ys : List (Nat × Bytes))
      (flying : w.outstanding = xs ++ (serial, unsent) :: ys) :
      Step w { w.transmit (unsent.take count) with outstanding := xs ++ (serial, unsent.drop count) :: ys }
  | complete (serial : Nat) (unsent : Bytes) (ec : ErrorCode) (xs ys : List (Nat × Bytes))
      (flying : w.outstanding = xs ++ (serial, unsent) :: ys) (whole : ec = none → unsent = []) :
      Step w { w with
        outstanding := xs ++ ys
        completing := w.completing ++ [(serial, ec)]
        succeeded := if ec.isNone then w.succeeded ++ [serial] else w.succeeded }
  | replace : Step w w.abort.replace
  | close (opened : w.closed = false) : Step w (({ w.abort with
      closed := true, inFlight := none, writing := false
      calls := (w.inFlight.toList.flatMap fun item : WriteItem H => item.answer (some .operationAborted)) ++ w.calls
      }).fail .operationAborted)
  | reopen : Step w { w with closed := false }

@[simp] theorem started_abort (w : WriteQueue H) : w.abort.started = w.started := rfl

@[simp] theorem started_replace (w : WriteQueue H) : w.replace.started = w.started := by
  simp [started, wires, replace]

@[simp] theorem started_transmit (w : WriteQueue H) (bytes : Bytes) :
    (w.transmit bytes).started = w.started := by
  simp [started, wires, transmit]

@[simp] theorem started_start (w : WriteQueue H) (item : WriteItem H) (rest : List (WriteItem H)) :
    (w.start item rest).started = w.started ++ [item.frame] := by
  simp [started, wires, start]

@[simp] theorem started_fail (w : WriteQueue H) (ec : AsioError) : (w.fail ec).started = w.started := rfl

/-! ### Order -/

/-- Items are numbered as they are submitted, and go out in that order. -/
structure Ordered (w : WriteQueue H) : Prop where
  numbered : w.submitted.map WriteItem.serial = List.range w.nextSerial
  order : (w.started ++ (w.queue ++ w.posted).map WriteItem.frame).Sublist
    (w.submitted.map WriteItem.frame)

theorem Ordered.kick {w v : WriteQueue H} (kick : Kick w v) (h : Ordered w) : Ordered v := by
  cases kick with
  | rest => exact h
  | defer => exact ⟨h.numbered, h.order⟩
  | start item rest _ _ front =>
    have order := h.order
    rw [front] at order
    refine ⟨h.numbered, ?_⟩
    rw [started_start]
    simpa [start] using order

theorem Ordered.fail {w : WriteQueue H} (ec : AsioError) (h : Ordered w) : Ordered (w.fail ec) := by
  refine ⟨h.numbered, .trans ?_ h.order⟩
  rw [started_fail]
  simp [WriteQueue.fail]

theorem Ordered.accept {w : WriteQueue H} (h : Ordered w) {item : WriteItem H} {rest : List (WriteItem H)}
    (front : w.posted = item :: rest) : Ordered (w.accept item rest) := by
  refine ⟨h.numbered, ?_⟩
  change (w.started ++ (w.queue ++ [item] ++ rest).map _).Sublist (w.submitted.map _)
  simpa [front] using h.order

theorem Ordered.step {w v : WriteQueue H} (h : Ordered w) (step : Step w v) : Ordered v := by
  have ⟨numbered, order⟩ := h
  cases step with
  | submit item number =>
    refine ⟨by simp [List.range_succ, numbered, number], ?_⟩
    change (w.started ++ (w.queue ++ (w.posted ++ [item])).map _).Sublist ((w.submitted ++ [item]).map _)
    simpa using order.append_right [item.frame]
  | accept item rest front _ _ kick => exact .kick kick (h.accept front)
  | reject item rest front =>
    refine ⟨numbered, .trans ?_ order⟩
    change (w.started ++ (w.queue ++ rest).map _).Sublist _
    simp [front]
  | replace =>
    refine ⟨numbered, ?_⟩
    rw [started_replace]
    exact order
  | settle rest _ kick => exact .kick kick ⟨numbered, order⟩
  | fail ec rest =>
    refine .fail ec ?_
    exact ⟨numbered, order⟩
  | collapse ec rest =>
    refine .fail ec ?_
    exact ⟨numbered, order⟩
  | close =>
    refine .fail _ ?_
    exact ⟨numbered, order⟩
  | send => exact ⟨numbered, (started_transmit w _).symm ▸ order⟩
  | _ => exact ⟨numbered, order⟩

/-- No serial is in two places among the started, queued and posted items. -/
theorem Ordered.fresh {w : WriteQueue H} (h : Ordered w) :
    ((w.started ++ (w.queue ++ w.posted).map WriteItem.frame).map Prod.fst).Nodup := by
  have numbers : (w.submitted.map WriteItem.frame).map Prod.fst = List.range w.nextSerial := by
    rw [← h.numbered, List.map_map]
    rfl
  exact (numbers ▸ h.order.map Prod.fst).nodup List.nodup_range

/-! ### One write at a time -/

/-- `writing` says whether an item is in flight, and no other item's write is outstanding. -/
structure Paired (w : WriteQueue H) : Prop where
  paired : w.writing = w.inFlight.isSome
  held : (w.outstanding.map Prod.fst).Sublist (w.inFlight.toList.map WriteItem.serial)
  live : w.live.Nodup
  old : ∀ serial ∈ w.live, serial ∈ w.started.map Prod.fst
  stopped : w.closed = true → w.queue = [] ∧ w.inFlight = none
  single : w.settling.length ≤ 1
  landed : w.settling ≠ [] → w.inFlight = none

theorem Paired.idle {w : WriteQueue H} (h : Paired w) (free : w.writing = false) :
    w.inFlight = none ∧ w.outstanding = [] := by
  have landed : w.inFlight = none := by simpa [free] using h.paired.symm
  have held := h.held
  rw [landed] at held
  exact ⟨landed, by simpa using held⟩

theorem Paired.unused {w : WriteQueue H} (h : Paired w) (ordered : Ordered w) {item : WriteItem H}
    {rest : List (WriteItem H)} (front : w.queue = item :: rest) : item.serial ∉ w.live := by
  intro used
  have fresh := ordered.fresh
  rw [List.map_append, List.nodup_append] at fresh
  refine fresh.2.2 _ (h.old _ used) item.serial ?_ rfl
  simp [front, WriteItem.frame]

theorem Paired.kick {w v : WriteQueue H} (kick : Kick w v) (h : Paired w) (ordered : Ordered w)
    (settled : w.settling = []) : Paired v := by
  cases kick with
  | rest => exact h
  | defer => exact ⟨h.paired, h.held, h.live, h.old, h.stopped, h.single, h.landed⟩
  | start item rest free _ front =>
    obtain ⟨landed, none⟩ := h.idle free
    have live : (w.start item rest).live = item.serial :: w.live := by
      simp [WriteQueue.live, start, none, WriteItem.frame]
    refine ⟨rfl, ?_, ?_, ?_, ?_, h.single, fun waits => absurd settled waits⟩
    · simp [start, none, WriteItem.frame]
    · rw [live]
      exact List.nodup_cons.mpr ⟨h.unused ordered front, h.live⟩
    · intro serial among
      rw [live, List.mem_cons] at among
      rw [started_start, List.map_append, List.mem_append]
      rcases among with rfl | among
      · exact .inr (by simp [WriteItem.frame])
      · exact .inl (h.old _ among)
    · intro shut
      simp [(h.stopped shut).1] at front

theorem Paired.fail {w : WriteQueue H} (ec : AsioError) (h : Paired w) (landed : w.inFlight = none) :
    Paired (w.fail ec) := by
  refine ⟨?_, h.held, h.live, h.old, fun _ => ⟨rfl, landed⟩, h.single, h.landed⟩
  change false = w.inFlight.isSome
  rw [landed]
  rfl

@[simp] theorem live_abort (w : WriteQueue H) :
    w.abort.live = w.completing.map Prod.fst ++ w.outstanding.map Prod.fst := by
  simp [live, abort]

theorem Paired.abort {w : WriteQueue H} (h : Paired w) : Paired w.abort := by
  have moved : w.abort.live.Perm w.live := live_abort w ▸ List.perm_append_comm
  refine ⟨h.paired, List.nil_sublist _, moved.nodup_iff.mpr h.live, ?_, h.stopped, h.single, h.landed⟩
  exact fun serial among => h.old serial (moved.mem_iff.mp among)

/-- The write of the item in flight is the one that completed, so none is outstanding. -/
theorem Paired.landing {w : WriteQueue H} (h : Paired w) {item : WriteItem H} {ec : ErrorCode}
    {rest : List (Nat × ErrorCode)} (front : w.completing = (item.serial, ec) :: rest)
    (flying : w.inFlight = some item) : w.outstanding = [] := by
  have held := h.held
  have live := h.live
  rw [flying] at held
  simp only [WriteQueue.live, front, List.map_cons] at live
  rcases List.sublist_singleton.mp held with none | one
  · simpa using none
  · simp [one] at live

theorem Paired.accept {w : WriteQueue H} (h : Paired w) (opened : w.closed = false)
    (item : WriteItem H) (rest : List (WriteItem H)) : Paired (w.accept item rest) := by
  refine ⟨h.paired, h.held, h.live, h.old, ?_, h.single, h.landed⟩
  simp [WriteQueue.accept, opened]

theorem Paired.settle {w : WriteQueue H} (h : Paired w) {ec : ErrorCode} {rest : List ErrorCode}
    (front : w.settling = ec :: rest) : rest = [] ∧ Paired { w with settling := rest } := by
  have settled : rest = [] := by simpa [front] using h.single
  subst settled
  exact ⟨rfl, h.paired, h.held, h.live, h.old, h.stopped, Nat.zero_le 1, nofun⟩

theorem Paired.step {w v : WriteQueue H} (h : Paired w) (ordered : Ordered w) (step : Step w v) :
    Paired v := by
  have ⟨paired, held, live, old, stopped, single, landed⟩ := h
  cases step with
  | accept item rest front opened settled kick =>
    exact .kick kick (h.accept opened item rest) (ordered.accept front) settled
  | fail ec rest _ none =>
    refine .fail ec ?_ none
    exact ⟨paired, held, live, old, stopped, single, landed⟩
  | stale c rest front =>
    have fewer : (w.outstanding.map Prod.fst ++ rest.map Prod.fst).Sublist w.live := by
      simp [WriteQueue.live, front]
    exact ⟨paired, held, fewer.nodup live, fun serial among => old serial (fewer.subset among),
      stopped, single, landed⟩
  | finish item ec rest front flying =>
    have fewer : (w.outstanding.map Prod.fst ++ rest.map Prod.fst).Sublist w.live := by
      simp [WriteQueue.live, front]
    refine ⟨rfl, ?_, fewer.nodup live, fun serial among => old serial (fewer.subset among), ?_,
      Nat.le_refl 1, fun _ => rfl⟩
    · simp [WriteQueue.finish, h.landing front flying]
    · exact fun shut => ⟨(stopped shut).1, rfl⟩
  | settle rest front kick =>
    have ⟨settled, kept⟩ := h.settle front
    exact .kick kick kept ⟨ordered.numbered, ordered.order⟩ settled
  | collapse ec rest front =>
    exact .fail ec (h.abort.settle front).2 (landed (by simp [front]))
  | send serial unsent count xs ys flying =>
    have same : (xs ++ (serial, unsent.drop count) :: ys).map Prod.fst = w.outstanding.map Prod.fst := by
      simp [flying]
    have kept : ∀ x, x ∈ (w.transmit (unsent.take count)).started.map Prod.fst ↔
        x ∈ w.started.map Prod.fst := by simp
    refine ⟨paired, same ▸ held, ?_, fun x among => (kept x).mpr (old x ?_), stopped, single, landed⟩
    · change (_ ++ w.completing.map Prod.fst).Nodup
      exact same ▸ live
    · change x ∈ _ ++ w.completing.map Prod.fst at among
      rwa [same] at among
  | complete serial unsent ec xs ys flying =>
    have moved : ((xs ++ ys).map Prod.fst ++ (w.completing ++ [(serial, ec)]).map Prod.fst).Perm w.live := by
      rw [List.perm_iff_count]
      intro x
      simp only [WriteQueue.live, flying, List.map_append, List.map_cons, List.map_nil, List.count_append,
        List.count_cons, List.count_nil]
      omega
    refine ⟨paired, .trans ?_ held, moved.nodup_iff.mpr live, fun x among => old x (moved.mem_iff.mp among),
      stopped, single, landed⟩
    simp [flying]
  | replace =>
    have ⟨paired, held, live, old, stopped, single, landed⟩ := h.abort
    exact ⟨paired, held, live, fun x among => (started_replace w.abort).symm ▸ old x among,
      stopped, single, landed⟩
  | close =>
    have ⟨_, _, live, old, _, single, _⟩ := h.abort
    exact ⟨rfl, List.nil_sublist _, live, old, fun _ => ⟨rfl, rfl⟩, single, fun _ => rfl⟩
  | reopen => exact ⟨paired, held, live, old, nofun, single, landed⟩
  | _ => exact ⟨paired, held, live, old, stopped, single, landed⟩

theorem Paired.alone {w : WriteQueue H} (h : Paired w) {serial : Nat} {unsent : Bytes}
    {xs ys : List (Nat × Bytes)} (flying : w.outstanding = xs ++ (serial, unsent) :: ys) :
    xs = [] ∧ ys = [] ∧ ∃ item, w.inFlight = some item ∧ item.serial = serial := by
  have held := h.held
  rw [flying] at held
  have short := held.length_le
  cases landed : w.inFlight with
  | none => simp [landed] at short
  | some item =>
    have few : xs = [] ∧ ys = [] := by
      simp [landed] at short
      exact ⟨List.length_eq_zero_iff.mp (by omega), List.length_eq_zero_iff.mp (by omega)⟩
    refine ⟨few.1, few.2, item, rfl, ?_⟩
    simpa [few.1, few.2, landed, eq_comm] using held

/-! ### The bytes of one socket -/

/-- What a socket has sent of its frames: all of them, unless the last is being sent, or was
broken off and the socket is about to be closed. -/
structure OnWire (w : WriteQueue H) : Prop where
  prefixes : ∀ x ∈ w.wires, x.sent <+: x.bytes
  progress : ∀ o ∈ w.outstanding, w.wire.sent ++ o.2 = w.wire.bytes
  complete : ∀ item, w.inFlight = some item → (item.serial, none) ∈ w.completing →
    w.wire.sent = w.wire.bytes
  whole : w.inFlight = none → w.isOpen = true → w.settling = [] ∨ w.settling = [none] →
    w.wire.sent = w.wire.bytes

theorem OnWire.kick {w v : WriteQueue H} (kick : Kick w v) (h : OnWire w) (pairedWrites : Paired w)
    (ordered : Ordered w) (settled : w.settling = []) : OnWire v := by
  cases kick with
  | rest => exact h
  | defer => exact ⟨h.prefixes, h.progress, h.complete, h.whole⟩
  | start item rest free opened front =>
    obtain ⟨landed, none⟩ := pairedWrites.idle free
    have sent := h.whole landed opened (.inl settled)
    have bytes : (w.start item rest).wire.bytes = w.wire.bytes ++ item.buffer := by
      simp [start, Wire.bytes, WriteItem.frame]
    refine ⟨?_, ?_, ?_, nofun⟩
    · intro x among
      rcases List.mem_append.mp among with earlier | last
      · exact h.prefixes x (List.mem_append_left _ earlier)
      · obtain rfl := List.mem_singleton.mp last
        rw [bytes, ← sent]
        exact List.prefix_append _ _
    · intro o among
      simp only [start, none, List.nil_append, List.mem_singleton] at among
      rw [bytes, among, ← sent]
      rfl
    · intro other flying completed
      obtain rfl : item = other := by simpa [start] using flying
      exact absurd (List.mem_append_right _ (List.mem_map_of_mem completed)) (pairedWrites.unused ordered front)

theorem OnWire.abort {w : WriteQueue H} (h : OnWire w) : OnWire w.abort := by
  refine ⟨h.prefixes, nofun, ?_, nofun⟩
  intro item flying completed
  refine h.complete item flying ?_
  simpa [WriteQueue.abort] using completed

theorem OnWire.step {w v : WriteQueue H} (h : OnWire w) (pairedWrites : Paired w) (ordered : Ordered w)
    (step : Step w v) : OnWire v := by
  have ⟨prefixes, progress, complete, whole⟩ := h
  cases step with
  | accept item rest front opened settled kick =>
    refine .kick kick ?_ (pairedWrites.accept opened item rest) (ordered.accept front) settled
    exact ⟨prefixes, progress, complete, whole⟩
  | stale c rest front =>
    refine ⟨prefixes, progress, fun item flying completed => complete item flying ?_, whole⟩
    exact front ▸ List.mem_cons_of_mem c completed
  | finish item ec rest front flying =>
    refine ⟨prefixes, progress, nofun, fun _ _ settled => ?_⟩
    obtain rfl : ec = none := by simpa using settled
    exact complete item flying (front ▸ List.mem_cons_self)
  | settle rest front kick =>
    have ⟨settled, kept⟩ := pairedWrites.settle front
    refine .kick kick ?_ kept ⟨ordered.numbered, ordered.order⟩ settled
    exact ⟨prefixes, progress, complete, fun landed opened _ => whole landed opened (.inr (settled ▸ front))⟩
  | collapse ec rest front =>
    have ⟨prefixes, progress, complete, _⟩ := h.abort
    exact ⟨prefixes, progress, complete, nofun⟩
  | send serial unsent count xs ys flying =>
    obtain ⟨rfl, rfl, item, held, rfl⟩ := pairedWrites.alone flying
    have bytes : w.wire.sent ++ unsent = w.wire.bytes := progress (item.serial, unsent) (by simp [flying])
    have split : w.wire.sent ++ unsent.take count ++ unsent.drop count = w.wire.bytes := by
      rw [List.append_assoc, List.take_append_drop, bytes]
    refine ⟨?_, ?_, ?_, ?_⟩
    · intro x among
      rcases List.mem_append.mp among with earlier | last
      · exact prefixes x (List.mem_append_left _ earlier)
      · obtain rfl := List.mem_singleton.mp last
        exact ⟨_, split⟩
    · intro o among
      obtain rfl := List.mem_singleton.mp among
      exact split
    · intro other same completed
      obtain rfl : item = other := Option.some.inj (held.symm.trans same)
      have live := pairedWrites.live
      rw [WriteQueue.live, flying, List.nodup_append] at live
      exact absurd rfl (live.2.2 item.serial (by simp) _ (List.mem_map_of_mem completed))
    · intro landed
      exact absurd (held.symm.trans landed) nofun
  | complete serial unsent ec xs ys flying empty =>
    refine ⟨prefixes, fun o among => progress o ?_, ?_, whole⟩
    · rw [flying]
      exact (List.sublist_cons_self _ _).append_left xs |>.subset among
    · intro item held completed
      rcases List.mem_append.mp completed with earlier | last
      · exact complete item held earlier
      · have same : item.serial = serial ∧ none = ec := by simpa using last
        have bytes := progress (serial, unsent) (by simp [flying])
        simpa [empty same.2.symm] using bytes
  | replace =>
    refine ⟨?_, nofun, fun _ _ _ => rfl, fun _ _ _ => rfl⟩
    intro x among
    rcases List.mem_append.mp among with earlier | last
    · exact prefixes x earlier
    · obtain rfl := List.mem_singleton.mp last
      exact List.prefix_refl _
  | close => exact ⟨prefixes, nofun, nofun, nofun⟩
  | _ => exact ⟨prefixes, progress, complete, whole⟩

end WriteQueue

end LiteMqtt
