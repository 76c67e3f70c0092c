import LiteMqtt.Connection.Guarantees

/-!
# Writes that succeed

A write completes without error once the kernel took all of its bytes. Everything that was started on the socket
before it is sent then as well.
-/

namespace LiteMqtt
namespace Wire

variable {x : Wire} {frame : Nat × Bytes}

/-- The socket has sent everything up to this frame. -/
def Carried (x : Wire) (frame : Nat × Bytes) : Prop :=
  ∃ before behind, x.started = before ++ frame :: behind ∧ ((before ++ [frame]).map Prod.snd).flatten <+: x.sent

theorem Carried.sent (carried : x.Carried frame) (more : Bytes) : Carried { x with sent := x.sent ++ more } frame := by
  obtain ⟨before, behind, split, sent⟩ := carried
  exact ⟨before, behind, split, sent.trans (List.prefix_append _ _)⟩

theorem Carried.started (carried : x.Carried frame) (more : List (Nat × Bytes)) :
    Carried { x with started := x.started ++ more } frame := by
  obtain ⟨before, behind, split, sent⟩ := carried
  exact ⟨before, behind ++ more, by simp [split], sent⟩

/-- Of a socket that sent everything, every frame is carried. -/
theorem carried_of_whole (whole : x.sent = x.bytes) (among : frame ∈ x.started) : x.Carried frame := by
  obtain ⟨before, behind, split⟩ := List.append_of_mem among
  refine ⟨before, behind, split, ?_⟩
  rw [whole, bytes, split]
  exact ⟨(behind.map Prod.snd).flatten, by simp⟩

end Wire

namespace WriteQueue

variable {H : Type}

/-- A frame whose write succeeded was sent on its socket. -/
structure Through (w : WriteQueue H) : Prop where
  here : ∀ o ∈ w.outstanding, o.1 ∈ w.wire.started.map Prod.fst
  known : ∀ serial ∈ w.succeeded, serial ∈ w.started.map Prod.fst
  carried : ∀ x ∈ w.wires, ∀ frame ∈ x.started, frame.1 ∈ w.succeeded → x.Carried frame

theorem Through.kick {w v : WriteQueue H} (kick : Kick w v) (h : Through w) (pairedWrites : Paired w)
    (ordered : Ordered w) :
    Through v := by
  cases kick with
  | rest => exact h
  | defer => exact ⟨h.here, h.known, h.carried⟩
  | start item rest free opened front =>
    obtain ⟨-, none⟩ := pairedWrites.idle free
    have fresh : item.serial ∉ w.started.map Prod.fst := by
      have apart := ordered.fresh
      rw [List.map_append, List.nodup_append] at apart
      exact fun used => apart.2.2 _ used item.serial (by simp [front, WriteItem.frame]) rfl
    refine ⟨?_, ?_, ?_⟩
    · intro o among
      simp only [start, none, List.nil_append, List.mem_singleton] at among
      simp [start, among]
    · intro serial among
      rw [started_start, List.map_append]
      exact List.mem_append_left _ (h.known serial among)
    · intro x among frame within succeeded
      rcases List.mem_append.mp among with earlier | last
      · exact h.carried x (List.mem_append_left _ earlier) frame within succeeded
      · obtain rfl := List.mem_singleton.mp last
        rcases List.mem_append.mp within with old | new
        · exact (h.carried w.wire (List.mem_append_right _ List.mem_cons_self) frame old succeeded).started _
        · obtain rfl := List.mem_singleton.mp new
          exact absurd (h.known _ succeeded) fresh

theorem Through.fail {w : WriteQueue H} (ec : AsioError) (h : Through w) : Through (w.fail ec) :=
  ⟨h.here, h.known, h.carried⟩

theorem Through.step {w v : WriteQueue H} (h : Through w) (sound : w.Sound) (step : Step w v) : Through v := by
  obtain ⟨here, known, carried⟩ := h
  have ordered := sound.ordered
  have pairedWrites := sound.pairedWrites
  cases step with
  | accept item rest front opened settled kick =>
    refine .kick kick ?_ (pairedWrites.accept opened item rest) (ordered.accept front)
    exact ⟨here, known, carried⟩
  | settle rest front kick =>
    obtain ⟨settled, kept⟩ := pairedWrites.settle front
    refine .kick kick ?_ kept ⟨ordered.numbered, ordered.order⟩
    exact ⟨here, known, carried⟩
  | fail ec rest => exact .fail ec ⟨here, known, carried⟩
  | collapse ec rest => exact .fail ec ⟨fun _ among => absurd among List.not_mem_nil, known, carried⟩
  | send serial unsent count xs ys flying =>
    refine ⟨?_, ?_, ?_⟩
    · intro o among
      have same : (xs ++ (serial, unsent.drop count) :: ys).map Prod.fst =
        w.outstanding.map Prod.fst := by simp [flying]
      have listed : o.1 ∈ w.outstanding.map Prod.fst := same ▸ List.mem_map_of_mem among
      obtain ⟨p, old, number⟩ := List.mem_map.mp listed
      exact number ▸ here p old
    · exact fun other among => (started_transmit w _).symm ▸ known other among
    · intro x among frame within succeeded
      rcases List.mem_append.mp among with earlier | last
      · exact carried x (List.mem_append_left _ earlier) frame within succeeded
      · obtain rfl := List.mem_singleton.mp last
        exact (carried w.wire (List.mem_append_right _ List.mem_cons_self) frame within succeeded).sent _
  | complete serial unsent ec xs ys flying whole =>
    have out : (serial, unsent) ∈ w.outstanding := flying ▸ List.mem_append_right _ List.mem_cons_self
    have split : ∀ other, other ∈ (if ec.isNone then w.succeeded ++ [serial] else w.succeeded) →
        other ∈ w.succeeded ∨ ec = none ∧ other = serial := by
      intro other among
      cases ec with
      | some ec => exact .inl among
      | none => exact (List.mem_append.mp among).imp id fun new => ⟨rfl, List.mem_singleton.mp new⟩
    refine ⟨fun o among => here o ?_, fun other among => ?_, fun x among frame within succeeded => ?_⟩
    · rw [flying]
      exact (List.sublist_cons_self _ _).append_left xs |>.subset among
    · rcases split other among with old | ⟨-, rfl⟩
      · exact known other old
      · exact pairedWrites.old _ (List.mem_append_left _ (List.mem_map_of_mem out))
    · rcases split frame.1 succeeded with old | ⟨rfl, same⟩
      · exact carried x among frame within old
      rcases List.mem_append.mp among with earlier | last
      · -- The write is of the present socket, and no serial is started on two.
        have apart := ordered.fresh
        rw [started, wires, List.flatMap_append, List.map_append, List.map_append, List.nodup_append] at apart
        have before : frame.1 ∈ (w.past.flatMap Wire.started).map Prod.fst :=
          List.mem_map_of_mem (List.mem_flatMap.mpr ⟨x, earlier, within⟩)
        have now : frame.1 ∈ ([w.wire].flatMap Wire.started).map Prod.fst := by
          rw [same]
          simpa using here _ out
        exact absurd rfl ((List.nodup_append.mp apart.1).2.2 _ before _ now)
      · obtain rfl := List.mem_singleton.mp last
        refine Wire.carried_of_whole ?_ within
        have bytes := sound.onWire.progress _ out
        rwa [whole rfl, List.append_nil] at bytes
  | replace =>
    refine ⟨fun _ among => absurd among List.not_mem_nil, fun serial among => ?_, ?_⟩
    · rw [started_replace]
      exact known serial among
    · intro x among frame within succeeded
      rcases List.mem_append.mp among with earlier | last
      · exact carried x earlier frame within succeeded
      · obtain rfl := List.mem_singleton.mp last
        exact absurd within List.not_mem_nil
  | close => exact ⟨fun _ among => absurd among List.not_mem_nil, known, carried⟩
  | _ => exact ⟨here, known, carried⟩

theorem through_start : Through ({} : WriteQueue H) := ⟨nofun, nofun, by simp [wires]⟩

end WriteQueue

namespace Net

variable {H K : Type}

/-- In every orderly run of a connection, a frame whose write succeeded was sent on its socket, behind everything
that was started before it. -/
theorem through {n : Net H K} (reach : Runs.Reaches step Orderly {} n) : n.writes.Through := by
  have kept := Runs.Reaches.invariant (I := fun n : Net H K => n.writes.Sound ∧ n.writes.Through)
    ⟨WriteQueue.sound_start, WriteQueue.through_start⟩ ?_ reach
  · exact kept.2
  · rintro n a m ⟨sound, through⟩ orderly taken
    rcases step_tracks taken orderly with same | moved
    · exact same ▸ ⟨sound, through⟩
    · exact ⟨sound.step moved, through.step sound moved⟩

end Net
end LiteMqtt
