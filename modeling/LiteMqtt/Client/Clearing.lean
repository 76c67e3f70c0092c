import LiteMqtt.Client.Acceptance

/-!
# The maps are about to be cleared

`notify_closed_once` sets `closed_` and then works off the pending publishes. Until it clears the maps
its loop stays on the stack, whatever the callbacks do that it calls.
-/

namespace LiteMqtt

/-- A CONNACK that refuses the session. -/
def isRefusal (data : Bytes) : Bool := isConnack data && (ConnackPacket.parse data).returnCode != 0

namespace Sys

variable {s t u : Sys} {p q : UInt16}

/-- Running code of `notify_closed_once` before the maps are cleared. -/
def clears : Work → Bool
  | .publishEach _ | .publishCancel _ | .publishClear => true
  | _ => false

def Clearing (s : Sys) : Prop := ∃ k ∈ s.net.running, clears k = true

/-- `handle_packet` is called with a CONNACK that refuses the session. -/
def refuses (s : Sys) (a : Action) : Bool := (s.dispatched a).any isRefusal

theorem clearing_pushed (k : Work) (front : clears k = true) : (s.push [k]).Clearing := ⟨k, List.mem_cons_self, front⟩

theorem clearing_retains (retains : Retains s t) (clearing : s.Clearing) : t.Clearing := by
  obtain ⟨k, among, front⟩ := clearing
  exact ⟨k, retains.running k among, front⟩

/-! ### The loop -/

theorem notifyClosedOnce_clears (live : s.closed = false) : s.notifyClosedOnce.Clearing := by
  unfold notifyClosedOnce
  rw [if_neg (by simp [live])]
  dsimp only
  split
  · exact clearing_pushed _ rfl
  · exact clearing_pushed _ rfl

theorem publishEach_clears (defined : (s.publishEach q).undefined = false) : (s.publishEach q).Clearing := by
  unfold publishEach at defined ⊢
  split
  · rename_i absent
    simp [absent, crash] at defined
  · rename_i entry _
    have told : Does [.publish] _ _ := does_tellPublish (s.push [.publishCancel q]) entry.callback false entry.topic
      entry.qos q (.head _)
    exact clearing_retains (retains_does told) (clearing_pushed (.publishCancel q) rfl)

theorem publishCancel_clears (defined : (s.publishCancel q).undefined = false) : (s.publishCancel q).Clearing := by
  unfold publishCancel at defined ⊢
  split
  · rename_i absent
    simp [absent, crash] at defined
  · split
    · exact clearing_pushed _ rfl
    · exact clearing_pushed _ rfl

theorem publishClear_empty (s : Sys) :
    s.publishClear.pendingPublishes = .empty ∧ s.publishClear.pendingPubrecs = .empty := by
  unfold publishClear
  dsimp only
  split <;> exact ⟨rfl, rfl⟩

/-! ### What leaves the stack -/

/-- Only the entry that runs leaves the stack. -/
theorem running_step {a : Action} {k : Work} (taken : s.step a = some t) (among : k ∈ s.net.running) :
    k ∈ t.net.running ∨ ∃ rest, s.net.stack = .own k :: rest ∧
      (k = .user ∨ a = .exec ∧ t = (s.goesOn rest).execute k) := by
  cases (steps taken).2 with
  | run n ran =>
    obtain ⟨idle, -⟩ := Net.run_cases ran
    rw [Net.running, idle] at among
    exact absurd among List.not_mem_nil
  | work j rest front busy =>
    rcases goesOn_runs front among with rfl | later
    · exact .inr ⟨rest, front, .inr ⟨rfl, rfl⟩⟩
    · exact .inl ((retains_does (does_execute (s.goesOn rest) j)).running k later)
  | invoke call rest front =>
    exact .inl (((goesOn_invoke front).trans (retains_does (does_onInvoke _ call))).running k among)
  | afterWrite ec rest front =>
    refine .inl ?_
    show k ∈ ((s.goesOn rest).net.afterWrite ec).running
    rw [(Net.tame_afterWrite (s.goesOn rest).net ec).running]
    rwa [Net.running, front] at among
  | closeHandler rest front =>
    rw [Net.running, front] at among
    exact .inl (by simpa [Net.running, Net.push, goesOn, List.filterMap_append, StackEntry.own?] using among)
  | ret rest front =>
    rcases goesOn_runs front among with rfl | later
    · exact .inr ⟨rest, front, .inl rfl⟩
    · exact .inl later
  | call c allowed => exact .inl ((retains_does (does_call s c)).running k among)
  | kernel event n moved => exact .inl ((Net.tame_kernel moved).running ▸ among)
  | expire index w waiting due => exact .inl among
  | advance ms => exact .inl among

/-- The loop goes on until the maps are cleared. -/
theorem clearing_step {a : Action} (taken : s.step a = some t) (defined : t.undefined = false) (clearing : s.Clearing) :
    t.Clearing ∨ t.pendingPublishes = .empty ∧ t.pendingPubrecs = .empty := by
  obtain ⟨k, among, front⟩ := clearing
  rcases running_step taken among with kept | ⟨rest, -, rfl | ⟨-, rfl⟩⟩
  · exact .inl ⟨k, kept, front⟩
  · contradiction
  · cases k with
    | publishEach q => exact .inl (publishEach_clears (s := s.goesOn rest) defined)
    | publishCancel q => exact .inl (publishCancel_clears (s := s.goesOn rest) defined)
    | publishClear => exact .inr (publishClear_empty (s.goesOn rest))
    | _ => contradiction

/-! ### How a session is marked closed -/

theorem live_does {topics : List Topic} (does : Does topics s t)
    (few : topics ⊆ [.connect, .publish, .subscribe, .loop, .packet, .settings, .crash]) (live : s.closed = false) :
    t.closed = false := by
  refine (does.mono few).keeps (I := fun u => u.closed = false) (fun u e inside before => ?_) live
  by_contra shut
  have closed := (closed_apply inside (by simpa using shut)).1
  exact absurd (closed.symm.trans before) nofun

theorem live_handlePacket {attempt : Nat} {data : Bytes} (live : s.closed = false)
    (shut : (s.handlePacket attempt data).closed = true) : isRefusal data = true := by
  have does := does_handlePacket s attempt data
  cases data with
  | nil => exact absurd (live.symm.trans shut) nofun
  | cons byte rest =>
    unfold packetTopics at does
    unfold handlePacket at does shut
    dsimp only at does shut
    cases type : PacketType.ofUint8 (byte >>> 4) <;> simp only [type] at does shut
    case connack =>
      have refused : (ConnackPacket.parse (byte :: rest)).returnCode ≠ 0 := by
        intro zero
        unfold handleConnack at shut
        simp only [zero] at shut
        contradiction
      simp [isRefusal, isConnack, type, refused]
    all_goals exact absurd ((live_does does (by decide) live).symm.trans shut) nofun

/-- `notify_closed_once`, the connect timer and a CONNACK that refuses the session set `closed_`. -/
theorem shut_step {a : Action} (taken : s.step a = some t) (live : s.closed = false) (shut : t.closed = true) :
    (∃ rest, s.net.stack = .own .notifyClosedOnce :: rest ∧ t = (s.goesOn rest).notifyClosedOnce) ∨
      (∃ attempt rest, a = .exec ∧ s.net.stack = .own (.timer (.connectTimeout attempt) none) :: rest) ∨
        s.refuses a = true := by
  have stays : ∀ {v : Sys} {topics : List Topic}, v.closed = false → Does topics v t →
      topics ⊆ [.connect, .publish, .subscribe, .loop, .packet, .settings, .crash] → False :=
    fun before does few => absurd ((live_does does few before).symm.trans shut) nofun
  cases (steps taken).2 with
  | work k rest front busy =>
    have does := does_execute (s.goesOn rest) k
    cases k with
    | notifyClosedOnce => exact .inl ⟨rest, front, rfl⟩
    | timer h ec =>
      cases h with
      | connectTimeout attempt =>
        cases ec with
        | none => exact .inr (.inl ⟨attempt, rest, rfl, front⟩)
        | some ec => exact absurd (live.symm.trans shut) nofun
      | _ => exact (stays (v := s.goesOn rest) live does (by simp [workTopics, timerTopics])).elim
    | handlePacket attempt data =>
      have refusal := live_handlePacket (s := s.goesOn rest) live shut
      exact .inr (.inr (by simp [refuses, dispatched, front, refusal]))
    | _ => exact (stays (v := s.goesOn rest) live does (by simp [workTopics])).elim
  | invoke call rest front =>
    refine (stays (v := { s with net := (s.goesOn rest).net.recordCall call }) live (does_onInvoke _ call) ?_).elim
    exact List.Subset.trans (invocationTopics_few call) (by decide)
  | call c allowed =>
    have does := does_call s c
    cases c with
    | handlePacket data =>
      have refusal := live_handlePacket live shut
      exact .inr (.inr (by simp [refuses, dispatched, refusal]))
    | _ => exact (stays live does (by simp [callTopics])).elim
  | _ => exact absurd (live.symm.trans shut) nofun

end Sys
end LiteMqtt
