import LiteMqtt.Client.Clearing
import LiteMqtt.Client.Clocks

/-!
# Publishes without a timer

A PUBREC hands a publish over from its own timer to that of its PUBREL. The PUBREL is dropped without a
word when its write fails, and given up when its retries run out: `notify_closed_once` then reports the
publish, but not if `closed_` is set already. Nobody takes the publish back.
-/

namespace LiteMqtt
namespace Sys

open Clock

/-- No task is running, and the session is up. -/
structure Healthy (s : Sys) : Prop where
  defined : s.undefined = false
  closed : s.closed = false
  connected : s.net.state = .connected
  isOpen : s.net.socket.isOpen = true
  quiet : s.net.stack = []

/-- A wait of `h` on this timer is outstanding, or has expired and is queued. -/
def Waits (s : Sys) (h : TimerHandler) (timer : Nat) : Prop :=
  (∃ w ∈ s.waits, w.timer = timer ∧ w.handler = h) ∨ .timer h none ∈ s.net.posted

/-- The retry timer of a pending publish waits, or that of its PUBREL. -/
def MovesOn (s : Sys) (p : UInt16) (entry : PendingPublish) : Prop :=
  s.Waits (.publishRetry p) entry.timer ∨
    ∃ pubrec, s.pendingPubrecs.find? p = some pubrec ∧ s.Waits (.pubrecRetry p) pubrec.timer

/-- The exchange whose PUBREL the step drops after its write has failed, or gives up although `closed_` is
set. -/
def dropping (s : Sys) : Action → Option UInt16
  | .exec =>
      match s.net.stack with
      | .invoke (.write _ (.pubrel p) (some _)) :: _ => some p
      | .own (.timer (.pubrecRetry p) none) :: _ =>
          if s.closed && (s.pendingPubrecs.find? p).any (fun entry => decide (3 ≤ entry.attempts)) then some p else none
      | _ => none
  | _ => none

/-- A wait of `h` is outstanding, or has expired and is still to be handled. -/
def ticks (s : Sys) (h : TimerHandler) : Bool :=
  s.waits.any (·.handler == h) || s.net.posted.contains (.timer h none) || s.net.running.contains (.timer h none)

def tended (s : Sys) (p : UInt16) : Bool :=
  s.ticks (.publishRetry p) || s.pendingPubrecs.contains p && s.ticks (.pubrecRetry p)

end Sys

/-- A client with its pending publishes whose PUBREL was dropped or given up, and for which no timer was
armed since. -/
structure Watched where
  sys : Sys := {}
  dropped : List UInt16 := []

namespace Watched

def step (w : Watched) (a : Sys.Action) : Option Watched :=
  (w.sys.step a).map fun t =>
    { sys := t
      dropped := ((w.sys.dropping a).toList ++ w.dropped).filter fun p => t.pendingPublishes.contains p && !t.tended p }

/-- In a healthy session every pending publish moves on exactly if no PUBREL of one was dropped. -/
def Cared (w : Watched) : Prop :=
  w.sys.Healthy → ((∀ p entry, w.sys.pendingPublishes.find? p = some entry → w.sys.MovesOn p entry) ↔ w.dropped = [])

end Watched

namespace Sys

open Clock

variable {s t u : Sys} {p q : UInt16} {h : TimerHandler}

theorem ticks_iff : s.ticks h = true ↔
    s.clock.Rings h ∨ .timer h none ∈ s.net.posted ∨ .timer h none ∈ s.net.running := by
  simp [ticks, Rings, clock, or_assoc]

theorem tended_iff : s.tended p = true ↔ s.ticks (.publishRetry p) = true ∨
    s.pendingPubrecs.contains p = true ∧ s.ticks (.pubrecRetry p) = true := by
  simp [tended]

theorem ticks_retains (retains : Retains s t) (rings : s.clock.Rings h → t.clock.Rings h) (before : s.ticks h = true) :
    t.ticks h = true := by
  rw [ticks_iff] at before ⊢
  exact before.imp rings (Or.imp (retains.posted _) (retains.running _))

theorem tended_leaves (retains : Retains s t) (leaves : Leaves p s.clock t.clock) (before : s.tended p = true) :
    t.tended p = true := by
  rw [tended_iff] at before ⊢
  exact before.imp (ticks_retains retains leaves.own) fun pubrel =>
    ⟨leaves.pubrec pubrel.1, ticks_retains retains leaves.pubrel pubrel.2⟩

/-! ### Publishes that are about to be reported -/

/-- The running code reports the publish. -/
def Handled (s : Sys) (p : UInt16) : Prop := ∃ k ∈ s.net.running, clears k = true ∨ k = .finishPublishFailure p

/-- `notify_closed_once` runs next, and will go through. -/
def Notifying (s : Sys) : Prop := s.closed = false ∧ s.net.stack.head? = some (.own .notifyClosedOnce)

def Guarded (s : Sys) (p : UInt16) : Prop := s.tended p = true ∨ s.Handled p ∨ s.Notifying

/-- What a step does for a publish that is pending after it. -/
inductive Passes (p : UInt16) (s : Sys) (a : Action) (t : Sys) : Prop where
  | guarded (safe : t.Guarded p)
  | kept (pending : s.pendingPublishes.contains p = true) (same : s.Guarded p → t.Guarded p)
  | dropped (drops : s.dropping a = some p)

theorem handled_of_clearing (clearing : s.Clearing) : s.Handled p := by
  obtain ⟨k, among, clears⟩ := clearing
  exact ⟨k, among, .inl clears⟩

theorem handled_retains (retains : Retains s t) (handled : s.Handled p) : t.Handled p := by
  obtain ⟨k, among, about⟩ := handled
  exact ⟨k, retains.running k among, about⟩

theorem rings_tended (rings : s.clock.Rings (.publishRetry p)) : s.tended p = true :=
  tended_iff.mpr (.inl (ticks_iff.mpr (.inl rings)))

/-- Code that serves the exchange, where nothing that guarded the publish was taken off the stack. -/
theorem passes_fares {a : Action} (fares : Fares p s.clock t.clock) (bound : t.pendingPublishes.contains p = true)
    (retains : Retains s t) (notifying : s.Notifying → t.Guarded p) : Passes p s a t := by
  cases fares with
  | leaves same =>
    refine .kept (same.publish bound) fun before => ?_
    rcases before with tended | handled | next
    · exact .inl (tended_leaves retains same tended)
    · exact .inr (.inl (handled_retains retains handled))
    · exact notifying next
  | rings waits => exact .guarded (.inl (rings_tended waits))
  | pubrel pending waits => exact .guarded (.inl (tended_iff.mpr (.inr ⟨pending, ticks_iff.mpr (.inl waits)⟩)))
  | gone absent => exact absurd (bound.symm.trans absent) nofun

/-! ### Running code -/

theorem guarded_goesOn {k : Work} {rest : List (StackEntry Handler Work)} (front : s.net.stack = .own k :: rest)
    (retry : k ≠ .timer (.publishRetry p) none) (pubrel : k ≠ .timer (.pubrecRetry p) none)
    (clear : clears k = false) (failure : k ≠ .finishPublishFailure p) (notify : ¬ s.Notifying)
    (guarded : s.Guarded p) : (s.goesOn rest).tended p = true ∨ (s.goesOn rest).Handled p := by
  have still : ∀ h, k ≠ .timer h none → s.ticks h = true → (s.goesOn rest).ticks h = true := by
    intro h other before
    rw [ticks_iff] at before ⊢
    refine before.imp id (Or.imp id fun among => ?_)
    exact (goesOn_runs front among).resolve_left fun same => other same.symm
  rcases guarded with tended | ⟨j, among, about⟩ | next
  · rw [tended_iff] at tended
    exact .inl (tended_iff.mpr (tended.imp (still _ retry) fun own => ⟨own.1, still _ pubrel own.2⟩))
  · rcases goesOn_runs front among with rfl | left
    · rcases about with clears | same
      · exact absurd (clear.symm.trans clears) nofun
      · exact absurd same failure
    · exact .inr ⟨j, left, about⟩
  · exact absurd next notify

/-- The retry of a PUBREL waits again, or the session ends, or the PUBREL is given up. -/
theorem onPubrecRetry_goes (pubrel : s.pendingPubrecs.contains p = true) :
    (s.onPubrecRetry p).tended p = true ∨ (s.onPubrecRetry p).Notifying ∨
      s.closed = true ∧ (s.pendingPubrecs.find? p).any (fun entry => decide (3 ≤ entry.attempts)) = true := by
  obtain ⟨entry, held⟩ := Option.isSome_iff_exists.mp pubrel
  simp only [onPubrecRetry, held]
  split
  · rename_i spent
    cases live : s.closed with
    | false => exact .inr (.inl ⟨live, rfl⟩)
    | true => exact .inr (.inr ⟨rfl, by simpa using spent⟩)
  · refine .inl (tended_iff.mpr (.inr ⟨?_, ?_⟩))
    · rw [sendPubrel_pubrecs]
      exact (OrderedMap.contains_insert _ _ _ _).mpr (.inl rfl)
    · exact ticks_iff.mpr (.inl (rings_armPubrecRetryTimer ((OrderedMap.contains_insert _ _ _ _).mpr (.inl rfl))))

theorem notifying_front {k : Work} {rest : List (StackEntry Handler Work)} (front : s.net.stack = .own k :: rest)
    (other : k ≠ .notifyClosedOnce) : ¬ s.Notifying := by
  rintro ⟨-, head⟩
  rw [front] at head
  exact other (StackEntry.own.inj (Option.some.inj head))

theorem passes_publishRetry {a : Action} (bound : (u.onPublishRetry p).pendingPublishes.contains p = true) :
    Passes p s a (u.onPublishRetry p) := by
  by_cases pending : u.pendingPublishes.contains p = true
  · rcases onPublishRetry_goes pending with rings | gives
    · exact .guarded (.inl (rings_tended rings))
    · rw [gives]
      exact .guarded (.inr (.inl ⟨_, List.mem_cons_self .., .inr rfl⟩))
  · have absent : u.pendingPublishes.find? p = none := by simpa [OrderedMap.contains] using pending
    unfold onPublishRetry at bound
    rw [absent] at bound
    exact absurd bound pending

theorem passes_pubrecRetry {rest : List (StackEntry Handler Work)}
    (front : s.net.stack = .own (.timer (.pubrecRetry p) none) :: rest)
    (bound : ((s.goesOn rest).onPubrecRetry p).pendingPublishes.contains p = true) :
    Passes p s .exec ((s.goesOn rest).onPubrecRetry p) := by
  by_cases pubrel : s.pendingPubrecs.contains p = true
  · rcases onPubrecRetry_goes (s := s.goesOn rest) pubrel with tended | next | ⟨closed, spent⟩
    · exact .guarded (.inl tended)
    · exact .guarded (.inr (.inr next))
    · refine .dropped ?_
      have gives : (s.closed && (s.pendingPubrecs.find? p).any fun entry => decide (3 ≤ entry.attempts)) = true :=
        Bool.and_eq_true_iff.mpr ⟨closed, spent⟩
      simp only [dropping, front, gives, if_true]
  · have nothing : s.pendingPubrecs.find? p = none := by simpa [OrderedMap.contains] using pubrel
    have absent : (s.goesOn rest).pendingPubrecs.find? p = none := nothing
    have same : (s.goesOn rest).onPubrecRetry p = s.goesOn rest := by
      unfold onPubrecRetry
      rw [absent]
    rw [same] at bound ⊢
    refine .kept bound fun before => ?_
    rcases before with tended | ⟨k, among, about⟩ | next
    · have own : s.ticks (.publishRetry p) = true :=
        (tended_iff.mp tended).resolve_right fun pubrec => pubrel pubrec.1
      refine .inl (tended_iff.mpr (.inl (ticks_iff.mpr ((ticks_iff.mp own).imp id (Or.imp id fun among => ?_)))))
      exact (goesOn_runs front among).resolve_left (by simp)
    · rcases goesOn_runs front among with rfl | left
      · cases about.resolve_right (by simp)
      · exact .inr (.inl ⟨k, left, about⟩)
    · exact absurd next (notifying_front front (by simp))

theorem passes_work {k : Work} {rest : List (StackEntry Handler Work)} (sound : s.clock.Sound)
    (front : s.net.stack = .own k :: rest) (defined : ((s.goesOn rest).execute k).undefined = false)
    (bound : ((s.goesOn rest).execute k).pendingPublishes.contains p = true) :
    Passes p s .exec ((s.goesOn rest).execute k) := by
  have retains : Retains (s.goesOn rest) ((s.goesOn rest).execute k) := retains_does (does_execute (s.goesOn rest) k)
  -- code that is not about this publish leaves its timers to it
  have other : Leaves p s.clock ((s.goesOn rest).execute k).clock → k ≠ .timer (.publishRetry p) none →
      k ≠ .timer (.pubrecRetry p) none → clears k = false → k ≠ .finishPublishFailure p → ¬ s.Notifying →
      Passes p s .exec ((s.goesOn rest).execute k) := by
    intro same retry pubrel clear failure notify
    refine .kept (same.publish bound) fun before => ?_
    rcases guarded_goesOn front retry pubrel clear failure notify before with tended | handled
    · exact .inl (tended_leaves (s := s.goesOn rest) retains same tended)
    · exact .inr (.inl (handled_retains retains handled))
  have served : k.spoils = none → (Leaves p s.clock ((s.goesOn rest).execute k).clock →
      Passes p s .exec ((s.goesOn rest).execute k)) → Passes p s .exec ((s.goesOn rest).execute k) := by
    intro unspoilt left
    cases (serves_execute (s.goesOn rest) unspoilt sound).2 p with
    | leaves same => exact left same
    | rings waits => exact .guarded (.inl (rings_tended waits))
    | pubrel pending waits => exact .guarded (.inl (tended_iff.mpr (.inr ⟨pending, ticks_iff.mpr (.inl waits)⟩)))
    | gone absent => exact absurd (bound.symm.trans absent) nofun
  cases k with
  | notifyClosedOnce =>
    cases live : s.closed with
    | false => exact .guarded (.inr (.inl (handled_of_clearing (notifyClosedOnce_clears (s := s.goesOn rest) live))))
    | true =>
      exact served rfl fun same => other same nofun nofun rfl nofun fun next => absurd (live.symm.trans next.1) nofun
  | publishEach q =>
    exact .guarded (.inr (.inl (handled_of_clearing (publishEach_clears (s := s.goesOn rest) defined))))
  | publishCancel q =>
    exact .guarded (.inr (.inl (handled_of_clearing (publishCancel_clears (s := s.goesOn rest) defined))))
  | publishClear =>
    have empty : (s.goesOn rest).publishClear.pendingPublishes = .empty := (publishClear_empty _).1
    change (s.goesOn rest).publishClear.pendingPublishes.contains p = true at bound
    rw [empty] at bound
    exact absurd bound nofun
  | finishPublishFailure q =>
    by_cases same : q = p
    · subst same
      exact absurd (bound.symm.trans (gone_finishPublishFailure (s.goesOn rest) q)) nofun
    · exact served rfl fun left => other left nofun nofun rfl (fun here => same (Work.finishPublishFailure.inj here))
        (notifying_front front nofun)
  | timer handler ec =>
    cases ec with
    | some ec =>
      have unspoilt : (Work.timer handler (some ec)).spoils = none := by cases handler <;> rfl
      exact served unspoilt fun left => other left nofun nofun rfl nofun (notifying_front front nofun)
    | none =>
      cases handler with
      | publishRetry q =>
        by_cases same : q = p
        · subst same
          exact passes_publishRetry bound
        · exact served rfl fun left =>
              other left (fun here => same (TimerHandler.publishRetry.inj (Work.timer.inj here).1))
            nofun rfl nofun (notifying_front front nofun)
      | pubrecRetry q =>
        by_cases same : q = p
        · subst same
          exact passes_pubrecRetry front bound
        · have left := (spoils_execute (s.goesOn rest) (k := .timer (.pubrecRetry q) none) rfl sound).2 p (Ne.symm same)
          exact other left nofun (fun here => same (TimerHandler.pubrecRetry.inj (Work.timer.inj here).1)) rfl nofun
            (notifying_front front nofun)
      | _ => exact served rfl fun left => other left nofun nofun rfl nofun (notifying_front front nofun)
  | _ => exact served rfl fun left => other left nofun nofun rfl nofun (notifying_front front nofun)

/-! ### The connection's steps, completions and calls -/

theorem retains_left {n : Net Handler Work} (posted : n.posted = s.net.posted) (running : n.running = s.net.running) :
    Retains s { s with net := n } := retains_same posted running

theorem passes_same {a : Action} (same : t.clock = s.clock) (bound : t.pendingPublishes.contains p = true)
    (retains : Retains s t) (notifying : s.Notifying → t.Notifying) : Passes p s a t := by
  have leaves : Leaves p s.clock t.clock := same ▸ .refl p _
  exact passes_fares (.leaves leaves) bound retains fun next => .inr (.inr (notifying next))

theorem not_notifying {entry : StackEntry Handler Work} {rest : List (StackEntry Handler Work)}
    (front : s.net.stack = entry :: rest) (other : entry ≠ .own .notifyClosedOnce) : ¬ s.Notifying := by
  rintro ⟨-, head⟩
  rw [front] at head
  exact other (Option.some.inj head)

theorem retains_run {n : Net Handler Work} (ran : s.net.run = some n) (ticking : s.ticks h = true) :
    Sys.ticks { s with net := n } h = true := by
  obtain ⟨idle, task, tail, ready, rfl⟩ := Net.run_cases ran
  have posted : s.net.posted = task.own?.toList ++ (s.net.leaving tail).posted := by
    rw [Net.posted, ready, List.filterMap_cons]
    cases task.own? <;> rfl
  have running := (Net.runTask_ran (s.net.leaving tail) task).running
  have quiet : s.net.running = [] := by rw [Net.running, idle]; rfl
  rw [ticks_iff] at ticking ⊢
  rcases ticking with rings | queued | runs
  · exact .inl rings
  · rw [posted] at queued
    rcases List.mem_append.mp queued with first | later
    · exact .inr (.inr (running ▸ List.mem_append_left _ first))
    · exact .inr (.inl ((Net.runTask_posted (s.net.leaving tail) task).symm ▸ later))
  · rw [quiet] at runs
    exact absurd runs List.not_mem_nil

theorem passes_run {n : Net Handler Work} (ran : s.net.run = some n)
    (bound : s.pendingPublishes.contains p = true) : Passes p s .run { s with net := n } := by
  obtain ⟨idle, -⟩ := Net.run_cases ran
  have quiet : s.net.running = [] := by rw [Net.running, idle]; rfl
  refine .kept bound fun before => ?_
  rcases before with tended | ⟨k, among, -⟩ | ⟨-, head⟩
  · rw [tended_iff] at tended
    exact .inl (tended_iff.mpr (tended.imp (retains_run ran) fun own => ⟨own.1, retains_run ran own.2⟩))
  · rw [quiet] at among
    exact absurd among List.not_mem_nil
  · rw [idle] at head
    cases head

theorem passes_expire {index : Nat} {w : Wait} (waiting : s.waits[index]? = some w)
    (bound : s.pendingPublishes.contains p = true) :
    Passes p s (.expire index) (({ s with waits := s.waits.eraseIdx index } : Sys).post (.timer w.handler none)) := by
  have posted : Retains { s with waits := s.waits.eraseIdx index } _ := retains_apply _ (.post (.timer w.handler none))
  have retains : Retains s (({ s with waits := s.waits.eraseIdx index } : Sys).post (.timer w.handler none)) :=
    ⟨posted.posted, posted.running⟩
  have due : .timer w.handler none ∈
      (({ s with waits := s.waits.eraseIdx index } : Sys).post (.timer w.handler none)).net.posted := by
    change _ ∈ (s.net.post (.own _)).posted
    rw [Net.post_posted]
    exact List.mem_append_right _ (List.mem_singleton.mpr rfl)
  have ticking : ∀ h, s.ticks h = true →
      (({ s with waits := s.waits.eraseIdx index } : Sys).post (.timer w.handler none)).ticks h = true := by
    intro h before
    rw [ticks_iff] at before ⊢
    rcases before with ⟨v, among, rfl⟩ | queued | runs
    · by_cases same : v = w
      · exact .inr (.inl (same ▸ due))
      · refine .inl ⟨v, ?_, rfl⟩
        exact (List.mem_eraseIdx_iff_getElem?.mpr (by
          obtain ⟨i, found⟩ := List.mem_iff_getElem?.mp among
          refine ⟨i, ?_, found⟩
          rintro rfl
          exact same (Option.some.inj (found.symm.trans waiting))))
    · exact .inr (.inl (retains.posted _ queued))
    · exact .inr (.inr (retains.running _ runs))
  refine .kept bound fun before => ?_
  rcases before with tended | handled | next
  · rw [tended_iff] at tended
    exact .inl (tended_iff.mpr (tended.imp (ticking _) fun own => ⟨own.1, ticking _ own.2⟩))
  · exact .inr (.inl (handled_retains retains handled))
  · exact .inr (.inr next)

theorem passes_pubrel {q : UInt16} {serial : Nat} {ec : ErrorCode} {rest : List (StackEntry Handler Work)}
    (sound : s.clock.Sound) (front : s.net.stack = .invoke (.write serial (.pubrel q) ec) :: rest)
    (bound : (Sys.onPubrelWritten { s with net := (s.goesOn rest).net.recordCall (.write serial (.pubrel q) ec) } q
      ec).pendingPublishes.contains p = true) : Passes p s .exec
      (Sys.onPubrelWritten { s with net := (s.goesOn rest).net.recordCall (.write serial (.pubrel q) ec) } q ec) := by
  have retains := (goesOn_invoke front).trans (retains_does (does_onInvoke
    { s with net := (s.goesOn rest).net.recordCall (.write serial (.pubrel q) ec) } (.write serial (.pubrel q) ec)))
  have idle : ¬ s.Notifying := not_notifying front nofun
  by_cases same : p = q
  · subst same
    cases ec with
    | some ec =>
      refine .dropped ?_
      simp only [dropping, front]
    | none =>
      have left := (idles_armPubrecRetryTimer
        { s with net := (s.goesOn rest).net.recordCall (.write serial (.pubrel p) none) } p sound).2 p
      exact passes_fares (.leaves left) bound retains fun next => absurd next idle
  · have left := (spoils_onPubrelWritten
      { s with net := (s.goesOn rest).net.recordCall (.write serial (.pubrel q) ec) } q ec sound).2 p same
    exact passes_fares (.leaves left) bound retains fun next => absurd next idle

theorem notifying_call {c : Call} (allowed : s.idle = true ∨ c.anyThread = true) (next : s.Notifying) :
    (s.call c).Notifying := by
  obtain ⟨live, head⟩ := next
  have busy : s.idle = false := by
    unfold idle
    split
    · rename_i none
      rw [none] at head
      contradiction
    · rename_i user
      rw [user] at head
      exact absurd (StackEntry.own.inj (Option.some.inj head)) nofun
    · rfl
  cases c with
  | asyncDisconnect onClosed => exact ⟨live, head⟩
  | asyncPublish => exact ⟨live, head⟩
  | asyncSubscribe => exact ⟨live, head⟩
  | _ => exact absurd (allowed.resolve_left (by simp [busy])) nofun

theorem sound_of_fewer (waits : ∀ w ∈ t.waits, w ∈ s.waits) (publishes : t.pendingPublishes = s.pendingPublishes)
    (pubrecs : t.pendingPubrecs = s.pendingPubrecs) (next : t.nextTimer = s.nextTimer) (sound : s.clock.Sound) :
    t.clock.Sound := by
  have holds : ∀ h timer, t.clock.Holds h timer ↔ s.clock.Holds h timer := fun h timer => by
    unfold Holds clock
    rw [publishes, pubrecs]
  exact ⟨(next ▸ sound.next : 2 ≤ t.nextTimer), fun w among => (holds _ _).mpr (sound.waits w (waits w among)),
    fun h timer retries held => (sound.bounds h timer retries ((holds _ _).mp held)).imp id fun bound =>
      (next ▸ bound : timer < t.nextTimer),
    fun h g timer first second held other =>
      sound.own h g timer first second ((holds _ _).mp held) ((holds _ _).mp other)⟩

theorem sound_step {a : Action} (sound : s.clock.Sound) (taken : s.step a = some t) : t.clock.Sound := by
  cases (steps taken).2 with
  | work k rest front busy =>
    cases about : k.spoils with
    | none => exact (serves_execute (s.goesOn rest) about sound).1
    | some q => exact (spoils_execute (s.goesOn rest) about sound).1
  | invoke call rest front =>
    by_cases pubrel : ∃ serial q ec, call = .write serial (.pubrel q) ec
    · obtain ⟨serial, q, ec, rfl⟩ := pubrel
      exact (spoils_onPubrelWritten { s with net := (s.goesOn rest).net.recordCall _ } q ec sound).1
    · exact (serves_onInvoke { s with net := (s.goesOn rest).net.recordCall call } call
        (fun serial q ec same => pubrel ⟨serial, q, ec, same⟩) sound).1
  | call c allowed => exact (serves_call s c sound).1
  | expire index w waiting due => exact sound_of_fewer (fun _ => List.mem_of_mem_eraseIdx) rfl rfl rfl sound
  | _ => exact sound

theorem passes_step {a : Action} (sound : s.clock.Sound) (taken : s.step a = some t) (defined : t.undefined = false)
    (bound : t.pendingPublishes.contains p = true) : Passes p s a t := by
  cases (steps taken).2 with
  | run n ran => exact passes_run ran bound
  | work k rest front busy => exact passes_work sound front defined bound
  | invoke call rest front =>
    by_cases pubrel : ∃ serial q ec, call = .write serial (.pubrel q) ec
    · obtain ⟨serial, q, ec, rfl⟩ := pubrel
      exact passes_pubrel sound front bound
    · have fares := (serves_onInvoke { s with net := (s.goesOn rest).net.recordCall call } call
        (fun serial q ec same => pubrel ⟨serial, q, ec, same⟩) sound).2 p
      exact passes_fares fares bound ((goesOn_invoke front).trans (retains_does (does_onInvoke _ call)))
        fun next => absurd next (not_notifying front (by simp))
  | afterWrite ec rest front =>
    have running : ((s.goesOn rest).net.afterWrite ec).running = s.net.running := by
      rw [(Net.tame_afterWrite (s.goesOn rest).net ec).running, Net.running, Net.running, front]
      rfl
    exact passes_same rfl bound (retains_left (Net.afterWrite_posted (s.goesOn rest).net ec) running) fun next =>
      absurd next (not_notifying front (by simp))
  | closeHandler rest front =>
    refine passes_same rfl bound (retains_left rfl ?_) fun next => absurd next (not_notifying front (by simp))
    have before : s.net.running = (s.goesOn rest).net.running := by
      rw [Net.running, front]
      rfl
    rw [before]
    simp [Net.running, Net.push, List.filterMap_append, StackEntry.own?]
  | ret rest front =>
    refine .kept bound fun before => ?_
    rcases guarded_goesOn front (by simp) (by simp) rfl (by simp) (not_notifying front (by simp)) before
      with tended | handled
    · exact .inl tended
    · exact .inr (.inl handled)
  | call c allowed =>
    exact passes_fares ((serves_call s c sound).2 p) bound (retains_does (does_call s c)) fun next =>
      .inr (.inr (notifying_call allowed next))
  | kernel event n moved =>
    refine passes_same rfl bound (retains_left (Net.kernel_posted moved) (Net.tame_kernel moved).running) fun next => ?_
    exact ⟨next.1, (congrArg List.head? (Net.kernel_stack moved)).trans next.2⟩
  | expire index w waiting due => exact passes_expire waiting bound
  | advance ms => exact .kept bound id

end Sys

namespace Watched

open Clock

variable {w x : Watched} {p : UInt16}

/-- Every pending publish is guarded, or its PUBREL was dropped. -/
structure Kept (w : Watched) : Prop where
  sound : w.sys.clock.Sound
  guarded : w.sys.undefined = false → ∀ p, w.sys.pendingPublishes.contains p = true → ¬ w.sys.Guarded p → p ∈ w.dropped
  dropped : ∀ p ∈ w.dropped, w.sys.pendingPublishes.contains p = true ∧ w.sys.tended p = false

theorem kept_step {a : Sys.Action} (kept : w.Kept) (taken : w.step a = some x) : x.Kept := by
  obtain ⟨t, moved, rfl⟩ := Option.map_eq_some_iff.mp taken
  refine ⟨Sys.sound_step kept.sound moved, fun defined p bound unguarded => ?_, fun p among => ?_⟩
  · have raw : p ∈ (w.sys.dropping a).toList ++ w.dropped := by
      cases Sys.passes_step kept.sound moved defined bound with
      | guarded safe => exact absurd safe unguarded
      | kept pending same =>
        have before := kept.guarded (Sys.steps moved).1 p pending fun safe => unguarded (same safe)
        exact List.mem_append_right _ before
      | dropped drops => exact List.mem_append_left _ (by simp [drops])
    refine List.mem_filter.mpr ⟨raw, ?_⟩
    have untended : t.tended p = false := Bool.eq_false_iff.mpr fun tended => unguarded (.inl tended)
    simp [bound, untended]
  · have left := (List.mem_filter.mp among).2
    simpa using left

theorem movesOn_iff {s : Sys} {entry : PendingPublish} (sound : s.clock.Sound) (healthy : s.Healthy)
    (held : s.pendingPublishes.find? p = some entry) : s.MovesOn p entry ↔ s.tended p = true := by
  have idle : s.net.running = [] := by rw [Net.running, healthy.quiet]; rfl
  have waits : ∀ h timer, h.retries = true → s.clock.Holds h timer → (s.Waits h timer ↔ s.ticks h = true) := by
    intro h timer retries own
    rw [Sys.ticks_iff, idle]
    constructor
    · rintro (⟨w, among, -, same⟩ | queued)
      · exact .inl ⟨w, among, same⟩
      · exact .inr (.inl queued)
    · rintro (⟨w, among, same⟩ | queued | runs)
      · exact .inl ⟨w, among, holds_unique retries (same ▸ sound.waits w among) own, same⟩
      · exact .inr queued
      · exact absurd runs List.not_mem_nil
  have own : s.clock.Holds (.publishRetry p) entry.timer := ⟨entry, held, rfl⟩
  rw [Sys.MovesOn, Sys.tended_iff, waits _ _ rfl own]
  refine or_congr_right ⟨?_, ?_⟩
  · rintro ⟨pubrec, found, waiting⟩
    have owns : s.clock.Holds (.pubrecRetry p) pubrec.timer := ⟨pubrec, found, rfl⟩
    exact ⟨Option.isSome_iff_exists.mpr ⟨pubrec, found⟩, (waits _ _ rfl owns).mp waiting⟩
  · rintro ⟨pending, ticking⟩
    obtain ⟨pubrec, found⟩ := Option.isSome_iff_exists.mp pending
    have owns : s.clock.Holds (.pubrecRetry p) pubrec.timer := ⟨pubrec, found, rfl⟩
    exact ⟨pubrec, found, (waits _ _ rfl owns).mpr ticking⟩

theorem cared_of_kept (kept : w.Kept) : w.Cared := by
  intro healthy
  have idle : w.sys.net.running = [] := by rw [Net.running, healthy.quiet]; rfl
  constructor
  · intro moves
    refine List.eq_nil_iff_forall_not_mem.mpr fun p among => ?_
    obtain ⟨bound, untended⟩ := kept.dropped p among
    obtain ⟨entry, held⟩ := Option.isSome_iff_exists.mp bound
    cases ((movesOn_iff kept.sound healthy held).mp (moves p entry held)).symm.trans untended
  · intro none p entry held
    rw [movesOn_iff kept.sound healthy held]
    by_contra untended
    have among := kept.guarded healthy.defined p (Option.isSome_iff_exists.mpr ⟨entry, held⟩) (by
      rintro (tended | ⟨k, runs, -⟩ | ⟨-, head⟩)
      · exact untended tended
      · rw [idle] at runs
        exact absurd runs List.not_mem_nil
      · rw [healthy.quiet] at head
        exact absurd head (by simp))
    rw [none] at among
    exact absurd among List.not_mem_nil

/-- In every state of every run: in a healthy session every pending publish has a timer that moves it on,
exactly if there is none whose PUBREL was dropped. -/
theorem publishes_move_on (actions : List Sys.Action) : Runs.Throughout step Cared {} actions :=
  Runs.throughout_of_invariant (I := Kept) (fun _ _ _ => kept_step) (fun _ => cared_of_kept)
    ⟨⟨Nat.le_refl 2, nofun, fun h timer retries held => by
        cases h with
        | publishRetry p | pubrecRetry p => exact absurd held.choose_spec.1 nofun
        | _ => contradiction,
      fun h g timer retries _ held => by
        cases h with
        | publishRetry p | pubrecRetry p => exact absurd held.choose_spec.1 nofun
        | _ => contradiction⟩, fun _ p bound => absurd bound nofun, nofun⟩

end Watched

namespace Sys

/-- A publish of QoS 2 waits for its PUBCOMP when the broker answers with a second CONNACK, which refuses the
session and leaves the pending publishes as they are. -/
def refusedPubrel : List Action :=
  opened ++ publishing 2 ++
    [.kernel (.read 0 (.ok [0x50, 2])), .run, .kernel (.read 0 (.ok [0, 2])), .run, .run, .exec, .exec, .exec, .run,
      .exec, .run, .kernel (.send 1 4), .kernel (.write 1 none), .run, .exec, .exec, .run, .exec] ++
    receive 0x20 2 0 5 ++ [.exec, .exec, .ret, .exec, .run, .run, .exec, .exec]

/-- The retry of the PUBREL is rejected by the closed connection; then the client connects once more. -/
def droppedPubrel : List Action :=
  [.advance 5000, .expire 1, .run, .exec, .run, .run, .exec, .run, .exec] ++ connecting ++ [.run, .exec] ++
    receive 0x20 2 0 0 ++ [.exec, .ret, .exec, .run, .exec]

/-- The next session is healthy, and nothing moves the publish on. -/
theorem publish_orphaned : ¬ ∀ actions s, Runs.exec step {} actions = some s → s.Healthy →
    ∀ p entry, s.pendingPublishes.find? p = some entry → s.MovesOn p entry := by
  intro claimed
  have run : (Runs.exec step ({} : Sys) (refusedPubrel ++ droppedPubrel)).map (fun s =>
      (!s.undefined && !s.closed && s.net.state == .connected && s.net.socket.isOpen && s.net.stack.isEmpty) &&
      (s.pendingPublishes.contains 2 && !s.ticks (.publishRetry 2) && !s.pendingPubrecs.contains 2)) = some true := by
    decide +kernel
  obtain ⟨s, reached, facts⟩ := Runs.exec_of_check run
  simp only [Bool.and_eq_true, Bool.not_eq_true', beq_iff_eq, List.isEmpty_iff] at facts
  obtain ⟨⟨⟨⟨⟨defined, closed⟩, connected⟩, isOpen⟩, quiet⟩, ⟨pending, still⟩, released⟩ := facts
  obtain ⟨entry, held⟩ := Option.isSome_iff_exists.mp pending
  have silent : ¬ s.ticks (.publishRetry 2) = true := by simp [still]
  rw [ticks_iff] at silent
  obtain (⟨w, among, -, same⟩ | queued) | ⟨pubrec, found, -⟩ :=
    claimed _ s reached ⟨defined, closed, connected, isOpen, quiet⟩ 2 entry held
  · exact silent (.inl ⟨w, among, same⟩)
  · exact silent (.inr (.inl queued))
  · exact absurd (Option.isSome_iff_exists.mpr ⟨pubrec, found⟩)
      (by rw [OrderedMap.contains] at released; simp [released])

end Sys
end LiteMqtt
