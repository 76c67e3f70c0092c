import LiteMqtt.General.Runs

/-!
# Log routing

`init_client` copies the helper's log handler to the client that it builds and then puts this client
into `client_`. `set_log_handler` changes the handler of both. `log_handler_mutex_` is held for the copy
and for a whole change, `client_mutex_` for each look at `client_` and for the assignment to it.
-/

namespace LiteMqtt

/-- A client left over from an earlier session, and the one that `init_client` builds. -/
inductive Owned where
  | earlier
  | fresh
  deriving DecidableEq, Repr

inductive Building where
  | configured
  | copied
  | published
  deriving DecidableEq, Repr

inductive Setting (H : Type) where
  | idle
  /-- The helper's own channel has the handler. -/
  | kept (handler : Option H)
  /-- The client was looked up. -/
  | looked (handler : Option H) (client : Option Owned)
  deriving DecidableEq, Repr

/-- One critical section of either thread. An empty handler is `none`. -/
inductive RoutingAction (H : Type) where
  /-- `init_client` copies the handler to the client that nobody else sees yet. -/
  | copy
  /-- `init_client` assigns to `client_`. -/
  | publish
  /-- `set_log_handler` takes `log_handler_mutex_` and sets the helper's own channel. -/
  | setHandler (handler : Option H)
  /-- `lock_client` in `set_log_handler`. -/
  | look
  /-- `set_log_handler` hands the handler on to the client that it found, and returns. -/
  | handOn
  deriving DecidableEq, Repr

/-- `channel` is the handler of the helper's `log_channel_`; `earlier` and `fresh` are those of the two
clients. -/
structure Routing (H : Type) where
  channel : Option H := none
  earlier : Option H := none
  fresh : Option H := none
  client : Option Owned := none
  building : Building := .configured
  setting : Setting H := .idle
  deriving DecidableEq, Repr

namespace Routing

variable {H : Type}

def handlerOf (s : Routing H) : Owned → Option H
  | .earlier => s.earlier
  | .fresh => s.fresh

def install (s : Routing H) (handler : Option H) : Option Owned → Routing H
  | none => s
  | some .earlier => { s with earlier := handler }
  | some .fresh => { s with fresh := handler }

def step (s : Routing H) : RoutingAction H → Option (Routing H)
  | .copy =>
      match s.building, s.setting with
      | .configured, .idle =>
          some { s with building := .copied, fresh := if s.channel.isSome then s.channel else s.fresh }
      | _, _ => none
  | .publish =>
      match s.building with
      | .copied => some { s with building := .published, client := some .fresh }
      | _ => none
  | .setHandler handler =>
      match s.setting with
      | .idle => some { s with channel := handler, setting := .kept handler }
      | _ => none
  | .look =>
      match s.setting with
      | .kept handler => some { s with setting := .looked handler s.client }
      | _ => none
  | .handOn =>
      match s.setting with
      | .looked handler client => some { s.install handler client with setting := .idle }
      | _ => none

/-- Before `start` builds its client. `client_` may still be the client of an earlier session. -/
def ready (channel earlier : Option H) (left : Bool) : Routing H :=
  { channel, earlier, client := if left then some .earlier else none }

def Over (s : Routing H) : Prop := s.building = .published ∧ s.setting = .idle

def Agreed (s : Routing H) : Prop := s.client.map s.handlerOf = some s.channel

def lastSet (handler : Option H) : List (RoutingAction H) → Option H
  | [] => handler
  | .setHandler next :: rest => lastSet next rest
  | _ :: rest => lastSet handler rest

def untilCopy (actions : List (RoutingAction H)) : List (RoutingAction H) :=
  actions.takeWhile fun | .copy => false | _ => true

def fromPublish (actions : List (RoutingAction H)) : List (RoutingAction H) :=
  actions.dropWhile fun | .publish => false | _ => true

/-- Some `set_log_handler` looks the client up when the new one is there, or the handlers that were
set after the copy end with the one that was copied. -/
def Covers (handler : Option H) (actions : List (RoutingAction H)) : Prop :=
  .look ∈ fromPublish actions ∨ lastSet handler (untilCopy actions) = lastSet handler actions

variable {s t : Routing H} {actions : List (RoutingAction H)}

/-! ### The helper's own handler -/

def Held (s : Routing H) : Prop :=
  match s.setting with
  | .idle => True
  | .kept handler => handler = s.channel
  | .looked handler _ => handler = s.channel

theorem install_same (s : Routing H) (handler : Option H) (client : Option Owned) :
    (s.install handler client).channel = s.channel ∧ (s.install handler client).client = s.client ∧
      (s.install handler client).building = s.building := by
  cases client with
  | none => exact ⟨rfl, rfl, rfl⟩
  | some which => cases which <;> exact ⟨rfl, rfl, rfl⟩

inductive Section (s : Routing H) : RoutingAction H → Routing H → Prop where
  | copy (configured : s.building = .configured) (free : s.setting = .idle) :
      Section s .copy { s with building := .copied, fresh := if s.channel.isSome then s.channel else s.fresh }
  | publish (copied : s.building = .copied) :
      Section s .publish { s with building := .published, client := some .fresh }
  | setHandler (handler : Option H) (free : s.setting = .idle) :
      Section s (.setHandler handler) { s with channel := handler, setting := .kept handler }
  | look (handler : Option H) (kept : s.setting = .kept handler) :
      Section s .look { s with setting := .looked handler s.client }
  | handOn (handler : Option H) (client : Option Owned) (looked : s.setting = .looked handler client) :
      Section s .handOn { s.install handler client with setting := .idle }

theorem sections {a : RoutingAction H} (taken : s.step a = some t) : s.Section a t := by
  cases a with
  | copy =>
    simp only [step] at taken
    split at taken
    · obtain rfl := Option.some.inj taken
      exact .copy ‹_› ‹_›
    · contradiction
  | publish =>
    simp only [step] at taken
    split at taken
    · obtain rfl := Option.some.inj taken
      exact .publish ‹_›
    · contradiction
  | setHandler handler =>
    simp only [step] at taken
    split at taken
    · obtain rfl := Option.some.inj taken
      exact .setHandler handler ‹_›
    · contradiction
  | look =>
    simp only [step] at taken
    split at taken
    · obtain rfl := Option.some.inj taken
      exact .look _ ‹_›
    · contradiction
  | handOn =>
    simp only [step] at taken
    split at taken
    · obtain rfl := Option.some.inj taken
      exact .handOn _ _ ‹_›
    · contradiction

theorem held_step {a : RoutingAction H} (held : s.Held) (taken : s.step a = some t) : t.Held := by
  cases sections taken with
  | copy configured free => exact held
  | publish copied => exact held
  | setHandler handler free => rfl
  | look handler kept =>
    unfold Held at held ⊢
    rwa [kept] at held
  | handOn handler client looked => trivial

theorem channel_run (ran : Runs.exec step s actions = some t) : t.channel = lastSet s.channel actions := by
  induction actions generalizing s with
  | nil =>
    obtain rfl := Option.some.inj ran
    rfl
  | cons a rest ih =>
    obtain ⟨m, first, later⟩ := Runs.exec_cons ran
    rw [ih later]
    cases sections first with
    | handOn handler client looked => exact congrArg (lastSet · rest) (install_same s handler client).1
    | _ => rfl

/-! ### Once the new client is there -/

structure Reached (s : Routing H) : Prop where
  held : s.Held
  fresh : s.client = some .fresh
  idle : s.setting = .idle → s.fresh = s.channel
  looked : ∀ handler client, s.setting = .looked handler client → client = some .fresh

theorem reached_step {a : RoutingAction H} (reached : s.Reached) (taken : s.step a = some t) : t.Reached := by
  have held := held_step reached.held taken
  cases sections taken with
  | copy configured free =>
    refine ⟨held, reached.fresh, fun _ => ?_, reached.looked⟩
    show (if s.channel.isSome then s.channel else s.fresh) = s.channel
    split
    · rfl
    · exact reached.idle free
  | publish copied => exact ⟨held, rfl, reached.idle, reached.looked⟩
  | setHandler handler free => exact ⟨held, reached.fresh, nofun, nofun⟩
  | look handler kept =>
    refine ⟨held, reached.fresh, nofun, fun _ _ same => ?_⟩
    obtain ⟨-, rfl⟩ := Setting.looked.inj same
    exact reached.fresh
  | handOn handler client looked =>
    obtain rfl := reached.looked handler client looked
    refine ⟨held, reached.fresh, fun _ => ?_, nofun⟩
    have own := reached.held
    unfold Held at own
    rwa [looked] at own

theorem reached_run (reached : s.Reached) (ran : Runs.exec step s actions = some t) : t.Reached := by
  induction actions generalizing s with
  | nil =>
    obtain rfl := Option.some.inj ran
    exact reached
  | cons a rest ih =>
    obtain ⟨m, first, later⟩ := Runs.exec_cons ran
    exact ih (reached_step reached first) later

def Unseen (s : Routing H) : Prop := ∀ handler, s.setting ≠ .looked handler (some .fresh)

theorem install_unseen {handler : Option H} {client : Option Owned} (unseen : s.Unseen)
    (looked : s.setting = .looked handler client) : (s.install handler client).fresh = s.fresh := by
  cases client with
  | none => rfl
  | some which =>
    cases which with
    | earlier => rfl
    | fresh => exact absurd looked (unseen handler)

theorem published_run (held : s.Held) (published : s.building = .published) (fresh : s.client = some .fresh)
    (unseen : s.Unseen) (ran : Runs.exec step s actions = some t) (idle : t.setting = .idle) :
    t.client = some .fresh ∧
      (t.fresh = t.channel ↔ .look ∈ actions ∨ s.fresh = lastSet s.channel actions) := by
  induction actions generalizing s with
  | nil =>
    obtain rfl := Option.some.inj ran
    exact ⟨fresh, by simp [lastSet]⟩
  | cons a rest ih =>
    obtain ⟨m, first, later⟩ := Runs.exec_cons ran
    have held' := held_step held first
    cases sections first with
    | copy configured free => exact absurd (published.symm.trans configured) nofun
    | publish copied => exact absurd (published.symm.trans copied) nofun
    | setHandler handler free =>
      obtain ⟨client, agreed⟩ := ih held' published fresh nofun later
      exact ⟨client, agreed.trans (by simp [lastSet])⟩
    | look handler kept =>
      have reached : Reached { s with setting := .looked handler s.client } :=
        ⟨held', fresh, nofun, fun _ _ same => (Setting.looked.inj same).2 ▸ fresh⟩
      have after := reached_run reached later
      exact ⟨after.fresh, iff_of_true (after.idle idle) (.inl (List.mem_cons_self ..))⟩
    | handOn handler client looked =>
      obtain ⟨channel, client', building⟩ := install_same s handler client
      obtain ⟨client, agreed⟩ := ih held' (building.trans published) (client'.trans fresh) nofun later
      refine ⟨client, agreed.trans ?_⟩
      dsimp only
      rw [channel, install_unseen unseen looked]
      simp [lastSet]

/-! ### Before the new client is there -/

theorem copied_run (held : s.Held) (copied : s.building = .copied) (hidden : s.client ≠ some .fresh)
    (unseen : s.Unseen) (ran : Runs.exec step s actions = some t) (finished : t.Over) :
    t.client = some .fresh ∧
      (t.fresh = t.channel ↔ .look ∈ fromPublish actions ∨ s.fresh = lastSet s.channel actions) := by
  induction actions generalizing s with
  | nil =>
    obtain rfl := Option.some.inj ran
    exact absurd (copied.symm.trans finished.1) nofun
  | cons a rest ih =>
    obtain ⟨m, first, later⟩ := Runs.exec_cons ran
    have held' := held_step held first
    cases sections first with
    | copy configured free => exact absurd (copied.symm.trans configured) nofun
    | publish copied =>
      obtain ⟨client, agreed⟩ := published_run held' rfl rfl unseen later finished.2
      exact ⟨client, agreed.trans (by simp [fromPublish, lastSet])⟩
    | setHandler handler free =>
      obtain ⟨client, agreed⟩ := ih held' copied hidden nofun later
      exact ⟨client, agreed.trans (by simp [fromPublish, lastSet])⟩
    | look handler kept =>
      have unseen' : Unseen { s with setting := .looked handler s.client } := fun _ same =>
        hidden (Setting.looked.inj same).2
      obtain ⟨client, agreed⟩ := ih held' copied hidden unseen' later
      exact ⟨client, agreed.trans (by simp [fromPublish, lastSet])⟩
    | handOn handler client looked =>
      obtain ⟨channel, client', building⟩ := install_same s handler client
      obtain ⟨client, agreed⟩ := ih held' (building.trans copied) (fun same => hidden (client'.symm.trans same)) nofun
        later
      refine ⟨client, agreed.trans ?_⟩
      dsimp only
      rw [channel, install_unseen unseen looked]
      simp [fromPublish, lastSet]

theorem configured_run (held : s.Held) (configured : s.building = .configured) (hidden : s.client ≠ some .fresh)
    (bare : s.fresh = none) (unseen : s.Unseen) (ran : Runs.exec step s actions = some t) (finished : t.Over) :
    t.client = some .fresh ∧ (t.fresh = t.channel ↔ Covers s.channel actions) := by
  induction actions generalizing s with
  | nil =>
    obtain rfl := Option.some.inj ran
    exact absurd (configured.symm.trans finished.1) nofun
  | cons a rest ih =>
    obtain ⟨m, first, later⟩ := Runs.exec_cons ran
    have held' := held_step held first
    cases sections first with
    | copy configured free =>
      have unseen' : ∀ n : Routing H, n.setting = .idle → n.Unseen := fun n idle _ same =>
        absurd (idle.symm.trans same) nofun
      obtain ⟨client, agreed⟩ := copied_run held' rfl hidden (unseen' _ free) later finished
      have copied : (if s.channel.isSome then s.channel else s.fresh) = s.channel := by
        rw [bare]
        cases s.channel <;> rfl
      refine ⟨client, agreed.trans ?_⟩
      dsimp only
      rw [copied]
      simp [Covers, fromPublish, untilCopy, lastSet]
    | publish copied => exact absurd (configured.symm.trans copied) nofun
    | setHandler handler free =>
      obtain ⟨client, agreed⟩ := ih held' configured hidden bare nofun later
      exact ⟨client, agreed.trans (by simp [Covers, fromPublish, untilCopy, lastSet])⟩
    | look handler kept =>
      have unseen' : Unseen { s with setting := .looked handler s.client } := fun _ same =>
        hidden (Setting.looked.inj same).2
      obtain ⟨client, agreed⟩ := ih held' configured hidden bare unseen' later
      exact ⟨client, agreed.trans (by simp [Covers, fromPublish, untilCopy, lastSet])⟩
    | handOn handler client looked =>
      obtain ⟨channel, client', building⟩ := install_same s handler client
      obtain ⟨client, agreed⟩ := ih held' (building.trans configured) (fun same => hidden (client'.symm.trans same))
        ((install_unseen unseen looked).trans bare) nofun later
      refine ⟨client, agreed.trans ?_⟩
      dsimp only
      rw [channel]
      simp [Covers, fromPublish, untilCopy, lastSet]

/-- However the critical sections follow one another: once all calls have returned, the helper has the
handler that was set last, and its client has the same one exactly if some change looked the client up
when it was there, or no change was missed. -/
theorem routing_agrees_iff (channel earlier : Option H) (left : Bool) (actions : List (RoutingAction H))
    (done : Runs.exec step (ready channel earlier left) actions = some s) (finished : s.Over) :
    (s.channel = lastSet channel actions ∧ s.Agreed) ↔ Covers channel actions := by
  have hidden : (ready channel earlier left).client ≠ some .fresh := by
    unfold ready
    cases left <;> nofun
  have held : (ready channel earlier left).Held := trivial
  have own : s.channel = lastSet channel actions := channel_run done
  obtain ⟨fresh, agreed⟩ := configured_run held rfl hidden rfl nofun done finished
  rw [and_iff_right own, Agreed, fresh]
  simp only [Option.map_some, handlerOf, Option.some.injEq]
  exact agreed

theorem later_change_agrees :
    Agreed ({ channel := some 2, fresh := some 2, client := some .fresh, building := .published } : Routing Nat) :=
  ((routing_agrees_iff (none : Option Nat) none false [.copy, .setHandler (some 1), .look, .publish, .handOn,
    .setHandler (some 2), .look, .handOn] (by decide) ⟨rfl, rfl⟩).mpr (.inl (by decide))).2

theorem handler_missed : ¬ ∀ (H : Type) (channel earlier : Option H) (left : Bool) (actions : List (RoutingAction H))
    (s : Routing H), Runs.exec step (ready channel earlier left) actions = some s → s.Over →
      s.channel = lastSet channel actions ∧ s.Agreed := by
  intro claimed
  have given := (claimed Nat none none false [.copy, .setHandler (some 1), .look, .handOn, .publish]
    { channel := some 1, client := some .fresh, building := .published } (by decide) ⟨rfl, rfl⟩).2
  exact absurd given (by simp [Agreed, handlerOf])

end Routing
end LiteMqtt
