import LiteMqtt.Client.Model
import LiteMqtt.Client.Effects
import LiteMqtt.General.Calls

/-!
# Running client code to its end

What the client does from a call to its return, when every callback of the user returns at once.
-/

namespace LiteMqtt
namespace Sys

/-- The io thread goes on. A callback of the user returns at once. -/
def proceed (s : Sys) : Option Sys :=
  match s.net.stack with
  | .own .user :: _ => s.step .ret
  | _ => s.step .exec

def depth (s : Sys) : Nat := s.net.stack.length

abbrev Above (floor : Nat) : Sys → Sys → Prop := Calls.Above proceed depth floor

/-- From `s` the calls above the floor run until they have all returned, in `t`. -/
abbrev Returns (floor : Nat) (s t : Sys) : Prop := Calls.Returns proceed depth floor s t

def stacked (s : Sys) (entries : List (StackEntry Handler Work)) : Sys := { s with net := s.net.push entries }

/-- From `s` to `t` the user is told of `events`, and the client is left as it was. -/
structure Says (events : List Event) (s t : Sys) : Prop where
  log : t.log = events.reverse ++ s.log
  stack : t.net.stack = s.net.stack
  closed : t.closed = s.closed
  publishes : t.pendingPublishes = s.pendingPublishes
  pubrecs : t.pendingPubrecs = s.pendingPubrecs
  subscribes : t.pendingSubscribes = s.pendingSubscribes
  listens : t.onCloseCb = s.onCloseCb
  connection : t.net.closed = s.net.closed
  queue : t.net.writeQueue = s.net.writeQueue
  inFlight : t.net.inFlight = s.net.inFlight
  defined : t.undefined = s.undefined

/-- A callable callback is heard. -/
def heard (callback : Callback) (e : Event) : List Event := if callback.callable then [e] else []

variable {s t u v : Sys} {floor : Nat} {first second : List Event}

/-- Nothing goes on once freed memory has been read. -/
theorem proceed_undefined (undefined : s.undefined = true) : s.proceed = none := by
  have stuck : ∀ a, s.step a = none := fun a => if_pos undefined
  unfold proceed
  split
  · exact stuck .ret
  · exact stuck .exec

/-! ### What is said -/

theorem says_nothing (s : Sys) : Says [] s s := ⟨rfl, rfl, rfl, rfl, rfl, rfl, rfl, rfl, rfl, rfl, rfl⟩

theorem says_record (s : Sys) (e : Event) : Says [e] s (s.record e) :=
  ⟨rfl, rfl, rfl, rfl, rfl, rfl, rfl, rfl, rfl, rfl, rfl⟩

theorem Says.trans (before : Says first s t) (after : Says second t u) : Says (first ++ second) s u where
  log := by rw [after.log, before.log, List.reverse_append, List.append_assoc]
  stack := after.stack.trans before.stack
  closed := after.closed.trans before.closed
  publishes := after.publishes.trans before.publishes
  pubrecs := after.pubrecs.trans before.pubrecs
  subscribes := after.subscribes.trans before.subscribes
  listens := after.listens.trans before.listens
  connection := after.connection.trans before.connection
  queue := after.queue.trans before.queue
  inFlight := after.inFlight.trans before.inFlight
  defined := after.defined.trans before.defined

theorem Says.silent (before : Says first s t) (after : Says [] t u) : Says first s u :=
  List.append_nil first ▸ before.trans after

theorem Says.low (told : Says first s t) (low : floor ≤ s.depth) : floor ≤ t.depth := by
  rwa [depth, told.stack]

theorem says_cancelTimer (s : Sys) (timer : Nat) : Says [] s (s.cancelTimer timer) :=
  ⟨rfl, rfl, rfl, rfl, rfl, rfl, rfl, rfl, rfl, rfl, rfl⟩

theorem says_cancelTimers (s : Sys) (timers : List Nat) : Says [] s (s.cancelTimers timers) := by
  induction timers generalizing s with
  | nil => exact says_nothing s
  | cons timer rest ih => exact (says_cancelTimer s timer).silent (ih (s.cancelTimer timer))

/-! ### One call -/

theorem push_below (ks : List Work) (low : floor ≤ s.depth) : floor ≤ (s.push ks).depth := by
  simp only [depth, push, Net.push, List.length_append] at low ⊢
  omega

theorem above_push {k : Work} (busy : k ≠ .user) (defined : s.undefined = false) (low : floor ≤ s.depth) :
    Above floor (s.push [k]) (s.execute k) := by
  refine .one (Nat.lt_succ_of_le low) ?_
  have running : (s.push [k]).proceed = (s.push [k]).step .exec := by
    cases k <;> first | exact absurd rfl busy | rfl
  have taken : (s.push [k]).exec = some (s.execute k) := by
    cases k <;> first | exact absurd rfl busy | rfl
  rw [running, step, if_neg (by simp [push, defined])]
  exact taken

theorem above_user (defined : s.undefined = false) (low : floor ≤ s.depth) : Above floor (s.push [.user]) s := by
  refine .one (Nat.lt_succ_of_le low) ?_
  show (s.push [.user]).step .ret = some s
  rw [step, if_neg (by simp [push, defined])]
  rfl

theorem above_invoke (call : Invocation Handler) (defined : s.undefined = false) (low : floor ≤ s.depth) :
    Above floor (s.stacked [.invoke call]) ({ s with net := s.net.recordCall call }.onInvoke call) := by
  refine .one (Nat.lt_succ_of_le low) ?_
  show (s.stacked [.invoke call]).step .exec = _
  rw [step, if_neg (by simp [stacked, defined])]
  rfl

/-- No close handler of the client does anything. -/
theorem above_closeHandler (defined : s.undefined = false) (low : floor ≤ s.depth) :
    Above floor (s.stacked [.closeHandler]) s := by
  have first : Above floor (s.stacked [.closeHandler])
      (s.stacked (s.net.closeHandler.toList.map fun h => .invoke (.closed h))) := by
    refine .one (Nat.lt_succ_of_le low) ?_
    show (s.stacked [.closeHandler]).step .exec = _
    rw [step, if_neg (by simp [stacked, defined])]
    rfl
  refine first.trans ?_
  cases s.net.closeHandler with
  | none => exact .refl
  | some h => exact above_invoke (.closed h) defined low

/-- A callback that is called under further calls. -/
theorem above_tellPublish (ks : List Work) (callback : Callback) (success : Bool) (topic : Bytes) (qos : UInt8)
    (p : UInt16) (defined : s.undefined = false) (low : floor ≤ s.depth) :
    ∃ v, Says (heard callback (.published callback success topic qos p)) s v ∧
      Above floor ((s.push ks).tellPublish callback success topic qos p) (v.push ks) := by
  unfold heard tellPublish
  split
  · exact ⟨_, says_record s _, above_user (s := (s.record _).push ks) defined (push_below ks low)⟩
  · exact ⟨s, says_nothing s, .refl⟩

theorem above_tellSubscribe (ks : List Work) (callback : Callback) (success : Bool) (topic : Bytes) (qos : UInt8)
    (defined : s.undefined = false) (low : floor ≤ s.depth) :
    ∃ v, Says (heard callback (.subscribeReport callback success topic qos)) s v ∧
      Above floor ((s.push ks).tellSubscribe callback success topic qos) (v.push ks) := by
  unfold heard tellSubscribe
  split
  · exact ⟨_, says_record s _, above_user (s := (s.record _).push ks) defined (push_below ks low)⟩
  · exact ⟨s, says_nothing s, .refl⟩

end Sys
end LiteMqtt
