import LiteMqtt.Client.Steps

/-!
# The steps that concern a connect attempt

A step that is about connect attempts starts one, goes on with one, gives one up, or handles its
CONNACK. The code of every other step is about something else.
-/

namespace LiteMqtt
namespace Sys

/-- A CONNACK with return code 0. -/
def accepted (data : Bytes) : Bool :=
  match data with
  | [] => false
  | byte :: _ => PacketType.ofUint8 (byte >>> 4) == .connack && (ConnackPacket.parse data).returnCode == 0

/-- The attempt whose accepted CONNACK the step handles. A packet that the user hands in counts
for the latest attempt. -/
def accepting (s : Sys) : Action → Option Nat
  | .exec =>
      match s.net.stack with
      | .own (.handlePacket attempt data) :: _ => if accepted data then some attempt else none
      | _ => none
  | .call (.handlePacket data) => if accepted data then some s.attempts else none
  | _ => none

/-- The attempt whose connect timer has expired and is handled by the step. -/
def expiring (s : Sys) : Action → Option Nat
  | .exec =>
      match s.net.stack with
      | .own (.timer (.connectTimeout attempt) none) :: _ => some attempt
      | _ => none
  | _ => none

/-- `u` is `s`, perhaps with the running code's entry taken off the stack. -/
structure Popped (s u : Sys) : Prop where
  same : u = { s with net := { s.net with stack := u.net.stack, handled := u.net.handled } }
  stack : u.net.stack = s.net.stack ∨ u.net.stack = s.net.stack.tail

variable {s t u : Sys}

theorem popped_goesOn {entry : StackEntry Handler Work} {rest : List (StackEntry Handler Work)}
    (front : s.net.stack = entry :: rest) : s.Popped (s.goesOn rest) :=
  ⟨rfl, .inr (by rw [front]; rfl)⟩

theorem popped_refl (s : Sys) : s.Popped s := ⟨rfl, .inl rfl⟩

theorem popped_recordCall {rest : List (StackEntry Handler Work)} {call : Invocation Handler}
    (front : s.net.stack = .invoke call :: rest) :
    s.Popped { s with net := (s.goesOn rest).net.recordCall call } := by
  cases call <;> exact ⟨rfl, .inr (by rw [front]; rfl)⟩

theorem bare_outside {a : Action} (bare : s.Bare a t) : s.accepting a = none ∧ s.expiring a = none := by
  cases bare with
  | afterWrite ec rest front => exact ⟨by simp [accepting, front], by simp [expiring, front]⟩
  | closeHandler rest front => exact ⟨by simp [accepting, front], by simp [expiring, front]⟩
  | _ => exact ⟨rfl, rfl⟩

/-- The topics that leave the connect attempts alone. -/
def elsewhere : List Topic := [.publish, .subscribe, .session, .loop, .packet, .settings, .crash]

inductive Outline (s : Sys) : Action → Sys → Prop where
  | bare (a : Action) (t : Sys) (bare : s.Bare a t) : Outline s a t
  | asyncConnect (callback : Bool) (idle : s.idle = true) :
      Outline s (.call (.asyncConnect callback)) (s.asyncConnect callback)
  | connack (a : Action) (u : Sys) (attempt : Nat) (data : Bytes) (popped : s.Popped u)
      (accepting : s.accepting a = if (ConnackPacket.parse data).returnCode = 0 then some attempt else none)
      (handled : a = .exec ∧ (∃ rest, s.net.stack = .own (.handlePacket attempt data) :: rest ∧ u = s.goesOn rest) ∨
        a = .call (.handlePacket data) ∧ attempt = s.attempts ∧ u = s ∧ s.idle = true) :
      Outline s a (u.handleConnack data)
  | timeout (attempt : Nat) (rest : List (StackEntry Handler Work))
      (front : s.net.stack = .own (.timer (.connectTimeout attempt) none) :: rest) :
      Outline s .exec (s.goesOn rest).handleConnectTimeout
  | onConnect (attempt : Nat) (ec : ErrorCode) (rest : List (StackEntry Handler Work))
      (front : s.net.stack = .invoke (.connect (.connect attempt) ec) :: rest) :
      Outline s .exec ((s.goesOn rest).onConnect attempt ec)
  | report (success : Bool) (returnCode : UInt8) (rest : List (StackEntry Handler Work))
      (front : s.net.stack = .own (.reportConnect success returnCode) :: rest) :
      Outline s .exec ((s.goesOn rest).reportConnect success returnCode)
  | other (a : Action) (u t : Sys) (popped : s.Popped u) (does : Does elsewhere u t)
      (accepting : s.accepting a = none) (expiring : s.expiring a = none) : Outline s a t

theorem packet_outline (data : Bytes) : packetTopics data ⊆ elsewhere ∧ accepted data = false ∨
    (∀ (u : Sys) attempt, u.handlePacket attempt data = u.handleConnack data) ∧
      accepted data = ((ConnackPacket.parse data).returnCode == 0) := by
  cases data with
  | nil => exact .inl ⟨nofun, rfl⟩
  | cons byte rest =>
    unfold packetTopics accepted handlePacket
    dsimp only
    cases PacketType.ofUint8 (byte >>> 4) with
    | connack => exact .inr ⟨fun _ _ => rfl, rfl⟩
    | _ => exact .inl ⟨by simp [elsewhere], rfl⟩

theorem work_outline (k : Work) (rest : List (StackEntry Handler Work)) (front : s.net.stack = .own k :: rest) :
    Outline s .exec ((s.goesOn rest).execute k) := by
  have does := does_execute (s.goesOn rest) k
  have other : workTopics k ⊆ elsewhere → s.accepting .exec = none → s.expiring .exec = none →
      Outline s .exec ((s.goesOn rest).execute k) := fun few =>
    .other .exec _ _ (popped_goesOn front) (does.mono few)
  cases k with
  | handlePacket attempt data =>
    rcases packet_outline data with ⟨few, refused⟩ | ⟨same, answer⟩
    · exact other few (by simp [accepting, front, refused]) (by simp [expiring, front])
    · simp only [execute, same]
      refine .connack .exec _ attempt data (popped_goesOn front) ?_ (.inl ⟨rfl, rest, front, rfl⟩)
      simp [accepting, front, answer]
  | timer h ec =>
    cases h with
    | connectTimeout attempt =>
      cases ec with
      | none => exact .timeout attempt rest front
      | some ec =>
        exact .other .exec _ _ (popped_goesOn front) (.refl _) (by simp [accepting, front]) (by simp [expiring, front])
    | publishRetry p =>
      exact other (by simp [workTopics, timerTopics, elsewhere]) (by simp [accepting, front])
        (by simp [expiring, front])
    | _ => exact other (List.nil_subset _) (by simp [accepting, front]) (by simp [expiring, front])
  | reportConnect success returnCode => exact .report success returnCode rest front
  | _ => exact other (by simp [workTopics, elsewhere]) (by simp [accepting, front]) (by simp [expiring, front])

theorem invoke_outline (call : Invocation Handler) (rest : List (StackEntry Handler Work))
    (front : s.net.stack = .invoke call :: rest) :
    Outline s .exec ({ s with net := (s.goesOn rest).net.recordCall call }.onInvoke call) := by
  have does := does_onInvoke { s with net := (s.goesOn rest).net.recordCall call } call
  have other : invocationTopics call ⊆ elsewhere → Outline s .exec
      ({ s with net := (s.goesOn rest).net.recordCall call }.onInvoke call) := fun few =>
    .other .exec _ _ (popped_recordCall front) (does.mono few) (by simp [accepting, front])
      (by simp [expiring, front])
  cases call with
  | connect h ec =>
    cases h with
    | connect attempt => exact .onConnect attempt ec rest front
    | _ =>
      exact .other .exec _ _ (popped_recordCall front) (.refl _) (by simp [accepting, front])
        (by simp [expiring, front])
  | write serial h ec => cases h <;> exact other (by simp [invocationTopics, elsewhere])
  | _ => exact other (by simp [invocationTopics, elsewhere])

theorem call_outline (c : Call) (allowed : s.idle = true ∨ c.anyThread = true) : Outline s (.call c) (s.call c) := by
  have does := does_call s c
  cases c with
  | asyncConnect callback => exact .asyncConnect callback (by simpa [Call.anyThread] using allowed)
  | handlePacket data =>
    rcases packet_outline data with ⟨few, refused⟩ | ⟨same, answer⟩
    · exact .other _ s _ (popped_refl s) (does.mono few) (by simp [accepting, refused]) rfl
    · simp only [call, same]
      refine .connack _ s s.attempts data (popped_refl s) ?_
        (.inr ⟨rfl, rfl, rfl, by simpa [Call.anyThread] using allowed⟩)
      simp [accepting, answer]
  | _ => exact .other _ s _ (popped_refl s) (does.mono (by simp [callTopics, elsewhere])) rfl rfl

theorem outline {a : Action} (taken : s.step a = some t) : Outline s a t := by
  cases (steps taken).2 with
  | run n ran => exact .bare .run _ (.run n ran)
  | work k rest front busy => exact work_outline k rest front
  | invoke call rest front => exact invoke_outline call rest front
  | afterWrite ec rest front => exact .bare .exec _ (.afterWrite ec rest front)
  | closeHandler rest front => exact .bare .exec _ (.closeHandler rest front)
  | ret rest front => exact .other .ret _ _ (popped_goesOn front) (.refl _) rfl rfl
  | call c allowed => exact call_outline c allowed
  | kernel event n moved => exact .bare _ _ (.kernel event n moved)
  | expire index w waiting due => exact .bare _ _ (.expire index w waiting due)
  | advance ms => exact .bare _ _ (.advance ms)

/-- A step that accepts a session is the handling of its CONNACK. -/
theorem accepting_outline {a : Action} (taken : s.step a = some t) (accepts : (s.accepting a).isSome = true) :
    ∃ u data, t = u.handleConnack data ∧ (ConnackPacket.parse data).returnCode = 0 ∧ s.Popped u ∧
      ((∃ entry rest, s.net.stack = entry :: rest ∧ u = s.goesOn rest) ∨ u = s ∧ s.idle = true) := by
  have refuse : s.accepting a = none → False := fun none => by simp [none] at accepts
  cases outline taken with
  | connack a u attempt data popped accepting handled =>
    refine ⟨u, data, rfl, ?_, popped, ?_⟩
    · by_contra refused
      exact refuse (accepting.trans (if_neg refused))
    · rcases handled with ⟨-, rest, front, same⟩ | ⟨-, -, same, idle⟩
      · exact .inl ⟨_, rest, front, same⟩
      · exact .inr ⟨same, idle⟩
  | bare a t bare => exact (refuse (bare_outside bare).1).elim
  | timeout attempt rest front => exact (refuse (by simp [accepting, front])).elim
  | onConnect attempt ec rest front => exact (refuse (by simp [accepting, front])).elim
  | report success returnCode rest front => exact (refuse (by simp [accepting, front])).elim
  | other a u t popped does accepting expiring => exact (refuse accepting).elim
  | _ => exact (refuse rfl).elim

/-- A step that handles an expired connect timer. -/
theorem expiring_outline {a : Action} {attempt : Nat} (taken : s.step a = some t)
    (expires : s.expiring a = some attempt) :
    ∃ rest, s.net.stack = .own (.timer (.connectTimeout attempt) none) :: rest ∧
      t = (s.goesOn rest).handleConnectTimeout := by
  have refuse : s.expiring a = none → False := fun none => by simp [none] at expires
  cases outline taken with
  | connack a u i data popped accepting handled =>
    rcases handled with ⟨rfl, rest, front, -⟩ | ⟨rfl, -⟩
    · exact (refuse (by simp [expiring, front])).elim
    · exact (refuse rfl).elim
  | bare a t bare => exact (refuse (bare_outside bare).2).elim
  | timeout i rest front =>
    obtain rfl : i = attempt := by simpa [expiring, front] using expires
    exact ⟨rest, front, rfl⟩
  | onConnect i ec rest front => exact (refuse (by simp [expiring, front])).elim
  | report success returnCode rest front => exact (refuse (by simp [expiring, front])).elim
  | other a u t popped does accepting expiring => exact (refuse expiring).elim
  | _ => exact (refuse rfl).elim

end Sys
end LiteMqtt
