import LiteMqtt.Client.Subscribing
import LiteMqtt.Helper.Following

/-!
# The callbacks that `mqtt_helper::subscribe` is given

The helper keeps the topics. A callback goes to the client, if the helper is connected, and nowhere else: what
is given earlier is gone, and the topics are subscribed again without it. What becomes of each callback is kept
as history beside the helper.
-/

namespace LiteMqtt

/-- What became of a callback that `subscribe` was given. -/
inductive Fate where
  /-- The present client was given it. -/
  | client (callback : Callback)
  /-- A client called it that was released since. -/
  | told
  /-- Nobody called it, and nobody has it. -/
  | dropped
  deriving DecidableEq, Repr

namespace Fate

/-- What is left of it when the client is released. A callback that `close` fails at that moment counts as dropped:
only what was called before is counted as told. -/
def settled (s : Sys) : Fate → Fate
  | .client c => if s.log.any (Event.judges c) then .told else .dropped
  | fate => fate

/-- The callback was called, or is held where it will be. -/
def Kept (s : Sys) : Fate → Prop
  | .client c => s.log.any (Event.judges c) = true ∨ s.HoldsSubscribe c
  | .told => True
  | .dropped => False

end Fate

/-- The helper with its client, and what became of the callbacks it was given. -/
structure Desk where
  rig : Rig := {}
  fates : List Fate := []

namespace Desk

/-- A callback that `subscribe` is given goes to the client. -/
def given (r : Rig) : Fate := if r.isConnected then .client { id := r.sys.nextCallback, callable := true } else .dropped

/-- The client is replaced or released. -/
def releases (r : Rig) : Rig.Action → Bool
  | .start => !r.helper.running
  | .finishStop _ => true
  | _ => false

def fatesAfter (d : Desk) (a : Rig.Action) : List Fate :=
  match a with
  | .subscribe _ _ true => given d.rig :: d.fates
  | a => if releases d.rig a then d.fates.map (Fate.settled d.rig.sys) else d.fates

def step (d : Desk) (a : Rig.Action) : Option Desk := (d.rig.step a).map fun rig => { rig, fates := d.fatesAfter a }

/-- A callback is given only while the helper is connected, a SUBACK that is handled has enough return codes, no step
reads an entry that was erased from its map, and a client is released only when it has called every callback. The last
asks for more than the code needs, since `close` in `release_client` may still call some. -/
def attends (d : Desk) (a : Rig.Action) : Bool :=
  match a with
  | .subscribe _ _ true => d.rig.isConnected
  | .io a => !d.rig.sys.shortens a && !d.rig.sys.dangles a
  | a => !releases d.rig a || (d.fates.map (Fate.settled d.rig.sys)).all (· != .dropped)

def Attends (d : Desk) (a : Rig.Action) : Prop := d.attends a = true

instance (d : Desk) (a : Rig.Action) : Decidable (d.Attends a) := inferInstanceAs (Decidable (_ = true))

/-- Every callback was called or is held where it will be. -/
def NoneDropped (d : Desk) : Prop := ∀ fate ∈ d.fates, fate.Kept d.rig.sys

end Desk

namespace Sys

variable {s t u : Sys} {c : Callback}

/-- From `s` to `t` no callback of a subscription is lost. -/
structure Covers (s t : Sys) : Prop where
  posting : s.Posting → t.Posting
  asked : ∀ c : Callback, c.callable = true → (subscribeAccount c).given s ≤ (subscribeAccount c).given t
  rises : ∀ c : Callback, c.callable = true →
    (subscribeAccount c).given t + (subscribeAccount c).total s ≤
      (subscribeAccount c).given s + (subscribeAccount c).total t

theorem Covers.refl (s : Sys) : Covers s s := ⟨id, fun _ _ => le_refl _, fun _ _ => le_refl _⟩

theorem Covers.trans (first : Covers s t) (later : Covers t u) : Covers s u := by
  refine ⟨later.posting ∘ first.posting,
    fun c callable => (first.asked c callable).trans (later.asked c callable), fun c callable => ?_⟩
  have one := later.rises c callable
  have other := first.rises c callable
  omega

theorem covers_of_gains (posting : s.Posting → t.Posting)
    (gains : ∀ c : Callback, c.callable = true → (subscribeAccount c).Gains 0 s t) : Covers s t := by
  refine ⟨posting, fun c callable => (gains c callable).given.ge, fun c callable => ?_⟩
  rw [(gains c callable).given, (gains c callable).total, Nat.add_zero]

theorem covers_asyncSubscribe (s : Sys) (topic : Bytes) (qos : UInt8) (able : Bool) :
    Covers s (s.asyncSubscribe topic qos able) := by
  have does : Does [.subscribe] s (s.asyncSubscribe topic qos able) := does_call s (.asyncSubscribe topic qos able)
  refine ⟨fun posting => posting.of_left (posted_does does posting.posted) rfl, fun c _ => ?_, fun c _ => ?_⟩
  · rw [(Verdicts.asyncSubscribe_asks c s topic qos able).2]
    exact Nat.le_add_right _ _
  · rw [(Verdicts.asyncSubscribe_asks c s topic qos able).1, (Verdicts.asyncSubscribe_asks c s topic qos able).2]
    omega

theorem covers_step {a : Action} (posting : s.Posting) (whole : s.shortens a = false) (safe : s.dangles a = false)
    (taken : s.step a = some t) : Covers s t := by
  by_cases subscribes :
      ∃ topic qos able, a = .call (.asyncSubscribe topic qos able) ∧ t = s.asyncSubscribe topic qos able
  · obtain ⟨topic, qos, able, -, rfl⟩ := subscribes
    exact covers_asyncSubscribe s topic qos able
  have defined : t.undefined = false := defined_step taken safe
  have each : ∀ c : Callback, c.callable = true → Verdicts.Rises c (s.Candid a) s t := by
    intro c callable
    rcases Verdicts.rises_step callable posting whole taken with ⟨crashed, -⟩ | rises
    · exact absurd (crashed.symm.trans defined) nofun
    · exact rises.resolve_right subscribes
  refine ⟨fun posting => posting_step posting taken, fun c callable => ?_, fun c callable => ?_⟩
  · obtain ⟨n, gains, -⟩ := each c callable
    exact gains.given.ge
  · obtain ⟨n, gains, -⟩ := each c callable
    rw [gains.given, gains.total]
    omega

end Sys

namespace Rig

variable {r t : Rig} {s : Sys}

theorem covers_carry {a : Ask} (gentle : Gentle a) (s : Sys) : s.Covers (carry s a) := by
  cases a with
  | asyncConnect =>
    have does : Sys.Does [.connect] s (s.asyncConnect false) := Sys.does_call s (.asyncConnect false)
    exact Sys.covers_of_gains (fun posting => posting.of_left (Sys.posted_does does posting.posted)
      (Sys.asyncConnect_stack s false)) fun c _ => Verdicts.gains_apart does (by decide)
  | asyncSubscribe topic qos => exact Sys.covers_asyncSubscribe s topic qos false
  | asyncDisconnect =>
    have does : Sys.Does [] s (s.asyncDisconnect true) := Sys.does_call s (.asyncDisconnect true)
    exact Sys.covers_of_gains (fun posting => posting.of_left (Sys.posted_does does posting.posted) rfl)
      fun c _ => Verdicts.gains_apart does (by decide)
  | clearCallbacks => exact gentle.elim
  | close => exact gentle.elim

theorem covers_carried (carried : Carried r t) : r.sys.Covers t.sys := by
  obtain ⟨asks, gentle, -, sys⟩ := carried
  rw [sys]
  clear sys
  generalize r.sys = s
  induction asks generalizing s with
  | nil => exact .refl s
  | cons a rest ih =>
    exact (covers_carry (gentle a (.head _)) s).trans (ih (fun b among => gentle b (.tail _ among)) _)

end Rig

namespace Desk

variable {d e : Desk}

/-- A client whose account covers every callback it was given. -/
structure Attended (s : Sys) : Prop where
  posting : s.Posting
  covered : ∀ c : Callback, c.callable = true →
    (subscribeAccount c).given s ≤ (subscribeAccount c).total s

theorem Attended.covers {s t : Sys} (attended : Attended s) (covers : s.Covers t) : Attended t := by
  refine ⟨covers.posting attended.posting, fun c callable => ?_⟩
  have held := attended.covered c callable
  have rose := covers.rises c callable
  omega

/-- The callback is with the present client, or was called. -/
def Placed (r : Rig) : Fate → Prop
  | .client c => r.helper.client = true ∧ c.callable = true ∧ 0 < (subscribeAccount c).given r.sys
  | .told => True
  | .dropped => False

structure Keeping (d : Desk) : Prop where
  sound : d.rig.Sound
  going : d.rig.Going
  attended : d.rig.helper.client = true → Attended d.rig.sys
  placed : ∀ fate ∈ d.fates, Placed d.rig fate

theorem placed_of_covers {r t : Rig} {fate : Fate} (client : t.helper.client = r.helper.client)
    (covers : r.sys.Covers t.sys)
    (placed : Placed r fate) : Placed t fate := by
  cases fate with
  | client c =>
    obtain ⟨present, callable, asked⟩ := placed
    exact ⟨client.trans present, callable, asked.trans_le (covers.asked c callable)⟩
  | told => trivial
  | dropped => exact placed

theorem placed_settled {r t : Rig} {fate : Fate} (kept : fate.settled r.sys ≠ .dropped) :
    Placed t (fate.settled r.sys) := by
  cases fate with
  | client c =>
    by_cases called : r.sys.log.any (Event.judges c) = true
    · rw [Fate.settled, if_pos called]
      trivial
    · exact absurd (if_neg called) kept
  | told => trivial
  | dropped => exact absurd rfl kept

theorem attended_fresh (c : Config) : Attended (Rig.carry (Rig.setupCallbacks (Rig.initClient c)) .asyncConnect) := by
  have net : (Rig.setupCallbacks (Rig.initClient c)).net = {} := Rig.initClient_fresh c
  have log : (Rig.setupCallbacks (Rig.initClient c)).log = [] := by
    change (Rig.initClient c).log = []
    unfold Rig.initClient
    dsimp only
    split <;> split <;> rfl
  have built : Attended (Rig.setupCallbacks (Rig.initClient c)) := by
    refine ⟨⟨?_, ?_⟩, fun c _ => ?_⟩
    · rw [net]
      nofun
    · rw [net]
      nofun
    · rw [Account.given, log]
      exact Nat.zero_le _
  exact built.covers (Rig.covers_carry (a := .asyncConnect) trivial _)

theorem keeping_step {a : Rig.Action} (keeping : d.Keeping) (attends : d.Attends a) (taken : d.step a = some e) :
    e.Keeping := by
  obtain ⟨rig, moved, rfl⟩ := Option.map_eq_some_iff.mp taken
  obtain ⟨sound, going⟩ := Rig.kept_step keeping.sound keeping.going moved
  -- the present client goes on, and what it was given before stays with it
  have goes : rig.helper.client = d.rig.helper.client → d.rig.sys.Covers rig.sys →
      (∀ fate ∈ d.fatesAfter a, fate ∈ d.fates ∨ Placed rig fate) →
          ({ rig, fates := d.fatesAfter a } : Desk).Keeping := by
    intro client covers fates
    refine ⟨sound, going, fun present => (keeping.attended (client.symm.trans present)).covers covers,
      fun fate among => ?_⟩
    rcases fates fate among with before | placed
    · exact placed_of_covers client covers (keeping.placed fate before)
    · exact placed
  have left : releases d.rig a = true → d.fatesAfter a = d.fates.map (Fate.settled d.rig.sys) →
      d.attends a = (!releases d.rig a || (d.fates.map (Fate.settled d.rig.sys)).all (· != .dropped)) →
      ∀ fate ∈ d.fatesAfter a, Placed rig fate := by
    intro releases after guard fate among
    rw [after] at among
    obtain ⟨earlier, before, rfl⟩ := List.mem_map.mp among
    have kept : d.attends a = true := attends
    rw [guard, releases, Bool.not_true, Bool.false_or, List.all_eq_true] at kept
    exact placed_settled (by simpa using kept _ (List.mem_map_of_mem before))
  cases Rig.steps keeping.sound moved with
  | start t begins client sys =>
    have releases : releases d.rig .start = true := by simp [Desk.releases, begins]
    refine ⟨sound, going, fun _ => sys ▸ attended_fresh d.rig.config, left releases ?_ rfl⟩
    simp [fatesAfter, releases]
  | started runs =>
    have stays : releases d.rig .start = false := by simp [Desk.releases, runs]
    refine goes rfl (.refl _) fun fate among => .inl ?_
    simpa [fatesAfter, stays] using among
  | publish topic payload qos callable =>
    refine goes ?_ ?_ fun fate among => .inl among
    · unfold Rig.publish
      split <;> rfl
    · unfold Rig.publish
      split
      · have does : Sys.Does [.publish] d.rig.sys (d.rig.sys.asyncPublish topic payload qos callable) :=
          Sys.does_call d.rig.sys (.asyncPublish topic payload qos callable)
        exact Sys.covers_of_gains (fun posting => posting.of_left (Sys.posted_does does posting.posted) rfl)
          fun c _ => Verdicts.gains_apart does (by decide)
      · exact .refl _
  | subscribe topic qos callable =>
    have covers : d.rig.sys.Covers (d.rig.subscribe topic qos callable).sys := by
      unfold Rig.subscribe
      dsimp only
      split
      · exact Sys.covers_asyncSubscribe d.rig.sys topic qos callable
      · exact .refl _
    have client : (d.rig.subscribe topic qos callable).helper.client = d.rig.helper.client := by
      unfold Rig.subscribe
      dsimp only
      split <;> rfl
    refine goes client covers fun fate among => ?_
    cases callable with
    | false => exact .inl among
    | true =>
      rcases List.mem_cons.mp among with rfl | before
      · refine .inr ?_
        have connected : d.rig.isConnected = true := attends
        have asks :=
          (Verdicts.asyncSubscribe_asks { id := d.rig.sys.nextCallback, callable := true } d.rig.sys topic qos true).2
        have sys : (d.rig.subscribe topic qos true).sys = d.rig.sys.asyncSubscribe topic qos true := by
          unfold Rig.subscribe
          dsimp only
          exact congrArg Rig.sys (if_pos connected)
        rw [given, if_pos connected]
        refine ⟨client.trans (Bool.and_eq_true_iff.mp connected).1, rfl, ?_⟩
        rw [sys, asks, Callback.share_self]
        exact Nat.succ_pos _
      · exact .inl before
  | plain a t plain carried =>
    have client : rig.helper.client = d.rig.helper.client := by
      obtain ⟨-, -, client, -⟩ := carried
      exact client
    refine goes client (Rig.covers_carried carried) fun fate among => .inl ?_
    cases a <;> first | contradiction | exact among
  | finishStop wasRunning t released =>
    exact ⟨sound, going, fun present => absurd (released.symm.trans present) nofun, left rfl rfl rfl⟩
  | io a u t ran inside carried =>
    obtain ⟨whole, safe⟩ : d.rig.sys.shortens a = false ∧ d.rig.sys.dangles a = false := by
      simpa [Attends, Desk.attends] using attends
    have client : rig.helper.client = d.rig.helper.client := by
      obtain ⟨-, -, client, -⟩ := carried
      exact client
    by_cases present : d.rig.helper.client = true
    · have covers :=
        (Sys.covers_step (keeping.attended present).posting whole safe ran).trans (Rig.covers_carried carried)
      exact goes client covers fun fate among => .inl among
    · refine ⟨sound, going, fun now => absurd (client.symm.trans now) present, fun fate among => ?_⟩
      have before := keeping.placed fate among
      cases fate with
      | client c => exact absurd before.1 present
      | told => trivial
      | dropped => exact before

theorem NoneDropped.of_keeping (keeping : d.Keeping) : d.NoneDropped := by
  intro fate among
  have placed := keeping.placed fate among
  cases fate with
  | client c =>
    obtain ⟨present, callable, asked⟩ := placed
    have attended := keeping.attended present
    have covered := attended.covered c callable
    by_cases called : d.rig.sys.log.any (Event.judges c) = true
    · exact .inl called
    · refine .inr (Verdicts.holds_of_counts attended.posting ?_)
      have silent : d.rig.sys.log.countP (Event.judges c) = 0 := by
        refine List.countP_eq_zero.mpr fun e among judges => called ?_
        exact List.any_eq_true.mpr ⟨e, among, judges⟩
      unfold Account.total at covered
      change _ ≤ _ + d.rig.sys.log.countP (Event.judges c) at covered
      omega
  | told => trivial
  | dropped => exact placed

/-- Steps of the client. -/
def io (actions : List Sys.Action) : List Rig.Action := actions.map .io

/-- The helper is started, and the broker accepts the session. -/
def online : List Rig.Action :=
  .start :: io ([.kernel (.resolve 0 (.ok 0)), .run, .kernel (.connect 0 none), .run, .exec, .run, .kernel (.send 0 14),
    .kernel (.write 0 none), .run, .exec, .exec] ++ Sys.receive 0x20 2 0 0 ++ [.exec, .ret, .exec, .run, .exec])

/-- A subscription is made and answered. -/
def subscribed : List Rig.Action :=
  online ++ .subscribe [0x74] 0 true :: io [.run, .exec, .run, .kernel (.read 0 (.ok [0x90, 3])), .run,
    .kernel (.read 1 (.ok [0, 2, 0])), .run, .run, .exec, .exec, .exec]

end Desk
end LiteMqtt
