import LiteMqtt.General.Lists
import LiteMqtt.Log.Model

/-!
# What becomes of a log statement

A statement whose level was enabled lives in one enabled stream, then in one write, and ends with one record or is
discarded. The record has all that was streamed, whichever streams the statement was moved to on the way.
-/

namespace LiteMqtt
namespace Statement

variable {H : Type} {st u : Statement H} {s t : Logs H}

def record (st : Statement H) : LogRecord := { st.begun with buffer := st.text : LogStream }.record

def live (st : Statement H) : Nat := st.streams.countP LogStream.enabled

/-- `once` counts where the statement is. -/
structure Sound (st : Statement H) : Prop where
  streams : ∀ o ∈ st.streams, o.enabled = true → o = { st.begun with buffer := st.text }
  writing : ∀ w ∈ st.writing, w.record = st.record
  outputs : ∀ x ∈ st.outputs, ∃ handler, x = Logger.dispatch handler st.record
  once : st.live + st.writing.length + st.outputs.length + st.discarded = st.begun.enabled.toNat

/-- While a stream is enabled, no other is, and nothing has been written. -/
theorem Sound.alone (sound : st.Sound) {before after : List LogStream} {o : LogStream}
    (split : st.streams = before ++ o :: after) (enabled : o.enabled = true) :
    (∀ x ∈ before ++ after, x.enabled = false) ∧ st.writing = [] ∧ st.outputs = [] ∧ st.discarded = 0 := by
  have once := sound.once
  have few := Bool.toNat_le st.begun.enabled
  rw [live, split, List.countP_append, List.countP_cons_of_pos enabled] at once
  have none : (before ++ after).countP LogStream.enabled = 0 := by
    rw [List.countP_append]
    omega
  refine ⟨fun x among => ?_, ?_, ?_, by omega⟩
  · simpa using List.countP_eq_zero.mp none x among
  · exact List.eq_nil_of_length_eq_zero (by omega)
  · exact List.eq_nil_of_length_eq_zero (by omega)

theorem sound_begun (begun : LogStream) (empty : begun.buffer = "") : Sound ({ begun } : Statement H) := by
  refine ⟨fun o among enabled => ?_, by simp, by simp, ?_⟩
  · obtain rfl := List.mem_singleton.mp among
    rw [← empty]
  · cases enabled : begun.enabled <;> simp [live, enabled]

theorem sound_append {before after : List LogStream} {o : LogStream} (sound : st.Sound)
    (split : st.streams = before ++ o :: after) (text : String) :
    Sound { st with
      streams := before ++ o.append text :: after
      text := if o.enabled then st.text ++ text else st.text } := by
  cases enabled : o.enabled with
  | false =>
    have same : o.append text = o := if_neg (by simp [enabled])
    rw [same, ← split]
    exact sound
  | true =>
    obtain ⟨silent, writing, outputs, discarded⟩ := sound.alone split enabled
    have was := sound.streams o (split ▸ by simp) enabled
    have now : o.append text = { st.begun with buffer := st.text ++ text } := by
      rw [LogStream.append, if_pos enabled, was]
    refine ⟨fun x among on => ?_, ?_, ?_, ?_⟩
    · rw [if_pos rfl]
      rcases List.mem_append.mp among with left | right
      · exact absurd (silent x (List.mem_append_left _ left)) (by simp [on])
      rcases List.mem_cons.mp right with rfl | right
      · exact now
      · exact absurd (silent x (List.mem_append_right _ right)) (by simp [on])
    · exact fun w among => absurd (writing ▸ among) List.not_mem_nil
    · exact fun x among => absurd (outputs ▸ among) List.not_mem_nil
    · have still : (o.append text).enabled = o.enabled := by rw [now, was]
      have once := sound.once
      simp only [live, split, List.countP_append, List.countP_cons, still] at once ⊢
      exact once

theorem sound_move {before after : List LogStream} {o : LogStream} (sound : st.Sound)
    (split : st.streams = before ++ o :: after) :
    Sound { st with streams := before ++ o.movedFrom :: after ++ [o] } := by
  refine ⟨fun x among on => ?_, sound.writing, sound.outputs, ?_⟩
  · have kept : x ∈ st.streams ∨ x = o.movedFrom := by
      rw [split]
      simp only [List.mem_append, List.mem_cons, List.not_mem_nil, or_false] at among ⊢
      tauto
    rcases kept with kept | rfl
    · exact sound.streams x kept on
    · exact absurd on (by simp [LogStream.movedFrom])
  · have once := sound.once
    simp only [live, split, List.countP_append, List.countP_cons, List.countP_nil, LogStream.movedFrom] at once ⊢
    simp only [Bool.false_eq_true, if_false]
    omega

theorem length_destroy (o : LogStream) : (o.destroy : List (Writing H)).length = o.enabled.toNat := by
  unfold LogStream.destroy
  cases o.enabled with
  | false => rfl
  | true => cases o.channel <;> rfl

theorem record_destroy {o : LogStream} {w : Writing H} (among : w ∈ o.destroy) :
    o.enabled = true ∧ w.record = o.record := by
  unfold LogStream.destroy at among
  split at among
  · refine ⟨‹_›, ?_⟩
    split at among <;> exact List.mem_singleton.mp among ▸ rfl
  · exact absurd among List.not_mem_nil

theorem sound_destroy {before after : List LogStream} {o : LogStream} (sound : st.Sound)
    (split : st.streams = before ++ o :: after) :
    Sound { st with streams := before ++ after, writing := st.writing ++ o.destroy } := by
  refine ⟨fun x among => sound.streams x ?_, fun w among => ?_, sound.outputs, ?_⟩
  · rw [split]
    simp only [List.mem_append, List.mem_cons] at among ⊢
    tauto
  · rcases List.mem_append.mp among with before | last
    · exact sound.writing w before
    · obtain ⟨enabled, same⟩ := record_destroy last
      have was := sound.streams o (split ▸ by simp) enabled
      rw [same, was]
      rfl
  · have once := sound.once
    simp only [live, split, List.countP_append, List.countP_cons, List.length_append, length_destroy] at once ⊢
    cases enabled : o.enabled <;> simp only [enabled, Bool.toNat_true, Bool.toNat_false, if_true, if_false,
      Bool.false_eq_true] at once ⊢ <;> omega

/-- The write that goes on is replaced by what comes next. -/
theorem sound_proceed {before after : List (Writing H)} {w : Writing H} (sound : st.Sound)
    (split : st.writing = before ++ w :: after) (s : Logs H) :
    (s.proceed { st with writing := before ++ after } w).Sound := by
  have same : w.record = st.record := sound.writing w (split ▸ by simp)
  have kept : ∀ x ∈ before ++ after, x.record = st.record := fun x among => sound.writing x (by
    rw [split]
    simp only [List.mem_append, List.mem_cons] at among ⊢
    tauto)
  have once := sound.once
  rw [split, List.length_append, List.length_cons] at once
  have goesOn : ∀ next : Writing H, next.record = st.record →
      Sound { st with writing := before ++ after ++ [next] } := by
    refine fun next record => ⟨sound.streams, fun x among => ?_, sound.outputs, ?_⟩
    · rcases List.mem_append.mp among with earlier | last
      · exact kept x earlier
      · exact List.mem_singleton.mp last ▸ record
    · simp only [live, List.length_append, List.length_singleton] at once ⊢
      omega
  cases w with
  | channel channel record =>
    unfold Logs.proceed
    dsimp only
    split
    · exact goesOn _ same
    · exact goesOn _ same
  | logger record =>
    unfold Logs.proceed
    dsimp only
    split
    · exact goesOn _ same
    · refine ⟨sound.streams, kept, sound.outputs, ?_⟩
      simp only [live, List.length_append] at once ⊢
      omega
  | enabled record => exact goesOn _ same
  | dispatch handler record =>
    refine ⟨sound.streams, kept, fun x among => ?_, ?_⟩
    · rcases List.mem_append.mp among with earlier | last
      · exact sound.outputs x earlier
      · obtain rfl := List.mem_singleton.mp last
        obtain rfl : record = st.record := same
        exact ⟨handler, rfl⟩
    · simp only [Logs.proceed, live, List.length_append, List.length_singleton] at once ⊢
      omega

/-! ### One step -/

/-- What a part of a statement's run changes. -/
inductive Change (s : Logs H) (st : Statement H) : Statement H → Prop where
  | append (before after : List LogStream) (o : LogStream) (split : st.streams = before ++ o :: after) (text : String) :
      Change s st { st with
        streams := before ++ o.append text :: after
        text := if o.enabled then st.text ++ text else st.text }
  | move (before after : List LogStream) (o : LogStream) (split : st.streams = before ++ o :: after) :
      Change s st { st with streams := before ++ o.movedFrom :: after ++ [o] }
  | destroy (before after : List LogStream) (o : LogStream) (split : st.streams = before ++ o :: after) :
      Change s st { st with streams := before ++ after, writing := st.writing ++ o.destroy }
  | write (before after : List (Writing H)) (w : Writing H) (split : st.writing = before ++ w :: after) :
      Change s st (s.proceed { st with writing := before ++ after } w)

theorem changes {p : Part} (performed : s.perform st p = some u) : Change s st u := by
  cases p with
  | append index text =>
    obtain ⟨o, found, rfl⟩ := Option.map_eq_some_iff.mp performed
    obtain ⟨before, after, split, -, set⟩ := Lists.split_at found
    rw [set]
    exact .append before after o split text
  | move index =>
    obtain ⟨o, found, rfl⟩ := Option.map_eq_some_iff.mp performed
    obtain ⟨before, after, split, -, set⟩ := Lists.split_at found
    rw [set]
    exact .move before after o split
  | destroy index =>
    obtain ⟨o, found, rfl⟩ := Option.map_eq_some_iff.mp performed
    obtain ⟨before, after, split, erased, -⟩ := Lists.split_at found
    rw [erased]
    exact .destroy before after o split
  | write index =>
    obtain ⟨w, found, rfl⟩ := Option.map_eq_some_iff.mp performed
    obtain ⟨before, after, split, erased, -⟩ := Lists.split_at found
    rw [erased]
    exact .write before after w split

theorem sound_change (sound : st.Sound) (change : Change s st u) : u.Sound := by
  cases change with
  | append before after o split text => exact sound_append sound split text
  | move before after o split => exact sound_move sound split
  | destroy before after o split => exact sound_destroy sound split
  | write before after w split => exact sound_proceed sound split s

theorem begun_change (change : Change s st u) : u.begun = st.begun := by
  cases change with
  | write before after w split =>
    cases w <;> unfold Logs.proceed <;> dsimp only <;> split <;> rfl
  | _ => rfl

/-! ### A channel with a handler -/

/-- The write goes to a handler of the channel. -/
def Through (c : Nat) (P : H → Prop) : Writing H → Prop
  | .channel channel _ => channel = c
  | .logger _ | .enabled _ => False
  | .dispatch handler _ => ∃ h, handler = some h ∧ P h

structure Prevails (c : Nat) (P : H → Prop) (st : Statement H) : Prop where
  writing : ∀ w ∈ st.writing, Through c P w
  outputs : ∀ x ∈ st.outputs, ∃ h record, P h ∧ x = .handled h record
  discarded : st.discarded = 0

variable {c : Nat} {P : H → Prop}

theorem prevails_proceed {before after : List (Writing H)} {w : Writing H} (prevails : st.Prevails c P)
    (split : st.writing = before ++ w :: after) (held : ∃ h, s.channels c = some h ∧ P h) :
    (s.proceed { st with writing := before ++ after } w).Prevails c P := by
  have through : Through c P w := prevails.writing w (split ▸ by simp)
  have kept : ∀ x ∈ before ++ after, Through c P x := fun x among => prevails.writing x (by
    rw [split]
    simp only [List.mem_append, List.mem_cons] at among ⊢
    tauto)
  cases w with
  | channel channel record =>
    obtain rfl : channel = c := through
    obtain ⟨h, found, chosen⟩ := held
    refine ⟨fun x among => ?_, ?_, ?_⟩ <;> simp only [Logs.proceed, found] at *
    · rcases List.mem_append.mp among with earlier | last
      · exact kept x earlier
      · exact List.mem_singleton.mp last ▸ ⟨h, rfl, chosen⟩
    · exact prevails.outputs
    · exact prevails.discarded
  | logger record => exact through.elim
  | enabled record => exact through.elim
  | dispatch handler record =>
    obtain ⟨h, rfl, chosen⟩ := through
    refine ⟨kept, fun x among => ?_, prevails.discarded⟩
    rcases List.mem_append.mp among with earlier | last
    · exact prevails.outputs x earlier
    · exact List.mem_singleton.mp last ▸ ⟨h, record, chosen, rfl⟩

theorem prevails_change (sound : st.Sound) (through : st.begun.channel = some c) (prevails : st.Prevails c P)
    (held : ∃ h, s.channels c = some h ∧ P h) (change : Change s st u) : u.Prevails c P := by
  cases change with
  | append before after o split text => exact ⟨prevails.writing, prevails.outputs, prevails.discarded⟩
  | move before after o split => exact ⟨prevails.writing, prevails.outputs, prevails.discarded⟩
  | destroy before after o split =>
    refine ⟨fun w among => ?_, prevails.outputs, prevails.discarded⟩
    rcases List.mem_append.mp among with before | last
    · exact prevails.writing w before
    · obtain ⟨enabled, -⟩ := record_destroy last
      have was := sound.streams o (split ▸ by simp) enabled
      have channel : o.channel = some c := by rw [was, through]
      rw [LogStream.destroy, if_pos enabled, channel] at last
      exact List.mem_singleton.mp last ▸ rfl
  | write before after w split => exact prevails_proceed prevails split held

end Statement

/-! ### Every run -/

namespace Logs

variable {H : Type} {s t s₀ : Logs H} {st : Statement H} {actions : List (Action H)} {c : Nat} {P : H → Prop}

/-- A statement is begun, or goes on, or is left alone. -/
theorem step_statements {a : Action H} (taken : s.step a = some t) (among : st ∈ t.statements) :
    st ∈ s.statements ∨ (∃ channel level file line, st = { begun := s.construct channel level file line }) ∨
      ∃ old ∈ s.statements, Statement.Change s old st := by
  cases a with
  | setHandler handler =>
    obtain rfl := Option.some.inj taken
    exact .inl among
  | setLevel level =>
    obtain rfl := Option.some.inj taken
    exact .inl among
  | setChannelHandler channel handler =>
    obtain rfl := Option.some.inj taken
    exact .inl among
  | construct channel level file line =>
    obtain rfl := Option.some.inj taken
    rcases List.mem_append.mp among with before | last
    · exact .inl before
    · exact .inr (.inl ⟨channel, level, file, line, List.mem_singleton.mp last⟩)
  | perform statement part =>
    simp only [step] at taken
    split at taken
    · contradiction
    · rename_i old found
      obtain ⟨new, performed, rfl⟩ := Option.map_eq_some_iff.mp taken
      rcases List.mem_or_eq_of_mem_set among with before | rfl
      · exact .inl before
      · exact .inr (.inr ⟨old, List.mem_of_getElem? found, Statement.changes performed⟩)

/-- Every statement is sound. -/
def Sound (s : Logs H) : Prop := ∀ st ∈ s.statements, st.Sound

theorem sound_step {a : Action H} (sound : s.Sound) (taken : s.step a = some t) : t.Sound := by
  intro st among
  rcases step_statements taken among with before | ⟨channel, level, file, line, rfl⟩ | ⟨old, before, change⟩
  · exact sound st before
  · exact Statement.sound_begun _ rfl
  · exact Statement.sound_change (sound old before) change

theorem sound_run (fresh : s₀.statements = []) (done : Runs.exec step s₀ actions = some s) : s.Sound := by
  have start : s₀.Sound := fun st among => absurd (fresh ▸ among) List.not_mem_nil
  exact Runs.Reaches.invariant start (fun _ _ _ sound _ taken => sound_step sound taken)
    (Runs.exec_reaches done (Runs.along_any actions))

/-- In every run, whatever is set meanwhile: a statement whose level was disabled when it was constructed writes
nothing. One whose level was enabled never writes twice, and what it writes is all that was streamed. Once its streams
are destroyed and its writes over, it has written or was discarded. -/
theorem statement_written_once (fresh : s₀.statements = []) (done : Runs.exec step s₀ actions = some s)
    (among : st ∈ s.statements) :
    (st.outputs = [] ∨ ∃ handler, st.outputs = [Logger.dispatch handler st.record]) ∧
      st.live + st.writing.length + st.outputs.length + st.discarded = st.begun.enabled.toNat := by
  have sound := sound_run fresh done st among
  refine ⟨?_, sound.once⟩
  have few := Bool.toNat_le st.begun.enabled
  have once := sound.once
  rcases Nat.eq_zero_or_pos st.outputs.length with none | some
  · exact .inl (List.eq_nil_of_length_eq_zero none)
  · obtain ⟨x, outputs⟩ := List.length_eq_one_iff.mp (show st.outputs.length = 1 by omega)
    obtain ⟨handler, rfl⟩ := sound.outputs x (outputs ▸ List.mem_singleton_self _)
    exact .inr ⟨handler, outputs⟩

/-- The statement is moved, and the handler set again, before its record is written. -/
def moving : List (Action Nat) :=
  [.setHandler (some 1), .construct none .info "client.hpp" 5, .perform 0 (.append 0 "a"), .perform 0 (.move 0),
    .perform 0 (.append 1 "b"), .perform 0 (.append 0 "c"), .perform 0 (.destroy 1), .setHandler (some 2),
    .perform 0 (.write 0), .perform 0 (.write 0), .setHandler none, .perform 0 (.destroy 0), .perform 0 (.write 0)]

theorem moved_statement_written : ∃ s st, Runs.exec step ({} : Logs Nat) moving = some s ∧ s.statements = [st] ∧
    (st.outputs = [] ∨ ∃ handler, st.outputs = [Logger.dispatch handler st.record]) ∧
      st.live + st.writing.length + st.outputs.length + st.discarded = st.begun.enabled.toNat := by
  have run : (Runs.exec step ({} : Logs Nat) moving).map (fun s => decide (s.statements.length = 1)) = some true := by
    decide +kernel
  obtain ⟨s, done, fact⟩ := Runs.exec_of_check run
  obtain ⟨st, only⟩ := List.length_eq_one_iff.mp (of_decide_eq_true fact)
  exact ⟨s, st, done, only, statement_written_once rfl done (only ▸ List.mem_singleton_self st)⟩

/-- Every statement through the channel is served by it. -/
def Serves (c : Nat) (P : H → Prop) (s : Logs H) : Prop :=
  s.Sound ∧ ∀ st ∈ s.statements, st.begun.channel = some c → st.Prevails c P

theorem serves_step {a : Action H} (serves : s.Serves c P) (held : ∃ h, s.channels c = some h ∧ P h)
    (taken : s.step a = some t) : t.Serves c P := by
  refine ⟨sound_step serves.1 taken, fun st among through => ?_⟩
  rcases step_statements taken among with before | ⟨channel, level, file, line, rfl⟩ | ⟨old, before, change⟩
  · exact serves.2 st before through
  · exact ⟨by simp, by simp, rfl⟩
  · have same := Statement.begun_change change
    rw [same] at through
    exact Statement.prevails_change (serves.1 old before) through (serves.2 old before through) held change

/-- As long as a channel has handlers with `P`, each statement through it whose level was enabled when it was
constructed ends with one call of such a handler, with all that was streamed, whatever becomes of the process wide
handler and level. -/
theorem channel_prevails (fresh : s₀.statements = [])
    (held : Runs.Along step (fun s _ => ∃ h, s.channels c = some h ∧ P h) s₀ actions)
    (done : Runs.exec step s₀ actions = some s) (among : st ∈ s.statements) (through : st.begun.channel = some c)
    (enabled : st.begun.enabled = true) (destroyed : st.streams = []) (idle : st.writing = []) :
    ∃ h, P h ∧ st.outputs = [.handled h st.record] := by
  have start : s₀.Serves c P :=
    ⟨fun st among => absurd (fresh ▸ among) List.not_mem_nil, fun st among => absurd (fresh ▸ among) List.not_mem_nil⟩
  have serves : s.Serves c P := Runs.Reaches.invariant start
    (fun _ _ _ serves held taken => serves_step serves held taken) (Runs.exec_reaches done held)
  have sound := serves.1 st among
  have prevails := serves.2 st among through
  have once := sound.once
  rw [Statement.live, destroyed, idle, prevails.discarded, enabled] at once
  obtain ⟨x, outputs⟩ := List.length_eq_one_iff.mp (show st.outputs.length = 1 by simpa using once)
  have given : x ∈ st.outputs := outputs ▸ List.mem_singleton_self x
  obtain ⟨handler, whole⟩ := sound.outputs x given
  obtain ⟨h, record, chosen, rfl⟩ := prevails.outputs x given
  refine ⟨h, chosen, ?_⟩
  cases handler with
  | none => exact absurd whole (by simp [Logger.dispatch, defaultLogSink])
  | some g =>
    obtain ⟨rfl, rfl⟩ := Output.handled.inj whole
    exact outputs

/-- The level is raised and the process wide handler set while the statement is under way. -/
def channelled : List (Action Nat) :=
  [.construct (some 3) .info "client.hpp" 5, .perform 0 (.append 0 "a"), .setLevel .off, .setHandler (some 1),
    .perform 0 (.destroy 0), .perform 0 (.write 0), .perform 0 (.write 0)]

theorem channelled_statement_handled : ∃ s st,
    Runs.exec step ({ channels := fun _ => some 7 } : Logs Nat) channelled = some s ∧ s.statements = [st] ∧
      ∃ h, h = 7 ∧ st.outputs = [.handled h st.record] := by
  have run : (Runs.exec step ({ channels := fun _ => some 7 } : Logs Nat) channelled).map
      (fun s => decide (s.statements.map
        (fun st => (st.begun.channel, st.begun.enabled, st.streams, st.writing)) = [(some 3, true, [], [])])) =
          some true := by
    decide +kernel
  obtain ⟨s, done, fact⟩ := Runs.exec_of_check run
  have facts := of_decide_eq_true fact
  obtain ⟨st, rest, only, shape, none⟩ := List.map_eq_cons_iff.mp facts
  obtain rfl := List.map_eq_nil_iff.mp none
  simp only [Prod.mk.injEq] at shape
  obtain ⟨through, enabled, destroyed, idle⟩ := shape
  have held : Runs.Along step (fun s _ => ∃ h, s.channels 3 = some h ∧
      h = 7) ({ channels := fun _ => some 7 } : Logs Nat)
      channelled := by
    simp [Runs.Along, channelled, step, perform]
  exact ⟨s, st, done, only,
    channel_prevails rfl held done (only ▸ List.mem_singleton_self st) through enabled destroyed idle⟩

end Logs
end LiteMqtt
