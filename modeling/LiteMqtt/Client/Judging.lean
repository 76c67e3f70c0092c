import LiteMqtt.Client.Subscribing

/-!
# A verdict for every subscription

What a run of an attentive client keeps: each callback counts for as much as was asked, each pending
subscription is the last one made with its packet id, and what was pending when a session ended waits for the
loop that tells it.
-/

namespace LiteMqtt

theorem subscriber_append {news : List Event} (quiet : ∀ e ∈ news, e.grants = false) (p : UInt16) (log : List Event) :
    subscriber p (news ++ log) = subscriber p log := by
  induction news with
  | nil => rfl
  | cons e news ih =>
    exact (subscriber_cons (quiet e (.head _)) p _).trans (ih fun x among => quiet x (.tail _ among))

theorem granted_append {c : Callback} (news : List Event) {log : List Event} (before : granted c log = true) :
    granted c (news ++ log) = true := by
  induction news with
  | nil => exact before
  | cons e news ih => exact granted_later e ih

theorem rewards_quiet {c : Callback} {e : Event} (quiet : e.grants = false) : e.rewards c = false := by
  cases e with
  | subscribeReport cb success =>
    cases success with
    | false => exact Bool.and_false _
    | true => cases quiet
  | _ => rfl

theorem earned_append {c : Callback} {news log : List Event} (quiet : ∀ e ∈ news, e.grants = false)
    (earned : Earned c log) : Earned c (news ++ log) := by
  induction news with
  | nil => exact earned
  | cons e news ih =>
    refine ⟨fun rewards => ?_, ih fun x among => quiet x (.tail _ among)⟩
    exact absurd ((rewards_quiet (quiet e (.head _))).symm.trans rewards) Bool.false_ne_true

theorem granted_of_earned {c : Callback} {log : List Event} (earned : Earned c log)
    (told : 0 < log.countP (Event.rewards c)) :
    granted c log = true := by
  induction log with
  | nil => exact absurd told (Nat.lt_irrefl 0)
  | cons e log ih =>
    by_cases rewards : e.rewards c = true
    · exact granted_later e (earned.1 rewards)
    · rw [List.countP_cons_of_neg rewards] at told
      exact granted_later e (ih earned.2 told)

theorem judged_split (c : Callback) (log : List Event) :
    log.countP (Event.judges c) = log.countP (Event.rewards c) + log.countP (Event.denies c) := by
  induction log with
  | nil => rfl
  | cons e log ih =>
    simp only [List.countP_cons, ih]
    cases e with
    | subscribeReport cb success => cases success <;> simp [Event.judges, Event.rewards, Event.denies] <;> omega
    | _ => simp [Event.judges, Event.rewards, Event.denies]

theorem subscribed_of_subscriber {p : UInt16} {c : Callback} {log : List Event} (stands : subscriber p log = some c) :
    .subscribed p c ∈ log := by
  induction log with
  | nil => cases stands
  | cons e log ih =>
    by_cases quiet : e.grants = false
    · exact .tail _ (ih ((subscriber_cons quiet p log).symm.trans stands))
    cases e with
    | subscribed q cb =>
      by_cases same : q = p
      · rw [subscriber, if_pos same] at stands
        obtain rfl := Option.some.inj stands
        exact same ▸ .head _
      · rw [subscriber, if_neg same] at stands
        exact .tail _ (ih stands)
    | received pt q codes =>
      cases pt with
      | suback =>
        by_cases same : q = p
        · rw [subscriber, if_pos same] at stands
          cases stands
        · rw [subscriber, if_neg same] at stands
          exact .tail _ (ih stands)
      | _ => exact .tail _ (ih stands)
    | subscribeReport => exact .tail _ (ih stands)
    | _ => exact absurd rfl quiet

namespace Sys

variable {s t u : Sys} {p : UInt16} {c : Callback}

/-! ### What was granted -/

/-- A success comes from the SUBACK of the subscription. -/
structure Honored (s : Sys) : Prop where
  earned : ∀ c, Earned c s.log
  attested : ∀ p entry, s.pendingSubscribes.find? p = some entry →
    subscriber p s.log = some entry.callback ∧ entry.filters.length = 1
  queued : ∀ cb pairs, .subackEach cb pairs ∈ s.tasks →
    pairs.length ≤ 1 ∧ ∀ pair ∈ pairs, pair.2 ≠ 0x80 → granted cb s.log = true

theorem tasks_asyncSubscribe {topic : Bytes} {qos : UInt8} {able : Bool} {k : Work}
    (among : k ∈ (s.asyncSubscribe topic qos able).tasks) :
    k ∈ s.tasks ∨ k = .asyncSubscribeImpl topic qos { id := s.nextCallback, callable := able } := by
  unfold asyncSubscribe at among
  rw [Sys.tasks, post, Net.post_posted, List.append_assoc] at among
  rcases List.mem_append.mp among with posted | later
  · exact .inl (List.mem_append_left _ posted)
  rcases List.mem_append.mp later with new | runs
  · exact .inr (by simpa [Task.own?] using new)
  · exact .inl (List.mem_append_right _ runs)

theorem honored_step {a : Action} (posting : s.Posting) (honest : s.presumes a = false) (taken : s.step a = some t)
    (honored : s.Honored) : t.Honored := by
  obtain ⟨earned, attested, queued⟩ := honored
  have plain : ∀ {e : Event} {log : List Event}, (∀ c, e.rewards c = false) → (∀ c, Earned c log) →
      ∀ c, Earned c (e :: log) :=
    fun none earned c => ⟨fun rewards => absurd ((none c).symm.trans rewards) Bool.false_ne_true, earned c⟩
  -- what a loop has yet to tell was granted, and stays so
  have stays : ∀ {e : Event} {cb : Callback} {pairs : List (Bytes × UInt8)}, .subackEach cb pairs ∈ s.tasks →
      pairs.length ≤ 1 ∧ ∀ pair ∈ pairs, pair.2 ≠ 0x80 → granted cb (e :: s.log) = true := fun among =>
    ⟨(queued _ _ among).1, fun pair within some => granted_later _ ((queued _ _ among).2 pair within some)⟩
  cases grants_step posting taken with
  | placid placid =>
    obtain ⟨news, log, quiet⟩ := placid.log
    refine ⟨fun c => log ▸ earned_append quiet (earned c), fun p entry found => ?_, fun cb pairs among => ?_⟩
    · rw [log, subscriber_append quiet]
      exact attested p entry (placid.pending p entry found)
    · obtain ⟨single, grants⟩ := queued cb pairs (placid.tasks _ among rfl)
      exact ⟨single, fun pair within some => log ▸ granted_append news (grants pair within some)⟩
  | asks topic qos able same =>
    subst same
    refine ⟨plain (fun _ => rfl) earned, attested, fun cb pairs among => stays ?_⟩
    refine (tasks_asyncSubscribe among).resolve_right fun same => ?_
    cases same
  | subscribes topic qos cb p ran alone subscribes =>
    obtain ⟨packet, log⟩ := subscribes.log
    refine ⟨fun c => ?_, fun q entry found => ?_, fun other pairs among => ?_⟩
    · rw [log]
      exact plain (fun _ => rfl) (plain (fun _ => rfl) earned) c
    · rw [subscribes.pending, OrderedMap.find?_insert] at found
      rw [log, subscriber_cons rfl]
      by_cases same : q = p
      · rw [if_pos same] at found
        obtain rfl := Option.some.inj found
        exact ⟨if_pos same.symm, rfl⟩
      · rw [if_neg same] at found
        exact ⟨(if_neg (Ne.symm same)).trans (attested q entry found).1, (attested q entry found).2⟩
    · obtain ⟨single, grants⟩ := queued other pairs (subscribes.tasks _ among rfl)
      exact ⟨single, fun pair within some => log ▸ granted_later _ (granted_later _ (grants pair within some))⟩
  | takes pkt suback takes =>
    refine ⟨fun c => takes.log ▸ plain (fun _ => rfl) earned c, fun q entry found => ?_, fun cb pairs among => ?_⟩
    · rw [takes.pending, OrderedMap.find?_erase] at found
      split at found
      · cases found
      · rename_i other
        rw [takes.log]
        exact ⟨(if_neg (Ne.symm other)).trans (attested q entry found).1, (attested q entry found).2⟩
    · rw [takes.log]
      rcases takes.tasks _ among rfl with before | ⟨entry, found, -, same⟩
      · exact stays before
      · obtain ⟨rfl, rfl⟩ := Work.subackEach.inj same
        obtain ⟨stands, single⟩ := attested _ entry found
        refine ⟨?_, fun pair within some => ?_⟩
        · rw [List.length_zip, List.length_map, single]
          exact Nat.min_le_left _ _
        · -- the one filter takes the first return code
          obtain ⟨filter, filters⟩ := List.length_eq_one_iff.mp single
          cases codes : pkt.returnCodes with
          | nil => simp [filters, codes] at within
          | cons code more =>
            have only : pair = (filter.1, code) := by simpa [filters, codes] using within
            rw [only] at some
            simp [granted, stands, some]
  | tells cb topic code rest ran tells =>
    have told := queued cb ((topic, code) :: rest) (List.mem_append_right _ ran)
    have last : rest = [] := List.length_eq_zero_iff.mp (by simpa using told.1)
    refine ⟨fun c => ?_, fun p entry found => ?_, fun other pairs among => ?_⟩
    · rcases tells.log with log | ⟨topic, qos, log⟩
      · exact log ▸ earned c
      · rw [log]
        refine ⟨fun rewards => ?_, earned c⟩
        obtain ⟨rfl, some⟩ : cb = c ∧ code ≠ 0x80 := by simpa [Event.rewards] using rewards
        exact told.2 _ (.head _) some
    · rw [tells.pending] at found
      rcases tells.log with log | ⟨topic, qos, log⟩
      · exact log ▸ attested p entry found
      · rw [log]
        exact attested p entry found
    · rcases tells.tasks _ among rfl with before | same
      · rcases tells.log with log | ⟨topic, qos, log⟩
        · exact log ▸ queued other pairs before
        · exact log ▸ stays before
      · obtain ⟨rfl, rfl⟩ := Work.subackEach.inj same
        rw [last]
        exact ⟨Nat.zero_le 1, fun _ none => absurd none List.not_mem_nil⟩
  | presumes early => exact absurd (honest.symm.trans early) Bool.false_ne_true

/-! ### What counts for a callback -/

/-- What every state of an attentive run counts for each callback. -/
structure Weighed (s : Sys) : Prop where
  posting : s.Posting
  sane : s.undefined = false
  level : ∀ c : Callback, c.callable = true → (subscribeAccount c).total s = (subscribeAccount c).given s
  fresh : ∀ c : Callback, c.callable = true → s.nextCallback ≤ c.id → (subscribeAccount c).given s = 0
  single : ∀ c : Callback, c.callable = true → (subscribeAccount c).given s ≤ 1

theorem weighed_step {a : Action} (weighed : s.Weighed) (attentive : s.Attentive a) (taken : s.step a = some t) :
    t.Weighed := by
  obtain ⟨candid, whole, -, -, safe⟩ := attentive
  obtain ⟨posting, -, level, fresh, single⟩ := weighed
  have sane := defined_step taken safe
  by_cases subscribes : ∃ topic qos able, a = .call (.asyncSubscribe topic qos able) ∧
    t = s.asyncSubscribe topic qos able
  · obtain ⟨topic, qos, able, -, rfl⟩ := subscribes
    have asks := fun c => Verdicts.asyncSubscribe_asks c s topic qos able
    refine ⟨posting_step posting taken, sane, fun c callable => ?_, fun c callable later => ?_, fun c callable => ?_⟩
    · rw [(asks c).1, (asks c).2, level c callable]
    · rw [(asks c).2, fresh c callable (Nat.le_of_succ_le later)]
      refine (Nat.zero_add _).trans (Callback.share_other fun same => ?_)
      exact absurd (congrArg Callback.id same ▸ later) (Nat.not_succ_le_self _)
    · rw [(asks c).2]
      by_cases same : ({ id := s.nextCallback, callable := able } : Callback) = c
      · rw [fresh c callable (same ▸ Nat.le_refl s.nextCallback), same, Callback.share_self]
      · rw [Callback.share_other same]
        exact single c callable
  · have gains : ∀ c : Callback, c.callable = true → (subscribeAccount c).Gains 0 s t := by
      intro c callable
      rcases Verdicts.rises_step callable posting whole taken with halts | rises | asks
      · exact absurd (sane.symm.trans halts.1) Bool.false_ne_true
      · obtain ⟨n, gains, zero⟩ := rises
        exact zero candid ▸ gains
      · exact absurd asks subscribes
    have later : s.nextCallback ≤ t.nextCallback := by
      rcases nextCallback_step taken with same | ⟨-, more⟩ <;> omega
    refine ⟨posting_step posting taken, sane, fun c callable => ?_, fun c callable after => ?_, fun c callable => ?_⟩
    · rw [(gains c callable).total, (gains c callable).given, level c callable]
      rfl
    · rw [(gains c callable).given]
      exact fresh c callable (later.trans after)
    · rw [(gains c callable).given]
      exact single c callable

theorem holds_of_task {A : Account} {k : Work} (among : k ∈ s.tasks) : A.scale.work k ≤ s.net.holds A.scale := by
  rcases List.mem_append.mp among with posted | runs
  · obtain ⟨task, within, own⟩ := List.mem_filterMap.mp posted
    obtain rfl : task = .own k := by
      cases task with
      | own j => exact congrArg _ (Option.some.inj own)
      | _ => cases own
    exact Net.task_le_holds A.scale within
  · obtain ⟨entry, within, own⟩ := List.mem_filterMap.mp runs
    obtain rfl : entry = .own k := by
      cases entry with
      | own j => exact congrArg _ (Option.some.inj own)
      | _ => cases own
    exact Net.entry_le_holds A.scale within

theorem Weighed.once (weighed : s.Weighed) (callable : c.callable = true) : s.log.countP (Event.judges c) ≤ 1 := by
  have level := weighed.level c callable
  have single := weighed.single c callable
  unfold Account.total at level
  change _ + s.log.countP (Event.judges c) = _ at level
  omega

theorem Weighed.alone (weighed : s.Weighed) (honored : s.Honored) (callable : c.callable = true)
    {entry : PendingSubscribe}
    (found : s.pendingSubscribes.find? p = some entry) (own : entry.callback = c) (quiet : s.flushing = false) :
    0 < (subscribeAccount c).given s ∧ s.net.holds (subscribeAccount c).scale = 0 ∧
      s.log.countP (Event.judges c) = 0 := by
  have untold : (subscribeAccount c).passes s p = false := by
    refine List.any_eq_false.mpr fun k among passed => ?_
    refine Bool.false_ne_true (quiet.symm.trans (flushing_iff.mpr ⟨k, among, ?_⟩))
    by_contra steady
    exact Bool.false_ne_true (((subscribeAccount c).loops k p steady).symm.trans passed)
  have owes := Verdicts.owing_erase (c := c) found
  rw [Verdicts.debt, untold, if_neg Bool.false_ne_true, own, Callback.share_self,
    (honored.attested p entry found).2] at owes
  have level := weighed.level c callable
  have single := weighed.single c callable
  unfold Account.total at level
  change _ + s.log.countP (Event.judges c) = _ at level
  omega

/-- The subscription that a callback was told of, or that waits, is no task any more. -/
def Untasked (s : Sys) : Prop :=
  ∀ p c, .subscribed p c ∈ s.log → c.callable = true →
    0 < (subscribeAccount c).given s ∧ ∀ topic qos, .asyncSubscribeImpl topic qos c ∉ s.tasks

theorem untasked_step {a : Action} (weighed : s.Weighed) (later : t.Weighed) (honored : t.Honored)
    (honest : s.presumes a = false) (taken : s.step a = some t) (untasked : s.Untasked) : t.Untasked := by
  -- an old subscription, where nothing new is a task
  have stays : ∀ {p : UInt16} {c : Callback}, (∃ news, t.log = news ++ s.log) →
      (∀ topic qos, .asyncSubscribeImpl topic qos c ∈ t.tasks → .asyncSubscribeImpl topic qos c ∈ s.tasks) →
      .subscribed p c ∈ s.log → c.callable = true →
      0 < (subscribeAccount c).given t ∧ ∀ topic qos, .asyncSubscribeImpl topic qos c ∉ t.tasks := by
    rintro p c ⟨news, log⟩ tasks made callable
    obtain ⟨asked, none⟩ := untasked p c made callable
    refine ⟨asked.trans_le ?_, fun topic qos among => none topic qos (tasks topic qos among)⟩
    unfold Account.given
    rw [log, List.countP_append]
    exact Nat.le_add_left _ _
  intro p c made callable
  cases grants_step weighed.posting taken with
  | placid placid =>
    obtain ⟨news, log, quiet⟩ := placid.log
    rw [log] at made
    refine stays ⟨news, log⟩ (fun _ _ among => placid.tasks _ among rfl)
      ((List.mem_append.mp made).resolve_left ?_) callable
    intro new
    cases quiet _ new
  | asks topic qos able same =>
    subst same
    have made : .subscribed p c ∈ s.log := (List.mem_cons.mp made).resolve_left fun same => by cases same
    refine stays ⟨[_], rfl⟩ (fun topic qos among => ?_) made callable
    refine (tasks_asyncSubscribe among).resolve_right fun same => ?_
    have new : c = { id := s.nextCallback, callable := able } := by
      injection same
    have none := weighed.fresh c callable (new ▸ Nat.le_refl _)
    exact absurd (untasked p c made callable).1 (none ▸ Nat.lt_irrefl 0)
  | subscribes topic qos cb q ran alone subscribes =>
    obtain ⟨packet, log⟩ := subscribes.log
    rw [log] at made
    rcases List.mem_cons.mp ((List.mem_cons.mp made).resolve_left fun same => by cases same) with same | before
    · obtain ⟨rfl, rfl⟩ := Event.subscribed.inj same
      have found : t.pendingSubscribes.find? p = some { filters := [(topic, qos)], callback := c } := by
        rw [subscribes.pending, OrderedMap.find?_insert, if_pos rfl]
      have quiet : t.flushing = false := by
        rw [flushing, alone]
        rfl
      obtain ⟨asked, none, -⟩ := later.alone honored callable found rfl quiet
      refine ⟨asked, fun topic qos among => ?_⟩
      have counts : (subscribeAccount c).scale.work (.asyncSubscribeImpl topic qos c) ≤ _ := holds_of_task among
      rw [none] at counts
      exact absurd (Callback.share_self c ▸ counts : 1 ≤ 0) (by decide)
    · exact stays ⟨[_, _], log⟩ (fun _ _ among => subscribes.tasks _ among rfl) before callable
  | takes pkt suback takes =>
    rw [takes.log] at made
    refine stays ⟨[_], takes.log⟩ (fun _ _ among => ?_) ((List.mem_cons.mp made).resolve_left fun same =>
      by cases same) callable
    refine (takes.tasks _ among rfl).resolve_right ?_
    rintro ⟨entry, -, -, same⟩
    cases same
  | tells cb topic code rest ran tells =>
    have tasks : ∀ topic qos, .asyncSubscribeImpl topic qos c ∈ t.tasks → .asyncSubscribeImpl topic qos c ∈ s.tasks :=
      fun topic qos among => (tells.tasks _ among rfl).resolve_right fun same => by cases same
    rcases tells.log with log | ⟨topic, qos, log⟩
    · exact stays ⟨[], log⟩ tasks (log ▸ made) callable
    · rw [log] at made
      exact stays ⟨[_], log⟩ tasks ((List.mem_cons.mp made).resolve_left fun same => by cases same) callable
  | presumes early => exact absurd (honest.symm.trans early) Bool.false_ne_true

theorem Grants.log {a : Action} (grants : Grants s a t) (honest : s.presumes a = false) :
    ∃ news, t.log = news ++ s.log := by
  cases grants with
  | placid placid =>
    obtain ⟨news, log, -⟩ := placid.log
    exact ⟨news, log⟩
  | asks topic qos able same =>
    subst same
    exact ⟨[_], rfl⟩
  | subscribes topic qos cb p ran alone subscribes =>
    obtain ⟨packet, log⟩ := subscribes.log
    exact ⟨[_, _], log⟩
  | takes pkt suback takes => exact ⟨[_], takes.log⟩
  | tells cb topic code rest ran tells =>
    rcases tells.log with log | ⟨topic, qos, log⟩
    · exact ⟨[], log⟩
    · exact ⟨[_], log⟩
  | presumes early => exact absurd (honest.symm.trans early) Bool.false_ne_true

theorem Grants.pending {a : Action} (grants : Grants s a t) (honest : s.presumes a = false) {entry : PendingSubscribe}
    (found : t.pendingSubscribes.find? p = some entry) : s.pendingSubscribes.find? p = some entry ∨
      t.closed = false ∧ t.flushing = false ∧ ∃ topic qos, .asyncSubscribeImpl topic qos entry.callback ∈ s.tasks := by
  cases grants with
  | placid placid => exact .inl (placid.pending p entry found)
  | asks topic qos able same =>
    subst same
    exact .inl found
  | subscribes topic qos cb q ran alone subscribes =>
    rw [subscribes.pending, OrderedMap.find?_insert] at found
    split at found
    · obtain rfl := Option.some.inj found
      refine .inr ⟨subscribes.closed, ?_, topic, qos, List.mem_append_right _ ran⟩
      rw [flushing, alone]
      rfl
    · exact .inl found
  | takes pkt suback takes =>
    rw [takes.pending, OrderedMap.find?_erase] at found
    split at found
    · cases found
    · exact .inl found
  | tells cb topic code rest ran tells => exact .inl (tells.pending ▸ found)
  | presumes early => exact absurd (honest.symm.trans early) Bool.false_ne_true

/-- The callback was told no success, and no SUBACK will tell it one. -/
structure Denied (s : Sys) (c : Callback) : Prop where
  told : s.log.countP (Event.rewards c) = 0
  queued : ∀ pairs, .subackEach c pairs ∈ s.tasks → pairs = []

theorem denied_step {a : Action} (posting : s.Posting) (honest : s.presumes a = false) (taken : s.step a = some t)
    (apart : ∀ pkt entry, s.suback a = some pkt → t.closed = s.closed →
      s.pendingSubscribes.find? pkt.packetId = some entry →
      entry.callback.callable = true → entry.callback ≠ c) (denied : s.Denied c) : t.Denied c := by
  obtain ⟨told, queued⟩ := denied
  have plain : ∀ {e : Event}, e.rewards c = false → (e :: s.log).countP (Event.rewards c) = 0 := fun quiet =>
    (List.countP_cons_of_neg (by simp [quiet])).trans told
  cases grants_step posting taken with
  | placid placid =>
    obtain ⟨news, log, quiet⟩ := placid.log
    refine ⟨?_, fun pairs among => queued pairs (placid.tasks _ among rfl)⟩
    rw [log, List.countP_append, told, Nat.add_zero]
    exact List.countP_eq_zero.mpr fun e among => by simp [rewards_quiet (quiet e among)]
  | asks topic qos able same =>
    subst same
    exact ⟨plain rfl,
      fun pairs among => queued pairs ((tasks_asyncSubscribe among).resolve_right fun same => by cases same)⟩
  | subscribes topic qos cb p ran alone subscribes =>
    obtain ⟨packet, log⟩ := subscribes.log
    refine ⟨?_, fun pairs among => queued pairs (subscribes.tasks _ among rfl)⟩
    rw [log]
    exact (List.countP_cons_of_neg Bool.false_ne_true).trans (plain rfl)
  | takes pkt suback takes =>
    refine ⟨takes.log ▸ plain rfl, fun pairs among => queued pairs ((takes.tasks _ among rfl).resolve_right ?_)⟩
    rintro ⟨entry, found, callable, same⟩
    exact apart pkt entry suback takes.closed found callable (Work.subackEach.inj same).1.symm
  | tells cb topic code rest ran tells =>
    have other : cb ≠ c := by
      rintro rfl
      exact List.cons_ne_nil _ _ (queued _ (List.mem_append_right _ ran))
    refine ⟨?_, fun pairs among => queued pairs ((tells.tasks _ among rfl).resolve_right fun same => ?_)⟩
    · rcases tells.log with log | ⟨topic, qos, log⟩
      · exact log ▸ told
      · exact log ▸ plain (by simp [Event.rewards, other])
    · exact other (Work.subackEach.inj same).1.symm
  | presumes early => exact absurd (honest.symm.trans early) Bool.false_ne_true

end Sys

/-- A run of the client, with the callbacks whose subscriptions were pending when a session ended. -/
structure Roster where
  sys : Sys := {}
  lapsed : List Callback := []

namespace Roster
open Sys

variable {r e : Roster} {p : UInt16} {c : Callback}

/-- The callbacks of the pending subscriptions. -/
def pending (s : Sys) : List Callback := s.pendingSubscribes.entries.map fun e => e.2.callback

/-- A session ends when `closed_` is set. -/
def step (r : Roster) (a : Action) : Option Roster :=
  (r.sys.step a).map fun sys =>
    { sys, lapsed := if !r.sys.closed && sys.closed then pending r.sys ++ r.lapsed else r.lapsed }

def Attentive (r : Roster) (a : Action) : Prop := r.sys.Attentive a

instance (r : Roster) (a : Action) : Decidable (r.Attentive a) := inferInstanceAs (Decidable (r.sys.Attentive a))

/-- The callback was called at most once, and with success only after a SUBACK granted its subscription. If the
session ended first, it was called once with a failure as soon as no code runs; and so it was while `closed_` is
set, unless its task has yet to run. -/
structure Judged (r : Roster) (c : Callback) : Prop where
  once : r.sys.log.countP (Event.judges c) ≤ 1
  earned : Earned c r.sys.log
  failed : c ∈ r.lapsed → r.sys.net.stack = [] → r.sys.log.countP (Event.denies c) = 1
  refused : r.sys.closed = true → r.sys.net.stack = [] → granted c r.sys.log = false →
    (∃ topic qos, .asyncSubscribeImpl topic qos c ∈ r.sys.net.posted) ∨ r.sys.log.countP (Event.denies c) = 1

/-- What every state of an attentive run has. -/
structure Settled (r : Roster) : Prop where
  weighed : r.sys.Weighed
  honored : r.sys.Honored
  untasked : r.sys.Untasked
  listed : ∀ c ∈ r.lapsed, ∃ p, .subscribed p c ∈ r.sys.log
  /-- The loop that ends its session is still running. -/
  unfinished : ∀ p entry, r.sys.pendingSubscribes.find? p = some entry → entry.callback.callable = true →
    entry.callback ∈ r.lapsed → r.sys.flushing = true
  covered : r.sys.closed = true ∨ r.sys.flushing = true → ∀ p entry, r.sys.pendingSubscribes.find? p = some entry →
    entry.callback.callable = true → entry.callback ∈ r.lapsed
  denied : ∀ c ∈ r.lapsed, c.callable = true → r.sys.Denied c

theorem mem_pending {s : Sys} :
    c ∈ pending s ↔ ∃ p entry, s.pendingSubscribes.find? p = some entry ∧ entry.callback = c := by
  unfold pending
  rw [List.mem_map]
  constructor
  · rintro ⟨⟨p, entry⟩, among, own⟩
    exact ⟨p, entry, OrderedMap.find?_eq_some.mpr among, own⟩
  · rintro ⟨p, entry, found, own⟩
    exact ⟨(p, entry), OrderedMap.find?_eq_some.mp found, own⟩

/-- Once a session has ended, the loop that tells its subscriptions runs until none is pending. -/
theorem flushed {s t : Sys} {a : Action} (attentive : s.Attentive a) (taken : s.step a = some t)
    (live : s.closed = false)
    (shut : t.closed = true) {entry : PendingSubscribe} (found : s.pendingSubscribes.find? p = some entry)
    (callable : entry.callback.callable = true) : t.flushing = true ∨ t.pendingSubscribes = .empty := by
  obtain ⟨-, -, tends, -, safe⟩ := attentive
  have sane := defined_step taken safe
  have expects : s.expecting = true :=
    List.any_eq_true.mpr ⟨(p, entry), OrderedMap.find?_eq_some.mp found, callable⟩
  have running : (s.refuses a || (s.expiring a).isSome) = true → s.flushing = true := by
    intro ends
    simpa [abandons, live, ends, expects] using tends
  rcases shut_step taken live shut with ⟨rest, -, rfl⟩ | ⟨attempt, rest, rfl, front⟩ | refuses
  · exact .inl (flushing_clearing (notifyClosedOnce_clears (s := s.goesOn rest) live))
  · exact flushing_step taken sane (running (by simp [expiring, front]))
  · exact flushing_step taken sane (running (by simp [refuses]))

theorem settled_step {a : Action} (settled : r.Settled) (attentive : r.Attentive a) (taken : r.step a = some e) :
    e.Settled := by
  obtain ⟨weighed, honored, untasked, listed, unfinished, covered, denied⟩ := settled
  obtain ⟨t, moved, rfl⟩ := Option.map_eq_some_iff.mp taken
  have honest : r.sys.presumes a = false := attentive.1.1
  have calm : r.sys.interrupts a = false := attentive.2.2.2.1
  have sane := defined_step moved attentive.2.2.2.2
  have grants := grants_step weighed.posting moved
  have later := weighed_step weighed attentive moved
  have honors := honored_step weighed.posting honest moved honored
  have untasks := untasked_step weighed later honors honest moved untasked
  obtain ⟨news, log⟩ := grants.log honest
  -- whose session is over was listed before, or is pending when its session ends now
  have lapsed : ∀ {c : Callback}, c ∈ (if !r.sys.closed && t.closed then pending r.sys ++ r.lapsed else r.lapsed) ↔
      c ∈ r.lapsed ∨ r.sys.closed = false ∧ t.closed = true ∧ c ∈ pending r.sys := by
    intro c
    cases r.sys.closed <;> cases t.closed <;> simp [or_comm]
  have subscribed : ∀ c, c ∈ pending r.sys → ∃ p, .subscribed p c ∈ r.sys.log := by
    intro c among
    obtain ⟨p, entry, found, rfl⟩ := mem_pending.mp among
    exact ⟨p, subscribed_of_subscriber (honored.attested p entry found).1⟩
  refine ⟨later, honors, untasks, fun c among => ?_, fun p entry found callable among => ?_,
    fun ended p entry found callable => lapsed.mpr ?_, fun c among callable => ?_⟩
  · have before : ∃ p, .subscribed p c ∈ r.sys.log := by
      rcases lapsed.mp among with old | ⟨-, -, new⟩
      · exact listed c old
      · exact subscribed c new
    obtain ⟨p, made⟩ := before
    exact ⟨p, log ▸ List.mem_append_right _ made⟩
  · -- what is pending in `t` is told by the loop
    have flushing : t.flushing = true ∨ t.pendingSubscribes = .empty := by
      rcases grants.pending honest found with before | ⟨opened, -, topic, qos, ran⟩
      · rcases lapsed.mp among with old | ⟨live, shut, -⟩
        · exact flushing_step moved sane (unfinished p entry before callable old)
        · exact flushed attentive moved live shut before callable
      · rcases lapsed.mp among with old | ⟨-, shut, -⟩
        · obtain ⟨q, made⟩ := listed _ old
          exact absurd ran ((untasked q _ made callable).2 topic qos)
        · exact absurd (opened.symm.trans shut) Bool.false_ne_true
    refine flushing.resolve_right fun empty => ?_
    have found : t.pendingSubscribes.find? p = some entry := found
    rw [empty, OrderedMap.find?_empty] at found
    cases found
  · rcases grants.pending honest found with before | ⟨opened, quiet, -⟩
    · by_cases already : r.sys.closed = true ∨ r.sys.flushing = true
      · exact .inl (covered already p entry before callable)
      · obtain ⟨live, still⟩ := not_or.mp already
        have shut : t.closed = true := by
          rcases ended with closed | flushing
          · exact closed
          · exact ((flushing_begins weighed.posting moved flushing).resolve_left still).2
        exact .inr ⟨by simpa using live, shut, mem_pending.mpr ⟨p, entry, before, rfl⟩⟩
    · rcases ended with closed | flushing
      · exact absurd (opened.symm.trans closed) Bool.false_ne_true
      · exact absurd (quiet.symm.trans flushing) Bool.false_ne_true
  · by_cases old : c ∈ r.lapsed
    · refine denied_step weighed.posting honest moved (fun pkt entry takes _ found able own => ?_)
        (denied c old callable)
      have flushing := unfinished _ entry found able (own ▸ old)
      simp [interrupts, flushing, takes, expects, found, able] at calm
    · obtain ⟨live, shut, new⟩ := (lapsed.mp among).resolve_left old
      obtain ⟨p, entry, found, rfl⟩ := mem_pending.mp new
      have still : r.sys.flushing = false := by
        by_contra flushing
        exact old (covered (.inr (by simpa using flushing)) p entry found callable)
      obtain ⟨-, none, silent⟩ := weighed.alone honored callable found rfl still
      refine denied_step weighed.posting honest moved (fun pkt _ _ same _ _ _ => ?_) ⟨?_, fun pairs queued => ?_⟩
      · exact Bool.false_ne_true (live.symm.trans (same.symm.trans shut))
      · rw [judged_split] at silent
        omega
      · have counts := holds_of_task (A := subscribeAccount entry.callback) queued
        rw [none] at counts
        have nothing : entry.callback.share entry.callback * pairs.length ≤ 0 := counts
        rw [Callback.share_self, Nat.one_mul] at nothing
        exact List.length_eq_zero_iff.mp (Nat.le_zero.mp nothing)

theorem Judged.of_settled (settled : r.Settled) (callable : c.callable = true)
    (asked : .subscribeCalled c ∈ r.sys.log) :
    r.Judged c := by
  obtain ⟨weighed, honored, untasked, listed, unfinished, covered, denied⟩ := settled
  have once := weighed.once callable
  have split := judged_split c r.sys.log
  -- with no code running, a callback that was not called is in its posted task or in the map
  have held : r.sys.net.stack = [] → r.sys.log.countP (Event.judges c) = 0 →
      (∃ topic qos, .asyncSubscribeImpl topic qos c ∈ r.sys.net.posted) ∨
        ∃ p entry, r.sys.pendingSubscribes.find? p = some entry ∧ entry.callback = c := by
    intro idle silent
    have given : 0 < (subscribeAccount c).given r.sys := List.countP_pos_iff.mpr ⟨_, asked, decide_eq_true rfl⟩
    have level := weighed.level c callable
    unfold Account.total at level
    change _ + r.sys.log.countP (Event.judges c) = _ at level
    have running : r.sys.net.running = [] := by rw [Net.running, idle]; rfl
    have places := Verdicts.holds_of_counts (c := c) weighed.posting (by omega)
    unfold HoldsSubscribe at places
    rw [running, List.append_nil] at places
    rcases places with posted | ⟨topic, among⟩ | ⟨rest, -, among⟩ | ⟨p, rest, -, among⟩ | ⟨p, entry, found, own, -⟩
    · exact .inl posted
    · cases among
    · cases among
    · cases among
    · exact .inr ⟨p, entry, found, own⟩
  have quiet : r.sys.net.stack = [] → r.sys.flushing = false := by
    intro idle
    rw [flushing, Net.running, idle]
    rfl
  refine ⟨once, honored.earned c, fun ended idle => ?_, fun closed idle ungranted => ?_⟩
  · have told : r.sys.log.countP (Event.judges c) ≠ 0 := by
      intro silent
      rcases held idle silent with ⟨topic, qos, posted⟩ | ⟨p, entry, found, rfl⟩
      · obtain ⟨p, made⟩ := listed c ended
        exact (untasked p c made callable).2 topic qos (List.mem_append_left _ posted)
      · exact Bool.false_ne_true ((quiet idle).symm.trans (unfinished p entry found callable ended))
    have none := (denied c ended callable).told
    omega
  · by_cases silent : r.sys.log.countP (Event.judges c) = 0
    · refine .inl ((held idle silent).resolve_right ?_)
      rintro ⟨p, entry, found, rfl⟩
      have ended := covered (.inl closed) p entry found callable
      exact Bool.false_ne_true ((quiet idle).symm.trans (unfinished p entry found callable ended))
    · have unearned : ¬ 0 < r.sys.log.countP (Event.rewards c) := fun told =>
        Bool.false_ne_true (ungranted.symm.trans (granted_of_earned (honored.earned c) told))
      exact .inr (by omega)

/-- In every state of every attentive run, each callback given to `async_subscribe` was called at most once, with
success only after a SUBACK that granted its subscription, and with a failure if the session ended before. -/
theorem subscriptions_judged (actions : List Action) (attentive : Runs.Along step Attentive {} actions) :
    Runs.Throughout step (fun r => ∀ c : Callback, c.callable = true → .subscribeCalled c ∈ r.sys.log → r.Judged c) {}
      actions := by
  have weighed : Weighed {} := ⟨⟨nofun, nofun⟩, rfl, fun _ _ => rfl, fun _ _ _ => rfl, fun _ _ => Nat.zero_le 1⟩
  have honored : Honored {} := ⟨fun _ => trivial, nofun, nofun⟩
  refine Runs.throughout_of_along (I := Settled) (fun _ _ _ => settled_step)
    (fun _ settled _ => Judged.of_settled settled) ⟨weighed, honored, nofun, nofun, nofun, nofun, nofun⟩ attentive

/-- The SUBACK of the first of two subscriptions is handled before its write completes. Then the read fails, and
the session ends before the SUBACK of the second. -/
def grantedThenLost : List Action :=
  opened ++ [.call (.asyncSubscribe [0x74] 1 true), .call (.asyncSubscribe [0x75] 0 true), .run, .exec, .run, .exec,
    .run, .run, .kernel (.read 0 (.ok [0x90, 3])), .run, .kernel (.read 1 (.ok [0, 2, 1])), .run, .run, .exec, .exec,
    .exec, .ret, .exec, .exec, .kernel (.read 1 (.error .operationAborted)), .run, .run, .exec, .exec, .exec, .exec,
    .exec, .ret, .exec, .exec, .exec, .exec, .exec, .exec]

theorem granted_then_lost_judged : Runs.Throughout step
    (fun r => ∀ c : Callback, c.callable = true → .subscribeCalled c ∈ r.sys.log → r.Judged c) {} grantedThenLost :=
  subscriptions_judged grantedThenLost (by decide +kernel)

/-- The write of a SUBSCRIBE completes, and its callback is told a success that no SUBACK has granted. -/
theorem success_before_suback : ¬ ∀ actions, Runs.Throughout step
    (fun r => ∀ c : Callback, c.callable = true → .subscribeCalled c ∈ r.sys.log → r.Judged c) {} actions := by
  intro claimed
  have run : (Runs.exec step ({} : Roster) (opened ++ [.call (.asyncSubscribe [0x74] 1 true), .run, .exec, .run,
      .kernel (.send 1 8), .kernel (.write 1 none), .run, .exec, .exec])).map (fun r =>
        r.sys.log.contains (.subscribeCalled ⟨0, true⟩) && 0 < r.sys.log.countP (Event.rewards ⟨0, true⟩) &&
          !granted ⟨0, true⟩ r.sys.log) = some true := by
    decide +kernel
  obtain ⟨r, reached, facts⟩ := Runs.exec_of_check run
  simp only [Bool.and_eq_true, List.contains_iff_mem, decide_eq_true_eq, Bool.not_eq_true'] at facts
  obtain ⟨⟨asked, told⟩, ungranted⟩ := facts
  have earned := (Runs.throughout_last (claimed _) reached ⟨0, true⟩ rfl asked).earned
  exact Bool.false_ne_true (ungranted.symm.trans (granted_of_earned earned told))

end Roster
end LiteMqtt
