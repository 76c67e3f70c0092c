import LiteMqtt.Client.Identifiers
import LiteMqtt.Client.Releasing

/-!
# Whose timer it is

Every pending publish has a timer of its own, and so has every pending PUBREL. Only code that is about
an entry cancels its timer, so that the waits of all others stay outstanding.
-/

namespace LiteMqtt

/-- The handlers that run on the timer of an entry. -/
def TimerHandler.retries : TimerHandler → Bool
  | .publishRetry _ | .pubrecRetry _ => true
  | _ => false

/-- The exchange that running code may leave without a timer. -/
def Work.spoils : Work → Option UInt16
  | .publishCancel p | .timer (.pubrecRetry p) none => some p
  | _ => none

/-- The outstanding waits and the entries whose timers they may use. `next` is the next timer. -/
structure Clock where
  waits : List Wait
  publishes : OrderedMap UInt16 PendingPublish
  pubrecs : OrderedMap UInt16 PendingPubrec
  next : Nat

namespace Clock

/-- The waits of `h` are on this timer. -/
def Holds (c : Clock) (h : TimerHandler) (timer : Nat) : Prop :=
  match h with
  | .publishRetry p => ∃ entry, c.publishes.find? p = some entry ∧ entry.timer = timer
  | .pubrecRetry p => ∃ entry, c.pubrecs.find? p = some entry ∧ entry.timer = timer
  | _ => timer < 2

/-- Every wait is on the timer of its handler, and no two entries share one. -/
structure Sound (c : Clock) : Prop where
  next : 2 ≤ c.next
  waits : ∀ w ∈ c.waits, c.Holds w.handler w.timer
  bounds : ∀ h timer, h.retries = true → c.Holds h timer → 2 ≤ timer ∧ timer < c.next
  own : ∀ h g timer, h.retries = true → g.retries = true → c.Holds h timer → c.Holds g timer → h = g

/-- A wait of `h` is outstanding. -/
def Rings (c : Clock) (h : TimerHandler) : Prop := ∃ w ∈ c.waits, w.handler = h

def cancel (c : Clock) (timer : Nat) : Clock := { c with waits := c.waits.filter fun w => w.timer != timer }

def await (c : Clock) (w : Wait) : Clock := { c with waits := c.waits ++ [w] }

variable {c d e : Clock} {h g : TimerHandler} {timer : Nat} {p q : UInt16}

theorem holds_unique {other : Nat} (retries : h.retries = true) (first : c.Holds h timer) (second : c.Holds h other) :
    timer = other := by
  cases h with
  | publishRetry p | pubrecRetry p =>
    obtain ⟨entry, held, rfl⟩ := first
    obtain ⟨entry', held', rfl⟩ := second
    rw [Option.some.inj (held.symm.trans held')]
  | _ => contradiction

theorem sound_cancel (timer : Nat) (sound : c.Sound) : (c.cancel timer).Sound :=
  ⟨sound.next, fun w among => sound.waits w (List.mem_of_mem_filter among), sound.bounds, sound.own⟩

theorem sound_await {w : Wait} (own : c.Holds w.handler w.timer) (sound : c.Sound) : (c.await w).Sound := by
  refine ⟨sound.next, fun v among => ?_, sound.bounds, sound.own⟩
  rcases List.mem_append.mp among with before | last
  · exact sound.waits v before
  · obtain rfl := List.mem_singleton.mp last
    exact own

/-- A timer is cancelled that is not the one of `h`. -/
theorem rings_cancel (sound : c.Sound) (retries : h.retries = true) (other : ¬ c.Holds h timer) (rings : c.Rings h) :
    (c.cancel timer).Rings h := by
  obtain ⟨w, among, rfl⟩ := rings
  refine ⟨w, List.mem_filter.mpr ⟨among, ?_⟩, rfl⟩
  rw [bne_iff_ne]
  rintro rfl
  exact other (sound.waits w among)

theorem rings_await {w : Wait} (rings : c.Rings h) : (c.await w).Rings h := by
  obtain ⟨v, among, same⟩ := rings
  exact ⟨v, List.mem_append_left _ among, same⟩

theorem rings_awaited (w : Wait) : (c.await w).Rings w.handler :=
  ⟨w, List.mem_append_right _ (List.mem_singleton.mpr rfl), rfl⟩

/-- The timer of another handler, or that of the ping or of the connect attempt. -/
theorem holds_other (sound : c.Sound) (retries : h.retries = true) (other : h ≠ g) (held : c.Holds g timer) :
    ¬ c.Holds h timer := by
  intro same
  cases own : g.retries with
  | true => exact other (sound.own h g timer retries own same held)
  | false =>
    have low : timer < 2 := by
      cases g with
      | publishRetry p | pubrecRetry p => contradiction
      | _ => exact held
    have bound := sound.bounds h timer retries same
    omega

/-- Once its timer is cancelled, no wait of the handler is left. -/
theorem silent_cancel (sound : c.Sound) (retries : h.retries = true) (held : c.Holds h timer) :
    ∀ w ∈ (c.cancel timer).waits, w.handler ≠ h := by
  intro w among same
  obtain ⟨before, left⟩ := List.mem_filter.mp among
  rw [bne_iff_ne] at left
  have own := sound.waits w before
  rw [same] at own
  exact left (holds_unique retries own held)

/-! ### What becomes of one exchange -/

/-- Nothing happens to the timers of `p`, and no publish is stored under it. -/
structure Leaves (p : UInt16) (c d : Clock) : Prop where
  publish : d.publishes.contains p = true → c.publishes.contains p = true
  pubrec : c.pubrecs.contains p = true → d.pubrecs.contains p = true
  own : c.Rings (.publishRetry p) → d.Rings (.publishRetry p)
  pubrel : c.Rings (.pubrecRetry p) → d.Rings (.pubrecRetry p)

theorem Leaves.refl (p : UInt16) (c : Clock) : Leaves p c c := ⟨id, id, id, id⟩

theorem Leaves.trans (first : Leaves p c d) (later : Leaves p d e) : Leaves p c e :=
  ⟨first.publish ∘ later.publish, later.pubrec ∘ first.pubrec, later.own ∘ first.own, later.pubrel ∘ first.pubrel⟩

theorem leaves_cancel (sound : c.Sound) (own : ¬ c.Holds (.publishRetry p) timer)
    (pubrel : ¬ c.Holds (.pubrecRetry p) timer) :
    Leaves p c (c.cancel timer) :=
  ⟨id, id, rings_cancel sound rfl own, rings_cancel sound rfl pubrel⟩

/-- A wait on a timer is replaced by another one for the same handler. -/
theorem leaves_rearm {w : Wait} (sound : c.Sound) (held : c.Holds w.handler w.timer) (p : UInt16) :
    Leaves p c ((c.cancel w.timer).await w) := by
  have rings : ∀ h : TimerHandler, h.retries = true → c.Rings h → ((c.cancel w.timer).await w).Rings h := by
    intro h retries rings
    by_cases same : h = w.handler
    · exact same ▸ rings_awaited w
    · exact rings_await (rings_cancel sound retries (holds_other sound retries same held) rings)
  exact ⟨id, id, rings _ rfl, rings _ rfl⟩

theorem sound_rearm {w : Wait} (sound : c.Sound) (held : c.Holds w.handler w.timer) :
    ((c.cancel w.timer).await w).Sound :=
  sound_await held (sound_cancel w.timer sound)

/-! ### Entries -/

/-- The entries change. Every handler has the timer that it had, but `h` may have a new one. -/
theorem sound_entries {publishes : OrderedMap UInt16 PendingPublish} {pubrecs : OrderedMap UInt16 PendingPubrec}
    {next : Nat} (sound : c.Sound) (grows : c.next ≤ next)
    (same : ∀ g timer, g ≠ h → (Holds { c with publishes, pubrecs, next } g timer ↔ c.Holds g timer))
    (mine : ∀ timer, Holds { c with publishes, pubrecs, next } h timer →
      c.Holds h timer ∨ timer = c.next ∧ c.next < next)
    (waits : ∀ w ∈ c.waits, w.handler = h → Holds { c with publishes, pubrecs, next } h w.timer) :
    Sound { c with publishes, pubrecs, next } := by
  have before : ∀ g timer, Holds { c with publishes, pubrecs, next } g timer →
      c.Holds g timer ∨ g = h ∧ timer = c.next ∧ c.next < next := by
    intro g timer held
    by_cases here : g = h
    · subst here
      exact (mine timer held).imp id fun fresh => ⟨rfl, fresh⟩
    · exact .inl ((same g timer here).mp held)
  refine ⟨sound.next.trans grows, fun w among => ?_, fun g timer retries held => ?_,
    fun g k timer first second held other => ?_⟩
  · by_cases here : w.handler = h
    · exact here ▸ waits w among here
    · exact (same w.handler w.timer here).mpr (sound.waits w among)
  · rcases before g timer held with old | ⟨-, rfl, room⟩
    · have bound := sound.bounds g timer retries old
      exact ⟨bound.1, bound.2.trans_le grows⟩
    · exact ⟨sound.next, room⟩
  · rcases before g timer held with old | ⟨rfl, fresh, -⟩
    · rcases before k timer other with old' | ⟨rfl, fresh, -⟩
      · exact sound.own g k timer first second old old'
      · exact absurd (sound.bounds g timer first old).2 (by omega)
    · rcases before k timer other with old' | ⟨rfl, -⟩
      · exact absurd (sound.bounds k timer second old').2 (by omega)
      · rfl

/-- The publish `p` is stored, on the timer that it has or on a new one. -/
def storePublish (c : Clock) (p : UInt16) (entry : PendingPublish) (next : Nat) : Clock :=
  { c with publishes := c.publishes.insert p entry, next }

def dropPublish (c : Clock) (p : UInt16) : Clock := { c with publishes := c.publishes.erase p }

def storePubrec (c : Clock) (p : UInt16) (entry : PendingPubrec) (next : Nat) : Clock :=
  { c with pubrecs := c.pubrecs.insert p entry, next }

def dropPubrec (c : Clock) (p : UInt16) : Clock := { c with pubrecs := c.pubrecs.erase p }

theorem holds_storePublish {entry : PendingPublish} {next : Nat} (other : h ≠ .publishRetry p) :
    (c.storePublish p entry next).Holds h timer ↔ c.Holds h timer := by
  cases h with
  | publishRetry q =>
    have apart : q ≠ p := fun same => other (congrArg _ same)
    simp [Holds, storePublish, OrderedMap.find?_insert, apart]
  | _ => exact Iff.rfl

theorem holds_storePubrec {entry : PendingPubrec} {next : Nat} (other : h ≠ .pubrecRetry p) :
    (c.storePubrec p entry next).Holds h timer ↔ c.Holds h timer := by
  cases h with
  | pubrecRetry q =>
    have apart : q ≠ p := fun same => other (congrArg _ same)
    simp [Holds, storePubrec, OrderedMap.find?_insert, apart]
  | _ => exact Iff.rfl

theorem holds_stored {entry : PendingPublish} {next : Nat} :
    (c.storePublish p entry next).Holds (.publishRetry p) timer ↔
    entry.timer = timer := by
  simp [Holds, storePublish, OrderedMap.find?_insert]

theorem holds_storedPubrec {entry : PendingPubrec} {next : Nat} :
    (c.storePubrec p entry next).Holds (.pubrecRetry p) timer ↔ entry.timer = timer := by
  simp [Holds, storePubrec, OrderedMap.find?_insert]

/-- The entry changes and keeps its timer. -/
theorem sound_renewPublish {entry : PendingPublish} (sound : c.Sound) (held : c.Holds (.publishRetry p) entry.timer) :
    (c.storePublish p entry c.next).Sound := by
  refine sound_entries (h := .publishRetry p) sound (Nat.le_refl _) (fun g timer other => holds_storePublish other)
    (fun timer stored => .inl ?_) fun w among own => ?_
  · obtain rfl := holds_stored.mp stored
    exact held
  · exact holds_stored.mpr (holds_unique rfl held (own ▸ sound.waits w among))

theorem sound_addPublish {entry : PendingPublish} (sound : c.Sound) (free : c.publishes.find? p = none)
    (timer : entry.timer = c.next) : (c.storePublish p entry (c.next + 1)).Sound := by
  refine sound_entries (h := .publishRetry p) sound (Nat.le_succ _) (fun g timer other => holds_storePublish other)
    (fun timer stored => .inr ⟨?_, Nat.lt_succ_self _⟩) fun w among own => ?_
  · obtain rfl := holds_stored.mp stored
    assumption
  · obtain ⟨old, held, -⟩ := own ▸ sound.waits w among
    exact absurd (free.symm.trans held) nofun

theorem sound_dropPublish (sound : c.Sound) (silent : ∀ w ∈ c.waits, w.handler ≠ .publishRetry p) :
    (c.dropPublish p).Sound := by
  refine sound_entries (h := .publishRetry p) sound (Nat.le_refl _) (fun g timer other => ?_) (fun timer stored => ?_)
    fun w among own => absurd own (silent w among)
  · cases g with
    | publishRetry q =>
      have apart : q ≠ p := fun same => other (congrArg _ same)
      simp [Holds, OrderedMap.find?_erase, apart]
    | _ => exact Iff.rfl
  · simp [Holds, OrderedMap.find?_erase] at stored

theorem sound_renewPubrec {entry : PendingPubrec} (sound : c.Sound) (held : c.Holds (.pubrecRetry p) entry.timer) :
    (c.storePubrec p entry c.next).Sound := by
  refine sound_entries (h := .pubrecRetry p) sound (Nat.le_refl _) (fun g timer other => holds_storePubrec other)
    (fun timer stored => .inl ?_) fun w among own => ?_
  · obtain rfl := holds_storedPubrec.mp stored
    exact held
  · exact holds_storedPubrec.mpr (holds_unique rfl held (own ▸ sound.waits w among))

theorem sound_addPubrec {entry : PendingPubrec} (sound : c.Sound) (silent : ∀ w ∈ c.waits, w.handler ≠ .pubrecRetry p)
    (timer : entry.timer = c.next) : (c.storePubrec p entry (c.next + 1)).Sound := by
  refine sound_entries (h := .pubrecRetry p) sound (Nat.le_succ _) (fun g timer other => holds_storePubrec other)
    (fun timer stored => .inr ⟨?_, Nat.lt_succ_self _⟩) fun w among own => absurd own (silent w among)
  obtain rfl := holds_storedPubrec.mp stored
  assumption

theorem sound_dropPubrec (sound : c.Sound) (silent : ∀ w ∈ c.waits, w.handler ≠ .pubrecRetry p) :
    (c.dropPubrec p).Sound := by
  refine sound_entries (h := .pubrecRetry p) sound (Nat.le_refl _) (fun g timer other => ?_) (fun timer stored => ?_)
    fun w among own => absurd own (silent w among)
  · cases g with
    | pubrecRetry q =>
      have apart : q ≠ p := fun same => other (congrArg _ same)
      simp [Holds, OrderedMap.find?_erase, apart]
    | _ => exact Iff.rfl
  · simp [Holds, OrderedMap.find?_erase] at stored

theorem leaves_storePublish {entry : PendingPublish} {next : Nat}
    (old : q = p → c.publishes.contains p = true) : Leaves q c (c.storePublish p entry next) := by
  refine ⟨fun bound => ?_, id, id, id⟩
  rcases (OrderedMap.contains_insert _ _ _ _).mp bound with rfl | before
  · exact old rfl
  · exact before

theorem leaves_dropPublish (p q : UInt16) : Leaves q c (c.dropPublish p) := by
  refine ⟨fun bound => ?_, id, id, id⟩
  exact ((OrderedMap.contains_erase _ _ _).mp bound).2

theorem leaves_storePubrec {entry : PendingPubrec} {next : Nat} (p q : UInt16) :
    Leaves q c (c.storePubrec p entry next) :=
  ⟨id, fun bound => (OrderedMap.contains_insert _ _ _ _).mpr (.inr bound), id, id⟩

theorem leaves_dropPubrec (other : q ≠ p) : Leaves q c (c.dropPubrec p) :=
  ⟨id, fun bound => (OrderedMap.contains_erase _ _ _).mpr ⟨other, bound⟩, id, id⟩

/-! ### What code does to the timers -/

/-- The timers of all exchanges are left alone, or their waits replaced. -/
def Idles (c d : Clock) : Prop := c.Sound → d.Sound ∧ ∀ p, Leaves p c d

theorem Idles.refl (c : Clock) : Idles c c := fun sound => ⟨sound, fun p => .refl p c⟩

theorem Idles.trans (first : Idles c d) (later : Idles d e) : Idles c e := fun sound =>
  ⟨(later (first sound).1).1, fun p => ((first sound).2 p).trans ((later (first sound).1).2 p)⟩

theorem idles_cancel (low : timer < 2) : Idles c (c.cancel timer) := fun sound =>
  have high : ∀ h : TimerHandler, h.retries = true → ¬ c.Holds h timer := fun h retries held =>
    absurd (sound.bounds h timer retries held).1 (by omega)
  ⟨sound_cancel timer sound, fun _ => leaves_cancel sound (high _ rfl) (high _ rfl)⟩

theorem idles_rearm {w : Wait} (held : c.Holds w.handler w.timer) : Idles c ((c.cancel w.timer).await w) := fun sound =>
  ⟨sound_rearm sound held, leaves_rearm sound held⟩

/-- What becomes of the exchange `p`: its timers are left alone, one of them waits now, or no publish is
pending under it. -/
inductive Fares (p : UInt16) (c d : Clock) : Prop where
  | leaves (same : Leaves p c d)
  | rings (waits : d.Rings (.publishRetry p))
  | pubrel (pending : d.pubrecs.contains p = true) (waits : d.Rings (.pubrecRetry p))
  | gone (absent : d.publishes.contains p = false)

theorem Fares.after (first : Leaves p c d) (later : Fares p d e) : Fares p c e := by
  cases later with
  | leaves same => exact .leaves (first.trans same)
  | rings waits => exact .rings waits
  | pubrel pending waits => exact .pubrel pending waits
  | gone absent => exact .gone absent

theorem Fares.before (first : Fares p c d) (later : Leaves p d e) : Fares p c e := by
  cases first with
  | leaves same => exact .leaves (same.trans later)
  | rings waits => exact .rings (later.own waits)
  | pubrel pending waits => exact .pubrel (later.pubrec pending) (later.pubrel waits)
  | gone absent =>
    exact .gone (Bool.eq_false_iff.mpr fun bound => absurd ((later.publish bound).symm.trans absent) nofun)

/-- The code serves every exchange. -/
def Serves (c d : Clock) : Prop := c.Sound → d.Sound ∧ ∀ p, Fares p c d

/-- The code serves every exchange but `q`. -/
def Spoils (q : UInt16) (c d : Clock) : Prop := c.Sound → d.Sound ∧ ∀ p, p ≠ q → Leaves p c d

theorem Idles.serves (idles : Idles c d) : Serves c d := fun sound =>
  ⟨(idles sound).1, fun p => .leaves ((idles sound).2 p)⟩

theorem Idles.spoils (q : UInt16) (idles : Idles c d) : Spoils q c d := fun sound =>
  ⟨(idles sound).1, fun p _ => (idles sound).2 p⟩

theorem Spoils.trans (first : Spoils q c d) (later : Spoils q d e) : Spoils q c e := fun sound =>
  ⟨(later (first sound).1).1, fun p other => ((first sound).2 p other).trans ((later (first sound).1).2 p other)⟩

theorem Spoils.serves (spoils : Spoils q c d) (mine : c.Sound → Fares q c d) : Serves c d := fun sound =>
  ⟨(spoils sound).1, fun p => by
    by_cases here : p = q
    · exact here ▸ mine sound
    · exact .leaves ((spoils sound).2 p here)⟩

/-- The timer of a publish is cancelled. -/
theorem spoils_cancelPublish (held : c.Holds (.publishRetry q) timer) : Spoils q c (c.cancel timer) := fun sound =>
  ⟨sound_cancel timer sound, fun p other => leaves_cancel sound
    (holds_other sound rfl (fun same => other (TimerHandler.publishRetry.inj same)) held)
    (holds_other (h := .pubrecRetry p) (g := .publishRetry q) sound rfl nofun held)⟩

theorem spoils_cancelPubrec (held : c.Holds (.pubrecRetry q) timer) : Spoils q c (c.cancel timer) := fun sound =>
  ⟨sound_cancel timer sound, fun p other => leaves_cancel sound
    (holds_other (h := .publishRetry p) (g := .pubrecRetry q) sound rfl nofun held)
    (holds_other sound rfl (fun same => other (TimerHandler.pubrecRetry.inj same)) held)⟩

end Clock

namespace Sys

open Clock

def clock (s : Sys) : Clock := ⟨s.waits, s.pendingPublishes, s.pendingPubrecs, s.nextTimer⟩

variable {s t u : Sys} {p q : UInt16}

/-! ### Code that leaves the timers alone -/

@[simp] theorem clock_record (s : Sys) (e : Event) : (s.record e).clock = s.clock := rfl

@[simp] theorem clock_push (s : Sys) (ks : List Work) : (s.push ks).clock = s.clock := rfl

@[simp] theorem clock_post (s : Sys) (k : Work) : (s.post k).clock = s.clock := rfl

@[simp] theorem clock_crash (s : Sys) : s.crash.clock = s.clock := rfl

@[simp] theorem clock_write (s : Sys) (packet : Packet) (h : Handler) : (s.write packet h).clock = s.clock := rfl

@[simp] theorem clock_startReadLoop (s : Sys) (attempt : Nat) : (s.startReadLoop attempt).clock = s.clock := rfl

@[simp] theorem clock_closeConnection (s : Sys) : s.closeConnection.clock = s.clock := by
  unfold closeConnection
  split <;> rfl

@[simp] theorem clock_tellPublish (s : Sys) (cb : Callback) (ok : Bool) (topic : Bytes) (qos : UInt8) (p : UInt16) :
    (s.tellPublish cb ok topic qos p).clock = s.clock := by
  unfold tellPublish
  split <;> rfl

@[simp] theorem clock_tellSubscribe (s : Sys) (cb : Callback) (ok : Bool) (topic : Bytes) (qos : UInt8) :
    (s.tellSubscribe cb ok topic qos).clock = s.clock := by
  unfold tellSubscribe
  split <;> rfl

@[simp] theorem clock_reportConnect (s : Sys) (ok : Bool) (rc : UInt8) : (s.reportConnect ok rc).clock = s.clock := by
  unfold reportConnect
  split <;> rfl

theorem idles_same (same : t.clock = s.clock) : Idles s.clock t.clock := same ▸ .refl _

theorem clock_onConnect (s : Sys) (attempt : Nat) (ec : ErrorCode) : (s.onConnect attempt ec).clock = s.clock := by
  unfold onConnect
  split
  · rfl
  · split
    · exact clock_reportConnect s false 255
    · rfl

theorem clock_handleConnectTimeout (s : Sys) : s.handleConnectTimeout.clock = s.clock := by
  unfold handleConnectTimeout
  split
  · rfl
  · exact clock_closeConnection _

theorem clock_asyncSubscribeImpl (s : Sys) (topic : Bytes) (qos : UInt8) (cb : Callback) :
    (s.asyncSubscribeImpl topic qos cb).clock = s.clock := by
  unfold asyncSubscribeImpl
  split
  · exact clock_tellSubscribe _ _ _ _ _
  split
  · exact clock_tellSubscribe _ _ _ _ _
  dsimp only
  split <;> rfl

theorem clock_onSubscribeWritten (s : Sys) (p : UInt16) (ec : ErrorCode) :
    (s.onSubscribeWritten p ec).clock = s.clock := by
  unfold onSubscribeWritten
  split
  · rfl
  · split
    · split <;> rfl
    · dsimp only
      split <;> rfl

theorem clock_subscribeWritten (s : Sys) (p : UInt16) (cb : Callback) (rest : List (Bytes × UInt8)) :
    (s.subscribeWritten p cb rest).clock = s.clock := by
  cases rest with
  | nil => rfl
  | cons first rest =>
    unfold subscribeWritten
    dsimp only
    split
    · exact clock_tellSubscribe _ _ _ _ _
    · rfl

theorem clock_publishEach (s : Sys) (p : UInt16) : (s.publishEach p).clock = s.clock := by
  unfold publishEach
  split
  · rfl
  · exact clock_tellPublish _ _ _ _ _ _

theorem clock_subscribeEach (s : Sys) (p : UInt16) : (s.subscribeEach p).clock = s.clock := by
  unfold subscribeEach
  split <;> rfl

theorem clock_subscribeFilters (s : Sys) (p : UInt16) (cb : Callback) (rest : List (Bytes × UInt8)) :
    (s.subscribeFilters p cb rest).clock = s.clock := by
  unfold subscribeFilters
  split
  · split
    · exact clock_tellSubscribe _ _ _ _ _
    · split <;> rfl
  · rfl

theorem clock_notifyClose (s : Sys) : s.notifyClose.clock = s.clock := by
  unfold notifyClose
  split <;> rfl

theorem clock_subackEach (s : Sys) (cb : Callback) (rest : List (Bytes × UInt8)) :
    (s.subackEach cb rest).clock = s.clock := by
  cases rest with
  | nil => rfl
  | cons first rest => exact clock_tellSubscribe _ _ _ _ _

theorem clock_handlePublish (s : Sys) (data : Bytes) : (s.handlePublish data).clock = s.clock := by
  unfold handlePublish
  dsimp only
  split
  · rfl
  · split <;> rfl

theorem clock_acknowledge (s : Sys) (qos : UInt8) (p : UInt16) : (s.acknowledge qos p).clock = s.clock := by
  unfold acknowledge
  split
  · rfl
  · split <;> rfl

theorem clock_handleSuback (s : Sys) (data : Bytes) : (s.handleSuback data).clock = s.clock := by
  unfold handleSuback
  dsimp only
  split
  · rfl
  · split
    · rfl
    · split <;> rfl

/-! ### The timers of the session -/

theorem idles_cancelTimer (timer : Nat) (low : timer < 2) : Idles s.clock (s.cancelTimer timer).clock :=
  idles_cancel low

theorem idles_armTimer (timer after : Nat) (h : TimerHandler) (held : s.clock.Holds h timer) :
    Idles s.clock (s.armTimer timer after h).clock :=
  idles_rearm (w := { timer, deadline := s.now + after, handler := h }) held

theorem idles_schedulePingreq (s : Sys) (attempt : Nat) : Idles s.clock (s.schedulePingreq attempt).clock := by
  unfold schedulePingreq
  split
  · exact .refl _
  · exact idles_armTimer pingTimer _ _ (by decide : pingTimer < 2)

theorem idles_asyncConnect (s : Sys) (callback : Bool) : Idles s.clock (s.asyncConnect callback).clock := by
  unfold asyncConnect
  dsimp only
  split
  · exact idles_armTimer connectTimer _ _ (by decide : connectTimer < 2)
  · exact .refl _

theorem idles_handleConnack (s : Sys) (data : Bytes) : Idles s.clock (s.handleConnack data).clock := by
  have cancelled : Idles s.clock (s.cancelTimer connectTimer).clock := idles_cancelTimer connectTimer (by decide)
  unfold handleConnack
  dsimp only
  split
  · exact cancelled
  · exact cancelled.trans (idles_same (clock_closeConnection _))

theorem idles_notifyClosedOnce (s : Sys) : Idles s.clock s.notifyClosedOnce.clock := by
  unfold notifyClosedOnce
  split
  · exact .refl _
  · have cancelled :
        Idles s.clock ((({ s with closed := true } : Sys).cancelTimer pingTimer).cancelTimer connectTimer).clock :=
      (idles_cancelTimer (s := { s with closed := true }) pingTimer (by decide)).trans
        (idles_cancelTimer connectTimer (by decide))
    dsimp only
    split <;> exact cancelled

/-! ### The timers of an exchange -/

theorem idles_armPublishRetryTimer (s : Sys) (p : UInt16) : Idles s.clock (s.armPublishRetryTimer p).clock := by
  unfold armPublishRetryTimer
  split
  · exact .refl _
  · exact idles_armTimer _ _ _ ⟨_, ‹_›, rfl⟩

theorem idles_armPubrecRetryTimer (s : Sys) (p : UInt16) : Idles s.clock (s.armPubrecRetryTimer p).clock := by
  unfold armPubrecRetryTimer
  split
  · exact .refl _
  · exact idles_armTimer _ _ _ ⟨_, ‹_›, rfl⟩

theorem idles_sendPublishEntry (s : Sys) (p : UInt16) : Idles s.clock (s.sendPublishEntry p).clock := by
  unfold sendPublishEntry
  split
  · exact .refl _
  · exact idles_armPublishRetryTimer s p

theorem idles_sendPubrel (s : Sys) (p : UInt16) : Idles s.clock (s.sendPubrel p).clock := idles_armPubrecRetryTimer s p

theorem rings_armTimer (s : Sys) (timer after : Nat) (h : TimerHandler) : (s.armTimer timer after h).clock.Rings h :=
  rings_awaited (c := s.clock.cancel timer) { timer, deadline := s.now + after, handler := h }

theorem rings_sendPublishEntry (bound : s.pendingPublishes.contains p = true) :
    (s.sendPublishEntry p).clock.Rings (.publishRetry p) := by
  obtain ⟨entry, held⟩ := Option.isSome_iff_exists.mp bound
  simp only [sendPublishEntry, held, clock_write, armPublishRetryTimer]
  exact rings_armTimer s _ _ _

theorem rings_armPubrecRetryTimer (bound : s.pendingPubrecs.contains p = true) :
    (s.armPubrecRetryTimer p).clock.Rings (.pubrecRetry p) := by
  obtain ⟨entry, held⟩ := Option.isSome_iff_exists.mp bound
  simp only [held, armPubrecRetryTimer]
  exact rings_armTimer s _ _ _

theorem spoils_cancelPublishRetryTimer (s : Sys) (p : UInt16) :
    Spoils p s.clock (s.cancelPublishRetryTimer p).clock := by
  unfold cancelPublishRetryTimer
  split
  · exact Idles.spoils p (.refl _)
  · exact spoils_cancelPublish ⟨_, ‹_›, rfl⟩

/-- Once its retry timer is cancelled, no retry of the publish waits. -/
theorem idle_cancelPublishRetryTimer (sound : s.clock.Sound) :
    ∀ w ∈ (s.cancelPublishRetryTimer p).clock.waits, w.handler ≠ .publishRetry p := by
  unfold cancelPublishRetryTimer
  split
  · rename_i absent
    intro w among same
    obtain ⟨entry, held, -⟩ := same ▸ sound.waits w among
    exact absurd (absent.symm.trans held) nofun
  · exact silent_cancel sound rfl ⟨_, ‹_›, rfl⟩

/-- A publish is dropped with its timer. -/
theorem spoils_finish (s : Sys) (p : UInt16) : Spoils p s.clock ((s.cancelPublishRetryTimer p).clock.dropPublish p) :=
  fun sound =>
    have cancelled := spoils_cancelPublishRetryTimer s p sound
    ⟨sound_dropPublish cancelled.1 (idle_cancelPublishRetryTimer sound),
      fun q other => (cancelled.2 q other).trans (leaves_dropPublish p q)⟩

theorem serves_finish (s : Sys) (p : UInt16) : Serves s.clock ((s.cancelPublishRetryTimer p).clock.dropPublish p) :=
  (spoils_finish s p).serves fun _ => .gone (Bool.eq_false_iff.mpr fun bound =>
    ((OrderedMap.contains_erase _ _ _).mp bound).1 rfl)

theorem serves_finishPublishSuccess (s : Sys) (p : UInt16) : Serves s.clock (s.finishPublishSuccess p).clock := by
  unfold finishPublishSuccess
  split
  · exact Idles.serves (.refl _)
  · rw [clock_tellPublish]
    exact serves_finish s p

theorem serves_finishPublishFailure (s : Sys) (p : UInt16) : Serves s.clock (s.finishPublishFailure p).clock := by
  unfold finishPublishFailure
  split
  · exact Idles.serves (.refl _)
  · rw [clock_tellPublish]
    exact serves_finish s p

theorem gone_finishPublishFailure (s : Sys) (p : UInt16) :
    (s.finishPublishFailure p).pendingPublishes.contains p = false := by
  unfold finishPublishFailure
  split
  · rename_i absent
    exact Option.isSome_eq_false_iff.mpr (Option.isNone_iff_eq_none.mpr absent)
  · rw [(tellPublish_publishes _ _ _ _ _ _).1]
    exact Bool.eq_false_iff.mpr fun bound => ((OrderedMap.contains_erase _ _ _).mp bound).1 rfl

theorem gone_finishPublishSuccess (s : Sys) (p : UInt16) :
    (s.finishPublishSuccess p).pendingPublishes.contains p = false := by
  unfold finishPublishSuccess
  split
  · rename_i absent
    exact Option.isSome_eq_false_iff.mpr (Option.isNone_iff_eq_none.mpr absent)
  · rw [(tellPublish_publishes _ _ _ _ _ _).1]
    exact Bool.eq_false_iff.mpr fun bound => ((OrderedMap.contains_erase _ _ _).mp bound).1 rfl

theorem spoils_erasePubrec (s : Sys) (p : UInt16) : Spoils p s.clock (s.erasePubrec p).clock := by
  unfold erasePubrec
  split
  · exact Idles.spoils p (.refl _)
  · rename_i entry held
    have own : s.clock.Holds (.pubrecRetry p) entry.timer := ⟨entry, held, rfl⟩
    intro sound
    have cancelled := spoils_cancelPubrec own sound
    exact ⟨sound_dropPubrec cancelled.1 (silent_cancel sound rfl own),
      fun q other => (cancelled.2 q other).trans (leaves_dropPubrec other)⟩

theorem spoils_insertPubrec (s : Sys) (p : UInt16) : Spoils p s.clock (s.insertPubrec p).clock := by
  unfold insertPubrec
  dsimp only
  cases held : s.pendingPubrecs.find? p with
  | none =>
    intro sound
    refine ⟨sound_addPubrec (p := p) sound (fun w among same => ?_) rfl, fun q _ => leaves_storePubrec p q⟩
    obtain ⟨entry, found, -⟩ := same ▸ sound.waits w among
    exact absurd (held.symm.trans found) nofun
  | some entry =>
    have own : s.clock.Holds (.pubrecRetry p) entry.timer := ⟨entry, held, rfl⟩
    intro sound
    have cancelled := spoils_cancelPubrec own sound
    exact ⟨sound_addPubrec (p := p) cancelled.1 (silent_cancel sound rfl own) rfl,
      fun q other => (cancelled.2 q other).trans (leaves_storePubrec p q)⟩

theorem contains_insertPubrec (s : Sys) (p : UInt16) : (s.insertPubrec p).pendingPubrecs.contains p = true :=
  (OrderedMap.contains_insert _ _ _ _).mpr (.inl rfl)

theorem sendPubrel_pubrecs (s : Sys) (p : UInt16) : (s.sendPubrel p).pendingPubrecs = s.pendingPubrecs :=
  congrArg Ids.pubrecs (ids_sendPubrel s p)

/-- The retry of a publish is handed over to its PUBREL. -/
theorem serves_handlePubrec (s : Sys) (data : Bytes) : Serves s.clock (s.handlePubrec data).clock := by
  unfold handlePubrec
  dsimp only
  split
  · let p := (PubrecPacket.parse data).packetId
    let v := (s.record (.received .pubrec p [])).cancelPublishRetryTimer p
    have cancelled : Spoils p s.clock v.clock := spoils_cancelPublishRetryTimer (s.record (.received .pubrec p [])) p
    have sent := Idles.spoils p (idles_sendPubrel (v.insertPubrec p) p)
    refine ((cancelled.trans (spoils_insertPubrec v p)).trans sent).serves fun _ => .pubrel ?_ ?_
    · exact (congrArg (·.contains p) (sendPubrel_pubrecs _ p)).trans (contains_insertPubrec v p)
    · exact rings_armPubrecRetryTimer (contains_insertPubrec v p)
  · exact Idles.serves (.refl _)

theorem serves_handlePuback (s : Sys) (data : Bytes) : Serves s.clock (s.handlePuback data).clock :=
  serves_finishPublishSuccess (s.record _) _

/-- The PUBREL of a publish is dropped, and then the publish. -/
theorem serves_handlePubcomp (s : Sys) (data : Bytes) : Serves s.clock (s.handlePubcomp data).clock := by
  unfold handlePubcomp
  dsimp only
  generalize (PubcompPacket.parse data).packetId = p
  let v := (s.record (.received .pubcomp p [])).erasePubrec p
  intro sound
  have erased : Spoils p s.clock v.clock := spoils_erasePubrec (s.record (.received .pubcomp p [])) p
  obtain ⟨finished, fares⟩ := serves_finishPublishSuccess v p (erased sound).1
  refine ⟨finished, fun q => ?_⟩
  by_cases same : q = p
  · subst same
    exact .gone (gone_finishPublishSuccess v q)
  · exact (fares q).after ((erased sound).2 q same)

theorem serves_handlePacket (s : Sys) (attempt : Nat) (data : Bytes) :
    Serves s.clock (s.handlePacket attempt data).clock := by
  unfold handlePacket
  cases data with
  | nil => exact Idles.serves (.refl _)
  | cons byte rest =>
    dsimp only
    cases PacketType.ofUint8 (byte >>> 4) with
    | connack => exact (idles_handleConnack s _).serves
    | publish => exact (idles_same (clock_handlePublish s _)).serves
    | suback => exact (idles_same (clock_handleSuback s _)).serves
    | puback => exact serves_handlePuback s _
    | pubrec => exact serves_handlePubrec s _
    | pubcomp => exact serves_handlePubcomp s _
    | pingresp =>
      exact ((idles_cancelTimer pingTimer (by decide)).trans (idles_schedulePingreq _ _)).serves
    | _ => exact Idles.serves (.refl _)

/-! ### Publishing and retrying -/

theorem serves_asyncPublishImpl (s : Sys) (topic payload : Bytes) (qos : UInt8) (cb : Callback) :
    Serves s.clock (s.asyncPublishImpl topic payload qos cb).clock := by
  have told : ∀ v : Sys, v.clock = s.clock → Serves s.clock (v.tellPublish cb false topic qos 0).clock := fun v same =>
    (idles_same ((clock_tellPublish _ _ _ _ _ _).trans same)).serves
  obtain ⟨next, p, same, -, free⟩ := acquirePacketId_cases s
  unfold asyncPublishImpl
  rw [same]
  split
  · exact told s rfl
  split
  · exact told s rfl
  split
  · exact told s rfl
  split
  · exact Idles.serves (.refl _)
  dsimp only
  split
  · exact Idles.serves (.refl _)
  rename_i found
  split
  · exact told _ rfl
  · have absent : s.pendingPublishes.find? p = none := by
      have untaken := (Ids.taken_false (i := s.ids) (free found)).1
      simpa [OrderedMap.contains, ids] using untaken
    let v := ({ s with nextPacketId := next } : Sys).insertPublish p topic payload qos cb
    have bound : v.pendingPublishes.contains p = true := (OrderedMap.contains_insert _ _ _ _).mpr (.inl rfl)
    have stored : Spoils p s.clock v.clock := fun sound =>
      ⟨sound_addPublish (p := p) sound absent rfl, fun q other => leaves_storePublish fun here => absurd here other⟩
    exact (stored.trans ((idles_sendPublishEntry v p).spoils p)).serves fun _ => .rings (rings_sendPublishEntry bound)

theorem serves_onPublishRetry (s : Sys) (p : UInt16) : Serves s.clock (s.onPublishRetry p).clock := by
  unfold onPublishRetry
  split
  · exact Idles.serves (.refl _)
  · rename_i entry held
    split
    · exact Idles.serves (.refl _)
    · let renewed := { entry with attempts := entry.attempts + 1 }
      let v : Sys := { s with pendingPublishes := s.pendingPublishes.insert p renewed }
      have stored : Idles s.clock v.clock := fun sound =>
        ⟨sound_renewPublish sound ⟨entry, held, rfl⟩, fun q => leaves_storePublish fun _ =>
          Option.isSome_iff_exists.mpr ⟨entry, held⟩⟩
      exact (stored.trans (idles_sendPublishEntry v p)).serves

/-- A retry of a publish that is pending waits again, or gives the publish up. -/
theorem onPublishRetry_goes (bound : s.pendingPublishes.contains p = true) :
    (s.onPublishRetry p).clock.Rings (.publishRetry p) ∨ s.onPublishRetry p = s.push [.finishPublishFailure p] := by
  obtain ⟨entry, held⟩ := Option.isSome_iff_exists.mp bound
  simp only [onPublishRetry, held]
  split
  · exact .inr rfl
  · exact .inl (rings_sendPublishEntry ((OrderedMap.contains_insert _ _ _ _).mpr (.inl rfl)))

theorem spoils_onPubrecRetry (s : Sys) (p : UInt16) : Spoils p s.clock (s.onPubrecRetry p).clock := by
  unfold onPubrecRetry
  split
  · exact Idles.spoils p (.refl _)
  · rename_i entry held
    have own : s.clock.Holds (.pubrecRetry p) entry.timer := ⟨entry, held, rfl⟩
    split
    · exact spoils_cancelPubrec own
    · let renewed := { entry with attempts := entry.attempts + 1 }
      let v : Sys := { s with pendingPubrecs := s.pendingPubrecs.insert p renewed }
      have stored : Idles s.clock v.clock := fun sound =>
        ⟨sound_renewPubrec sound own, fun q => leaves_storePubrec p q⟩
      exact Idles.spoils p (stored.trans (idles_sendPubrel v p))

theorem spoils_publishCancel (s : Sys) (p : UInt16) : Spoils p s.clock (s.publishCancel p).clock := by
  unfold publishCancel
  split
  · exact Idles.spoils p (.refl _)
  · split <;> exact spoils_cancelPublish ⟨_, ‹_›, rfl⟩

theorem spoils_onPubrelWritten (s : Sys) (p : UInt16) (ec : ErrorCode) :
    Spoils p s.clock (s.onPubrelWritten p ec).clock := by
  unfold onPubrelWritten
  split
  · exact spoils_erasePubrec s p
  · exact Idles.spoils p (idles_armPubrecRetryTimer s p)

theorem cancelTimers_next (s : Sys) (timers : List Nat) : (s.cancelTimers timers).nextTimer = s.nextTimer := by
  induction timers generalizing s with
  | nil => rfl
  | cons timer timers ih => exact ih (s.cancelTimer timer)

/-- Both maps are cleared with their timers. -/
theorem serves_publishClear (s : Sys) : Serves s.clock s.publishClear.clock := by
  intro sound
  let u := s.cancelTimers (s.pendingPublishes.entries.map fun e => e.2.timer)
  let v := u.cancelTimers (u.pendingPubrecs.entries.map fun e => e.2.timer)
  have same : u.pendingPubrecs = s.pendingPubrecs := congrArg Ids.pubrecs (ids_cancelTimers s _)
  have fewer : ∀ w ∈ v.waits, w.timer < 2 ∧ w.handler.retries = false := by
    intro w among
    obtain ⟨before, unpubrec⟩ := cancelTimers_waits u _ w among
    obtain ⟨first, unpublish⟩ := cancelTimers_waits s _ w before
    have own := sound.waits w first
    cases shape : w.handler with
    | publishRetry p =>
      obtain ⟨entry, held, timer⟩ := shape ▸ own
      exact absurd (List.mem_map.mpr ⟨(p, entry), OrderedMap.find?_eq_some.mp held, timer⟩) unpublish
    | pubrecRetry p =>
      obtain ⟨entry, held, timer⟩ := shape ▸ own
      exact absurd (List.mem_map.mpr ⟨(p, entry), OrderedMap.find?_eq_some.mp (same ▸ held), timer⟩) unpubrec
    | _ => exact ⟨(shape ▸ own :), rfl⟩
  have next : v.nextTimer = s.nextTimer := (cancelTimers_next u _).trans (cancelTimers_next s _)
  have empty : ∀ (h : TimerHandler) (timer : Nat), h.retries = true →
      ¬ Holds ⟨v.waits, .empty, .empty, v.nextTimer⟩ h timer := by
    intro h timer retries held
    cases h with
    | publishRetry p | pubrecRetry p =>
      obtain ⟨entry, found, -⟩ := held
      exact absurd found nofun
    | _ => contradiction
  have cleared : Sound ⟨v.waits, .empty, .empty, v.nextTimer⟩ := by
    refine ⟨next ▸ sound.next, fun w among => ?_, fun h timer retries held => (empty h timer retries held).elim,
      fun h g timer retries _ held => (empty h timer retries held).elim⟩
    obtain ⟨low, other⟩ := fewer w among
    cases shape : w.handler with
    | publishRetry p | pubrecRetry p => exact absurd (shape ▸ other) nofun
    | _ => exact low
  unfold publishClear
  dsimp only
  split <;> exact ⟨cleared, fun p => .gone rfl⟩

/-! ### Each piece of client code -/

theorem serves_onTimer (s : Sys) (h : TimerHandler) (ec : ErrorCode) (other : (Work.timer h ec).spoils = none) :
    Serves s.clock (s.onTimer h ec).clock := by
  cases ec with
  | some ec => exact Idles.serves (.refl _)
  | none =>
    cases h with
    | connectTimeout attempt => exact (idles_same (clock_handleConnectTimeout s)).serves
    | publishRetry p => exact serves_onPublishRetry s p
    | pubrecRetry p => exact absurd other nofun
    | _ => exact Idles.serves (.refl _)

theorem serves_execute (s : Sys) {k : Work} (other : k.spoils = none) : Serves s.clock (s.execute k).clock := by
  cases k with
  | asyncPublishImpl topic payload qos cb => exact serves_asyncPublishImpl s topic payload qos cb
  | asyncSubscribeImpl topic qos cb => exact (idles_same (clock_asyncSubscribeImpl s topic qos cb)).serves
  | timer h ec => exact serves_onTimer s h ec other
  | handlePacket attempt data => exact serves_handlePacket s attempt data
  | acknowledge qos p => exact (idles_same (clock_acknowledge s qos p)).serves
  | notifyClosedOnce => exact (idles_notifyClosedOnce s).serves
  | publishEach p => exact (idles_same (clock_publishEach s p)).serves
  | publishCancel p => exact absurd other nofun
  | publishClear => exact serves_publishClear s
  | subscribeEach p => exact (idles_same (clock_subscribeEach s p)).serves
  | subscribeFilters p cb rest => exact (idles_same (clock_subscribeFilters s p cb rest)).serves
  | subscribeClear => exact (idles_same (t := s.subscribeClear) (clock_closeConnection _)).serves
  | notifyClose => exact (idles_same (clock_notifyClose s)).serves
  | finishPublishFailure p => exact serves_finishPublishFailure s p
  | subackEach cb rest => exact (idles_same (clock_subackEach s cb rest)).serves
  | subscribeWritten p cb rest => exact (idles_same (clock_subscribeWritten s p cb rest)).serves
  | reportConnect ok rc => exact (idles_same (clock_reportConnect s ok rc)).serves
  | reportPublish cb topic qos => exact (idles_same (clock_tellPublish s cb false topic qos 0)).serves
  | reportSubscribe cb topic => exact (idles_same (clock_tellSubscribe s cb false topic 0)).serves
  | _ => exact Idles.serves (.refl _)

theorem spoils_execute (s : Sys) {k : Work} (about : k.spoils = some p) : Spoils p s.clock (s.execute k).clock := by
  unfold Work.spoils at about
  split at about
  · obtain rfl := Option.some.inj about
    exact spoils_publishCancel s _
  · obtain rfl := Option.some.inj about
    exact spoils_onPubrecRetry s _
  · contradiction

theorem serves_onWritten (s : Sys) (h : Handler) (ec : ErrorCode) (other : ∀ p, h ≠ .pubrel p) :
    Serves s.clock (s.onWritten h ec).clock := by
  unfold onWritten
  cases h with
  | connectWrite attempt =>
    dsimp only [onConnectWritten]
    split
    · exact Idles.serves (.refl _)
    · exact (idles_schedulePingreq s attempt).serves
  | publish0 cb topic => exact (idles_same (clock_tellPublish s _ _ _ _ _)).serves
  | publish p =>
    dsimp only
    split
    · exact Idles.serves (.refl _)
    · exact (idles_armPublishRetryTimer s p).serves
  | pubrel p => exact absurd rfl (other p)
  | subscribe p => exact (idles_same (clock_onSubscribeWritten s p ec)).serves
  | acknowledged =>
    dsimp only
    split <;> exact Idles.serves (.refl _)
  | pingreq attempt =>
    dsimp only [onPingreqWritten]
    split
    · exact Idles.serves (.refl _)
    · have low : s.clock.Holds (.pingDeadline attempt) pingTimer := (by decide : pingTimer < 2)
      exact (idles_armTimer pingTimer _ _ low).serves
  | disconnect onClosed =>
    refine (idles_same ((clock_closeConnection _).trans ?_)).serves
    split <;> rfl
  | _ => exact Idles.serves (.refl _)

theorem serves_onInvoke (s : Sys) (call : Invocation Handler)
    (other : ∀ serial p ec, call ≠ .write serial (.pubrel p) ec) :
    Serves s.clock (s.onInvoke call).clock := by
  unfold onInvoke
  split
  · exact (idles_same (clock_onConnect s _ _)).serves
  · unfold onRead
    split <;> exact Idles.serves (.refl _)
  · rename_i serial h ec
    exact serves_onWritten s h ec fun p same => other serial p ec (same ▸ rfl)
  · exact Idles.serves (.refl _)

theorem serves_call (s : Sys) (c : Call) : Serves s.clock (s.call c).clock := by
  cases c with
  | asyncConnect callback => exact (idles_asyncConnect s callback).serves
  | asyncDisconnect onClosed => exact (idles_cancelTimer pingTimer (by decide)).serves
  | close => exact (idles_same (clock_closeConnection s)).serves
  | handlePacket data => exact serves_handlePacket s s.attempts data
  | handlePuback data => exact serves_handlePuback s data
  | handlePubrec data => exact serves_handlePubrec s data
  | handlePubcomp data => exact serves_handlePubcomp s data
  | handleSuback data => exact (idles_same (clock_handleSuback s data)).serves
  | handlePublish data => exact (idles_same (clock_handlePublish s data)).serves
  | _ => exact Idles.serves (.refl _)

end Sys
end LiteMqtt
