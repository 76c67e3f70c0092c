import LiteMqtt.Client.Identifiers

/-!
# The search for a packet id

`acquire_packet_id` goes round the 65535 ids until it finds one that none of the three maps holds.
It stops when it is back at the id it gave out last, before it looks whether that one is free.
-/

namespace LiteMqtt
namespace Sys

/-! ### When no packet id is left -/

/-- The id that `acquire_packet_id` tries after `j` others. -/
def nthId (start : UInt16) (j : Nat) : UInt16 := idAfter^[j + 1] start

theorem idAfter_toNat (p : UInt16) : (idAfter p).toNat = if p.toNat = 65535 then 1 else p.toNat + 1 := by
  have bound := p.toNat_lt
  unfold idAfter
  by_cases wraps : p.toNat = 65535
  · have same : p = 65535 := UInt16.toNat_inj.mp wraps
    subst same
    rfl
  · have next : (p + 1).toNat = p.toNat + 1 := by
      rw [UInt16.toNat_add]
      change (p.toNat + 1) % 65536 = _
      omega
    have positive : p + 1 ≠ 0 := fun zero => by
      rw [zero] at next
      simp at next
    rw [if_neg positive, if_neg wraps, next]

theorem nthId_toNat (start : UInt16) (j : Nat) : (nthId start j).toNat = (start.toNat + j) % 65535 + 1 := by
  have bound := start.toNat_lt
  unfold nthId
  induction j with
  | zero =>
    rw [Function.iterate_succ_apply', Function.iterate_zero_apply, idAfter_toNat]
    split <;> omega
  | succ j ih =>
    rw [Function.iterate_succ_apply', idAfter_toNat, ih]
    split <;> omega

/-- The loop fails exactly if each id that it tries before it is back at its start is taken. -/
theorem acquireLoop_fails (taken : UInt16 → Bool) (start : UInt16) (rounds : Nat) (next : UInt16) :
    (acquireLoop taken start rounds next).2 = false ↔
      ∀ j < rounds, (∀ i ≤ j, nthId next i ≠ start) → taken (nthId next j) = true := by
  induction rounds generalizing next with
  | zero => simp [acquireLoop]
  | succ rounds ih =>
    have later : ∀ j, nthId (idAfter next) j = nthId next (j + 1) := fun _ => rfl
    unfold acquireLoop
    split
    · rename_i back
      exact iff_of_true rfl fun j _ fresh => absurd back (fresh 0 (Nat.zero_le j))
    · rename_i away
      split
      · rename_i first
        rw [ih (idAfter next)]
        constructor
        · intro others j small fresh
          cases j with
          | zero => exact first
          | succ j =>
            exact others j (by omega) fun i before => later i ▸ fresh (i + 1) (by omega)
        · intro all j small fresh
          refine later j ▸ all (j + 1) (by omega) fun i before => ?_
          cases i with
          | zero => exact away
          | succ i => exact later i ▸ fresh i (by omega)
      · rename_i free
        refine iff_of_false (by simp) fun all => free ?_
        exact all 0 (Nat.succ_pos rounds) fun i none => by
          obtain rfl := Nat.le_zero.mp none
          exact away

/-- Every packet id is taken, but perhaps for the one that was given out last. -/
def Exhausted (s : Sys) : Prop := ∀ p, p ≠ 0 → p ≠ s.nextPacketId → s.takenId p = true

theorem acquireLoop_found {taken : UInt16 → Bool} {start next id : UInt16} {rounds : Nat}
    (found : acquireLoop taken start rounds next = (id, true)) : id ≠ 0 := by
  induction rounds generalizing next with
  | zero => simp [acquireLoop] at found
  | succ rounds ih =>
    unfold acquireLoop at found
    split at found
    · simp at found
    · split at found
      · exact ih found
      · obtain ⟨rfl, -⟩ := Prod.mk.inj found
        exact idAfter_positive next

theorem acquirePacketId_loop (s : Sys) : s.acquirePacketId.2 = 0 ↔
    (acquireLoop s.takenId s.nextPacketId 65536 s.nextPacketId).2 = false := by
  unfold acquirePacketId
  generalize tried : acquireLoop s.takenId s.nextPacketId 65536 s.nextPacketId = result
  obtain ⟨id, free⟩ := result
  cases free with
  | false => simp
  | true => simpa using acquireLoop_found tried

theorem acquirePacketId_zero (s : Sys) : s.acquirePacketId.2 = 0 ↔ s.Exhausted := by
  rw [acquirePacketId_loop, acquireLoop_fails]
  have nonzero : ∀ j, nthId s.nextPacketId j ≠ 0 := fun j zero => by
    have value := nthId_toNat s.nextPacketId j
    rw [zero] at value
    exact absurd value (Nat.succ_ne_zero _).symm
  constructor
  · intro tried p positive other
    have low : p.toNat ≠ 0 := fun zero => positive (UInt16.toNat_inj.mp zero)
    have apart : p.toNat ≠ s.nextPacketId.toNat := fun same => other (UInt16.toNat_inj.mp same)
    have bound := p.toNat_lt
    have bound' := s.nextPacketId.toNat_lt
    let j := (p.toNat + 65534 - s.nextPacketId.toNat) % 65535
    have reached : nthId s.nextPacketId j = p := by
      apply UInt16.toNat_inj.mp
      rw [nthId_toNat]
      omega
    have early : j < 65535 := Nat.mod_lt _ (by decide)
    rw [← reached]
    refine tried j (by omega) fun i before back => ?_
    have value := nthId_toNat s.nextPacketId i
    rw [back] at value
    omega
  · intro exhausted j small fresh
    exact exhausted _ (nonzero j) (fresh j (le_refl j))

/-! ### The whole search -/

/-- The loop of `acquire_packet_id` from `next` on ends with the id it tried last, and with
whether that id is free. Nothing bounds the rounds here. -/
inductive Searches (taken : UInt16 → Bool) (start : UInt16) : UInt16 → UInt16 × Bool → Prop where
  | back (next : UInt16) (same : idAfter next = start) : Searches taken start next (idAfter next, false)
  | free (next : UInt16) (other : idAfter next ≠ start) (free : taken (idAfter next) = false) :
      Searches taken start next (idAfter next, true)
  | on (next : UInt16) (result : UInt16 × Bool) (other : idAfter next ≠ start)
      (held : taken (idAfter next) = true) (later : Searches taken start (idAfter next) result) :
      Searches taken start next result

/-- The bounded loop is the whole search, if its start is among the ids that it may try. -/
theorem searches_acquireLoop {taken : UInt16 → Bool} {start next : UInt16} {rounds j : Nat}
    (enough : j < rounds) (reached : nthId next j = start) :
    Searches taken start next (acquireLoop taken start rounds next) := by
  induction rounds generalizing next j with
  | zero => omega
  | succ rounds ih =>
    unfold acquireLoop
    by_cases back : idAfter next = start
    · rw [if_pos back]
      exact .back next back
    rw [if_neg back]
    by_cases held : taken (idAfter next) = true
    · rw [if_pos held]
      cases j with
      | zero => exact absurd reached back
      | succ j => exact .on next _ back held (ih (by omega) reached)
    · rw [if_neg held]
      exact .free next back (by simpa using held)

theorem nthId_returns {start : UInt16} (positive : start ≠ 0) : nthId start 65534 = start := by
  have low : start.toNat ≠ 0 := fun zero => positive (UInt16.toNat_inj.mp zero)
  have bound := start.toNat_lt
  apply UInt16.toNat_inj.mp
  rw [nthId_toNat]
  omega

/-- `acquire_packet_id` ends, and changes only `next_packet_id_`. It gives a free id if there is
one, and 0 only if every id is in use. -/
structure AllocatesCompletely (s : Sys) : Prop where
  ends : ∃ next free, Searches s.takenId s.nextPacketId s.nextPacketId (next, free) ∧
    s.acquirePacketId = ({ s with nextPacketId := next }, if free then next else 0)
  finds : (∃ p, p ≠ 0 ∧ s.takenId p = false) → s.acquirePacketId.2 ≠ 0 ∧ s.takenId s.acquirePacketId.2 = false
  exhausted : s.acquirePacketId.2 = 0 → ∀ p, p ≠ 0 → s.takenId p = true

variable {s : Sys}

theorem acquirePacketId_ends (positive : s.nextPacketId ≠ 0) :
    ∃ next free, Searches s.takenId s.nextPacketId s.nextPacketId (next, free) ∧
      s.acquirePacketId = ({ s with nextPacketId := next }, if free then next else 0) :=
  ⟨_, _, searches_acquireLoop (by omega : 65534 < 65536) (nthId_returns positive), rfl⟩

/-- The allocation is complete exactly if the id given out last is in use, or another id is free. -/
theorem allocation_complete_iff (positive : s.nextPacketId ≠ 0) : s.AllocatesCompletely ↔
    s.takenId s.nextPacketId = true ∨ ∃ p, p ≠ 0 ∧ p ≠ s.nextPacketId ∧ s.takenId p = false := by
  have zero := acquirePacketId_zero s
  constructor
  · intro complete
    by_contra neither
    obtain ⟨free, none⟩ := not_or.mp neither
    have exhausted : s.Exhausted := by
      intro p proper other
      by_contra unused
      exact none ⟨p, proper, other, by simpa using unused⟩
    exact (complete.finds ⟨s.nextPacketId, positive, by simpa using free⟩).1 (zero.mpr exhausted)
  · intro either
    have all : s.acquirePacketId.2 = 0 → ∀ p, p ≠ 0 → s.takenId p = true := by
      intro failed p proper
      have exhausted := zero.mp failed
      by_cases last : p = s.nextPacketId
      · rcases either with held | ⟨q, proper, other, unused⟩
        · exact last ▸ held
        · exact absurd ((exhausted q proper other).symm.trans unused) nofun
      · exact exhausted p proper last
    refine ⟨acquirePacketId_ends positive, fun ⟨p, proper, unused⟩ => ?_, all⟩
    have found : s.acquirePacketId.2 ≠ 0 := fun failed =>
      absurd ((all failed p proper).symm.trans unused) nofun
    exact ⟨found, acquirePacketId_free found⟩

/-- The last id of all was given out, and the ids 1 and 2 are taken. -/
def wrapping : Sys :=
  { nextPacketId := 65535
    pendingSubscribes := (OrderedMap.empty.insert 1 { filters := [], callback := ⟨0, true⟩ }).insert 2
      { filters := [], callback := ⟨1, true⟩ } }

/-- The search goes past the end and past the ids that are taken. -/
theorem allocation_complete_wrapping : wrapping.acquirePacketId.2 = 3 ∧ wrapping.AllocatesCompletely :=
  ⟨by decide +kernel, (allocation_complete_iff (by decide)).mpr (.inr ⟨3, by decide, by decide, by decide⟩)⟩

theorem toNat_second {n i : Nat} (few : n ≤ 65534) (small : i < n) : (UInt16.ofNat (i + 2)).toNat = i + 2 := by
  rw [UInt16.toNat_ofNat']
  omega

/-- The ids from 2 on belong to `n` subscribes that wait for their SUBACK. -/
def crowd (n : Nat) (few : n ≤ 65534) : OrderedMap UInt16 PendingSubscribe where
  entries := (List.range n).map fun i => (UInt16.ofNat (i + 2), { filters := [], callback := ⟨i, true⟩ })
  ascending := by
    refine List.pairwise_map.mpr (List.pairwise_lt_range.imp_of_mem fun {i j} early late below => ?_)
    show UInt16.ofNat (i + 2) < UInt16.ofNat (j + 2)
    rw [UInt16.lt_iff_toNat_lt, toNat_second few (List.mem_range.mp early), toNat_second few (List.mem_range.mp late)]
    omega

theorem crowd_contains {n : Nat} (few : n ≤ 65534) (p : UInt16) :
    (crowd n few).contains p = true ↔ 2 ≤ p.toNat ∧ p.toNat < n + 2 := by
  constructor
  · intro held
    obtain ⟨v, among⟩ := OrderedMap.mem_of_contains held
    obtain ⟨i, early, same⟩ := List.mem_map.mp among
    have small := List.mem_range.mp early
    obtain rfl : UInt16.ofNat (i + 2) = p := congrArg Prod.fst same
    rw [toNat_second few small]
    omega
  · rintro ⟨low, high⟩
    have same : UInt16.ofNat (p.toNat - 2 + 2) = p := by
      rw [Nat.sub_add_cancel low, UInt16.ofNat_toNat]
    have among : (UInt16.ofNat (p.toNat - 2 + 2), _) ∈ (crowd n few).entries :=
      List.mem_map_of_mem (List.mem_range.mpr (by omega))
    have held := OrderedMap.contains_of_mem among
    rwa [same] at held

/-- Id 1 alone is free and was given out last. It is not given out, and the session is closed. -/
theorem last_id_missed : ¬ ∀ s : Sys, s.nextPacketId ≠ 0 → s.AllocatesCompletely := by
  intro claimed
  have crowded := crowd_contains (le_refl 65534)
  generalize crowd 65534 (le_refl 65534) = subscribes at crowded
  let s : Sys := { pendingSubscribes := subscribes }
  have exhausted : s.Exhausted := by
    intro p proper other
    have bound := p.toNat_lt
    have low : p.toNat ≠ 0 := fun zero => proper (UInt16.toNat_inj.mp zero)
    have second : p.toNat ≠ 1 := fun one => other (UInt16.toNat_inj.mp one)
    have held : subscribes.contains p = true := (crowded p).mpr (by omega)
    simp [takenId, s, held]
  have unused : s.takenId 1 = false := by
    have absent : subscribes.contains 1 = false :=
      Bool.eq_false_iff.mpr fun held => absurd ((crowded 1).mp held).1 (by decide)
    show (false || subscribes.contains 1 || false) = false
    rw [absent]
    rfl
  have positive : s.nextPacketId ≠ 0 := show (1 : UInt16) ≠ 0 by decide
  have found := ((claimed s positive).finds ⟨1, by decide, unused⟩).1
  exact found ((acquirePacketId_zero s).mpr exhausted)

end Sys
end LiteMqtt
