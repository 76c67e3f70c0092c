import Mathlib.Algebra.GroupWithZero.Nat
import Mathlib.Algebra.Order.BigOperators.Group.List
import Mathlib.Algebra.Order.Group.Nat
import Mathlib.Order.Basic
import Mathlib.Data.List.Basic
import Mathlib.Tactic.ApplyFun

/-! Finite maps whose entries are kept in strictly ascending key order.
The order is part of the type, so iteration by "the next larger key" needs no
well-formedness premise. -/

/-- A finite map listed in strictly ascending key order. -/
structure OrderedMap (κ α : Type*) [LinearOrder κ] where
  entries : List (κ × α)
  ascending : entries.Pairwise fun x y => x.1 < y.1

namespace OrderedMap

variable {κ α : Type*} [LinearOrder κ]

def empty : OrderedMap κ α := ⟨[], .nil⟩

def find? (m : OrderedMap κ α) (k : κ) : Option α := (m.entries.find? fun e => e.1 == k).map (·.2)

def contains (m : OrderedMap κ α) (k : κ) : Bool := (m.find? k).isSome

def size (m : OrderedMap κ α) : Nat := m.entries.length

def insertEntry (k : κ) (v : α) : List (κ × α) → List (κ × α)
  | [] => [(k, v)]
  | e :: rest =>
      if k < e.1 then (k, v) :: e :: rest
      else if e.1 < k then e :: insertEntry k v rest
      else (k, v) :: rest

theorem mem_insertEntry {k : κ} {v : α} {l : List (κ × α)} {e : κ × α}
    (h : e ∈ insertEntry k v l) : e = (k, v) ∨ e ∈ l := by
  induction l with
  | nil => exact .inl (List.mem_singleton.mp h)
  | cons x rest ih =>
    unfold insertEntry at h
    split at h
    · exact (List.mem_cons.mp h).imp_right id
    · split at h
      · rcases List.mem_cons.mp h with rfl | h
        · exact .inr List.mem_cons_self
        · exact (ih h).imp_right (List.mem_cons_of_mem _)
      · exact (List.mem_cons.mp h).imp_right (List.mem_cons_of_mem _)

theorem insertEntry_ascending {k : κ} {v : α} {l : List (κ × α)}
    (h : l.Pairwise fun x y => x.1 < y.1) : (insertEntry k v l).Pairwise fun x y => x.1 < y.1 := by
  induction l with
  | nil => exact List.pairwise_singleton _ _
  | cons x rest ih =>
    obtain ⟨before, tail⟩ := List.pairwise_cons.mp h
    unfold insertEntry
    split
    · rename_i below
      refine List.pairwise_cons.mpr ⟨?_, h⟩
      intro e member
      rcases List.mem_cons.mp member with rfl | member
      · exact below
      · exact below.trans (before e member)
    · split
      · rename_i above
        refine List.pairwise_cons.mpr ⟨?_, ih tail⟩
        intro e member
        rcases mem_insertEntry member with rfl | member
        · exact above
        · exact before e member
      · rename_i notBelow notAbove
        have same : x.1 = k := le_antisymm (not_lt.mp notBelow) (not_lt.mp notAbove)
        exact List.pairwise_cons.mpr ⟨fun e member => same ▸ before e member, tail⟩

/-- Bind `k` to `v`, replacing an earlier binding. -/
def insert (m : OrderedMap κ α) (k : κ) (v : α) : OrderedMap κ α :=
  ⟨insertEntry k v m.entries, insertEntry_ascending m.ascending⟩

def erase (m : OrderedMap κ α) (k : κ) : OrderedMap κ α :=
  ⟨m.entries.filter fun e => e.1 != k, m.ascending.filter _⟩

/-- The smallest key. -/
def first? (m : OrderedMap κ α) : Option κ := m.entries.head?.map (·.1)

/-- The smallest key above `k`, whether or not `k` itself is bound. -/
def next? (m : OrderedMap κ α) (k : κ) : Option κ :=
  (m.entries.find? fun e => k < e.1).map (·.1)

theorem find?_eq_some {m : OrderedMap κ α} {k : κ} {v : α} :
    m.find? k = some v ↔ (k, v) ∈ m.entries := by
  obtain ⟨l, ascending⟩ := m
  simp only [find?, Option.map_eq_some_iff]
  constructor
  · rintro ⟨⟨j, w⟩, found, rfl⟩
    have same := List.find?_some found
    simp only [beq_iff_eq] at same
    exact same ▸ List.mem_of_find?_eq_some found
  · intro member
    induction l with
    | nil => cases member
    | cons e rest ih =>
      obtain ⟨before, tail⟩ := List.pairwise_cons.mp ascending
      rcases List.mem_cons.mp member with rfl | member
      · exact ⟨(k, v), by simp, rfl⟩
      · have different : e.1 ≠ k := ne_of_lt (before _ member)
        obtain ⟨x, found, value⟩ := ih tail member
        exact ⟨x, by simpa [different] using found, value⟩

theorem find?_eq_none {m : OrderedMap κ α} {k : κ} :
    m.find? k = none ↔ ∀ e ∈ m.entries, e.1 ≠ k := by
  simp [find?]

@[simp] theorem find?_empty (k : κ) : (empty : OrderedMap κ α).find? k = none := rfl

@[simp] theorem entries_empty : (empty : OrderedMap κ α).entries = [] := rfl

theorem find?_erase (m : OrderedMap κ α) (k j : κ) :
    (m.erase k).find? j = if j = k then none else m.find? j := by
  split
  · rename_i same
    subst same
    exact find?_eq_none.mpr fun e member => by simpa using (List.mem_filter.mp member).2
  · rename_i different
    apply Option.ext
    intro v
    rw [find?_eq_some, find?_eq_some]
    simp [erase, different]

theorem erase_absent {m : OrderedMap κ α} {k : κ} (absent : m.find? k = none) : m.erase k = m := by
  obtain ⟨entries, ascending⟩ := m
  have kept : entries.filter (fun e => e.1 != k) = entries := by
    refine List.filter_eq_self.mpr fun e member => ?_
    simpa using find?_eq_none.mp absent e member
  simp only [erase, kept]

theorem mem_insert {m : OrderedMap κ α} {k : κ} {v : α} {e : κ × α} :
    e ∈ (m.insert k v).entries ↔ e = (k, v) ∨ e ∈ m.entries ∧ e.1 ≠ k := by
  obtain ⟨l, ascending⟩ := m
  change e ∈ insertEntry k v l ↔ e = (k, v) ∨ e ∈ l ∧ e.1 ≠ k
  induction l with
  | nil => simp [insertEntry]
  | cons x rest ih =>
    obtain ⟨before, tail⟩ := List.pairwise_cons.mp ascending
    unfold insertEntry
    split
    · rename_i below
      have apart : ∀ y ∈ x :: rest, y.1 ≠ k := by
        intro y member
        rcases List.mem_cons.mp member with rfl | member
        · exact ne_of_gt below
        · exact ne_of_gt (below.trans (before y member))
      simp only [List.mem_cons (a := e) (b := (k, v))]
      exact or_congr_right ⟨fun h => ⟨h, apart e h⟩, And.left⟩
    · split
      · rename_i above
        simp only [List.mem_cons, ih tail]
        constructor
        · rintro (rfl | rfl | ⟨member, apart⟩)
          · exact .inr ⟨.inl rfl, ne_of_lt above⟩
          · exact .inl rfl
          · exact .inr ⟨.inr member, apart⟩
        · rintro (rfl | ⟨rfl | member, apart⟩)
          · exact .inr (.inl rfl)
          · exact .inl rfl
          · exact .inr (.inr ⟨member, apart⟩)
      · rename_i notBelow notAbove
        have same : x.1 = k := le_antisymm (not_lt.mp notBelow) (not_lt.mp notAbove)
        simp only [List.mem_cons]
        constructor
        · rintro (rfl | member)
          · exact .inl rfl
          · exact .inr ⟨.inr member, same ▸ ne_of_gt (before e member)⟩
        · rintro (rfl | ⟨rfl | member, apart⟩)
          · exact .inl rfl
          · exact (apart same).elim
          · exact .inr member

theorem find?_insert (m : OrderedMap κ α) (k j : κ) (v : α) :
    (m.insert k v).find? j = if j = k then some v else m.find? j := by
  apply Option.ext
  intro w
  rw [find?_eq_some, mem_insert]
  split
  · rename_i same
    subst same
    simp [eq_comm]
  · rename_i different
    simp [find?_eq_some, different]

/-- Erasing a bound key removes exactly its entry. -/
theorem erase_perm {m : OrderedMap κ α} {k : κ} {v : α} (found : m.find? k = some v) :
    m.entries.Perm ((k, v) :: (m.erase k).entries) := by
  have member := find?_eq_some.mp found
  obtain ⟨l, ascending⟩ := m
  change l.Perm ((k, v) :: l.filter fun e => e.1 != k)
  change (k, v) ∈ l at member
  clear found
  induction l with
  | nil => cases member
  | cons x rest ih =>
    obtain ⟨before, tail⟩ := List.pairwise_cons.mp ascending
    rcases List.mem_cons.mp member with rfl | member
    · have kept : rest.filter (fun e => e.1 != k) = rest :=
        List.filter_eq_self.mpr fun e h => by simpa using ne_of_gt (before e h)
      simp [kept]
    · have different : x.1 ≠ k := ne_of_lt (before _ member)
      rw [List.filter_cons_of_pos (by simpa using different)]
      exact ((ih tail member).cons x).trans (.swap ..)

/-- Binding a fresh key adds exactly one entry. -/
theorem insert_perm {m : OrderedMap κ α} {k : κ} {v : α} (fresh : m.find? k = none) :
    (m.insert k v).entries.Perm ((k, v) :: m.entries) := by
  obtain ⟨l, ascending⟩ := m
  have apart := find?_eq_none.mp fresh
  change (insertEntry k v l).Perm ((k, v) :: l)
  change ∀ e ∈ l, e.1 ≠ k at apart
  clear fresh
  induction l with
  | nil => exact .refl _
  | cons x rest ih =>
    unfold insertEntry
    split
    · exact .refl _
    · split
      · exact ((ih (List.pairwise_cons.mp ascending).2
          fun e h => apart e (List.mem_cons_of_mem _ h)).cons x).trans (.swap ..)
      · rename_i notBelow notAbove
        exact (apart x List.mem_cons_self
          (le_antisymm (not_lt.mp notBelow) (not_lt.mp notAbove))).elim

theorem find?_of_first? {m : OrderedMap κ α} {k : κ} (h : m.first? = some k) :
    (m.find? k).isSome ∧ ∀ e ∈ m.entries, k ≤ e.1 := by
  obtain ⟨l, ascending⟩ := m
  cases l with
  | nil => cases h
  | cons x rest =>
    obtain rfl : x.1 = k := by simpa [first?] using h
    refine ⟨by simp [find?], ?_⟩
    intro e member
    rcases List.mem_cons.mp member with rfl | member
    · exact le_refl _
    · exact le_of_lt ((List.pairwise_cons.mp ascending).1 e member)

theorem entries_of_first?_none {m : OrderedMap κ α} (h : m.first? = none) : m.entries = [] := by
  simpa [first?] using h

theorem find?_of_next? {m : OrderedMap κ α} {k j : κ} (h : m.next? k = some j) :
    k < j ∧ (m.find? j).isSome ∧ ∀ e ∈ m.entries, k < e.1 → j ≤ e.1 := by
  obtain ⟨l, ascending⟩ := m
  simp only [next?, Option.map_eq_some_iff] at h
  obtain ⟨⟨i, v⟩, found, rfl⟩ := h
  have above : k < i := by simpa using List.find?_some found
  refine ⟨above, ?_, ?_⟩
  · rw [Option.isSome_iff_exists]
    exact ⟨v, find?_eq_some.mpr (List.mem_of_find?_eq_some found)⟩
  · intro e member larger
    obtain ⟨-, pre, post, split, skipped⟩ := List.find?_eq_some_iff_append.mp found
    change l = _ at split
    subst split
    rcases List.mem_append.mp member with early | late
    · have := skipped e early
      simp [larger] at this
    · rcases List.mem_cons.mp late with rfl | late
      · exact le_refl _
      · exact le_of_lt ((List.pairwise_cons.mp (List.pairwise_append.mp ascending).2.1).1 e late)

theorem next?_none {m : OrderedMap κ α} {k : κ} (h : m.next? k = none) :
    ∀ e ∈ m.entries, e.1 ≤ k := by
  simpa [next?] using h

theorem find?_of_entries {m : OrderedMap κ α} {before after : List (κ × α)} {k : κ} {v : α}
    (entries : m.entries = before ++ (k, v) :: after) : m.find? k = some v :=
  find?_eq_some.mpr (entries ▸ List.mem_append_right _ List.mem_cons_self)

/-- Iteration goes on with the entry behind. -/
theorem next?_of_entries {m : OrderedMap κ α} {before after : List (κ × α)} {k : κ} {v : α}
    (entries : m.entries = before ++ (k, v) :: after) : m.next? k = after.head?.map Prod.fst := by
  obtain ⟨l, ascending⟩ := m
  subst entries
  obtain ⟨-, tail, apart⟩ := List.pairwise_append.mp ascending
  have passed : before.find? (fun e => decide (k < e.1)) = none := by
    refine List.find?_eq_none.mpr fun e member => ?_
    simpa using le_of_lt (apart e member (k, v) List.mem_cons_self)
  have here : ¬ k < k := lt_irrefl k
  simp only [next?, List.find?_append, passed, Option.none_or, List.find?_cons, decide_eq_false here]
  cases after with
  | nil => rfl
  | cons e rest =>
    have next : k < e.1 := (List.pairwise_cons.mp tail).1 e List.mem_cons_self
    simp [next]

theorem contains_of_mem {m : OrderedMap κ α} {e : κ × α} (member : e ∈ m.entries) :
    m.contains e.1 = true := by
  rw [contains, find?_eq_some.mpr member]
  rfl

theorem mem_of_contains {m : OrderedMap κ α} {k : κ} (bound : m.contains k = true) : ∃ v, (k, v) ∈ m.entries := by
  obtain ⟨v, found⟩ := Option.isSome_iff_exists.mp bound
  exact ⟨v, find?_eq_some.mp found⟩

theorem keys_nodup (m : OrderedMap κ α) : (m.entries.map Prod.fst).Nodup :=
  List.pairwise_map.mpr (m.ascending.imp ne_of_lt)

theorem entries_nodup (m : OrderedMap κ α) : m.entries.Nodup :=
  m.ascending.imp fun below same => absurd (same ▸ below) (lt_irrefl _)

/-- Binding a key replaces its entry, if there is one. -/
theorem insert_perm_erase (m : OrderedMap κ α) (k : κ) (v : α) :
    (m.insert k v).entries.Perm ((k, v) :: (m.erase k).entries) := by
  have absent : (k, v) ∉ (m.erase k).entries := by simp [erase]
  refine (List.perm_ext_iff_of_nodup (entries_nodup _) (List.nodup_cons.mpr ⟨absent, entries_nodup _⟩)).mpr fun e => ?_
  rw [mem_insert]
  simp [erase]

/-! ### Weights -/

/-- What the entries of a map weigh together. -/
def weight (m : OrderedMap κ α) (w : κ × α → Nat) : Nat := (m.entries.map w).sum

section
variable {m : OrderedMap κ α} {w x : κ × α → Nat}

theorem weight_erase {k : κ} {v : α} (found : m.find? k = some v) : m.weight w = w (k, v) + (m.erase k).weight w := by
  rw [weight, ((erase_perm found).map w).sum_nat, List.map_cons, List.sum_cons]
  rfl

theorem weight_insert {k : κ} (fresh : m.find? k = none) (v : α) : (m.insert k v).weight w = w (k, v) + m.weight w := by
  rw [weight, ((insert_perm fresh).map w).sum_nat, List.map_cons, List.sum_cons]
  rfl

theorem weight_replace (k : κ) (v : α) : (m.insert k v).weight w = w (k, v) + (m.erase k).weight w := by
  rw [weight, ((insert_perm_erase m k v).map w).sum_nat, List.map_cons, List.sum_cons]
  rfl

theorem weight_congr (same : ∀ e ∈ m.entries, w e = x e) : m.weight w = m.weight x :=
  congrArg List.sum (List.map_congr_left same)

theorem weight_zero (none : ∀ e ∈ m.entries, w e = 0) : m.weight w = 0 := by
  refine List.sum_eq_zero_iff_forall_eq_nat.mpr fun n among => ?_
  obtain ⟨e, member, rfl⟩ := List.mem_map.mp among
  exact none e member

theorem weight_le (below : ∀ e ∈ m.entries, w e ≤ x e) : m.weight w ≤ m.weight x := List.sum_le_sum below

theorem weight_erase_le (k : κ) : (m.erase k).weight w ≤ m.weight w := by
  cases found : m.find? k with
  | none => rw [erase_absent found]
  | some v => exact weight_erase (w := w) found ▸ Nat.le_add_left _ _

/-- One entry weighs more. -/
theorem weight_gap {k : κ} {v : α} {d : Nat} (found : m.find? k = some v) (below : ∀ e ∈ m.entries, w e ≤ x e)
    (gap : w (k, v) + d ≤ x (k, v)) : m.weight w + d ≤ m.weight x := by
  have others : (m.erase k).weight w ≤ (m.erase k).weight x :=
    weight_le fun e among => below e (List.mem_of_mem_filter among)
  rw [weight_erase found, weight_erase (w := x) found]
  omega

end

/-- A map whose keys are all keys of another is no larger. -/
theorem size_le_of_contains {β : Type*} {m : OrderedMap κ α} {n : OrderedMap κ β}
    (inside : ∀ k, m.contains k = true → n.contains k = true) : m.size ≤ n.size := by
  have keys : (m.entries.map Prod.fst) ⊆ n.entries.map Prod.fst := by
    intro k member
    obtain ⟨e, among, rfl⟩ := List.mem_map.mp member
    obtain ⟨v, found⟩ := mem_of_contains (inside e.1 (contains_of_mem among))
    exact List.mem_map.mpr ⟨_, found, rfl⟩
  have fewer := m.keys_nodup.length_le_of_subset keys
  simpa [size] using fewer

theorem size_insertEntry_le (k : κ) (v : α) (l : List (κ × α)) : (insertEntry k v l).length ≤ l.length + 1 := by
  induction l with
  | nil => simp [insertEntry]
  | cons x rest ih =>
    unfold insertEntry
    split
    · simp
    · split
      · simpa using ih
      · simp

theorem size_insert_le (m : OrderedMap κ α) (k : κ) (v : α) : (m.insert k v).size ≤ m.size + 1 :=
  size_insertEntry_le k v m.entries

theorem contains_erase (m : OrderedMap κ α) (k j : κ) :
    (m.erase k).contains j = true ↔ j ≠ k ∧ m.contains j = true := by
  simp only [contains, find?_erase]
  split
  · simp [*]
  · simp [*]

theorem entries_eq_nil {m : OrderedMap κ α} : m.entries = [] ↔ ∀ k, m.contains k = false := by
  constructor
  · intro nothing k
    have absent : m.find? k = none := find?_eq_none.mpr (by simp [nothing])
    simp [contains, absent]
  · intro absent
    refine List.eq_nil_iff_forall_not_mem.mpr fun e member => ?_
    simpa [absent e.1] using contains_of_mem member

theorem contains_insert (m : OrderedMap κ α) (k j : κ) (v : α) :
    (m.insert k v).contains j = true ↔ j = k ∨ m.contains j = true := by
  simp only [contains, find?_insert]
  split
  · simp [*]
  · simp [*]

end OrderedMap
