import Mathlib.Algebra.Group.Action.Defs
import Mathlib.Algebra.Order.BigOperators.Group.List
import Mathlib.Algebra.Order.Ring.Nat
import Mathlib.Data.List.Perm.Subperm
import SourceSearch.Document.Key
import SourceSearch.Sorted.Set

/-!
# Ledgers

What a writer has done with the keys of one trigram, apart from any file: the shards it has handed
over and the keys that wait for the next one.  Keys that are added once fill all shards but the last
to the brim, so the number of shards follows from the number of keys.
-/

namespace SourceSearch

/-- The shards of a trigram so far, and the keys after them. -/
structure Ledger where
  /-- The shards in the order of their generations. -/
  shards : List (SortedSet DocumentKey) := []
  /-- The keys that wait. -/
  waiting : SortedSet DocumentKey := .empty

namespace Ledger

variable {threshold count : Nat} {ledger : Ledger} {key other : DocumentKey}

/-- The number of keys in all shards. -/
def total (ledger : Ledger) : Nat := (ledger.shards.map SortedSet.size).sum

/-- The waiting keys become a shard, if there are any. -/
def flush (ledger : Ledger) : Ledger :=
  if ledger.waiting.isEmpty then ledger else ⟨ledger.shards ++ [ledger.waiting], .empty⟩

/-- Add a key; enough of them become a shard. -/
def add (threshold : Nat) (ledger : Ledger) (key : DocumentKey) : Ledger :=
  let grown : Ledger := { ledger with waiting := ledger.waiting.insert key }
  if grown.waiting.size < threshold then grown else grown.flush

/-- The key is in a shard or waits. -/
def Holds (ledger : Ledger) (key : DocumentKey) : Prop :=
  (∃ shard ∈ ledger.shards, key ∈ shard) ∨ key ∈ ledger.waiting

theorem flush_of_isEmpty (empty : ledger.waiting.isEmpty) : ledger.flush = ledger := if_pos empty

theorem flush_of_some (nonempty : ledger.waiting.isEmpty = false) :
    ledger.flush = ⟨ledger.shards ++ [ledger.waiting], .empty⟩ := by
  rw [flush, nonempty]
  rfl

@[simp]
theorem holds_flush : ledger.flush.Holds key ↔ ledger.Holds key := by
  rw [flush]
  split
  · rfl
  · simp [Holds]

@[simp]
theorem waiting_flush : ledger.flush.waiting.isEmpty := by
  rw [flush]
  split
  · assumption
  · rfl

/-- After a flush every key is in a shard. -/
theorem holds_flush_iff : ledger.Holds key ↔ ∃ shard ∈ ledger.flush.shards, key ∈ shard := by
  rw [← holds_flush, Holds, or_iff_left (SortedSet.isEmpty_iff.mp waiting_flush key)]

theorem holds_add : (ledger.add threshold key).Holds other ↔ other = key ∨ ledger.Holds other := by
  have grown : ({ ledger with waiting := ledger.waiting.insert key } : Ledger).Holds other ↔
      other = key ∨ ledger.Holds other := by
    simp only [Holds, SortedSet.mem_insert]
    grind
  rw [add]
  split
  · exact grown
  · rw [holds_flush, grown]

theorem holds_foldl_add (keys : List DocumentKey) :
    (keys.foldl (add threshold) ledger).Holds other ↔ other ∈ keys ∨ ledger.Holds other := by
  induction keys generalizing ledger with
  | nil => simp
  | cons key keys ih =>
      rw [List.foldl_cons, ih, holds_add, List.mem_cons]
      grind

theorem not_holds_empty : ¬ ({} : Ledger).Holds key := by
  simp [Holds]

/-! ## Sizes of shards -/

/-- No shard is empty or larger than the threshold. -/
def Sized (threshold : Nat) (shards : List (SortedSet DocumentKey)) : Prop :=
  ∀ shard ∈ shards, 0 < shard.size ∧ shard.size ≤ threshold

/-- The shards are bounded, and fewer keys wait than make a shard. -/
structure Bounded (threshold : Nat) (ledger : Ledger) : Prop where
  /-- Shards are neither empty nor too large. -/
  sized : Sized threshold ledger.shards
  /-- The rest is not full. -/
  room : ledger.waiting.size < threshold

theorem bounded_empty (positive : 0 < threshold) : Bounded threshold {} :=
  ⟨by simp [Sized], positive⟩

theorem size_pos (nonempty : ledger.waiting.isEmpty = false) : 0 < ledger.waiting.size := by
  refine List.length_pos_iff.mpr fun nil => ?_
  rw [SortedSet.isEmpty, nil] at nonempty
  cases nonempty

theorem sized_flush (sized : Sized threshold ledger.shards)
    (whole : ledger.waiting.size ≤ threshold) : Sized threshold ledger.flush.shards := by
  cases empty : ledger.waiting.isEmpty with
  | true => rwa [flush_of_isEmpty empty]
  | false =>
      rw [flush_of_some empty]
      intro shard member
      rcases List.mem_append.mp member with member | member
      · exact sized shard member
      · exact List.mem_singleton.mp member ▸ ⟨size_pos empty, whole⟩

theorem size_waiting_flush (ledger : Ledger) : ledger.flush.waiting.size = 0 := by
  rw [SortedSet.size, List.length_eq_zero_iff, ← List.isEmpty_iff]
  exact waiting_flush

theorem Bounded.flush (bounded : Bounded threshold ledger) : Bounded threshold ledger.flush where
  sized := sized_flush bounded.sized (Nat.le_of_lt bounded.room)
  room := by
    have room := bounded.room
    rw [size_waiting_flush]
    omega

theorem Bounded.add (bounded : Bounded threshold ledger) :
    Bounded threshold (ledger.add threshold key) := by
  have room := bounded.room
  have grows : (ledger.waiting.insert key).size ≤ ledger.waiting.size + 1 := by
    rw [SortedSet.size_insert]
    split <;> omega
  rw [Ledger.add]
  split
  · exact ⟨bounded.sized, ‹_›⟩
  · refine ⟨sized_flush bounded.sized (Nat.le_trans grows room), ?_⟩
    rw [size_waiting_flush]
    omega

theorem Bounded.foldl_add (bounded : Bounded threshold ledger) (keys : List DocumentKey) :
    Bounded threshold (keys.foldl (Ledger.add threshold) ledger) := by
  induction keys generalizing ledger with
  | nil => exact bounded
  | cons key rest ih => exact ih bounded.add

theorem total_append_singleton (shards : List (SortedSet DocumentKey))
    (shard : SortedSet DocumentKey) (waiting : SortedSet DocumentKey) :
    total ⟨shards ++ [shard], waiting⟩ = (shards.map SortedSet.size).sum + shard.size := by
  simp [total]

theorem total_flush (ledger : Ledger) :
    ledger.flush.total = ledger.total + ledger.waiting.size := by
  cases empty : ledger.waiting.isEmpty with
  | true =>
      have nothing := size_waiting_flush ledger
      rw [flush_of_isEmpty empty] at nothing ⊢
      omega
  | false => rw [flush_of_some empty, total_append_singleton, total]

/-- Keys that are all in shards are no more than the shards have together. -/
theorem size_ofList_le {keys : List DocumentKey}
    (held : ∀ key ∈ keys, ∃ shard ∈ ledger.shards, key ∈ shard) :
    (SortedSet.ofList keys).size ≤ ledger.total := by
  have subset : (SortedSet.ofList keys).toList ⊆ ledger.shards.flatMap SortedSet.toList :=
    fun key member => List.mem_flatMap.mpr (held key (SortedSet.mem_ofList.mp member))
  have bound := (List.subperm_of_subset (SortedSet.ofList keys).nodup subset).length_le
  rw [List.length_flatMap] at bound
  exact bound

/-- Different keys that are all in shards are no more than the shards can hold. -/
theorem length_le_of_sized {shards : List (SortedSet DocumentKey)} (sized : Sized threshold shards)
    {keys : List DocumentKey} (distinct : keys.Nodup)
    (held : ∀ key ∈ keys, ∃ shard ∈ shards, key ∈ shard) :
    keys.length ≤ threshold * shards.length := by
  have subset : keys ⊆ shards.flatMap SortedSet.toList :=
    fun key member => List.mem_flatMap.mpr (held key member)
  calc keys.length
      ≤ (shards.flatMap SortedSet.toList).length :=
        (List.subperm_of_subset distinct subset).length_le
    _ = (shards.map fun shard => shard.toList.length).sum := List.length_flatMap
    _ ≤ (shards.map fun shard => shard.toList.length).length • threshold :=
        List.sum_le_card_nsmul _ _ (by
          rw [List.forall_mem_map]
          exact fun shard member => (sized shard member).2)
    _ = threshold * shards.length := by
        rw [List.length_map, smul_eq_mul, Nat.mul_comm]

/-! ## Additions -/

/-- A shard takes as many additions as it may have keys, and a key that waits takes one.  A key that
is added again while it waits takes none, so there may have been more. -/
def Spends (threshold : Nat) (ledger : Ledger) (count : Nat) : Prop :=
  ledger.shards.length * threshold + ledger.waiting.size ≤ count

theorem spends_empty (threshold : Nat) : Spends threshold {} 0 := by
  rw [Spends]
  simp [SortedSet.size, SortedSet.empty]

theorem Spends.add (spends : Spends threshold ledger count) :
    Spends threshold (ledger.add threshold key) (count + 1) := by
  have grows : (ledger.waiting.insert key).size ≤ ledger.waiting.size + 1 := by
    rw [SortedSet.size_insert]
    split <;> omega
  rw [Spends] at spends
  rw [Ledger.add]
  split
  · change ledger.shards.length * threshold + (ledger.waiting.insert key).size ≤ count + 1
    omega
  · rename_i full
    replace full : threshold ≤ (ledger.waiting.insert key).size := Nat.not_lt.mp full
    have nonempty : (ledger.waiting.insert key).isEmpty = false := by
      refine Bool.eq_false_iff.mpr fun empty => ?_
      exact SortedSet.isEmpty_iff.mp empty key (SortedSet.mem_insert_self _ _)
    rw [flush_of_some nonempty, Spends, List.length_append, List.length_singleton,
      Nat.add_one_mul]
    change ledger.shards.length * threshold + threshold + 0 ≤ count + 1
    omega

theorem Spends.foldl_add (spends : Spends threshold ledger count) (keys : List DocumentKey) :
    Spends threshold (keys.foldl (Ledger.add threshold) ledger) (count + keys.length) := by
  induction keys generalizing ledger count with
  | nil => exact spends
  | cons key keys ih =>
      rw [List.foldl_cons, List.length_cons, Nat.add_comm keys.length, ← Nat.add_assoc]
      exact ih spends.add

/-- As many additions as a number of shards can take need no more shards. -/
theorem Spends.length_flush_le (spends : Spends threshold ledger count) (positive : 0 < threshold)
    {generations : Nat} (bound : count ≤ threshold * generations) :
    ledger.flush.shards.length ≤ generations := by
  have taken : ledger.shards.length * threshold + ledger.waiting.size ≤ generations * threshold :=
    Nat.le_trans spends (Nat.mul_comm threshold generations ▸ bound)
  cases empty : ledger.waiting.isEmpty with
  | true =>
      rw [flush_of_isEmpty empty]
      exact Nat.le_of_mul_le_mul_right (Nat.le_of_add_right_le taken) positive
  | false =>
      have waits := size_pos empty
      rw [flush_of_some empty, List.length_append, List.length_singleton]
      exact Nat.lt_of_mul_lt_mul_right (Nat.lt_of_lt_of_le (Nat.lt_add_of_pos_right waits) taken)

/-! ## Keys that are added once -/

/-- Every shard is full, fewer keys wait than make a shard, and `count` keys have been added. -/
structure Filled (threshold : Nat) (ledger : Ledger) (count : Nat) : Prop where
  /-- Shards are handed over as soon as they are full. -/
  full : ∀ shard ∈ ledger.shards, shard.size = threshold
  /-- The rest is not full. -/
  room : ledger.waiting.size < threshold
  /-- Each key is counted. -/
  counted : ledger.total + ledger.waiting.size = count

theorem filled_empty (positive : 0 < threshold) : Filled threshold {} 0 :=
  ⟨by simp, positive, rfl⟩

theorem Filled.add (filled : Filled threshold ledger count) (fresh : ¬ ledger.Holds key) :
    Filled threshold (ledger.add threshold key) (count + 1) := by
  have counted := filled.counted
  have absent : key ∉ ledger.waiting := fun member => fresh (.inr member)
  have size : (ledger.waiting.insert key).size = ledger.waiting.size + 1 := by
    rw [SortedSet.size_insert, if_neg absent]
  rw [Ledger.add]
  split
  · rename_i less
    refine ⟨filled.full, less, ?_⟩
    change ledger.total + (ledger.waiting.insert key).size = count + 1
    omega
  · rename_i full
    have room := filled.room
    replace full : ¬ (ledger.waiting.insert key).size < threshold := full
    have exact_size : (ledger.waiting.insert key).size = threshold := by omega
    have nonempty : (ledger.waiting.insert key).isEmpty = false := by
      refine Bool.eq_false_iff.mpr fun empty => ?_
      exact SortedSet.isEmpty_iff.mp empty key (SortedSet.mem_insert_self _ _)
    rw [flush_of_some nonempty]
    refine ⟨fun shard member => ?_, by change 0 < threshold; omega, ?_⟩
    · rcases List.mem_append.mp member with member | member
      · exact filled.full shard member
      · exact List.mem_singleton.mp member ▸ exact_size
    · rw [total_append_singleton]
      change ledger.total + (ledger.waiting.insert key).size + 0 = count + 1
      omega

/-- Different keys, none of which was there, fill the shards. -/
theorem Filled.foldl_add (filled : Filled threshold ledger count) {keys : List DocumentKey}
    (distinct : keys.Nodup) (fresh : ∀ key ∈ keys, ¬ ledger.Holds key) :
    Filled threshold (keys.foldl (Ledger.add threshold) ledger) (count + keys.length) := by
  induction keys generalizing ledger count with
  | nil => exact filled
  | cons key keys ih =>
      rw [List.forall_mem_cons] at fresh
      rw [List.nodup_cons] at distinct
      have next := ih (filled.add fresh.1) distinct.2 fun later member held => by
        rcases holds_add.mp held with rfl | held
        · exact distinct.1 member
        · exact fresh.2 later member held
      rw [List.foldl_cons, List.length_cons, Nat.add_comm keys.length, ← Nat.add_assoc]
      exact next

theorem Filled.total_eq (filled : Filled threshold ledger count) :
    ledger.total = ledger.shards.length * threshold := by
  rw [total, List.map_congr_left (g := fun _ => threshold) filled.full, List.map_const',
    List.sum_replicate_nat]

/-- A flushed ledger has as few shards as can hold the keys. -/
theorem Filled.length_flush (filled : Filled threshold ledger count) :
    ledger.flush.shards.length = (count + threshold - 1) / threshold := by
  have counted := filled.counted
  have room := filled.room
  rw [filled.total_eq] at counted
  symm
  cases empty : ledger.waiting.isEmpty with
  | true =>
      have nothing : ledger.waiting.size = 0 := by
        rw [← flush_of_isEmpty empty, size_waiting_flush]
      rw [flush_of_isEmpty empty]
      apply Nat.div_eq_of_lt_le
      · omega
      · rw [Nat.add_one_mul]
        omega
  | false =>
      have positive := size_pos empty
      rw [flush_of_some empty, List.length_append, List.length_singleton]
      apply Nat.div_eq_of_lt_le
      · rw [Nat.add_one_mul]
        omega
      · rw [Nat.add_one_mul, Nat.add_one_mul]
        omega

/-- A flushed ledger has each key in a shard once. -/
theorem Filled.total_flush_eq (filled : Filled threshold ledger count) :
    ledger.flush.total = count :=
  ledger.total_flush.trans filled.counted

/-- All shards but the last are full. -/
theorem Filled.full_flush (filled : Filled threshold ledger count) :
    ∀ shard ∈ ledger.flush.shards.dropLast, shard.size = threshold := by
  cases empty : ledger.waiting.isEmpty with
  | true =>
      rw [flush_of_isEmpty empty]
      exact fun shard member => filled.full shard (List.dropLast_subset _ member)
  | false =>
      rw [flush_of_some empty, List.dropLast_concat]
      exact filled.full

end Ledger
end SourceSearch
