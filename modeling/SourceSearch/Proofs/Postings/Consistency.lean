import Mathlib.Data.List.Flatten
import SourceSearch.Proofs.FileTree.Altered
import SourceSearch.Proofs.Postings.Contents

/-!
# Declared and actual sizes

Keys that are added once are in one shard each, so the shards of a trigram have together as many
keys as their union, and that is the number that the count file declares.  A reader stops at the
first shard that it cannot read, and what it has read until then is less than what is declared.
-/

namespace SourceSearch

/-- A set has as many members as a list that names each of them once. -/
theorem SortedSet.size_eq_length {α : Type} [LT α] [DecidableEq α] [DecidableLT α] [SortOrder α]
    {set : SortedSet α} {members : List α} (distinct : members.Nodup)
    (same : ∀ member, member ∈ set ↔ member ∈ members) : set.size = members.length :=
  ((List.perm_ext_iff_of_nodup set.nodup distinct).mpr same).length_eq

namespace Ledger

variable {threshold : Nat} {ledger : Ledger} {shards : List (SortedSet DocumentKey)}

/-- Keys that are added once are in one shard each. -/
theorem Filled.nodup_flush {keys : List DocumentKey}
    (filled : Filled threshold ledger keys.length) (distinct : keys.Nodup)
    (holds : ∀ key ∈ keys, ledger.Holds key) :
    (ledger.flush.shards.flatMap SortedSet.toList).Nodup := by
  have subset : keys ⊆ ledger.flush.shards.flatMap SortedSet.toList := fun key member =>
    List.mem_flatMap.mpr (holds_flush_iff.mp (holds key member))
  have length : (ledger.flush.shards.flatMap SortedSet.toList).length = keys.length :=
    List.length_flatMap.trans filled.total_flush_eq
  have perm := (List.subperm_of_subset distinct subset).perm_of_length_le (Nat.le_of_eq length)
  exact perm.nodup_iff.mp distinct

/-- Shards that have no key in common have together as many keys as their union. -/
theorem size_union {union : SortedSet DocumentKey}
    (distinct : (shards.flatMap SortedSet.toList).Nodup)
    (members : ∀ key, key ∈ union ↔ ∃ shard ∈ shards, key ∈ shard) :
    union.size = (shards.map SortedSet.size).sum := by
  rw [SortedSet.size_eq_length distinct fun key => (members key).trans List.mem_flatMap.symm,
    List.length_flatMap]
  rfl

/-- Without one of the shards and those after it there are fewer keys. -/
theorem sum_take_lt (filled : ∀ shard ∈ shards, 0 < shard.size) {first : Nat}
    (inside : first < shards.length) :
    ((shards.take first).map SortedSet.size).sum < (shards.map SortedSet.size).sum := by
  have split := congrArg (fun shards => (shards.map SortedSet.size).sum)
    (List.take_append_drop first shards)
  have positive := filled _ (List.getElem_mem inside)
  rw [List.drop_eq_getElem_cons inside] at split
  simp only [List.map_append, List.sum_append, List.map_cons, List.sum_cons] at split
  omega

end Ledger

namespace PostingsReader

variable {reader : PostingsReader} {tree : FileTree} {trigram : Trigram} {ledger : Ledger}
  {shards : List (SortedSet DocumentKey)}

/-- The number of documents in a shard, if it can be read. -/
def shardSize (reader : PostingsReader) (tree : FileTree) (trigram : Trigram) (generation : Nat) :
    Nat :=
  ((tree.readRecord StoredShard.ofJson?
    (Postings.shardFile reader.base trigram generation)).toOption.map
      (·.documents.size)).getD 0

/-- Sizes of shards that are read are those of the files. -/
theorem ReadsShards.sum_shardSize (reads : reader.ReadsShards tree trigram shards)
    (enough : shards.length ≤ reader.maxGenerations) {first : Nat}
    (inside : first ≤ shards.length) :
    ((List.range first).map (reader.shardSize tree trigram)).sum =
      ((shards.take first).map SortedSet.size).sum := by
  congr 1
  refine List.ext_getElem (by simp; omega) fun generation bound _ => ?_
  rw [List.length_map, List.length_range] at bound
  have here := reads generation (by omega) (by omega)
  rw [List.getElem?_eq_getElem (by omega)] at here
  obtain ⟨shard, held, same⟩ := Option.map_eq_some_iff.mp here
  rw [List.getElem_map, List.getElem_map, List.getElem_range, List.getElem_take, shardSize, held,
    ← same]
  rfl

/-- The count file of a ledger declares the number of its keys. -/
theorem getD_declared (count : (tree.read (Postings.countFile reader.base trigram)).toOption =
      if ledger.shards = [] then none else some (countBytes trigram ledger.total))
    (fits : ledger.total ≤ Json.max64) :
    (reader.declared tree trigram).toOption.join.getD 0 = ledger.total := by
  rw [declared_toOption, count]
  split
  · rename_i none
    rw [Ledger.total, none]
    rfl
  · rw [Option.bind_some, decodeBytes?_countBytes fits]
    rfl

/-- With the count of a ledger, and shards that are read, the sizes are compared as those of the
ledger and of these shards. -/
theorem ReadsShards.check_eq (reads : reader.ReadsShards tree trigram shards)
    (enough : shards.length ≤ reader.maxGenerations)
    (distinct : (shards.flatMap SortedSet.toList).Nodup)
    (count : (tree.read (Postings.countFile reader.base trigram)).toOption =
      if ledger.shards = [] then none else some (countBytes trigram ledger.total))
    (fits : ledger.total ≤ Json.max64) :
    (reader.check tree trigram).agrees = (ledger.total == (shards.map SortedSet.size).sum) ∧
      (reader.check tree trigram).actual = (shards.map SortedSet.size).sum ∧
      (reader.check tree trigram).shards = shards.length := by
  obtain ⟨number, members⟩ := reads.load_spec
  rw [List.take_of_length_le enough] at members
  have actual : (reader.load tree trigram).1.size = (shards.map SortedSet.size).sum :=
    Ledger.size_union distinct members
  rw [PostingsReader.check_eq]
  refine ⟨?_, actual, number.trans (Nat.min_eq_left enough)⟩
  rw [SizeComparison.agrees, getD_declared count fits, actual]

/-- The files of a trigram hold the shards of a ledger with each key in one of them, as many as the
count file declares, and the reader goes as far. -/
structure HoldsCounted (reader : PostingsReader) (tree : FileTree) (trigram : Trigram)
    (ledger : Ledger) : Prop where
  /-- The shards are read. -/
  reads : reader.ReadsShards tree trigram ledger.shards
  /-- All of them are. -/
  enough : ledger.shards.length ≤ reader.maxGenerations
  /-- None is empty. -/
  filled : ∀ shard ∈ ledger.shards, 0 < shard.size
  /-- Each key is in one shard. -/
  distinct : (ledger.shards.flatMap SortedSet.toList).Nodup
  /-- The number of keys is declared. -/
  count : (tree.read (Postings.countFile reader.base trigram)).toOption =
    if ledger.shards = [] then none else some (countBytes trigram ledger.total)
  /-- It can be. -/
  fits : ledger.total ≤ Json.max64

namespace HoldsCounted

/-- The declared size is the actual one. -/
theorem check_eq (holds : reader.HoldsCounted tree trigram ledger) :
    (reader.check tree trigram).agrees = true ∧
      (reader.check tree trigram).actual = ledger.total := by
  obtain ⟨agrees, actual, -⟩ :=
    holds.reads.check_eq holds.enough holds.distinct holds.count holds.fits
  exact ⟨agrees.trans (beq_self_eq_true _), actual⟩

/-- If a shard is the first that cannot be read any more, the sizes differ, and what is counted are
the shards before it. -/
theorem check_of_lost (holds : reader.HoldsCounted tree trigram ledger) {damaged : FileTree}
    {first : Nat} (inside : first < ledger.shards.length)
    (lost : (damaged.readRecord StoredShard.ofJson?
      (Postings.shardFile reader.base trigram first)).toOption = none)
    (kept : ∀ generation < first,
      (damaged.readRecord StoredShard.ofJson?
          (Postings.shardFile reader.base trigram generation)).toOption =
        (tree.readRecord StoredShard.ofJson?
          (Postings.shardFile reader.base trigram generation)).toOption)
    (count : (damaged.read (Postings.countFile reader.base trigram)).toOption =
      (tree.read (Postings.countFile reader.base trigram)).toOption) :
    (reader.check damaged trigram).agrees = false ∧
      (reader.check damaged trigram).shards = first ∧
      (reader.check damaged trigram).actual =
        ((List.range first).map (reader.shardSize tree trigram)).sum := by
  have bound := holds.enough
  have fewer : (ledger.shards.take first).length = first := by
    rw [List.length_take]
    omega
  have sublist : ((ledger.shards.take first).flatMap SortedSet.toList).Sublist
      (ledger.shards.flatMap SortedSet.toList) := (List.take_sublist _ _).flatMap _
  obtain ⟨agrees, actual, number⟩ := (holds.reads.take lost kept).check_eq (by omega)
    (holds.distinct.sublist sublist) (count.trans holds.count) holds.fits
  have less := Ledger.sum_take_lt holds.filled inside
  refine ⟨agrees.trans ?_, number.trans fewer, actual.trans ?_⟩
  · rw [beq_eq_false_iff_ne]
    exact Nat.ne_of_gt less
  · rw [holds.reads.sum_shardSize holds.enough (Nat.le_of_lt inside)]

end HoldsCounted

end PostingsReader

end SourceSearch
