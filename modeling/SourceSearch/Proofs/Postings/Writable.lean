import Mathlib.Data.Nat.Digits.Defs
import SourceSearch.Proofs.Postings.Contents

/-!
# Postings that can be written

A ledger has no more shards than keys were added to it, so the number of a shard has few digits.
With the short stem of a trigram it makes a proper name, and no write is refused for its name.
-/

namespace SourceSearch

namespace Ledger

variable {threshold : Nat} {ledger : Ledger}

/-- The number of shards that the ledger has once it is flushed. -/
def reach (ledger : Ledger) : Nat := ledger.flush.shards.length

theorem reach_flush (ledger : Ledger) : ledger.flush.reach = ledger.reach := by
  rw [reach, flush_of_isEmpty waiting_flush, reach]

/-- A key that is added makes one more shard at most. -/
theorem reach_add_le (threshold : Nat) (ledger : Ledger) (key : DocumentKey) :
    (ledger.add threshold key).reach ≤ ledger.reach + 1 := by
  have grown : Ledger.reach { ledger with waiting := ledger.waiting.insert key } ≤
      ledger.reach + 1 := by
    rw [reach, reach, flush, flush]
    split <;> split <;> simp only [List.length_append, List.length_singleton] <;> omega
  rw [add]
  split
  · exact grown
  · rw [reach_flush]
    exact grown

theorem reach_foldl_add_le (ledger : Ledger) (keys : List DocumentKey) :
    (keys.foldl (add threshold) ledger).reach ≤ ledger.reach + keys.length := by
  induction keys generalizing ledger with
  | nil => exact Nat.le_refl _
  | cons key keys ih =>
      have one := reach_add_le threshold ledger key
      have more := ih (ledger.add threshold key)
      rw [List.foldl_cons, List.length_cons]
      omega

end Ledger

namespace Postings

theorem utf8Size_of_isDigit {c : Char} (digit : c.isDigit = true) : c.utf8Size = 1 := by
  rw [Char.isDigit, Bool.and_eq_true, decide_eq_true_eq, decide_eq_true_eq] at digit
  exact if_pos (UInt32.le_trans digit.2 (by decide))

/-- The number of a shard has few digits. -/
theorem utf8ByteSize_shardEnd_le {generation : Nat} (bound : generation ≤ Json.max64) :
    (shardEnd generation).utf8ByteSize ≤ 31 := by
  have few : (Nat.toDigits 10 generation).length ≤ 20 :=
    Nat.toDigits_length 10 generation 20 (by decide)
      (Nat.lt_of_le_of_lt bound (by decide))
  have end_eq : shardSuffix.toList.length = 10 := by decide
  have letters : ∀ c ∈ shardSuffix.toList, c.utf8Size = 1 := by
    have all : shardSuffix.toList.all (fun c => decide (c.utf8Size = 1)) = true := by decide
    exact fun c member => of_decide_eq_true (List.all_eq_true.mp all c member)
  have ascii : ∀ c ∈ '.' :: (Nat.toDigits 10 generation ++ shardSuffix.toList),
      c.utf8Size = 1 := by
    rw [List.forall_mem_cons, List.forall_mem_append]
    exact ⟨by decide, fun c member => utf8Size_of_isDigit
      (Nat.isDigit_of_mem_toDigits (by decide) (by decide) member), letters⟩
  rw [← (shardEnd generation).ofList_toList, toList_shardEnd,
    Text.utf8ByteSize_ofList_of_ascii ascii, List.length_cons, List.length_append]
  omega

end Postings

/-- A shard of a trigram of three characters can be written. -/
theorem isWritable_of_le {folder : String} {trigram : Trigram} {generation : Nat}
    (proper : IsName folder) (three : trigram.length = 3) (bound : generation ≤ Json.max64) :
    IsWritable folder trigram generation where
  shard := List.forall_mem_cons.mpr ⟨proper, Postings.isName_placeOf three
    (Postings.isSuffix_shardEnd generation)
    (Postings.not_mem_shardEnd (by decide) (by decide) (by decide) generation)
    (Nat.le_trans (Postings.utf8ByteSize_shardEnd_le bound) (by decide))⟩
  count := List.forall_mem_cons.mpr ⟨proper, Postings.isName_countPlace three⟩

/-- All postings of trigrams of three characters can be written. -/
theorem postingsAreWritable {folder : String} (proper : IsName folder) (threshold : Nat)
    {entries : List PostingsEntry}
    (three : ∀ entry ∈ entries, ∀ trigram ∈ entry.2, trigram.length = 3)
    (few : entries.length ≤ Json.max64) : PostingsAreWritable folder threshold entries := by
  intro trigram _ generation below
  have reached : (ledgersOf threshold entries trigram).reach ≤
      0 + (keysWith entries trigram).length := Ledger.reach_foldl_add_le _ _
  have keys : (keysWith entries trigram).length ≤ entries.length := by
    rw [keysWith, List.length_map]
    exact List.length_filter_le _ _
  replace below : generation < (ledgersOf threshold entries trigram).reach := below
  have some : keysWith entries trigram ≠ [] := List.ne_nil_of_length_pos (by omega)
  obtain ⟨key, listed⟩ := List.exists_mem_of_ne_nil _ some
  obtain ⟨trigrams, member, inside⟩ := mem_keysWith_iff.mp listed
  exact isWritable_of_le proper (three _ member trigram inside) (by omega)

end SourceSearch
