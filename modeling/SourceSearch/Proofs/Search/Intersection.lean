import SourceSearch.Proofs.Trigram
import SourceSearch.Search.Intersection

/-!
# What an intersection keeps

However the postings are ordered and wherever an intersection ends, it keeps every document that is
in all of them, and no document that is not in one of them.
-/

namespace SourceSearch

namespace Intersection

variable {postings : Trigram → SortedSet DocumentKey} {abortRatio : Nat}
  {documents : SortedSet DocumentKey} {occurrences : List Occurrence} {key : DocumentKey}

theorem mem_narrow (member : key ∈ documents)
    (everywhere : ∀ occurrence ∈ occurrences, key ∈ postings occurrence.trigram) :
    key ∈ (narrow postings abortRatio documents occurrences).documents := by
  induction occurrences generalizing documents with
  | nil => exact member
  | cons occurrence rest ih =>
      rw [List.forall_mem_cons] at everywhere
      have kept : key ∈ documents.inter (postings occurrence.trigram) :=
        SortedSet.mem_inter.mpr ⟨member, everywhere.1⟩
      rw [narrow]
      split
      · exact kept
      · exact ih kept everywhere.2

theorem mem_of_mem_narrow
    (member : key ∈ (narrow postings abortRatio documents occurrences).documents) :
    key ∈ documents := by
  induction occurrences generalizing documents with
  | nil => exact member
  | cons occurrence rest ih =>
      rw [narrow] at member
      have kept : key ∈ documents.inter (postings occurrence.trigram) := by
        split at member
        · exact member
        · exact ih member
      exact (SortedSet.mem_inter.mp kept).1

/-- No document that is in all postings is lost. -/
theorem mem_ofOccurrences (nonempty : occurrences ≠ [])
    (everywhere : ∀ occurrence ∈ occurrences, key ∈ postings occurrence.trigram) :
    key ∈ (ofOccurrences postings abortRatio occurrences).documents := by
  cases occurrences with
  | nil => exact absurd rfl nonempty
  | cons seed rest =>
      rw [List.forall_mem_cons] at everywhere
      exact mem_narrow everywhere.1 everywhere.2

/-- What is left is in the postings where the intersection began. -/
theorem exists_of_mem_ofOccurrences
    (member : key ∈ (ofOccurrences postings abortRatio occurrences).documents) :
    ∃ occurrence ∈ occurrences, key ∈ postings occurrence.trigram := by
  cases occurrences with
  | nil => exact absurd member SortedSet.not_mem_empty
  | cons seed rest => exact ⟨seed, List.mem_cons_self, mem_of_mem_narrow member⟩

end Intersection

namespace PostingsReader

variable {reader : PostingsReader} {abortRatio : Nat} {tree : FileTree}
  {trigrams : SortedSet Trigram} {key : DocumentKey}

theorem trigram_occurrence (trigram : Trigram) :
    (reader.occurrence tree trigram).trigram = trigram := by
  rw [occurrence]
  split <;> rfl

theorem mem_bySize_iff {occurrence : Occurrence} :
    occurrence ∈ reader.bySize tree trigrams ↔
      ∃ trigram ∈ trigrams, reader.occurrence tree trigram = occurrence := by
  rw [bySize, List.mem_mergeSort, List.mem_map]
  rfl

/-- A search for no trigrams finds nothing. -/
theorem search_of_isEmpty (reader : PostingsReader) (abortRatio : Nat) (tree : FileTree)
    (empty : trigrams.isEmpty = true) : (reader.search abortRatio tree trigrams).1 = .empty := by
  have nothing : reader.bySize tree trigrams = [] := by
    rw [bySize, List.isEmpty_iff.mp empty, List.map_nil, List.mergeSort_nil]
  rw [search, nothing]
  rfl

/-- A search finds every document that has all of the trigrams, if there are any. -/
theorem mem_search (nonempty : trigrams.isEmpty = false)
    (everywhere : ∀ trigram ∈ trigrams, key ∈ reader.documents tree trigram) :
    key ∈ (reader.search abortRatio tree trigrams).1 := by
  refine Intersection.mem_ofOccurrences (fun none => ?_) fun occurrence member => ?_
  · refine Bool.eq_false_iff.mp nonempty (SortedSet.isEmpty_iff.mpr fun trigram member => ?_)
    have listed : reader.occurrence tree trigram ∈ reader.bySize tree trigrams :=
      mem_bySize_iff.mpr ⟨trigram, member, rfl⟩
    rw [none] at listed
    exact List.not_mem_nil listed
  · obtain ⟨trigram, inside, rfl⟩ := mem_bySize_iff.mp member
    rw [trigram_occurrence]
    exact everywhere trigram inside

/-- A search finds only documents that have one of the trigrams. -/
theorem exists_of_mem_search (member : key ∈ (reader.search abortRatio tree trigrams).1) :
    ∃ trigram ∈ trigrams, key ∈ reader.documents tree trigram := by
  obtain ⟨occurrence, listed, inside⟩ := Intersection.exists_of_mem_ofOccurrences member
  obtain ⟨trigram, held, rfl⟩ := mem_bySize_iff.mp listed
  rw [trigram_occurrence] at inside
  exact ⟨trigram, held, inside⟩

end PostingsReader
end SourceSearch
