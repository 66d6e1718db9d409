import SourceSearch.Proofs.Trigram
import SourceSearch.Query.Filter

/-!
# What a filter requires

The trigrams that a query is reduced to are exactly those of its required leaves.  So a filter that
requires trigrams of class tags belongs to a query that mentions one.
-/

namespace SourceSearch
namespace Query

variable {filter found : TrigramFilter} {leaves others : List Query}

/-- The trigrams of a filter are those of the words and of the class tags among some leaves. -/
structure Filters (leaves : List Query) (filter : TrigramFilter) : Prop where
  /-- Trigrams of the text are those of words. -/
  content : ∀ trigram, trigram ∈ filter.content ↔
    ∃ word ∈ leaves.filterMap leafWord?, trigram ∈ Trigram.ofWord word
  /-- Trigrams of the class tags are those of values. -/
  metadata : ∀ trigram, trigram ∈ filter.metadata ↔
    ∃ tag ∈ leaves.filterMap leafTag?, trigram ∈ Trigram.ofWord tag.2

theorem filters_unrestricted : Filters [] .unrestricted :=
  ⟨fun _ => iff_of_false SortedSet.not_mem_empty (by simp),
    fun _ => iff_of_false SortedSet.not_mem_empty (by simp)⟩

theorem filters_empty : Filters [] (.trigrams .empty .empty) :=
  ⟨fun _ => iff_of_false SortedSet.not_mem_empty (by simp),
    fun _ => iff_of_false SortedSet.not_mem_empty (by simp)⟩

theorem leafTag?_of_word {leaf : Query} {word : String} (is : leafWord? leaf = some word) :
    leafTag? leaf = none := by
  cases leaf <;> cases is <;> rfl

theorem leafWord?_of_tag {leaf : Query} {tag : String × String} (is : leafTag? leaf = some tag) :
    leafWord? leaf = none := by
  cases leaf <;> cases is
  rfl

theorem filters_word {leaf : Query} {word : String} (is : leafWord? leaf = some word) :
    Filters [leaf] (.trigrams (Trigram.ofWord word) .empty) where
  content _ := by simp [is, TrigramFilter.content]
  metadata _ := iff_of_false SortedSet.not_mem_empty (by simp [leafTag?_of_word is])

theorem filters_tag {leaf : Query} (tag : String × String) (is : leafTag? leaf = some tag) :
    Filters [leaf] (.trigrams .empty (Trigram.ofWord tag.2)) where
  content _ := iff_of_false SortedSet.not_mem_empty (by simp [leafWord?_of_tag is])
  metadata _ := by simp [is, TrigramFilter.metadata]

theorem Filters.both (first : Filters leaves found) (second : Filters others filter) :
    Filters (leaves ++ others) (found.both filter) := by
  constructor
  · intro trigram
    change trigram ∈ found.content.union filter.content ↔ _
    rw [SortedSet.mem_union, first.content, second.content, List.filterMap_append]
    simp only [List.mem_append, or_and_right, exists_or]
  · intro trigram
    change trigram ∈ found.metadata.union filter.metadata ↔ _
    rw [SortedSet.mem_union, first.metadata, second.metadata, List.filterMap_append]
    simp only [List.mem_append, or_and_right, exists_or]

theorem Filters.length_of_mem_content (filters : Filters leaves filter) {trigram : Trigram}
    (member : trigram ∈ filter.content) : trigram.length = 3 := by
  obtain ⟨word, -, inside⟩ := (filters.content trigram).mp member
  exact (Trigram.mem_ofWord_iff.mp inside).1

theorem Filters.length_of_mem_metadata (filters : Filters leaves filter) {trigram : Trigram}
    (member : trigram ∈ filter.metadata) : trigram.length = 3 := by
  obtain ⟨tag, -, inside⟩ := (filters.metadata trigram).mp member
  exact (Trigram.mem_ofWord_iff.mp inside).1

mutual

/-- The filter of a query requires the trigrams of its required leaves. -/
theorem filters_filter : (query : Query) → (filter : TrigramFilter) → query.filter = .ok filter →
    Filters query.requiredLeaves filter
  | empty, filter, eq => by
      cases eq
      exact filters_unrestricted
  | text word, filter, eq => by
      cases eq
      exact filters_word rfl
  | phrase words, filter, eq => by
      cases eq
      exact filters_word rfl
  | tag key value, filter, eq => by
      cases eq
      exact filters_tag (key, lowercase value) rfl
  | all parts, filter, eq => by
      rw [Query.filter] at eq
      exact filters_filterAll parts _ filter filters_empty eq
  | any parts, filter, eq => by cases eq
  | excluding part, filter, eq => by
      cases eq
      exact filters_unrestricted
  | including part, filter, eq => by
      rw [Query.filter] at eq
      exact filters_filter part filter eq
  | unsupported kind, filter, eq => by cases eq

/-- Further parts add the trigrams of their required leaves. -/
theorem filters_filterAll {leaves : List Query} : (parts : List Query) →
    (found filter : TrigramFilter) → Filters leaves found → filterAll parts found = .ok filter →
      Filters (leaves ++ requiredLeavesOf parts) filter
  | [], found, filter, filters, eq => by
      cases eq
      rw [requiredLeavesOf, List.append_nil]
      exact filters
  | part :: rest, found, filter, filters, eq => by
      rw [filterAll] at eq
      cases compiled : part.filter with
      | error failure =>
          rw [compiled] at eq
          cases eq
      | ok first =>
          rw [compiled] at eq
          rw [requiredLeavesOf, ← List.append_assoc]
          exact filters_filterAll rest _ filter
            (filters.both (filters_filter part first compiled)) eq

end

mutual

/-- A query with a required class tag mentions one. -/
theorem mentionsTag_of_mem : (query : Query) → {leaf : Query} → {tag : String × String} →
    leaf ∈ query.requiredLeaves → leafTag? leaf = some tag → query.mentionsTag = true
  | tag key value, _, _, _, _ => rfl
  | all parts, _, _, member, is => anyMentionsTag_of_mem parts member is
  | including part, _, _, member, is => mentionsTag_of_mem part member is
  | text word, leaf, _, member, is => by
      obtain rfl := List.mem_singleton.mp member
      cases is
  | phrase words, leaf, _, member, is => by
      obtain rfl := List.mem_singleton.mp member
      cases is
  | empty, _, _, member, _ => absurd member List.not_mem_nil
  | any parts, _, _, member, _ => absurd member List.not_mem_nil
  | excluding part, _, _, member, _ => absurd member List.not_mem_nil
  | unsupported kind, _, _, member, _ => absurd member List.not_mem_nil

theorem anyMentionsTag_of_mem : (parts : List Query) → {leaf : Query} →
    {tag : String × String} → leaf ∈ requiredLeavesOf parts → leafTag? leaf = some tag →
      anyMentionsTag parts = true
  | [], _, _, member, _ => absurd member List.not_mem_nil
  | part :: rest, _, _, member, is => by
      rw [anyMentionsTag, Bool.or_eq_true]
      rcases List.mem_append.mp member with member | member
      · exact .inl (mentionsTag_of_mem part member is)
      · exact .inr (anyMentionsTag_of_mem rest member is)

end

/-- A filter that requires trigrams of class tags comes from a query that mentions one. -/
theorem Filters.mentionsTag {query : Query} (filters : Filters query.requiredLeaves filter)
    (nonempty : filter.metadata.isEmpty = false) : query.mentionsTag = true := by
  obtain ⟨trigram, member⟩ : ∃ trigram, trigram ∈ filter.metadata :=
    Classical.byContradiction fun none => Bool.eq_false_iff.mp nonempty
      (SortedSet.isEmpty_iff.mpr fun trigram member => none ⟨trigram, member⟩)
  obtain ⟨tag, listed, -⟩ := (filters.metadata trigram).mp member
  obtain ⟨leaf, required, is⟩ := List.mem_filterMap.mp listed
  exact mentionsTag_of_mem query required is

end Query
end SourceSearch
