import SourceSearch.Trigram

/-!
# Trigrams of words

A trigram of a word is an infix of three characters, so a text that occurs in a word has no trigram
that the word lacks.
-/

namespace SourceSearch

namespace Text

theorem occursIn_iff {part whole : List Char} : occursIn part whole = true ↔ part <:+: whole := by
  induction whole with
  | nil => simp [occursIn]
  | cons c rest ih =>
      rw [occursIn, Bool.or_eq_true, List.isPrefixOf_iff_prefix, ih, List.infix_cons_iff]

theorem mem_windows_iff {width : Nat} {window text : List Char} :
    window ∈ windows (width + 1) text ↔ window.length = width + 1 ∧ window <:+: text := by
  induction text with
  | nil =>
      simp only [windows, List.not_mem_nil, List.infix_nil, false_iff, not_and]
      rintro long rfl
      cases long
  | cons c rest ih =>
      rw [windows]
      split
      · rename_i wide
        have first : window = (c :: rest).take (width + 1) ↔
            window.length = width + 1 ∧ window <+: c :: rest := by
          rw [List.prefix_iff_eq_take]
          constructor
          · intro eq
            have long : window.length = width + 1 := by
              rw [eq, List.length_take]
              omega
            exact ⟨long, long ▸ eq⟩
          · rintro ⟨long, eq⟩
            exact long ▸ eq
        rw [List.mem_cons, first, ih, List.infix_cons_iff, and_or_left]
      · rename_i narrow
        simp only [List.not_mem_nil, false_iff, not_and]
        intro long inside
        have least := inside.length_le
        omega

end Text

theorem occursIn_iff {part whole : String} :
    occursIn part whole = true ↔ part.toList <:+: whole.toList := Text.occursIn_iff

namespace Trigram

variable {word part : String} {words : List String} {trigram : Trigram}

theorem mem_windows_iff :
    trigram ∈ windows word ↔ trigram.length = 3 ∧ trigram.toList <:+: word.toList := by
  rw [windows, List.mem_map, ← String.length_toList]
  constructor
  · rintro ⟨window, member, rfl⟩
    rw [String.toList_ofList]
    exact Text.mem_windows_iff.mp member
  · intro inside
    exact ⟨trigram.toList, Text.mem_windows_iff.mpr inside, String.ofList_toList⟩

theorem mem_ofWord_iff :
    trigram ∈ ofWord word ↔ trigram.length = 3 ∧ trigram.toList <:+: word.toList := by
  rw [ofWord, SortedSet.mem_ofList, mem_windows_iff]

theorem mem_ofWords_iff : trigram ∈ ofWords words ↔ ∃ word ∈ words, trigram ∈ ofWord word := by
  simp only [ofWords, ofWord, SortedSet.mem_ofList, List.mem_flatMap]

theorem length_of_mem_ofWords (member : trigram ∈ ofWords words) : trigram.length = 3 := by
  obtain ⟨word, -, inside⟩ := mem_ofWords_iff.mp member
  exact (mem_ofWord_iff.mp inside).1

/-- What occurs in a word has no other trigrams. -/
theorem ofWord_subset (occurs : occursIn part word = true) (member : trigram ∈ ofWord part) :
    trigram ∈ ofWord word := by
  rw [mem_ofWord_iff] at member ⊢
  exact ⟨member.1, member.2.trans (occursIn_iff.mp occurs)⟩

/-- What occurs in some word has no trigram that the words lack. -/
theorem ofWord_subset_ofWords (member : word ∈ words) (occurs : occursIn part word = true)
    (inside : trigram ∈ ofWord part) : trigram ∈ ofWords words :=
  mem_ofWords_iff.mpr ⟨word, member, ofWord_subset occurs inside⟩

/-- A trigram is all the trigrams of itself. -/
theorem eq_of_mem_ofWord {trigram other : Trigram} (wide : trigram.length = 3)
    (member : other ∈ ofWord trigram) : other = trigram := by
  obtain ⟨length, inside⟩ := mem_ofWord_iff.mp member
  refine String.toList_inj.mp (inside.eq_of_length ?_)
  rw [String.length_toList, String.length_toList, length, wide]

/-- Exactly the words of three characters or more have a trigram. -/
theorem isEmpty_ofWord : (ofWord word).isEmpty = decide (word.length < 3) := by
  rw [Bool.eq_iff_iff, SortedSet.isEmpty_iff, decide_eq_true_eq]
  constructor
  · intro none
    refine Nat.lt_of_not_le fun wide => none (.ofList (word.toList.take 3)) ?_
    rw [mem_ofWord_iff, ← String.length_toList, String.toList_ofList, List.length_take,
      String.length_toList, Nat.min_eq_left wide]
    exact ⟨rfl, (List.take_prefix 3 word.toList).isInfix⟩
  · intro short trigram member
    obtain ⟨wide, inside⟩ := mem_ofWord_iff.mp member
    have least := inside.length_le
    rw [String.length_toList, String.length_toList] at least
    omega

end Trigram
end SourceSearch
