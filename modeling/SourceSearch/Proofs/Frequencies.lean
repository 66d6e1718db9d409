import Mathlib.Algebra.BigOperators.Group.List.Lemmas
import Mathlib.Algebra.Ring.Nat
import SourceSearch.Proofs.Wordlists

/-!
# Frequencies of trigrams

The frequencies of a text are found in two steps: first every word is counted, then each word adds
its count to all of its trigrams.  In whatever order the counted words are gone through, a trigram
ends up with the number of word occurrences that contain it.
-/

namespace SourceSearch

namespace Trigram

variable {words : List String} {counted other : List (String × Nat)} {trigram : Trigram}

/-- How often each word occurs. -/
def tally (words : List String) : SortedMap String Nat :=
  words.foldl (fun counts word => counts.alter word (·.getD 0 + 1)) .empty

/-- The frequencies that counted words add up to, gone through in the given order. -/
def addUp (counted : List (String × Nat)) : SortedMap Trigram Nat :=
  counted.foldl (fun counts entry => countWord counts entry.1 entry.2) .empty

/-- The number of word occurrences that contain a trigram. -/
def occurrences (words : List String) (trigram : Trigram) : Nat :=
  words.countP (occursIn trigram ·)

/-! ## Counting words -/

theorem find?_foldl_tally (words : List String) (counts : SortedMap String Nat) (word : String) :
    (words.foldl (fun counts word => counts.alter word (·.getD 0 + 1)) counts).find? word =
      if word ∈ words then some ((counts.find? word).getD 0 + words.count word)
      else counts.find? word := by
  induction words generalizing counts with
  | nil => simp
  | cons first rest ih =>
      rw [List.foldl_cons, ih, SortedMap.alter, SortedMap.find?_insert, List.count_cons]
      by_cases same : word = first
      · subst same
        by_cases again : word ∈ rest
        · simp [again, Nat.add_assoc, Nat.add_comm]
        · simp [again, List.count_eq_zero.mpr again]
      · simp [same, Ne.symm same]

theorem find?_tally (words : List String) (word : String) :
    (tally words).find? word = if word ∈ words then some (words.count word) else none := by
  rw [tally, find?_foldl_tally]
  simp

/-- The counted words are the distinct words with their counts. -/
theorem perm_tally (words : List String) :
    (tally words).toList.Perm (words.eraseDups.map fun word => (word, words.count word)) := by
  refine (List.perm_ext_iff_of_nodup (tally words).nodup
    ((nodup_eraseDups words).map fun _ _ same => (Prod.mk.inj same).1)).mpr fun entry => ?_
  obtain ⟨word, count⟩ := entry
  rw [← SortedMap.find?_eq_some_iff, find?_tally, List.mem_map]
  simp only [List.mem_eraseDups, Option.ite_none_right_eq_some, Option.some.injEq, Prod.mk.injEq]
  constructor
  · rintro ⟨member, is⟩
    exact ⟨word, member, rfl, is⟩
  · rintro ⟨_, member, rfl, is⟩
    exact ⟨member, is⟩

/-! ## Adding up -/

theorem find?_foldl_alter (amount : Nat) {trigrams : List Trigram} (once : trigrams.Nodup)
    (counts : SortedMap Trigram Nat) (trigram : Trigram) :
    (trigrams.foldl (fun counts trigram => counts.alter trigram (·.getD 0 + amount))
        counts).find? trigram =
      if trigram ∈ trigrams then some ((counts.find? trigram).getD 0 + amount)
      else counts.find? trigram := by
  induction trigrams generalizing counts with
  | nil => simp
  | cons first rest ih =>
      rw [List.nodup_cons] at once
      rw [List.foldl_cons, ih once.2, SortedMap.alter, SortedMap.find?_insert]
      by_cases same : trigram = first
      · subst same
        simp [once.1]
      · simp [same]

theorem find?_countWord (counts : SortedMap Trigram Nat) (word : String) (amount : Nat)
    (trigram : Trigram) :
    (countWord counts word amount).find? trigram =
      if trigram ∈ ofWord word then some ((counts.find? trigram).getD 0 + amount)
      else counts.find? trigram :=
  find?_foldl_alter amount (ofWord word).nodup counts trigram

/-- The counts of the words that contain a trigram. -/
def amounts (counted : List (String × Nat)) (trigram : Trigram) : List Nat :=
  (counted.filter fun entry => trigram ∈ ofWord entry.1).map Prod.snd

theorem find?_foldl_countWord (counted : List (String × Nat)) (counts : SortedMap Trigram Nat)
    (trigram : Trigram) :
    (counted.foldl (fun counts entry => countWord counts entry.1 entry.2) counts).find? trigram =
      if amounts counted trigram = [] then counts.find? trigram
      else some ((counts.find? trigram).getD 0 + (amounts counted trigram).sum) := by
  induction counted generalizing counts with
  | nil => rfl
  | cons entry rest ih =>
      rw [List.foldl_cons, ih, find?_countWord]
      by_cases inside : trigram ∈ ofWord entry.1
      · have adds : amounts (entry :: rest) trigram = entry.2 :: amounts rest trigram := by
          simp [amounts, inside]
        rw [adds, if_pos inside, if_neg (List.cons_ne_nil _ _), List.sum_cons]
        by_cases none : amounts rest trigram = []
        · simp [none]
        · simp [none, Nat.add_assoc]
      · have same : amounts (entry :: rest) trigram = amounts rest trigram := by
          simp [amounts, inside]
        rw [same, if_neg inside]

theorem find?_addUp (counted : List (String × Nat)) (trigram : Trigram) :
    (addUp counted).find? trigram =
      if amounts counted trigram = [] then none else some (amounts counted trigram).sum := by
  rw [addUp, find?_foldl_countWord]
  simp

/-- The order in which counted words are gone through makes no difference. -/
theorem addUp_perm (perm : counted.Perm other) : addUp counted = addUp other := by
  refine SortedMap.ext_find? fun trigram => ?_
  have same : (amounts counted trigram).Perm (amounts other trigram) := (perm.filter _).map _
  rw [find?_addUp, find?_addUp, same.sum_eq]
  simp only [← List.isEmpty_iff, same.isEmpty_eq]

/-- The frequencies are what the counted words add up to. -/
theorem frequencies_eq_addUp (perm : counted.Perm (tally words).toList) :
    addUp counted = frequencies words := by
  rw [addUp_perm (perm.trans (perm_tally words)), addUp, List.foldl_map]
  rfl

/-! ## Occurrences -/

theorem mem_ofWord_iff_occursIn {word : String} :
    trigram ∈ ofWord word ↔ trigram.length = 3 ∧ occursIn trigram word = true := by
  rw [mem_ofWord_iff, occursIn_iff]

theorem mem_ofWords_iff_occursIn :
    trigram ∈ ofWords words ↔
      trigram.length = 3 ∧ ∃ word ∈ words, occursIn trigram word = true := by
  simp only [mem_ofWords_iff, mem_ofWord_iff_occursIn]
  grind

/-- The distinct words that contain a trigram, each with its count, make up all occurrences. -/
theorem sum_amounts (wide : trigram.length = 3) :
    (amounts (words.eraseDups.map fun word => (word, words.count word)) trigram).sum =
      occurrences words trigram := by
  have distinct : words.eraseDups.Perm words.dedup :=
    (List.perm_ext_iff_of_nodup (nodup_eraseDups words) (List.nodup_dedup words)).mpr (by simp)
  have contained (word : String) :
      decide (trigram ∈ ofWord word) = occursIn trigram word := by
    simp [mem_ofWord_iff_occursIn, wide]
  calc (amounts (words.eraseDups.map fun word => (word, words.count word)) trigram).sum
      = ((words.eraseDups.filter (occursIn trigram ·)).map fun word => words.count word).sum := by
        rw [amounts, List.filter_map, List.map_map]
        simp only [Function.comp_def, contained]
    _ = ((words.dedup.filter (occursIn trigram ·)).map fun word => words.count word).sum :=
        ((distinct.filter _).map _).sum_eq
    _ = occurrences words trigram := List.sum_map_count_dedup_filter_eq_countP _ words

theorem occurrences_eq_zero_iff :
    occurrences words trigram = 0 ↔ ∀ word ∈ words, occursIn trigram word = false := by
  simp [occurrences, List.countP_eq_zero]

/-- A trigram has the number of its occurrences, unless there are none. -/
theorem find?_frequencies (words : List String) (trigram : Trigram) :
    (frequencies words).find? trigram =
      if trigram.length = 3 ∧ occurrences words trigram ≠ 0 then
        some (occurrences words trigram)
      else none := by
  rw [← frequencies_eq_addUp (perm_tally words).symm, find?_addUp]
  by_cases wide : trigram.length = 3
  · rw [sum_amounts wide]
    have none : amounts (words.eraseDups.map fun word => (word, words.count word)) trigram = [] ↔
        occurrences words trigram = 0 := by
      simp [amounts, occurrences_eq_zero_iff, mem_ofWord_iff_occursIn, wide]
    simp only [none, wide, true_and, ite_not]
  · have none :
        amounts (words.eraseDups.map fun word => (word, words.count word)) trigram = [] := by
      simp [amounts, mem_ofWord_iff_occursIn, wide]
    simp [none, wide]

/-- Exactly the trigrams of the words have a frequency. -/
theorem keys_frequencies (words : List String) :
    (frequencies words).keys = (ofWords words.eraseDups).toList := by
  have same : (⟨(frequencies words).keys, (frequencies words).ascending⟩ : SortedSet Trigram) =
      ofWords words.eraseDups := by
    refine SortedSet.ext_mem fun trigram => ?_
    have listed : trigram ∈ (frequencies words).keys ↔
        ∃ count, (frequencies words).find? trigram = some count := by
      simp [SortedMap.keys, SortedMap.find?_eq_some_iff]
    have occurs : occurrences words trigram ≠ 0 ↔
        ∃ word ∈ words.eraseDups, occursIn trigram word = true := by
      simp [occurrences_eq_zero_iff]
    rw [← SortedSet.mem_toList, listed, find?_frequencies, mem_ofWords_iff_occursIn, ← occurs]
    split <;> simp_all
  exact congrArg SortedSet.toList same

end Trigram

namespace Extraction

open Trigram

/-- **Frequencies count word occurrences.**  In the frequencies of any text a trigram has the number
of word occurrences that contain it, and is absent if there are none.  They are what the counted
words add up to, in whatever order these are gone through.  Their keys are the trigrams of the
text, which are the runs of three characters of the words of the wordlist. -/
theorem frequencies_count (text : String) :
    (∀ trigram, (ofText text).frequencies.find? trigram =
      if trigram.length = 3 ∧ occurrences (Words.ofText text) trigram ≠ 0 then
        some (occurrences (Words.ofText text) trigram)
      else none) ∧
      (∀ counted, counted.Perm (tally (Words.ofText text)).toList →
        addUp counted = (ofText text).frequencies) ∧
      (ofText text).frequencies.keys = (ofText text).trigrams.toList ∧
      ∀ trigram, trigram ∈ (ofText text).trigrams ↔
        trigram.length = 3 ∧ ∃ word ∈ (ofText text).wordlist, occursIn trigram word = true := by
  exact ⟨find?_frequencies _, fun _ => frequencies_eq_addUp, keys_frequencies _,
    fun _ => mem_ofWords_iff_occursIn⟩

/-- Words that are counted in another order, share trigrams, and one holds a trigram twice. -/
theorem frequencies_count_sample :
    Words.ofText "Banana, ban;\nbanana (a)" = ["banana", "ban", "banana"] ∧
      [("banana", 2), ("ban", 1)].Perm (tally ["banana", "ban", "banana"]).toList ∧
      addUp [("banana", 2), ("ban", 1)] =
        (ofText "Banana, ban;\nbanana (a)").frequencies ∧
      (ofText "Banana, ban;\nbanana (a)").frequencies.find? "ban" = some 3 ∧
      (ofText "Banana, ban;\nbanana (a)").frequencies.find? "ana" = some 2 ∧
      (ofText "Banana, ban;\nbanana (a)").frequencies.find? "nab" = none := by
  have words : Words.ofText "Banana, ban;\nbanana (a)" = ["banana", "ban", "banana"] := by
    decide +kernel
  have reversed : [("banana", 2), ("ban", 1)].Perm (tally ["banana", "ban", "banana"]).toList := by
    decide +kernel
  obtain ⟨counts, orders, -⟩ := frequencies_count "Banana, ban;\nbanana (a)"
  rw [words] at counts orders
  refine ⟨words, reversed, orders _ reversed, ?_, ?_, ?_⟩
  · rw [counts]
    decide +kernel
  · rw [counts]
    decide +kernel
  · rw [counts]
    decide +kernel

end Extraction
end SourceSearch
