import Mathlib.Data.List.Perm.Basic
import Mathlib.Data.List.Pairwise
import SourceSearch.Search.Ranking

/-!
# How words are ranked

A ranking keeps all words, puts better scores first and leaves words of equal score in their order.
The score of a word depends on how many of its trigrams are in each state.  A trigram that turns out
to have shrunk the result never lowers a score.  One that turns out to have failed can raise it, but
only for a word of which no trigram has been used so far: such a word loses a point for every unused
trigram, and only half a point for each once something of it has been used.
-/

namespace SourceSearch
namespace Ranking

variable {usage before after : List Usage} {words : List String} {word : String}
  {trigram : Trigram} {state : UsageState}

/-! ## Recorded states -/

/-- The last entry of a trigram. -/
def latest? (usage : List Usage) (trigram : Trigram) : Option Usage :=
  (usage.filter (·.trigram = trigram)).getLast?

/-- The state that is recorded of a trigram. -/
def recorded? (usage : List Usage) (trigram : Trigram) : Option UsageState :=
  (latest? usage trigram).map Usage.state

theorem stateOf_eq (usage : List Usage) (trigram : Trigram) :
    stateOf usage trigram = recorded? usage trigram := by
  rw [stateOf, recorded?, latest?, List.getLast?_eq_head?_reverse, ← List.filter_reverse,
    List.head?_filter]

/-- The state of one trigram is recorded anew. -/
structure Rerecords (trigram : Trigram) (state : UsageState) (before after : List Usage) :
    Prop where
  /-- The new state of the trigram. -/
  anew : recorded? after trigram = some state
  /-- Other trigrams keep theirs. -/
  others : ∀ other ≠ trigram, recorded? after other = recorded? before other

/-- One more entry records the state of its trigram anew. -/
theorem rerecords_append (usage : List Usage) (entry : Usage) :
    Rerecords entry.trigram entry.state usage (usage ++ [entry]) where
  anew := by simp [recorded?, latest?]
  others other different := by simp [recorded?, latest?, different.symm]

/-- The states of the trigrams of a word. -/
def statesIn (usage : List Usage) (word : String) : List (Option UsageState) :=
  (Trigram.ofWord word).toList.map (recorded? usage)

/-- A word with the trigram has it once, so one of its states is recorded anew. -/
theorem Rerecords.exists_statesIn (rerecords : Rerecords trigram state before after)
    (member : trigram ∈ Trigram.ofWord word) :
    ∃ rest, (statesIn before word).Perm (recorded? before trigram :: rest) ∧
      (statesIn after word).Perm (some state :: rest) := by
  have split := List.perm_cons_erase (SortedSet.mem_toList.mpr member)
  refine ⟨((Trigram.ofWord word).toList.erase trigram).map (recorded? before),
    split.map (recorded? before), ?_⟩
  have others : ((Trigram.ofWord word).toList.erase trigram).map (recorded? after) =
      ((Trigram.ofWord word).toList.erase trigram).map (recorded? before) :=
    List.map_congr_left fun other rest =>
      rerecords.others other ((Trigram.ofWord word).nodup.mem_erase_iff.mp rest).1
  have renewed := split.map (recorded? after)
  rwa [List.map_cons, rerecords.anew, others] at renewed

/-- A word without the trigram keeps its states. -/
theorem Rerecords.statesIn_eq (rerecords : Rerecords trigram state before after)
    (missing : trigram ∉ Trigram.ofWord word) : statesIn after word = statesIn before word :=
  List.map_congr_left fun other member =>
    rerecords.others other fun same => missing (same ▸ SortedSet.mem_toList.mp member)

/-! ## Scores of counts -/

section Counts

variable (unused success failure : Nat)

theorem scoreOfCounts_unused_le_success :
    scoreOfCounts ↑(unused + 1) success failure ≤ scoreOfCounts unused ↑(success + 1) failure := by
  unfold scoreOfCounts
  split_ifs <;> omega

theorem scoreOfCounts_skipped_le_success :
    scoreOfCounts unused success failure ≤ scoreOfCounts unused ↑(success + 1) failure := by
  unfold scoreOfCounts
  split_ifs <;> omega

theorem scoreOfCounts_failed_le_success :
    scoreOfCounts unused success ↑(failure + 1) ≤ scoreOfCounts unused ↑(success + 1) failure := by
  unfold scoreOfCounts
  split_ifs <;> omega

/-- A failure in place of an unused trigram helps if nothing has been used and two are left. -/
theorem scoreOfCounts_unused_lt_failed_iff :
    scoreOfCounts ↑(unused + 1) success failure < scoreOfCounts unused success ↑(failure + 1) ↔
      success = 0 ∧ failure = 0 ∧ 2 ≤ unused := by
  unfold scoreOfCounts
  split_ifs <;> omega

/-- A failure in place of a skipped trigram helps if nothing has been used and four are unused. -/
theorem scoreOfCounts_skipped_lt_failed_iff :
    scoreOfCounts unused success failure < scoreOfCounts unused success ↑(failure + 1) ↔
      success = 0 ∧ failure = 0 ∧ 4 ≤ unused := by
  unfold scoreOfCounts
  split_ifs <;> omega

end Counts

/-! ## Scores of states -/

/-- The score of a word whose trigrams are in some states. -/
def scoreOfStates (states : List (Option UsageState)) : Int :=
  scoreOfCounts (states.count none) (states.count (some .success)) (states.count (some .failed))

theorem score_eq (usage : List Usage) (word : String) :
    score usage word = scoreOfStates (statesIn usage word) := by
  rw [score, statesIn, scoreOfStates, funext (stateOf_eq usage)]

theorem scoreOfStates_perm {states other : List (Option UsageState)} (same : states.Perm other) :
    scoreOfStates states = scoreOfStates other := by
  simp only [scoreOfStates, same.count_eq]

section States

variable (rest : List (Option UsageState))

theorem scoreOfStates_none :
    scoreOfStates (none :: rest) = scoreOfCounts ↑(rest.count none + 1)
      (rest.count (some .success)) (rest.count (some .failed)) := by
  simp [scoreOfStates]

theorem scoreOfStates_unknown :
    scoreOfStates (some .unknown :: rest) = scoreOfCounts (rest.count none)
      (rest.count (some .success)) (rest.count (some .failed)) := by
  simp [scoreOfStates]

theorem scoreOfStates_success :
    scoreOfStates (some .success :: rest) = scoreOfCounts (rest.count none)
      ↑(rest.count (some .success) + 1) (rest.count (some .failed)) := by
  simp [scoreOfStates]

theorem scoreOfStates_failed :
    scoreOfStates (some .failed :: rest) = scoreOfCounts (rest.count none)
      (rest.count (some .success)) ↑(rest.count (some .failed) + 1) := by
  simp [scoreOfStates]

/-- Success in place of any other state does not lower the score. -/
theorem scoreOfStates_le_success (state? : Option UsageState) :
    scoreOfStates (state? :: rest) ≤ scoreOfStates (some .success :: rest) := by
  rw [scoreOfStates_success]
  match state? with
  | none =>
      rw [scoreOfStates_none]
      exact scoreOfCounts_unused_le_success ..
  | some .unknown =>
      rw [scoreOfStates_unknown]
      exact scoreOfCounts_skipped_le_success ..
  | some .success => exact Int.le_of_eq (scoreOfStates_success rest)
  | some .failed =>
      rw [scoreOfStates_failed]
      exact scoreOfCounts_failed_le_success ..

/-- No trigram has been used, be it with success or not. -/
def AllIdle (states : List (Option UsageState)) : Prop :=
  ∀ state, some state ∈ states → state = .unknown

theorem allIdle_perm {states other : List (Option UsageState)} (same : states.Perm other) :
    AllIdle states ↔ AllIdle other :=
  forall_congr' fun _ => by rw [same.mem_iff]

theorem allIdle_iff {states : List (Option UsageState)} :
    AllIdle states ↔ states.count (some .success) = 0 ∧ states.count (some .failed) = 0 := by
  rw [List.count_eq_zero, List.count_eq_zero]
  constructor
  · intro idle
    refine ⟨fun used => ?_, fun used => ?_⟩
    · cases idle _ used
    · cases idle _ used
  · rintro ⟨success, failed⟩ (_ | _ | _) member
    · rfl
    · exact absurd member success
    · exact absurd member failed

/-- Failure in place of another state raises the score in two cases only. -/
theorem scoreOfStates_lt_failed_iff (state? : Option UsageState) :
    scoreOfStates (state? :: rest) < scoreOfStates (some .failed :: rest) ↔
      AllIdle (state? :: rest) ∧
        (state? = none ∧ 3 ≤ (state? :: rest).count none ∨
          state? = some .unknown ∧ 4 ≤ (state? :: rest).count none) := by
  rw [scoreOfStates_failed, allIdle_iff]
  match state? with
  | none =>
      rw [scoreOfStates_none, scoreOfCounts_unused_lt_failed_iff]
      simp [and_assoc]
  | some .unknown =>
      rw [scoreOfStates_unknown, scoreOfCounts_skipped_lt_failed_iff]
      simp [and_assoc]
  | some .success =>
      have less := scoreOfCounts_failed_le_success (rest.count none) (rest.count (some .success))
        (rest.count (some .failed))
      rw [scoreOfStates_success]
      simpa using less
  | some .failed => simp [scoreOfStates_failed]

end States

/-! ## Scores of words -/

/-- A trigram that turns out to have shrunk the result does not lower the score of any word. -/
theorem Rerecords.score_le (rerecords : Rerecords trigram .success before after) (word : String) :
    score before word ≤ score after word := by
  rw [score_eq, score_eq]
  by_cases member : trigram ∈ Trigram.ofWord word
  · obtain ⟨rest, old, new⟩ := rerecords.exists_statesIn member
    rw [scoreOfStates_perm old, scoreOfStates_perm new]
    exact scoreOfStates_le_success rest _
  · exact Int.le_of_eq (congrArg scoreOfStates (rerecords.statesIn_eq member)).symm

/-- The trigrams of a word of which nothing is recorded. -/
def unused (usage : List Usage) (word : String) : SortedSet Trigram :=
  (Trigram.ofWord word).filter fun trigram => (recorded? usage trigram).isNone

theorem allIdle_statesIn_iff : AllIdle (statesIn usage word) ↔
    ∀ trigram ∈ Trigram.ofWord word, ∀ state, recorded? usage trigram = some state →
      state = .unknown := by
  constructor
  · intro idle trigram member state is
    exact idle state (List.mem_map.mpr ⟨trigram, SortedSet.mem_toList.mpr member, is⟩)
  · intro idle state member
    obtain ⟨trigram, inside, is⟩ := List.mem_map.mp member
    exact idle trigram (SortedSet.mem_toList.mp inside) state is

theorem count_none_statesIn (usage : List Usage) (word : String) :
    (statesIn usage word).count none = (unused usage word).size := by
  rw [statesIn, List.count_eq_countP, List.countP_map, List.countP_eq_length_filter]
  refine congrArg List.length (List.filter_congr fun trigram _ => ?_)
  simp

/-- A trigram that turns out to have failed raises the score of a word exactly if it is one of the
word's trigrams, none of them has been used before, and many of them are unused. -/
theorem Rerecords.score_lt_of_failed_iff (rerecords : Rerecords trigram .failed before after)
    (word : String) :
    score before word < score after word ↔
      trigram ∈ Trigram.ofWord word ∧
      (∀ other ∈ Trigram.ofWord word, ∀ state, recorded? before other = some state →
        state = .unknown) ∧
      (recorded? before trigram = none ∧ 3 ≤ (unused before word).size ∨
        recorded? before trigram = some .unknown ∧ 4 ≤ (unused before word).size) := by
  rw [score_eq, score_eq]
  by_cases member : trigram ∈ Trigram.ofWord word
  · obtain ⟨rest, old, new⟩ := rerecords.exists_statesIn member
    rw [scoreOfStates_perm old, scoreOfStates_perm new, scoreOfStates_lt_failed_iff,
      ← old.count_eq, count_none_statesIn, ← allIdle_statesIn_iff, allIdle_perm old]
    simp [member]
  · rw [rerecords.statesIn_eq member]
    simp [member]

/-- One of five trigrams has been skipped, the others are unused; to have it fail is better. -/
theorem score_lt_of_failed_sample :
    Rerecords "abc" .failed [⟨"abc", 7, .unknown⟩]
      ([⟨"abc", 7, .unknown⟩] ++ [⟨"abc", 7, .failed⟩]) ∧
    score [⟨"abc", 7, .unknown⟩] "abcdefg" <
      score ([⟨"abc", 7, .unknown⟩] ++ [⟨"abc", 7, .failed⟩]) "abcdefg" ∧
    score [⟨"abc", 7, .unknown⟩] "abcdefg" = -3 ∧
    score ([⟨"abc", 7, .unknown⟩] ++ [⟨"abc", 7, .failed⟩]) "abcdefg" = -2 := by
  have rerecords := rerecords_append [⟨"abc", 7, .unknown⟩] ⟨"abc", 7, .failed⟩
  have idle : AllIdle (statesIn [⟨"abc", 7, .unknown⟩] "abcdefg") :=
    allIdle_iff.mpr (by decide)
  refine ⟨rerecords, ?_, by decide, by decide⟩
  exact (rerecords.score_lt_of_failed_iff "abcdefg").mpr
    ⟨by decide, allIdle_statesIn_iff.mp idle, .inr (by decide)⟩

/-- A word of which nothing is recorded is scored higher once one of its five trigrams has failed,
and so is one of which a trigram has been skipped. -/
theorem failure_raises_score :
    Rerecords "abc" .failed [] [⟨"abc", 7, .failed⟩] ∧
    score [] "abcdefg" = -4 ∧ score [⟨"abc", 7, .failed⟩] "abcdefg" = -2 ∧
    Rerecords "abc" .failed [⟨"abc", 7, .unknown⟩]
      ([⟨"abc", 7, .unknown⟩] ++ [⟨"abc", 7, .failed⟩]) ∧
    score [⟨"abc", 7, .unknown⟩] "abcdefg" = -3 ∧
    score ([⟨"abc", 7, .unknown⟩] ++ [⟨"abc", 7, .failed⟩]) "abcdefg" = -2 :=
  ⟨rerecords_append [] ⟨"abc", 7, .failed⟩, by decide, by decide,
    rerecords_append [⟨"abc", 7, .unknown⟩] ⟨"abc", 7, .failed⟩, by decide, by decide⟩

/-! ## Orders of words -/

/-- The words with their scores, in the order in which they are given. -/
def scored (usage : List Usage) (words : List String) : List RankedWord :=
  words.map fun word => ⟨word, score usage word⟩

/-- A list of words with their scores is a stable ranking. -/
structure IsRanking (usage : List Usage) (words : List String) (ranked : List RankedWord) :
    Prop where
  /-- All words are there with their scores, and nothing else. -/
  perm : ranked.Perm (scored usage words)
  /-- Better scores come first. -/
  descending : ranked.Pairwise fun a b => b.score ≤ a.score
  /-- Words of one score stand in their order. -/
  stable : ∀ score : Int, ranked.filter (·.score = score) =
    (scored usage words).filter (·.score = score)

theorem isRanking_rank (usage : List Usage) (words : List String) :
    IsRanking usage words (rank usage words) := by
  have trans (a b c : RankedWord) (first : decide (b.score ≤ a.score) = true)
      (second : decide (c.score ≤ b.score) = true) : decide (c.score ≤ a.score) = true :=
    decide_eq_true (Int.le_trans (of_decide_eq_true second) (of_decide_eq_true first))
  have total (a b : RankedWord) :
      (decide (b.score ≤ a.score) || decide (a.score ≤ b.score)) = true := by
    simpa using Int.le_total b.score a.score
  have perm : (rank usage words).Perm (scored usage words) := List.mergeSort_perm ..
  refine ⟨perm, ?_, fun score => ?_⟩
  · exact (List.pairwise_mergeSort trans total _).imp of_decide_eq_true
  · -- The words of one score are in order as they are given, so that sorting keeps their order.
    have alike : ((scored usage words).filter (·.score = score)).Pairwise fun a b =>
        decide (b.score ≤ a.score) = true := by
      refine List.pairwise_of_forall_mem_list fun a first b second => decide_eq_true ?_
      have first := of_decide_eq_true (List.mem_filter.mp first).2
      have second := of_decide_eq_true (List.mem_filter.mp second).2
      exact Int.le_of_eq (second.trans first.symm)
    have kept : ((scored usage words).filter (·.score = score)).Sublist (rank usage words) :=
      List.sublist_mergeSort trans total alike List.filter_sublist
    have inside := kept.filter (·.score = score)
    simp only [List.filter_filter, Bool.and_self] at inside
    exact (inside.eq_of_length (perm.filter _).length_eq.symm).symm

/-- A ranking is stable, it looks at nothing but the last entries of the trigrams that words have,
and it rewards success. -/
theorem rank_rewards_success (usage : List Usage) (words : List String) :
    IsRanking usage words (rank usage words) ∧
    (∀ (other : List Usage) (word same : String), Trigram.ofWord same = Trigram.ofWord word →
      (∀ trigram ∈ Trigram.ofWord word, latest? other trigram = latest? usage trigram) →
      score other same = score usage word) ∧
    ∀ (trigram : Trigram) (after : List Usage), Rerecords trigram .success usage after →
      ∀ word, score usage word ≤ score after word := by
  refine ⟨isRanking_rank usage words, fun other word same trigrams entries => ?_,
    fun trigram after rerecords => rerecords.score_le⟩
  rw [score_eq, score_eq, statesIn, statesIn, trigrams]
  refine congrArg scoreOfStates (List.map_congr_left fun trigram member => ?_)
  rw [recorded?, recorded?, entries trigram (SortedSet.mem_toList.mp member)]

/-- Two entries of one trigram. -/
def sampleUsage : List Usage := [⟨"aba", 4, .failed⟩, ⟨"aba", 3, .unknown⟩]

theorem rank_rewards_success_sample :
    IsRanking sampleUsage ["xyz", "ababa"] (rank sampleUsage ["xyz", "ababa"]) ∧
    Trigram.ofWord "babab" = Trigram.ofWord "ababa" ∧
    score [⟨"aba", 3, .unknown⟩] "babab" = score sampleUsage "ababa" ∧
    Rerecords "bab" .success sampleUsage (sampleUsage ++ [⟨"bab", 2, .success⟩]) ∧
    score sampleUsage "ababa" ≤ score (sampleUsage ++ [⟨"bab", 2, .success⟩]) "ababa" ∧
    score sampleUsage "ababa" = 0 ∧
    score (sampleUsage ++ [⟨"bab", 2, .success⟩]) "ababa" = 4 := by
  obtain ⟨ranking, depends, rewards⟩ := rank_rewards_success sampleUsage ["xyz", "ababa"]
  have trigrams : Trigram.ofWord "babab" = Trigram.ofWord "ababa" := by decide
  have entries : ∀ trigram ∈ Trigram.ofWord "ababa",
      latest? [⟨"aba", 3, .unknown⟩] trigram = latest? sampleUsage trigram := by
    have listed : (Trigram.ofWord "ababa").toList = ["aba", "bab"] := by decide
    intro trigram member
    rw [← SortedSet.mem_toList, listed, List.mem_pair] at member
    rcases member with rfl | rfl
    · decide
    · decide
  have rerecords := rerecords_append sampleUsage ⟨"bab", 2, .success⟩
  exact ⟨ranking, trigrams, depends _ "ababa" "babab" trigrams entries, rerecords,
    rewards "bab" _ rerecords "ababa", by decide, by decide⟩

end Ranking
end SourceSearch
