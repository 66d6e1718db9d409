import Mathlib.Data.List.Basic
import SourceSearch.Proofs.Lines

/-!
# Wordlists

The tokens of a line are in lowercase, hold no delimiters and are trimmed, so a token is the only
token of itself, and tokens that stand one to a line, or in one line with spaces between them, are
found again.  A wordlist is therefore the wordlist of its own words.
-/

namespace SourceSearch

/-! ## First occurrences -/

section Lists

variable {α : Type} [BEq α] [LawfulBEq α]

/-- Leaving out other elements keeps the order of first occurrences. -/
theorem idxOf_lt_of_filter {p : α → Bool} {list : List α} {a b : α} (first : p a = true)
    (second : p b = true) (before : (list.filter p).idxOf a < (list.filter p).idxOf b) :
    list.idxOf a < list.idxOf b := by
  induction list with
  | nil => simp at before
  | cons c rest ih =>
      by_cases kept : p c = true
      · rw [List.filter_cons_of_pos kept, List.idxOf_cons, List.idxOf_cons] at before
        rw [List.idxOf_cons, List.idxOf_cons]
        grind
      · rw [List.filter_cons_of_neg kept] at before
        rw [List.idxOf_cons, List.idxOf_cons]
        grind

/-- Without the repetitions a list is in the order of first occurrences. -/
theorem pairwise_idxOf_eraseDups (list : List α) :
    list.eraseDups.Pairwise fun a b => list.idxOf a < list.idxOf b := by
  match list with
  | [] => simp
  | a :: rest =>
      rw [List.eraseDups_cons, List.pairwise_cons]
      have other {b : α} (member : b ∈ (rest.filter fun b => !b == a).eraseDups) :
          (a == b) = false := by
        rw [List.mem_eraseDups, List.mem_filter] at member
        grind
      refine ⟨fun b member => ?_, ?_⟩
      · rw [List.idxOf_cons_self, List.idxOf_cons, other member]
        exact Nat.succ_pos _
      · refine (pairwise_idxOf_eraseDups (rest.filter fun b => !b == a)).imp_of_mem ?_
        intro b c member later before
        have less := idxOf_lt_of_filter (by grind) (by grind) before
        rw [List.idxOf_cons, List.idxOf_cons, other member, other later]
        exact Nat.succ_lt_succ less
termination_by list.length
decreasing_by exact Nat.lt_succ_of_le (List.length_filter_le _ _)

theorem nodup_eraseDups (list : List α) : list.eraseDups.Nodup := by
  refine (pairwise_idxOf_eraseDups list).imp ?_
  rintro a _ before rfl
  exact Nat.lt_irrefl _ before

theorem eraseDups_of_nodup {list : List α} (once : list.Nodup) : list.eraseDups = list := by
  induction list with
  | nil => rfl
  | cons a rest ih =>
      rw [List.nodup_cons] at once
      have others : (rest.filter fun b => !b == a) = rest := by
        refine List.filter_eq_self.mpr fun b member => ?_
        have apart : b ≠ a := ne_of_mem_of_not_mem member once.1
        simp [apart]
      rw [List.eraseDups_cons, others, ih once.2]

end Lists

namespace Text

/-- Pieces joined by a character at which a text is cut are its pieces again. -/
theorem splitOnP_intercalate {p : Char → Bool} {gap : Char} (cuts : p gap = true)
    {parts : List (List Char)} (nonempty : parts ≠ [])
    (whole : ∀ part ∈ parts, ∀ c ∈ part, p c = false) :
    ([gap].intercalate parts).splitOnP p = parts := by
  induction parts with
  | nil => contradiction
  | cons part rest ih =>
      rw [List.forall_mem_cons] at whole
      cases rest with
      | nil => rw [List.intercalate_singleton, List.splitOnP_eq_singleton whole.1]
      | cons next others =>
          rw [List.intercalate_cons_cons, List.append_assoc, List.singleton_append,
            List.splitOnP_append_cons_of_forall_mem whole.1 gap cuts,
            ih (List.cons_ne_nil _ _) whole.2]

/-- The text neither starts nor ends with a blank. -/
structure IsTrimmed (text : List Char) : Prop where
  starts : ∀ c ∈ text.head?, isBlank c = false
  ends : ∀ c ∈ text.getLast?, isBlank c = false

theorem isTrimmed_trim (text : List Char) : IsTrimmed (trim text) := by
  have starts {l : List Char} : ∀ c ∈ (l.dropWhile isBlank).head?, isBlank c = false := by
    intro c first
    have unblank := List.head?_dropWhile_not isBlank l
    rwa [Option.mem_def.mp first] at unblank
  refine ⟨fun c first => ?_, fun c last => ?_⟩
  · have shorter : trim text <+: text.dropWhile isBlank := by
      rw [trim, dropTrailing, ← List.reverse_suffix, List.reverse_reverse]
      exact List.dropWhile_suffix _
    obtain ⟨rest, whole⟩ := shorter
    refine starts c (l := text) ?_
    rw [← whole, List.head?_append, Option.mem_def.mp first]
    rfl
  · rw [trim, dropTrailing, List.getLast?_reverse] at last
    exact starts c last

theorem IsTrimmed.trim_eq {text : List Char} (trimmed : IsTrimmed text) : trim text = text := by
  have kept {l : List Char} (starts : ∀ c ∈ l.head?, isBlank c = false) :
      l.dropWhile isBlank = l := by
    cases l with
    | nil => rfl
    | cons c rest => exact List.dropWhile_cons_of_neg (by simp [starts c rfl])
  rw [trim, kept trimmed.starts, dropTrailing,
    kept (by simpa only [List.head?_reverse] using trimmed.ends), List.reverse_reverse]

end Text

namespace Words

/-! ## Tokens -/

/-- A text is of the kind that lowercasing, cutting and trimming leave. -/
structure IsTidy (text : String) : Prop where
  /-- It is not empty. -/
  nonempty : text.toList ≠ []
  /-- It is in lowercase. -/
  lower : ∀ c ∈ text.toList, Text.IsLower c
  /-- It holds no delimiter. -/
  whole : ∀ c ∈ text.toList, separates c = false
  /-- It has no blanks at its ends. -/
  trimmed : Text.IsTrimmed text.toList

theorem isTidy_of_mem_split {line token : String} (member : token ∈ split line) :
    IsTidy token := by
  have inside := infix_of_mem_split member
  obtain ⟨trimmed, listed, rfl⟩ := List.mem_map.mp member
  obtain ⟨listed, nonempty⟩ := List.mem_filter.mp listed
  obtain ⟨piece, cut, rfl⟩ := List.mem_map.mp listed
  refine ⟨by simpa using nonempty, fun c held => ?_, fun c held => ?_, ?_⟩
  · exact Text.isLower_of_mem_lowercaseAfter (inside.subset held)
  · rw [String.toList_ofList] at held
    exact Text.not_of_mem_splitOnP cut c ((Text.trim_infix piece).subset held)
  · rw [String.toList_ofList]
    exact Text.isTrimmed_trim piece

variable {list : List String}

/-- Tidy texts with spaces between them are the tokens of their line. -/
theorem split_intercalate (tidy : ∀ token ∈ list, IsTidy token) :
    split (" ".intercalate list) = list := by
  by_cases none : list = []
  · subst none
    rfl
  · have joined : (" ".intercalate list).toList = [' '].intercalate (list.map String.toList) :=
      String.toList_intercalate
    have lowered :
        Text.lowercase (" ".intercalate list).toList = (" ".intercalate list).toList := by
      refine Text.lowercaseAfter_of_isLower fun c member => ?_
      rcases Text.mem_intercalate member with gap | ⟨token, listed, inside⟩
      · obtain rfl : c = ' ' := by simpa using gap
        decide
      · exact (tidy token listed).lower c inside
    have cut : (" ".intercalate list).toList.splitOnP separates = list.map String.toList := by
      rw [joined, Text.splitOnP_intercalate (by decide) (by simpa using none)]
      simpa using fun token listed => (tidy token listed).whole
    have trimmed : (list.map String.toList).map Text.trim = list.map String.toList := by
      rw [List.map_map]
      exact List.map_congr_left fun token listed => (tidy token listed).trimmed.trim_eq
    have kept : (list.map String.toList).filter (!·.isEmpty) = list.map String.toList := by
      refine List.filter_eq_self.mpr ?_
      simpa using fun token listed => (tidy token listed).nonempty
    rw [split, lowered, cut, trimmed, kept, List.map_map]
    simp [Function.comp_def]

/-- A tidy text is the only token of itself. -/
theorem IsTidy.split_eq {text : String} (tidy : IsTidy text) : split text = [text] := by
  have single : ∀ token ∈ [text], IsTidy token := List.forall_mem_singleton.mpr tidy
  simpa using split_intercalate single

/-! ## Lines -/

theorem endLines_of_whole {pieces : List (List Char)}
    (whole : ∀ piece ∈ pieces, piece ≠ [] ∧ '\r' ∉ piece) : Text.endLines pieces = pieces := by
  induction pieces with
  | nil => rfl
  | cons piece rest ih =>
      rw [List.forall_mem_cons] at whole
      obtain ⟨⟨nonempty, unbroken⟩, others⟩ := whole
      cases rest with
      | nil => simp [Text.endLines, nonempty]
      | cons next more =>
          have kept : Text.endLine piece = piece := by
            rw [Text.endLine]
            split
            · rename_i last
              exact absurd (List.mem_of_getLast? last) unbroken
            · rfl
          rw [Text.endLines, kept, ih others]

theorem IsTidy.not_mem {text : String} (tidy : IsTidy text) {c : Char}
    (delimiter : separates c = true) : c ∉ text.toList := fun member =>
  absurd (tidy.whole c member) (by simp [delimiter])

/-- Tidy texts, one to a line, are the lines of what they make up. -/
theorem lines_intercalate (tidy : ∀ token ∈ list, IsTidy token) :
    lines ("\n".intercalate list) = list := by
  by_cases none : list = []
  · subst none
    rfl
  · have cut : ("\n".intercalate list).toList.splitOn '\n' = list.map String.toList := by
      rw [String.toList_intercalate]
      exact List.splitOn_intercalate '\n'
        (by simpa using fun token listed => (tidy token listed).not_mem rfl) (by simpa using none)
    have ended : Text.endLines (list.map String.toList) = list.map String.toList := by
      refine endLines_of_whole ?_
      simpa using fun token listed =>
        And.intro (tidy token listed).nonempty ((tidy token listed).not_mem (c := '\r') rfl)
    rw [lines, Text.lines, cut, ended, List.map_map]
    simp [Function.comp_def]

/-- A text without line feeds is a single line. -/
theorem lines_of_not_mem {text : String} (nonempty : text.toList ≠ [])
    (single : '\n' ∉ text.toList) : lines text = [text] := by
  simp [lines, Text.lines, List.splitOn_eq_singleton single, Text.endLines, nonempty]

/-- Tidy texts, one to a line or with spaces between them, are the tokens of what they make up. -/
theorem tokens_intercalate (tidy : ∀ token ∈ list, IsTidy token) {gap : String}
    (either : gap ∈ ["\n", " "]) : tokens (gap.intercalate list) = list := by
  simp only [List.mem_cons, List.not_mem_nil, or_false] at either
  rcases either with rfl | rfl
  · have each : list.map split = list.map fun token => [token] :=
      List.map_congr_left fun token listed => (tidy token listed).split_eq
    rw [tokens, lines_intercalate tidy, List.flatMap, each, ← List.flatMap, List.flatMap_singleton']
  · have line := split_intercalate tidy
    by_cases nonempty : (" ".intercalate list).toList = []
    · rw [String.toList_eq_nil_iff.mp nonempty] at line ⊢
      exact line
    · have single : '\n' ∉ (" ".intercalate list).toList := by
        intro member
        rcases Text.mem_intercalate member with gap | ⟨token, listed, inside⟩
        · exact absurd gap (by decide)
        · exact (tidy token listed).not_mem rfl inside
      rw [tokens, lines_of_not_mem nonempty single, List.flatMap_singleton, line]

/-! ## Words -/

/-- A word is of the kind that a wordlist holds. -/
structure IsCanonical (word : String) : Prop where
  /-- It is not too short for a word. -/
  long : minLength ≤ word.length
  /-- It holds no delimiter. -/
  whole : ∀ c ∈ word.toList, separates c = false
  /-- It has no blanks at its ends. -/
  trimmed : Text.IsTrimmed word.toList
  /-- It is the only token of itself. -/
  split_eq : split word = [word]

variable {text : String}

theorem isTidy_of_mem_distinct {word : String} (member : word ∈ distinct text) : IsTidy word := by
  obtain ⟨_, -, token⟩ := List.mem_flatMap.mp (mem_distinct_iff.mp member).1
  exact isTidy_of_mem_split token

theorem isCanonical_of_mem_distinct {word : String} (member : word ∈ distinct text) :
    IsCanonical word :=
  have tidy := isTidy_of_mem_distinct member
  ⟨(mem_distinct_iff.mp member).2, tidy.whole, tidy.trimmed, tidy.split_eq⟩

/-- The words of a text made of distinct words are these. -/
theorem distinct_intercalate {gap : String} (either : gap ∈ ["\n", " "]) :
    distinct (gap.intercalate (distinct text)) = distinct text := by
  have long : (distinct text).filter (minLength ≤ ·.length) = distinct text :=
    List.filter_eq_self.mpr fun word member =>
      decide_eq_true (isCanonical_of_mem_distinct member).long
  have again : ofText (gap.intercalate (distinct text)) = distinct text := by
    rw [ofText, ← tokens, tokens_intercalate (fun _ => isTidy_of_mem_distinct) either, long]
  have once : (distinct text).Nodup := nodup_eraseDups _
  rw [distinct, again, eraseDups_of_nodup once]

end Words

/-- **Stored words are canonical.**  The wordlist of any text holds each of its words once, in the
order of their first occurrence.  Its words are long enough, hold no delimiters and have no blanks
at their ends, and each is the only token of itself.  So the words, one to a line or with spaces
between them, have the wordlist and the trigrams of the text. -/
theorem Extraction.wordlist_canonical (text : String) :
    (ofText text).wordlist.Nodup ∧
      (∀ word, word ∈ (ofText text).wordlist ↔ word ∈ Words.ofText text) ∧
      (ofText text).wordlist.Pairwise (fun word later =>
        (Words.ofText text).idxOf word < (Words.ofText text).idxOf later) ∧
      (∀ word ∈ (ofText text).wordlist, Words.IsCanonical word) ∧
      ∀ gap ∈ ["\n", " "],
        (ofText (gap.intercalate (ofText text).wordlist)).wordlist = (ofText text).wordlist ∧
        (ofText (gap.intercalate (ofText text).wordlist)).trigrams = (ofText text).trigrams := by
  have same (gap : String) (either : gap ∈ ["\n", " "]) :
      Words.distinct (gap.intercalate (Words.distinct text)) = Words.distinct text :=
    Words.distinct_intercalate either
  simp only [ofText]
  refine ⟨nodup_eraseDups _, fun _ => List.mem_eraseDups, pairwise_idxOf_eraseDups _,
    fun _ => Words.isCanonical_of_mem_distinct, fun gap either => ⟨same gap either, ?_⟩⟩
  rw [same gap either]

/-- A sigma is read with the letters of its line, and a blank within a word stays. -/
example : (Extraction.ofText "ΟΔΟΣ() ΟΔΟΣΑ\u00A0b\n\u00A0οδος ab").wordlist =
    ["οδος", "οδοσα\u00A0b"] := by
  decide +kernel

end SourceSearch
