import SourceSearch.Proofs.Lines
import SourceSearch.Proofs.Search.Served

/-!
# Previews of results

A preview shows the first lines that contain a term.  Whether a document is a result is decided by
its stored words, and its preview is made from the stored copy.  Every word is part of a lowercased
line, and lowercasing a term twice is lowercasing it once, so no result of a search for a term is
shown without a line.
-/

namespace SourceSearch

/-- A preview of a text for a term in lowercase: the first three of the lines that contain it, by
their numbers from one on, and without blanks at the ends. -/
structure Preview.Shows (text needle : String) (preview : Preview) : Prop where
  /-- At most three lines are shown. -/
  size : preview.size = min 3 ((lines text).countP (isHit needle))
  /-- A line is shown under its number if it contains the term and few lines before it do. -/
  lines : ∀ number shown, preview.find? number = some shown ↔
    ∃ before line after, lines text = before ++ line :: after ∧ number = before.length + 1 ∧
      isHit needle line = true ∧ before.countP (isHit needle) < 3 ∧ shown = trim line

namespace SortedMap

variable {κ β : Type} [LT κ] [DecidableEq κ] [DecidableLT κ] [SortOrder κ]

/-- A list that ascends is the list of its map. -/
theorem toList_ofList {entries : List (κ × β)}
    (ascending : (entries.map Prod.fst).Pairwise (· < ·)) : (ofList entries).toList = entries :=
  congrArg toList (ofList_toList ⟨entries, ascending⟩)

end SortedMap

namespace Preview

section Numbered

variable {α : Type} {p : α → Bool}

/-- An element of a list is the first one, or has the first one before it. -/
theorem exists_split_cons_iff {first a : α} {rest : List α} {P : List α → Prop} :
    (∃ before after, first :: rest = before ++ a :: after ∧ P before) ↔
      (a = first ∧ P []) ∨ ∃ before after, rest = before ++ a :: after ∧ P (first :: before) := by
  constructor
  · rintro ⟨before, after, same, holds⟩
    cases before with
    | nil =>
        obtain ⟨rfl, -⟩ := List.cons.inj same
        exact .inl ⟨rfl, holds⟩
    | cons head before =>
        obtain ⟨rfl, rfl⟩ := List.cons.inj same
        exact .inr ⟨before, after, rfl, holds⟩
  · rintro (⟨rfl, holds⟩ | ⟨before, after, rfl, holds⟩)
    · exact ⟨[], rest, rfl, holds⟩
    · exact ⟨first :: before, after, rfl, holds⟩

theorem mem_numbered_iff {whole : List α} {start limit number : Nat} {a : α} :
    (a, number) ∈ ((whole.zipIdx start).filter fun entry => p entry.1).take limit ↔
      ∃ before after, whole = before ++ a :: after ∧ number = start + before.length ∧
        p a = true ∧ before.countP p < limit := by
  induction whole generalizing start limit with
  | nil => simp
  | cons first rest ih =>
      have next (before : List α) :
          start + (first :: before).length = start + 1 + before.length := by
        rw [List.length_cons]
        omega
      rw [exists_split_cons_iff, List.zipIdx_cons]
      simp only [next]
      by_cases hit : p first = true
      · rw [List.filter_cons_of_pos (by exact hit)]
        cases limit with
        | zero => simp
        | succ limit =>
            rw [List.take_succ_cons, List.mem_cons, ih, Prod.mk.injEq]
            simp only [hit, List.countP_cons_of_pos, Nat.add_lt_add_iff_right]
            refine or_congr_left (and_congr_right ?_)
            rintro rfl
            exact ⟨fun is => ⟨is, hit, Nat.succ_pos _⟩, And.left⟩
      · rw [List.filter_cons_of_neg (by exact hit), ih]
        simp only [hit, List.countP_cons_of_neg, Bool.false_eq_true, not_false_eq_true]
        refine (or_iff_right ?_).symm
        rintro ⟨rfl, -, hit', -⟩
        exact hit hit'

theorem pairwise_numbered (whole : List α) (start : Nat) :
    (whole.zipIdx start).Pairwise fun entry later => entry.2 < later.2 := by
  induction whole generalizing start with
  | nil => exact .nil
  | cons first rest ih =>
      rw [List.zipIdx_cons, List.pairwise_cons]
      refine ⟨fun later member => ?_, ih _⟩
      have bound := List.le_snd_of_mem_zipIdx member
      omega

theorem length_filter_numbered (whole : List α) (start : Nat) :
    ((whole.zipIdx start).filter fun entry => p entry.1).length = whole.countP p := by
  induction whole generalizing start with
  | nil => rfl
  | cons first rest ih =>
      rw [List.zipIdx_cons, List.filter_cons, List.countP_cons]
      split
      · rw [List.length_cons, ih]
      · rw [ih, Nat.add_zero]

end Numbered

/-- The entries of a preview, in the order of their numbers. -/
theorem toList_ofText (text term : String) : (Preview.ofText text term).toList =
    ((((lines text).zipIdx 1).filter fun entry => isHit (lowercase term) entry.1).take 3).map
      fun entry => (entry.2, trim entry.1) := by
  apply SortedMap.toList_ofList
  rw [List.map_map, List.pairwise_map]
  exact (pairwise_numbered _ _).sublist ((List.take_sublist _ _).trans List.filter_sublist)

/-- Previews of texts show the first lines that contain the term. -/
theorem shows_ofText (text term : String) :
    Shows text (lowercase term) (Preview.ofText text term) where
  size := by
    rw [SortedMap.size, toList_ofText, List.length_map, List.length_take, length_filter_numbered]
  lines number shown := by
    rw [SortedMap.find?_eq_some_iff, toList_ofText, List.mem_map]
    constructor
    · rintro ⟨⟨line, number⟩, member, same⟩
      obtain ⟨rfl, rfl⟩ := Prod.mk.inj same
      obtain ⟨before, after, split, rfl, hit, few⟩ := mem_numbered_iff.mp member
      exact ⟨before, line, after, split, Nat.add_comm _ _, hit, few, rfl⟩
    · rintro ⟨before, line, after, split, rfl, hit, few, rfl⟩
      refine ⟨(line, before.length + 1), mem_numbered_iff.mpr ?_, rfl⟩
      exact ⟨before, after, split, Nat.add_comm _ _, hit, few⟩

/-- A preview of a text with a line that contains the term is not empty. -/
theorem Shows.isEmpty_eq_false {text needle line : String} {preview : Preview}
    (shows : Shows text needle preview) (listed : line ∈ SourceSearch.lines text)
    (hit : isHit needle line = true) : preview.isEmpty = false := by
  have some : 0 < (SourceSearch.lines text).countP (isHit needle) :=
    List.countP_pos_iff.mpr ⟨line, listed, hit⟩
  have size := shows.size
  rw [SortedMap.size] at size
  rw [SortedMap.isEmpty, List.isEmpty_eq_false_iff, ← List.length_pos_iff]
  omega

end Preview

theorem lowercase_lowercase (text : String) : lowercase (lowercase text) = lowercase text := by
  have part : (lowercase text).toList <:+: Text.lowercase text.toList := by
    simp only [lowercase, String.toList_ofList, List.infix_rfl]
  exact lowercase_of_part part

namespace Index

variable {index : Index} {location : Location} {tree built : FileTree} {scheme : KeyScheme}
  {classifier : Classifier} {crawlRoot : Path} {summary : BuildSummary}
  {document : IndexedDocument}

/-- What a build has indexed are the contents of files that it has found. -/
theorem exists_file_of_mem
    (member : document ∈
      index.indexedDocuments scheme classifier crawlRoot tree summary.failed) :
    ∃ file ∈ index.crawled crawlRoot tree, file ∉ summary.failed ∧
      ∃ id content, DocumentIdentity.ofPath file crawlRoot scheme = .ok id ∧
        (index.startOf tree).read file = .ok content ∧ document.key = id.key ∧
          document.text = Text.ofBytesLossy content := by
  obtain ⟨file, listed, is⟩ := List.mem_filterMap.mp member
  obtain ⟨found, succeeded⟩ := List.mem_filter.mp listed
  obtain ⟨id, content, identified, readable, rfl⟩ := IndexedDocument.ofFile?_eq_some_iff.mp is
  exact ⟨file, found, by simpa using succeeded, id, content, identified, readable, rfl, rfl⟩

/-- The preview of a document shows its text. -/
theorem Builds.shows_hit
    (builds : index.Builds scheme classifier crawlRoot location tree summary built)
    (member : document ∈
      index.indexedDocuments scheme classifier crawlRoot tree summary.failed) (term : String) :
    Preview.Shows document.text (lowercase term)
      (index.hit built (some (lowercase term)) document.key).preview := by
  have shows := Preview.shows_ofText document.text (lowercase term)
  rw [lowercase_lowercase] at shows
  rw [hit, Option.map_some, Option.getD_some, preview, builds.load_eq member]
  exact shows

/-- **Previews of term hits.**  After a build that succeeds, every result of a search for a term
without the query cache is a file that was found, and its preview, which is never empty, shows the
first lines of its text that contain the term. -/
theorem search_previews
    (builds : index.Builds scheme classifier crawlRoot location tree summary built)
    (uncached : index.config.useQueryCache = false) (searcher : Searcher)
    (same : searcher.index = index) (term : String) :
    ∃ hits later, searcher.search term built = ((hits, later), built) ∧
      ∀ hit ∈ hits, ∃ file ∈ index.crawled crawlRoot tree, file ∉ summary.failed ∧
        ∃ id content, DocumentIdentity.ofPath file crawlRoot scheme = .ok id ∧
          (index.startOf tree).read file = .ok content ∧ hit.documentKey = id.key ∧
            hit.preview.isEmpty = false ∧
              Preview.Shows (Text.ofBytesLossy content) (lowercase term) hit.preview := by
  subst same
  refine ⟨_, _, search_uncached uncached term built, fun hit listed => ?_⟩
  obtain ⟨represents, -⟩ := builds.represents
  obtain ⟨key, passed, rfl⟩ := List.mem_map.mp listed
  obtain ⟨candidate, verified⟩ := List.mem_filter.mp passed
  obtain ⟨document, member, rfl⟩ :=
    represents.keysOf_searchTexts searcher rfl builds.generations _ key candidate
  have has : document.hasText (lowercase term) = true := by
    rw [represents.recalls.wordsMatch?_eq member] at verified
    simpa using verified
  obtain ⟨word, inside, occurs⟩ := IndexedDocument.hasText_iff.mp has
  obtain ⟨line, written, hits⟩ := Words.exists_line inside occurs
  have shows := builds.shows_hit member term
  have nonempty := shows.isEmpty_eq_false written hits
  obtain ⟨file, found, succeeded, id, content, identified, readable, keyed, text⟩ :=
    exists_file_of_mem member
  rw [text] at shows
  exact ⟨file, found, succeeded, id, content, identified, readable, keyed, nonempty, shows⟩

/-- The sample is found by a term in capitals, and some line of it is shown. -/
theorem search_previews_sample : ∃ summary built hits later,
    sampleIndex.Builds sampleScheme .standard ⟨"/src"⟩ ["index"] sampleTree summary built ∧
    Searcher.search { index := sampleIndex } "ABC" built = ((hits, later), built) ∧ hits ≠ [] ∧
      ∀ hit ∈ hits, hit.preview.isEmpty = false := by
  obtain ⟨summary, built, failed, builds⟩ := builds_sample
  obtain ⟨hits, later, found, shown⟩ :=
    search_previews builds rfl { index := sampleIndex } rfl "ABC"
  obtain ⟨hits', later', found', lists⟩ := builds.represents.1.lists_search rfl builds.generations
    (withinShards_of_failed failed _) { index := sampleIndex } rfl "ABC"
  obtain rfl : hits' = hits := by
    rw [found] at found'
    exact (congrArg (fun run => run.1.1) found').symm
  obtain ⟨document, member⟩ := exists_mem_sampleDocuments
  refine ⟨summary, built, _, later, builds, found, ?_, fun hit listed => ?_⟩
  · rw [failed] at lists
    refine lists.ne_nil member ⟨by decide, ?_⟩
    rw [hasText_sample member]
    decide
  · obtain ⟨-, -, -, -, -, -, -, -, nonempty, -⟩ := shown hit listed
    exact nonempty

end Index
end SourceSearch
