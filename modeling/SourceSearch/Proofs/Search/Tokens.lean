import SourceSearch.Proofs.Search.Pieces
import SourceSearch.Proofs.Search.Queries

/-!
# Demands on tokens

A query may want some tokens in a text and others not.  The words that are stored of a text are its
tokens of three characters and more, so that is what both demands are about: a shorter token counts
where it is part of a longer one, and nowhere else.
-/

namespace SourceSearch

namespace Words

/-- The text is a single token. -/
def IsToken (text : String) : Prop := split text = [lowercase text]

instance (text : String) : Decidable (IsToken text) :=
  inferInstanceAs (Decidable (split text = [lowercase text]))

theorem split_lowercase (text : String) : split (lowercase text) = split text := by
  rw [split, lowercase, String.toList_ofList, Text.lowercase_lowercase, ← split]

end Words

namespace Query

/-- A query that wants a token, or wants it not to be there. -/
inductive DemandsToken : Query → Prop where
  /-- The token is wanted. -/
  | wanted {word : String} (token : Words.IsToken word) : DemandsToken (text word)
  /-- The token is unwanted. -/
  | unwanted {word : String} (token : Words.IsToken word) : DemandsToken (excluding (text word))

variable {parts : List Query}

theorem mem_requiredLeavesOf {leaf : Query} :
    leaf ∈ requiredLeavesOf parts ↔ ∃ part ∈ parts, leaf ∈ part.requiredLeaves := by
  induction parts with
  | nil => simp [requiredLeavesOf]
  | cons part rest ih => simp [requiredLeavesOf, ih]

theorem mem_excludedLeavesOf {leaf : Query} :
    leaf ∈ excludedLeavesOf parts ↔ ∃ part ∈ parts, leaf ∈ part.excludedLeaves := by
  induction parts with
  | nil => simp [excludedLeavesOf]
  | cons part rest ih => simp [excludedLeavesOf, ih]

section Demands

variable (demands : ∀ part ∈ parts, DemandsToken part)

include demands

/-- What has to be there are the wanted tokens. -/
theorem mem_requiredLeaves_iff {leaf : Query} :
    leaf ∈ (all parts).requiredLeaves ↔ leaf ∈ parts ∧ ∃ word, leaf = text word := by
  rw [requiredLeaves, mem_requiredLeavesOf]
  constructor
  · rintro ⟨part, member, inside⟩
    cases demands part member with
    | wanted token =>
        obtain rfl := List.mem_singleton.mp inside
        exact ⟨member, _, rfl⟩
    | unwanted token => cases inside
  · rintro ⟨member, word, rfl⟩
    exact ⟨_, member, List.mem_singleton_self _⟩

/-- What may not be there are the unwanted tokens. -/
theorem mem_excludedLeaves_iff {leaf : Query} :
    leaf ∈ (all parts).excludedLeaves ↔ excluding leaf ∈ parts := by
  rw [excludedLeaves, mem_excludedLeavesOf]
  constructor
  · rintro ⟨part, member, inside⟩
    cases demands part member with
    | wanted token => cases inside
    | unwanted token =>
        obtain rfl := List.mem_singleton.mp inside
        exact member
  · intro member
    refine ⟨_, member, ?_⟩
    cases demands _ member with
    | unwanted token => exact List.mem_singleton_self _

theorem mem_requiredWords_iff {part : String} :
    part ∈ (all parts).requiredWords ↔ ∃ word, text word ∈ parts ∧ lowercase word = part := by
  rw [requiredWords, List.mem_filterMap]
  constructor
  · rintro ⟨leaf, required, is⟩
    obtain ⟨member, word, rfl⟩ := (mem_requiredLeaves_iff demands).mp required
    exact ⟨word, member, Option.some.inj is⟩
  · rintro ⟨word, member, rfl⟩
    exact ⟨_, (mem_requiredLeaves_iff demands).mpr ⟨member, word, rfl⟩, rfl⟩

theorem mem_excludedWords_iff {part : String} :
    part ∈ (all parts).excludedWords ↔
      ∃ word, excluding (text word) ∈ parts ∧ lowercase word = part := by
  rw [excludedWords, List.mem_filterMap]
  constructor
  · rintro ⟨leaf, excluded, is⟩
    have member := (mem_excludedLeaves_iff demands).mp excluded
    cases demands _ member with
    | unwanted token => exact ⟨_, member, Option.some.inj is⟩
  · rintro ⟨word, member, rfl⟩
    exact ⟨_, (mem_excludedLeaves_iff demands).mpr member, rfl⟩

theorem requiredTags_eq_nil : (all parts).requiredTags = [] := by
  refine List.filterMap_eq_nil_iff.mpr fun leaf required => ?_
  obtain ⟨-, word, rfl⟩ := (mem_requiredLeaves_iff demands).mp required
  rfl

theorem excludedTags_eq_nil : (all parts).excludedTags = [] := by
  refine List.filterMap_eq_nil_iff.mpr fun leaf excluded => ?_
  cases demands _ ((mem_excludedLeaves_iff demands).mp excluded) with
  | unwanted token => rfl

/-- Demands on tokens have a filter, which requires the trigrams of all wanted tokens. -/
theorem exists_filter_all : ∃ filter, (all parts).filter = .ok filter ∧
    ∀ word, text word ∈ parts → ∀ trigram ∈ Trigram.ofWord (lowercase word),
      trigram ∈ filter.content := by
  rw [filter]
  suffices ∀ found, ∃ filter, filterAll parts found = .ok filter ∧
      (∀ trigram ∈ found.content, trigram ∈ filter.content) ∧
      ∀ word, text word ∈ parts → ∀ trigram ∈ Trigram.ofWord (lowercase word),
        trigram ∈ filter.content by
    obtain ⟨filter, compiled, -, contains⟩ := this (.trigrams .empty .empty)
    exact ⟨filter, compiled, contains⟩
  induction parts with
  | nil => exact fun found => ⟨found, rfl, fun _ => id, fun word member => by cases member⟩
  | cons part rest ih =>
      intro found
      rw [List.forall_mem_cons] at demands
      obtain ⟨first, compiled⟩ : ∃ first, part.filter = .ok first := by
        cases demands.1 <;> exact ⟨_, rfl⟩
      obtain ⟨filter, others, keeps, contains⟩ := ih demands.2 (found.both first)
      refine ⟨filter, by rw [filterAll, compiled]; exact others,
        fun trigram member => keeps trigram (SortedSet.mem_union.mpr (.inl member)),
        fun word member trigram inside => ?_⟩
      rcases List.mem_cons.mp member with rfl | member
      · cases compiled
        exact keeps trigram (SortedSet.mem_union.mpr (.inr inside))
      · exact contains word member trigram inside

/-- Some trigram is required if a token of three characters is wanted. -/
theorem exists_filter_all_restricts {word : String} (wanted : text word ∈ parts)
    (wide : 3 ≤ word.length) :
    ∃ filter, (all parts).filter = .ok filter ∧ filter.isEmpty = false := by
  obtain ⟨filter, compiled, contains⟩ := exists_filter_all demands
  have wide' := Nat.le_trans wide (Words.length_le_lowercase word)
  have some : (Trigram.ofWord (lowercase word)).isEmpty = false := by
    rw [Trigram.isEmpty_ofWord, decide_eq_false_iff_not]
    omega
  refine ⟨filter, compiled, ?_⟩
  rw [TrigramFilter.isEmpty, Bool.and_eq_false_iff]
  refine .inl (Bool.eq_false_iff.mpr fun empty => Bool.eq_false_iff.mp some ?_)
  exact SortedSet.isEmpty_iff.mpr fun trigram inside =>
    SortedSet.isEmpty_iff.mp empty trigram (contains word wanted trigram inside)

end Demands

end Query

namespace IndexedDocument

/-- A token of three characters or more contains the lowercased word. -/
def HasToken (document : IndexedDocument) (word : String) : Prop :=
  ∃ token ∈ Words.tokens document.text, 3 ≤ token.length ∧ occursIn (lowercase word) token = true

variable {document : IndexedDocument} {parts : List Query} {word : String}

theorem hasToken_iff : document.HasToken word ↔
    ∃ stored ∈ Words.distinct document.text, occursIn (lowercase word) stored = true := by
  simp only [HasToken, Words.mem_distinct_iff, and_assoc]

/-- A token of a text is there, if it has three characters. -/
theorem hasToken_of_mem (wide : 3 ≤ (lowercase word).length)
    (member : lowercase word ∈ Words.tokens document.text) : document.HasToken word :=
  ⟨_, member, wide, occursIn_iff.mpr List.infix_rfl⟩

/-- A document satisfies demands on tokens if it has the wanted ones and none of the others. -/
theorem satisfies_all_iff (document : IndexedDocument)
    (demands : ∀ part ∈ parts, part.DemandsToken) :
    document.Satisfies (.all parts) ↔
      (∀ word, .text word ∈ parts → document.HasToken word) ∧
        ∀ word, .excluding (.text word) ∈ parts → ¬ document.HasToken word := by
  have lacks {word : String} (member : .excluding (.text word) ∈ parts) :
      (Words.split (lowercase word) ≠ [] ∧ ∀ part ∈ Words.split (lowercase word),
        ∃ stored ∈ Words.distinct document.text, occursIn part stored = true) ↔
          document.HasToken word := by
    cases demands _ member with
    | unwanted token =>
        rw [Words.split_lowercase, token, hasToken_iff]
        simp
  constructor
  · rintro ⟨hasWords, lacksWords, -, -⟩
    exact ⟨fun word member => hasToken_iff.mpr
        (hasWords _ ((Query.mem_requiredWords_iff demands).mpr ⟨word, member, rfl⟩)),
      fun word member has => lacksWords _
        ((Query.mem_excludedWords_iff demands).mpr ⟨word, member, rfl⟩) ((lacks member).mpr has)⟩
  · rintro ⟨wanted, unwanted⟩
    refine ⟨fun part required => ?_, fun part excluded => ?_, fun tag required => ?_,
      fun tag excluded => ?_⟩
    · obtain ⟨word, member, rfl⟩ := (Query.mem_requiredWords_iff demands).mp required
      exact hasToken_iff.mp (wanted word member)
    · obtain ⟨word, member, rfl⟩ := (Query.mem_excludedWords_iff demands).mp excluded
      rw [lacks member]
      exact unwanted word member
    · rw [Query.requiredTags_eq_nil demands] at required
      cases required
    · rw [Query.excludedTags_eq_nil demands] at excluded
      cases excluded

end IndexedDocument

namespace Index

variable {index : Index} {location : Location} {tree : FileTree} {parts : List Query}

/-- Demands on tokens, one of which wants a token of three characters, list the documents that have
the wanted tokens and none of the others. -/
theorem Represents.lists_demands {documents : List IndexedDocument}
    (represents : index.Represents location documents tree)
    (uncached : index.config.useQueryCache = false)
    (fits : index.config.maxShardGenerations ≤ Json.max32)
    (texts : index.WithinShards IndexedDocument.trigrams documents)
    (tags : index.WithinShards (fun document => document.record.tagTrigrams) documents)
    (searcher : Searcher) (same : searcher.index = index) (parts : List Query)
    (demands : ∀ part ∈ parts, part.DemandsToken) {word : String} (wanted : .text word ∈ parts)
    (wide : 3 ≤ word.length) :
    ∃ hits later, searcher.query (.all parts) tree = ((.ok hits, later), tree) ∧
      Lists documents (fun document =>
        (∀ word, .text word ∈ parts → document.HasToken word) ∧
          ∀ word, .excluding (.text word) ∈ parts → ¬ document.HasToken word) hits := by
  obtain ⟨filter, compiled, nonempty⟩ := Query.exists_filter_all_restricts demands wanted wide
  obtain ⟨hits, later, run, -, lists⟩ :=
    represents.lists_query uncached fits texts tags searcher same compiled
  exact ⟨hits, later, run, (lists nonempty).congr fun document _ =>
    IndexedDocument.satisfies_all_iff document demands⟩

/-- **Tokens of three characters and more are required and excluded exactly.**  After a build that
succeeds, a query of demands on tokens, one of which wants a token of three characters or more,
lists exactly the documents in which every wanted token is part of a token of three characters or
more, and no unwanted one is.  So an unwanted token of that length keeps out each document that it
stands in, and a document in which all wanted tokens stand with that length is found unless an
unwanted one is within any of its tokens. -/
theorem tokens_demanded {scheme : KeyScheme} {classifier : Classifier} {crawlRoot : Path}
    {summary : BuildSummary} {built : FileTree}
    (builds : index.Builds scheme classifier crawlRoot location tree summary built)
    (uncached : index.config.useQueryCache = false)
    (texts : index.WithinShards IndexedDocument.trigrams
      (index.indexedDocuments scheme classifier crawlRoot tree summary.failed))
    (tags : index.WithinShards (fun document => document.record.tagTrigrams)
      (index.indexedDocuments scheme classifier crawlRoot tree summary.failed))
    (searcher : Searcher) (same : searcher.index = index) (parts : List Query)
    (demands : ∀ part ∈ parts, part.DemandsToken)
    (restricts : ∃ word, .text word ∈ parts ∧ 3 ≤ word.length) :
    (∀ file ∈ index.crawled crawlRoot tree, file ∉ summary.failed →
      (IndexedDocument.ofFile? scheme classifier crawlRoot (index.startOf tree) file).isSome) ∧
    ∃ hits later, searcher.query (.all parts) built = ((.ok hits, later), built) ∧
      Lists (index.indexedDocuments scheme classifier crawlRoot tree summary.failed)
        (fun document =>
          (∀ word, .text word ∈ parts → document.HasToken word) ∧
            ∀ word, .excluding (.text word) ∈ parts → ¬ document.HasToken word) hits ∧
      ∀ document ∈ index.indexedDocuments scheme classifier crawlRoot tree summary.failed,
        ((∃ word, .excluding (.text word) ∈ parts ∧ 3 ≤ (lowercase word).length ∧
            lowercase word ∈ Words.tokens document.text) →
          ∀ hit ∈ hits, hit.documentKey ≠ document.key) ∧
        ((∀ word, .text word ∈ parts →
            3 ≤ (lowercase word).length ∧ lowercase word ∈ Words.tokens document.text) →
          (∀ word, .excluding (.text word) ∈ parts →
            ∀ token ∈ Words.tokens document.text, occursIn (lowercase word) token = false) →
          ∃ hit ∈ hits, hit.documentKey = document.key ∧
            hit.metadata = some document.record) := by
  obtain ⟨represents, complete⟩ := builds.represents
  obtain ⟨word, wanted, wide⟩ := restricts
  obtain ⟨hits, later, run, lists⟩ := represents.lists_demands uncached builds.generations texts
    tags searcher same parts demands wanted wide
  refine ⟨complete, hits, later, run, lists, fun document member => ⟨?_, fun wanted unwanted => ?_⟩⟩
  · rintro ⟨word, unwanted, wide, token⟩ hit listed is
    obtain ⟨other, member', ⟨-, lacks⟩, key, -⟩ := (lists.exact _ _).mp ⟨hit, listed, is, rfl⟩
    obtain rfl := eq_of_key_eq represents.distinct member' member key
    exact lacks word unwanted (IndexedDocument.hasToken_of_mem wide token)
  · refine (lists.exact _ _).mpr ⟨document, member, ⟨fun word listed => ?_,
      fun word listed => ?_⟩, rfl, rfl⟩
    · exact IndexedDocument.hasToken_of_mem (wanted word listed).1 (wanted word listed).2
    · rintro ⟨token, inside, -, occurs⟩
      rw [unwanted word listed token inside] at occurs
      cases occurs

theorem tokens_sigma {document : IndexedDocument} (member : document ∈ sigmaDocuments) :
    Words.tokens document.text = ["οδοσα", "ab"] := by
  rw [text_of_mem_sigmaDocuments member]
  decide +kernel

theorem isToken_sigma : Words.IsToken "ΟΔΟΣΑ" ∧ Words.IsToken "ab" ∧ Words.IsToken "beta" := by
  decide +kernel

/-- A word is found without another that is not there, and not with it. -/
theorem tokens_demanded_sigma : ∃ summary built, summary.failed = [] ∧
    sampleIndex.Builds sampleScheme .standard ⟨"/src"⟩ ["index"] sigmaTree summary built ∧
    (∃ hits later, Searcher.query { index := sampleIndex }
        (.all [.text "ΟΔΟΣΑ", .excluding (.text "beta")]) built = ((.ok hits, later), built) ∧
      ∀ document ∈ sigmaDocuments, ∃ hit ∈ hits, hit.documentKey = document.key) ∧
    ∃ later, Searcher.query { index := sampleIndex }
      (.all [.text "beta", .excluding (.text "ΟΔΟΣΑ")]) built = ((.ok [], later), built) := by
  obtain ⟨summary, built, failed, builds⟩ := builds_sigma
  have within (trigramsOf : IndexedDocument → SortedSet Trigram) :
      sampleIndex.WithinShards trigramsOf (sampleIndex.indexedDocuments sampleScheme .standard
        ⟨"/src"⟩ sigmaTree summary.failed) := by
    rw [failed]
    exact withinShards_sigma _
  obtain ⟨greek, -, beta⟩ := isToken_sigma
  obtain ⟨-, hits, later, run, -, demanded⟩ := tokens_demanded builds rfl (within _) (within _)
    { index := sampleIndex } rfl [.text "ΟΔΟΣΑ", .excluding (.text "beta")]
    (List.forall_mem_cons.mpr ⟨.wanted greek, List.forall_mem_singleton.mpr (.unwanted beta)⟩)
    ⟨"ΟΔΟΣΑ", List.mem_cons_self, by decide⟩
  obtain ⟨-, none, later', run', lists, -⟩ := tokens_demanded builds rfl (within _) (within _)
    { index := sampleIndex } rfl [.text "beta", .excluding (.text "ΟΔΟΣΑ")]
    (List.forall_mem_cons.mpr ⟨.wanted beta, List.forall_mem_singleton.mpr (.unwanted greek)⟩)
    ⟨"beta", List.mem_cons_self, by decide⟩
  rw [failed] at demanded lists
  have lost : none = [] := lists.eq_nil fun document member ⟨wanted, _⟩ => by
    have has := wanted "beta" List.mem_cons_self
    rw [IndexedDocument.HasToken, tokens_sigma member] at has
    exact absurd has (by decide +kernel)
  refine ⟨summary, built, failed, builds, ⟨hits, later, run, fun document member => ?_⟩, later',
    lost ▸ run'⟩
  obtain ⟨hit, listed, is, -⟩ := (demanded document member).2
    (fun word listed => by
      obtain rfl : word = "ΟΔΟΣΑ" := by simpa using listed
      rw [tokens_sigma member]
      decide +kernel)
    (fun word listed => by
      obtain rfl : word = "beta" := by simpa using listed
      rw [tokens_sigma member]
      decide +kernel)
  exact ⟨hit, listed, is⟩

/-- A token of two letters that is unwanted does not keep out the text that it stands in, and the
text is not found by it. -/
theorem short_tokens_overlooked : ∃ summary built, summary.failed = [] ∧
    sampleIndex.Builds sampleScheme .standard ⟨"/src"⟩ ["index"] sigmaTree summary built ∧
    sampleIndex.config.useQueryCache = false ∧
    (∀ trigramsOf, sampleIndex.WithinShards trigramsOf sigmaDocuments) ∧
    Words.IsToken "ΟΔΟΣΑ" ∧ Words.IsToken "ab" ∧
    ∃ document ∈ sigmaDocuments,
      (∀ word ∈ ["ΟΔΟΣΑ", "ab"], lowercase word ∈ Words.tokens document.text) ∧
      (∃ hits later, Searcher.query { index := sampleIndex }
          (.all [.text "ΟΔΟΣΑ", .excluding (.text "ab")]) built = ((.ok hits, later), built) ∧
        ∃ hit ∈ hits, hit.documentKey = document.key) ∧
      ∃ later, Searcher.query { index := sampleIndex } (.all [.text "ΟΔΟΣΑ", .text "ab"]) built =
        ((.ok [], later), built) := by
  obtain ⟨summary, built, failed, builds⟩ := builds_sigma
  obtain ⟨represents, -⟩ := builds.represents
  rw [failed] at represents
  have long {document : IndexedDocument} (member : document ∈ sigmaDocuments) :
      document.HasToken "ΟΔΟΣΑ" := by
    rw [IndexedDocument.HasToken, tokens_sigma member]
    decide +kernel
  have short {document : IndexedDocument} (member : document ∈ sigmaDocuments) :
      ¬ document.HasToken "ab" := by
    rw [IndexedDocument.HasToken, tokens_sigma member]
    decide +kernel
  obtain ⟨greek, ab, -⟩ := isToken_sigma
  obtain ⟨hits, later, run, lists⟩ := represents.lists_demands rfl builds.generations
    (withinShards_sigma _) (withinShards_sigma _) { index := sampleIndex } rfl
    [.text "ΟΔΟΣΑ", .excluding (.text "ab")]
    (List.forall_mem_cons.mpr ⟨.wanted greek, List.forall_mem_singleton.mpr (.unwanted ab)⟩)
    List.mem_cons_self (by decide)
  obtain ⟨none, later', run', lists'⟩ := represents.lists_demands rfl builds.generations
    (withinShards_sigma _) (withinShards_sigma _) { index := sampleIndex } rfl
    [.text "ΟΔΟΣΑ", .text "ab"]
    (List.forall_mem_cons.mpr ⟨.wanted greek, List.forall_mem_singleton.mpr (.wanted ab)⟩)
    List.mem_cons_self (by decide)
  have lost : none = [] := lists'.eq_nil fun document member ⟨wanted, _⟩ =>
    short member (wanted "ab" (by simp))
  obtain ⟨document, member⟩ := exists_mem_sigmaDocuments
  obtain ⟨hit, listed, is, -⟩ := (lists.exact _ _).mpr ⟨document, member,
    ⟨fun word listed => by
      obtain rfl : word = "ΟΔΟΣΑ" := by simpa using listed
      exact long member,
    fun word listed => by
      obtain rfl : word = "ab" := by simpa using listed
      exact short member⟩, rfl, rfl⟩
  refine ⟨summary, built, failed, builds, rfl, withinShards_sigma, greek, ab, document, member, ?_,
    ⟨hits, later, run, hit, listed, is⟩, later', lost ▸ run'⟩
  rw [tokens_sigma member]
  decide +kernel

end Index
end SourceSearch
