import SourceSearch.Proofs.Query.Meaning
import SourceSearch.Proofs.Search.Queries
import SourceSearch.Proofs.Words

/-!
# Queries as formulas

Without the query cache whatever a query lists has its required leaves and lacks those of the parts
that it excludes.  So it satisfies the query as a formula exactly if it satisfies none of the
excluded parts that have no leaf to look for: alternatives, constructs that cannot be evaluated,
nested exclusions, and texts without a token.
-/

namespace SourceSearch

namespace IndexedDocument

variable {document : IndexedDocument} {query part : Query}

/-- A query holds of a document as a formula: some word of the text contains each word, and the
lowercased value of the class contains each value. -/
def Holds (document : IndexedDocument) (query : Query) : Prop :=
  query.Holds (fun word => ∃ other ∈ Words.distinct document.text, occursIn word other = true)
    fun tag => ∃ value, document.record.class? tag.1 = some value ∧
      occursIn tag.2 (lowercase value) = true

/-- What a document satisfies in its words and class tags, it has as leaves. -/
theorem Satisfies.leafHolds (satisfied : document.Satisfies query) :
    ∀ leaf ∈ query.requiredLeaves, Query.LeafHolds
      (fun word => ∃ other ∈ Words.distinct document.text, occursIn word other = true)
      (fun tag => ∃ value, document.record.class? tag.1 = some value ∧
        occursIn tag.2 (lowercase value) = true) leaf := fun leaf member =>
  { word := fun word is => satisfied.hasWords word (List.mem_filterMap.mpr ⟨leaf, member, is⟩)
    tag := fun tag is => satisfied.hasTags tag (List.mem_filterMap.mpr ⟨leaf, member, is⟩) }

/-- The word of a leaf is in lowercase. -/
theorem exists_lowercase_of_leafWord? {leaf : Query} {word : String}
    (is : Query.leafWord? leaf = some word) : ∃ text, word = lowercase text := by
  cases leaf <;> cases is <;> exact ⟨_, rfl⟩

/-- The tokens of a word that is in a text are in the text. -/
theorem tokens_of_hasWord {word : String} (lower : ∃ text, word = lowercase text)
    (has : ∃ other ∈ Words.distinct document.text, occursIn word other = true) :
    ∀ token ∈ Words.split word, ∃ other ∈ Words.distinct document.text,
      occursIn token other = true := by
  obtain ⟨text, rfl⟩ := lower
  obtain ⟨other, listed, occurs⟩ := has
  intro token member
  have inside := occursIn_iff.mp (Words.occursIn_of_mem_split member)
  exact ⟨other, listed, occursIn_iff.mpr (inside.trans (occursIn_iff.mp occurs))⟩

/-- An excluded part with a leaf to look for does not hold. -/
theorem Satisfies.not_holds (satisfied : document.Satisfies query)
    (excluded : part ∈ query.exclusions) (enforced : part.isEnforced = true) :
    ¬ document.Holds part := by
  intro holds
  obtain ⟨leaf, required, looked⟩ := List.any_eq_true.mp enforced
  have has := Query.leafHolds_of_holds part holds leaf required
  have listed : leaf ∈ query.excludedLeaves := by
    rw [Query.excludedLeaves_eq]
    exact List.mem_flatMap.mpr ⟨part, excluded, required⟩
  rcases Bool.or_eq_true_iff.mp looked with tagged | worded
  · obtain ⟨tag, is⟩ := Option.isSome_iff_exists.mp tagged
    exact satisfied.lacksTags tag (List.mem_filterMap.mpr ⟨leaf, listed, is⟩) (has.tag tag is)
  · obtain ⟨word, is, tokens⟩ := (Option.any_eq_true _ _).mp worded
    have nonempty : Words.split word ≠ [] := by simpa using tokens
    exact satisfied.lacksWords word (List.mem_filterMap.mpr ⟨leaf, listed, is⟩)
      ⟨nonempty, tokens_of_hasWord (exists_lowercase_of_leafWord? is) (has.word word is)⟩

/-- What a document satisfies holds of it as a formula, if no excluded part without a leaf to look
for does. -/
theorem Satisfies.holds_iff (satisfied : document.Satisfies query)
    (admitted : query.isRefused = false) :
    document.Holds query ↔
      ∀ part ∈ query.exclusions, part.isEnforced = false → ¬ document.Holds part := by
  rw [Holds, Query.holds_iff query admitted, and_iff_right satisfied.leafHolds]
  refine forall₂_congr fun part excluded => ⟨fun fails _ => fails, fun fails => ?_⟩
  cases enforced : part.isEnforced with
  | true => exact satisfied.not_holds excluded enforced
  | false => exact fails enforced

end IndexedDocument

/-- A query is evaluated as the formula that it is: it is refused if it cannot be evaluated, and
otherwise holds of all that is listed. -/
structure Sound (documents : List IndexedDocument) (query : Query)
    (answer : Except Failure (List Hit)) : Prop where
  /-- A construct that cannot be evaluated fails, wherever it stands. -/
  refuses : query.mentionsUnsupported = true → ∃ failure, answer = .error failure
  /-- The query holds of what is listed. -/
  holds : ∀ hits, answer = .ok hits → ∀ hit ∈ hits,
    ∃ document ∈ documents, document.key = hit.documentKey ∧ document.Holds query

namespace Index

variable {index : Index} {location : Location} {tree : FileTree}
  {documents : List IndexedDocument} {query : Query} {filter : TrigramFilter}

/-- What passes a filter are keys of documents. -/
theorem Represents.keysOf_filtered (represents : index.Represents location documents tree)
    (searcher : Searcher) (same : searcher.index = index)
    (fits : index.config.maxShardGenerations ≤ Json.max32) (filter : TrigramFilter)
    (mentionsTag : Bool) : KeysOf documents (searcher.filtered tree filter mentionsTag).1 := by
  rw [Searcher.filtered]
  split
  · split
    · exact represents.keysOf_searchTags searcher same fits _
    · exact keysOf_empty documents
  · have byContent := represents.keysOf_searchTexts searcher same fits filter.content
    dsimp only
    split
    · exact byContent.inter _
    · exact byContent

/-- Every hit of a query is a document that satisfies it. -/
theorem Represents.satisfies_of_mem (represents : index.Represents location documents tree)
    (uncached : index.config.useQueryCache = false)
    (fits : index.config.maxShardGenerations ≤ Json.max32)
    (searcher : Searcher) (same : searcher.index = index) (compiled : query.filter = .ok filter)
    {hits : List Hit} (answers : (searcher.query query tree).1.1 = .ok hits) {hit : Hit}
    (listed : hit ∈ hits) :
    ∃ document ∈ documents, document.key = hit.documentKey ∧ document.Satisfies query := by
  subst same
  rw [query_uncached uncached compiled] at answers
  obtain rfl := Except.ok.inj answers
  obtain ⟨key, passed, rfl⟩ := List.mem_map.mp listed
  obtain ⟨member, verified⟩ := List.mem_filter.mp passed
  obtain ⟨document, held, rfl⟩ :=
    represents.keysOf_filtered searcher rfl fits _ _ key member
  rw [represents.recalls.satisfies?_eq held, decide_eq_true_eq, Option.some.injEq] at verified
  exact ⟨document, held, rfl, IndexedDocument.satisfies_iff.mp verified⟩

end Index

namespace Searcher

/-- A query fails exactly if it is refused. -/
theorem query_error_iff (searcher : Searcher) (query : Query) (tree : FileTree) :
    (∃ failure, (searcher.query query tree).1.1 = .error failure) ↔ query.isRefused = true := by
  rw [Query.isRefused_iff]
  cases compiled : query.filter with
  | error failure =>
      rw [Searcher.query, compiled]
      exact ⟨fun _ => ⟨failure, rfl⟩, fun _ => ⟨failure, rfl⟩⟩
  | ok filter =>
      rw [query_eq searcher compiled]
      cases searcher.index.remembered? tree (cacheKey query.render) <;> simp

end Searcher

namespace Index

variable {index : Index} {location : Location} {tree : FileTree}
  {documents : List IndexedDocument} {query : Query}

/-- A query over documents is sound exactly if it is refused, or can be evaluated and no hit
satisfies an excluded part without a leaf to look for. -/
theorem Represents.sound_iff (represents : index.Represents location documents tree)
    (uncached : index.config.useQueryCache = false)
    (fits : index.config.maxShardGenerations ≤ Json.max32)
    (searcher : Searcher) (same : searcher.index = index) (query : Query) :
    Sound documents query (searcher.query query tree).1.1 ↔
      query.isRefused = true ∨ (query.mentionsUnsupported = false ∧
        ∀ hits, (searcher.query query tree).1.1 = .ok hits → ∀ hit ∈ hits,
          ∀ document ∈ documents, document.key = hit.documentKey →
            ∀ part ∈ query.exclusions, part.isEnforced = false → ¬ document.Holds part) := by
  cases refused : query.isRefused with
  | true =>
      obtain ⟨failure, fails⟩ := (searcher.query_error_iff query tree).mpr refused
      simp only [true_or, iff_true]
      exact ⟨fun _ => ⟨failure, fails⟩, fun hits answers => absurd answers (by simp [fails])⟩
  | false =>
      obtain ⟨filter, compiled⟩ := Query.exists_filter refused
      have listed {hits : List Hit} (answers : (searcher.query query tree).1.1 = .ok hits)
          {hit : Hit} (member : hit ∈ hits) :=
        represents.satisfies_of_mem uncached fits searcher same compiled answers member
      simp only [Bool.false_eq_true, false_or]
      constructor
      · rintro ⟨refuses, holds⟩
        refine ⟨Bool.eq_false_iff.mpr fun mentioned => ?_, fun hits answers hit member document held
          key => ?_⟩
        · have fails := (searcher.query_error_iff query tree).mp (refuses mentioned)
          rw [refused] at fails
          cases fails
        · obtain ⟨_, found, known, satisfied⟩ := listed answers member
          obtain ⟨_, sound, keyed, formula⟩ := holds hits answers hit member
          obtain rfl := eq_of_key_eq represents.distinct held found (key.trans known.symm)
          obtain rfl := eq_of_key_eq represents.distinct held sound (key.trans keyed.symm)
          exact (satisfied.holds_iff refused).mp formula
      · rintro ⟨supported, spared⟩
        refine ⟨fun mentioned => absurd mentioned (by simp [supported]),
          fun hits answers hit member => ?_⟩
        obtain ⟨document, found, known, satisfied⟩ := listed answers member
        exact ⟨document, found, known, (satisfied.holds_iff refused).mpr
          (spared hits answers hit member document found known)⟩

/-- **Queries as formulas.**  After a build that succeeds, a query without the query cache is
evaluated as the formula that it is exactly if it is refused, or can be evaluated and no hit
satisfies an excluded part without a leaf to look for. -/
theorem query_sound_iff {scheme : KeyScheme} {classifier : Classifier} {crawlRoot : Path}
    {summary : BuildSummary} {built : FileTree}
    (builds : index.Builds scheme classifier crawlRoot location tree summary built)
    (uncached : index.config.useQueryCache = false) (searcher : Searcher)
    (same : searcher.index = index) (query : Query) :
    Sound (index.indexedDocuments scheme classifier crawlRoot tree summary.failed) query
        (searcher.query query built).1.1 ↔
      query.isRefused = true ∨ (query.mentionsUnsupported = false ∧
        ∀ hits, (searcher.query query built).1.1 = .ok hits → ∀ hit ∈ hits,
          ∀ document ∈ index.indexedDocuments scheme classifier crawlRoot tree summary.failed,
            document.key = hit.documentKey →
              ∀ part ∈ query.exclusions, part.isEnforced = false → ¬ document.Holds part) :=
  builds.represents.1.sound_iff uncached builds.generations searcher same query

/-- A query that excludes alternatives which its own word satisfies. -/
def contradictoryQuery : Query := .all [.text "abc", .excluding (.any [.text "abc"])]

/-- In the sample a query lists a document although it excludes alternatives which the document
satisfies. -/
theorem query_sound_iff_sample : ∃ summary built,
    sampleIndex.Builds sampleScheme .standard ⟨"/src"⟩ ["index"] sampleTree summary built ∧
      ¬ Sound sampleDocuments contradictoryQuery
        (Searcher.query { index := sampleIndex } contradictoryQuery built).1.1 := by
  obtain ⟨summary, built, failed, builds⟩ := builds_sample
  refine ⟨summary, built, builds, fun sound => ?_⟩
  have exact := query_sound_iff builds rfl { index := sampleIndex } rfl contradictoryQuery
  have represents := builds.represents.1
  rw [failed] at exact represents
  rcases exact.mp sound with refused | ⟨-, spared⟩
  · cases refused
  have compiled : contradictoryQuery.filter = .ok _ := rfl
  obtain ⟨hits, later, answers, -, lists⟩ := represents.lists_query rfl (by decide)
    (withinShards_sample _) (withinShards_sample _) { index := sampleIndex } rfl compiled
  obtain ⟨document, member⟩ := exists_mem_sampleDocuments
  have satisfied : document.satisfies contradictoryQuery = true := by
    have single : document.satisfies contradictoryQuery =
        ((document.hasText (lowercase "abc") && true && !false) && (true && !false)) := rfl
    rw [single, hasText_sample member]
    decide
  obtain ⟨hit, listed, key, -⟩ :=
    ((lists (by decide)).exact document.key (some document.record)).mpr
    ⟨document, member, IndexedDocument.satisfies_iff.mp satisfied, rfl, rfl⟩
  refine spared hits (by rw [answers]) hit listed document member key.symm (.any [.text "abc"])
    (by simp [contradictoryQuery, Query.exclusions, Query.exclusionsOf]) (by decide) (.inl ?_)
  exact ⟨"abc", by rw [text_of_mem_sampleDocuments member]; decide, by decide⟩

end Index
end SourceSearch
