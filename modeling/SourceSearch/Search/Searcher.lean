import SourceSearch.Index.Basic
import SourceSearch.Query.Filter
import SourceSearch.Search.Intersection
import SourceSearch.Search.Preview

/-!
# Searching an index

A search narrows the documents down by trigrams and verifies what is left against the stored words
and class tags, so its result is exact.  A document whose records cannot be read is left out, and
then the result is not remembered; other results are kept in the query cache.
-/

namespace SourceSearch
namespace Index

/-- Some word of a list contains a text. -/
def someWordHas (words : List String) (part : String) : Bool := words.any (occursIn part)

/-- An excluded text rules a word list out: it has parts, and each of them is in some word. -/
def rulesOut (words : List String) (excluded : String) : Bool :=
  let parts := Words.split excluded
  !parts.isEmpty && parts.all (someWordHas words)

/-- A document has all of the required words and none of the excluded; nothing is known of one
whose words cannot be read. -/
def wordsMatch? (index : Index) (tree : FileTree) (required excluded : List String)
    (key : DocumentKey) : Option Bool :=
  match index.wordlists.words tree key with
  | .ok (some words) =>
      some (required.all (someWordHas words) && !excluded.any (rulesOut words))
  | _ => none

/-- A record carries a class tag whose value contains a text. -/
def carries (record : Metadata) (tag : String × String) : Bool :=
  match record.class? tag.1 with
  | some value => occursIn tag.2 (lowercase value)
  | none => false

/-- A document has all of the required class tags and none of the excluded; nothing is known of one
whose record cannot be read. -/
def tagsMatch? (index : Index) (tree : FileTree) (required excluded : List (String × String))
    (key : DocumentKey) : Option Bool :=
  if required.isEmpty && excluded.isEmpty then some true
  else (index.metadata.load? tree key).map fun record =>
    required.all (carries record) && !excluded.any (carries record)

/-- A document satisfies what a query demands of its words and class tags. -/
def satisfies? (index : Index) (tree : FileTree) (query : Query) (key : DocumentKey) :
    Option Bool :=
  let required := query.requiredWords
  let excluded := query.excludedWords
  let byWords :=
    if required.isEmpty && excluded.isEmpty then some true
    else index.wordsMatch? tree required excluded key
  match byWords with
  | some true => index.tagsMatch? tree query.requiredTags query.excludedTags key
  | verdict => verdict

/-- The first lines of a stored document that contain a term. -/
def preview (index : Index) (tree : FileTree) (term : String) (key : DocumentKey) : Preview :=
  match index.documents.load tree key with
  | .ok (some text) => Preview.ofText text term
  | _ => .empty

/-- A document as a result, with a preview of a term if there is one. -/
def hit (index : Index) (tree : FileTree) (term : Option String) (key : DocumentKey) :
    Hit :=
  { documentKey := key
    metadata := index.metadata.load? tree key
    preview := (term.map (index.preview tree · key)).getD .empty }

/-- Results from stored previews; a document that is listed again has no preview there. -/
def rememberedResults (index : Index) (tree : FileTree) : Previews → List DocumentKey → List Hit
  | _, [] => []
  | previews, key :: rest =>
      { documentKey := key
        metadata := index.metadata.load? tree key
        preview := (previews.find? key).getD .empty } ::
      rememberedResults index tree (previews.filterKeys (· ≠ key)) rest

/-- The results that are remembered for a query key. -/
def remembered? (index : Index) (tree : FileTree) (key : String) : Option (List Hit) :=
  if index.config.useQueryCache then
    (index.queries.result? tree key).map fun documents =>
      index.rememberedResults tree ((index.queries.previews? tree key).getD .empty) documents
  else none

/-- Remember results under a query key.  Not being able to costs time later, so it is no
failure. -/
def remember (index : Index) (key : String) (results : List Hit) : DiskM Unit := do
  let shown := results.filter (!·.preview.isEmpty)
  let previews := SortedMap.ofList (shown.map fun result => (result.documentKey, result.preview))
  let _ ← (do
    index.queries.saveResult key (results.map Hit.documentKey)
    index.queries.savePreviews key previews : TaskM Unit).run

/-- Verify documents, present those that pass, and remember the results under a query key if every
document could be verified. -/
def conclude (index : Index) (key : String) (term : Option String)
    (judge : FileTree → DocumentKey → Option Bool) (documents : SortedSet DocumentKey) :
    DiskM (List Hit) := do
  let tree ← get
  let judged := documents.toList.map fun document => (document, judge tree document)
  let passed := judged.filter (·.2 = some true)
  let results := passed.map fun entry => index.hit tree term entry.1
  if index.config.useQueryCache && judged.all (·.2.isSome) then
    index.remember key results
  return results

end Index

/-- Searches one index and keeps the diagnostics of the last search of each namespace. -/
structure Searcher where
  /-- The index. -/
  index : Index
  /-- Diagnostics of the last search for trigrams of texts. -/
  content : Details := .empty
  /-- Diagnostics of the last search for trigrams of class tags. -/
  tags : Details := .empty
  deriving DecidableEq

namespace Searcher

/-- Search for trigrams of texts. -/
def searchTexts (searcher : Searcher) (tree : FileTree) (trigrams : SortedSet Trigram) :
    SortedSet DocumentKey × Searcher :=
  let (documents, details) :=
    searcher.index.textReader.search searcher.index.config.contentAbortRatio tree trigrams
  (documents, { searcher with content := details })

/-- Search for trigrams of class tags. -/
def searchTags (searcher : Searcher) (tree : FileTree) (trigrams : SortedSet Trigram) :
    SortedSet DocumentKey × Searcher :=
  let (documents, details) :=
    searcher.index.tagReader.search searcher.index.config.metadataAbortRatio tree trigrams
  (documents, { searcher with tags := details })

/-- The documents that may contain a term; they are not verified. -/
def candidates (searcher : Searcher) (tree : FileTree) (term : String) :
    SortedSet DocumentKey × Searcher :=
  searcher.searchTexts tree (Trigram.ofWord (lowercase term))

/-- The documents with a word that contains a term. -/
def search (searcher : Searcher) (term : String) : DiskM (List Hit × Searcher) := do
  let tree ← get
  let index := searcher.index
  let key := cacheKey term
  match index.remembered? tree key with
  | some results => return (results, searcher)
  | none =>
      let needle := lowercase term
      let (documents, searcher) := searcher.candidates tree term
      let judge tree := index.wordsMatch? tree [needle] []
      return (← index.conclude key (some needle) judge documents, searcher)

/-- The documents that pass a trigram filter.  A namespace that the filter leaves open is not
searched, and a filter that leaves both open passes nothing. -/
def filtered (searcher : Searcher) (tree : FileTree) (filter : TrigramFilter)
    (mentionsTag : Bool) : SortedSet DocumentKey × Searcher :=
  let usesTags := mentionsTag && !filter.metadata.isEmpty
  if filter.content.isEmpty then
    if usesTags then searcher.searchTags tree filter.metadata else (.empty, searcher)
  else
    let (byContent, searcher) := searcher.searchTexts tree filter.content
    if usesTags then
      let (byTags, searcher) := searcher.searchTags tree filter.metadata
      (byContent.inter byTags, searcher)
    else (byContent, searcher)

/-- The documents that satisfy a query.  Only a query without a trigram filter fails; one whose
filter is empty has no results. -/
def query (searcher : Searcher) (query : Query) :
    DiskM (Except Failure (List Hit) × Searcher) := do
  match query.filter with
  | .error failure => return (.error failure, searcher)
  | .ok filter =>
      let tree ← get
      let index := searcher.index
      let key := cacheKey query.render
      match index.remembered? tree key with
      | some results => return (.ok results, searcher)
      | none =>
          let (documents, searcher) := searcher.filtered tree filter query.mentionsTag
          let judge tree := index.satisfies? tree query
          return (.ok (← index.conclude key query.requiredWords.head? judge documents), searcher)

end Searcher
end SourceSearch
