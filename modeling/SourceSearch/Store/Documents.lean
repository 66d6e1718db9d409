import SourceSearch.Document.Metadata
import SourceSearch.Search.Details
import SourceSearch.Store.Basic

/-!
# The stores of an index

Each store lies in a folder of its own below the index root: copies of the documents, what was
extracted from their texts, their records, and the results of earlier queries.
-/

namespace SourceSearch

/-- The folder with copies of the documents. -/
def documentsFolder : String := "cachedDocuments"
/-- The folder with word lists, trigrams and frequencies. -/
def wordlistsFolder : String := "cachedWordlists"
/-- The folder with document records. -/
def metadataFolder : String := "cachedMetadata"
/-- The folder with results of queries. -/
def queriesFolder : String := "cachedQueries"

/-- The suffix of document copies. -/
def contentSuffix : String := ".originalContent"
/-- The suffix of word lists. -/
def wordlistSuffix : String := ".wordlist"
/-- The suffix of trigram sets. -/
def trigramsSuffix : String := ".trigrams"
/-- The suffix of trigram frequencies. -/
def frequenciesSuffix : String := ".ttfcount"
/-- The suffix of document records. -/
def metadataSuffix : String := ".metadata"
/-- The suffix of query results. -/
def resultSuffix : String := ".querycache"
/-- The suffix of previews of query results. -/
def previewSuffix : String := ".previewcache"

/-- Copies of the documents as they were indexed. -/
structure DocumentStore extends Store

namespace DocumentStore

/-- Keep a copy of a document. -/
def save (store : DocumentStore) (key : DocumentKey) (content : ByteArray) : TaskM Unit :=
  store.put key contentSuffix content

/-- The text of a document, invalid bytes replaced. -/
def load (store : DocumentStore) (tree : FileTree) (key : DocumentKey) :
    Except Failure (Option String) :=
  (store.get tree key contentSuffix).map (·.map Text.ofBytesLossy)

end DocumentStore

/-- What was extracted from the texts of the documents. -/
structure WordlistStore extends Store

namespace WordlistStore

/-- Keep a word list. -/
def saveWords (store : WordlistStore) (key : DocumentKey) (words : List String) : TaskM Unit :=
  store.putRecord key wordlistSuffix (.ofTexts words)

/-- Keep a set of trigrams. -/
def saveTrigrams (store : WordlistStore) (key : DocumentKey) (trigrams : SortedSet Trigram) :
    TaskM Unit :=
  store.putRecord key trigramsSuffix (.ofTexts trigrams.toList)

/-- Keep the frequencies of trigrams. -/
def saveFrequencies (store : WordlistStore) (key : DocumentKey)
    (frequencies : SortedMap Trigram Nat) : TaskM Unit :=
  store.putRecord key frequenciesSuffix (.ofMap .ofNat frequencies)

/-- Keep an extraction: words, then trigrams, then frequencies. -/
def save (store : WordlistStore) (key : DocumentKey) (extraction : Extraction) : TaskM Unit := do
  store.saveWords key extraction.wordlist
  store.saveTrigrams key extraction.trigrams
  store.saveFrequencies key extraction.frequencies

/-- The word list of a document. -/
def words (store : WordlistStore) (tree : FileTree) (key : DocumentKey) :
    Except Failure (Option (List String)) :=
  store.getRecord tree Json.toTexts? key wordlistSuffix

/-- The trigrams of a document. -/
def trigrams (store : WordlistStore) (tree : FileTree) (key : DocumentKey) :
    Except Failure (Option (SortedSet Trigram)) :=
  store.getRecord tree Json.toTextSet? key trigramsSuffix

/-- Read the frequencies of trigrams. -/
def decodeFrequencies? : Json → Option (SortedMap Trigram Nat) :=
  Json.toTextMap? (Json.toNat? Json.max64)

/-- The trigram frequencies of a document. -/
def frequencies (store : WordlistStore) (tree : FileTree) (key : DocumentKey) :
    Except Failure (Option (SortedMap Trigram Nat)) :=
  store.getRecord tree decodeFrequencies? key frequenciesSuffix

end WordlistStore

/-- The records of the documents. -/
structure MetadataStore extends Store

namespace MetadataStore

/-- Keep a record under its key. -/
def save (store : MetadataStore) (record : Metadata) : TaskM Unit :=
  store.putRecord record.documentKey metadataSuffix record.toJson

/-- The record of a document. -/
def load (store : MetadataStore) (tree : FileTree) (key : DocumentKey) :
    Except Failure (Option Metadata) :=
  store.getRecord tree Metadata.ofJson? key metadataSuffix

/-- The record of a document, if it can be read. -/
def load? (store : MetadataStore) (tree : FileTree) (key : DocumentKey) : Option Metadata :=
  match store.load tree key with
  | .ok record => record
  | .error _ => none

/-- The keys of all records, sorted. -/
def keys (store : MetadataStore) (tree : FileTree) : Except Failure (List DocumentKey) :=
  store.toStore.keys tree metadataSuffix

end MetadataStore

/-- Previews of the documents of a result by key. -/
abbrev Previews := SortedMap DocumentKey Preview

/-- The text that stands for a query in the cache: blanks at the ends dropped, those between words
reduced to one, and each word lowercased. -/
def cacheText (query : String) : String :=
  " ".intercalate ((Text.tokens query.toList).map fun token =>
    String.ofList (Text.lowercase token))

/-- The key of a query in the cache. -/
def cacheKey (query : String) : String :=
  Digest.hex (Digest.Md5.digest (cacheText query).toUTF8.data.toList)

/-- Results of earlier queries.  Reading never fails: what cannot be read was not stored. -/
structure QueryStore extends Store

namespace QueryStore

/-- A result is stored under the key. -/
def has (store : QueryStore) (tree : FileTree) (key : String) : Bool :=
  store.contains tree key resultSuffix

/-- Keep the documents of a result. -/
def saveResult (store : QueryStore) (key : String) (documents : List DocumentKey) : TaskM Unit :=
  store.putRecord key resultSuffix (.ofTexts documents)

/-- The documents of a result. -/
def result? (store : QueryStore) (tree : FileTree) (key : String) : Option (List DocumentKey) :=
  match store.getRecord tree Json.toTexts? key resultSuffix with
  | .ok documents => documents
  | .error _ => none

/-- The written form of previews. -/
def encodePreviews (previews : Previews) : Json := .ofMap (.ofNatMap .ofText) previews

/-- Read the written form of previews. -/
def decodePreviews? : Json → Option Previews := Json.toTextMap? (Json.toNatMap? Json.toText?)

/-- Keep the previews of a result. -/
def savePreviews (store : QueryStore) (key : String) (previews : Previews) : TaskM Unit :=
  store.putRecord key previewSuffix (encodePreviews previews)

/-- The previews of a result. -/
def previews? (store : QueryStore) (tree : FileTree) (key : String) : Option Previews :=
  match store.getRecord tree decodePreviews? key previewSuffix with
  | .ok previews => previews
  | .error _ => none

end QueryStore
end SourceSearch
