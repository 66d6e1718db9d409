import SourceSearch.Document.Key
import SourceSearch.Json.Decode
import SourceSearch.Trigram

/-!
# Postings records

The postings list of a trigram is the union of its shards, which are numbered by generation.  A
count record beside them declares how many postings the shards hold together.
-/

namespace SourceSearch

/-- One shard of a postings list. -/
structure StoredShard where
  /-- The documents that contain the trigram. -/
  documents : SortedSet DocumentKey
  /-- The number of the shard. -/
  generation : Nat
  /-- The trigram. -/
  trigram : Trigram
  deriving DecidableEq

namespace StoredShard

/-- The written form of a shard. -/
def toJson (record : StoredShard) : Json :=
  .record [
    ("relatedDocuments", .ofTexts record.documents.toList),
    ("indexGeneration", .ofNat record.generation),
    ("trigram", .ofText record.trigram)]

/-- Read a shard. -/
def ofJson? (json : Json) : Option StoredShard := do
  let fields ← json.fields? ["relatedDocuments", "indexGeneration", "trigram"]
  let documents ← fields.required 0 Json.toTextSet?
  let generation ← fields.required 1 (Json.toNat? Json.max32)
  let trigram ← fields.required 2 Json.toText?
  return { documents, generation, trigram }

end StoredShard

/-- The declared number of postings of a trigram. -/
structure StoredCount where
  /-- The trigram. -/
  trigram : Trigram
  /-- The number of postings in all shards. -/
  count : Nat
  deriving DecidableEq

namespace StoredCount

/-- The written form of a count. -/
def toJson (record : StoredCount) : Json :=
  .record [
    ("trigram", .ofText record.trigram),
    ("relatedDocumentsCount", .ofNat record.count)]

/-- Read a count. -/
def ofJson? (json : Json) : Option StoredCount := do
  let fields ← json.fields? ["trigram", "relatedDocumentsCount"]
  let trigram ← fields.required 0 Json.toText?
  let count ← fields.required 1 (Json.toNat? Json.max64)
  return { trigram, count }

end StoredCount
end SourceSearch
