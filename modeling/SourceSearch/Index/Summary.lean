import SourceSearch.Json.Decode
import SourceSearch.Path

/-!
# Summaries of indexing
-/

namespace SourceSearch

/-- The summary of an indexing run. -/
structure BuildSummary where
  /-- The number of documents whose texts were indexed. -/
  indexedDocuments : Nat := 0
  /-- The number of documents whose class tags were indexed. -/
  metadataDocuments : Nat := 0
  /-- The files that could not be indexed. -/
  failed : List Path := []
  /-- The number of different trigrams of texts. -/
  contentTrigrams : Nat := 0
  /-- The number of different trigrams of class tags. -/
  metadataTrigrams : Nat := 0
  deriving DecidableEq

namespace BuildSummary

/-- The written form. -/
def toJson (summary : BuildSummary) : Json :=
  .record [
    ("indexed_documents", .ofNat summary.indexedDocuments),
    ("metadata_documents", .ofNat summary.metadataDocuments),
    ("failed", .ofTexts (summary.failed.map Path.text)),
    ("content_trigrams", .ofNat summary.contentTrigrams),
    ("metadata_trigrams", .ofNat summary.metadataTrigrams)]

/-- Read the written form. -/
def ofJson? (json : Json) : Option BuildSummary := do
  let fields ← json.fields?
    ["indexed_documents", "metadata_documents", "failed", "content_trigrams", "metadata_trigrams"]
  let number place := fields.required place (Json.toNat? Json.max64)
  let indexedDocuments ← number 0
  let metadataDocuments ← number 1
  let failed ← fields.required 2 Json.toTexts?
  let contentTrigrams ← number 3
  let metadataTrigrams ← number 4
  return { indexedDocuments, metadataDocuments, failed := failed.map Path.mk, contentTrigrams,
           metadataTrigrams }

end BuildSummary
end SourceSearch
