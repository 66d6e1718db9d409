import SourceSearch.Document.Metadata
import SourceSearch.Trigram

/-!
# Results and their diagnostics

What a search finds, and how the trigrams that led there did: their assumed sizes in the order of
intersection, and whether each of them shrank the result.
-/

namespace SourceSearch

/-- A trigram with the assumed size of its postings list. -/
structure Occurrence where
  /-- The trigram. -/
  trigram : Trigram
  /-- The assumed number of documents. -/
  count : Nat
  deriving DecidableEq

namespace Occurrence

/-- The written form. -/
def toJson (occurrence : Occurrence) : Json :=
  .record [("trigram", .ofText occurrence.trigram), ("count", .ofNat occurrence.count)]

/-- Read the written form. -/
def ofJson? (json : Json) : Option Occurrence := do
  let fields ← json.fields? ["trigram", "count"]
  let trigram ← fields.required 0 Json.toText?
  let count ← fields.required 1 (Json.toNat? Json.max64)
  return { trigram, count }

end Occurrence

/-- What the intersection with a trigram's postings did. -/
inductive UsageState where
  /-- The postings were never read. -/
  | unknown
  /-- The result became smaller, or began with these postings. -/
  | success
  /-- The result kept its size. -/
  | failed
  deriving DecidableEq

namespace UsageState

/-- The name of a state. -/
def name : UsageState → String
  | unknown => "unknown"
  | success => "success"
  | failed => "failed"

/-- All states. -/
def all : List UsageState := [unknown, success, failed]

/-- The state of a name. -/
def ofName? (name : String) : Option UsageState := all.find? (·.name = name)

/-- The written form. -/
def toJson (state : UsageState) : Json := .ofText state.name

/-- Read the written form: a name, or an object whose only member has that name and no value. -/
def ofJson? : Json → Option UsageState
  | .text written => Json.readText? written >>= ofName?
  | .object [(written, .null)] => Json.readText? written >>= ofName?
  | _ => none

end UsageState

/-- How a trigram did in an intersection. -/
structure Usage where
  /-- The trigram. -/
  trigram : Trigram
  /-- The assumed size of its postings list. -/
  count : Nat
  /-- What it did. -/
  state : UsageState
  deriving DecidableEq

namespace Usage

/-- The usage of an occurrence. -/
def of (occurrence : Occurrence) (state : UsageState) : Usage :=
  ⟨occurrence.trigram, occurrence.count, state⟩

/-- The written form. -/
def toJson (usage : Usage) : Json :=
  .record [
    ("trigram", .ofText usage.trigram),
    ("occurrence_count", .ofNat usage.count),
    ("state", usage.state.toJson)]

/-- Read the written form. -/
def ofJson? (json : Json) : Option Usage := do
  let fields ← json.fields? ["trigram", "occurrence_count", "state"]
  let trigram ← fields.required 0 Json.toText?
  let count ← fields.required 1 (Json.toNat? Json.max64)
  let state ← fields.required 2 UsageState.ofJson?
  return { trigram, count, state }

end Usage

/-- Diagnostics of an intersection. -/
structure Details where
  /-- Trigrams that were left out, because the result was small already. -/
  skipped : List Trigram
  /-- What every trigram did, in the order of intersection. -/
  usage : List Usage
  /-- All trigrams in the order of intersection. -/
  occurrences : List Occurrence
  deriving DecidableEq

namespace Details

/-- The diagnostics of an intersection of nothing. -/
def empty : Details := ⟨[], [], []⟩

/-- The intersection ended before all trigrams were read. -/
def wasAborted (details : Details) : Bool := !details.skipped.isEmpty

/-- The written form. -/
def toJson (details : Details) : Json :=
  .record [
    ("skipped_trigrams", .ofTexts details.skipped),
    ("usage", .array (details.usage.map Usage.toJson)),
    ("occurrences", .array (details.occurrences.map Occurrence.toJson))]

/-- Read the written form. -/
def ofJson? (json : Json) : Option Details := do
  let fields ← json.fields? ["skipped_trigrams", "usage", "occurrences"]
  let skipped ← fields.required 0 Json.toTexts?
  let usage ← fields.required 1 (Json.toList? Usage.ofJson?)
  let occurrences ← fields.required 2 (Json.toList? Occurrence.ofJson?)
  return { skipped, usage, occurrences }

end Details

/-- The first matching lines of a document by their numbers. -/
abbrev Preview := SortedMap Nat String

/-- A document that was found. -/
structure Hit where
  /-- The document's key. -/
  documentKey : DocumentKey
  /-- The document's record, if it could be read. -/
  metadata : Option Metadata
  /-- Its first matching lines. -/
  preview : Preview
  deriving DecidableEq

namespace Hit

/-- The path of the document, if its record could be read. -/
def relativePath? (hit : Hit) : Option String :=
  hit.metadata.map Metadata.relativePath

/-- The written form; an absent record and an empty preview are left out. -/
def toJson (hit : Hit) : Json :=
  .record ([("document_key", .ofText hit.documentKey)] ++
    (hit.metadata.toList.map fun record => ("metadata", record.toJson)) ++
    (if hit.preview.isEmpty then []
      else [("preview", .ofNatMap .ofText hit.preview)]))

/-- Read the written form. -/
def ofJson? (json : Json) : Option Hit := do
  let fields ← json.fields? ["document_key", "metadata", "preview"]
  let documentKey ← fields.required 0 Json.toText?
  let metadata ← fields.nullable 1 Metadata.ofJson?
  let preview ← fields.withDefault 2 (Json.toNatMap? Json.toText?) .empty
  return { documentKey, metadata, preview }

end Hit
end SourceSearch
