import SourceSearch.Document.Key
import SourceSearch.Json.Decode

/-!
# Document records

What is recorded of a document besides its text: where it lies, how large it is, and the classes
that it was tagged with.
-/

namespace SourceSearch

/-- The record of a document. -/
structure Metadata where
  /-- The document's key. -/
  documentKey : DocumentKey
  /-- The path below the crawl root. -/
  relativePath : String
  /-- The last name of the path. -/
  fileName : String
  /-- The size of the file in bytes. -/
  fileSize : Nat
  /-- The number of lines of the text. -/
  lineCount : Nat
  /-- Class tags by name. -/
  classes : SortedMap String String
  deriving DecidableEq

namespace Metadata

/-- What follows the last slash of a path. -/
def lastName (relativePath : String) : String :=
  String.ofList (relativePath.toList.reverse.takeWhile (· ≠ '/')).reverse

/-- The record of a document that has not been read yet. -/
def new (id : DocumentIdentity) (fileSize : Nat) : Metadata :=
  { documentKey := id.key
    relativePath := id.relativePath
    fileName := lastName id.relativePath
    fileSize
    lineCount := 0
    classes := .empty }

/-- Tag the document with a class. -/
def withClass (record : Metadata) (name value : String) : Metadata :=
  { record with classes := record.classes.insert name value }

/-- The value of a class that the document is tagged with. -/
def class? (record : Metadata) (name : String) : Option String := record.classes.find? name

/-- The written form of a record. -/
def toJson (record : Metadata) : Json :=
  .record [
    ("document_key", .ofText record.documentKey),
    ("relative_path", .ofText record.relativePath),
    ("filename", .ofText record.fileName),
    ("file_size", .ofNat record.fileSize),
    ("line_count", .ofNat record.lineCount),
    ("classes", .ofMap .ofText record.classes)]

/-- Read a record; classes may be left out. -/
def ofJson? (json : Json) : Option Metadata := do
  let fields ← json.fields?
    ["document_key", "relative_path", "filename", "file_size", "line_count", "classes"]
  let documentKey ← fields.required 0 Json.toText?
  let relativePath ← fields.required 1 Json.toText?
  let fileName ← fields.required 2 Json.toText?
  let fileSize ← fields.required 3 (Json.toNat? Json.max64)
  let lineCount ← fields.required 4 (Json.toNat? Json.max64)
  let classes ← fields.withDefault 5 (Json.toTextMap? Json.toText?) .empty
  return { documentKey, relativePath, fileName, fileSize, lineCount, classes }

end Metadata
end SourceSearch
