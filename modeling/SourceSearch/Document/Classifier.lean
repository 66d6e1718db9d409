import SourceSearch.Document.Metadata

/-!
# Classifiers

A classifier tags a document's record twice: by its path, and by its words.  The standard one knows
file types by their extension and unit tests by their vocabulary.
-/

namespace SourceSearch

/-- A way to tag documents with classes. -/
structure Classifier where
  /-- Tag by the path of the file. -/
  byPath : Path → Metadata → Metadata
  /-- Tag by the distinct words of the text. -/
  byWords : List String → Metadata → Metadata

namespace Classifier

/-- The class that holds the type of a file. -/
def fileType : String := "filetype"

/-- The class of unit tests. -/
def unitTest : String := "unit-test"

/-- The vocabularies of testing. -/
def vocabularies : List (List String) := [
  ["assertequals", "assertthat", "asserttrue", "assertfalse"],
  ["junit", "@before", "@test", "@ignore", "@beforeall", "@after", "@afterall"],
  ["hamcrest", "matchers", "equalto", "sameinstance"],
  ["mockito", "mock", "spy", "thenreturn"]]

/-- The type of a file with a known extension. -/
def typeOfExtension : String → Option String
  | "java" => some "java"
  | "py" => some "python"
  | _ => none

/-- The words use at least two of the testing vocabularies. -/
def isTestVocabulary (words : List String) : Bool :=
  2 ≤ vocabularies.countP fun vocabulary => vocabulary.any fun word => word ∈ words

/-- File types by extension, and unit tests among the Java files. -/
def standard : Classifier where
  byPath path record :=
    match path.extension?.bind typeOfExtension with
    | some type => record.withClass fileType type
    | none => record
  byWords words record :=
    if record.class? fileType = some "java" ∧ isTestVocabulary words then
      record.withClass unitTest "true"
    else record

end Classifier
end SourceSearch
