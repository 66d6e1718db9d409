import SourceSearch.Config.File
import SourceSearch.Postings.Reader
import SourceSearch.Postings.Writer
import SourceSearch.Store.Documents

/-!
# Indexes

An index is a folder with two namespaces of postings, one for the texts of documents and one for
their class tags, and with the stores of everything else that is kept of the documents.  The handle
of an index holds only the place of the folder and the settings.
-/

namespace SourceSearch

/-- An index. -/
structure Index where
  /-- The folder of the index. -/
  root : Path
  /-- The settings. -/
  config : Config
  deriving DecidableEq

namespace Index

/-- The folder with the postings of texts. -/
def textFolder : String := "inverseTrigram.index"

/-- The folder with the postings of class tags. -/
def tagFolder : String := "inverseMetadataTrigram.index"

/-- Open the index in a folder with the settings found there. -/
def openAt (tree : FileTree) (root : Path) : Except Failure Index :=
  (Config.load tree root).map fun config => { root, config }

/-- Copies of the documents. -/
def documents (index : Index) : DocumentStore := ⟨⟨index.root / documentsFolder⟩⟩

/-- What was extracted from the documents. -/
def wordlists (index : Index) : WordlistStore := ⟨⟨index.root / wordlistsFolder⟩⟩

/-- The records of the documents. -/
def metadata (index : Index) : MetadataStore := ⟨⟨index.root / metadataFolder⟩⟩

/-- Results of earlier queries. -/
def queries (index : Index) : QueryStore := ⟨⟨index.root / queriesFolder⟩⟩

/-- A reader for the postings in a folder of the index. -/
def reader (index : Index) (folder : String) : PostingsReader :=
  { base := index.root / folder
    maxGenerations := index.config.maxShardGenerations
    estimate := index.config.flushThreshold }

/-- Reads the postings of texts. -/
def textReader (index : Index) : PostingsReader := index.reader textFolder

/-- Reads the postings of class tags. -/
def tagReader (index : Index) : PostingsReader := index.reader tagFolder

/-- Writes the postings of texts. -/
def textWriter (index : Index) : PostingsWriter :=
  .new (index.root / textFolder) index.config.flushThreshold

/-- Writes the postings of class tags. -/
def tagWriter (index : Index) : PostingsWriter :=
  .new (index.root / tagFolder) index.config.flushThreshold

/-- Everything that a rebuild starts without. -/
def clearedFolders : List String :=
  [textFolder, tagFolder, documentsFolder, wordlistsFolder, metadataFolder, queriesFolder]

/-- Remove all postings, document records and query results.  Shards are numbered from zero in
every build, so none of an earlier build may stay. -/
def clear (index : Index) : TaskM Unit :=
  clearedFolders.forM fun folder => TaskM.removeFolder (index.root / folder)

/-- Remove the postings of class tags. -/
def clearTags (index : Index) : TaskM Unit := TaskM.removeFolder (index.root / tagFolder)

/-- The file with the fingerprint of the layout. -/
def formatFile : String := "format.hash"

/-- The fingerprint of the layout that is written here: the first eight bytes of a BLAKE3 digest of
the sources that fix the layout. -/
def formatFingerprint : String := "b29a0df693496eba"

/-- Mark the index as written in the present layout. -/
def writeFormat (index : Index) : TaskM Unit :=
  let path := index.root / formatFile
  TaskM.change (fun fault => .during s!"Failed to write {path}" (.system fault))
    (·.write path formatFingerprint.toUTF8)

/-- The index has the present layout; one without a fingerprint counts as such. -/
def hasFormat (index : Index) (tree : FileTree) : Bool :=
  match tree.readText (index.root / formatFile) with
  | .ok text => trim text == formatFingerprint
  | .error _ => true

end Index
end SourceSearch
