import SourceSearch.Crawl.Crawler
import SourceSearch.Document.Classifier
import SourceSearch.Index.Basic
import SourceSearch.Index.Summary

/-!
# Building an index

A build starts from nothing.  The first pass stores and indexes the text of every crawled file; a
file that fails is noted and passed over.  The second pass indexes the class tags of every record
that the first pass has stored.
-/

namespace SourceSearch
namespace Metadata

/-- The trigrams of all class values, each lowercased and taken as one word. -/
def tagTrigrams (record : Metadata) : SortedSet Trigram :=
  Trigram.ofWords (record.classes.values.map lowercase)

end Metadata

namespace Index

/-- A build in progress. -/
structure Progress where
  /-- Collects the postings of texts. -/
  writer : PostingsWriter
  /-- The files that failed so far, last one first. -/
  failed : List Path := []

/-- Store all that is kept of a file besides its postings. -/
def storeDocument (index : Index) (scheme : KeyScheme) (classifier : Classifier)
    (crawlRoot file : Path) : TaskM (DocumentKey × SortedSet Trigram) := do
  let id ← TaskM.examine fun _ => DocumentIdentity.ofPath file crawlRoot scheme
  let content ← TaskM.examine fun tree => (tree.read file).mapError (.file file)
  let byPath := classifier.byPath file (Metadata.new id content.size)
  index.documents.save id.key content
  let extraction := Extraction.ofText (Text.ofBytesLossy content)
  index.wordlists.save id.key extraction
  let record :=
    classifier.byWords extraction.wordlist { byPath with lineCount := extraction.lineCount }
  index.metadata.save record
  return (id.key, extraction.trigrams)

/-- Index a file; one that fails adds no postings. -/
def addFile (index : Index) (scheme : KeyScheme) (classifier : Classifier) (crawlRoot : Path)
    (progress : Progress) (file : Path) : DiskM Progress := do
  match ← (index.storeDocument scheme classifier crawlRoot file).run with
  | .ok (key, trigrams) =>
      return { progress with writer := ← progress.writer.addDocument key trigrams.toList }
  | .error _ => return { progress with failed := file :: progress.failed }

/-- Index files one after another. -/
def addFiles (index : Index) (scheme : KeyScheme) (classifier : Classifier) (crawlRoot : Path)
    (files : List Path) : DiskM Progress :=
  files.foldlM (index.addFile scheme classifier crawlRoot) { writer := index.textWriter }

/-- Save the postings of a writer as a part of a larger task. -/
def saveWriter (task : String) (writer : PostingsWriter) : TaskM Unit :=
  TaskM.within task (ExceptT.mk (Prod.fst <$> writer.save))

/-- Collect the postings of the class tags of a document; a record that cannot be read is passed
over. -/
def addTags (index : Index) (progress : PostingsWriter × Nat) (key : DocumentKey) :
    DiskM (PostingsWriter × Nat) := do
  match index.metadata.load? (← get) key with
  | some record =>
      return (← progress.1.addDocument key record.tagTrigrams.toList, progress.2 + 1)
  | none => return progress

/-- Collect the postings of the class tags of documents, and count those with a readable record. -/
def addAllTags (index : Index) (keys : List DocumentKey) : DiskM (PostingsWriter × Nat) :=
  keys.foldlM index.addTags (index.tagWriter, 0)

/-- Rebuild the postings of class tags and count them in the summary. -/
def buildTags (index : Index) (summary : BuildSummary) : TaskM BuildSummary := do
  index.clearTags
  let keys ← TaskM.within "Failed to list stored metadata" (TaskM.examine index.metadata.keys)
  let (writer, documents) ← index.addAllTags keys
  saveWriter "Failed to write metadata postings" writer
  return { summary with
    metadataDocuments := summary.metadataDocuments + documents
    metadataTrigrams := writer.size }

/-- The path of the index folder as a crawl from `crawlRoot` meets it, if the folder lies below. -/
def pathInCrawl? (index : Index) (tree : FileTree) (crawlRoot : Path) : Option Path :=
  match tree.find crawlRoot, tree.find index.root with
  | .ok (above, _), .ok (below, _) =>
      if above <+: below ∧ above ≠ below then
        some (crawlRoot / "/".intercalate (below.drop above.length))
      else none
  | _, _ => none

/-- A crawler for the files below a root, which stays out of the index itself. -/
def crawler (index : Index) (tree : FileTree) (crawlRoot : Path) : Except Failure Crawler :=
  (Crawler.new crawlRoot index.config).map fun crawler =>
    match index.pathInCrawl? tree crawlRoot with
    | some path => crawler.avoid path
    | none => crawler

/-- Rebuild the index from the files below `crawlRoot`. -/
def build (index : Index) (scheme : KeyScheme) (classifier : Classifier) (crawlRoot : Path) :
    TaskM BuildSummary := do
  Config.writeInitial index.root
  index.clear
  let crawler ← TaskM.examine (index.crawler · crawlRoot)
  let files ← TaskM.observe crawler.crawl
  let progress ← index.addFiles scheme classifier crawlRoot files
  saveWriter "Failed to write content postings" progress.writer
  let summary ← index.buildTags {
    indexedDocuments := files.length - progress.failed.length
    failed := progress.failed.reverse
    contentTrigrams := progress.writer.size }
  index.writeFormat
  return summary

end Index
end SourceSearch
