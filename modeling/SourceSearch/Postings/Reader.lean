import SourceSearch.FileTree.Task
import SourceSearch.Postings.Location
import SourceSearch.Postings.Record
import SourceSearch.Search.Details

/-!
# Reading postings

Reading never fails.  A trigram without files has no documents, the union of shards ends before the
first one that is missing or damaged, and a damaged count is answered by an estimate.
-/

namespace SourceSearch

/-- How the declared size of a postings list compares with its shards. -/
structure SizeComparison where
  /-- The trigram. -/
  trigram : Trigram
  /-- The declared size, if there is a readable one. -/
  declared : Option Nat
  /-- The number of documents in the union of the shards. -/
  actual : Nat
  /-- The number of shards. -/
  shards : Nat
  deriving DecidableEq

namespace SizeComparison

/-- The declared size is right, where a missing one counts as zero. -/
def agrees (report : SizeComparison) : Bool := report.declared.getD 0 == report.actual

/-- The failure that an inconsistency amounts to. -/
def failure? (report : SizeComparison) : Option Failure :=
  if report.agrees then none
  else some (.inconsistent report.trigram (report.declared.getD 0) report.actual)

end SizeComparison

/-- Reads the postings of a namespace. -/
structure PostingsReader where
  /-- The folder of the namespace. -/
  base : Path
  /-- The greatest number of shards read for one trigram. -/
  maxGenerations : Nat
  /-- The size assumed of a postings list with a damaged count. -/
  estimate : Nat
  deriving DecidableEq

namespace PostingsReader

/-- The union of the shards from `generation` on, of which at most `bound` are read, together with
those read before. -/
def loadFrom (reader : PostingsReader) (tree : FileTree) (trigram : Trigram) :
    (bound generation : Nat) → SortedSet DocumentKey → SortedSet DocumentKey × Nat
  | 0, generation, found => (found, generation)
  | bound + 1, generation, found =>
      let path := Postings.shardFile reader.base trigram generation
      match tree.readRecord StoredShard.ofJson? path with
      | .ok shard =>
          loadFrom reader tree trigram bound (generation + 1) (found.union shard.documents)
      | .error _ => (found, generation)

/-- The union of the shards of a trigram and their number. -/
def load (reader : PostingsReader) (tree : FileTree) (trigram : Trigram) :
    SortedSet DocumentKey × Nat :=
  reader.loadFrom tree trigram reader.maxGenerations 0 .empty

/-- The documents that contain a trigram. -/
def documents (reader : PostingsReader) (tree : FileTree) (trigram : Trigram) :
    SortedSet DocumentKey :=
  (reader.load tree trigram).1

/-- The declared number of postings, or nothing if no count was written. -/
def declared (reader : PostingsReader) (tree : FileTree) (trigram : Trigram) :
    Except Failure (Option Nat) :=
  (tree.readRecord? StoredCount.ofJson? (Postings.countFile reader.base trigram)).map
    (·.map StoredCount.count)

/-- A trigram with the assumed size of its postings list. -/
def occurrence (reader : PostingsReader) (tree : FileTree) (trigram : Trigram) : Occurrence :=
  match reader.declared tree trigram with
  | .ok count => ⟨trigram, count.getD 0⟩
  | .error _ => ⟨trigram, reader.estimate⟩

/-- Compare the declared size of a postings list with its shards. -/
def check (reader : PostingsReader) (tree : FileTree) (trigram : Trigram) : SizeComparison :=
  let declared := match reader.declared tree trigram with
    | .ok count => count
    | .error _ => none
  let (documents, shards) := reader.load tree trigram
  { trigram, declared, actual := documents.size, shards }

end PostingsReader
end SourceSearch
