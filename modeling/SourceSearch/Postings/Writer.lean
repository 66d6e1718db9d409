import SourceSearch.FileTree.Task
import SourceSearch.Postings.Location
import SourceSearch.Postings.Record

/-!
# Writing postings

Every trigram has pending keys.  When there are enough of them they become the next shard; saving
turns the remainders into shards.  The sink writes shards in the order in which they are handed to
it, keeps the first failure and tells it once, when the account is settled.
-/

namespace SourceSearch

/-- A shard that is ready to be written. -/
structure ReadyShard where
  /-- The trigram. -/
  trigram : Trigram
  /-- The number of the shard. -/
  generation : Nat
  /-- The keys of the shard. -/
  keys : SortedSet DocumentKey
  /-- The number of keys in all shards up to this one. -/
  total : Nat
  deriving DecidableEq

namespace ReadyShard

/-- Write the shard, then the count that includes it. -/
def write (base : Path) (ready : ReadyShard) : TaskM Unit := do
  let shard : StoredShard := ⟨ready.keys, ready.generation, ready.trigram⟩
  TaskM.writeRecord (Postings.shardFile base ready.trigram ready.generation) shard.toJson
  let count : StoredCount := ⟨ready.trigram, ready.total⟩
  TaskM.writeRecord (Postings.countFile base ready.trigram) count.toJson

end ReadyShard

/-- Writes shards below a folder. -/
structure ShardSink where
  /-- The folder of the namespace. -/
  base : Path
  /-- The first failure since the account was last settled. -/
  failure : Option Failure := none

namespace ShardSink

/-- Write a shard; a failure is kept unless there is an earlier one. -/
def accept (sink : ShardSink) (ready : ReadyShard) : DiskM ShardSink := fun tree =>
  match (ready.write sink.base).runOn tree with
  | (.ok _, changed) => (sink, changed)
  | (.error failure, changed) =>
      ({ sink with failure := sink.failure.or (some failure) }, changed)

/-- The first failure so far, which is then forgotten. -/
def settle (sink : ShardSink) : Except Failure Unit × ShardSink :=
  match sink.failure with
  | some failure => (.error failure, { sink with failure := none })
  | none => (.ok (), sink)

end ShardSink

/-- The keys of a trigram that have not been written yet. -/
structure PendingPostings where
  /-- Keys for the next shard. -/
  keys : SortedSet DocumentKey := .empty
  /-- The number of the next shard. -/
  generation : Nat := 0
  /-- The number of keys in the shards before it. -/
  total : Nat := 0
  deriving DecidableEq

namespace PendingPostings

/-- Add a key to the pending ones. -/
def add (waiting : PendingPostings) (key : DocumentKey) : PendingPostings :=
  { waiting with keys := waiting.keys.insert key }

/-- The pending keys as the next shard, if there are any, and what is left without them. -/
def nextShard (waiting : PendingPostings) (trigram : Trigram) :
    Option ReadyShard × PendingPostings :=
  if waiting.keys.isEmpty then (none, waiting)
  else
    let total := waiting.total + waiting.keys.size
    (some ⟨trigram, waiting.generation, waiting.keys, total⟩,
      ⟨.empty, waiting.generation + 1, total⟩)

end PendingPostings

/-- Collects postings and writes them in shards. -/
structure PostingsWriter where
  /-- The number of pending keys that makes a shard. -/
  threshold : Nat
  /-- The keys that have not been written yet, for all trigrams seen so far. -/
  pending : SortedMap Trigram PendingPostings := .empty
  /-- Writes the shards. -/
  sink : ShardSink

namespace PostingsWriter

/-- A writer for the folder of a namespace; a threshold of zero acts as one. -/
def new (base : Path) (threshold : Nat) : PostingsWriter :=
  { threshold := max threshold 1, sink := { base } }

/-- The folder of the namespace. -/
def base (writer : PostingsWriter) : Path := writer.sink.base

/-- Hand the pending keys of a trigram to the sink, if there are any. -/
def flush (writer : PostingsWriter) (trigram : Trigram) (waiting : PendingPostings) :
    DiskM PostingsWriter := do
  match waiting.nextShard trigram with
  | (some ready, rest) =>
      let sink ← writer.sink.accept ready
      return { writer with pending := writer.pending.insert trigram rest, sink }
  | (none, rest) =>
      return { writer with pending := writer.pending.insert trigram rest }

/-- Record that a document contains a trigram. -/
def add (writer : PostingsWriter) (trigram : Trigram) (key : DocumentKey) :
    DiskM PostingsWriter :=
  let waiting := ((writer.pending.find? trigram).getD {}).add key
  if waiting.keys.size < writer.threshold then
    return { writer with pending := writer.pending.insert trigram waiting }
  else writer.flush trigram waiting

/-- Record that a document contains several trigrams. -/
def addDocument (writer : PostingsWriter) (key : DocumentKey) (trigrams : List Trigram) :
    DiskM PostingsWriter :=
  trigrams.foldlM (fun writer trigram => writer.add trigram key) writer

/-- Write what is pending and tell the first failure since the last save. -/
def save (writer : PostingsWriter) : DiskM (Except Failure Unit × PostingsWriter) := do
  let flushed ← writer.pending.toList.foldlM
    (fun writer (trigram, waiting) => writer.flush trigram waiting) writer
  let (outcome, sink) := flushed.sink.settle
  return (outcome, { flushed with sink })

/-- The number of different trigrams recorded so far. -/
def size (writer : PostingsWriter) : Nat := writer.pending.size

end PostingsWriter
end SourceSearch
