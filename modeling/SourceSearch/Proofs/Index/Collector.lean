import SourceSearch.Proofs.Index.Kept
import SourceSearch.Proofs.Postings.Flushes
import SourceSearch.Proofs.Postings.Shuffled

/-!
# A thread that collects class tags

The second pass of a build is done by one thread, with workers that write its shards meanwhile.  It
reads one record after another and adds the class tags of each to its writer.  Workers leave the
records alone, so in the end the thread has collected the tags of all records that could be read at
the start.
-/

namespace SourceSearch

/-- A thread that collects class tags, and the writer that it uses. -/
structure Collector (workers : Nat) where
  /-- The keys of the records that it has not come to. -/
  left : List DocumentKey
  /-- The documents whose tags it has collected, the last one first. -/
  entries : List PostingsEntry := []
  /-- The writer of the postings of class tags. -/
  writer : SharedWriter 1 workers

namespace Collector

variable {workers : Nat}

/-- Before the first record. -/
def start (keys : List DocumentKey) (tree : FileTree) : Collector workers :=
  { left := keys, writer := .start (fun _ => []) tree }

/-- The files on disk. -/
def tree (collector : Collector workers) : FileTree := collector.writer.pool.tree

/-- A step of the thread or of a worker. -/
inductive Step (index : Index) (workerOf : Trigram → Fin workers) (collector : Collector workers) :
    List (WriterEvent 1) → Collector workers → Prop
  /-- The thread comes to a record that it can read, and has its tags to add. -/
  | load {key : DocumentKey} {rest : List DocumentKey} {record : Metadata}
      (next : collector.left = key :: rest) (rests : collector.writer.Returned)
      (loads : index.metadata.load? collector.tree key = some record) :
      Step index workerOf collector []
        { left := rest
          entries := (key, record.tagTrigrams) :: collector.entries
          writer := collector.writer.assign 0 (WriterCall.ofEntry (key, record.tagTrigrams)) }
  /-- A record that it cannot read is passed over. -/
  | pass {key : DocumentKey} {rest : List DocumentKey} (next : collector.left = key :: rest)
      (rests : collector.writer.Returned)
      (lost : index.metadata.load? collector.tree key = none) :
      Step index workerOf collector [] { collector with left := rest }
  /-- The thread adds a trigram, or a worker writes. -/
  | write {told : List (WriterEvent 1)} {writer : SharedWriter 1 workers}
      (step : collector.writer.Step index.threshold workerOf (index.root / Index.tagFolder) told
        writer) :
      Step index workerOf collector told { collector with writer }

/-- Any number of steps, with all that is told of them. -/
inductive Run (index : Index) (workerOf : Trigram → Fin workers) (collector : Collector workers) :
    List (WriterEvent 1) → Collector workers → Prop
  /-- No step. -/
  | refl : Run index workerOf collector [] collector
  /-- One more step. -/
  | tail {events told : List (WriterEvent 1)} {between later : Collector workers}
      (run : Run index workerOf collector events between)
      (step : between.Step index workerOf told later) :
      Run index workerOf collector (events ++ told) later

/-- No record is left, and all tags are added. -/
structure Finished (collector : Collector workers) : Prop where
  /-- All records are done. -/
  left : collector.left = []
  /-- All trigrams are added. -/
  returned : collector.writer.Returned

variable {index : Index} {location : Location} {cleared : FileTree} {keys : List DocumentKey}
  {workerOf : Trigram → Fin workers} {events told : List (WriterEvent 1)}
  {collector later : Collector workers}

/-- A pool goes along with a collector. -/
theorem Run.flushesBy {pool : FlushPool 1 workers}
    (flushes : collector.writer.FlushesBy (index.root / Index.tagFolder) pool)
    (run : collector.Run index workerOf told later) :
    ∃ events next, pool.OrderlyRun workerOf events next ∧
      later.writer.FlushesBy (index.root / Index.tagFolder) next := by
  induction run with
  | refl => exact ⟨[], pool, .refl, flushes⟩
  | tail _ step ih =>
      obtain ⟨events, met, first, flushes⟩ := ih
      cases step with
      | load => exact ⟨events, met, first, flushes.assign _ _⟩
      | pass => exact ⟨events, met, first, flushes⟩
      | write step =>
          obtain ⟨more, next, second, flushes⟩ := flushes.step step
          exact ⟨_, next, first.trans second, flushes⟩

/-- A collector at work: it has collected the tags of the records that it has come to, as they were
at the start, and nothing but their postings has changed. -/
structure AtWork (index : Index) (location : Location) (cleared : FileTree)
    (keys : List DocumentKey) (workerOf : Trigram → Fin workers) (events : List (WriterEvent 1))
    (collector : Collector workers) : Prop where
  /-- The writer has been given what is collected. -/
  collecting : collector.writer.Collecting index.root Index.ownNames location Index.tagFolder
    index.threshold workerOf collector.entries events
  /-- Nothing else changes. -/
  stays : FileTree.StaysIn location Index.tagFolder 3 cleared collector.tree
  /-- These keys are left. -/
  left : collector.left <:+ keys
  /-- What is collected and what is left are all tags. -/
  collected : collector.entries.reverse ++ index.tagEntries cleared collector.left =
    index.tagEntries cleared keys

/-- A collector that has not begun is at work. -/
theorem atWork_start (site : Namespace index.root Index.ownNames location Index.tagFolder cleared)
    (named : cleared.WellNamed)
    (fresh : ∀ names, cleared.fileAt? (location ++ Index.tagFolder :: names) = none)
    (keys : List DocumentKey) (workerOf : Trigram → Fin workers) :
    (start keys cleared).AtWork index location cleared keys workerOf [] where
  collecting := SharedWriter.collecting_start site named fresh index.threshold workerOf
  stays := .refl _
  left := List.suffix_refl keys
  collected := rfl

/-- Every step keeps a collector at work. -/
theorem AtWork.step (work : collector.AtWork index location cleared keys workerOf events)
    (steady : ∀ changed, FileTree.StaysIn location Index.tagFolder 3 cleared changed →
      ∀ key ∈ keys, index.metadata.load? changed key = index.metadata.load? cleared key)
    (step : collector.Step index workerOf told later) :
    later.AtWork index location cleared keys workerOf (events ++ told) := by
  have reads {key : DocumentKey} {rest : List DocumentKey} (next : collector.left = key :: rest) :
      index.metadata.load? collector.tree key = index.metadata.load? cleared key :=
    steady _ work.stays key (work.left.subset (next ▸ List.mem_cons_self))
  have goes {key : DocumentKey} {rest : List DocumentKey} (next : collector.left = key :: rest) :
      rest <:+ keys := (List.suffix_cons key rest).trans (next ▸ work.left)
  have collected := work.collected
  cases step with
  | load next _ loads =>
      rw [List.append_nil]
      rw [next, Index.tagEntries_cons_of_some ((reads next).symm.trans loads)] at collected
      refine ⟨work.collecting.assign 0 fun trigram inside =>
        Index.length_of_mem_tagTrigrams trigram (SortedSet.mem_toList.mpr inside), work.stays,
        goes next, ?_⟩
      rw [List.reverse_cons, List.append_assoc]
      exact collected
  | pass next _ lost =>
      rw [List.append_nil]
      rw [next, Index.tagEntries_cons_of_none ((reads next).symm.trans lost)] at collected
      exact ⟨work.collecting, work.stays, goes next, collected⟩
  | write step =>
      obtain ⟨stays, collecting⟩ := work.collecting.step step
      exact ⟨collecting, work.stays.trans stays, work.left, collected⟩

/-- So does a whole run. -/
theorem AtWork.run (work : collector.AtWork index location cleared keys workerOf events)
    (steady : ∀ changed, FileTree.StaysIn location Index.tagFolder 3 cleared changed →
      ∀ key ∈ keys, index.metadata.load? changed key = index.metadata.load? cleared key)
    (run : collector.Run index workerOf told later) :
    later.AtWork index location cleared keys workerOf (events ++ told) := by
  induction run with
  | refl =>
      rw [List.append_nil]
      exact work
  | tail _ step ih =>
      rw [← List.append_assoc]
      exact ih.step steady step

/-- When it is done, it has collected all tags. -/
theorem AtWork.reverse_entries (work : collector.AtWork index location cleared keys workerOf events)
    (finished : collector.Finished) :
    collector.entries.reverse = index.tagEntries cleared keys := by
  have collected := work.collected
  rw [finished.left] at collected
  exact (List.append_nil _).symm.trans collected

end Collector
end SourceSearch
