import SourceSearch.Proofs.Index.SharedBuild
import SourceSearch.Proofs.Postings.OneThread

/-!
# A build of which one thread does all

Whatever the number of threads, a build by threads can go on as a build does that does one thing
after another.  One thread takes the files in their order while the others rest, and workers write
each shard before the thread goes on.
-/

namespace SourceSearch

/-- What holds after a run through a list has held at its start, if it is never gained. -/
theorem DiskM.foldlM_back {α β : Type} {P : β → Prop} {step : β → α → DiskM β}
    (back : ∀ {init a tree next after}, step init a tree = (next, after) → P next → P init)
    {init last : β} {list : List α} {tree after : FileTree}
    (run : (list.foldlM step init : DiskM β) tree = (last, after)) (held : P last) : P init := by
  induction list generalizing init tree with
  | nil =>
      cases run
      exact held
  | cons a rest ih => exact back rfl (ih run)

/-! ## Adding documents -/

namespace PostingsWriter

variable {writer later : PostingsWriter} {tree after : FileTree} {entry : PostingsEntry}

/-- Adding a document is a call for each of its trigrams. -/
theorem runAll_ofEntry
    (run : writer.addDocument entry.1 entry.2.toList tree = (later, after)) :
    runAll (WriterCall.ofEntry entry) writer tree = ((.ok (), later), after) := by
  rw [WriterCall.ofEntry]
  generalize entry.2.toList = trigrams at run ⊢
  induction trigrams generalizing writer tree with
  | nil =>
      cases run
      rfl
  | cons trigram rest ih =>
      rw [addDocument, DiskM.foldlM_cons] at run
      rw [List.map_cons]
      exact runAll_cons_eq_ok.mpr ⟨_, _, rfl, ih run⟩

/-- A document is added without a failure only if there was none before. -/
theorem addDocument_clean
    (run : writer.addDocument entry.1 entry.2.toList tree = (later, after))
    (clean : later.sink.failure = none) :
    later.sink = writer.sink ∧ later.threshold = writer.threshold :=
  runAll_clean (runAll_ofEntry run) clean

end PostingsWriter

namespace SharedWriter

variable {threads workers threshold : Nat} {workerOf : Trigram → Fin workers} {base : Path}
  {shared : SharedWriter threads workers} {thread : Fin threads} {writer later : PostingsWriter}
  {tree after : FileTree} {entry : PostingsEntry}

/-- A shared writer whose threads rest goes by a writer that writes to a folder. -/
structure Follows (threshold : Nat) (base : Path) (writer : PostingsWriter) (tree : FileTree)
    (shared : SharedWriter threads workers) : Prop where
  /-- It has the keys and the files of the writer. -/
  mirrors : shared.Mirrors writer tree
  /-- The threads rest. -/
  returned : shared.Returned
  /-- The writer writes to the folder. -/
  base : writer.sink.base = base
  /-- Shards have this size. -/
  threshold : writer.threshold = threshold

theorem follows_start (tree : FileTree) (base : Path) (threshold : Nat) :
    (start (fun _ => []) tree : SharedWriter threads workers).Follows (max threshold 1) base
      (.new base threshold) tree :=
  ⟨mirrors_start _ tree base threshold, fun _ => rfl, rfl, rfl⟩

/-- Other hands change files for both. -/
theorem Follows.withTree (follows : shared.Follows threshold base writer tree)
    (changed : FileTree) :
    Follows threshold base writer changed
      { shared with pool := { shared.pool with tree := changed } } :=
  { follows with
    mirrors :=
      { pending := follows.mirrors.pending
        free := follows.mirrors.free
        bounded := follows.mirrors.bounded
        apart := follows.mirrors.apart
        empty := follows.mirrors.empty
        idle := follows.mirrors.idle
        settled := follows.mirrors.settled
        tree_eq := rfl } }

/-- If a thread rests once more, all do. -/
theorem Follows.returned_of {next : SharedWriter threads workers}
    (follows : shared.Follows threshold base writer tree) {state : Thread}
    (ends : next.collection.threads =
      ((shared.collection.set thread state).set thread ⟨[], .idle⟩).threads) : next.Returned := by
  intro other
  rw [ends]
  by_cases same : other = thread
  · rw [same, Collection.threads_set_self]
  · rw [Collection.threads_set_of_ne _ _ _ same, Collection.threads_set_of_ne _ _ _ same]
    exact follows.returned other

/-- A thread adds a document as the writer does. -/
theorem Follows.addDocument (follows : shared.Follows threshold base writer tree)
    (thread : Fin threads)
    (run : writer.addDocument entry.1 entry.2.toList tree = (later, after))
    (clean : later.sink.failure = none) :
    ∃ last, Reaches threshold workerOf base (shared.assign thread (WriterCall.ofEntry entry)) last ∧
      last.Follows threshold base later after := by
  have begins : (shared.assign thread (WriterCall.ofEntry entry)).collection.threads thread =
      ⟨(WriterCall.ofEntry entry).map WriterCall.task, .idle⟩ := by
    rw [assign, Collection.threads_set_self, follows.returned]
    rfl
  obtain ⟨last, reaches, mirrors, ends⟩ := (follows.mirrors.set thread _).runAll begins
    (PostingsWriter.runAll_ofEntry run) clean
  obtain ⟨sink, size⟩ := PostingsWriter.addDocument_clean run clean
  rw [follows.base, follows.threshold] at reaches
  exact ⟨last, reaches, mirrors, follows.returned_of ends, sink ▸ follows.base,
    size.trans follows.threshold⟩

/-- A thread saves as the writer does. -/
theorem Follows.saves (follows : shared.Follows threshold base writer tree) (thread : Fin threads)
    (run : writer.save tree = ((.ok (), later), after)) :
    ∃ done, shared.Saves threshold workerOf base done ∧ done.pool.tree = after := by
  have begins : (shared.call thread .save).collection.threads thread = ⟨[.save], .idle⟩ := by
    rw [call, Collection.threads_set_self, follows.returned]
    rfl
  obtain ⟨done, reaches, mirrors, ends⟩ := (follows.mirrors.set thread _).save begins run
  rw [follows.base, follows.threshold] at reaches
  obtain ⟨told, saves⟩ := reaches.exists_run
  exact ⟨done, ⟨thread, told, saves, follows.returned_of ends⟩, mirrors.tree_eq⟩

end SharedWriter

/-! ## The first pass -/

namespace Crew

variable {index : Index} {scheme : KeyScheme} {classifier : Classifier} {crawlRoot : Path}
  {threads workers : Nat} {workerOf : Trigram → Fin workers} {crew later : Crew threads workers}

/-- Some steps lead from one state to another. -/
def Reaches (index : Index) (scheme : KeyScheme) (classifier : Classifier) (crawlRoot : Path)
    (workerOf : Trigram → Fin workers) : Crew threads workers → Crew threads workers → Prop :=
  Relation.ReflTransGen fun before after =>
    ∃ told, before.Step index scheme classifier crawlRoot workerOf told after

theorem Reaches.exists_run
    (reaches : Reaches index scheme classifier crawlRoot workerOf crew later) :
    ∃ told, crew.Run index scheme classifier crawlRoot workerOf told later :=
  exists_told reaches .refl .tail

/-- What the writer does while no thread goes on with a file. -/
theorem reaches_of_writer {writer : SharedWriter threads workers}
    (reaches : SharedWriter.Reaches index.threshold workerOf (index.root / Index.textFolder)
      crew.writer writer) :
    Reaches index scheme classifier crawlRoot workerOf crew { crew with writer } := by
  let go (writer : SharedWriter threads workers) : Crew threads workers := { crew with writer }
  refine Relation.ReflTransGen.lift go (fun before after step => ?_) _ _ reaches
  obtain ⟨told, step⟩ := step
  exact ⟨told, .write step⟩

variable {thread : Fin threads} {file : Path} {records : List StoredRecord}
  {entry : PostingsEntry} {after : FileTree}

theorem hands_hold_self (crew : Crew threads workers) (thread : Fin threads)
    (chore? : Option Chore) : (crew.hold thread chore?).hands thread = chore? :=
  Function.update_self ..

theorem hold_hold (crew : Crew threads workers) (thread : Fin threads)
    (first second : Option Chore) :
    (crew.hold thread first).hold thread second = crew.hold thread second := by
  simp only [hold, Function.update_idem]

theorem hold_eq_self {chore? : Option Chore} (holds : crew.hands thread = chore?) :
    crew.hold thread chore? = crew := by
  rw [hold, ← holds, Function.update_eq_self]

/-- A thread puts all records of its file. -/
theorem reaches_putRecords (holds : crew.hands thread = some ⟨file, records, entry⟩)
    (puts : (index.putRecords records).runOn crew.tree = (.ok (), after)) :
    Reaches index scheme classifier crawlRoot workerOf crew
      ((crew.withTree after).hold thread (some ⟨file, [], entry⟩)) := by
  induction records generalizing crew with
  | nil =>
      cases puts
      rw [show crew.withTree crew.tree = crew from rfl, hold_eq_self holds]
      exact .refl
  | cons record records ih =>
      obtain ⟨_, changed, first, rest⟩ := TaskM.bind_ok_iff.mp puts
      let next := (crew.withTree changed).hold thread (some ⟨file, records, entry⟩)
      have goes : next.hands thread = some ⟨file, records, entry⟩ := hands_hold_self ..
      have reaches := ih goes rest
      change Reaches index scheme classifier crawlRoot workerOf next
        (((crew.withTree after).hold thread (some ⟨file, records, entry⟩)).hold thread
          (some ⟨file, [], entry⟩)) at reaches
      rw [hold_hold] at reaches
      exact reaches.head ⟨_, .put holds first⟩

/-- Or it gives up at the first record that cannot be put. -/
theorem reaches_refused {failure : Failure}
    (holds : crew.hands thread = some ⟨file, records, entry⟩)
    (puts : (index.putRecords records).runOn crew.tree = (.error failure, after)) :
    Reaches index scheme classifier crawlRoot workerOf crew
      ({ crew.withTree after with failed := file :: crew.failed }.hold thread none) := by
  induction records generalizing crew with
  | nil => cases puts
  | cons record records ih =>
      change (index.putRecord record >>= fun _ => index.putRecords records).runOn crew.tree = _
        at puts
      rw [TaskM.runOn_bind] at puts
      rcases first : (index.putRecord record).runOn crew.tree with ⟨refusal | _, changed⟩
      · rw [first] at puts
        cases puts
        exact .single ⟨_, .refuse holds first⟩
      · rw [first] at puts
        let next := (crew.withTree changed).hold thread (some ⟨file, records, entry⟩)
        have goes : next.hands thread = some ⟨file, records, entry⟩ := hands_hold_self ..
        let refused := { crew.withTree after with failed := file :: crew.failed }
        have reaches := ih goes puts
        change Reaches index scheme classifier crawlRoot workerOf next
          ((refused.hold thread (some ⟨file, records, entry⟩)).hold thread none) at reaches
        rw [hold_hold] at reaches
        exact reaches.head ⟨_, .put holds first⟩

/-- A crew that rests goes by a build in progress. -/
structure Follows (index : Index) (progress : Index.Progress) (tree : FileTree)
    (files : List Path) (crew : Crew threads workers) : Prop where
  /-- These files are left. -/
  waiting : crew.waiting = files
  /-- No thread is at a file. -/
  free : ∀ thread, crew.hands thread = none
  /-- The same files have failed. -/
  failed : crew.failed = progress.failed
  /-- The writer goes by that of the build. -/
  writer : crew.writer.Follows index.threshold (index.root / Index.textFolder) progress.writer tree

theorem follows_start (files : List Path) (tree : FileTree) :
    (start files tree : Crew threads workers).Follows index ⟨index.textWriter, []⟩ tree files :=
  ⟨rfl, fun _ => rfl, rfl, SharedWriter.follows_start tree _ _⟩

/-- If no other thread is at a file, then none is once this one puts its file down. -/
theorem hands_hold_none (free : ∀ other, other ≠ thread → crew.hands other = none)
    (other : Fin threads) : (crew.hold thread none).hands other = none := by
  by_cases same : other = thread
  · rw [same, hands_hold_self]
  · exact (Function.update_of_ne same ..).trans (free other same)

namespace Follows

variable {progress last : Index.Progress} {files : List Path} {tree changed : FileTree}
  {failure : Failure} {writer : PostingsWriter}

/-- A file that cannot be read is passed over by a thread. -/
theorem passOver (follows : crew.Follows index progress tree (file :: files))
    (thread : Fin threads) (reads : Chore.ofFile? scheme classifier crawlRoot tree file = none) :
    ∃ later, Reaches index scheme classifier crawlRoot workerOf crew later ∧
      later.Follows index { progress with failed := file :: progress.failed } tree files := by
  have waits : crew.waiting = [] ++ file :: files := follows.waiting
  rw [← follows.writer.mirrors.tree_eq] at reads
  exact ⟨_, .single ⟨_, .skip waits (follows.free thread)
    (follows.writer.returned thread) reads⟩, rfl, follows.free,
      congrArg (file :: ·) follows.failed, follows.writer⟩

/-- A file that is read is taken by a thread. -/
theorem take (follows : crew.Follows index progress tree (file :: files)) (thread : Fin threads)
    (reads : Chore.ofFile? scheme classifier crawlRoot tree file = some ⟨file, records, entry⟩) :
    Reaches index scheme classifier crawlRoot workerOf crew
      ({ crew with waiting := files }.hold thread (some ⟨file, records, entry⟩)) := by
  have waits : crew.waiting = [] ++ file :: files := follows.waiting
  rw [← follows.writer.mirrors.tree_eq] at reads
  exact .single ⟨_, .take waits (follows.free thread) (follows.writer.returned thread) reads⟩

/-- The thread gives it up if a record cannot be put. -/
theorem refused (follows : crew.Follows index progress tree (file :: files))
    (thread : Fin threads)
    (reads : Chore.ofFile? scheme classifier crawlRoot tree file = some ⟨file, records, entry⟩)
    (puts : (index.putRecords records).runOn tree = (.error failure, after)) :
    ∃ later, Reaches index scheme classifier crawlRoot workerOf crew later ∧
      later.Follows index { progress with failed := file :: progress.failed } after files := by
  rw [← follows.writer.mirrors.tree_eq] at puts
  refine ⟨_, (follows.take thread reads).trans (reaches_refused (hands_hold_self ..) puts), rfl,
    hands_hold_none fun other different => ?_, congrArg (file :: ·) follows.failed,
    follows.writer.withTree after⟩
  exact (Function.update_of_ne different ..).trans (follows.free other)

/-- Else it puts all records and adds the trigrams. -/
theorem stored (follows : crew.Follows index progress tree (file :: files)) (thread : Fin threads)
    (reads : Chore.ofFile? scheme classifier crawlRoot tree file = some ⟨file, records, entry⟩)
    (puts : (index.putRecords records).runOn tree = (.ok (), changed))
    (added : progress.writer.addDocument entry.1 entry.2.toList changed = (writer, after))
    (clean : writer.sink.failure = none) :
    ∃ later, Reaches index scheme classifier crawlRoot workerOf crew later ∧
      later.Follows index { progress with writer } after files := by
  rw [← follows.writer.mirrors.tree_eq] at puts
  obtain ⟨writer', adds, follows'⟩ :=
    (follows.writer.withTree changed).addDocument thread added clean
  let taken := { crew with waiting := files }.hold thread (some ⟨file, records, entry⟩)
  have put : Reaches index scheme classifier crawlRoot workerOf crew
      ((taken.withTree changed).hold thread (some ⟨file, [], entry⟩)) :=
    (follows.take thread reads).trans (reaches_putRecords (hands_hold_self ..) puts)
  refine ⟨_, (put.tail ⟨_, .post (hands_hold_self ..)⟩).trans (reaches_of_writer adds), rfl,
    hands_hold_none fun other different => ?_, follows.failed, follows'⟩
  exact ((Function.update_of_ne different ..).trans (Function.update_of_ne different ..)).trans
    (follows.free other)

/-- **One file.**  A thread indexes a file as the build does. -/
theorem addFile (follows : crew.Follows index progress tree (file :: files))
    (thread : Fin threads) (keeps : classifier.KeepsKeys)
    (run : index.addFile scheme classifier crawlRoot progress file tree = (last, after))
    (clean : last.writer.sink.failure = none) :
    ∃ later, Reaches index scheme classifier crawlRoot workerOf crew later ∧
      later.Follows index last after files := by
  rw [Index.addFile_eq, Index.storeDocument_eq] at run
  cases identity : DocumentIdentity.ofPath file crawlRoot scheme with
  | error failure =>
      rw [identity] at run
      cases run
      exact follows.passOver thread (by rw [Chore.ofFile?, identity])
  | ok id =>
      cases readable : tree.read file with
      | error fault =>
          rw [identity, readable] at run
          cases run
          exact follows.passOver thread (by rw [Chore.ofFile?, identity, readable])
      | ok content =>
          rw [identity, readable] at run
          simp only at run
          rw [Index.keepDocument_eq rfl
            (IndexedDocument.documentKey_ofContent keeps file id content), TaskM.runOn_bind] at run
          generalize made : IndexedDocument.ofContent classifier file id content = document at run
          have reads : Chore.ofFile? scheme classifier crawlRoot tree file =
              some ⟨file, document.records content, document.textEntry⟩ := by
            rw [Chore.ofFile?, identity, readable, ← made]
          rcases puts : (index.putRecords (document.records content)).runOn tree
            with ⟨failure | _, between⟩
          · rw [puts] at run
            cases run
            exact follows.refused thread reads puts
          · rw [puts] at run
            rcases added : progress.writer.addDocument document.textEntry.1
              document.textEntry.2.toList between with ⟨writer, final⟩
            simp only [TaskM.runOn_pure, added] at run
            cases run
            exact follows.stored thread reads puts added clean

end Follows

/-- Postings are handed over without a failure after a file only if there was none before. -/
theorem clean_of_addFile {progress next : Index.Progress} {tree : FileTree}
    (run : index.addFile scheme classifier crawlRoot progress file tree = (next, after))
    (clean : next.writer.sink.failure = none) : progress.writer.sink.failure = none := by
  rw [Index.addFile_eq] at run
  rcases stores : (index.storeDocument scheme classifier crawlRoot file).runOn tree
    with ⟨failure | entry, between⟩
  · rw [stores] at run
    cases run
    exact clean
  · rw [stores] at run
    cases run
    rw [← (PostingsWriter.addDocument_clean rfl clean).1]
    exact clean

/-- It indexes files as the build does. -/
theorem Follows.addFiles {progress last : Index.Progress} {tree : FileTree} {files : List Path}
    (follows : crew.Follows index progress tree files) (thread : Fin threads)
    (keeps : classifier.KeepsKeys)
    (run : (files.foldlM (index.addFile scheme classifier crawlRoot) progress :
      DiskM Index.Progress) tree = (last, after))
    (clean : last.writer.sink.failure = none) :
    ∃ later, Reaches index scheme classifier crawlRoot workerOf crew later ∧
      later.Follows index last after [] := by
  induction files generalizing crew progress tree with
  | nil =>
      cases run
      exact ⟨crew, .refl, follows⟩
  | cons file files ih =>
      rw [DiskM.foldlM_cons] at run
      rcases step : index.addFile scheme classifier crawlRoot progress file tree
        with ⟨next, between⟩
      rw [step] at run
      have still := DiskM.foldlM_back
        (P := fun progress : Index.Progress => progress.writer.sink.failure = none)
        clean_of_addFile run clean
      obtain ⟨middle, first, follows'⟩ := follows.addFile thread keeps step still
      obtain ⟨later, second, follows''⟩ := ih follows' run
      exact ⟨later, first.trans second, follows''⟩

end Crew

/-! ## The second pass -/

namespace Collector

variable {index : Index} {workers : Nat} {workerOf : Trigram → Fin workers}
  {collector later : Collector workers} {progress next : PostingsWriter × Nat}
  {key : DocumentKey} {keys : List DocumentKey} {tree after : FileTree}

/-- Some steps lead from one state to another. -/
def Reaches (index : Index) (workerOf : Trigram → Fin workers) :
    Collector workers → Collector workers → Prop :=
  Relation.ReflTransGen fun before after => ∃ told, before.Step index workerOf told after

theorem Reaches.exists_run (reaches : Reaches index workerOf collector later) :
    ∃ told, collector.Run index workerOf told later := exists_told reaches .refl .tail

/-- What the writer does while the thread comes to no record. -/
theorem reaches_of_writer {writer : SharedWriter 1 workers}
    (reaches : SharedWriter.Reaches index.threshold workerOf (index.root / Index.tagFolder)
      collector.writer writer) : Reaches index workerOf collector { collector with writer } := by
  let go (writer : SharedWriter 1 workers) : Collector workers := { collector with writer }
  refine Relation.ReflTransGen.lift go (fun before after step => ?_) _ _ reaches
  obtain ⟨told, step⟩ := step
  exact ⟨told, .write step⟩

/-- A collector goes by a second pass in progress. -/
structure Follows (index : Index) (progress : PostingsWriter × Nat) (tree : FileTree)
    (keys : List DocumentKey) (collector : Collector workers) : Prop where
  /-- These keys are left. -/
  left : collector.left = keys
  /-- The writer goes by that of the pass. -/
  writer : collector.writer.Follows index.threshold (index.root / Index.tagFolder) progress.1 tree

theorem follows_start (keys : List DocumentKey) (tree : FileTree) :
    (start keys tree : Collector workers).Follows index (index.tagWriter, 0) tree keys :=
  ⟨rfl, SharedWriter.follows_start tree _ _⟩

/-- The thread comes to a record as the pass does. -/
theorem Follows.addTags (follows : collector.Follows index progress tree (key :: keys))
    (run : index.addTags progress key tree = (next, after))
    (clean : next.1.sink.failure = none) :
    ∃ later, Reaches index workerOf collector later ∧ later.Follows index next after keys := by
  have same : collector.tree = tree := follows.writer.mirrors.tree_eq
  cases loads : index.metadata.load? tree key with
  | none =>
      rw [Index.addTags_of_none loads] at run
      cases run
      exact ⟨_, .single ⟨_, .pass follows.left follows.writer.returned (same.symm ▸ loads)⟩, rfl,
        follows.writer⟩
  | some record =>
      rw [Index.addTags_eq loads] at run
      rcases added : progress.1.addDocument key record.tagTrigrams.toList tree
        with ⟨writer, between⟩
      simp only [added] at run
      cases run
      have entry : progress.1.addDocument (key, record.tagTrigrams).1
        (key, record.tagTrigrams).2.toList tree = (writer, after) := added
      obtain ⟨writer', adds, follows'⟩ := follows.writer.addDocument 0 entry clean
      exact ⟨_, (reaches_of_writer adds).head ⟨_, .load follows.left follows.writer.returned
        (same.symm ▸ loads)⟩, rfl, follows'⟩

theorem clean_of_addTags (run : index.addTags progress key tree = (next, after))
    (clean : next.1.sink.failure = none) : progress.1.sink.failure = none := by
  cases loads : index.metadata.load? tree key with
  | none =>
      rw [Index.addTags_of_none loads] at run
      cases run
      exact clean
  | some record =>
      rw [Index.addTags_eq loads] at run
      cases run
      have added : progress.1.addDocument (key, record.tagTrigrams).1
        (key, record.tagTrigrams).2.toList tree = _ := rfl
      rw [← (PostingsWriter.addDocument_clean added clean).1]
      exact clean

/-- It comes to all records as the pass does. -/
theorem Follows.addAllTags (follows : collector.Follows index progress tree keys)
    (run : (keys.foldlM index.addTags progress : DiskM (PostingsWriter × Nat)) tree =
      (next, after))
    (clean : next.1.sink.failure = none) :
    ∃ later, Reaches index workerOf collector later ∧ later.Follows index next after [] := by
  induction keys generalizing collector progress tree with
  | nil =>
      cases run
      exact ⟨collector, .refl, follows⟩
  | cons key keys ih =>
      rw [DiskM.foldlM_cons] at run
      rcases step : index.addTags progress key tree with ⟨once, between⟩
      rw [step] at run
      have still := DiskM.foldlM_back
        (P := fun progress : PostingsWriter × Nat => progress.1.sink.failure = none)
        clean_of_addTags run clean
      obtain ⟨middle, first, follows'⟩ := follows.addTags step still
      obtain ⟨later, second, follows''⟩ := ih follows' run
      exact ⟨later, first.trans second, follows''⟩

end Collector

/-! ## All together -/

namespace Index

variable {index : Index} {location : Location} {scheme : KeyScheme} {classifier : Classifier}
  {crawlRoot : Path} {tree built : FileTree} {summary : BuildSummary}

variable {threads : Nat} {workerOf : Trigram → Fin index.config.workers} {before after : FileTree}

/-- One of several threads can do a first pass that succeeds. -/
theorem exists_sharedTexts {files : List Path} {start stored : FileTree} {progress : Progress}
    {later : PostingsWriter} (keeps : classifier.KeepsKeys) (thread : Fin threads)
    (indexes : index.addFiles scheme classifier crawlRoot files start = (progress, stored))
    (save : progress.writer.save stored = ((.ok (), later), after)) :
    ∃ texts : index.SharedTexts scheme classifier crawlRoot threads files start,
      texts.workerOf = workerOf ∧ texts.done.pool.tree = after := by
  obtain ⟨crew, run, follows⟩ := (Crew.follows_start files start).addFiles thread keeps indexes
    (PostingsWriter.clean_of_save save)
  obtain ⟨done, saves, left⟩ := follows.writer.saves thread save
  exact ⟨{
    workerOf
    crew
    run := run.exists_run
    finished := ⟨follows.waiting, follows.free, follows.writer.returned⟩
    done
    saves }, rfl, left⟩

/-- The thread that collects tags can do a second pass that succeeds. -/
theorem exists_sharedTags {result : BuildSummary}
    (run : (index.buildTags summary).runOn before = (.ok result, after)) :
    ∃ tags : index.SharedTags before, tags.workerOf = workerOf ∧ tags.done.pool.tree = after := by
  obtain ⟨cleared, keys, collected, between, clears, lists, collects, save, -⟩ :=
    buildTags_ok_iff.mp run
  obtain ⟨later, save⟩ := saveWriter_ok_iff.mp save
  obtain ⟨collector, run, follows⟩ := (Collector.follows_start keys cleared).addAllTags collects
    (PostingsWriter.clean_of_save save)
  obtain ⟨done, saves, left⟩ := follows.writer.saves 0 save
  exact ⟨{
    cleared
    clears
    keys
    lists
    workerOf
    collector
    run := run.exists_run
    finished := ⟨follows.left, follows.writer.returned⟩
    done
    saves }, rfl, left⟩

/-- **A build is one of those that threads can do.**  As many threads as the settings ask for can
come to the files and the summary of a build that does one thing after another, whichever worker it
is that each trigram belongs to. -/
theorem Builds.exists_sharedBuild
    (builds : index.Builds scheme classifier crawlRoot location tree summary built)
    (positive : 0 < threads)
    (asked : ∀ count, index.config.threads? = some count → threads = count)
    (workerOf : Trigram → Fin index.config.workers) :
    ∃ shared : index.SharedBuild scheme classifier crawlRoot tree,
      shared.threads = threads ∧ shared.texts.workerOf = workerOf ∧
        shared.tags.workerOf = workerOf ∧ shared.built = built ∧ shared.summary = summary := by
  obtain ⟨start, crawler, prepares, made, run⟩ := build_ok_iff.mp builds.succeeds
  obtain ⟨progress, stored, first, run⟩ := TaskM.bind_ok_iff.mp run
  obtain ⟨_, saved, save, run⟩ := TaskM.bind_ok_iff.mp run
  obtain ⟨result, tagged, second, run⟩ := TaskM.bind_ok_iff.mp run
  obtain ⟨_, formatted, marks, run⟩ := TaskM.bind_ok_iff.mp run
  cases run
  rw [TaskM.runOn_lift, Prod.mk.injEq, Except.ok.injEq] at first
  obtain ⟨later, save⟩ := saveWriter_ok_iff.mp save
  obtain ⟨texts, is, rfl⟩ := exists_sharedTexts builds.keepsKeys ⟨0, positive⟩
    (Prod.ext first.1 first.2) save
  obtain ⟨tags, is', rfl⟩ := exists_sharedTags second
  let shared : index.SharedBuild scheme classifier crawlRoot tree :=
    { threads, asked, start, prepares, crawler, made, texts, tags, built, marks }
  exact ⟨shared, rfl, is, is', rfl, (shared.alike builds).1⟩

end Index
end SourceSearch
