import Mathlib.Tactic.Abel
import SourceSearch.Proofs.Index.Kept
import SourceSearch.Proofs.Postings.Flushes
import SourceSearch.Proofs.Postings.Shuffled

/-!
# Threads that index files

The first pass of a build is done by several threads.  A thread takes a file that nobody has begun,
reads it, puts its records one after another, and gives its trigrams to a writer that all threads
share.  Before it takes another file it adds them.  A file that cannot be read, or of which a record
cannot be put, has failed.  Steps of threads and of the workers that write shards interleave in
every order.

Files with different keys leave each other's records alone, and what there is to store of a file
does not depend on what is stored already.  So whatever the order is, all is there in the end that
there is to store.
-/

namespace SourceSearch

/-! ## What threads do -/

/-- A file that a thread has read, with what is still to be stored of it. -/
structure Chore where
  /-- The file. -/
  file : Path
  /-- The records that are not put yet. -/
  records : List StoredRecord
  /-- The document for the postings of texts. -/
  entry : PostingsEntry

/-- What there is to do for a file that lies below the crawl root and can be read. -/
def Chore.ofFile? (scheme : KeyScheme) (classifier : Classifier) (crawlRoot : Path)
    (tree : FileTree) (file : Path) : Option Chore :=
  match DocumentIdentity.ofPath file crawlRoot scheme, tree.read file with
  | .ok id, .ok content =>
      let document := IndexedDocument.ofContent classifier file id content
      some ⟨file, document.records content, document.textEntry⟩
  | _, _ => none

/-- Put a record into its store. -/
def Index.putRecord (index : Index) (record : StoredRecord) : TaskM Unit :=
  (Store.mk (index.root / record.folder)).put record.key record.suffix record.content

/-- Threads that index files, with the writer that they share.  The files on disk are those of the
writer. -/
structure Crew (threads workers : Nat) where
  /-- The files that nobody has begun. -/
  waiting : List Path
  /-- What each thread is at. -/
  hands : Fin threads → Option Chore := fun _ => none
  /-- The files that are stored, the last one first. -/
  stored : List Path := []
  /-- The files that have failed, the last one first. -/
  failed : List Path := []
  /-- The writer of the postings of texts. -/
  writer : SharedWriter threads workers

namespace Crew

variable {threads workers : Nat}

/-- Before the first step. -/
def start (files : List Path) (tree : FileTree) : Crew threads workers :=
  { waiting := files, writer := .start (fun _ => []) tree }

/-- The files on disk. -/
def tree (crew : Crew threads workers) : FileTree := crew.writer.pool.tree

/-- The crew with other files on disk. -/
def withTree (crew : Crew threads workers) (changed : FileTree) : Crew threads workers :=
  { crew with writer := { crew.writer with pool := { crew.writer.pool with tree := changed } } }

/-- The crew with something else for a thread to do. -/
def hold (crew : Crew threads workers) (thread : Fin threads) (chore? : Option Chore) :
    Crew threads workers :=
  { crew with hands := Function.update crew.hands thread chore? }

/-- A step of one thread or one worker. -/
inductive Step (index : Index) (scheme : KeyScheme) (classifier : Classifier) (crawlRoot : Path)
    (workerOf : Trigram → Fin workers) (crew : Crew threads workers) :
    List (WriterEvent threads) → Crew threads workers → Prop
  /-- A thread that has nothing to do takes a file and reads it. -/
  | take {thread : Fin threads} {file : Path} {front rest : List Path} {chore : Chore}
      (waits : crew.waiting = front ++ file :: rest) (free : crew.hands thread = none)
      (rests : crew.writer.collection.threads thread = ⟨[], .idle⟩)
      (reads : Chore.ofFile? scheme classifier crawlRoot crew.tree file = some chore) :
      Step index scheme classifier crawlRoot workerOf crew []
        ({ crew with waiting := front ++ rest }.hold thread (some chore))
  /-- A file that it takes has no key or cannot be read. -/
  | skip {thread : Fin threads} {file : Path} {front rest : List Path}
      (waits : crew.waiting = front ++ file :: rest) (free : crew.hands thread = none)
      (rests : crew.writer.collection.threads thread = ⟨[], .idle⟩)
      (reads : Chore.ofFile? scheme classifier crawlRoot crew.tree file = none) :
      Step index scheme classifier crawlRoot workerOf crew []
        { crew with waiting := front ++ rest, failed := file :: crew.failed }
  /-- It puts the next record. -/
  | put {thread : Fin threads} {file : Path} {record : StoredRecord} {records : List StoredRecord}
      {entry : PostingsEntry} {changed : FileTree}
      (holds : crew.hands thread = some ⟨file, record :: records, entry⟩)
      (puts : (index.putRecord record).runOn crew.tree = (.ok (), changed)) :
      Step index scheme classifier crawlRoot workerOf crew []
        ((crew.withTree changed).hold thread (some ⟨file, records, entry⟩))
  /-- The next record cannot be put. -/
  | refuse {thread : Fin threads} {file : Path} {record : StoredRecord}
      {records : List StoredRecord} {entry : PostingsEntry} {failure : Failure}
      {changed : FileTree} (holds : crew.hands thread = some ⟨file, record :: records, entry⟩)
      (puts : (index.putRecord record).runOn crew.tree = (.error failure, changed)) :
      Step index scheme classifier crawlRoot workerOf crew []
        ({ crew.withTree changed with failed := file :: crew.failed }.hold thread none)
  /-- All records are put, so the thread has the trigrams to add. -/
  | post {thread : Fin threads} {file : Path} {entry : PostingsEntry}
      (holds : crew.hands thread = some ⟨file, [], entry⟩) :
      Step index scheme classifier crawlRoot workerOf crew []
        ({ crew with
          stored := file :: crew.stored
          writer := crew.writer.assign thread (WriterCall.ofEntry entry) }.hold thread none)
  /-- A thread adds a trigram, or a worker writes. -/
  | write {told : List (WriterEvent threads)} {writer : SharedWriter threads workers}
      (step : crew.writer.Step index.threshold workerOf (index.root / Index.textFolder) told
        writer) :
      Step index scheme classifier crawlRoot workerOf crew told { crew with writer }

/-- Any number of steps, with all that is told of them. -/
inductive Run (index : Index) (scheme : KeyScheme) (classifier : Classifier) (crawlRoot : Path)
    (workerOf : Trigram → Fin workers) (crew : Crew threads workers) :
    List (WriterEvent threads) → Crew threads workers → Prop
  /-- No step. -/
  | refl : Run index scheme classifier crawlRoot workerOf crew [] crew
  /-- One more step. -/
  | tail {events told : List (WriterEvent threads)} {between later : Crew threads workers}
      (run : Run index scheme classifier crawlRoot workerOf crew events between)
      (step : between.Step index scheme classifier crawlRoot workerOf told later) :
      Run index scheme classifier crawlRoot workerOf crew (events ++ told) later

/-- No file is left to begin, and all threads have done what they had to do. -/
structure Finished (crew : Crew threads workers) : Prop where
  /-- All files are begun. -/
  waiting : crew.waiting = []
  /-- No thread is at a file. -/
  hands : ∀ thread, crew.hands thread = none
  /-- All trigrams are added. -/
  returned : crew.writer.Returned

/-! ### The pool below -/

/-- **A pool goes along with a crew.**  Clients and workers of a pool can do what the threads of a
crew and their workers do, come to the same files and meet no failure. -/
theorem Run.flushesBy {index : Index} {scheme : KeyScheme} {classifier : Classifier}
    {crawlRoot : Path} {workerOf : Trigram → Fin workers} {crew later : Crew threads workers}
    {told : List (WriterEvent threads)} {pool : FlushPool threads workers}
    (flushes : crew.writer.FlushesBy (index.root / Index.textFolder) pool)
    (run : crew.Run index scheme classifier crawlRoot workerOf told later) :
    ∃ events next, pool.OrderlyRun workerOf events next ∧
      later.writer.FlushesBy (index.root / Index.textFolder) next := by
  induction run with
  | refl => exact ⟨[], pool, .refl, flushes⟩
  | tail _ step ih =>
      obtain ⟨events, met, first, flushes⟩ := ih
      cases step with
      | take => exact ⟨events, met, first, flushes⟩
      | skip => exact ⟨events, met, first, flushes⟩
      | @put _ _ _ _ _ changed =>
          -- To the pool, what is put into stores are changes of the disk by other hands.
          obtain ⟨second, flushes⟩ := flushes.disturb changed
          exact ⟨_, _, first.trans second, flushes⟩
      | @refuse _ _ _ _ _ _ changed =>
          obtain ⟨second, flushes⟩ := flushes.disturb changed
          exact ⟨_, _, first.trans second, flushes⟩
      | post => exact ⟨events, met, first, flushes.assign _ _⟩
      | write step =>
          obtain ⟨more, next, second, flushes⟩ := flushes.step step
          exact ⟨_, next, first.trans second, flushes⟩

end Crew

/-! ## Records that do not get in each other's way -/

namespace StoredRecord

variable {location : Location} {before after : FileTree} {record : StoredRecord}
  {records : List StoredRecord}

/-- Records at one place have one content. -/
def AreApart (location : Location) (records : List StoredRecord) : Prop :=
  ∀ record ∈ records, ∀ other ∈ records, ∀ place, record.place? location = some place →
    other.place? location = some place → record.content = other.content

/-- Records that do so show at their places, however they are put. -/
theorem putAll_eq_some_iff (apart : AreApart location records) {place : Location}
    {content : ByteArray} :
    putAll location (fun _ => none) records place = some content ↔
      ∃ record ∈ records, record.place? location = some place ∧ record.content = content := by
  have shows (files : Files) : putAll location files records place = some content ↔
      (∃ record ∈ records, record.place? location = some place ∧ record.content = content) ∨
        (∀ record ∈ records, record.place? location ≠ some place) ∧
          files place = some content := by
    induction records generalizing files with
    | nil => simp [putAll]
    | cons first rest ih =>
        have apart' : AreApart location rest := fun one member other member' =>
          apart one (List.mem_cons_of_mem _ member) other (List.mem_cons_of_mem _ member')
        change putAll location (putIn location files first) rest place = _ ↔ _
        rw [ih apart', putIn]
        by_cases there : first.place? location = some place
        · have same : ∀ other ∈ rest, other.place? location = some place →
              first.content = other.content := fun other member there' =>
            apart first List.mem_cons_self other (List.mem_cons_of_mem _ member) place there there'
          simp only [there, if_true, Option.some.injEq, List.mem_cons, exists_eq_or_imp, true_and,
            forall_eq_or_imp, ne_eq, not_true_eq_false, false_and, or_false]
          constructor
          · rintro (⟨other, member, there', rfl⟩ | ⟨-, rfl⟩)
            · exact .inl (same other member there')
            · exact .inl rfl
          · rintro (rfl | other)
            · by_cases again : ∃ other ∈ rest, other.place? location = some place
              · obtain ⟨other, member, there'⟩ := again
                exact .inl ⟨other, member, there', (same other member there').symm⟩
              · exact .inr ⟨fun other member there' => again ⟨other, member, there'⟩, rfl⟩
            · exact .inl other
        · simp [there]
  rw [shows]
  simp

/-- All records stand at their places. -/
def AllStand (location : Location) (records : List StoredRecord) (tree : FileTree) : Prop :=
  ∀ record ∈ records, ∀ place, record.place? location = some place →
    tree.fileAt? place = some record.content

/-- They stay when another record is put, which has their content where it takes their place. -/
theorem AllStand.put (stand : AllStand location records before)
    (files : after.fileAt? = putIn location before.fileAt? record)
    (apart : ∀ other ∈ records, ∀ place, record.place? location = some place →
      other.place? location = some place → record.content = other.content) :
    AllStand location records after := by
  intro other member place there
  rw [files, putIn]
  split
  · rename_i here
    rw [apart other member place here there]
  · exact stand other member place there

/-- They stay when nothing changes in the stores. -/
theorem AllStand.congr (stand : AllStand location records before)
    (known : ∀ record ∈ records, record.folder ∈ Index.documentStores)
    (same : ∀ folder ∈ Index.documentStores, ∀ names,
      after.fileAt? (location ++ folder :: names) = before.fileAt? (location ++ folder :: names)) :
    AllStand location records after := by
  intro record member place there
  obtain ⟨names, -, rfl⟩ := place?_eq_some_iff.mp there
  rw [same _ (known record member)]
  exact stand record member _ there

end StoredRecord

namespace Deposits

variable {deposits : Deposits} {location : Location}

theorem mem_records_iff {record : StoredRecord} :
    record ∈ deposits.records ↔ ∃ entry ∈ deposits, record ∈ entry.1.records entry.2 :=
  List.mem_flatMap

/-- The record of one kind that a document has. -/
theorem eq_of_mem_records {document : IndexedDocument} {content : ByteArray}
    {record other : StoredRecord} (member : record ∈ document.records content)
    (member' : other ∈ document.records content) (suffix : record.suffix = other.suffix) :
    record = other := by
  have distinct : ((document.records content).map StoredRecord.suffix).Nodup :=
    (by decide : Store.documentSuffixes.Nodup)
  exact List.inj_on_of_nodup_map distinct member member' suffix

theorem key_of_mem_records {document : IndexedDocument} {content : ByteArray}
    {record : StoredRecord} (member : record ∈ document.records content) :
    record.key = document.key := by
  simp only [IndexedDocument.records, List.mem_cons, List.not_mem_nil, or_false] at member
  rcases member with rfl | rfl | rfl | rfl | rfl <;> rfl

theorem folder_of_mem_records {record : StoredRecord} (member : record ∈ deposits.records) :
    record.folder ∈ Index.documentStores := by
  obtain ⟨entry, -, inside⟩ := mem_records_iff.mp member
  simp only [IndexedDocument.records, List.mem_cons, List.not_mem_nil, or_false] at inside
  rcases inside with rfl | rfl | rfl | rfl | rfl <;>
    simp [Index.documentStores, Index.textStores]

/-- Documents with different keys have no place in common. -/
theorem areApart_records (distinct : deposits.keys.Nodup) :
    StoredRecord.AreApart location deposits.records := by
  intro record member other member' place there there'
  obtain ⟨names, placed, rfl⟩ := StoredRecord.place?_eq_some_iff.mp there
  obtain ⟨names', placed', same⟩ := StoredRecord.place?_eq_some_iff.mp there'
  obtain ⟨-, rfl⟩ : record.folder = other.folder ∧ names = names' := by simpa using same
  have suffix : record.suffix = other.suffix :=
    (Store.apart_of_mem_documentSuffixes (suffix_of_mem_records member)
      (suffix_of_mem_records member')).resolve_right fun apart =>
        Store.place?_ne_of_apart apart placed' placed
  have key := Store.place?_injective placed (suffix ▸ placed')
  obtain ⟨entry, listed, inside⟩ := mem_records_iff.mp member
  obtain ⟨entry', listed', inside'⟩ := mem_records_iff.mp member'
  rw [key_of_mem_records inside, key_of_mem_records inside'] at key
  obtain rfl : entry = entry' := List.inj_on_of_nodup_map distinct listed listed' key
  rw [eq_of_mem_records inside inside' suffix]

end Deposits

/-! ## What a crew keeps -/

namespace Chore

variable {scheme : KeyScheme} {classifier : Classifier} {crawlRoot file : Path}
  {before after : FileTree} {location : Location} {chore : Chore}

/-- The file that a thread is at. -/
def held : Option Chore → Multiset Path
  | some chore => {chore.file}
  | none => 0

/-- A chore goes by what there is to store of its file: some of the records are put, or there is
nothing to store, as the first record will be refused. -/
def Fits (location : Location) (tree : FileTree) (chore : Chore) :
    Option (IndexedDocument × ByteArray) → Prop
  | some entry => chore.entry = entry.1.textEntry ∧ ∃ put,
      entry.1.records entry.2 = put ++ chore.records ∧ StoredRecord.AllStand location put tree
  | none => ∃ key content rest,
      chore.records = ⟨documentsFolder, key, contentSuffix, content⟩ :: rest ∧
        Store.accepts key = false

/-- What a thread reads is what there is to store of the file. -/
theorem fits_of_ofFile? (location : Location) (tree : FileTree)
    (reads : ofFile? scheme classifier crawlRoot before file = some chore) :
    chore.file = file ∧
      chore.Fits location tree (Index.stored? scheme classifier crawlRoot before file) := by
  rw [ofFile?] at reads
  rw [Index.stored?]
  cases identity : DocumentIdentity.ofPath file crawlRoot scheme with
  | error failure =>
      rw [identity] at reads
      cases reads
  | ok id =>
      cases readable : before.read file with
      | error fault =>
          rw [identity, readable] at reads
          cases reads
      | ok content =>
          rw [identity, readable] at reads
          cases reads
          refine ⟨rfl, ?_⟩
          by_cases accepted : Store.accepts id.key = true
          · simp only [accepted, if_true]
            exact ⟨rfl, [], rfl, by simp [StoredRecord.AllStand]⟩
          · simp only [accepted, if_false, Bool.false_eq_true]
            exact ⟨id.key, content, _, rfl, Bool.eq_false_iff.mpr accepted⟩

theorem stored?_of_ofFile?_eq_none
    (reads : ofFile? scheme classifier crawlRoot before file = none) :
    Index.stored? scheme classifier crawlRoot before file = none := by
  rw [ofFile?] at reads
  rw [Index.stored?]
  cases identity : DocumentIdentity.ofPath file crawlRoot scheme with
  | error failure => rfl
  | ok id =>
      cases readable : before.read file with
      | error fault => rfl
      | ok content =>
          rw [identity, readable] at reads
          cases reads

variable {deposit? : Option (IndexedDocument × ByteArray)} {record : StoredRecord}

/-- What is left to put belongs to the document. -/
theorem Fits.mem_records {entry : IndexedDocument × ByteArray}
    (fits : chore.Fits location before (some entry)) (left : record ∈ chore.records) :
    record ∈ entry.1.records entry.2 := by
  obtain ⟨-, put, split, -⟩ := fits
  rw [split]
  exact List.mem_append_right _ left

/-- A chore stays right when a record is put that is not in the way. -/
theorem Fits.put (fits : chore.Fits location before deposit?)
    (files : after.fileAt? = StoredRecord.putIn location before.fileAt? record)
    (apart : ∀ entry ∈ deposit?, ∀ other ∈ entry.1.records entry.2, ∀ place,
      record.place? location = some place → other.place? location = some place →
        record.content = other.content) : chore.Fits location after deposit? := by
  cases deposit? with
  | none => exact fits
  | some entry =>
      obtain ⟨document, put, split, stand⟩ := fits
      refine ⟨document, put, split, stand.put files fun other member => apart entry rfl other ?_⟩
      rw [split]
      exact List.mem_append_left _ member

/-- A chore stays right when nothing changes in the stores. -/
theorem Fits.congr (fits : chore.Fits location before deposit?)
    (same : ∀ folder ∈ Index.documentStores, ∀ names,
      after.fileAt? (location ++ folder :: names) = before.fileAt? (location ++ folder :: names)) :
    chore.Fits location after deposit? := by
  cases deposit? with
  | none => exact fits
  | some entry =>
      obtain ⟨document, put, split, stand⟩ := fits
      refine ⟨document, put, split, stand.congr (fun record member => ?_) same⟩
      have inside : record ∈ Deposits.records [entry] :=
        Deposits.mem_records_iff.mpr ⟨entry, List.mem_singleton_self _, by
          rw [split]
          exact List.mem_append_left _ member⟩
      exact Deposits.folder_of_mem_records inside

end Chore
end SourceSearch
