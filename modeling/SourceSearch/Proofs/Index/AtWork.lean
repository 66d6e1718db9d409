import Mathlib.Tactic.Abel
import SourceSearch.Proofs.Index.Crew

/-!
# Threads at work

While threads index files, each file waits, is in the hands of a thread, is stored or has failed.
What is stored is on disk, the writer has been given its trigrams, and nothing else is in the
stores.  Each step keeps that up, whichever thread or worker it is that goes on.  So when all is
done, the stores hold what there is to store of the files, those have failed of which there is
nothing to store, and a last save leaves the postings.
-/

namespace SourceSearch
namespace Crew

open StoredRecord SharedWriter

variable {index : Index} {location : Location} {scheme : KeyScheme} {classifier : Classifier}
  {crawlRoot : Path} {tree start : FileTree} {files : List Path} {threads workers : Nat}
  {workerOf : Trigram → Fin workers} {events told : List (WriterEvent threads)}
  {crew later : Crew threads workers}

/-- What has been stored. -/
def deposits (scheme : KeyScheme) (classifier : Classifier) (crawlRoot : Path) (start : FileTree)
    (crew : Crew threads workers) : Deposits :=
  crew.stored.filterMap (Index.stored? scheme classifier crawlRoot start)

/-- A crew at work: each file waits, is in the hands of a thread, is stored or has failed.  What is
stored is on disk and has been given to the writer. -/
structure AtWork (index : Index) (scheme : KeyScheme) (classifier : Classifier) (crawlRoot : Path)
    (location : Location) (start : FileTree) (files : List Path)
    (workerOf : Trigram → Fin workers) (events : List (WriterEvent threads))
    (crew : Crew threads workers) : Prop where
  /-- The index stands. -/
  stands : index.Stands location crew.tree
  /-- Nothing changes outside of these folders. -/
  agrees : start.AgreesOutside location Index.contentFolders crew.tree
  /-- The writer has been given what is stored. -/
  collecting : crew.writer.Collecting index.root Index.ownNames location Index.textFolder
    index.threshold workerOf
    ((crew.deposits scheme classifier crawlRoot start).map fun entry => entry.1.textEntry) events
  /-- Each file is somewhere. -/
  parted : (crew.waiting : Multiset Path) + ∑ thread, Chore.held (crew.hands thread) +
    (crew.failed : Multiset Path) + (crew.stored : Multiset Path) = (files : Multiset Path)
  /-- There is nothing to store of a file that has failed. -/
  failed : ∀ file ∈ crew.failed,
    Index.stored? scheme classifier crawlRoot start file = none
  /-- There is something to store of a file that is stored. -/
  stored : ∀ file ∈ crew.stored,
    (Index.stored? scheme classifier crawlRoot start file).isSome
  /-- Threads go by what there is to store. -/
  hands : ∀ thread chore, crew.hands thread = some chore →
    chore.Fits location crew.tree (Index.stored? scheme classifier crawlRoot start chore.file)
  /-- What is stored is on disk. -/
  kept : AllStand location (crew.deposits scheme classifier crawlRoot start).records crew.tree
  /-- Nothing else is in the stores. -/
  known : ∀ folder ∈ Index.documentStores, ∀ names content,
    crew.tree.fileAt? (location ++ folder :: names) = some content →
      ∃ record ∈ Deposits.records
          (files.filterMap (Index.stored? scheme classifier crawlRoot start)),
        record.place? location = some (location ++ folder :: names) ∧ record.content = content

/-! ## Files and threads -/

/-- A file that waits is taken out. -/
theorem coe_middle (front rest : List Path) (file : Path) :
    ((front ++ file :: rest : List Path) : Multiset Path) =
      ((front ++ rest : List Path) : Multiset Path) + {file} := by
  rw [Multiset.coe_eq_coe.mpr List.perm_middle, ← Multiset.cons_coe, ← Multiset.singleton_add,
    add_comm]

/-- Only one thread is at something else. -/
theorem hands_of_hold {thread one : Fin threads} {chore : Chore} {chore? : Option Chore}
    (holds : (crew.hold thread chore?).hands one = some chore) :
    one = thread ∧ chore? = some chore ∨ one ≠ thread ∧ crew.hands one = some chore := by
  rw [hold] at holds
  dsimp only at holds
  by_cases here : one = thread
  · subst here
    rw [Function.update_self] at holds
    exact .inl ⟨rfl, holds⟩
  · rw [Function.update_of_ne here] at holds
    exact .inr ⟨here, holds⟩

/-- What threads are at, once one of them is at something else. -/
theorem held_hold (crew : Crew threads workers) (thread : Fin threads) (chore? : Option Chore) :
    ∑ one, Chore.held ((crew.hold thread chore?).hands one) + Chore.held (crew.hands thread) =
      ∑ one, Chore.held (crew.hands one) + Chore.held chore? :=
  sum_update crew.hands thread chore? Chore.held

/-- What there is to store of one of the files is among all records. -/
theorem mem_records_of_stored? {file : Path} {deposit : IndexedDocument × ByteArray}
    (listed : file ∈ files)
    (is : Index.stored? scheme classifier crawlRoot start file = some deposit)
    {record : StoredRecord} (inside : record ∈ deposit.1.records deposit.2) :
    record ∈ Deposits.records
      (files.filterMap (Index.stored? scheme classifier crawlRoot start)) :=
  Deposits.mem_records_iff.mpr ⟨deposit, List.mem_filterMap.mpr ⟨file, listed, is⟩, inside⟩

namespace AtWork

section Step

variable (work : crew.AtWork index scheme classifier crawlRoot location start files workerOf events)

include work

theorem mem_of_stored {file : Path} (member : file ∈ crew.stored) : file ∈ files := by
  rw [← Multiset.mem_coe, ← work.parted]
  exact Multiset.mem_add.mpr (.inr member)

theorem mem_of_waiting {file : Path} (member : file ∈ crew.waiting) : file ∈ files := by
  rw [← Multiset.mem_coe, ← work.parted]
  exact Multiset.mem_add.mpr (.inl (Multiset.mem_add.mpr (.inl (Multiset.mem_add.mpr
    (.inl member)))))

theorem mem_of_hands {thread : Fin threads} {chore : Chore}
    (holds : crew.hands thread = some chore) : chore.file ∈ files := by
  have held : chore.file ∈ ∑ one, Chore.held (crew.hands one) :=
    Multiset.mem_sum.mpr ⟨thread, Finset.mem_univ thread, by
      rw [holds]
      exact Multiset.mem_singleton_self _⟩
  rw [← Multiset.mem_coe, ← work.parted]
  exact Multiset.mem_add.mpr (.inl (Multiset.mem_add.mpr (.inl (Multiset.mem_add.mpr
    (.inr held)))))

/-- All that is stored is of some files. -/
theorem records_subset {record : StoredRecord}
    (member : record ∈ (crew.deposits scheme classifier crawlRoot start).records) :
    record ∈ Deposits.records
      (files.filterMap (Index.stored? scheme classifier crawlRoot start)) := by
  obtain ⟨entry, listed, inside⟩ := Deposits.mem_records_iff.mp member
  obtain ⟨file, held, is⟩ := List.mem_filterMap.mp listed
  exact mem_records_of_stored? (work.mem_of_stored held) is inside

/-! ## What a step keeps -/

/-- A thread takes a file. -/
theorem take (steady : Index.AreSteady scheme classifier crawlRoot location start files)
    {thread : Fin threads} {file : Path} {front rest : List Path} {chore : Chore}
    (waits : crew.waiting = front ++ file :: rest) (free : crew.hands thread = none)
    (reads : Chore.ofFile? scheme classifier crawlRoot crew.tree file = some chore) :
    ({ crew with waiting := front ++ rest }.hold thread (some chore)).AtWork index scheme classifier
      crawlRoot location start files workerOf events := by
  obtain ⟨rfl, fits⟩ := Chore.fits_of_ofFile? location crew.tree reads
  have listed := work.mem_of_waiting (by rw [waits]; simp : chore.file ∈ crew.waiting)
  rw [steady chore.file listed crew.tree work.agrees] at fits
  exact { work with
    parted := by
      have moved := crew.held_hold thread (some chore)
      rw [free, Chore.held, Chore.held, add_zero] at moved
      have parted := work.parted
      rw [waits, coe_middle] at parted
      rw [← parted]
      change ((front ++ rest : List Path) : Multiset Path) +
        ∑ one, Chore.held ((crew.hold thread (some chore)).hands one) +
          (crew.failed : Multiset Path) + (crew.stored : Multiset Path) = _
      rw [moved]
      abel
    hands := fun one held holds => by
      rcases hands_of_hold holds with ⟨rfl, eq⟩ | ⟨-, before⟩
      · obtain rfl := Option.some.inj eq
        exact fits
      · exact work.hands one held before }

/-- A file that cannot be read has failed. -/
theorem skip (steady : Index.AreSteady scheme classifier crawlRoot location start files)
    {file : Path} {front rest : List Path} (waits : crew.waiting = front ++ file :: rest)
    (reads : Chore.ofFile? scheme classifier crawlRoot crew.tree file = none) :
    AtWork index scheme classifier crawlRoot location start files workerOf events
      { crew with waiting := front ++ rest, failed := file :: crew.failed } := by
  have listed := work.mem_of_waiting (by rw [waits]; simp : file ∈ crew.waiting)
  have nothing := Chore.stored?_of_ofFile?_eq_none reads
  rw [steady file listed crew.tree work.agrees] at nothing
  exact { work with
    parted := by
      have parted := work.parted
      rw [waits, coe_middle] at parted
      rw [← parted, ← Multiset.cons_coe, ← Multiset.singleton_add]
      abel
    failed := List.forall_mem_cons.mpr ⟨nothing, work.failed⟩ }

/-- The stores of documents change: nobody loses anything, and nothing comes in that is not of one
of the files. -/
theorem withTree {changed : FileTree} (stands : index.Stands location changed)
    (agrees : crew.tree.AgreesOutside location Index.documentStores changed)
    (hands : ∀ thread chore, crew.hands thread = some chore → chore.Fits location changed
      (Index.stored? scheme classifier crawlRoot start chore.file))
    (kept : AllStand location (crew.deposits scheme classifier crawlRoot start).records changed)
    (known : ∀ folder ∈ Index.documentStores, ∀ names content,
      changed.fileAt? (location ++ folder :: names) = some content →
        ∃ record ∈ Deposits.records
            (files.filterMap (Index.stored? scheme classifier crawlRoot start)),
          record.place? location = some (location ++ folder :: names) ∧
            record.content = content) :
    (crew.withTree changed).AtWork index scheme classifier crawlRoot location start files workerOf
      events where
  stands
  agrees := work.agrees.trans (agrees.mono fun _ => List.mem_cons_of_mem _)
  collecting := work.collecting.disturb agrees
    (fun _ member => Index.mem_ownNames_of_cleared (Index.documentStores_subset member))
    (by decide) stands.named
  parted := work.parted
  failed := work.failed
  stored := work.stored
  hands
  kept
  known

/-- A thread goes on with its file. -/
theorem goOn {thread : Fin threads} {chore next : Chore} (holds : crew.hands thread = some chore)
    (same : next.file = chore.file)
    (fits : next.Fits location crew.tree
      (Index.stored? scheme classifier crawlRoot start next.file)) :
    (crew.hold thread (some next)).AtWork index scheme classifier crawlRoot location start files
      workerOf events :=
  { work with
    parted := by
      have moved := crew.held_hold thread (some next)
      rw [holds, Chore.held, Chore.held, same] at moved
      have unchanged := add_right_cancel moved
      rw [← work.parted, ← unchanged]
      rfl
    hands := fun one held held_eq => by
      rcases hands_of_hold held_eq with ⟨rfl, eq⟩ | ⟨-, before⟩
      · obtain rfl := Option.some.inj eq
        exact fits
      · exact work.hands one held before }

/-- A thread gives up a file of which there is nothing to store. -/
theorem giveUp {thread : Fin threads} {chore : Chore} (holds : crew.hands thread = some chore)
    (nothing : Index.stored? scheme classifier crawlRoot start chore.file = none) :
    ({ crew with failed := chore.file :: crew.failed }.hold thread none).AtWork index scheme
      classifier crawlRoot location start files workerOf events :=
  { work with
    parted := by
      have moved := crew.held_hold thread none
      rw [holds, Chore.held, Chore.held, add_zero] at moved
      rw [← work.parted, ← moved]
      change (crew.waiting : Multiset Path) +
        ∑ one, Chore.held ((crew.hold thread none).hands one) +
          (chore.file :: crew.failed : List Path) + (crew.stored : Multiset Path) = _
      rw [← Multiset.cons_coe, ← Multiset.singleton_add]
      abel
    failed := List.forall_mem_cons.mpr ⟨nothing, work.failed⟩
    hands := fun one held held_eq => by
      rcases hands_of_hold held_eq with ⟨-, none_eq⟩ | ⟨-, before⟩
      · cases none_eq
      · exact work.hands one held before }

/-- A record that a thread puts is one of its file, and the others stay. -/
theorem put (distinct : Deposits.keys
      (files.filterMap (Index.stored? scheme classifier crawlRoot start)) |>.Nodup)
    {thread : Fin threads} {file : Path} {record : StoredRecord} {records : List StoredRecord}
    {entry : PostingsEntry} {changed : FileTree}
    (holds : crew.hands thread = some ⟨file, record :: records, entry⟩)
    (puts : (index.putRecord record).runOn crew.tree = (.ok (), changed)) :
    ((crew.withTree changed).hold thread (some ⟨file, records, entry⟩)).AtWork index scheme
      classifier crawlRoot location start files workerOf events := by
  have fits := work.hands thread _ holds
  have listed := work.mem_of_hands holds
  cases is : Index.stored? scheme classifier crawlRoot start file with
  | none =>
      rw [is] at fits
      obtain ⟨key, content, rest, eq, refused⟩ := fits
      obtain ⟨rfl, rfl⟩ := List.cons.inj eq
      obtain ⟨⟨failure, fails⟩, -⟩ := work.stands.putRefused refused puts
      cases fails
  | some deposit =>
      rw [is] at fits
      have inside := fits.mem_records List.mem_cons_self
      have one := mem_records_of_stored? listed is inside
      have apart := (Deposits.areApart_records distinct : AreApart location _) record one
      obtain ⟨storable, folder⟩ :=
        Index.isStorable_of_mem_records (Index.accepts_of_stored? is) inside
      obtain ⟨-, stands, agrees, puts⟩ := work.stands.putStorable storable puts
      have stored := work.withTree stands
        (agrees.mono fun _ same => List.mem_singleton.mp same ▸ folder)
        (fun thread chore held => (work.hands thread chore held).put puts
          fun deposit is other inside =>
            apart other (mem_records_of_stored? (work.mem_of_hands held) is inside))
        (work.kept.put puts fun other member => apart other (work.records_subset member))
        (fun folder member names content found => by
          rw [puts, putIn] at found
          split at found
          · cases found
            exact ⟨record, one, ‹_›, rfl⟩
          · exact work.known folder member names content found)
      refine stored.goOn holds rfl ?_
      have fits := stored.hands thread _ holds
      rw [is] at fits ⊢
      obtain ⟨document, put, split, stand⟩ := fits
      refine ⟨document, put ++ [record], by rw [split, List.append_assoc]; rfl, ?_⟩
      intro other member place there
      rcases List.mem_append.mp member with earlier | this
      · exact stand other earlier place there
      · obtain rfl := List.mem_singleton.mp this
        change changed.fileAt? place = _
        rw [puts, putIn, if_pos there]

/-- A record that cannot be put is the first one of a file of which there is nothing to store. -/
theorem refuse {thread : Fin threads} {file : Path} {record : StoredRecord}
    {records : List StoredRecord} {entry : PostingsEntry} {failure : Failure} {changed : FileTree}
    (holds : crew.hands thread = some ⟨file, record :: records, entry⟩)
    (puts : (index.putRecord record).runOn crew.tree = (.error failure, changed)) :
    ({ crew.withTree changed with failed := file :: crew.failed }.hold thread none).AtWork index
      scheme classifier crawlRoot location start files workerOf events := by
  have fits := work.hands thread _ holds
  cases is : Index.stored? scheme classifier crawlRoot start file with
  | some deposit =>
      rw [is] at fits
      obtain ⟨storable, -⟩ := Index.isStorable_of_mem_records (Index.accepts_of_stored? is)
        (fits.mem_records List.mem_cons_self)
      obtain ⟨fails, -⟩ := work.stands.putStorable storable puts
      cases fails
  | none =>
      rw [is] at fits
      obtain ⟨key, content, rest, eq, refused⟩ := fits
      obtain ⟨rfl, rfl⟩ := List.cons.inj eq
      obtain ⟨-, stands, agrees, same⟩ := work.stands.putRefused refused puts
      have unchanged := work.withTree stands agrees
        (fun thread chore held => (work.hands thread chore held).congr fun _ _ _ => by rw [same])
        (work.kept.congr (fun _ => Deposits.folder_of_mem_records) fun _ _ _ => by rw [same])
        (by rw [same]; exact work.known)
      exact unchanged.giveUp holds is

/-- A thread that has put all records of its file has stored it, and is given its trigrams. -/
theorem post {thread : Fin threads} {file : Path} {entry : PostingsEntry}
    (holds : crew.hands thread = some ⟨file, [], entry⟩) :
    ({ crew with
      stored := file :: crew.stored
      writer := crew.writer.assign thread (WriterCall.ofEntry entry) }.hold thread none).AtWork
        index scheme classifier crawlRoot location start files workerOf events := by
  have fits := work.hands thread _ holds
  cases is : Index.stored? scheme classifier crawlRoot start file with
  | none =>
      rw [is] at fits
      obtain ⟨key, content, rest, eq, -⟩ := fits
      cases eq
  | some deposit =>
      rw [is] at fits
      obtain ⟨document, put, split, stand⟩ := fits
      obtain rfl : entry = deposit.1.textEntry := document
      have all : deposit.1.records deposit.2 = put := split.trans (List.append_nil put)
      have more : deposits scheme classifier crawlRoot start
          ({ crew with
            stored := file :: crew.stored
            writer := crew.writer.assign thread (WriterCall.ofEntry deposit.1.textEntry) }.hold
              thread none) = deposit :: crew.deposits scheme classifier crawlRoot start :=
        List.filterMap_cons_some is
      exact {
        stands := work.stands
        agrees := work.agrees
        collecting := by
          rw [more]
          exact work.collecting.assign thread fun trigram inside =>
            (Index.length_of_mem_textEntry deposit.1 trigram inside).ge
        parted := by
          have moved := crew.held_hold thread none
          rw [holds, Chore.held, Chore.held, add_zero] at moved
          rw [← work.parted, ← moved]
          change (crew.waiting : Multiset Path) +
            ∑ one, Chore.held ((crew.hold thread none).hands one) +
              (crew.failed : Multiset Path) + (file :: crew.stored : List Path) = _
          rw [← Multiset.cons_coe, ← Multiset.singleton_add]
          abel
        failed := work.failed
        stored := List.forall_mem_cons.mpr ⟨Option.isSome_of_eq_some is, work.stored⟩
        hands := fun one chore held => by
          rcases hands_of_hold held with ⟨-, none_eq⟩ | ⟨-, before⟩
          · cases none_eq
          · exact work.hands one chore before
        kept := by
          rw [more]
          intro record member
          rcases List.mem_append.mp member with this | earlier
          · change record ∈ deposit.1.records deposit.2 at this
            rw [all] at this
            exact stand record this
          · exact work.kept record earlier
        known := work.known }

/-- A thread adds a trigram, or a worker writes. -/
theorem write {writer : SharedWriter threads workers}
    (step : crew.writer.Step index.threshold workerOf (index.root / Index.textFolder) told
      writer) :
    AtWork index scheme classifier crawlRoot location start files workerOf (events ++ told)
      { crew with writer } := by
  obtain ⟨stays, collecting⟩ := work.collecting.step step
  have same : ∀ folder ∈ Index.documentStores, ∀ names,
      writer.pool.tree.fileAt? (location ++ folder :: names) =
        crew.tree.fileAt? (location ++ folder :: names) := by
    intro folder member names
    have apart : folder ∉ [Index.textFolder] := by
      revert folder
      decide
    exact stays.agrees.fileAt?_below apart names
  exact {
    stands := work.stands.step (by decide) stays
    agrees := work.agrees.trans (stays.agrees.mono (by decide))
    collecting
    parted := work.parted
    failed := work.failed
    stored := work.stored
    hands := fun thread chore held => (work.hands thread chore held).congr same
    kept := work.kept.congr (fun _ => Deposits.folder_of_mem_records) same
    known := fun folder member names content found => by
      change writer.pool.tree.fileAt? _ = _ at found
      rw [same folder member] at found
      exact work.known folder member names content found }

/-- Every step keeps a crew at work. -/
theorem step (steady : Index.AreSteady scheme classifier crawlRoot location start files)
    (distinct : Deposits.keys
      (files.filterMap (Index.stored? scheme classifier crawlRoot start)) |>.Nodup)
    (step : crew.Step index scheme classifier crawlRoot workerOf told later) :
    later.AtWork index scheme classifier crawlRoot location start files workerOf
      (events ++ told) := by
  cases step with
  | write step => exact work.write step
  | take waits free _ reads =>
      rw [List.append_nil]
      exact work.take steady waits free reads
  | skip waits _ _ reads =>
      rw [List.append_nil]
      exact work.skip steady waits reads
  | put holds puts =>
      rw [List.append_nil]
      exact work.put distinct holds puts
  | refuse holds puts =>
      rw [List.append_nil]
      exact work.refuse holds puts
  | post holds =>
      rw [List.append_nil]
      exact work.post holds

/-- So does a whole run. -/
theorem run (steady : Index.AreSteady scheme classifier crawlRoot location start files)
    (distinct : Deposits.keys
      (files.filterMap (Index.stored? scheme classifier crawlRoot start)) |>.Nodup)
    (run : crew.Run index scheme classifier crawlRoot workerOf told later) :
    later.AtWork index scheme classifier crawlRoot location start files workerOf
      (events ++ told) := by
  induction run with
  | refl =>
      rw [List.append_nil]
      exact work
  | tail _ step ih =>
      rw [← List.append_assoc]
      exact ih.step steady distinct step

end Step
end AtWork

/-- A crew that has not begun is at work. -/
theorem atWork_start (prepared : index.Prepared location tree start)
    (workerOf : Trigram → Fin workers) (files : List Path) :
    (Crew.start files start : Crew threads workers).AtWork index scheme classifier crawlRoot
      location start files workerOf [] where
  stands := prepared.stands
  agrees := .refl _ _ _
  collecting := by
    have member : Index.textFolder ∈ Index.clearedFolders := by decide
    exact collecting_start (prepared.stands.site member (by decide)) prepared.stands.named
      (FileTree.fileAt?_of_none (prepared.cleared _ member)) index.threshold workerOf
  parted := by
    have idle : ∑ thread : Fin threads, Chore.held
        ((Crew.start files start : Crew threads workers).hands thread) = 0 :=
      Finset.sum_eq_zero fun _ _ => rfl
    rw [idle, add_zero]
    exact (add_zero _).trans (add_zero _)
  failed _ member := absurd member List.not_mem_nil
  stored _ member := absurd member List.not_mem_nil
  hands _ _ holds := by cases holds
  kept _ member := absurd member List.not_mem_nil
  known folder member names content found := by
    have gone : start.fileAt? (location ++ folder :: names) = none :=
      FileTree.fileAt?_of_none
        (prepared.cleared folder (Index.documentStores_subset member)) names
    change start.fileAt? _ = _ at found
    rw [gone] at found
    cases found

/-! ## When all is done -/

namespace AtWork

section Finished

variable (work : crew.AtWork index scheme classifier crawlRoot location start files workerOf events)
  (finished : crew.Finished)

include work finished

/-- Every file has failed or is stored. -/
theorem perm_files : (crew.failed ++ crew.stored).Perm files := by
  have parted := work.parted
  have idle : ∑ thread, Chore.held (crew.hands thread) = 0 :=
    Finset.sum_eq_zero fun thread _ => by rw [finished.hands thread, Chore.held]
  rw [finished.waiting, idle] at parted
  refine Multiset.coe_eq_coe.mp ?_
  rw [← parted, ← Multiset.coe_add]
  simp

/-- Those have failed of which there is nothing to store. -/
theorem mem_failed_iff {file : Path} (listed : file ∈ files) :
    file ∈ crew.failed ↔ (Index.stored? scheme classifier crawlRoot start file).isNone := by
  refine ⟨fun failed => by rw [work.failed file failed]; rfl, fun nothing => ?_⟩
  rcases List.mem_append.mp ((work.perm_files finished).mem_iff.mpr listed) with failed | stored
  · exact failed
  · have something := work.stored file stored
    rw [Option.isNone_iff_eq_none.mp nothing] at something
    cases something

/-- All is stored that there is to store, in some order. -/
theorem perm_deposits :
    (crew.deposits scheme classifier crawlRoot start).Perm
      (files.filterMap (Index.stored? scheme classifier crawlRoot start)) := by
  have all := (work.perm_files finished).filterMap (Index.stored? scheme classifier crawlRoot start)
  rwa [List.filterMap_append, List.filterMap_eq_nil_iff.mpr work.failed, List.nil_append] at all

/-- The stores hold what there is to store of the files. -/
theorem holdsFiles (distinct : Deposits.keys
      (files.filterMap (Index.stored? scheme classifier crawlRoot start)) |>.Nodup) :
    Index.HoldsFiles location
      (files.filterMap (Index.stored? scheme classifier crawlRoot start)) crew.tree := by
  intro folder member names
  refine Option.ext fun content => ?_
  rw [putAll_eq_some_iff (Deposits.areApart_records distinct)]
  refine ⟨work.known folder member names content, ?_⟩
  rintro ⟨record, listed, there, rfl⟩
  obtain ⟨entry, held, inside⟩ := Deposits.mem_records_iff.mp listed
  exact work.kept record (Deposits.mem_records_iff.mpr
    ⟨entry, (work.perm_deposits finished).mem_iff.mpr held, inside⟩) _ there

end Finished
end AtWork
end Crew
end SourceSearch
