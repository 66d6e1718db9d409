import SourceSearch.Proofs.Postings.Contents
import SourceSearch.Proofs.Postings.LastSave

/-!
# Documents that threads add

Threads add the trigrams of documents to one writer.  Each document is added by one thread, while
others add theirs.  When a last save returns, the folder has the postings of all documents; each
trigram may have met them in an order of its own.
-/

namespace SourceSearch

/-- The lists of some threads together. -/
theorem coe_flatMap_finRange {α : Type} {n : Nat} (lists : Fin n → List α) :
    ((List.finRange n).flatMap lists : Multiset α) = ∑ i, (lists i : Multiset α) := by
  rw [Fin.sum_univ_def]
  induction List.finRange n with
  | nil => rfl
  | cons i rest ih =>
      rw [List.flatMap_cons, ← Multiset.coe_add, ih, List.map_cons, List.sum_cons]

theorem mem_of_mem_sum {α : Type} {n : Nat} {lists : Fin n → List α} {all : List α}
    (sums : ∑ i, (lists i : Multiset α) = (all : Multiset α)) {value : α} :
    value ∈ all ↔ ∃ i, value ∈ lists i := by
  rw [← coe_flatMap_finRange] at sums
  rw [← (Multiset.coe_eq_coe.mp sums).mem_iff]
  simp

/-! ## Calls for documents -/

namespace WriterCall

variable {entry : PostingsEntry} {entries : List PostingsEntry} {trigram : Trigram}

/-- The calls that add a document. -/
def ofEntry (entry : PostingsEntry) : List WriterCall :=
  entry.2.toList.map fun trigram => .add trigram entry.1

/-- The calls that add documents. -/
def ofEntries (entries : List PostingsEntry) : List WriterCall := entries.flatMap ofEntry

theorem save_not_mem_ofEntry (entry : PostingsEntry) : .save ∉ ofEntry entry := by
  intro member
  obtain ⟨trigram, -, eq⟩ := List.mem_map.mp member
  cases eq

theorem save_not_mem_ofEntries (entries : List PostingsEntry) : .save ∉ ofEntries entries := by
  intro member
  obtain ⟨entry, -, save⟩ := List.mem_flatMap.mp member
  exact save_not_mem_ofEntry entry save

theorem mem_additionsIn_ofEntries {addition : Trigram × DocumentKey} :
    addition ∈ Collection.additionsIn (ofEntries entries) ↔
      ∃ entry ∈ entries, addition.1 ∈ entry.2 ∧ addition.2 = entry.1 := by
  rw [Collection.additionsIn, List.mem_filterMap]
  constructor
  · rintro ⟨call, member, adds⟩
    obtain ⟨entry, listed, made⟩ := List.mem_flatMap.mp member
    obtain ⟨trigram, inside, rfl⟩ := List.mem_map.mp made
    cases adds
    exact ⟨entry, listed, inside, rfl⟩
  · rintro ⟨entry, listed, inside, key⟩
    refine ⟨.add addition.1 addition.2, List.mem_flatMap.mpr ⟨entry, listed, ?_⟩, rfl⟩
    rw [key]
    exact List.mem_map_of_mem (SortedSet.mem_toList.mpr inside)

/-- A document is added once to each of its trigrams. -/
theorem keysFor_ofEntry (entry : PostingsEntry) (trigram : Trigram) :
    keysFor (ofEntry entry) trigram = if trigram ∈ entry.2 then [entry.1] else [] := by
  have once (trigrams : List Trigram) (distinct : trigrams.Nodup) :
      keysFor (trigrams.map fun trigram => .add trigram entry.1) trigram =
        if trigram ∈ trigrams then [entry.1] else [] := by
    induction trigrams with
    | nil => rfl
    | cons first rest ih =>
        obtain ⟨fresh, distinct⟩ := List.nodup_cons.mp distinct
        rw [List.map_cons, keysFor_cons, ih distinct, keyFor?]
        by_cases same : first = trigram
        · subst same
          simp [fresh]
        · simp [same, Ne.symm same]
  exact (once _ entry.2.nodup).trans (if_congr SortedSet.mem_toList rfl rfl)

/-- The keys of a trigram are those of the documents that have it. -/
theorem keysFor_ofEntries (entries : List PostingsEntry) (trigram : Trigram) :
    keysFor (ofEntries entries) trigram = keysWith entries trigram := by
  induction entries with
  | nil => rfl
  | cons entry rest ih =>
      have split : keysFor (ofEntries (entry :: rest)) trigram =
          keysFor (ofEntry entry) trigram ++ keysFor (ofEntries rest) trigram := by
        rw [ofEntries, List.flatMap_cons]
        exact List.filterMap_append
      rw [split, keysFor_ofEntry, ih, keysWith, keysWith]
      by_cases inside : trigram ∈ entry.2
      · rw [if_pos inside, List.filter_cons_of_pos (by simpa using inside)]
        rfl
      · rw [if_neg inside, List.filter_cons_of_neg (by simpa using inside)]
        rfl

end WriterCall

/-! ## Ledgers that hold something -/

namespace WriterEvent

variable {threads : Nat} {events : List (WriterEvent threads)} {trigram : Trigram}
  {key : DocumentKey}

/-- A ledger holds the keys that have been inserted. -/
theorem holds_ledger (threshold : Nat) (thread : Fin threads)
    (added : added thread trigram key ∈ events) : (ledger threshold events trigram).Holds key := by
  have kept (events : List (WriterEvent threads)) (before : Ledger) (holds : before.Holds key) :
      (events.foldl (observe threshold trigram) before).Holds key := by
    induction events generalizing before with
    | nil => exact holds
    | cons event rest ih =>
        refine ih _ ?_
        cases event with
        | added thread other key' =>
            rw [observe]
            split
            · exact Ledger.holds_add.mpr (.inr holds)
            · exact holds
        | flushed other =>
            rw [observe]
            split
            · exact Ledger.holds_flush.mpr holds
            · exact holds
        | submitted ready => exact holds
  obtain ⟨front, rest, rfl⟩ := List.append_of_mem added
  rw [ledger, List.foldl_append, List.foldl_cons]
  refine kept rest _ ?_
  rw [observe, if_pos rfl]
  exact Ledger.holds_add.mpr (.inl rfl)

end WriterEvent

namespace SharedWriter

open WriterEvent Collection

variable {root : Path} {own : List String} {location : Location} {folder : String}
  {threads workers threshold : Nat} {workerOf : Trigram → Fin workers}
  {adds : Fin threads → List (Trigram × DocumentKey)} {events told : List (WriterEvent threads)}
  {writer later : SharedWriter threads workers} {saver : Fin threads}
  {entries : List PostingsEntry}

/-- The keys that threads have been given to add are those of documents. -/
def AddEntries (adds : Fin threads → List (Trigram × DocumentKey)) (entries : List PostingsEntry) :
    Prop :=
  ∑ thread, (adds thread : Multiset (Trigram × DocumentKey)) =
    (additionsIn (WriterCall.ofEntries entries) : Multiset (Trigram × DocumentKey))

namespace AddEntries

theorem wide (addEntries : AddEntries adds entries)
    (wide : ∀ entry ∈ entries, ∀ trigram ∈ entry.2, 3 ≤ trigram.length) (thread : Fin threads) :
    ∀ addition ∈ adds thread, 3 ≤ addition.1.length := by
  intro addition member
  obtain ⟨entry, listed, inside, -⟩ := WriterCall.mem_additionsIn_ofEntries.mp
    ((mem_of_mem_sum addEntries).mpr ⟨thread, member⟩)
  exact wide entry listed _ inside

theorem nil : AddEntries (fun _ : Fin threads => []) [] := by
  simp [AddEntries, WriterCall.ofEntries, additionsIn]

/-- A thread is given one more document. -/
theorem assign (addEntries : AddEntries adds entries) (thread : Fin threads)
    (entry : PostingsEntry) :
    AddEntries (Function.update adds thread
      (adds thread ++ additionsIn (WriterCall.ofEntry entry))) (entry :: entries) := by
  have moved := sum_update adds thread (adds thread ++ additionsIn (WriterCall.ofEntry entry))
    fun list => (list : Multiset (Trigram × DocumentKey))
  rw [addEntries, ← Multiset.coe_add, ← add_assoc, add_right_comm] at moved
  rw [AddEntries, add_right_cancel moved, Multiset.coe_add, Multiset.coe_eq_coe,
    WriterCall.ofEntries, WriterCall.ofEntries, List.flatMap_cons, additionsIn, additionsIn,
    additionsIn, List.filterMap_append]
  exact List.perm_append_comm

/-- The documents may be listed in any order. -/
theorem perm {others : List PostingsEntry} (addEntries : AddEntries adds entries)
    (same : entries.Perm others) : AddEntries adds others := by
  refine Eq.trans addEntries (Multiset.coe_eq_coe.mpr ?_)
  exact (same.flatMap_right _).filterMap _

end AddEntries

/-- When all threads have returned, the writer knows exactly the trigrams of the documents. -/
theorem InStep.size_handles
    (inStep : writer.InStep root own location folder threshold workerOf adds events)
    (addEntries : AddEntries adds entries) (returned : writer.Returned) :
    writer.collection.handles.size = (trigramsOf entries).size := by
  have known (trigram : Trigram) :
      trigram ∈ writer.collection.handles.keys ↔ trigram ∈ trigramsOf entries := by
    rw [mem_trigramsOf_iff, SortedMap.keys, List.mem_map]
    constructor
    · rintro ⟨⟨_, handle⟩, member, rfl⟩
      obtain ⟨thread, key, asked⟩ :=
        inStep.accounts.asked _ handle (SortedMap.find?_eq_some_iff.mpr member)
      obtain ⟨entry, listed, inside, -⟩ := WriterCall.mem_additionsIn_ofEntries.mp
        ((mem_of_mem_sum addEntries).mpr ⟨thread, asked⟩)
      exact ⟨entry, listed, inside⟩
    · rintro ⟨entry, listed, inside⟩
      obtain ⟨thread, given⟩ := (mem_of_mem_sum addEntries).mp
        (WriterCall.mem_additionsIn_ofEntries.mpr ⟨entry, listed, inside, rfl⟩ :
          (trigram, entry.1) ∈ _)
      rw [← inStep.accounts.added thread, returned thread] at given
      obtain ⟨event, told, adds⟩ := List.mem_filterMap.mp
        ((List.mem_append.mp given).resolve_right (List.not_mem_nil))
      cases found : writer.collection.handles.find? trigram with
      | some handle => exact ⟨_, SortedMap.find?_eq_some_iff.mp found, rfl⟩
      | none =>
          cases event with
          | added one other key =>
              rw [additionOf?] at adds
              split at adds <;> cases adds
              have holds := holds_ledger threshold one told
              rw [inStep.accounts.unseen trigram found] at holds
              exact absurd holds Ledger.not_holds_empty
          | flushed => cases adds
          | submitted => cases adds
  have same : ⟨writer.collection.handles.keys, writer.collection.handles.ascending⟩ =
      trigramsOf entries := SortedSet.ext_mem known
  rw [SortedMap.size, SortedSet.size, ← same]
  exact (List.length_map Prod.fst).symm

/-- A writer whose threads only add documents, those that they have been given. -/
structure Collecting (root : Path) (own : List String) (location : Location) (folder : String)
    (threshold : Nat) (workerOf : Trigram → Fin workers) (entries : List PostingsEntry)
    (events : List (WriterEvent threads)) (writer : SharedWriter threads workers) : Prop where
  /-- The writer is in step with what has been told, and has been given the documents. -/
  given : ∃ adds, AddEntries adds entries ∧
    writer.InStep root own location folder threshold workerOf adds events
  /-- Trigrams are long enough for a place of their own. -/
  wide : ∀ entry ∈ entries, ∀ trigram ∈ entry.2, 3 ≤ trigram.length
  /-- Threads only add keys. -/
  onlyAdds : writer.collection.OnlyAdds
  /-- So nothing has been flushed. -/
  unflushed : ∀ trigram, flushed trigram ∉ events

/-- Before the first step. -/
theorem collecting_start {tree : FileTree} (site : Namespace root own location folder tree)
    (named : tree.WellNamed) (fresh : ∀ names, tree.fileAt? (location ++ folder :: names) = none)
    (threshold : Nat) (workerOf : Trigram → Fin workers) :
    (start (fun _ => []) tree : SharedWriter threads workers).Collecting root own location folder
      threshold workerOf [] [] where
  given := ⟨_, .nil, inStep_start site named fresh threshold workerOf fun _ => []⟩
  wide _ member := absurd member List.not_mem_nil
  onlyAdds := onlyAdds_start (fun _ => List.not_mem_nil) tree
  unflushed _ := List.not_mem_nil

namespace Collecting

variable (collecting : writer.Collecting root own location folder threshold workerOf entries events)

include collecting

/-- The documents may be listed in any order. -/
theorem perm {others : List PostingsEntry} (same : entries.Perm others) :
    writer.Collecting root own location folder threshold workerOf others events := by
  obtain ⟨adds, addEntries, inStep⟩ := collecting.given
  exact ⟨⟨adds, addEntries.perm same, inStep⟩,
    fun entry member => collecting.wide entry (same.mem_iff.mpr member), collecting.onlyAdds,
    collecting.unflushed⟩

/-- A thread is given one more document. -/
theorem assign (thread : Fin threads) {entry : PostingsEntry}
    (wide : ∀ trigram ∈ entry.2, 3 ≤ trigram.length) :
    (writer.assign thread (WriterCall.ofEntry entry)).Collecting root own location folder threshold
      workerOf (entry :: entries) events := by
  obtain ⟨adds, addEntries, inStep⟩ := collecting.given
  exact ⟨⟨_, addEntries.assign thread entry, inStep.assign thread _⟩,
    List.forall_mem_cons.mpr ⟨wide, collecting.wide⟩,
    onlyAdds_assign collecting.onlyAdds (WriterCall.save_not_mem_ofEntry entry),
    collecting.unflushed⟩

/-- One step changes nothing but files of the namespace. -/
theorem step (step : writer.Step threshold workerOf (root / folder) told later) :
    FileTree.StaysIn location folder 3 writer.pool.tree later.pool.tree ∧
      later.Collecting root own location folder threshold workerOf entries (events ++ told) := by
  obtain ⟨adds, addEntries, inStep⟩ := collecting.given
  have wide := addEntries.wide collecting.wide
  obtain ⟨onlyAdds, quiet⟩ := not_flushed_of_run collecting.onlyAdds (.tail .refl step)
  exact ⟨inStep.staysIn wide step, ⟨adds, addEntries, inStep.step wide step⟩, collecting.wide,
    onlyAdds, fun trigram flushed =>
      (List.mem_append.mp flushed).elim (collecting.unflushed trigram) (quiet trigram)⟩

/-- Other folders may change. -/
theorem disturb {changed : FileTree} {others : List String}
    (agrees : writer.pool.tree.AgreesOutside location others changed) (subset : others ⊆ own)
    (apart : folder ∉ others) (named : changed.WellNamed) :
    Collecting root own location folder threshold workerOf entries events
      { writer with pool := { writer.pool with tree := changed } } := by
  obtain ⟨adds, addEntries, inStep⟩ := collecting.given
  exact ⟨⟨adds, addEntries, inStep.disturb agrees subset apart named⟩, collecting.wide,
    collecting.onlyAdds, collecting.unflushed⟩

/-- When a last save has returned, the folder has the postings of the documents, and the writer
knows exactly their trigrams. -/
theorem saved (returned : writer.Returned)
    (save : (writer.call saver .save).Run threshold workerOf (root / folder) told later)
    (returned' : later.Returned) :
    FileTree.StaysIn location folder 3 writer.pool.tree later.pool.tree ∧
      HoldsShuffled location folder threshold entries later.pool.tree ∧
      later.collection.handles.size = (trigramsOf entries).size := by
  obtain ⟨adds, addEntries, inStep⟩ := collecting.given
  have wide := addEntries.wide collecting.wide
  have saving := inStep.save saver
  have saved := saving.run wide save
  refine ⟨saving.run_staysIn wide save, ⟨saved.delivers.site.layered, fun trigram long => ?_⟩,
    saved.size_handles addEntries returned'⟩
  have calls : (callsOf events).Perm (WriterCall.ofEntries entries) := by
    rw [← map_additionsIn (WriterCall.save_not_mem_ofEntries entries)]
    refine (inStep.callsOf_perm returned).trans (List.Perm.map _ (Multiset.coe_eq_coe.mp ?_))
    rw [coe_flatMap_finRange, addEntries]
  refine ⟨WriterCall.keysFor (callsOf events) trigram, ?_, ?_⟩
  · rw [← WriterCall.keysFor_ofEntries]
    exact calls.filterMap _
  · have written :=
      inStep.written_of_save wide collecting.unflushed returned save returned' long
    rwa [Ledger.after_of_not_mem
      (calls.mem_iff.not.mpr (WriterCall.save_not_mem_ofEntries entries))] at written

end Collecting
end SharedWriter
end SourceSearch
