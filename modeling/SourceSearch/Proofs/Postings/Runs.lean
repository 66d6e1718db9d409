import SourceSearch.Proofs.Postings.Reading

/-!
# Runs of a writer

A writer is used by adding keys and saving, in any order.  Each call is one step of every ledger,
so after a run that ends with a save the files of a trigram are the shards of its ledger, and a
reader finds the keys that were added.
-/

namespace SourceSearch

/-- A call of a writer. -/
inductive WriterCall where
  /-- A document contains a trigram. -/
  | add (trigram : Trigram) (key : DocumentKey)
  /-- Everything added so far has to be written. -/
  | save
  deriving DecidableEq

namespace WriterCall

/-- Make a call; only saving tells of failures. -/
def run (writer : PostingsWriter) : WriterCall → DiskM (Except Failure Unit × PostingsWriter)
  | add trigram key => do return (.ok (), ← writer.add trigram key)
  | save => writer.save

/-- The trigram of the call, if it has one, has three characters or more. -/
def IsWide : WriterCall → Prop
  | add trigram _ => 3 ≤ trigram.length
  | save => True

instance (call : WriterCall) : Decidable call.IsWide :=
  match call with
  | add trigram _ => inferInstanceAs (Decidable (3 ≤ trigram.length))
  | save => inferInstanceAs (Decidable True)

/-- The key that a call adds to a trigram. -/
def keyFor? (trigram : Trigram) : WriterCall → Option DocumentKey
  | add other key => if other = trigram then some key else none
  | save => none

/-- The keys that calls add to a trigram, in order. -/
def keysFor (calls : List WriterCall) (trigram : Trigram) : List DocumentKey :=
  calls.filterMap (keyFor? trigram)

theorem keysFor_cons (call : WriterCall) (rest : List WriterCall) (trigram : Trigram) :
    keysFor (call :: rest) trigram = (call.keyFor? trigram).toList ++ keysFor rest trigram := by
  rw [keysFor]
  cases key : call.keyFor? trigram with
  | none => rw [List.filterMap_cons_none key, Option.toList_none, List.nil_append, keysFor]
  | some added =>
      rw [List.filterMap_cons_some key, Option.toList_some, List.singleton_append, keysFor]

end WriterCall

/-- Make calls one after another until one fails. -/
def PostingsWriter.runAll :
    List WriterCall → PostingsWriter → DiskM (Except Failure Unit × PostingsWriter)
  | [], writer => return (.ok (), writer)
  | call :: rest, writer => do
      let (outcome, next) ← call.run writer
      if outcome.isOk then runAll rest next else return (outcome, next)

/-! ## Ledgers of runs -/

namespace Ledger

variable {threshold : Nat} {trigram : Trigram} {ledger : Ledger} {key : DocumentKey}
  {calls : List WriterCall}

/-- What a call does to the ledger of a trigram. -/
def call (threshold : Nat) (trigram : Trigram) (ledger : Ledger) : WriterCall → Ledger
  | .add other key => if other = trigram then ledger.add threshold key else ledger
  | .save => ledger.flush

/-- The ledger of a trigram after calls. -/
def after (threshold : Nat) (trigram : Trigram) (ledger : Ledger) (calls : List WriterCall) :
    Ledger :=
  calls.foldl (call threshold trigram) ledger

theorem Bounded.call (bounded : Bounded threshold ledger) (call : WriterCall) :
    Bounded threshold (ledger.call threshold trigram call) := by
  cases call with
  | add other key =>
      rw [Ledger.call]
      split
      · exact bounded.add
      · exact bounded
  | save => exact bounded.flush

theorem Bounded.after (bounded : Bounded threshold ledger) (calls : List WriterCall) :
    Bounded threshold (ledger.after threshold trigram calls) := by
  induction calls generalizing ledger with
  | nil => exact bounded
  | cons call rest ih => exact ih (bounded.call call)

theorem holds_call (call : WriterCall) :
    (ledger.call threshold trigram call).Holds key ↔
      call.keyFor? trigram = some key ∨ ledger.Holds key := by
  cases call with
  | add other added =>
      rw [Ledger.call, WriterCall.keyFor?]
      split
      · rw [holds_add, Option.some_inj, eq_comm]
      · simp
  | save => simp [Ledger.call, WriterCall.keyFor?]

theorem holds_after (calls : List WriterCall) :
    (ledger.after threshold trigram calls).Holds key ↔
      key ∈ WriterCall.keysFor calls trigram ∨ ledger.Holds key := by
  induction calls generalizing ledger with
  | nil => simp [after, WriterCall.keysFor]
  | cons call rest ih =>
      rw [after, List.foldl_cons, ← after, ih, holds_call, WriterCall.keysFor_cons,
        List.mem_append, Option.mem_toList, ← or_assoc, or_comm (a := key ∈ _)]

/-- Without saves in between, keys are added one after another. -/
theorem after_of_not_mem (unsaved : WriterCall.save ∉ calls) :
    ledger.after threshold trigram calls =
      (WriterCall.keysFor calls trigram).foldl (add threshold) ledger := by
  induction calls generalizing ledger with
  | nil => rfl
  | cons call rest ih =>
      rw [List.mem_cons, not_or] at unsaved
      rw [after, List.foldl_cons, ← after, ih unsaved.2, WriterCall.keysFor_cons,
        List.foldl_append]
      cases call with
      | add other key =>
          rw [Ledger.call, WriterCall.keyFor?]
          split <;> rfl
      | save => exact absurd rfl unsaved.1

end Ledger

/-- Adding a key changes the ledger of its trigram only. -/
theorem Ledgers.call_add (threshold : Nat) (ledgers : Ledgers) (trigram : Trigram)
    (key : DocumentKey) :
    (fun other => (ledgers other).call threshold other (.add trigram key)) =
      ledgers.set trigram ((ledgers trigram).add threshold key) := by
  funext other
  rw [Ledger.call, Ledgers.set]
  by_cases same : other = trigram
  · rw [if_pos same.symm, if_pos same, same]
  · rw [if_neg (Ne.symm same), if_neg same]

/-! ## Runs and files -/

section Runs

variable {root : Path} {own : List String} {location : Location} {folder : String}
  {before after : FileTree} {threshold : Nat} {writer later : PostingsWriter}
  {ledgers : Ledgers}

theorem PostingsWriter.runAll_cons_eq_ok {call : WriterCall} {rest : List WriterCall} :
    runAll (call :: rest) writer before = ((.ok (), later), after) ↔
      ∃ next between, call.run writer before = ((.ok (), next), between) ∧
        runAll rest next between = ((.ok (), later), after) := by
  rcases step : call.run writer before with ⟨⟨outcome, next⟩, between⟩
  rw [runAll, DiskM.bind_apply, step]
  constructor
  · intro run
    cases outcome with
    | ok => exact ⟨next, between, rfl, run⟩
    | error failure => cases run
  · rintro ⟨_, _, ⟨⟩, run⟩
    exact run

theorem PostingsWriter.runAll_append_eq_ok {front rest : List WriterCall} :
    runAll (front ++ rest) writer before = ((.ok (), later), after) ↔
      ∃ next between, runAll front writer before = ((.ok (), next), between) ∧
        runAll rest next between = ((.ok (), later), after) := by
  induction front generalizing writer before with
  | nil =>
      constructor
      · exact fun run => ⟨writer, before, rfl, run⟩
      · rintro ⟨_, _, ⟨⟩, run⟩
        exact run
  | cons call front ih =>
      rw [List.cons_append, runAll_cons_eq_ok]
      simp only [ih, runAll_cons_eq_ok]
      grind

/-- A call that succeeds is one step of every ledger. -/
theorem Keeps.call (site : Namespace root own location folder before)
    (keeps : Keeps root location folder threshold ledgers writer before) {call : WriterCall}
    (wide : call.IsWide) (run : call.run writer before = ((.ok (), later), after)) :
    FileTree.StaysIn location folder 3 before after ∧
      Keeps root location folder threshold
        (fun trigram => (ledgers trigram).call threshold trigram call) later after := by
  cases call with
  | add trigram key =>
      rcases step : writer.add trigram key before with ⟨next, between⟩
      rw [WriterCall.run, DiskM.bind_apply, step] at run
      cases run
      rw [Ledgers.call_add]
      exact keeps.add site wide step
  | save =>
      obtain ⟨stays, kept⟩ := keeps.save site run
      exact ⟨stays, (kept rfl).2⟩

/-- Calls that succeed are steps of every ledger. -/
theorem Keeps.runAll (site : Namespace root own location folder before)
    (keeps : Keeps root location folder threshold ledgers writer before)
    {calls : List WriterCall} (wide : ∀ call ∈ calls, call.IsWide)
    (run : PostingsWriter.runAll calls writer before = ((.ok (), later), after)) :
    FileTree.StaysIn location folder 3 before after ∧
      Keeps root location folder threshold
        (fun trigram => (ledgers trigram).after threshold trigram calls) later after := by
  induction calls generalizing writer before ledgers with
  | nil =>
      cases run
      exact ⟨.refl _, keeps⟩
  | cons call rest ih =>
      rw [List.forall_mem_cons] at wide
      obtain ⟨next, between, first, run⟩ := PostingsWriter.runAll_cons_eq_ok.mp run
      obtain ⟨stays, kept⟩ := keeps.call site wide.1 first
      obtain ⟨stays', kept'⟩ := ih (site.step stays) kept wide.2 run
      exact ⟨stays.trans stays', kept'⟩

end Runs

/-! ## Saving again -/

namespace PostingsWriter

variable {writer : PostingsWriter}

theorem foldlM_flush_of_isEmpty (writer : PostingsWriter)
    {entries : List (Trigram × PendingPostings)} (idle : ∀ entry ∈ entries, entry.2.keys.isEmpty) :
    ∃ later : PostingsWriter, later.sink = writer.sink ∧ ∀ tree,
      (entries.foldlM (fun writer (trigram, waiting) => writer.flush trigram waiting) writer :
        DiskM PostingsWriter) tree = (later, tree) := by
  induction entries generalizing writer with
  | nil => exact ⟨writer, rfl, fun _ => rfl⟩
  | cons entry rest ih =>
      rw [List.forall_mem_cons] at idle
      obtain ⟨later, sink, rests⟩ :=
        ih { writer with pending := writer.pending.insert entry.1 entry.2 } idle.2
      refine ⟨later, sink, fun tree => ?_⟩
      have first : writer.flush entry.1 entry.2 tree =
          ({ writer with pending := writer.pending.insert entry.1 entry.2 }, tree) := by
        rw [flush, PendingPostings.nextShard, if_pos idle.1]
        rfl
      rw [DiskM.foldlM_cons]
      simp only [first]
      exact rests tree

/-- A writer without pending keys and failures has nothing to save. -/
theorem save_of_isEmpty (idle : ∀ entry ∈ writer.pending.toList, entry.2.keys.isEmpty)
    (clean : writer.sink.failure = none) :
    ∃ later, ∀ tree, writer.save tree = ((.ok (), later), tree) := by
  obtain ⟨later, sink, flushes⟩ := foldlM_flush_of_isEmpty writer idle
  refine ⟨later, fun tree => ?_⟩
  have settled : later.sink.settle = (.ok (), later.sink) := by
    rw [ShardSink.settle, sink, clean]
  rw [writer.save_eq (flushes tree), settled]

end PostingsWriter

/-! ## What a saved run leaves -/

/-- The files of a trigram hold a set of keys in shards of a bounded size. -/
structure StoresKeys (base : Path) (threshold : Nat) (tree : FileTree) (trigram : Trigram)
    (keys : SortedSet DocumentKey) (shards : List (SortedSet DocumentKey)) : Prop where
  /-- The shard files are numbered from zero without a gap and carry their number and trigram. -/
  shard : ∀ generation,
    (tree.read (Postings.shardFile base trigram generation)).toOption =
      shards[generation]?.map (shardBytes trigram generation)
  /-- No shard is empty or larger than the threshold. -/
  sized : ∀ shard ∈ shards, 0 < shard.size ∧ shard.size ≤ threshold
  /-- The count file tells how many keys the shards have together. -/
  count : (tree.read (Postings.countFile base trigram)).toOption =
    if shards = [] then none else some (countBytes trigram (shards.map SortedSet.size).sum)
  /-- Every key is counted. -/
  counted : keys.size ≤ (shards.map SortedSet.size).sum
  /-- Readers that admit all shards find the keys. -/
  documents : ∀ reader : PostingsReader, reader.base = base →
    shards.length ≤ reader.maxGenerations → reader.maxGenerations ≤ Json.max32 →
      reader.documents tree trigram = keys
  /-- Readers are told the number of keys in the shards. -/
  declared : ∀ reader : PostingsReader, reader.base = base → shards ≠ [] →
    (shards.map SortedSet.size).sum ≤ Json.max64 →
      reader.declared tree trigram = .ok (some (shards.map SortedSet.size).sum)

section Saved

variable {root : Path} {own : List String} {location : Location} {folder : String}
  {tree saved : FileTree} {threshold : Nat} {trigram : Trigram} {ledger : Ledger}

/-- The files of a bounded ledger hold its keys after a flush. -/
theorem Written.storesKeys (site : Namespace root own location folder tree)
    (named : tree.WellNamed)
    (written : Written location folder tree trigram ledger.flush)
    (bounded : ledger.flush.Bounded threshold) {keys : List DocumentKey}
    (holds : ∀ key, ledger.Holds key ↔ key ∈ keys) :
    StoresKeys (root / folder) threshold tree trigram (.ofList keys) ledger.flush.shards := by
  obtain ⟨entries, found⟩ := site.hosts.find
  exact {
    shard := written.read_shard named found site.layered site.plain
    sized := bounded.sized
    count := written.read_count named found site.layered site.plain
    counted := Ledger.size_ofList_le fun key member =>
      Ledger.holds_flush_iff.mp ((holds key).mpr member)
    documents := fun reader base enough fits => SortedSet.ext_mem fun key => by
      rw [PostingsReader.mem_documents_iff named found site.layered site.plain base written
        fits enough, holds, SortedSet.mem_ofList]
    declared := fun reader base filled fits =>
      PostingsReader.declared_eq named found site.layered site.plain base written filled fits }

/-- The ledger of a trigram after calls. -/
def Ledger.ofCalls (threshold : Nat) (calls : List WriterCall) (trigram : Trigram) : Ledger :=
  Ledger.after (max threshold 1) trigram {} calls

theorem Ledger.bounded_ofCalls (threshold : Nat) (calls : List WriterCall) (trigram : Trigram) :
    (Ledger.ofCalls threshold calls trigram).Bounded (max threshold 1) :=
  (Ledger.bounded_empty (by omega)).after calls

theorem Ledger.holds_ofCalls {calls : List WriterCall} {key : DocumentKey} :
    (Ledger.ofCalls threshold calls trigram).Holds key ↔
      key ∈ WriterCall.keysFor calls trigram := by
  rw [ofCalls, holds_after, or_iff_left not_holds_empty]

/-- Calls without a save that add no key twice fill the shards. -/
theorem Ledger.filled_ofCalls (threshold : Nat) {calls : List WriterCall}
    (unsaved : WriterCall.save ∉ calls) (distinct : (WriterCall.keysFor calls trigram).Nodup) :
    Filled (max threshold 1) (Ledger.ofCalls threshold calls trigram)
      (WriterCall.keysFor calls trigram).length := by
  have none_added : Filled (max threshold 1) {} 0 := filled_empty (by omega)
  have filled := none_added.foldl_add distinct fun key _ => not_holds_empty
  rwa [Nat.zero_add, ← after_of_not_mem unsaved] at filled

/-- After calls and a save that succeed, a writer has the files of its ledgers and nothing left to
save. -/
theorem PostingsWriter.written_of_runAll (site : Namespace root own location folder tree)
    (fresh : ∀ names, tree.fileAt? (location ++ folder :: names) = none)
    {calls : List WriterCall} (wide : ∀ call ∈ calls, call.IsWide) {writer : PostingsWriter}
    (run : runAll (calls ++ [.save]) (.new (root / folder) threshold) tree =
      ((.ok (), writer), saved)) :
    FileTree.StaysIn location folder 3 tree saved ∧
      (∀ entry ∈ writer.pending.toList, entry.2.keys.isEmpty) ∧ writer.sink.failure = none ∧
      ∀ trigram : Trigram,
        Written location folder saved trigram (Ledger.ofCalls threshold calls trigram).flush := by
  obtain ⟨next, between, run, last⟩ := runAll_append_eq_ok.mp run
  obtain ⟨writer', saved', last, run'⟩ := runAll_cons_eq_ok.mp last
  cases run'
  obtain ⟨stays, kept⟩ := (keeps_new fresh threshold).runAll site wide run
  obtain ⟨stays', settled⟩ := kept.save (site.step stays) last
  obtain ⟨clean, kept'⟩ := settled rfl
  refine ⟨stays.trans stays', fun entry member => ?_, clean, kept'.written clean⟩
  have present := kept'.pending entry.1
  rw [SortedMap.find?_eq_some_iff.mpr member, Option.getD_some] at present
  rw [present]
  exact Ledger.waiting_flush

/-- **Writers and readers implement a map of sets.**  Start in a namespace without files, add keys
to trigrams and save in any order, with a save at the end, and let all saves succeed.  Then nothing
is left to be saved, and each trigram has the set of the keys that were added to it, in shards
without a gap that are neither empty nor too large.  With a single save and no key added twice,
all shards but the last are full and the count is exact. -/
theorem PostingsWriter.stores_added_keys (site : Namespace root own location folder tree)
    (named : tree.WellNamed) (fresh : ∀ names, tree.fileAt? (location ++ folder :: names) = none)
    {calls : List WriterCall} (wide : ∀ call ∈ calls, call.IsWide) {writer : PostingsWriter}
    (run : runAll (calls ++ [.save]) (.new (root / folder) threshold) tree =
      ((.ok (), writer), saved)) :
    (∃ later, ∀ other, writer.save other = ((.ok (), later), other)) ∧
      ∀ trigram : Trigram, 3 ≤ trigram.length → ∃ shards,
        StoresKeys (root / folder) (max threshold 1) saved trigram
            (.ofList (WriterCall.keysFor calls trigram)) shards ∧
          (WriterCall.save ∉ calls → (WriterCall.keysFor calls trigram).Nodup →
            shards.length =
                ((WriterCall.keysFor calls trigram).length + max threshold 1 - 1) /
                  max threshold 1 ∧
              (∀ shard ∈ shards.dropLast, shard.size = max threshold 1) ∧
              (shards.map SortedSet.size).sum = (WriterCall.keysFor calls trigram).length) := by
  obtain ⟨stays, idle, clean, written⟩ := written_of_runAll site fresh wide run
  refine ⟨save_of_isEmpty idle clean, fun trigram _ => ?_⟩
  refine ⟨_, (written trigram).storesKeys (site.step stays) (stays.named named)
    (Ledger.bounded_ofCalls threshold calls trigram).flush
    fun key => Ledger.holds_ofCalls, fun unsaved distinct => ?_⟩
  have filled := Ledger.filled_ofCalls threshold unsaved distinct
  exact ⟨filled.length_flush, filled.full_flush, filled.total_flush_eq⟩

end Saved

/-! ## A sample -/

/-- The root of the sample. -/
def emptyIndexRoot : Path := ⟨"/index"⟩

/-- A tree with an empty folder for an index. -/
def emptyIndexTree : FileTree := FileTree.empty.put ["index"] (.folder [])

theorem wellNamed_emptyIndexTree : emptyIndexTree.WellNamed :=
  (show FileTree.empty.WellNamed from FileNode.wellNamed_emptyFolder).put [] (by decide)
    FileNode.wellNamed_emptyFolder

theorem namespace_emptyIndexTree :
    Namespace emptyIndexRoot ["postings"] ["index"] "postings" emptyIndexTree where
  hosts := FileTree.hosts_of_absolute ⟨by decide, by decide⟩ (by decide) (by decide) (by decide)
    rfl _
  member := List.mem_singleton_self _
  plain := ⟨by decide, by decide, by decide, by decide⟩
  layered := FileTree.layered_of_none rfl

/-- Keys for two trigrams, one of which fills a shard and has a key twice. -/
def sampleCalls : List WriterCall :=
  [.add "abc" "1", .add "bcd" "1", .add "abc" "2", .save, .add "abc" "2"]

theorem PostingsWriter.exists_of_runAll {calls : List WriterCall} {writer : PostingsWriter}
    {tree : FileTree} (succeeds : (runAll calls writer tree).1.1.toOption = some ()) :
    ∃ later saved, runAll calls writer tree = ((.ok (), later), saved) := by
  rcases run : runAll calls writer tree with ⟨⟨failure | _, later⟩, saved⟩
  · rw [run] at succeeds
    cases succeeds
  · exact ⟨later, saved, rfl⟩

theorem PostingsWriter.stores_added_keys_sample : ∃ writer saved shards,
    runAll (sampleCalls ++ [.save]) (.new (emptyIndexRoot / "postings") 2) emptyIndexTree =
        ((.ok (), writer), saved) ∧
      StoresKeys (emptyIndexRoot / "postings") 2 saved "abc" (.ofList ["1", "2", "2"]) shards := by
  have wide : ∀ call ∈ sampleCalls, call.IsWide := by decide
  obtain ⟨writer, saved, run⟩ := exists_of_runAll
    (show (runAll (sampleCalls ++ [.save]) (.new (emptyIndexRoot / "postings") 2)
      emptyIndexTree).1.1.toOption = some () by decide +kernel)
  obtain ⟨-, stored⟩ := stores_added_keys namespace_emptyIndexTree wellNamed_emptyIndexTree
    (FileTree.fileAt?_of_none rfl) wide run
  obtain ⟨shards, stores, -⟩ := stored "abc" (by decide)
  exact ⟨writer, saved, shards, run, stores⟩

end SourceSearch
