import Mathlib.Logic.Relation
import SourceSearch.Proofs.Postings.Concurrency

/-!
# A single thread

A shared writer can do what a writer does whose calls come from one thread, as long as no write
fails.  The thread makes its calls one after another, the worker of a trigram writes each shard
before the next step of the thread, and other threads stay as they are.
-/

namespace SourceSearch

/-- Steps that lead from one state to another are a run, of which all is told that is told of
them. -/
theorem exists_told {State Event : Type} {step : State → List Event → State → Prop}
    {run : List Event → State → Prop} {first last : State}
    (reaches : Relation.ReflTransGen (fun before after => ∃ told, step before told after) first
      last)
    (refl : run [] first)
    (tail : ∀ {events told : List Event} {between later : State}, run events between →
      step between told later → run (events ++ told) later) : ∃ events, run events last := by
  induction reaches with
  | refl => exact ⟨[], refl⟩
  | tail _ step ih =>
      obtain ⟨events, run⟩ := ih
      obtain ⟨told, step⟩ := step
      exact ⟨events ++ told, tail run step⟩

/-! ## Calls that write -/

namespace PostingsWriter

variable {writer later : PostingsWriter} {trigram : Trigram} {tree after : FileTree}
  {taken : Option ReadyShard × PendingPostings}

/-- Hand over the shard that has been taken, if there is one, and keep the rest. -/
def hand (writer : PostingsWriter) (trigram : Trigram) :
    Option ReadyShard × PendingPostings → DiskM PostingsWriter
  | (some ready, rest), tree =>
      ({ writer with
          pending := writer.pending.insert trigram rest
          sink := (writer.sink.accept ready tree).1 },
        (writer.sink.accept ready tree).2)
  | (none, rest), tree => ({ writer with pending := writer.pending.insert trigram rest }, tree)

theorem flush_eq_hand (writer : PostingsWriter) (trigram : Trigram) (waiting : PendingPostings)
    (threshold : Nat) :
    writer.flush trigram waiting = writer.hand trigram (waiting.take threshold trigram none) := by
  funext tree
  rw [flush, PendingPostings.take]
  rcases waiting.nextShard trigram with ⟨_ | ready, rest⟩ <;> rfl

/-- Adding a key takes from the pending keys and hands over what was taken. -/
theorem add_eq_hand (writer : PostingsWriter) (trigram : Trigram) (key : DocumentKey) :
    writer.add trigram key = writer.hand trigram
      (((writer.pending.find? trigram).getD {}).take writer.threshold trigram (some key)) := by
  rw [add, PendingPostings.take]
  split
  · rfl
  · exact writer.flush_eq_hand trigram _ 0

/-- The shard, if there is one, is written. -/
def Writes (base : Path) (tree after : FileTree) : Option ReadyShard → Prop
  | some ready => (ready.write base).runOn tree = (.ok (), after)
  | none => after = tree

/-- Without a failure the shard is written, and the writer keeps the rest. -/
theorem hand_clean (run : writer.hand trigram taken tree = (later, after))
    (clean : later.sink.failure = none) :
    later = { writer with pending := writer.pending.insert trigram taken.2 } ∧
      Writes writer.sink.base tree after taken.1 := by
  obtain ⟨_ | ready, rest⟩ := taken
  · cases run
    exact ⟨rfl, rfl⟩
  · rcases wrote : (ready.write writer.sink.base).runOn tree with ⟨failure | _, changed⟩
    · rw [hand, ShardSink.accept_eq, wrote] at run
      cases run
      simp at clean
    · rw [hand, ShardSink.accept_eq, wrote] at run
      cases run
      exact ⟨rfl, wrote⟩

/-- A failure is kept while flushes go on. -/
theorem foldlM_flush_clean {entries : List (Trigram × PendingPostings)}
    (run : (entries.foldlM (fun writer (trigram, waiting) => writer.flush trigram waiting) writer :
      DiskM PostingsWriter) tree = (later, after))
    (clean : later.sink.failure = none) :
    later.sink = writer.sink ∧ later.threshold = writer.threshold := by
  induction entries generalizing writer tree with
  | nil =>
      cases run
      exact ⟨rfl, rfl⟩
  | cons entry rest ih =>
      rw [DiskM.foldlM_cons] at run
      have still := ih run
      rcases first : writer.flush entry.1 entry.2 tree with ⟨flushed, between⟩
      simp only [first] at still
      rw [flush_eq_hand _ _ _ writer.threshold] at first
      obtain ⟨rfl, -⟩ := hand_clean first (still.1 ▸ clean)
      exact still

/-- A save that succeeds flushes all trigrams without a failure. -/
theorem flushed_of_save (run : writer.save tree = ((.ok (), later), after)) :
    (writer.pending.toList.foldlM (fun writer (trigram, waiting) => writer.flush trigram waiting)
      writer : DiskM PostingsWriter) tree = (later, after) ∧ later.sink.failure = none := by
  rcases flushed : (writer.pending.toList.foldlM
    (fun writer (trigram, waiting) => writer.flush trigram waiting) writer :
      DiskM PostingsWriter) tree with ⟨next, between⟩
  rw [writer.save_eq flushed] at run
  cases failure : next.sink.failure with
  | some failure' =>
      rw [ShardSink.settle, failure] at run
      cases run
  | none =>
      rw [ShardSink.settle, failure] at run
      cases run
      exact ⟨flushed, failure⟩

/-- Such a save has had no failure to tell. -/
theorem clean_of_save (run : writer.save tree = ((.ok (), later), after)) :
    writer.sink.failure = none := by
  obtain ⟨flushed, clean⟩ := flushed_of_save run
  exact (foldlM_flush_clean flushed clean).1 ▸ clean

/-- A call keeps a failure or tells of it. -/
theorem call_clean {call : WriterCall} (run : call.run writer tree = ((.ok (), later), after))
    (clean : later.sink.failure = none) :
    later.sink = writer.sink ∧ later.threshold = writer.threshold := by
  cases call with
  | add trigram key =>
      rcases step : writer.add trigram key tree with ⟨next, between⟩
      rw [WriterCall.run, DiskM.bind_apply, step] at run
      cases run
      rw [add_eq_hand] at step
      obtain ⟨rfl, -⟩ := hand_clean step clean
      exact ⟨rfl, rfl⟩
  | save =>
      obtain ⟨flushed, clean⟩ := flushed_of_save run
      exact foldlM_flush_clean flushed clean

/-- Without a failure at the end there has been none before. -/
theorem runAll_clean {calls : List WriterCall}
    (run : runAll calls writer tree = ((.ok (), later), after))
    (clean : later.sink.failure = none) :
    later.sink = writer.sink ∧ later.threshold = writer.threshold := by
  induction calls generalizing writer tree with
  | nil =>
      cases run
      exact ⟨rfl, rfl⟩
  | cons call rest ih =>
      obtain ⟨next, between, step, more⟩ := runAll_cons_eq_ok.mp run
      obtain ⟨sink, threshold⟩ := ih more
      obtain ⟨sink', threshold'⟩ := call_clean step (sink ▸ clean)
      exact ⟨sink.trans sink', threshold.trans threshold'⟩

end PostingsWriter

/-! ## Runs of one thread -/

namespace SharedWriter

variable {threads workers threshold : Nat} {workerOf : Trigram → Fin workers} {base : Path}
  {shared last : SharedWriter threads workers} {collection : Collection threads}
  {pool : Pool workers} {thread : Fin threads} {tasks : List ThreadTask} {trigram : Trigram}
  {handle : Handle} {tree after : FileTree} {writer later : PostingsWriter}

/-- Some steps lead from one state to another. -/
def Reaches (threshold : Nat) (workerOf : Trigram → Fin workers) (base : Path) :
    SharedWriter threads workers → SharedWriter threads workers → Prop :=
  Relation.ReflTransGen fun before after => ∃ told, before.Step threshold workerOf base told after

theorem Reaches.exists_run (reaches : Reaches threshold workerOf base shared last) :
    ∃ events, shared.Run threshold workerOf base events last := exists_told reaches .refl .tail

/-- An idle worker writes a shard that comes into its queue. -/
theorem reaches_written {ready : ReadyShard} (idle : pool.workers (workerOf ready.trigram) = .idle)
    (empty : pool.queues (workerOf ready.trigram) = [])
    (wrote : (ready.write base).runOn pool.tree = (.ok (), after)) :
    Reaches threshold workerOf base
      ⟨collection, { pool with inFlight := pool.inFlight + 1 }.enqueue
        (workerOf ready.trigram) ready⟩
      ⟨collection, { pool with tree := after }⟩ := by
  rw [ReadyShard.write_eq, TaskM.bind_ok_iff] at wrote
  obtain ⟨⟨⟩, middle, shard, count⟩ := wrote
  generalize workerOf ready.trigram = worker at idle empty ⊢
  let queued := { pool with inFlight := pool.inFlight + 1 }.enqueue worker ready
  let received := (queued.requeue worker []).set worker (.writeShard ready)
  let halfway := { received with tree := middle }.set worker (.writeCount ready)
  let written := { halfway with tree := after }.set worker .finish
  have receive : queued.Step base received :=
    .receive idle ((Pool.queues_requeue_self ..).trans (congrArg (· ++ [ready]) empty))
  have first : received.Step base halfway := .writeShard (Pool.workers_set_self ..) shard
  have second : halfway.Step base written := .writeCount (Pool.workers_set_self ..) count
  have finish : written.Step base
      ({ written with inFlight := written.inFlight - 1 }.set worker .idle) :=
    .finish (Pool.workers_set_self ..)
  have settled : { written with inFlight := written.inFlight - 1 }.set worker .idle =
      { pool with tree := after } := by
    have queues : Function.update (Function.update pool.queues worker
        (pool.queues worker ++ [ready])) worker [] = pool.queues := by
      rw [Function.update_idem, ← empty, Function.update_eq_self]
    have workers : Function.update (Function.update (Function.update (Function.update pool.workers
        worker (.writeShard ready)) worker (.writeCount ready)) worker .finish) worker .idle =
          pool.workers := by
      rw [Function.update_idem, Function.update_idem, Function.update_idem, ← idle,
        Function.update_eq_self]
    exact congrArg₂ (fun queues workers => Pool.mk queues workers pool.inFlight after) queues
      workers
  rw [← settled]
  exact (((Relation.ReflTransGen.single ⟨_, .work receive⟩).tail ⟨_, .work first⟩).tail
    ⟨_, .work second⟩).tail ⟨_, .work finish⟩

/-- A thread that is set to what it is. -/
theorem set_eq_self {state : Thread} (is : collection.threads thread = state) :
    collection.set thread state = collection := by
  rw [Collection.set, ← is, Function.update_eq_self]

/-- A thread that is set again, while the others stay as they are. -/
theorem threads_set_again {before : Collection threads} {state : Thread}
    (same : collection.threads = (before.set thread state).threads) (next : Thread) :
    (collection.set thread next).threads = (before.set thread next).threads := by
  change Function.update collection.threads thread next = _
  rw [same]
  exact Function.update_idem ..

/-- The accumulator with what is left, its lock free, and the thread done with it. -/
theorem put_put_set (collection : Collection threads) (handle : Handle)
    (first second : Accumulator threads) (thread : Fin threads) (state next : Thread) :
    ((collection.put handle first).set thread state |>.put handle second).set thread next =
      (collection.put handle second).set thread next := by
  simp only [Collection.set, Collection.put, Function.update_idem]

/-- A thread takes a free lock, changes the accumulator, hands over a shard that is then written,
and gives the lock back. -/
theorem reaches_used {key? : Option DocumentKey} {ready? : Option ReadyShard}
    {rest : PendingPostings}
    (phase : collection.threads thread = ⟨tasks, .use trigram handle (.lock key?)⟩)
    (free : (collection.memory handle).owner = none)
    (taken : (collection.memory handle).pending.take threshold trigram key? = (ready?, rest))
    (empty : ∀ worker, pool.queues worker = []) (idle : ∀ worker, pool.workers worker = .idle)
    (writes : PostingsWriter.Writes base pool.tree after ready?) :
    Reaches threshold workerOf base ⟨collection, pool⟩
      ⟨(collection.put handle ⟨rest, none⟩).set thread ⟨tasks, .idle⟩,
        { pool with tree := after }⟩ := by
  let locked := (collection.put handle { collection.memory handle with owner := some thread }).set
    thread ⟨tasks, .use trigram handle (.change key?)⟩
  have owned : locked.memory handle = { collection.memory handle with owner := some thread } :=
    Collection.memory_put_self ..
  have lock : collection.Step threshold [] locked := .lock phase free
  let changed (stage : ThreadStage) := (collection.put handle ⟨rest, some thread⟩).set thread
    ⟨tasks, .use trigram handle stage⟩
  have change : locked.Step threshold [.ofChange thread trigram key?]
      (changed (.afterChange ready?)) := by
    have takes : (locked.memory handle).pending.take threshold trigram key? = (ready?, rest) := by
      rw [owned]
      exact taken
    have step : locked.Step threshold _ _ := .change (Collection.threads_set_self ..) takes
    rwa [owned, put_put_set] at step
  have next (stage stage' : ThreadStage) : (changed stage).set thread
      ⟨tasks, .use trigram handle stage'⟩ = changed stage' := by
    simp only [changed, Collection.set, Function.update_idem]
  have unlock : (changed .unlock).Step threshold []
      ((collection.put handle ⟨rest, none⟩).set thread ⟨tasks, .idle⟩) := by
    have step : (changed .unlock).Step threshold _ _ := .unlock (Collection.threads_set_self ..)
    rwa [show (changed .unlock).memory handle = ⟨rest, some thread⟩ from
      Collection.memory_put_self .., put_put_set] at step
  have taking : Reaches threshold workerOf base ⟨collection, pool⟩
      ⟨changed (.afterChange ready?), pool⟩ :=
    (Relation.ReflTransGen.single ⟨_, .collect lock⟩).tail ⟨_, .collect change⟩
  cases ready? with
  | none =>
      rw [show after = pool.tree from writes]
      exact taking.tail ⟨_, .collect unlock⟩
  | some ready =>
      have announce : Step threshold workerOf base
          ⟨changed (.announce ready), pool⟩ _ _ := .announce (Collection.threads_set_self ..)
      have send : Step threshold workerOf base
          ⟨changed (.send ready), { pool with inFlight := pool.inFlight + 1 }⟩ _ _ :=
        .send (Collection.threads_set_self ..)
      rw [next] at announce send
      exact (((taking.tail ⟨_, announce⟩).tail ⟨_, send⟩).tail ⟨_, .collect unlock⟩).trans
        (reaches_written (idle _) (empty _) writes)

/-! ## In step with a writer -/

/-- A shared writer that rests has the keys and the files of a writer. -/
structure Mirrors (writer : PostingsWriter) (tree : FileTree)
    (shared : SharedWriter threads workers) : Prop where
  /-- Accumulators have what is pending. -/
  pending : writer.pending =
    shared.collection.handles.mapValues fun handle => (shared.collection.memory handle).pending
  /-- Locks are free. -/
  free : ∀ handle, (shared.collection.memory handle).owner = none
  /-- Addresses in use are below the fresh one. -/
  bounded : ∀ trigram handle, shared.collection.handles.find? trigram = some handle →
    handle < shared.collection.fresh
  /-- Trigrams do not share an accumulator. -/
  apart : ∀ trigram other handle, shared.collection.handles.find? trigram = some handle →
    shared.collection.handles.find? other = some handle → trigram = other
  /-- No shard waits. -/
  empty : ∀ worker, shared.pool.queues worker = []
  /-- Workers are idle. -/
  idle : ∀ worker, shared.pool.workers worker = .idle
  /-- Nothing is in flight. -/
  settled : shared.pool.inFlight = 0
  /-- The files are the same. -/
  tree_eq : shared.pool.tree = tree

theorem mirrors_start (calls : Fin threads → List WriterCall) (tree : FileTree) (base : Path)
    (threshold : Nat) :
    (start calls tree : SharedWriter threads workers).Mirrors (.new base threshold) tree where
  pending := rfl
  free _ := rfl
  bounded _ _ found := by cases found
  apart _ _ _ found := by cases found
  empty _ := rfl
  idle _ := rfl
  settled := rfl
  tree_eq := rfl

/-- The keys of a trigram that has an accumulator are replaced by what is left of them. -/
theorem Mirrors.used (mirrors : shared.Mirrors writer tree)
    (found : shared.collection.handles.find? trigram = some handle) (rest : PendingPostings)
    (after : FileTree) (state : Thread) :
    Mirrors { writer with pending := writer.pending.insert trigram rest } after
      ⟨(shared.collection.put handle ⟨rest, none⟩).set thread state,
        { shared.pool with tree := after }⟩ where
  pending := by
    refine SortedMap.ext_find? fun other => ?_
    rw [SortedMap.find?_insert, mirrors.pending, SortedMap.find?_mapValues,
      SortedMap.find?_mapValues]
    split
    · rename_i same
      rw [same, Collection.handles_set, Collection.handles_put, found, Option.map_some,
        Collection.memory_set, Collection.memory_put_self]
    · rename_i different
      refine Option.map_congr fun address located => ?_
      have elsewhere : address ≠ handle := fun same =>
        different (mirrors.apart other trigram handle (same ▸ located) found)
      rw [Collection.memory_set, Collection.memory_put_of_ne _ _ _ elsewhere]
  free address := by
    by_cases here : address = handle
    · rw [here, Collection.memory_set, Collection.memory_put_self]
    · rw [Collection.memory_set, Collection.memory_put_of_ne _ _ _ here]
      exact mirrors.free address
  bounded := mirrors.bounded
  apart := mirrors.apart
  empty := mirrors.empty
  idle := mirrors.idle
  settled := mirrors.settled
  tree_eq := rfl

/-- A trigram without pending keys gets an empty accumulator. -/
theorem Mirrors.allocate (mirrors : shared.Mirrors writer tree) (trigram : Trigram) :
    Mirrors { writer with pending := writer.pending.insert trigram {} } tree
      ⟨shared.collection.allocate trigram, shared.pool⟩ where
  pending := by
    refine SortedMap.ext_find? fun other => ?_
    rw [SortedMap.find?_insert, mirrors.pending, SortedMap.find?_mapValues,
      SortedMap.find?_mapValues, Collection.find?_handles_allocate]
    split
    · rw [Option.map_some, Collection.memory_allocate_fresh]
    · refine Option.map_congr fun address located => ?_
      have used := Nat.ne_of_lt (mirrors.bounded other address located)
      rw [Collection.memory_allocate_of_ne _ _ used]
  free address := by
    by_cases new : address = shared.collection.fresh
    · rw [new, Collection.memory_allocate_fresh]
    · rw [Collection.memory_allocate_of_ne _ _ new]
      exact mirrors.free address
  bounded other address found := by
    rw [Collection.find?_handles_allocate] at found
    split at found
    · cases found
      exact Nat.lt_succ_self _
    · exact Nat.lt_succ_of_lt (mirrors.bounded other address found)
  apart one other address first second := by
    rw [Collection.find?_handles_allocate] at first second
    split at first <;> split at second
    · rename_i same same'
      rw [same, same']
    · cases first
      exact absurd (mirrors.bounded other _ second) (Nat.lt_irrefl _)
    · cases second
      exact absurd (mirrors.bounded one _ first) (Nat.lt_irrefl _)
    · exact mirrors.apart one other address first second
  empty := mirrors.empty
  idle := mirrors.idle
  settled := mirrors.settled
  tree_eq := mirrors.tree_eq

/-- A thread that is about to take the lock of an accumulator does what the writer does, and the
other threads rest. -/
theorem Mirrors.use (mirrors : shared.Mirrors writer tree) {key? : Option DocumentKey}
    {taken : Option ReadyShard × PendingPostings}
    (phase : shared.collection.threads thread = ⟨tasks, .use trigram handle (.lock key?)⟩)
    (found : shared.collection.handles.find? trigram = some handle)
    (takes : (shared.collection.memory handle).pending.take threshold trigram key? = taken)
    (writes : PostingsWriter.Writes base tree after taken.1) :
    ∃ next, Reaches threshold workerOf base shared next ∧
      next.Mirrors { writer with pending := writer.pending.insert trigram taken.2 } after ∧
      next.collection.threads = (shared.collection.set thread ⟨tasks, .idle⟩).threads ∧
      next.collection.handles = shared.collection.handles ∧
      ∀ other, other ≠ handle → next.collection.memory other = shared.collection.memory other := by
  rw [← mirrors.tree_eq] at writes
  refine ⟨_, reaches_used phase (mirrors.free handle) takes mirrors.empty mirrors.idle writes,
    mirrors.used found taken.2 after _, rfl, rfl, fun other elsewhere => ?_⟩
  rw [Collection.memory_set, Collection.memory_put_of_ne _ _ _ elsewhere]

theorem Mirrors.find?_pending (mirrors : shared.Mirrors writer tree) (trigram : Trigram) :
    writer.pending.find? trigram = (shared.collection.handles.find? trigram).map fun handle =>
      (shared.collection.memory handle).pending := by
  rw [mirrors.pending, SortedMap.find?_mapValues]

/-- A thread that goes on leaves the files and the keys as they are. -/
theorem Mirrors.set (mirrors : shared.Mirrors writer tree) (thread : Fin threads) (state : Thread) :
    Mirrors writer tree ⟨shared.collection.set thread state, shared.pool⟩ :=
  ⟨mirrors.pending, mirrors.free, mirrors.bounded, mirrors.apart, mirrors.empty, mirrors.idle,
    mirrors.settled, mirrors.tree_eq⟩

/-- A thread adds a key as the writer does. -/
theorem Mirrors.add (mirrors : shared.Mirrors writer tree) {key : DocumentKey}
    (next : shared.collection.threads thread = ⟨.add trigram key :: tasks, .idle⟩)
    (run : writer.add trigram key tree = (later, after)) (clean : later.sink.failure = none) :
    ∃ last, Reaches writer.threshold workerOf writer.sink.base shared last ∧
      last.Mirrors later after ∧
        last.collection.threads = (shared.collection.set thread ⟨tasks, .idle⟩).threads := by
  rw [PostingsWriter.add_eq_hand, mirrors.find?_pending] at run
  obtain ⟨rfl, writes⟩ := PostingsWriter.hand_clean run clean
  cases found : shared.collection.handles.find? trigram with
  | some handle =>
      rw [found] at writes
      have find : Step writer.threshold workerOf writer.sink.base shared _ _ :=
        .collect (.find next found)
      obtain ⟨last, reaches, mirrors, done, -⟩ := (mirrors.set thread _).use
        (Collection.threads_set_self ..) found rfl writes
      exact ⟨last, reaches.head ⟨_, find⟩, mirrors,
        done.trans (threads_set_again rfl _)⟩
  | none =>
      rw [found] at writes
      have miss : Step writer.threshold workerOf writer.sink.base shared _ _ :=
        .collect (.miss next found)
      let waits := shared.collection.set thread ⟨tasks, .make trigram key⟩
      have make : Step writer.threshold workerOf writer.sink.base ⟨waits, shared.pool⟩ _ _ :=
        .collect (.make (Collection.threads_set_self ..) found)
      have made : (waits.allocate trigram).handles.find? trigram = some waits.fresh := by
        rw [Collection.find?_handles_allocate, if_pos rfl]
      have takes : ((waits.allocate trigram).memory waits.fresh).pending.take writer.threshold
          trigram (some key) = PendingPostings.take writer.threshold trigram {} (some key) := by
        rw [Collection.memory_allocate_fresh]
      obtain ⟨last, reaches, mirrors, done, -⟩ := (((mirrors.set thread _).allocate trigram).set
        thread _).use (Collection.threads_set_self ..) made takes writes
      rw [SortedMap.insert_insert] at mirrors
      exact ⟨last, (reaches.head ⟨_, make⟩).head ⟨_, miss⟩, mirrors,
        done.trans (threads_set_again (threads_set_again rfl _) _)⟩

/-- A thread flushes accumulators as the writer does. -/
theorem Mirrors.flushes (mirrors : shared.Mirrors writer tree) {entries : List (Trigram × Handle)}
    (next : shared.collection.threads thread =
      ⟨entries.map (fun entry => .flush entry.1 entry.2) ++ tasks, .idle⟩)
    (located : ∀ entry ∈ entries, shared.collection.handles.find? entry.1 = some entry.2)
    (apart : (entries.map Prod.snd).Nodup)
    (run : ((entries.map fun entry => (entry.1, (shared.collection.memory entry.2).pending)).foldlM
      (fun writer (trigram, waiting) => writer.flush trigram waiting) writer :
        DiskM PostingsWriter) tree = (later, after))
    (clean : later.sink.failure = none) :
    ∃ last, Reaches writer.threshold workerOf writer.sink.base shared last ∧
      last.Mirrors later after ∧
        last.collection.threads = (shared.collection.set thread ⟨tasks, .idle⟩).threads := by
  induction entries generalizing shared writer tree with
  | nil =>
      cases run
      exact ⟨shared, .refl, mirrors, congrArg _ (set_eq_self next).symm⟩
  | cons entry rest ih =>
      obtain ⟨here, located⟩ := List.forall_mem_cons.mp located
      rw [List.map_cons, List.nodup_cons] at apart
      rw [List.map_cons, DiskM.foldlM_cons] at run
      have still := (PostingsWriter.foldlM_flush_clean run clean).1
      rcases first : writer.flush entry.1 (shared.collection.memory entry.2).pending tree
        with ⟨flushed, between⟩
      simp only [first] at run still
      rw [PostingsWriter.flush_eq_hand _ _ _ writer.threshold] at first
      obtain ⟨rfl, writes⟩ := PostingsWriter.hand_clean first (still ▸ clean)
      have turn : Step writer.threshold workerOf writer.sink.base shared _ _ :=
        .collect (.turn next)
      obtain ⟨middle, reaches, mirrors, goes, handles, memory⟩ := (mirrors.set thread _).use
        (Collection.threads_set_self ..) here rfl writes
      have untouched :
          (rest.map fun entry => (entry.1, (middle.collection.memory entry.2).pending)) =
            rest.map fun entry => (entry.1, (shared.collection.memory entry.2).pending) := by
        refine List.map_congr_left fun other member => ?_
        have elsewhere : other.2 ≠ entry.2 := fun same =>
          apart.1 (same ▸ List.mem_map_of_mem member)
        rw [memory _ elsewhere]
        rfl
      have goes' := goes.trans (threads_set_again rfl _)
      obtain ⟨last, more, mirrors, done⟩ := ih mirrors
        ((congrFun goes' thread).trans (Collection.threads_set_self ..))
        (fun other member => (congrArg (SortedMap.find? · other.1) handles).trans
          (located other member)) apart.2 (untouched ▸ run)
      exact ⟨last, (reaches.trans more).head ⟨_, turn⟩, mirrors,
        done.trans (threads_set_again goes' _)⟩

/-- Different trigrams have different accumulators. -/
theorem Mirrors.nodup_handles (mirrors : shared.Mirrors writer tree) :
    (shared.collection.handles.toList.map Prod.snd).Nodup := by
  refine List.pairwise_map.mpr (shared.collection.handles.nodup.imp_of_mem ?_)
  rintro ⟨trigram, handle⟩ ⟨other, _⟩ member member' different rfl
  rw [mirrors.apart trigram other handle (SortedMap.find?_eq_some_iff.mpr member)
    (SortedMap.find?_eq_some_iff.mpr member')] at different
  exact different rfl

/-- A thread saves as the writer does. -/
theorem Mirrors.save (mirrors : shared.Mirrors writer tree)
    (next : shared.collection.threads thread = ⟨.save :: tasks, .idle⟩)
    (run : writer.save tree = ((.ok (), later), after)) :
    ∃ last, Reaches writer.threshold workerOf writer.sink.base shared last ∧
      last.Mirrors later after ∧
        last.collection.threads = (shared.collection.set thread ⟨tasks, .idle⟩).threads := by
  obtain ⟨flushed, clean⟩ := PostingsWriter.flushed_of_save run
  rw [mirrors.pending] at flushed
  let listed : Thread := ⟨shared.collection.handles.toList.map (fun entry =>
    .flush entry.1 entry.2) ++ .await :: tasks, .idle⟩
  have list : Step writer.threshold workerOf writer.sink.base shared _
      ⟨shared.collection.set thread listed, shared.pool⟩ :=
    .collect (.list next (.refl _))
  obtain ⟨middle, reaches, mirrors', waits⟩ := (mirrors.set thread listed).flushes
    (Collection.threads_set_self ..) (fun _ => SortedMap.find?_eq_some_iff.mpr)
    mirrors.nodup_handles flushed clean
  have waits' := waits.trans (threads_set_again rfl _)
  have await : Step writer.threshold workerOf writer.sink.base middle _ _ :=
    .await ((congrFun waits' thread).trans (Collection.threads_set_self ..)) mirrors'.settled
  exact ⟨_, (reaches.head ⟨_, list⟩).tail ⟨_, await⟩, mirrors'.set thread _,
    threads_set_again waits' _⟩

/-- A thread makes its calls as the writer does. -/
theorem Mirrors.runAll (mirrors : shared.Mirrors writer tree) {calls : List WriterCall}
    (next : shared.collection.threads thread = ⟨calls.map WriterCall.task, .idle⟩)
    (run : PostingsWriter.runAll calls writer tree = ((.ok (), later), after))
    (clean : later.sink.failure = none) :
    ∃ last, Reaches writer.threshold workerOf writer.sink.base shared last ∧
      last.Mirrors later after ∧
        last.collection.threads = (shared.collection.set thread ⟨[], .idle⟩).threads := by
  induction calls generalizing shared writer tree with
  | nil =>
      cases run
      exact ⟨shared, .refl, mirrors, congrArg _ (set_eq_self next).symm⟩
  | cons call rest ih =>
      obtain ⟨called, between, step, more⟩ := PostingsWriter.runAll_cons_eq_ok.mp run
      have still : called.sink.failure = none :=
        (PostingsWriter.runAll_clean more clean).1 ▸ clean
      obtain ⟨middle, reaches, mirrors, goes⟩ : ∃ middle,
          Reaches writer.threshold workerOf writer.sink.base shared middle ∧
            middle.Mirrors called between ∧ middle.collection.threads =
              (shared.collection.set thread ⟨rest.map WriterCall.task, .idle⟩).threads := by
        cases call with
        | add trigram key =>
            rcases added : writer.add trigram key tree with ⟨called', between'⟩
            rw [WriterCall.run, DiskM.bind_apply, added] at step
            cases step
            exact mirrors.add next added still
        | save => exact mirrors.save next step
      obtain ⟨last, reaches', mirrors, done⟩ := ih mirrors
        ((congrFun goes thread).trans (Collection.threads_set_self ..)) more
      obtain ⟨sink, threshold⟩ := PostingsWriter.call_clean step still
      rw [sink, threshold] at reaches'
      exact ⟨last, reaches.trans reaches', mirrors, done.trans (threads_set_again goes _)⟩

end SharedWriter
end SourceSearch
