import Mathlib.Algebra.BigOperators.Group.Finset.Piecewise
import Mathlib.Logic.Function.Basic
import SourceSearch.Proofs.Postings.Runs

/-!
# Writers shared by threads

Threads add keys to one writer at the same time.  A thread looks for the accumulator of the trigram,
makes one if there is none, and then inserts the key under the lock of the accumulator.  If that
fills a shard, the thread submits it before it gives the lock back: it counts the shard as in flight
and puts it into the queue of the worker that the trigram belongs to.  A worker takes the shards of
its queue in order and writes the file of each shard and then its count.  Saving submits what is
pending in all accumulators and waits until nothing is in flight.

What happens under one short lock is one step, and so is one file that is written.  Steps of threads
and workers interleave in every order that the locks allow.
-/

namespace SourceSearch

/-- A sum after one of its terms has changed. -/
theorem sum_update {ι α M : Type} [Fintype ι] [DecidableEq ι] [AddCommMonoid M] (values : ι → α)
    (place : ι) (value : α) (weight : α → M) :
    ∑ i, weight (Function.update values place value i) + weight (values place) =
      ∑ i, weight (values i) + weight value := by
  have updated := Finset.sum_update_of_mem (Finset.mem_univ place) (weight ∘ values) (weight value)
  have split :=
    Finset.sum_eq_add_sum_sdiff_singleton_of_mem (Finset.mem_univ place) (weight ∘ values)
  rw [← Function.comp_update] at updated
  simp only [Function.comp_apply] at updated split
  rw [updated, split, add_right_comm, add_comm (weight value), add_right_comm]

/-! ## Threads -/

/-- The address of an accumulator. -/
abbrev Handle := Nat

/-- What a thread has to do next. -/
inductive ThreadTask where
  /-- Record that a document contains a trigram. -/
  | add (trigram : Trigram) (key : DocumentKey)
  /-- Write everything that is pending. -/
  | save
  /-- A part of saving: submit what is pending in one accumulator. -/
  | flush (trigram : Trigram) (handle : Handle)
  /-- The end of saving: wait until nothing is in flight. -/
  | await
  deriving DecidableEq

/-- The task that a call of a writer is. -/
def WriterCall.task : WriterCall → ThreadTask
  | .add trigram key => .add trigram key
  | .save => .save

/-- What a thread does next with an accumulator; from its second stage on it holds the lock. -/
inductive ThreadStage where
  /-- Take the lock. -/
  | lock (key? : Option DocumentKey)
  /-- Insert the key, if there is one, and take a shard, if it is due. -/
  | change (key? : Option DocumentKey)
  /-- Count the shard as in flight. -/
  | announce (ready : ReadyShard)
  /-- Put the shard into a queue. -/
  | send (ready : ReadyShard)
  /-- Give the lock back. -/
  | unlock
  deriving DecidableEq

/-- Where a thread is within a task. -/
inductive ThreadPhase where
  /-- Between tasks. -/
  | idle
  /-- It found no accumulator for the trigram and is about to make one. -/
  | make (trigram : Trigram) (key : DocumentKey)
  /-- It uses the accumulator of a trigram. -/
  | use (trigram : Trigram) (handle : Handle) (stage : ThreadStage)
  deriving DecidableEq

/-- A thread with the tasks that it has not begun. -/
structure Thread where
  /-- The tasks in their order. -/
  tasks : List ThreadTask
  /-- Where it is. -/
  phase : ThreadPhase := .idle
  deriving DecidableEq

/-- The pending keys of a trigram and the lock that guards them. -/
structure Accumulator (threads : Nat) where
  /-- The pending keys. -/
  pending : PendingPostings := {}
  /-- The thread that holds the lock. -/
  owner : Option (Fin threads) := none

/-- Threads and the accumulators that they share. -/
structure Collection (threads : Nat) where
  /-- The accumulator of each trigram that has one. -/
  handles : SortedMap Trigram Handle := .empty
  /-- What stands at each address. -/
  memory : Handle → Accumulator threads := fun _ => {}
  /-- The first address that is not in use. -/
  fresh : Handle := 0
  /-- The threads. -/
  threads : Fin threads → Thread

/-- What the world learns of a step. -/
inductive WriterEvent (threads : Nat) where
  /-- A thread inserted a key. -/
  | added (thread : Fin threads) (trigram : Trigram) (key : DocumentKey)
  /-- What was pending of a trigram has been taken for a save. -/
  | flushed (trigram : Trigram)
  /-- A shard came into a queue. -/
  | submitted (ready : ReadyShard)

/-- Insert a key and take the next shard once it is full, or take it in any case. -/
def PendingPostings.take (threshold : Nat) (trigram : Trigram) (waiting : PendingPostings) :
    Option DocumentKey → Option ReadyShard × PendingPostings
  | some key =>
      if (waiting.add key).keys.size < threshold then (none, waiting.add key)
      else (waiting.add key).nextShard trigram
  | none => waiting.nextShard trigram

/-- The stage after a shard has been taken or not. -/
def ThreadStage.afterChange : Option ReadyShard → ThreadStage
  | some ready => .announce ready
  | none => .unlock

/-- What is told of a change to an accumulator. -/
def WriterEvent.ofChange {threads : Nat} (thread : Fin threads) (trigram : Trigram) :
    Option DocumentKey → WriterEvent threads
  | some key => .added thread trigram key
  | none => .flushed trigram

namespace Collection

variable {threads : Nat}

/-- The threads with one of them changed. -/
def set (collection : Collection threads) (thread : Fin threads) (changed : Thread) :
    Collection threads :=
  { collection with threads := Function.update collection.threads thread changed }

/-- The collection with an accumulator changed. -/
def put (collection : Collection threads) (handle : Handle) (accumulator : Accumulator threads) :
    Collection threads :=
  { collection with memory := Function.update collection.memory handle accumulator }

section Fields

variable (collection : Collection threads) (thread : Fin threads) (changed : Thread)
  (handle : Handle) (accumulator : Accumulator threads)

@[simp]
theorem handles_set : (collection.set thread changed).handles = collection.handles := rfl

@[simp]
theorem memory_set : (collection.set thread changed).memory = collection.memory := rfl

@[simp]
theorem fresh_set : (collection.set thread changed).fresh = collection.fresh := rfl

@[simp]
theorem threads_set_self : (collection.set thread changed).threads thread = changed :=
  Function.update_self ..

theorem threads_set_of_ne {other : Fin threads} (different : other ≠ thread) :
    (collection.set thread changed).threads other = collection.threads other :=
  Function.update_of_ne different ..

@[simp]
theorem handles_put : (collection.put handle accumulator).handles = collection.handles := rfl

@[simp]
theorem fresh_put : (collection.put handle accumulator).fresh = collection.fresh := rfl

@[simp]
theorem threads_put : (collection.put handle accumulator).threads = collection.threads := rfl

@[simp]
theorem memory_put_self : (collection.put handle accumulator).memory handle = accumulator :=
  Function.update_self ..

theorem memory_put_of_ne {other : Handle} (different : other ≠ handle) :
    (collection.put handle accumulator).memory other = collection.memory other :=
  Function.update_of_ne different ..

@[simp]
theorem put_memory : collection.put handle (collection.memory handle) = collection := by
  rw [put, Function.update_eq_self]

end Fields

/-- The collection with a new accumulator for a trigram. -/
def allocate (collection : Collection threads) (trigram : Trigram) : Collection threads :=
  { collection.put collection.fresh {} with
    handles := collection.handles.insert trigram collection.fresh
    fresh := collection.fresh + 1 }

@[simp]
theorem threads_allocate (collection : Collection threads) (trigram : Trigram) :
    (collection.allocate trigram).threads = collection.threads := rfl

@[simp]
theorem memory_allocate_fresh (collection : Collection threads) (trigram : Trigram) :
    (collection.allocate trigram).memory collection.fresh = {} := memory_put_self ..

theorem memory_allocate_of_ne (collection : Collection threads) (trigram : Trigram)
    {handle : Handle} (used : handle ≠ collection.fresh) :
    (collection.allocate trigram).memory handle = collection.memory handle :=
  memory_put_of_ne _ _ _ used

theorem find?_handles_allocate (collection : Collection threads) (trigram other : Trigram) :
    (collection.allocate trigram).handles.find? other =
      if other = trigram then some collection.fresh else collection.handles.find? other :=
  SortedMap.find?_insert ..

/-- A step of one thread that concerns accumulators only. -/
inductive Step (threshold : Nat) (collection : Collection threads) :
    List (WriterEvent threads) → Collection threads → Prop
  /-- Under the read lock there is an accumulator. -/
  | find {thread : Fin threads} {trigram : Trigram} {key : DocumentKey} {tasks : List ThreadTask}
      {handle : Handle} (next : collection.threads thread = ⟨.add trigram key :: tasks, .idle⟩)
      (found : collection.handles.find? trigram = some handle) :
      Step threshold collection []
        (collection.set thread ⟨tasks, .use trigram handle (.lock (some key))⟩)
  /-- Under the read lock there is no accumulator. -/
  | miss {thread : Fin threads} {trigram : Trigram} {key : DocumentKey} {tasks : List ThreadTask}
      (next : collection.threads thread = ⟨.add trigram key :: tasks, .idle⟩)
      (missing : collection.handles.find? trigram = none) :
      Step threshold collection [] (collection.set thread ⟨tasks, .make trigram key⟩)
  /-- Under the write lock there is an accumulator after all. -/
  | share {thread : Fin threads} {trigram : Trigram} {key : DocumentKey} {tasks : List ThreadTask}
      {handle : Handle} (phase : collection.threads thread = ⟨tasks, .make trigram key⟩)
      (found : collection.handles.find? trigram = some handle) :
      Step threshold collection []
        (collection.set thread ⟨tasks, .use trigram handle (.lock (some key))⟩)
  /-- Under the write lock an accumulator is made. -/
  | make {thread : Fin threads} {trigram : Trigram} {key : DocumentKey} {tasks : List ThreadTask}
      (phase : collection.threads thread = ⟨tasks, .make trigram key⟩)
      (missing : collection.handles.find? trigram = none) :
      Step threshold collection []
        ((collection.allocate trigram).set thread
          ⟨tasks, .use trigram collection.fresh (.lock (some key))⟩)
  /-- A save lists the accumulators, in any order. -/
  | list {thread : Fin threads} {tasks : List ThreadTask} {entries : List (Trigram × Handle)}
      (next : collection.threads thread = ⟨.save :: tasks, .idle⟩)
      (all : entries.Perm collection.handles.toList) :
      Step threshold collection []
        (collection.set thread
          ⟨entries.map (fun entry => .flush entry.1 entry.2) ++ .await :: tasks, .idle⟩)
  /-- A save comes to an accumulator. -/
  | turn {thread : Fin threads} {trigram : Trigram} {handle : Handle} {tasks : List ThreadTask}
      (next : collection.threads thread = ⟨.flush trigram handle :: tasks, .idle⟩) :
      Step threshold collection [] (collection.set thread ⟨tasks, .use trigram handle (.lock none)⟩)
  /-- A free lock is taken. -/
  | lock {thread : Fin threads} {trigram : Trigram} {handle : Handle} {key? : Option DocumentKey}
      {tasks : List ThreadTask}
      (phase : collection.threads thread = ⟨tasks, .use trigram handle (.lock key?)⟩)
      (free : (collection.memory handle).owner = none) :
      Step threshold collection []
        ((collection.put handle { collection.memory handle with owner := some thread }).set thread
          ⟨tasks, .use trigram handle (.change key?)⟩)
  /-- The accumulator changes. -/
  | change {thread : Fin threads} {trigram : Trigram} {handle : Handle}
      {key? : Option DocumentKey} {tasks : List ThreadTask} {ready? : Option ReadyShard}
      {rest : PendingPostings}
      (phase : collection.threads thread = ⟨tasks, .use trigram handle (.change key?)⟩)
      (taken : (collection.memory handle).pending.take threshold trigram key? = (ready?, rest)) :
      Step threshold collection [.ofChange thread trigram key?]
        ((collection.put handle { collection.memory handle with pending := rest }).set thread
          ⟨tasks, .use trigram handle (.afterChange ready?)⟩)
  /-- The lock is given back. -/
  | unlock {thread : Fin threads} {trigram : Trigram} {handle : Handle} {tasks : List ThreadTask}
      (phase : collection.threads thread = ⟨tasks, .use trigram handle .unlock⟩) :
      Step threshold collection []
        ((collection.put handle { collection.memory handle with owner := none }).set thread
          ⟨tasks, .idle⟩)

end Collection

/-! ## Workers -/

/-- What a worker does next. -/
inductive WorkerPhase where
  /-- Take a shard from its queue. -/
  | idle
  /-- Write the file of the shard. -/
  | writeShard (ready : ReadyShard)
  /-- Write the count that includes the shard. -/
  | writeCount (ready : ReadyShard)
  /-- Count the shard as written. -/
  | finish

/-- Workers with their queues, and the tree that they write to. -/
structure Pool (workers : Nat) where
  /-- The shards that wait for each worker, the oldest first. -/
  queues : Fin workers → List ReadyShard := fun _ => []
  /-- The workers. -/
  workers : Fin workers → WorkerPhase := fun _ => .idle
  /-- The number of shards that have been submitted and not written. -/
  inFlight : Nat := 0
  /-- The files. -/
  tree : FileTree

namespace ReadyShard

/-- Write the file of a shard. -/
def writeShard (base : Path) (ready : ReadyShard) : TaskM Unit :=
  TaskM.writeRecord (Postings.shardFile base ready.trigram ready.generation)
    (StoredShard.toJson ⟨ready.keys, ready.generation, ready.trigram⟩)

/-- Write the count that includes a shard. -/
def writeCount (base : Path) (ready : ReadyShard) : TaskM Unit :=
  TaskM.writeRecord (Postings.countFile base ready.trigram)
    (StoredCount.toJson ⟨ready.trigram, ready.total⟩)

/-- A shard is written in these two steps. -/
theorem write_eq (base : Path) (ready : ReadyShard) :
    ready.write base = (ready.writeShard base >>= fun _ => ready.writeCount base) := rfl

end ReadyShard

namespace Pool

variable {workers : Nat}

/-- The pool with another queue for a worker. -/
def requeue (pool : Pool workers) (worker : Fin workers) (queue : List ReadyShard) : Pool workers :=
  { pool with queues := Function.update pool.queues worker queue }

/-- The pool with a shard at the end of a queue. -/
def enqueue (pool : Pool workers) (worker : Fin workers) (ready : ReadyShard) : Pool workers :=
  pool.requeue worker (pool.queues worker ++ [ready])

/-- The pool with one worker changed. -/
def set (pool : Pool workers) (worker : Fin workers) (phase : WorkerPhase) : Pool workers :=
  { pool with workers := Function.update pool.workers worker phase }

section Fields

variable (pool : Pool workers) (worker : Fin workers) (queue : List ReadyShard)
  (phase : WorkerPhase)

@[simp]
theorem workers_requeue : (pool.requeue worker queue).workers = pool.workers := rfl

@[simp]
theorem queues_requeue_self : (pool.requeue worker queue).queues worker = queue :=
  Function.update_self ..

theorem queues_requeue_of_ne {other : Fin workers} (different : other ≠ worker) :
    (pool.requeue worker queue).queues other = pool.queues other :=
  Function.update_of_ne different ..

@[simp]
theorem queues_set : (pool.set worker phase).queues = pool.queues := rfl

@[simp]
theorem workers_set_self : (pool.set worker phase).workers worker = phase :=
  Function.update_self ..

theorem workers_set_of_ne {other : Fin workers} (different : other ≠ worker) :
    (pool.set worker phase).workers other = pool.workers other :=
  Function.update_of_ne different ..

end Fields

/-- A step of one worker, whose writes succeed. -/
inductive Step (base : Path) (pool : Pool workers) : Pool workers → Prop
  /-- A worker takes the first shard of its queue. -/
  | receive {worker : Fin workers} {ready : ReadyShard} {rest : List ReadyShard}
      (phase : pool.workers worker = .idle) (queue : pool.queues worker = ready :: rest) :
      Step base pool
        ((pool.requeue worker rest).set worker (.writeShard ready))
  /-- It writes the file of the shard. -/
  | writeShard {worker : Fin workers} {ready : ReadyShard} {changed : FileTree}
      (phase : pool.workers worker = .writeShard ready)
      (wrote : (ready.writeShard base).runOn pool.tree = (.ok (), changed)) :
      Step base pool ({ pool with tree := changed }.set worker (.writeCount ready))
  /-- It writes the count. -/
  | writeCount {worker : Fin workers} {ready : ReadyShard} {changed : FileTree}
      (phase : pool.workers worker = .writeCount ready)
      (wrote : (ready.writeCount base).runOn pool.tree = (.ok (), changed)) :
      Step base pool ({ pool with tree := changed }.set worker .finish)
  /-- The shard is not in flight any more. -/
  | finish {worker : Fin workers} (phase : pool.workers worker = .finish) :
      Step base pool ({ pool with inFlight := pool.inFlight - 1 }.set worker .idle)

end Pool

/-! ## All together -/

/-- A writer with the threads that use it and its workers. -/
structure SharedWriter (threads workers : Nat) where
  /-- The threads and the accumulators. -/
  collection : Collection threads
  /-- The workers and the files. -/
  pool : Pool workers

namespace SharedWriter

variable {threads workers : Nat}

/-- Before the first step: threads with their calls, and a tree. -/
def start (calls : Fin threads → List WriterCall) (tree : FileTree) :
    SharedWriter threads workers where
  collection := { threads := fun thread => ⟨(calls thread).map WriterCall.task, .idle⟩ }
  pool := { tree }

/-- A thread is given another call. -/
def call (writer : SharedWriter threads workers) (thread : Fin threads) (call : WriterCall) :
    SharedWriter threads workers :=
  { writer with
    collection := writer.collection.set thread
      { writer.collection.threads thread with
        tasks := (writer.collection.threads thread).tasks ++ [call.task] } }

/-- A thread is given several calls. -/
def assign (writer : SharedWriter threads workers) (thread : Fin threads)
    (calls : List WriterCall) : SharedWriter threads workers :=
  { writer with
    collection := writer.collection.set thread
      { writer.collection.threads thread with
        tasks := (writer.collection.threads thread).tasks ++ calls.map WriterCall.task } }

/-- All threads have returned from all of their calls. -/
def Returned (writer : SharedWriter threads workers) : Prop :=
  ∀ thread, writer.collection.threads thread = ⟨[], .idle⟩

instance (writer : SharedWriter threads workers) : Decidable writer.Returned :=
  inferInstanceAs (Decidable (∀ thread, writer.collection.threads thread = ⟨[], .idle⟩))

/-- A step of one thread or one worker. -/
inductive Step (threshold : Nat) (workerOf : Trigram → Fin workers) (base : Path)
    (writer : SharedWriter threads workers) :
    List (WriterEvent threads) → SharedWriter threads workers → Prop
  /-- A thread uses an accumulator. -/
  | collect {events : List (WriterEvent threads)} {collection : Collection threads}
      (step : writer.collection.Step threshold events collection) :
      Step threshold workerOf base writer events { writer with collection }
  /-- A shard is counted as in flight. -/
  | announce {thread : Fin threads} {trigram : Trigram} {handle : Handle} {ready : ReadyShard}
      {tasks : List ThreadTask}
      (phase : writer.collection.threads thread = ⟨tasks, .use trigram handle (.announce ready)⟩) :
      Step threshold workerOf base writer []
        ⟨writer.collection.set thread ⟨tasks, .use trigram handle (.send ready)⟩,
          { writer.pool with inFlight := writer.pool.inFlight + 1 }⟩
  /-- A shard comes into the queue of the worker for its trigram. -/
  | send {thread : Fin threads} {trigram : Trigram} {handle : Handle} {ready : ReadyShard}
      {tasks : List ThreadTask}
      (phase : writer.collection.threads thread = ⟨tasks, .use trigram handle (.send ready)⟩) :
      Step threshold workerOf base writer [.submitted ready]
        ⟨writer.collection.set thread ⟨tasks, .use trigram handle .unlock⟩,
          writer.pool.enqueue (workerOf ready.trigram) ready⟩
  /-- A save finds that nothing is in flight. -/
  | await {thread : Fin threads} {tasks : List ThreadTask}
      (next : writer.collection.threads thread = ⟨.await :: tasks, .idle⟩)
      (idle : writer.pool.inFlight = 0) :
      Step threshold workerOf base writer []
        { writer with collection := writer.collection.set thread ⟨tasks, .idle⟩ }
  /-- A worker works. -/
  | work {pool : Pool workers} (step : writer.pool.Step base pool) :
      Step threshold workerOf base writer [] { writer with pool }

/-- Any number of steps, with all that is told of them. -/
inductive Run (threshold : Nat) (workerOf : Trigram → Fin workers) (base : Path)
    (writer : SharedWriter threads workers) :
    List (WriterEvent threads) → SharedWriter threads workers → Prop
  /-- No step. -/
  | refl : Run threshold workerOf base writer [] writer
  /-- One more step. -/
  | tail {events told : List (WriterEvent threads)} {between later : SharedWriter threads workers}
      (run : Run threshold workerOf base writer events between)
      (step : between.Step threshold workerOf base told later) :
      Run threshold workerOf base writer (events ++ told) later

end SharedWriter
end SourceSearch
