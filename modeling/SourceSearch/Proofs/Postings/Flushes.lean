import SourceSearch.Proofs.Postings.FlushPool

/-!
# A shared writer as a pool

The threads of a shared writer are clients of a pool, and its workers are the workers of the pool.
Whatever they do to queues, files and the number of shards in flight, the pool can do as well.  A
thread that finds nothing in flight begins to wait, looks once and takes no failure, since no write
of a shared writer fails.
-/

namespace SourceSearch

/-- What a thread does as a client: it may hold a shard that is counted as in flight. -/
def ThreadPhase.asClient : ThreadPhase → FlushPhase
  | .use _ _ (.send ready) => .send ready
  | _ => .idle

theorem ThreadPhase.wake_asClient (phase : ThreadPhase) :
    phase.asClient.wake = phase.asClient := by
  rcases phase with _ | _ | ⟨_, _, _ | _ | _ | _ | _⟩ <;> rfl

theorem ThreadPhase.waits_asClient (phase : ThreadPhase) : phase.asClient.waits = false := by
  rcases phase with _ | _ | ⟨_, _, _ | _ | _ | _ | _⟩ <;> rfl

/-- A worker of a shared writer does what a worker of a pool does.  It forgets the shard that it has
written. -/
inductive WorkerPhase.DoesAs : WorkerPhase → FlushPhase → Prop
  /-- Both take a shard next. -/
  | idle : DoesAs .idle .idle
  /-- Both write the file of a shard next. -/
  | writeShard (ready : ReadyShard) : DoesAs (.writeShard ready) (.writeShard ready)
  /-- Both write the count next. -/
  | writeCount (ready : ReadyShard) : DoesAs (.writeCount ready) (.writeCount ready)
  /-- The shard is written. -/
  | finish (ready : ReadyShard) : DoesAs .finish (.finish ready (.ok ()))

theorem WorkerPhase.DoesAs.wake_eq {worker : WorkerPhase} {phase : FlushPhase}
    (does : worker.DoesAs phase) : phase.wake = phase := by
  cases does <;> rfl

theorem WorkerPhase.DoesAs.ne_gone {worker : WorkerPhase} {phase : FlushPhase}
    (does : worker.DoesAs phase) : phase ≠ .gone := by
  cases does <;> exact nofun

/-- Steps that concern accumulators only do not concern the pool. -/
theorem Collection.Step.asClient_eq {threads threshold : Nat}
    {collection later : Collection threads} {told : List (WriterEvent threads)}
    (step : collection.Step threshold told later) (one : Fin threads) :
    (later.threads one).phase.asClient = (collection.threads one).phase.asClient := by
  have quiet {between : Collection threads} {thread : Fin threads} {state changed : Thread}
      (same : between.threads = collection.threads) (phase : collection.threads thread = state)
      (alike : changed.phase.asClient = state.phase.asClient) :
      ((between.set thread changed).threads one).phase.asClient =
        (collection.threads one).phase.asClient := by
    by_cases here : one = thread
    · rw [here, threads_set_self, phase, alike]
    · rw [threads_set_of_ne _ _ _ here, same]
  cases step with
  | find next => exact quiet rfl next rfl
  | miss next => exact quiet rfl next rfl
  | share phase => exact quiet rfl phase rfl
  | make phase => exact quiet rfl phase rfl
  | list next => exact quiet rfl next rfl
  | turn next => exact quiet rfl next rfl
  | lock phase => exact quiet rfl phase rfl
  | @change _ _ _ _ _ ready? _ phase =>
      refine quiet rfl phase ?_
      cases ready? <;> rfl
  | unlock phase => exact quiet rfl phase rfl

namespace FlushPool

variable {clients workers : Nat} {workerOf : Trigram → Fin workers}
  {pool between later : FlushPool clients workers} {events told : List FlushEvent}

theorem OrderlyRun.trans (first : pool.OrderlyRun workerOf events between)
    (second : between.OrderlyRun workerOf told later) :
    pool.OrderlyRun workerOf (events ++ told) later := by
  induction second with
  | refl =>
      rw [List.append_nil]
      exact first
  | tail _ step admitted ih =>
      rw [← List.append_assoc]
      exact ih.tail step admitted

end FlushPool

namespace SharedWriter

variable {threads workers threshold : Nat} {workerOf : Trigram → Fin workers} {base : Path}
  {writer later : SharedWriter threads workers} {pool : FlushPool threads workers}
  {told : List (WriterEvent threads)}

/-- A pool without a failure does what a shared writer does. -/
structure FlushesBy (base : Path) (writer : SharedWriter threads workers)
    (pool : FlushPool threads workers) : Prop where
  /-- Threads are clients. -/
  clients : ∀ thread,
    pool.phases (.inl thread) = (writer.collection.threads thread).phase.asClient
  /-- Workers are workers. -/
  workers : ∀ worker, (writer.pool.workers worker).DoesAs (pool.phases (.inr worker))
  /-- The same shards wait. -/
  queues : pool.queues = writer.pool.queues
  /-- As many shards are in flight. -/
  inFlight : pool.inFlight = writer.pool.inFlight
  /-- The files are the same. -/
  tree : pool.tree = writer.pool.tree
  /-- There is no failure. -/
  sink : pool.sink = { base }

theorem flushesBy_start (calls : Fin threads → List WriterCall) (tree : FileTree) (base : Path) :
    (start calls tree : SharedWriter threads workers).FlushesBy base (.start base tree) where
  clients _ := rfl
  workers _ := .idle
  queues := rfl
  inFlight := rfl
  tree := rfl
  sink := rfl

namespace FlushesBy

/-- Nobody sleeps. -/
theorem wake_eq (flushes : writer.FlushesBy base pool) (thread : Fin threads ⊕ Fin workers) :
    (pool.phases thread).wake = pool.phases thread := by
  cases thread with
  | inl thread =>
      rw [flushes.clients]
      exact ThreadPhase.wake_asClient _
  | inr worker => exact (flushes.workers worker).wake_eq

/-- Nobody waits, so every step is admitted. -/
theorem admits (flushes : writer.FlushesBy base pool) (events : List FlushEvent) :
    pool.Admits events := by
  intro _ thread
  rw [flushes.clients]
  exact ThreadPhase.waits_asClient _

/-- The client of a thread that goes on. -/
theorem client_set (flushes : writer.FlushesBy base pool) (thread : Fin threads) (changed : Thread)
    (one : Fin threads) :
    Function.update pool.phases (.inl thread) changed.phase.asClient (.inl one) =
      ((writer.collection.set thread changed).threads one).phase.asClient := by
  by_cases here : one = thread
  · rw [here, Function.update_self, Collection.threads_set_self]
  · rw [Function.update_of_ne (by simpa using here), Collection.threads_set_of_ne _ _ _ here,
      flushes.clients]

/-- Workers are not concerned by what a client does. -/
theorem workers_client (flushes : writer.FlushesBy base pool) (thread : Fin threads)
    (phase : FlushPhase) (worker : Fin workers) :
    (writer.pool.workers worker).DoesAs
      (Function.update pool.phases (.inl thread) phase (.inr worker)) := by
  rw [Function.update_of_ne Sum.inr_ne_inl]
  exact flushes.workers worker

/-- The worker of a pool that goes on. -/
theorem worker_set (flushes : writer.FlushesBy base pool) (worker : Fin workers)
    {phase : WorkerPhase} {next : FlushPhase} (does : phase.DoesAs next) (one : Fin workers) :
    ((writer.pool.set worker phase).workers one).DoesAs
      (Function.update pool.phases (.inr worker) next (.inr one)) := by
  by_cases here : one = worker
  · rw [here, Function.update_self, Pool.workers_set_self]
    exact does
  · rw [Function.update_of_ne (by simpa using here), Pool.workers_set_of_ne _ _ _ here]
    exact flushes.workers one

/-- Clients are not concerned by what a worker does. -/
theorem clients_worker (flushes : writer.FlushesBy base pool) (worker : Fin workers)
    (phase : FlushPhase) (thread : Fin threads) :
    Function.update pool.phases (.inr worker) phase (.inl thread) =
      (writer.collection.threads thread).phase.asClient := by
  rw [Function.update_of_ne Sum.inl_ne_inr]
  exact flushes.clients thread

/-- A thread that finds nothing in flight waits and returns without a failure. -/
theorem await (flushes : writer.FlushesBy base pool) {thread : Fin threads}
    (idle : (writer.collection.threads thread).phase = .idle) (calm : writer.pool.inFlight = 0) :
    pool.OrderlyRun workerOf [.called, .returned (.ok ())] pool := by
  have phase : pool.phases (.inl thread) = .idle := by
    rw [flushes.clients, idle]
    rfl
  let looking := pool.set (.inl thread) .look
  let settling := looking.set (.inl thread) .settle
  have called : pool.Step workerOf [.called] looking := .call thread phase
  have passed : looking.Step workerOf [] settling :=
    .pass thread (FlushPool.phases_set_self ..) (flushes.inFlight.trans calm)
  have returned : settling.Step workerOf [.returned (.ok ())]
      (settling.set (.inl thread) .idle) := by
    have settles : settling.sink.settle = (.ok (), pool.sink) := by
      change pool.sink.settle = _
      rw [flushes.sink]
      rfl
    exact .settle thread (FlushPool.phases_set_self ..) settles
  have back : settling.set (.inl thread) .idle = pool := by
    simp only [settling, looking, FlushPool.set, Function.update_idem]
    rw [← phase, Function.update_eq_self]
  rw [back] at returned
  -- Only a client that submits has to be admitted.
  have run := (FlushPool.OrderlyRun.refl.tail called (flushes.admits _)).tail passed
    (fun submits => absurd rfl submits)
  exact run.tail returned fun submits => absurd rfl submits

/-- A worker of the pool is where the worker is that it goes along with. -/
theorem exists_phase (flushes : writer.FlushesBy base pool) {worker : Fin workers}
    {phase : WorkerPhase} (is : writer.pool.workers worker = phase) :
    ∃ state, pool.phases (.inr worker) = state ∧ phase.DoesAs state :=
  ⟨_, rfl, is ▸ flushes.workers worker⟩

/-- A worker does in the pool what it does for the shared writer. -/
theorem work (flushes : writer.FlushesBy base pool) {after : Pool workers}
    (step : writer.pool.Step base after) :
    ∃ events next, pool.Step workerOf events next ∧
      FlushesBy base { writer with pool := after } next := by
  cases step with
  | @receive worker ready rest phase queue =>
      obtain ⟨_, idle, ⟨⟩⟩ := flushes.exists_phase phase
      have step : pool.Step workerOf _ _ := .receive worker idle (flushes.queues ▸ queue)
      refine ⟨_, _, step, flushes.clients_worker worker (.writeShard ready),
        flushes.worker_set worker (.writeShard ready), ?_, flushes.inFlight, flushes.tree,
        flushes.sink⟩
      change Function.update pool.queues worker rest =
        Function.update writer.pool.queues worker rest
      rw [flushes.queues]
  | @writeShard worker ready changed phase wrote =>
      obtain ⟨_, writes, ⟨⟩⟩ := flushes.exists_phase phase
      have wrote : (ready.writeShard pool.sink.base).runOn pool.tree = (.ok (), changed) := by
        rwa [flushes.sink, flushes.tree]
      have step : pool.Step workerOf _ _ := .writeShard (.inr worker) writes wrote
      exact ⟨_, _, step, flushes.clients_worker worker (.writeCount ready),
        flushes.worker_set worker (.writeCount ready),
        flushes.queues, flushes.inFlight, rfl, flushes.sink⟩
  | @writeCount worker ready changed phase wrote =>
      obtain ⟨_, writes, ⟨⟩⟩ := flushes.exists_phase phase
      have wrote : (ready.writeCount pool.sink.base).runOn pool.tree = (.ok (), changed) := by
        rwa [flushes.sink, flushes.tree]
      have step : pool.Step workerOf _ _ := .writeCount (.inr worker) writes wrote
      exact ⟨_, _, step, flushes.clients_worker worker (.finish ready (.ok ())),
        flushes.worker_set worker (.finish ready),
        flushes.queues, flushes.inFlight, rfl, flushes.sink⟩
  | @finish worker phase =>
      obtain ⟨_, finishes, ⟨⟩⟩ := flushes.exists_phase phase
      have awake : pool.discount.phases = pool.phases := funext fun thread => by
        rw [FlushPool.phases_discount, flushes.wake_eq, ite_self]
      have step : pool.Step workerOf _ _ := .finish (.inr worker) finishes
      refine ⟨_, _, step, ?_, ?_, flushes.queues, ?_, flushes.tree, flushes.sink⟩
      · rw [FlushPool.set, awake]
        exact flushes.clients_worker worker .idle
      · rw [FlushPool.set, awake]
        exact flushes.worker_set worker .idle
      · exact congrArg (· - 1) flushes.inFlight

/-- The pool goes along with a step of the shared writer. -/
theorem step (flushes : writer.FlushesBy base pool)
    (step : writer.Step threshold workerOf base told later) :
    ∃ events next, pool.OrderlyRun workerOf events next ∧ later.FlushesBy base next := by
  cases step with
  | collect step =>
      exact ⟨[], pool, .refl, fun one => (flushes.clients one).trans (step.asClient_eq one).symm,
        flushes.workers, flushes.queues, flushes.inFlight, flushes.tree, flushes.sink⟩
  | @announce thread trigram handle ready tasks phase =>
      have idle : pool.phases (.inl thread) = .idle := by
        rw [flushes.clients, phase]
        rfl
      have step : pool.Step workerOf _ _ := .submit thread ready idle
      exact ⟨_, _, .tail .refl step (flushes.admits _),
        flushes.client_set thread ⟨tasks, .use trigram handle (.send ready)⟩,
        flushes.workers_client thread (.send ready), flushes.queues,
        congrArg (· + 1) flushes.inFlight, flushes.tree, flushes.sink⟩
  | @send thread trigram handle ready tasks phase =>
      have sends : pool.phases (.inl thread) = .send ready := by
        rw [flushes.clients, phase]
        rfl
      have step : pool.Step workerOf _ _ :=
        .enqueue thread sends (flushes.workers (workerOf ready.trigram)).ne_gone
      refine ⟨_, _, .tail .refl step (flushes.admits _),
        flushes.client_set thread ⟨tasks, .use trigram handle .unlock⟩,
        flushes.workers_client thread .idle, ?_, flushes.inFlight, flushes.tree, flushes.sink⟩
      change Function.update pool.queues _ (pool.queues _ ++ _) = Function.update _ _ _
      rw [flushes.queues]
  | @await thread tasks next idle =>
      refine ⟨_, pool, flushes.await (by rw [next]) idle, fun one => ?_, flushes.workers,
        flushes.queues, flushes.inFlight, flushes.tree, flushes.sink⟩
      have same := flushes.client_set thread ⟨tasks, .idle⟩ one
      have phase : pool.phases (.inl thread) = ThreadPhase.idle.asClient := by
        rw [flushes.clients, next]
      rwa [← phase, Function.update_eq_self] at same
  | work step =>
      obtain ⟨events, next, step, flushes'⟩ := flushes.work step
      exact ⟨_, next, .tail .refl step (flushes.admits _), flushes'⟩

/-- Other hands that change the disk change it for both. -/
theorem disturb (flushes : writer.FlushesBy base pool) (changed : FileTree) :
    pool.OrderlyRun workerOf [] { pool with tree := changed } ∧
      FlushesBy base { writer with pool := { writer.pool with tree := changed } }
        { pool with tree := changed } :=
  ⟨FlushPool.OrderlyRun.refl.tail .disturb fun submits => absurd rfl submits, flushes.clients,
    flushes.workers, flushes.queues, flushes.inFlight, rfl, flushes.sink⟩

/-- The pool does not learn of calls that a thread has not begun. -/
theorem assign (flushes : writer.FlushesBy base pool) (thread : Fin threads)
    (calls : List WriterCall) : (writer.assign thread calls).FlushesBy base pool := by
  refine ⟨fun one => ?_, flushes.workers, flushes.queues, flushes.inFlight, flushes.tree,
    flushes.sink⟩
  have same := flushes.client_set thread
    { writer.collection.threads thread with
      tasks := (writer.collection.threads thread).tasks ++ calls.map WriterCall.task } one
  have phase := flushes.clients thread
  rwa [← phase, Function.update_eq_self] at same

end FlushesBy

/-- **A pool goes along with a shared writer.**  Whatever threads and workers do, clients and
workers of a pool can do it without a failure, and come to the same files. -/
theorem Run.flushesBy (flushes : writer.FlushesBy base pool)
    (run : writer.Run threshold workerOf base told later) :
    ∃ events next, pool.OrderlyRun workerOf events next ∧ later.FlushesBy base next := by
  induction run with
  | refl => exact ⟨[], pool, .refl, flushes⟩
  | tail _ step ih =>
      obtain ⟨events, between, first, flushes'⟩ := ih
      obtain ⟨more, next, second, flushes''⟩ := flushes'.step step
      exact ⟨_, next, first.trans second, flushes''⟩

end SharedWriter
end SourceSearch
