import Mathlib.Algebra.BigOperators.Group.Finset.Basic
import Mathlib.Algebra.Order.Group.Multiset
import Mathlib.Data.Fintype.Sum
import SourceSearch.Proofs.Postings.Concurrency

/-!
# A pool that writes shards

Clients hand shards to a pool, whose workers write them.  A shard is counted as in flight before it
comes into the queue of its worker, and it is written or has failed before it ceases to be counted.
Of the failures the sink keeps the first one.  A client that waits looks whether anything is in
flight; if so it sleeps until it is woken, and otherwise it takes the failure that has been kept.
If the worker of a shard is gone, the client writes the shard itself.

What happens under one lock is one step, and so is one file that is written.  Steps of clients and
workers interleave in every order, and the disk may change between them in any way.
-/

namespace SourceSearch

/-! ## Threads -/

/-- What a client or a worker does next. -/
inductive FlushPhase where
  /-- Whatever it is told to do. -/
  | idle
  /-- Put a shard into the queue of its worker. -/
  | send (ready : ReadyShard)
  /-- Write the file of a shard. -/
  | writeShard (ready : ReadyShard)
  /-- Write the count that includes a shard. -/
  | writeCount (ready : ReadyShard)
  /-- Have the failure of a shard kept. -/
  | tell (ready : ReadyShard) (failure : Failure)
  /-- Cease to count a shard as in flight. -/
  | finish (ready : ReadyShard) (outcome : Except Failure Unit)
  /-- Look whether anything is in flight. -/
  | look
  /-- Wait to be woken. -/
  | sleep
  /-- Take the failure that is kept. -/
  | settle
  /-- Nothing any more. -/
  | gone

namespace FlushPhase

/-- The phase after a file of a shard has been written or not. -/
def afterWrite (ready : ReadyShard) (next : FlushPhase) : Except Failure Unit → FlushPhase
  | .ok () => next
  | .error failure => tell ready failure

/-- The phase of a thread that is woken if it sleeps. -/
def wake : FlushPhase → FlushPhase
  | sleep => look
  | phase => phase

/-- Only clients do this. -/
def isClients : FlushPhase → Bool
  | send _ | look | sleep | settle => true
  | _ => false

/-- The client is in a call that waits. -/
def waits : FlushPhase → Bool
  | look | sleep | settle => true
  | _ => false

/-- The shard that the thread is responsible for. -/
def held : FlushPhase → Multiset ReadyShard
  | send ready | writeShard ready | writeCount ready | tell ready _ | finish ready _ => {ready}
  | idle | look | sleep | settle | gone => 0

/-- The failure that the thread has told of, of a shard that it has still to finish. -/
def reported : FlushPhase → Multiset Failure
  | finish _ (.error failure) => {failure}
  | _ => 0

/-- A bound of the steps until the shard of the thread is finished. -/
def toil : FlushPhase → Nat
  | send _ => 6
  | writeShard _ => 4
  | writeCount _ => 3
  | tell _ _ => 2
  | finish _ _ => 1
  | idle | look | sleep | settle | gone => 0

section Lemmas

variable {phase : FlushPhase}

@[simp]
theorem held_wake (phase : FlushPhase) : phase.wake.held = phase.held := by
  cases phase <;> rfl

@[simp]
theorem reported_wake (phase : FlushPhase) : phase.wake.reported = phase.reported := by
  cases phase <;> rfl

@[simp]
theorem waits_wake (phase : FlushPhase) : phase.wake.waits = phase.waits := by
  cases phase <;> rfl

@[simp]
theorem isClients_wake (phase : FlushPhase) : phase.wake.isClients = phase.isClients := by
  cases phase <;> rfl

theorem not_waits_of_plain (plain : phase.isClients = false) : phase.waits = false := by
  cases phase with
  | look | sleep | settle => cases plain
  | _ => rfl

theorem wake_ne_sleep (phase : FlushPhase) : phase.wake ≠ sleep := by
  cases phase <;> exact nofun

theorem wake_of_held (held : phase.held ≠ 0) : phase.wake = phase := by
  cases phase with
  | sleep => exact absurd rfl held
  | _ => rfl

theorem eq_of_wake_eq {other : FlushPhase} (same : phase.wake = other) (awake : other ≠ look) :
    phase = other := by
  cases phase with
  | sleep => exact absurd same.symm awake
  | _ => exact same

/-- A worker that holds no shard is free, unless it is gone. -/
theorem eq_idle (free : phase.held = 0) (plain : phase.isClients = false)
    (present : phase ≠ gone) : phase = idle := by
  cases phase with
  | idle => rfl
  | gone => exact absurd rfl present
  | send | look | sleep | settle => cases plain
  | _ => exact absurd free (Multiset.singleton_ne_zero _)

/-- Whoever holds no shard has told no failure of one. -/
theorem reported_eq_zero (free : phase.held = 0) : phase.reported = 0 := by
  cases phase with
  | finish ready outcome => exact absurd free (Multiset.singleton_ne_zero ready)
  | _ => rfl

end Lemmas

end FlushPhase

/-- A sink that keeps a failure unless there is an earlier one. -/
def ShardSink.keep (sink : ShardSink) (failure : Failure) : ShardSink :=
  { sink with failure := sink.failure.or (some failure) }

/-- Clients and workers with their queues, and what they share. -/
structure FlushPool (clients workers : Nat) where
  /-- What clients and workers do next. -/
  phases : Fin clients ⊕ Fin workers → FlushPhase := fun _ => .idle
  /-- The shards that wait for each worker, the oldest first. -/
  queues : Fin workers → List ReadyShard := fun _ => []
  /-- The number of shards in flight. -/
  inFlight : Nat := 0
  /-- The folder that is written to, and the failure that is kept. -/
  sink : ShardSink
  /-- The files. -/
  tree : FileTree

/-- What the world learns of a step. -/
inductive FlushEvent where
  /-- A client has submitted a shard. -/
  | submitted (ready : ReadyShard)
  /-- A failure has been told, to be kept unless there is an earlier one. -/
  | failed (failure : Failure)
  /-- A shard is finished, be it written or not. -/
  | finished (ready : ReadyShard) (outcome : Except Failure Unit)
  /-- A client has begun to wait. -/
  | called
  /-- A client has returned from waiting. -/
  | returned (outcome : Except Failure Unit)

/-! ## What is told -/

namespace FlushEvent

/-- The shard that has been submitted. -/
def submitted? : FlushEvent → Option ReadyShard
  | submitted ready => some ready
  | _ => none

/-- The shard that has been finished. -/
def finished? : FlushEvent → Option ReadyShard
  | finished ready _ => some ready
  | _ => none

/-- The failure that has been told. -/
def failed? : FlushEvent → Option Failure
  | failed failure => some failure
  | _ => none

/-- The failure of the shard that has been finished. -/
def finishedFailure? : FlushEvent → Option Failure
  | finished _ (.error failure) => some failure
  | _ => none

/-- A wait is over. -/
def isReturn : FlushEvent → Bool
  | returned _ => true
  | _ => false

end FlushEvent

/-- The shards that have been submitted. -/
def submittedShards (events : List FlushEvent) : Multiset ReadyShard :=
  events.filterMap FlushEvent.submitted?

/-- The shards that have been finished. -/
def finishedShards (events : List FlushEvent) : Multiset ReadyShard :=
  events.filterMap FlushEvent.finished?

/-- The failures in the order in which they have been told. -/
def failuresTold (events : List FlushEvent) : List Failure :=
  events.filterMap FlushEvent.failed?

/-- The failures of shards that have been finished. -/
def finishedFailures (events : List FlushEvent) : Multiset Failure :=
  events.filterMap FlushEvent.finishedFailure?

/-- What has been told since the last return of a wait. -/
def sinceReturn (events : List FlushEvent) : List FlushEvent :=
  (events.reverse.takeWhile (!·.isReturn)).reverse

section Told

variable (events : List FlushEvent)

@[simp]
theorem submittedShards_append (told : List FlushEvent) :
    submittedShards (events ++ told) = submittedShards events + submittedShards told := by
  simp [submittedShards]

@[simp]
theorem finishedShards_append (told : List FlushEvent) :
    finishedShards (events ++ told) = finishedShards events + finishedShards told := by
  simp [finishedShards]

@[simp]
theorem failuresTold_append (told : List FlushEvent) :
    failuresTold (events ++ told) = failuresTold events ++ failuresTold told :=
  List.filterMap_append ..

@[simp]
theorem finishedFailures_append (told : List FlushEvent) :
    finishedFailures (events ++ told) = finishedFailures events + finishedFailures told := by
  simp [finishedFailures]

variable (event : FlushEvent)

@[simp]
theorem submittedShards_singleton :
    submittedShards [event] = (event.submitted?.toList : Multiset ReadyShard) := by
  cases event <;> rfl

@[simp]
theorem finishedShards_singleton :
    finishedShards [event] = (event.finished?.toList : Multiset ReadyShard) := by
  cases event <;> rfl

@[simp]
theorem failuresTold_singleton : failuresTold [event] = event.failed?.toList := by
  cases event <;> rfl

@[simp]
theorem finishedFailures_singleton :
    finishedFailures [event] = (event.finishedFailure?.toList : Multiset Failure) := by
  rcases event with _ | _ | ⟨_, _ | _⟩ | _ | _ <;> rfl

@[simp]
theorem sinceReturn_append_returned (outcome : Except Failure Unit) :
    sinceReturn (events ++ [.returned outcome]) = [] := by
  simp [sinceReturn, FlushEvent.isReturn]

theorem sinceReturn_append (goesOn : event.isReturn = false) :
    sinceReturn (events ++ [event]) = sinceReturn events ++ [event] := by
  simp [sinceReturn, goesOn]

end Told

/-! ## Steps -/

namespace FlushPool

variable {clients workers : Nat}

/-- Before the first step. -/
def start (base : Path) (tree : FileTree) : FlushPool clients workers :=
  { sink := { base }, tree }

/-- The pool with one thread changed. -/
def set (pool : FlushPool clients workers) (thread : Fin clients ⊕ Fin workers)
    (phase : FlushPhase) : FlushPool clients workers :=
  { pool with phases := Function.update pool.phases thread phase }

@[simp]
theorem phases_set_self (pool : FlushPool clients workers) (thread : Fin clients ⊕ Fin workers)
    (phase : FlushPhase) : (pool.set thread phase).phases thread = phase :=
  Function.update_self ..

/-- The pool with another queue for a worker. -/
def requeue (pool : FlushPool clients workers) (worker : Fin workers)
    (queue : List ReadyShard) : FlushPool clients workers :=
  { pool with queues := Function.update pool.queues worker queue }

/-- One shard less is in flight; if it was the last one, all that sleep are woken. -/
def discount (pool : FlushPool clients workers) : FlushPool clients workers :=
  { pool with
    inFlight := pool.inFlight - 1
    phases := if pool.inFlight - 1 = 0 then fun thread => (pool.phases thread).wake
      else pool.phases }

theorem phases_discount (pool : FlushPool clients workers) (thread : Fin clients ⊕ Fin workers) :
    pool.discount.phases thread =
      if pool.inFlight - 1 = 0 then (pool.phases thread).wake else pool.phases thread := by
  rw [discount]
  dsimp only
  split <;> rfl

/-- A step of one thread, or of the world around. -/
inductive Step (workerOf : Trigram → Fin workers) (pool : FlushPool clients workers) :
    List FlushEvent → FlushPool clients workers → Prop
  /-- A client submits a shard, which is counted as in flight. -/
  | submit (client : Fin clients) (ready : ReadyShard) (phase : pool.phases (.inl client) = .idle) :
      Step workerOf pool [.submitted ready]
        ({ pool with inFlight := pool.inFlight + 1 }.set (.inl client) (.send ready))
  /-- The shard comes into the queue of its worker. -/
  | enqueue (client : Fin clients) {ready : ReadyShard}
      (phase : pool.phases (.inl client) = .send ready)
      (there : pool.phases (.inr (workerOf ready.trigram)) ≠ .gone) :
      Step workerOf pool []
        ((pool.requeue (workerOf ready.trigram)
          (pool.queues (workerOf ready.trigram) ++ [ready])).set (.inl client) .idle)
  /-- The worker is gone, so the client goes on with the shard. -/
  | reject (client : Fin clients) {ready : ReadyShard}
      (phase : pool.phases (.inl client) = .send ready)
      (gone : pool.phases (.inr (workerOf ready.trigram)) = .gone) :
      Step workerOf pool [] (pool.set (.inl client) (.writeShard ready))
  /-- A worker takes the first shard of its queue. -/
  | receive (worker : Fin workers) {ready : ReadyShard} {rest : List ReadyShard}
      (phase : pool.phases (.inr worker) = .idle) (queue : pool.queues worker = ready :: rest) :
      Step workerOf pool [] ((pool.requeue worker rest).set (.inr worker) (.writeShard ready))
  /-- A worker comes to its end while it writes.  What it leaves behind nobody will write. -/
  | vanish (worker : Fin workers) {ready : ReadyShard}
      (phase : pool.phases (.inr worker) = .writeShard ready ∨
        pool.phases (.inr worker) = .writeCount ready) :
      Step workerOf pool []
        ((pool.requeue worker (ready :: pool.queues worker)).set (.inr worker) .gone)
  /-- The file of a shard is written or not. -/
  | writeShard (thread : Fin clients ⊕ Fin workers) {ready : ReadyShard}
      {outcome : Except Failure Unit} {changed : FileTree}
      (phase : pool.phases thread = .writeShard ready)
      (wrote : (ready.writeShard pool.sink.base).runOn pool.tree = (outcome, changed)) :
      Step workerOf pool []
        ({ pool with tree := changed }.set thread (.afterWrite ready (.writeCount ready) outcome))
  /-- The count is written or not. -/
  | writeCount (thread : Fin clients ⊕ Fin workers) {ready : ReadyShard}
      {outcome : Except Failure Unit} {changed : FileTree}
      (phase : pool.phases thread = .writeCount ready)
      (wrote : (ready.writeCount pool.sink.base).runOn pool.tree = (outcome, changed)) :
      Step workerOf pool []
        ({ pool with tree := changed }.set thread
          (.afterWrite ready (.finish ready (.ok ())) outcome))
  /-- The failure of a shard is kept, unless there is an earlier one. -/
  | tell (thread : Fin clients ⊕ Fin workers) {ready : ReadyShard} {failure : Failure}
      (phase : pool.phases thread = .tell ready failure) :
      Step workerOf pool [.failed failure]
        ({ pool with sink := pool.sink.keep failure }.set thread (.finish ready (.error failure)))
  /-- A shard is finished. -/
  | finish (thread : Fin clients ⊕ Fin workers) {ready : ReadyShard}
      {outcome : Except Failure Unit} (phase : pool.phases thread = .finish ready outcome) :
      Step workerOf pool [.finished ready outcome] (pool.discount.set thread .idle)
  /-- A client begins to wait. -/
  | call (client : Fin clients) (phase : pool.phases (.inl client) = .idle) :
      Step workerOf pool [.called] (pool.set (.inl client) .look)
  /-- Something is in flight, so the client goes to sleep. -/
  | sleep (client : Fin clients) (phase : pool.phases (.inl client) = .look)
      (busy : pool.inFlight ≠ 0) :
      Step workerOf pool [] (pool.set (.inl client) .sleep)
  /-- A client wakes up by itself. -/
  | stir (client : Fin clients) (phase : pool.phases (.inl client) = .sleep) :
      Step workerOf pool [] (pool.set (.inl client) .look)
  /-- Nothing is in flight. -/
  | pass (client : Fin clients) (phase : pool.phases (.inl client) = .look)
      (quiet : pool.inFlight = 0) :
      Step workerOf pool [] (pool.set (.inl client) .settle)
  /-- The client takes the failure that is kept, and returns. -/
  | settle (client : Fin clients) {outcome : Except Failure Unit} {sink : ShardSink}
      (phase : pool.phases (.inl client) = .settle)
      (settles : pool.sink.settle = (outcome, sink)) :
      Step workerOf pool [.returned outcome] ({ pool with sink }.set (.inl client) .idle)
  /-- The disk changes by other hands. -/
  | disturb {changed : FileTree} : Step workerOf pool [] { pool with tree := changed }

/-- Any number of steps, with all that is told of them. -/
inductive Run (workerOf : Trigram → Fin workers) (pool : FlushPool clients workers) :
    List FlushEvent → FlushPool clients workers → Prop
  /-- No step. -/
  | refl : Run workerOf pool [] pool
  /-- One more step. -/
  | tail {events told : List FlushEvent} {between later : FlushPool clients workers}
      (run : Run workerOf pool events between) (step : between.Step workerOf told later) :
      Run workerOf pool (events ++ told) later

/-- A thread that is left alone with a shard does to files and failures what a sink does that
accepts the shard. -/
theorem exists_run_accept {workerOf : Trigram → Fin workers} {pool : FlushPool clients workers}
    {thread : Fin clients ⊕ Fin workers} {ready : ReadyShard}
    (phase : pool.phases thread = .writeShard ready) :
    ∃ events outcome later, pool.Run workerOf events later ∧
      later.phases thread = .finish ready outcome ∧
      pool.sink.accept ready pool.tree = (later.sink, later.tree) := by
  have here : pool.Run workerOf [] pool := .refl
  simp only [ShardSink.accept_eq, ReadyShard.write_eq, TaskM.runOn_bind]
  rcases first : (ready.writeShard pool.sink.base).runOn pool.tree with ⟨failure | ⟨⟩, between⟩
  · have wrote := here.tail (.writeShard _ phase first)
    exact ⟨_, _, _, wrote.tail (.tell _ (phases_set_self ..)), phases_set_self .., rfl⟩
  · have wrote := here.tail (.writeShard _ phase first)
    dsimp only
    rcases second : (ready.writeCount pool.sink.base).runOn between with ⟨failure | ⟨⟩, last⟩
    · have counted := wrote.tail (.writeCount _ (phases_set_self ..) second)
      exact ⟨_, _, _, counted.tail (.tell _ (phases_set_self ..)), phases_set_self .., rfl⟩
    · have counted := wrote.tail (.writeCount _ (phases_set_self ..) second)
      exact ⟨_, _, _, counted, phases_set_self .., rfl⟩

/-- Nobody submits while a client waits. -/
def Admits (pool : FlushPool clients workers) (told : List FlushEvent) : Prop :=
  submittedShards told ≠ 0 → ∀ client, (pool.phases (.inl client)).waits = false

/-- Steps among which nobody submits while a client waits. -/
inductive OrderlyRun (workerOf : Trigram → Fin workers) (pool : FlushPool clients workers) :
    List FlushEvent → FlushPool clients workers → Prop
  /-- No step. -/
  | refl : OrderlyRun workerOf pool [] pool
  /-- One more step. -/
  | tail {events told : List FlushEvent} {between later : FlushPool clients workers}
      (run : OrderlyRun workerOf pool events between) (step : between.Step workerOf told later)
      (admitted : between.Admits told) :
      OrderlyRun workerOf pool (events ++ told) later

end FlushPool
end SourceSearch
