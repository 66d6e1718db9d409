import Mathlib.Algebra.Order.BigOperators.Group.Finset
import SourceSearch.Proofs.Postings.FlushPool

/-!
# The books of a pool

The books of a pool say which shards have been submitted and not finished, how many are counted as
in flight, which failures have been told of shards that are not finished yet, and which failure is
kept.  Every step of a pool is one entry of its books, so what is to be said about failures can be
said about the few entries that there are.
-/

namespace SourceSearch

/-! ## Books -/

/-- What counts of a pool. -/
structure FlushBooks where
  /-- The shards that have been submitted and not finished. -/
  unfinished : Multiset ReadyShard
  /-- The failures that have been told of shards that are not finished. -/
  reported : Multiset Failure
  /-- The number of shards in flight. -/
  inFlight : Nat
  /-- The failure that is kept. -/
  failure : Option Failure

/-- What a wait returns if failures have been told since the wait before it. -/
def firstFailure : Option Failure → Except Failure Unit
  | some failure => .error failure
  | none => .ok ()

theorem ShardSink.settle_eq (sink : ShardSink) :
    sink.settle = (firstFailure sink.failure, { sink with failure := none }) := by
  obtain ⟨base, _ | failure⟩ := sink <;> rfl

/-- The failure of a shard that ends like this. -/
def failureOf : Except Failure Unit → Multiset Failure
  | .error failure => {failure}
  | .ok () => 0

namespace FlushBooks

/-- An entry of the books. -/
inductive Step (books : FlushBooks) : List FlushEvent → FlushBooks → Prop
  /-- A shard is submitted. -/
  | submit (ready : ReadyShard) :
      Step books [.submitted ready]
        { books with
          unfinished := books.unfinished + {ready}
          inFlight := books.inFlight + 1 }
  /-- A failure is told of. -/
  | tell (failure : Failure) :
      Step books [.failed failure]
        { books with
          reported := books.reported + {failure}
          failure := books.failure.or (some failure) }
  /-- A shard is finished. -/
  | finish {ready : ReadyShard} {outcome : Except Failure Unit} {unfinished : Multiset ReadyShard}
      {reported : Multiset Failure} (listed : unfinished + {ready} = books.unfinished)
      (known : reported + failureOf outcome = books.reported) :
      Step books [.finished ready outcome]
        { books with unfinished, reported, inFlight := books.inFlight - 1 }
  /-- A wait returns. -/
  | settle : Step books [.returned (firstFailure books.failure)] { books with failure := none }
  /-- A wait begins. -/
  | call : Step books [.called] books
  /-- Nothing is told. -/
  | silent : Step books [] books

/-- The books agree with what has been told. -/
structure Agrees (events : List FlushEvent) (books : FlushBooks) : Prop where
  /-- What has been submitted is finished or not. -/
  submitted : submittedShards events = finishedShards events + books.unfinished
  /-- The failure that is kept is the first that has been told since the last return. -/
  failure : books.failure = (failuresTold (sinceReturn events)).head?

variable {books later : FlushBooks} {events told : List FlushEvent}

/-- A step moves a shard from those not finished to those finished, or adds one. -/
theorem Step.balance (step : books.Step told later) :
    submittedShards told + books.unfinished = finishedShards told + later.unfinished := by
  cases step with
  | @finish ready outcome unfinished reported listed known =>
      simp [← listed, FlushEvent.submitted?, FlushEvent.finished?, add_comm unfinished]
  | submit ready => simp [FlushEvent.submitted?, FlushEvent.finished?, add_comm]
  | silent => rfl
  | _ => simp [FlushEvent.submitted?, FlushEvent.finished?]

/-- To finish a shard makes the number of those in flight smaller by one. -/
theorem Step.inFlight_of_finished {ready : ReadyShard} {outcome : Except Failure Unit}
    (step : books.Step [.finished ready outcome] later)
    (counted : books.inFlight = books.unfinished.card) : later.inFlight + 1 = books.inFlight := by
  cases step with
  | finish listed known =>
      rw [← listed, Multiset.card_add, Multiset.card_singleton] at counted
      change books.inFlight - 1 + 1 = books.inFlight
      omega

theorem Step.inFlight_eq (step : books.Step told later)
    (counted : books.inFlight = books.unfinished.card) :
    later.inFlight = later.unfinished.card := by
  cases step with
  | submit ready => simp [counted]
  | finish listed known =>
      rw [← listed, Multiset.card_add, Multiset.card_singleton] at counted
      exact Nat.sub_eq_of_eq_add counted
  | _ => exact counted

theorem Step.failure_eq (step : books.Step told later)
    (first : books.failure = (failuresTold (sinceReturn events)).head?) :
    later.failure = (failuresTold (sinceReturn (events ++ told))).head? := by
  cases step with
  | tell failure =>
      rw [sinceReturn_append _ _ rfl, failuresTold_append, List.head?_append, ← first]
      rfl
  | settle => simp [failuresTold]
  | silent => simpa using first
  -- What is left is no return and tells of no failure.
  | _ =>
      rw [sinceReturn_append _ _ rfl]
      simpa [FlushEvent.failed?] using first

theorem Agrees.step (agrees : books.Agrees events) (step : books.Step told later) :
    later.Agrees (events ++ told) where
  submitted := by
    rw [submittedShards_append, finishedShards_append, agrees.submitted, add_assoc, add_assoc,
      add_comm books.unfinished, step.balance]
  failure := step.failure_eq agrees.failure

/-- What a wait returns is the first failure that has been told since the wait before it. -/
theorem Agrees.eq_of_returned {outcome : Except Failure Unit} (agrees : books.Agrees events)
    (step : books.Step [.returned outcome] later) :
    outcome = firstFailure (failuresTold (sinceReturn events)).head? := by
  cases step with
  | settle => rw [agrees.failure]

/-- The failures that have been told since the last return are those of finished shards and those
of shards that are not finished. -/
def Tallies (events : List FlushEvent) (books : FlushBooks) : Prop :=
  (failuresTold (sinceReturn events) : Multiset Failure) =
    finishedFailures (sinceReturn events) + books.reported

/-- This stays so if a wait returns only when all shards are finished. -/
theorem Tallies.step (tallies : books.Tallies events) (step : books.Step told later)
    (clear : ∀ outcome, told = [.returned outcome] → books.reported = 0) :
    later.Tallies (events ++ told) := by
  rw [Tallies] at tallies ⊢
  cases step with
  | tell failure =>
      rw [sinceReturn_append _ _ rfl, failuresTold_append, ← Multiset.coe_add, tallies]
      simp [FlushEvent.failed?, FlushEvent.finishedFailure?, add_assoc]
  | @finish ready outcome unfinished reported listed known =>
      rw [← known] at tallies
      rw [sinceReturn_append _ _ rfl]
      cases outcome <;>
        simpa [FlushEvent.failed?, FlushEvent.finishedFailure?, failureOf, add_assoc,
          add_comm reported] using tallies
  | settle =>
      rw [sinceReturn_append_returned, clear _ rfl]
      rfl
  | silent => simpa using tallies
  -- What is left is no return and has nothing to do with failures.
  | _ =>
      rw [sinceReturn_append _ _ rfl]
      simpa [FlushEvent.failed?, FlushEvent.finishedFailure?] using tallies

end FlushBooks

/-! ## The books of a pool -/

namespace FlushPool

variable {clients workers : Nat} {workerOf : Trigram → Fin workers}
  {pool later : FlushPool clients workers} {events told : List FlushEvent}

section Totals

variable {M : Type} [AddCommMonoid M] {thread : Fin clients ⊕ Fin workers}
  {phase : FlushPhase}

/-- What all threads amount to. -/
def total (pool : FlushPool clients workers) (weight : FlushPhase → M) : M :=
  ∑ thread, weight (pool.phases thread)

theorem total_set (before : pool.phases thread = phase) (after : FlushPhase)
    (weight : FlushPhase → M) :
    (pool.set thread after).total weight + weight phase = pool.total weight + weight after := by
  subst before
  exact sum_update ..

theorem total_discount {weight : FlushPhase → M}
    (calm : ∀ phase : FlushPhase, weight phase.wake = weight phase) :
    pool.discount.total weight = pool.total weight := by
  refine Finset.sum_congr rfl fun thread _ => ?_
  rw [phases_discount]
  split
  · exact calm _
  · rfl

/-- The shards in the queues. -/
def queued (pool : FlushPool clients workers) : Multiset ReadyShard :=
  ∑ worker, (pool.queues worker : Multiset ReadyShard)

theorem queued_requeue (pool : FlushPool clients workers) (worker : Fin workers)
    (queue : List ReadyShard) :
    (pool.requeue worker queue).queued + pool.queues worker = pool.queued + queue :=
  sum_update pool.queues worker queue fun queue => (queue : Multiset ReadyShard)

end Totals

/-- The shards that threads hold or that wait in a queue. -/
def unfinished (pool : FlushPool clients workers) : Multiset ReadyShard :=
  pool.total FlushPhase.held + pool.queued

/-- What counts of a pool. -/
def books (pool : FlushPool clients workers) : FlushBooks where
  unfinished := pool.unfinished
  reported := pool.total FlushPhase.reported
  inFlight := pool.inFlight
  failure := pool.sink.failure

section Books

variable {thread : Fin clients ⊕ Fin workers} {worker : Fin workers} {ready : ReadyShard}
  {rest : List ReadyShard} {phase after : FlushPhase}

theorem unfinished_set (before : pool.phases thread = phase) (after : FlushPhase) :
    (pool.set thread after).unfinished + phase.held = pool.unfinished + after.held := by
  have moved := total_set before after FlushPhase.held
  rw [unfinished, unfinished, add_right_comm, moved, add_right_comm]
  rfl

theorem unfinished_discount : pool.discount.unfinished = pool.unfinished := by
  rw [unfinished, unfinished, total_discount FlushPhase.held_wake]
  rfl

/-- An entry that stands for one thread that goes on. -/
theorem entry_set {books : FlushBooks} {shards : Multiset ReadyShard} {failures : Multiset Failure}
    (entry : books.Step told { pool.books with unfinished := shards, reported := failures })
    (before : pool.phases thread = phase)
    (held : shards + phase.held = pool.unfinished + after.held)
    (reported : failures + phase.reported = pool.books.reported + after.reported) :
    books.Step told (pool.set thread after).books := by
  have listed := (unfinished_set before after).trans held.symm
  have known := (total_set before after FlushPhase.reported).trans reported.symm
  rw [FlushPool.books, add_right_cancel listed, add_right_cancel known]
  exact entry

/-- A thread that goes on with the shard that it has changes nothing else. -/
theorem entry_set_of_same {books : FlushBooks} (entry : books.Step told pool.books)
    (before : pool.phases thread = phase) (held : after.held = phase.held)
    (reported : after.reported = phase.reported) :
    books.Step told (pool.set thread after).books :=
  entry_set entry before (by rw [held]) (by rw [reported]; rfl)

theorem unfinished_requeue (pool : FlushPool clients workers) (worker : Fin workers)
    (queue : List ReadyShard) :
    (pool.requeue worker queue).unfinished + pool.queues worker = pool.unfinished + queue := by
  rw [unfinished, unfinished, add_assoc, add_assoc, queued_requeue]
  rfl

theorem unfinished_enqueue {queue : List ReadyShard}
    (grown : (queue : Multiset ReadyShard) = {ready} + pool.queues worker) :
    (pool.requeue worker queue).unfinished = pool.unfinished + {ready} := by
  have moved := pool.unfinished_requeue worker queue
  rw [grown, ← add_assoc] at moved
  exact add_right_cancel moved

theorem unfinished_dequeue (queue : pool.queues worker = ready :: rest) :
    (pool.requeue worker rest).unfinished + {ready} = pool.unfinished := by
  have moved := pool.unfinished_requeue worker rest
  rw [queue, ← Multiset.cons_coe, ← Multiset.singleton_add, ← add_assoc] at moved
  exact add_right_cancel moved

end Books

theorem phases_discount_of_held {thread : Fin clients ⊕ Fin workers} {phase : FlushPhase}
    (before : pool.phases thread = phase) (held : phase.held ≠ 0) :
    pool.discount.phases thread = phase := by
  rw [phases_discount, before, FlushPhase.wake_of_held held, ite_self]

/-- Every step of a pool is an entry of its books. -/
theorem Step.books (step : pool.Step workerOf told later) : pool.books.Step told later.books := by
  cases step with
  | submit client ready phase => exact entry_set (.submit _) phase (add_zero _) rfl
  | @enqueue client ready phase there =>
      have grown : (pool.requeue (workerOf ready.trigram)
          (pool.queues (workerOf ready.trigram) ++ [ready])).unfinished =
          pool.unfinished + {ready} :=
        unfinished_enqueue (by rw [← Multiset.coe_add, add_comm]; rfl)
      exact entry_set .silent phase (grown.symm.trans (add_zero _).symm) rfl
  | reject client phase gone => exact entry_set_of_same .silent phase rfl rfl
  | receive worker phase queue =>
      exact entry_set .silent phase ((add_zero _).trans (unfinished_dequeue queue).symm) rfl
  | @vanish worker ready phase =>
      have grown : (pool.requeue worker (ready :: pool.queues worker)).unfinished =
          pool.unfinished + {ready} :=
        unfinished_enqueue rfl
      rcases phase with phase | phase <;>
        exact entry_set .silent phase (grown.symm.trans (add_zero _).symm) rfl
  | @writeShard thread ready outcome changed phase wrote =>
      cases outcome <;> exact entry_set_of_same .silent phase rfl rfl
  | @writeCount thread ready outcome changed phase wrote =>
      cases outcome <;> exact entry_set_of_same .silent phase rfl rfl
  | tell thread phase => exact entry_set (.tell _) phase rfl (add_zero _)
  | @finish thread ready outcome phase =>
      have same := phases_discount_of_held phase (Multiset.singleton_ne_zero ready)
      have shards := unfinished_set same .idle
      have failures := total_set same .idle FlushPhase.reported
      have known : (FlushPhase.finish ready outcome).reported = failureOf outcome := by
        cases outcome <;> rfl
      rw [unfinished_discount] at shards
      rw [total_discount FlushPhase.reported_wake, known] at failures
      exact .finish (shards.trans (add_zero _)) (failures.trans (add_zero _))
  | call client phase => exact entry_set_of_same .call phase rfl rfl
  | sleep client phase busy => exact entry_set_of_same .silent phase rfl rfl
  | stir client phase => exact entry_set_of_same .silent phase rfl rfl
  | pass client phase calm => exact entry_set_of_same .silent phase rfl rfl
  | settle client phase settles =>
      obtain ⟨rfl, rfl⟩ := Prod.mk.inj (pool.sink.settle_eq.symm.trans settles)
      exact entry_set_of_same .settle phase rfl rfl
  | disturb => exact .silent

end FlushPool
end SourceSearch
