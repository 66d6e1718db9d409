import SourceSearch.Proofs.Postings.FlushBooks

/-!
# The first failure of a pool

Nothing is in flight only after all shards have been finished.  A wait that sees this knows of all
failures, as each has been told before its shard was finished: what the wait returns is the first
failure that has been told since the wait before it returned.  A client that waits can return as
long as the workers are there, for as long as something is in flight some thread can go on with a
shard, and whoever finishes the last one wakes those who sleep.
-/

namespace SourceSearch
namespace FlushPool

variable {clients workers : Nat} {workerOf : Trigram → Fin workers}
  {pool later : FlushPool clients workers} {events told : List FlushEvent}

/-! ## What holds at any time -/

section Phases

variable {thread : Fin clients ⊕ Fin workers} {phase : FlushPhase}

/-- What holds of all threads still does if one of them goes on to a phase of which it holds. -/
theorem forall_set (P : Fin clients ⊕ Fin workers → FlushPhase → Prop)
    (rest : ∀ other, P other (pool.phases other)) (new : P thread phase) :
    ∀ other, P other ((pool.set thread phase).phases other) :=
  (Function.forall_update_iff pool.phases P).mpr ⟨new, fun other _ => rest other⟩

/-- A thread is where it may be. -/
structure Fits (inFlight : Nat) (thread : Fin clients ⊕ Fin workers) (phase : FlushPhase) :
    Prop where
  /-- Who sleeps does so because something is in flight. -/
  awake : phase = .sleep → inFlight ≠ 0
  /-- Workers do nothing that only clients do. -/
  own : thread.isRight = true → phase.isClients = false

theorem fits_of_plain {inFlight : Nat} (plain : phase.isClients = false) :
    Fits inFlight thread phase := by
  refine ⟨?_, fun _ => plain⟩
  rintro rfl
  cases plain

end Phases

/-- What holds of a pool at any time. -/
structure Sound (pool : FlushPool clients workers) : Prop where
  /-- What is not finished is in flight. -/
  counted : pool.inFlight = pool.unfinished.card
  /-- Every thread is where it may be. -/
  fits : ∀ thread, Fits pool.inFlight thread (pool.phases thread)

theorem Step.fits (step : pool.Step workerOf told later)
    (fits : ∀ thread, Fits pool.inFlight thread (pool.phases thread)) :
    ∀ thread, Fits later.inFlight thread (later.phases thread) := by
  cases step with
  | submit client ready phase =>
      have more : ∀ thread, Fits (pool.inFlight + 1) thread (pool.phases thread) :=
        fun thread => ⟨fun _ => Nat.succ_ne_zero _, (fits thread).own⟩
      exact forall_set (Fits (pool.inFlight + 1)) more ⟨nofun, nofun⟩
  | vanish worker phase => exact forall_set (Fits pool.inFlight) fits (fits_of_plain rfl)
  | @writeShard thread ready outcome changed phase wrote =>
      cases outcome <;> exact forall_set (Fits pool.inFlight) fits (fits_of_plain rfl)
  | @writeCount thread ready outcome changed phase wrote =>
      cases outcome <;> exact forall_set (Fits pool.inFlight) fits (fits_of_plain rfl)
  | finish thread phase =>
      have less : ∀ thread, Fits (pool.inFlight - 1) thread (pool.discount.phases thread) := by
        intro thread
        rw [phases_discount]
        split
        · exact ⟨fun sleeps => absurd sleeps (FlushPhase.wake_ne_sleep _), fun right => by
            rw [FlushPhase.isClients_wake, (fits thread).own right]⟩
        · exact ⟨fun _ => ‹_›, (fits thread).own⟩
      exact forall_set (Fits (pool.inFlight - 1)) less (fits_of_plain rfl)
  | call client phase => exact forall_set (Fits pool.inFlight) fits ⟨nofun, nofun⟩
  | sleep client phase busy => exact forall_set (Fits pool.inFlight) fits ⟨fun _ => busy, nofun⟩
  | stir client phase => exact forall_set (Fits pool.inFlight) fits ⟨nofun, nofun⟩
  | pass client phase calm => exact forall_set (Fits pool.inFlight) fits ⟨nofun, nofun⟩
  | disturb => exact fits
  | _ => exact forall_set (Fits pool.inFlight) fits (fits_of_plain rfl)

theorem Sound.not_waits (sound : pool.Sound) (worker : Fin workers) :
    (pool.phases (.inr worker)).waits = false :=
  FlushPhase.not_waits_of_plain ((sound.fits (.inr worker)).own rfl)

theorem Sound.step (sound : pool.Sound) (step : pool.Step workerOf told later) : later.Sound where
  counted := step.books.inFlight_eq sound.counted
  fits := step.fits sound.fits

theorem total_eq_zero {M : Type} {weight : FlushPhase → Multiset M} :
    pool.total weight = 0 ↔ ∀ thread, weight (pool.phases thread) = 0 := by
  rw [total, Finset.sum_eq_zero_iff]
  simp

/-- As long as shards are not finished, something is in flight; so a wait that sees nothing in
flight knows of all failures. -/
theorem Sound.unfinished_eq_zero (sound : pool.Sound) (calm : pool.inFlight = 0) :
    pool.unfinished = 0 :=
  Multiset.card_eq_zero.mp (sound.counted.symm.trans calm)

theorem reported_eq_zero (done : pool.unfinished = 0) : pool.books.reported = 0 :=
  total_eq_zero.mpr fun thread =>
    FlushPhase.reported_eq_zero (total_eq_zero.mp (add_eq_zero.mp done).1 thread)

/-- Whoever is about to take the failure still sees nothing in flight. -/
def Settled (pool : FlushPool clients workers) : Prop :=
  ∀ thread, pool.phases thread = .settle → pool.inFlight = 0

/-- This stays so if nobody submits while a client waits. -/
theorem Settled.step (settled : pool.Settled) (sound : pool.Sound)
    (step : pool.Step workerOf told later) (admitted : pool.Admits told) : later.Settled := by
  have ne_settle {phase : FlushPhase} (busy : phase.waits = false) : phase ≠ .settle := by
    rintro rfl
    cases busy
  have settles {pool : FlushPool clients workers} {inFlight : Nat}
      {thread : Fin clients ⊕ Fin workers} {phase : FlushPhase}
      (rest : ∀ other, pool.phases other = .settle → inFlight = 0)
      (new : phase = .settle → inFlight = 0) :
      ∀ other, (pool.set thread phase).phases other = .settle → inFlight = 0 :=
    forall_set (fun _ phase => phase = .settle → inFlight = 0) rest new
  cases step with
  | submit client ready phase =>
      have nobody : ∀ other, pool.phases other ≠ .settle
        | .inl client => ne_settle (admitted (Multiset.singleton_ne_zero _) client)
        | .inr worker => ne_settle (sound.not_waits worker)
      exact settles (fun other waits => absurd waits (nobody other)) nofun
  | finish thread phase =>
      refine settles (fun other waits => ?_) nofun
      rw [phases_discount] at waits
      split at waits
      · assumption
      · exact congrArg (· - 1) (settled other waits)
  | @writeShard thread ready outcome changed phase wrote =>
      cases outcome <;> exact settles settled nofun
  | @writeCount thread ready outcome changed phase wrote =>
      cases outcome <;> exact settles settled nofun
  | pass client phase calm => exact settles settled fun _ => calm
  | disturb => exact settled
  | _ => exact settles settled nofun

/-! ## Runs -/

section Start

variable (base : Path) (tree : FileTree)

theorem unfinished_start : (start base tree : FlushPool clients workers).unfinished = 0 :=
  add_eq_zero.mpr ⟨total_eq_zero.mpr fun _ => rfl, Finset.sum_eq_zero fun _ _ => rfl⟩

theorem agrees_start : (start base tree : FlushPool clients workers).books.Agrees [] where
  submitted := by
    rw [books, unfinished_start]
    rfl
  failure := rfl

theorem sound_start : (start base tree : FlushPool clients workers).Sound where
  counted := by
    rw [unfinished_start]
    rfl
  fits := fun _ => fits_of_plain rfl

theorem tallies_start : (start base tree : FlushPool clients workers).books.Tallies [] := by
  rw [FlushBooks.Tallies, reported_eq_zero (unfinished_start base tree)]
  rfl

end Start

variable {base : Path} {tree : FileTree}

theorem Run.agrees (run : (start base tree).Run workerOf events pool) :
    pool.books.Agrees events := by
  induction run with
  | refl => exact agrees_start base tree
  | tail run step agrees => exact agrees.step step.books

theorem Run.sound (run : (start base tree).Run workerOf events pool) : pool.Sound := by
  induction run with
  | refl => exact sound_start base tree
  | tail run step sound => exact sound.step step

theorem OrderlyRun.run (run : pool.OrderlyRun workerOf events later) :
    pool.Run workerOf events later := by
  induction run with
  | refl => exact .refl
  | tail run step admitted earlier => exact earlier.tail step

theorem OrderlyRun.settled (run : (start base tree).OrderlyRun workerOf events pool) :
    pool.Settled := by
  induction run with
  | refl => exact nofun
  | tail run step admitted settled => exact settled.step run.run.sound step admitted

/-- A wait returns only when all shards are finished. -/
theorem Step.unfinished_of_returned {outcome : Except Failure Unit} (sound : pool.Sound)
    (settled : pool.Settled) (step : pool.Step workerOf [.returned outcome] later) :
    pool.unfinished = 0 := by
  cases step with
  | settle client phase settles => exact sound.unfinished_eq_zero (settled _ phase)

theorem OrderlyRun.tallies (run : (start base tree).OrderlyRun workerOf events pool) :
    pool.books.Tallies events := by
  induction run with
  | refl => exact tallies_start base tree
  | tail run step admitted tallies =>
      refine tallies.step step.books fun outcome told => ?_
      subst told
      exact reported_eq_zero (step.unfinished_of_returned run.run.sound run.settled)

/-! ## Waits come to an end -/

/-- A bound of the steps until all shards are finished. -/
def toil (pool : FlushPool clients workers) : Nat :=
  pool.total FlushPhase.toil + ∑ worker, 5 * (pool.queues worker).length

/-- Nobody has come to an end, and the same clients wait. -/
def Keeps (pool later : FlushPool clients workers) : Prop :=
  ∀ thread, (later.phases thread).waits = (pool.phases thread).waits ∧
    (later.phases thread = .gone → pool.phases thread = .gone)

theorem Keeps.refl (pool : FlushPool clients workers) : pool.Keeps pool :=
  fun _ => ⟨rfl, id⟩

theorem Keeps.trans {between : FlushPool clients workers} (first : pool.Keeps between)
    (second : between.Keeps later) : pool.Keeps later :=
  fun thread => ⟨(second thread).1.trans (first thread).1, (first thread).2 ∘ (second thread).2⟩

/-- The pool goes on by itself. -/
structure Proceeds (workerOf : Trigram → Fin workers) (pool : FlushPool clients workers)
    (told : List FlushEvent) (later : FlushPool clients workers) : Prop where
  /-- It makes a step. -/
  step : pool.Step workerOf told later
  /-- Nobody submits. -/
  alone : submittedShards told = 0
  /-- Less is left to be done. -/
  less : later.toil < pool.toil
  /-- Nobody disappears, and waits go on. -/
  keeps : pool.Keeps later

section Toil

variable {thread : Fin clients ⊕ Fin workers} {phase after : FlushPhase}

theorem toil_set (before : pool.phases thread = phase) (after : FlushPhase) :
    (pool.set thread after).toil + phase.toil = pool.toil + after.toil := by
  have moved := total_set before after FlushPhase.toil
  rw [toil, toil, add_right_comm, moved, add_right_comm]
  rfl

theorem toil_requeue (pool : FlushPool clients workers) (worker : Fin workers)
    (queue : List ReadyShard) :
    (pool.requeue worker queue).toil + 5 * (pool.queues worker).length =
      pool.toil + 5 * queue.length := by
  have moved := sum_update pool.queues worker queue fun queue => 5 * queue.length
  rw [toil, toil, add_assoc, add_assoc, ← moved]
  rfl

theorem toil_discount : pool.discount.toil = pool.toil := by
  rw [toil, toil, total_discount fun phase => by cases phase <;> rfl]
  rfl

theorem keeps_set (before : pool.phases thread = phase) (waits : after.waits = phase.waits)
    (present : after ≠ .gone) : pool.Keeps (pool.set thread after) :=
  forall_set (fun other after => after.waits = (pool.phases other).waits ∧
    (after = .gone → pool.phases other = .gone)) (Keeps.refl pool)
    ⟨by rw [waits, before], fun gone => absurd gone present⟩

theorem keeps_discount : pool.Keeps pool.discount := by
  intro thread
  rw [phases_discount]
  split
  · exact ⟨FlushPhase.waits_wake _, fun gone => FlushPhase.eq_of_wake_eq gone nofun⟩
  · exact ⟨rfl, id⟩

theorem Proceeds.of_set {between : FlushPool clients workers}
    (step : pool.Step workerOf told (between.set thread after)) (alone : submittedShards told = 0)
    (keeps : pool.Keeps between) (before : between.phases thread = phase)
    (less : between.toil + after.toil < pool.toil + phase.toil)
    (waits : after.waits = phase.waits) (present : after ≠ .gone) :
    pool.Proceeds workerOf told (between.set thread after) where
  step := step
  alone := alone
  less := by
    have moved := toil_set before after
    omega
  keeps := keeps.trans (keeps_set before waits present)

end Toil

/-- Whoever holds a shard can go on with it. -/
theorem exists_proceeds_of_held {thread : Fin clients ⊕ Fin workers} (sound : pool.Sound)
    (present : ∀ worker, pool.phases (.inr worker) ≠ .gone)
    (held : (pool.phases thread).held ≠ 0) : ∃ told later, pool.Proceeds workerOf told later := by
  have same (tree : FileTree) : pool.Keeps { pool with tree } := Keeps.refl pool
  cases phase : pool.phases thread with
  | send ready =>
      cases thread with
      | inl client =>
          have queued := pool.toil_requeue (workerOf ready.trigram)
            (pool.queues (workerOf ready.trigram) ++ [ready])
          rw [List.length_append, List.length_singleton] at queued
          refine ⟨_, _, .of_set (.enqueue _ phase (present _)) rfl (Keeps.refl pool) phase ?_ rfl
            nofun⟩
          change _ + 0 < _ + 6
          omega
      | inr worker =>
          have plain := (sound.fits (.inr worker)).own rfl
          rw [phase] at plain
          cases plain
  | writeShard ready =>
      rcases wrote : (ready.writeShard pool.sink.base).runOn pool.tree with ⟨failure | ⟨⟩, changed⟩
      · exact ⟨_, _, .of_set (.writeShard _ phase wrote) rfl (same _) phase
          (Nat.add_lt_add_left (by decide : 2 < 4) _) rfl nofun⟩
      · exact ⟨_, _, .of_set (.writeShard _ phase wrote) rfl (same _) phase
          (Nat.add_lt_add_left (by decide : 3 < 4) _) rfl nofun⟩
  | writeCount ready =>
      rcases wrote : (ready.writeCount pool.sink.base).runOn pool.tree with ⟨failure | ⟨⟩, changed⟩
      · exact ⟨_, _, .of_set (.writeCount _ phase wrote) rfl (same _) phase
          (Nat.add_lt_add_left (by decide : 2 < 3) _) rfl nofun⟩
      · exact ⟨_, _, .of_set (.writeCount _ phase wrote) rfl (same _) phase
          (Nat.add_lt_add_left (by decide : 1 < 3) _) rfl nofun⟩
  | tell ready failure =>
      exact ⟨_, _, .of_set (.tell _ phase) rfl (Keeps.refl pool) phase (Nat.lt_succ_self _) rfl
        nofun⟩
  | finish ready outcome =>
      have going := phases_discount_of_held phase (Multiset.singleton_ne_zero ready)
      refine ⟨_, _, .of_set (.finish _ phase) rfl keeps_discount going ?_ rfl nofun⟩
      rw [toil_discount]
      exact Nat.lt_succ_self _
  | _ => exact absurd (by rw [phase]; rfl) held

/-- As long as a shard is not finished, the pool goes on by itself. -/
theorem exists_proceeds (sound : pool.Sound) (present : ∀ worker, pool.phases (.inr worker) ≠ .gone)
    (busy : pool.unfinished ≠ 0) : ∃ told later, pool.Proceeds workerOf told later := by
  by_cases free : ∀ thread, (pool.phases thread).held = 0
  · have waiting : pool.queued ≠ 0 := by
      intro none
      exact busy (add_eq_zero.mpr ⟨total_eq_zero.mpr free, none⟩)
    obtain ⟨worker, -, some⟩ := Finset.exists_ne_zero_of_sum_ne_zero waiting
    have filled : pool.queues worker ≠ [] := fun none => some (by rw [none]; rfl)
    obtain ⟨ready, rest, queue⟩ := List.exists_cons_of_ne_nil filled
    have idle : pool.phases (.inr worker) = .idle :=
      FlushPhase.eq_idle (free _) ((sound.fits _).own rfl) (present worker)
    have queued := pool.toil_requeue worker rest
    rw [queue, List.length_cons] at queued
    refine ⟨_, _, .of_set (.receive worker idle queue) rfl (Keeps.refl pool) idle ?_ rfl nofun⟩
    change _ + 4 < _ + 0
    omega
  · obtain ⟨thread, held⟩ := not_forall.mp free
    exact exists_proceeds_of_held sound present held

/-- A pool whose workers are all there can finish all shards. -/
theorem OrderlyRun.exists_done {origin : FlushPool clients workers}
    (run : origin.OrderlyRun workerOf events pool) (alone : submittedShards events = 0)
    (keeps : origin.Keeps pool) (sound : pool.Sound)
    (present : ∀ worker, origin.phases (.inr worker) ≠ .gone) :
    ∃ told later, origin.OrderlyRun workerOf told later ∧ submittedShards told = 0 ∧
      origin.Keeps later ∧ later.Sound ∧ later.unfinished = 0 := by
  induction toil : pool.toil using Nat.strong_induction_on generalizing pool events with
  | _ toil further =>
      by_cases done : pool.unfinished = 0
      · exact ⟨events, pool, run, alone, keeps, sound, done⟩
      · obtain ⟨told, later, proceeds⟩ : ∃ told later, pool.Proceeds workerOf told later :=
          exists_proceeds sound (fun worker gone => present worker ((keeps _).2 gone)) done
        refine further later.toil (toil ▸ proceeds.less)
          (run.tail proceeds.step fun some => absurd proceeds.alone some) ?_
          (keeps.trans proceeds.keeps) (sound.step proceeds.step) rfl
        rw [submittedShards_append, alone, proceeds.alone, add_zero]

/-- A wait comes to its last step. -/
theorem OrderlyRun.exists_settle {origin : FlushPool clients workers} {client : Fin clients}
    (run : origin.OrderlyRun workerOf events pool) (alone : submittedShards events = 0)
    (phase : pool.phases (.inl client) = .settle) :
    ∃ told outcome later, origin.OrderlyRun workerOf (told ++ [.returned outcome]) later ∧
      submittedShards told = 0 ∧ later.phases (.inl client) = .idle :=
  ⟨events, _, _, run.tail (.settle client phase pool.sink.settle_eq) fun some => absurd rfl some,
    alone, phases_set_self ..⟩

/-- A client that waits returns at last if all workers are there. -/
theorem Sound.exists_return (sound : pool.Sound)
    (present : ∀ worker, pool.phases (.inr worker) ≠ .gone) {client : Fin clients}
    (waits : (pool.phases (.inl client)).waits = true) :
    ∃ told outcome later, pool.OrderlyRun workerOf (told ++ [.returned outcome]) later ∧
      submittedShards told = 0 ∧ later.phases (.inl client) = .idle := by
  have here : pool.OrderlyRun workerOf [] pool := .refl
  obtain ⟨told, between, run, alone, keeps, calm, done⟩ :=
    here.exists_done rfl (Keeps.refl pool) sound present
  have nothing : between.inFlight = 0 := by
    rw [calm.counted, done, Multiset.card_zero]
  have waiting := (keeps (.inl client)).1.trans waits
  cases phase : between.phases (.inl client) with
  | look =>
      have passed := run.tail (.pass client phase nothing) fun some => absurd rfl some
      exact passed.exists_settle (by simpa using alone) (phases_set_self ..)
  -- The last shard that was finished has woken the client.
  | sleep => exact absurd nothing ((calm.fits _).awake phase)
  | settle => exact run.exists_settle alone phase
  | _ =>
      rw [phase] at waiting
      cases waiting

/-! ## What is reported -/

/-- What a pool says of the shards in flight and of failures. -/
structure Reports (workerOf : Trigram → Fin workers) (events : List FlushEvent)
    (pool : FlushPool clients workers) : Prop where
  /-- Only what has been submitted is finished. -/
  finished_le : finishedShards events ≤ submittedShards events
  /-- What has been submitted and not finished is in flight. -/
  inFlight : pool.inFlight = (submittedShards events - finishedShards events).card
  /-- There is one less with every shard that is finished. -/
  finishes : ∀ {ready : ReadyShard} {outcome : Except Failure Unit}
    {later : FlushPool clients workers},
    pool.Step workerOf [.finished ready outcome] later → later.inFlight + 1 = pool.inFlight
  /-- A wait returns the first failure that has been told since the wait before it returned. -/
  first : ∀ {outcome : Except Failure Unit} {later : FlushPool clients workers},
    pool.Step workerOf [.returned outcome] later →
      outcome = firstFailure (failuresTold (sinceReturn events)).head?
  /-- A thread that is left alone with a shard does to files and failures what a sink does that
  accepts the shard. -/
  accepts : ∀ {thread : Fin clients ⊕ Fin workers} {ready : ReadyShard},
    pool.phases thread = .writeShard ready →
      ∃ told outcome later, pool.Run workerOf told later ∧
        later.phases thread = .finish ready outcome ∧
        pool.sink.accept ready pool.tree = (later.sink, later.tree)

/-- What it says of failures if nobody submits while a client waits. -/
structure ReportsOnce (workerOf : Trigram → Fin workers) (events : List FlushEvent)
    (pool : FlushPool clients workers) : Prop where
  /-- A wait returns only when all shards are finished. -/
  complete : ∀ {outcome : Except Failure Unit} {later : FlushPool clients workers},
    pool.Step workerOf [.returned outcome] later → finishedShards events = submittedShards events
  /-- The failures that have been told are those of the shards that have been finished since the
  wait before it returned. -/
  told : ∀ {outcome : Except Failure Unit} {later : FlushPool clients workers},
    pool.Step workerOf [.returned outcome] later →
      (failuresTold (sinceReturn events) : Multiset Failure) =
        finishedFailures (sinceReturn events)
  /-- It returns a failure just if there is such a shard. -/
  error_iff : ∀ {outcome : Except Failure Unit} {later : FlushPool clients workers},
    pool.Step workerOf [.returned outcome] later →
      (outcome ≠ .ok () ↔
        ∃ ready failure, .finished ready (.error failure) ∈ sinceReturn events)
  /-- It does return if all workers are there. -/
  returns : ∀ {client : Fin clients}, (pool.phases (.inl client)).waits = true →
    (∀ worker, pool.phases (.inr worker) ≠ .gone) →
      ∃ told outcome later, pool.OrderlyRun workerOf (told ++ [.returned outcome]) later ∧
        submittedShards told = 0 ∧ later.phases (.inl client) = .idle

theorem mem_finishedFailures {failure : Failure} :
    failure ∈ finishedFailures events ↔ ∃ ready, .finished ready (.error failure) ∈ events := by
  rw [finishedFailures, Multiset.mem_coe, List.mem_filterMap]
  constructor
  · rintro ⟨event, member, fails⟩
    rcases event with _ | _ | ⟨ready, _ | _⟩ | _ | _ <;> cases fails
    exact ⟨ready, member⟩
  · rintro ⟨ready, member⟩
    exact ⟨_, member, rfl⟩

theorem firstFailure_head?_ne_ok {failures : List Failure} :
    firstFailure failures.head? ≠ .ok () ↔ failures ≠ [] := by
  cases failures with
  | nil => exact ⟨fun fails => absurd rfl fails, fun some => absurd rfl some⟩
  | cons failure rest => exact ⟨fun _ => nofun, fun _ => nofun⟩

theorem Run.reports (run : (start base tree).Run workerOf events pool) :
    pool.Reports workerOf events where
  finished_le := by
    rw [run.agrees.submitted]
    exact Multiset.le_add_right _ _
  inFlight := by
    rw [run.agrees.submitted, add_tsub_cancel_left]
    exact run.sound.counted
  finishes := fun step => step.books.inFlight_of_finished run.sound.counted
  first := fun step => run.agrees.eq_of_returned step.books
  accepts := exists_run_accept

theorem OrderlyRun.reportsOnce (run : (start base tree).OrderlyRun workerOf events pool) :
    pool.ReportsOnce workerOf events := by
  have done {outcome : Except Failure Unit} {later : FlushPool clients workers}
      (step : pool.Step workerOf [.returned outcome] later) : pool.unfinished = 0 :=
    step.unfinished_of_returned run.run.sound run.settled
  have told {outcome : Except Failure Unit} {later : FlushPool clients workers}
      (step : pool.Step workerOf [.returned outcome] later) :
      (failuresTold (sinceReturn events) : Multiset Failure) =
        finishedFailures (sinceReturn events) := by
    rw [run.tallies, reported_eq_zero (done step), add_zero]
  refine ⟨fun step => ?_, told, fun step => ?_, fun waits present =>
    run.run.sound.exists_return present waits⟩
  · have submitted := run.run.agrees.submitted
    rw [books, done step, add_zero] at submitted
    exact submitted.symm
  · rw [run.run.agrees.eq_of_returned step.books, firstFailure_head?_ne_ok, Ne,
      ← Multiset.coe_eq_zero, told step, Multiset.eq_zero_iff_forall_notMem, not_forall_not]
    simp only [mem_finishedFailures]
    exact exists_comm

/-- Failures are reported once, and a pool knows what is in flight. -/
theorem reports_failures_once (run : (start base tree).Run workerOf events pool) :
    pool.Reports workerOf events ∧
      ((start base tree).OrderlyRun workerOf events pool → pool.ReportsOnce workerOf events) :=
  ⟨run.reports, OrderlyRun.reportsOnce⟩

/-- A folder that cannot be made, as a file is there. -/
def blockedFolder : Path := ⟨"/blocked"⟩

/-- A tree with a file at the place of the folder. -/
def blockingTree : FileTree := FileTree.empty.put ["blocked"] (.file ByteArray.empty)

/-- A shard. -/
def sampleShard : ReadyShard := ⟨"abc", 0, .ofList ["1"], 1⟩

/-- A shard cannot be written.  The wait returns the failure, and the next wait succeeds. -/
theorem reports_failures_once_sample : ∃ failure events pool later again between last,
    (start blockedFolder blockingTree : FlushPool 1 1).OrderlyRun (fun _ => 0) events pool ∧
      pool.Reports (fun _ => 0) events ∧ pool.ReportsOnce (fun _ => 0) events ∧
      pool.Step (fun _ => 0) [.returned (.error failure)] later ∧
      later.OrderlyRun (fun _ => 0) again between ∧
      between.Step (fun _ => 0) [.returned (.ok ())] last := by
  obtain ⟨failure, changed, wrote⟩ : ∃ failure changed,
      (sampleShard.writeShard blockedFolder).runOn blockingTree = (.error failure, changed) := by
    rcases wrote : (sampleShard.writeShard blockedFolder).runOn blockingTree
      with ⟨failure | ⟨⟩, changed⟩
    · exact ⟨failure, changed, rfl⟩
    · have fails : ((sampleShard.writeShard blockedFolder).runOn blockingTree).1.toOption = none :=
        by decide +kernel
      rw [wrote] at fails
      cases fails
  have silent {pool : FlushPool 1 1} {told : List FlushEvent} (none : submittedShards told = 0) :
      pool.Admits told := fun some => absurd none some
  have started : (start blockedFolder blockingTree : FlushPool 1 1).OrderlyRun (fun _ => 0) [] _ :=
    .refl
  have submitted := started.tail (.submit 0 sampleShard rfl) fun _ _ => rfl
  have queued := submitted.tail (.enqueue 0 rfl nofun) (silent rfl)
  have received := queued.tail (.receive 0 rfl rfl) (silent rfl)
  have failed := received.tail (.writeShard (.inr 0) rfl wrote) (silent rfl)
  have told := failed.tail (.tell (.inr 0) rfl) (silent rfl)
  have finished := told.tail (.finish (.inr 0) rfl) (silent rfl)
  have called := finished.tail (.call 0 rfl) (silent rfl)
  have passed := called.tail (.pass 0 rfl rfl) (silent rfl)
  obtain ⟨reports, once⟩ := reports_failures_once passed.run
  exact ⟨failure, _, _, _, _, _, _, passed, reports, once passed, .settle 0 rfl rfl,
    .tail (.tail .refl (.call 0 rfl) (silent rfl)) (.pass 0 rfl rfl) (silent rfl),
    .settle 0 rfl rfl⟩

end FlushPool
end SourceSearch
