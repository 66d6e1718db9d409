import SourceSearch.Proofs.Postings.Delivery

/-!
# Runs of a shared writer

Whatever the interleaving is, the shards of a trigram are submitted in the order of their
generations, and its files are those of the first of them.  The number of shards in flight is the
number of those that are submitted and not written, so a save that finds it zero finds every shard
on disk.
-/

namespace SourceSearch

/-! ## Shards in flight -/

/-- The number of shards that are counted as in flight and are not in a queue. -/
def ThreadPhase.announced : ThreadPhase → Nat
  | .use _ _ (.send _) => 1
  | _ => 0

namespace Collection

variable {threads : Nat} {collection later : Collection threads}

/-- The number of shards that are counted as in flight and are not in a queue. -/
def announced (collection : Collection threads) : Nat :=
  ∑ thread, (collection.threads thread).phase.announced

theorem announced_set (collection : Collection threads) (thread : Fin threads) (changed : Thread) :
    (collection.set thread changed).announced + (collection.threads thread).phase.announced =
      collection.announced + changed.phase.announced :=
  sum_update collection.threads thread changed fun thread => thread.phase.announced

/-- Steps that concern accumulators only leave what is counted as in flight as it is. -/
theorem Step.announced_eq {threshold : Nat} {told : List (WriterEvent threads)}
    (step : collection.Step threshold told later) : later.announced = collection.announced := by
  have quiet {between : Collection threads} {thread : Fin threads} {state changed : Thread}
      (same : between.threads = collection.threads) (phase : collection.threads thread = state)
      (before : state.phase.announced = 0) (after : changed.phase.announced = 0) :
      (between.set thread changed).announced = collection.announced := by
    have total : between.announced = collection.announced := by rw [announced, same, announced]
    have moved := between.announced_set thread changed
    rw [same, phase, before, after] at moved
    omega
  cases step with
  | find next => exact quiet rfl next rfl rfl
  | miss next => exact quiet rfl next rfl rfl
  | share phase => exact quiet rfl phase rfl rfl
  | make phase => exact quiet rfl phase rfl rfl
  | list next => exact quiet rfl next rfl rfl
  | turn next => exact quiet rfl next rfl rfl
  | lock phase => exact quiet rfl phase rfl rfl
  | @change _ _ _ _ _ ready? _ phase =>
      refine quiet rfl phase rfl ?_
      cases ready? <;> rfl
  | unlock phase => exact quiet rfl phase rfl rfl

/-- They submit nothing. -/
theorem Step.shardsOf_eq {threshold : Nat} {events told : List (WriterEvent threads)}
    (step : collection.Step threshold told later) (trigram : Trigram) :
    WriterEvent.shardsOf (events ++ told) trigram = WriterEvent.shardsOf events trigram := by
  cases step with
  | change => exact WriterEvent.shardsOf_append_change ..
  | _ => rw [List.append_nil]

end Collection

namespace Pool

variable {workers : Nat} {pool later : Pool workers}

/-- The number of shards that have been queued and are not counted as written. -/
def load (pool : Pool workers) : Nat :=
  ∑ worker, (pool.queues worker).length + ∑ worker, (pool.workers worker).load

theorem load_set (pool : Pool workers) (worker : Fin workers) (phase : WorkerPhase) :
    (pool.set worker phase).load + (pool.workers worker).load = pool.load + phase.load := by
  have workers := sum_update pool.workers worker phase WorkerPhase.load
  rw [load, load]
  change ∑ worker, (pool.queues worker).length +
    ∑ other, (Function.update pool.workers worker phase other).load + _ = _
  omega

theorem load_requeue (pool : Pool workers) (worker : Fin workers) (queue : List ReadyShard) :
    (pool.requeue worker queue).load + (pool.queues worker).length = pool.load + queue.length := by
  have queues := sum_update pool.queues worker queue List.length
  rw [load, load]
  change ∑ other, (Function.update pool.queues worker queue other).length +
    ∑ worker, (pool.workers worker).load + _ = _
  omega

/-- A worker counts a shard as written once it is. -/
theorem Step.inFlight_eq {base : Path} (step : pool.Step base later) {announced : Nat}
    (loaded : pool.inFlight = announced + pool.load) :
    later.inFlight = announced + later.load := by
  cases step with
  | @receive worker ready rest phase queue =>
      have taken := pool.load_requeue worker rest
      have moved := (pool.requeue worker rest).load_set worker (.writeShard ready)
      rw [queue, List.length_cons] at taken
      rw [workers_requeue, phase] at moved
      change pool.inFlight = _
      simp only [WorkerPhase.load] at moved
      omega
  | @writeShard worker ready changed phase =>
      have moved := { pool with tree := changed }.load_set worker (.writeCount ready)
      simp only [phase, WorkerPhase.load, Nat.add_right_cancel_iff] at moved
      rw [moved]
      exact loaded
  | @writeCount worker ready changed phase =>
      have moved := { pool with tree := changed }.load_set worker .finish
      simp only [phase, WorkerPhase.load, Nat.add_right_cancel_iff] at moved
      rw [moved]
      exact loaded
  | @finish worker phase =>
      have moved := { pool with inFlight := pool.inFlight - 1 }.load_set worker .idle
      simp only [phase, WorkerPhase.load, Nat.add_zero] at moved
      change pool.inFlight - 1 = _
      have same : { pool with inFlight := pool.inFlight - 1 }.load = pool.load := rfl
      omega

/-- Nothing becomes in flight by the work of a worker. -/
theorem Step.inFlight_le {base : Path} (step : pool.Step base later) :
    later.inFlight ≤ pool.inFlight := by
  cases step with
  | finish => exact Nat.sub_le _ _
  | _ => exact Nat.le_refl _

/-- Without a load nothing waits. -/
theorem eq_nil_of_load (empty : pool.load = 0) (worker : Fin workers) :
    pool.queues worker = [] ∧ pool.workers worker = .idle := by
  rw [load, Nat.add_eq_zero_iff, Finset.sum_eq_zero_iff, Finset.sum_eq_zero_iff] at empty
  have queue := empty.1 worker (Finset.mem_univ worker)
  have phase := empty.2 worker (Finset.mem_univ worker)
  refine ⟨List.length_eq_zero_iff.mp queue, ?_⟩
  cases working : pool.workers worker with
  | idle => rfl
  | _ =>
      rw [working] at phase
      cases phase

end Pool

/-! ## Accounts and files in step -/

open WriterEvent

/-- Shards come into the queues in the order of their generations. -/
theorem Collection.Accounts.ordered {threads threshold : Nat} {collection : Collection threads}
    {adds : Fin threads → List (Trigram × DocumentKey)} {events : List (WriterEvent threads)}
    (accounts : collection.Accounts threshold adds events)
    (wide : ∀ thread, ∀ addition ∈ adds thread, 3 ≤ addition.1.length) :
    Pool.Ordered (shardsOf events) where
  handed trigram := by
    have handed := accounts.handed trigram
    have front := congrArg (List.take (shardsOf events trigram).length) handed
    rw [List.take_left', Ledger.handed, take_handedFrom] at front
    · exact ⟨_, front⟩
    · rfl
  wide trigram submitted := by
    cases found : collection.handles.find? trigram with
    | none =>
        have handed := accounts.handed trigram
        rw [accounts.unseen trigram found] at handed
        exact absurd (List.append_eq_nil_iff.mp handed).1 submitted
    | some handle =>
        obtain ⟨thread, key, asked⟩ := accounts.asked trigram handle found
        exact wide thread _ asked

namespace SharedWriter

variable {root : Path} {own : List String} {location : Location} {folder : String}
  {threads workers threshold : Nat} {workerOf : Trigram → Fin workers}
  {adds : Fin threads → List (Trigram × DocumentKey)} {events told : List (WriterEvent threads)}
  {writer later : SharedWriter threads workers}

/-- Accumulators, files and the number of shards in flight are in step with what has been told. -/
structure InStep (root : Path) (own : List String) (location : Location) (folder : String)
    (threshold : Nat) (workerOf : Trigram → Fin workers)
    (adds : Fin threads → List (Trigram × DocumentKey)) (events : List (WriterEvent threads))
    (writer : SharedWriter threads workers) : Prop where
  /-- The accumulators are those of ledgers. -/
  accounts : writer.collection.Accounts threshold adds events
  /-- The files are those of the first shards. -/
  delivers : writer.pool.Delivers root own location folder workerOf (shardsOf events)
  /-- Every shard that has been announced and is not written is in flight. -/
  loaded : writer.pool.inFlight = writer.collection.announced + writer.pool.load

/-- The keys that threads add by their calls. -/
def additions (calls : Fin threads → List WriterCall) (thread : Fin threads) :
    List (Trigram × DocumentKey) :=
  Collection.additionsIn (calls thread)

theorem wide_additions {calls : Fin threads → List WriterCall}
    (wide : ∀ thread, ∀ call ∈ calls thread, call.IsWide) (thread : Fin threads) :
    ∀ addition ∈ additions calls thread, 3 ≤ addition.1.length := by
  intro addition member
  obtain ⟨call, made, adds⟩ := List.mem_filterMap.mp member
  cases call with
  | add trigram key =>
      cases adds
      exact wide thread _ made
  | save => cases adds

/-- Before the first step everything is in step. -/
theorem inStep_start {tree : FileTree} (site : Namespace root own location folder tree)
    (named : tree.WellNamed) (fresh : ∀ names, tree.fileAt? (location ++ folder :: names) = none)
    (threshold : Nat) (workerOf : Trigram → Fin workers) (calls : Fin threads → List WriterCall) :
    (start calls tree).InStep root own location folder threshold workerOf (additions calls) [] where
  accounts := {
    sound := {
      known := fun thread trigram handle knows =>
        absurd (Thread.knows_idle.mp knows)
          (Collection.flush_not_mem_tasks (calls thread) trigram handle)
      owned := fun thread handle => ⟨fun owner => (by cases owner), fun held => (by cases held)⟩
      bounded := fun trigram handle found => by cases found
      apart := fun trigram other handle found => by cases found }
    added := fun thread => List.filterMap_map
    asked := fun trigram handle found => by cases found
    pending := fun trigram handle found => by cases found
    unseen := fun trigram _ => rfl
    handed := fun trigram => rfl }
  delivers := {
    site
    named
    routed := fun worker ready member => by cases member
    files := fun trigram => ⟨0, Nat.le_refl _, rfl, fun _ => ⟨fun generation => fresh _, fresh _⟩⟩ }
  loaded := by
    simp [start, Collection.announced, ThreadPhase.announced, Pool.load, WorkerPhase.load]

/-- One step keeps everything in step. -/
theorem InStep.step
    (inStep : writer.InStep root own location folder threshold workerOf adds events)
    (wide : ∀ thread, ∀ addition ∈ adds thread, 3 ≤ addition.1.length)
    (step : writer.Step threshold workerOf (root / folder) told later) :
    later.InStep root own location folder threshold workerOf adds (events ++ told) := by
  obtain ⟨accounts, delivers, loaded⟩ := inStep
  cases step with
  | collect step =>
      refine ⟨accounts.step step, ?_, ?_⟩
      · rw [show shardsOf (events ++ told) = shardsOf events from funext step.shardsOf_eq]
        exact delivers
      · rw [step.announced_eq]
        exact loaded
  | @announce thread trigram handle ready tasks phase =>
      have moved := writer.collection.announced_set thread
        ⟨tasks, .use trigram handle (.send ready)⟩
      simp only [phase, ThreadPhase.announced, Nat.add_zero] at moved
      rw [List.append_nil]
      refine ⟨accounts.announce phase, delivers.quiet rfl (fun _ => rfl) fun _ _ => rfl, ?_⟩
      rw [moved, Nat.add_right_comm]
      exact congrArg (· + 1) loaded
  | @send thread trigram handle ready tasks phase =>
      have moved := writer.collection.announced_set thread ⟨tasks, .use trigram handle .unlock⟩
      have queued := writer.pool.load_requeue (workerOf ready.trigram)
        (writer.pool.queues (workerOf ready.trigram) ++ [ready])
      simp only [phase, ThreadPhase.announced, Nat.add_zero] at moved
      rw [List.length_append, List.length_singleton] at queued
      refine ⟨accounts.send phase,
        delivers.enqueue fun trigram => shardsOf_append_submitted trigram ready, ?_⟩
      change writer.pool.inFlight = (writer.collection.set thread _).announced +
        (writer.pool.requeue _ _).load
      omega
  | @await thread tasks next idle =>
      have moved := writer.collection.announced_set thread ⟨tasks, .idle⟩
      simp only [next, ThreadPhase.announced, Nat.add_zero] at moved
      rw [List.append_nil]
      refine ⟨accounts.set (fun trigram handle knows => ?_) (by rw [next]) (by rw [next])
        (by rw [next]; rfl), delivers, ?_⟩
      · refine accounts.sound.known thread trigram handle ?_
        rw [next]
        exact .inr (List.mem_cons_of_mem _ (Thread.knows_idle.mp knows))
      · rw [moved]
        exact loaded
  | work step =>
      rw [List.append_nil]
      exact ⟨accounts, delivers.step (accounts.ordered wide) step, step.inFlight_eq loaded⟩

/-- A whole run keeps everything in step. -/
theorem InStep.run
    (inStep : writer.InStep root own location folder threshold workerOf adds events)
    (wide : ∀ thread, ∀ addition ∈ adds thread, 3 ≤ addition.1.length)
    (run : writer.Run threshold workerOf (root / folder) told later) :
    later.InStep root own location folder threshold workerOf adds (events ++ told) := by
  induction run with
  | refl =>
      rw [List.append_nil]
      exact inStep
  | tail _ step ih =>
      rw [← List.append_assoc]
      exact ih.step wide step

/-- A step changes nothing but files of the namespace. -/
theorem InStep.staysIn
    (inStep : writer.InStep root own location folder threshold workerOf adds events)
    (wide : ∀ thread, ∀ addition ∈ adds thread, 3 ≤ addition.1.length)
    (step : writer.Step threshold workerOf (root / folder) told later) :
    FileTree.StaysIn location folder 3 writer.pool.tree later.pool.tree := by
  cases step with
  | work step => exact inStep.delivers.staysIn (inStep.accounts.ordered wide) step
  | _ => exact .refl _

/-- Nor does a whole run. -/
theorem InStep.run_staysIn
    (inStep : writer.InStep root own location folder threshold workerOf adds events)
    (wide : ∀ thread, ∀ addition ∈ adds thread, 3 ≤ addition.1.length)
    (run : writer.Run threshold workerOf (root / folder) told later) :
    FileTree.StaysIn location folder 3 writer.pool.tree later.pool.tree := by
  induction run with
  | refl => exact .refl _
  | tail before step ih => exact ih.trans ((inStep.run wide before).staysIn wide step)

/-- Everything stays in step when a thread is given more calls. -/
theorem InStep.assign
    (inStep : writer.InStep root own location folder threshold workerOf adds events)
    (thread : Fin threads) (calls : List WriterCall) :
    (writer.assign thread calls).InStep root own location folder threshold workerOf
      (Function.update adds thread (adds thread ++ Collection.additionsIn calls)) events where
  accounts := inStep.accounts.assign thread calls
  delivers := inStep.delivers
  loaded := by
    have moved := writer.collection.announced_set thread
      { writer.collection.threads thread with
        tasks := (writer.collection.threads thread).tasks ++ calls.map WriterCall.task }
    rw [SharedWriter.assign, Nat.add_right_cancel moved]
    exact inStep.loaded

/-- A thread that is told to save has no further keys to insert. -/
theorem InStep.save
    (inStep : writer.InStep root own location folder threshold workerOf adds events)
    (thread : Fin threads) :
    (writer.call thread .save).InStep root own location folder threshold workerOf adds events := by
  have assigned := inStep.assign thread [.save]
  rw [show Collection.additionsIn [.save] = [] from rfl, List.append_nil,
    Function.update_eq_self] at assigned
  exact assigned

/-- Everything stays in step when other folders change. -/
theorem InStep.disturb
    (inStep : writer.InStep root own location folder threshold workerOf adds events)
    {changed : FileTree} {others : List String}
    (agrees : writer.pool.tree.AgreesOutside location others changed) (subset : others ⊆ own)
    (apart : folder ∉ others) (named : changed.WellNamed) :
    InStep root own location folder threshold workerOf adds events
      { writer with pool := { writer.pool with tree := changed } } where
  accounts := inStep.accounts
  delivers := {
    site := {
      hosts := inStep.delivers.site.hosts.of_agrees (agrees.mono subset)
      member := inStep.delivers.site.member
      plain := inStep.delivers.site.plain
      layered := inStep.delivers.site.layered.of_agrees agrees apart }
    named
    routed := inStep.delivers.routed
    files := fun trigram => by
      obtain ⟨counted, fits, sent, delivered⟩ := inStep.delivers.files trigram
      exact ⟨counted, fits, sent, fun wide => (delivered wide).congr
        (fun _ => agrees.fileAt?_below apart _) (agrees.fileAt?_below apart _)⟩ }
  loaded := inStep.loaded

end SharedWriter

/-! ## Files while shards are written -/

/-- The files of a trigram are those of the first shards, with the count of a number of them. -/
structure StoresPrefix (base : Path) (tree : FileTree) (trigram : Trigram)
    (jobs : List ReadyShard) (shards counted : Nat) : Prop where
  /-- The shard files are numbered from zero without a gap. -/
  shard : ∀ generation,
    (tree.read (Postings.shardFile base trigram generation)).toOption =
      (jobs.take shards)[generation]?.map fun ready => shardBytes trigram generation ready.keys
  /-- The count file is the one of the last shard that it includes. -/
  count : (tree.read (Postings.countFile base trigram)).toOption =
    (jobs.take counted).getLast?.map fun ready => countBytes trigram ready.total

theorem Delivered.storesPrefix {root : Path} {own : List String} {location : Location}
    {folder : String} {tree : FileTree} {trigram : Trigram} {jobs : List ReadyShard}
    {shards counted : Nat} (site : Namespace root own location folder tree)
    (named : tree.WellNamed)
    (delivered : Delivered location folder tree trigram jobs shards counted) :
    StoresPrefix (root / folder) tree trigram jobs shards counted := by
  obtain ⟨entries, found⟩ := site.hosts.find
  refine ⟨fun generation => ?_, ?_⟩
  · have plain : ∀ name ∈ folder :: Postings.shardPlace trigram generation, IsPlain name :=
      List.forall_mem_cons.mpr
        ⟨site.plain, Postings.isPlain_placeOf (Postings.isSuffix_shardEnd generation)⟩
    have reads := FileTree.read_below_eq named found site.layered.linkless plain
    rwa [Path.below_cons, delivered.shard, ← Postings.shardFile_eq] at reads
  · have plain : ∀ name ∈ folder :: Postings.countPlace trigram, IsPlain name :=
      List.forall_mem_cons.mpr ⟨site.plain, Postings.isPlain_placeOf Postings.isSuffix_countSuffix⟩
    have reads := FileTree.read_below_eq named found site.layered.linkless plain
    rwa [Path.below_cons, delivered.count, ← Postings.countFile_eq] at reads

namespace SharedWriter

variable {root : Path} {own : List String} {location : Location} {folder : String}
  {threads workers threshold : Nat} {workerOf : Trigram → Fin workers}
  {adds : Fin threads → List (Trigram × DocumentKey)} {events : List (WriterEvent threads)}
  {writer : SharedWriter threads workers} {trigram : Trigram}

/-- The shards of a trigram are submitted in the order of their generations, and its files are those
of the first of them. -/
structure WritesInOrder (base : Path) (workerOf : Trigram → Fin workers)
    (events : List (WriterEvent threads)) (writer : SharedWriter threads workers)
    (trigram : Trigram) : Prop where
  /-- Generations are numbered from zero, and totals add up. -/
  submitted : shardsOf events trigram =
    handedFrom trigram 0 0 ((shardsOf events trigram).map ReadyShard.keys)
  /-- The count includes all shards that have a file, or it is one behind while the worker of the
  trigram is between the two writes of a shard. -/
  files : ∃ shards ≤ (shardsOf events trigram).length, ∃ counted,
    StoresPrefix base writer.pool.tree trigram (shardsOf events trigram) shards counted ∧
      (counted = shards ∨ counted + 1 = shards ∧ ∃ ready,
        writer.pool.workers (workerOf trigram) = .writeCount ready ∧ ready.trigram = trigram)

theorem InStep.writesInOrder
    (inStep : writer.InStep root own location folder threshold workerOf adds events)
    (wideAdds : ∀ thread, ∀ addition ∈ adds thread, 3 ≤ addition.1.length)
    (wide : 3 ≤ trigram.length) :
    writer.WritesInOrder (root / folder) workerOf events trigram := by
  obtain ⟨accounts, delivers, -⟩ := inStep
  obtain ⟨shards, handed⟩ := (accounts.ordered wideAdds).handed trigram
  refine ⟨by rw [handed, keys_handedFrom], ?_⟩
  obtain ⟨counted, fits, sent, delivered⟩ := delivers.files trigram
  have stored := (delivered wide).storesPrefix delivers.site delivers.named
  rcases Nat.eq_zero_or_pos ((writer.pool.workers (workerOf trigram)).ahead trigram) with
    even | ahead
  · rw [even] at stored
    exact ⟨counted, fits, counted, stored, .inl rfl⟩
  · obtain ⟨one, ready, phase, rfl⟩ := WorkerPhase.eq_writeCount_of_ahead ahead
    have next := (delivers.next (by rw [phase]; rfl) sent).1
    rw [one] at stored
    exact ⟨counted + 1, (List.getElem?_eq_some_iff.mp next).1, counted, stored,
      .inr ⟨rfl, ready, phase, rfl⟩⟩

end SharedWriter

end SourceSearch
