import Mathlib.Algebra.BigOperators.Fin
import SourceSearch.Proofs.Postings.Collection

/-!
# Workers that write postings

The shards of a trigram wait in one queue, so its worker writes them in the order in which they were
submitted.  The files of the trigram are a prefix of them at every moment, and between the two
writes of a shard its count is one shard behind.
-/

namespace SourceSearch

/-! ## What a worker holds -/

namespace WorkerPhase

/-- The shard whose files are not all written. -/
def ready? : WorkerPhase → Option ReadyShard
  | writeShard ready => some ready
  | writeCount ready => some ready
  | _ => none

/-- The number of shards of a trigram that the count does not include yet. -/
def ahead (trigram : Trigram) : WorkerPhase → Nat
  | writeCount ready => if ready.trigram = trigram then 1 else 0
  | _ => 0

/-- The number of shards that the worker has taken and not counted as written. -/
def load : WorkerPhase → Nat
  | idle => 0
  | _ => 1

theorem eq_writeCount_of_ahead {trigram : Trigram} {phase : WorkerPhase}
    (positive : 0 < phase.ahead trigram) :
    phase.ahead trigram = 1 ∧ ∃ ready, phase = writeCount ready ∧ ready.trigram = trigram := by
  cases phase with
  | writeCount ready =>
      rw [ahead] at positive ⊢
      split at positive
      · rename_i same
        exact ⟨if_pos same, ready, rfl, same⟩
      · cases positive
  | _ => cases positive

end WorkerPhase

namespace Pool

variable {workers : Nat}

/-- The shards of a worker that are not all written, in their order. -/
def waiting (pool : Pool workers) (worker : Fin workers) : List ReadyShard :=
  (pool.workers worker).ready?.toList ++ pool.queues worker

/-- The shards of a trigram that are not all written, in their order. -/
def sent (pool : Pool workers) (workerOf : Trigram → Fin workers) (trigram : Trigram) :
    List ReadyShard :=
  (pool.waiting (workerOf trigram)).filter (·.trigram = trigram)

theorem waiting_of_ready? {pool : Pool workers} {worker : Fin workers} {ready : ReadyShard}
    (holds : (pool.workers worker).ready? = some ready) :
    pool.waiting worker = ready :: pool.queues worker := by
  rw [waiting, holds]
  rfl

theorem waiting_set_of_ne (pool : Pool workers) {worker other : Fin workers}
    (different : other ≠ worker) (phase : WorkerPhase) :
    (pool.set worker phase).waiting other = pool.waiting other := by
  rw [waiting, workers_set_of_ne _ _ _ different, queues_set, waiting]

theorem waiting_set_self (pool : Pool workers) (worker : Fin workers) (phase : WorkerPhase) :
    (pool.set worker phase).waiting worker = phase.ready?.toList ++ pool.queues worker := by
  rw [waiting, workers_set_self, queues_set]

end Pool

/-! ## Files of a prefix -/

/-- The files of a trigram are those of a number of shards, with the count of a number of them. -/
structure Delivered (location : Location) (folder : String) (tree : FileTree) (trigram : Trigram)
    (jobs : List ReadyShard) (shards counted : Nat) : Prop where
  /-- The shard files are those of the first shards. -/
  shard : ∀ generation,
    tree.fileAt? (location ++ folder :: Postings.shardPlace trigram generation) =
      (jobs.take shards)[generation]?.map fun ready => shardBytes trigram generation ready.keys
  /-- The count is the one after the last shard that it includes. -/
  count : tree.fileAt? (location ++ folder :: Postings.countPlace trigram) =
    (jobs.take counted).getLast?.map fun ready => countBytes trigram ready.total

section Delivered

variable {root : Path} {own : List String} {location : Location} {folder : String}
  {tree before after : FileTree} {trigram : Trigram} {jobs : List ReadyShard}
  {shards counted : Nat} {ready : ReadyShard}

theorem Delivered.append (delivered : Delivered location folder tree trigram jobs shards counted)
    (fits : shards ≤ jobs.length) (fits' : counted ≤ jobs.length) (more : List ReadyShard) :
    Delivered location folder tree trigram (jobs ++ more) shards counted := by
  refine ⟨fun generation => ?_, ?_⟩
  · rw [List.take_append_of_le_length fits, delivered.shard]
  · rw [List.take_append_of_le_length fits', delivered.count]

theorem Delivered.congr (delivered : Delivered location folder before trigram jobs shards counted)
    (shard : ∀ generation,
      after.fileAt? (location ++ folder :: Postings.shardPlace trigram generation) =
        before.fileAt? (location ++ folder :: Postings.shardPlace trigram generation))
    (count : after.fileAt? (location ++ folder :: Postings.countPlace trigram) =
      before.fileAt? (location ++ folder :: Postings.countPlace trigram)) :
    Delivered location folder after trigram jobs shards counted :=
  ⟨fun generation => (shard generation).trans (delivered.shard generation),
    count.trans delivered.count⟩

/-- When all shards of a ledger are delivered, the files are those of the ledger. -/
theorem Delivered.written {ledger : Ledger}
    (delivered : Delivered location folder tree trigram (ledger.handed trigram)
      (ledger.handed trigram).length (ledger.handed trigram).length) :
    Written location folder tree trigram ledger := by
  obtain ⟨shard, count⟩ := delivered
  rw [List.take_length] at shard count
  refine ⟨fun generation => ?_, ?_⟩
  · rw [shard, Ledger.handed, getElem?_handedFrom, Option.map_map]
    rfl
  · rw [count, Ledger.handed, List.getLast?_eq_getElem?, getElem?_handedFrom, length_handedFrom,
      ← List.getLast?_eq_getElem?]
    cases last : ledger.shards.getLast? with
    | none =>
        rw [if_pos (List.getLast?_eq_none_iff.mp last)]
        rfl
    | some keys =>
        have filled : ledger.shards ≠ [] := by
          rintro none
          rw [none] at last
          cases last
        have positive := List.length_pos_iff.mpr filled
        rw [if_neg filled, Nat.sub_add_cancel positive, List.take_length, Nat.zero_add,
          Nat.zero_add]
        rfl

namespace ReadyShard

/-- Writing the file of a shard changes that file only. -/
theorem writeShard_spec (site : Namespace root own location folder before)
    (wide : 3 ≤ ready.trigram.length)
    (run : (ready.writeShard (root / folder)).runOn before = (.ok (), after)) :
    FileTree.StaysIn location folder 3 before after ∧ ∀ place, after.fileAt? place =
      if place = location ++ folder :: Postings.shardPlace ready.trigram ready.generation then
        some (shardBytes ready.trigram ready.generation ready.keys)
      else before.fileAt? place := by
  rw [writeShard, Postings.shardFile_eq] at run
  have wrote := FileTree.writeFile_layered site.hosts site.member site.layered
    (Postings.placeOf_ne_nil _ _) (Postings.length_placeOf wide _)
    (List.forall_mem_cons.mpr
      ⟨site.plain, Postings.isPlain_placeOf (Postings.isSuffix_shardEnd _)⟩) run
  refine ⟨wrote.stays, fun place => ?_⟩
  rw [wrote.files]
  simp only [Except.isOk, Except.toBool, true_and]
  rfl

/-- Writing the count changes its file only. -/
theorem writeCount_spec (site : Namespace root own location folder before)
    (wide : 3 ≤ ready.trigram.length)
    (run : (ready.writeCount (root / folder)).runOn before = (.ok (), after)) :
    FileTree.StaysIn location folder 3 before after ∧ ∀ place, after.fileAt? place =
      if place = location ++ folder :: Postings.countPlace ready.trigram then
        some (countBytes ready.trigram ready.total)
      else before.fileAt? place := by
  rw [writeCount, Postings.countFile_eq] at run
  have wrote := FileTree.writeFile_layered site.hosts site.member site.layered
    (Postings.placeOf_ne_nil _ _) (Postings.length_placeOf wide _)
    (List.forall_mem_cons.mpr
      ⟨site.plain, Postings.isPlain_placeOf Postings.isSuffix_countSuffix⟩) run
  refine ⟨wrote.stays, fun place => ?_⟩
  rw [wrote.files]
  simp only [Except.isOk, Except.toBool, true_and]
  rfl

end ReadyShard

theorem places_apart {a b : Location} (different : a ≠ b) :
    location ++ folder :: a ≠ location ++ folder :: b := by
  simpa using different

/-- The files of a trigram after the file of a shard was written. -/
theorem Delivered.writeShard
    (delivered : Delivered location folder before trigram jobs shards counted)
    (files : ∀ place, after.fileAt? place =
      if place = location ++ folder :: Postings.shardPlace ready.trigram ready.generation then
        some (shardBytes ready.trigram ready.generation ready.keys)
      else before.fileAt? place)
    (next : ready.trigram = trigram → jobs[shards]? = some ready ∧ ready.generation = shards) :
    Delivered location folder after trigram jobs
      (shards + if ready.trigram = trigram then 1 else 0) counted := by
  have count : after.fileAt? (location ++ folder :: Postings.countPlace trigram) =
      before.fileAt? (location ++ folder :: Postings.countPlace trigram) := by
    rw [files, if_neg (places_apart fun same =>
      Postings.shardPlace_ne_countPlace _ _ _ same.symm)]
  split
  · rename_i same
    obtain ⟨here, generation_eq⟩ := next same
    refine ⟨fun generation => ?_, count.trans delivered.count⟩
    rw [files, same, generation_eq, List.getElem?_take]
    by_cases last : generation = shards
    · subst last
      simp [here]
    · rw [if_neg (places_apart fun eq =>
        last (Postings.shardPlace_injective eq).2), delivered.shard, List.getElem?_take]
      simp only [show generation < shards + 1 ↔ generation < shards by omega]
  · rename_i different
    refine delivered.congr (fun generation => ?_) count
    rw [files, if_neg (places_apart fun eq =>
      different (Postings.shardPlace_injective eq).1.symm)]

/-- The files of a trigram after a count was written. -/
theorem Delivered.writeCount
    (delivered : Delivered location folder before trigram jobs shards counted)
    (files : ∀ place, after.fileAt? place =
      if place = location ++ folder :: Postings.countPlace ready.trigram then
        some (countBytes ready.trigram ready.total)
      else before.fileAt? place)
    (next : ready.trigram = trigram → jobs[counted]? = some ready) :
    Delivered location folder after trigram jobs shards
      (counted + if ready.trigram = trigram then 1 else 0) := by
  have shard (generation : Nat) :
      after.fileAt? (location ++ folder :: Postings.shardPlace trigram generation) =
        before.fileAt? (location ++ folder :: Postings.shardPlace trigram generation) := by
    rw [files, if_neg (places_apart (Postings.shardPlace_ne_countPlace _ _ _))]
  by_cases same : ready.trigram = trigram
  · refine ⟨fun generation => (shard generation).trans (delivered.shard generation), ?_⟩
    rw [files, if_pos same, same, if_pos rfl, List.take_add_one, next same]
    simp
  · rw [if_neg same]
    refine delivered.congr shard ?_
    rw [files, if_neg (places_apart fun eq =>
      same (Postings.countPlace_injective eq).symm)]

end Delivered

/-! ## The pool -/

namespace Pool

variable {root : Path} {own : List String} {location : Location} {folder : String}
  {workers : Nat} {workerOf : Trigram → Fin workers} {jobs : Trigram → List ReadyShard}
  {pool later : Pool workers} {trigram : Trigram} {ready : ReadyShard} {worker : Fin workers}

/-- The files of every trigram are those of the shards that have been submitted, up to the shards
that wait. -/
structure Delivers (root : Path) (own : List String) (location : Location) (folder : String)
    (workerOf : Trigram → Fin workers) (jobs : Trigram → List ReadyShard) (pool : Pool workers) :
    Prop where
  /-- The files lie in the folder of a namespace. -/
  site : Namespace root own location folder pool.tree
  /-- Names are proper. -/
  named : pool.tree.WellNamed
  /-- Shards wait for the worker of their trigram. -/
  routed : ∀ worker, ∀ ready ∈ pool.waiting worker, workerOf ready.trigram = worker
  /-- All shards but the first have to be written still. -/
  files : ∀ trigram, ∃ counted ≤ (jobs trigram).length,
    (jobs trigram).drop counted = pool.sent workerOf trigram ∧
      (3 ≤ trigram.length → Delivered location folder pool.tree trigram (jobs trigram)
        (counted + (pool.workers (workerOf trigram)).ahead trigram) counted)

/-- Shards are submitted in the order of their generations, and for trigrams only. -/
structure Ordered (jobs : Trigram → List ReadyShard) : Prop where
  /-- They are the shards of a list. -/
  handed : ∀ trigram, ∃ shards, jobs trigram = handedFrom trigram 0 0 shards
  /-- There are none for shorter texts. -/
  wide : ∀ trigram, jobs trigram ≠ [] → 3 ≤ trigram.length

/-- A step that leaves the tree and what waits as they are. -/
theorem Delivers.quiet (delivers : pool.Delivers root own location folder workerOf jobs)
    (tree : later.tree = pool.tree) (waiting : ∀ worker, later.waiting worker = pool.waiting worker)
    (ahead : ∀ worker trigram,
      (later.workers worker).ahead trigram = (pool.workers worker).ahead trigram) :
    later.Delivers root own location folder workerOf jobs where
  site := tree ▸ delivers.site
  named := tree ▸ delivers.named
  routed worker ready member := delivers.routed worker ready (waiting worker ▸ member)
  files trigram := by
    obtain ⟨counted, fits, sent, delivered⟩ := delivers.files trigram
    refine ⟨counted, fits, ?_, ?_⟩
    · rw [sent, Pool.sent, Pool.sent, waiting]
    · rw [tree, ahead]
      exact delivered

/-- A worker writes shards of its own trigrams. -/
theorem Delivers.workerOf_eq (delivers : pool.Delivers root own location folder workerOf jobs)
    (holds : (pool.workers worker).ready? = some ready) : workerOf ready.trigram = worker :=
  delivers.routed worker ready (by rw [waiting_of_ready? holds]; exact List.mem_cons_self)

/-- The shard that a worker writes is the first of its trigram that is not written. -/
theorem Delivers.next (delivers : pool.Delivers root own location folder workerOf jobs)
    (holds : (pool.workers worker).ready? = some ready) {counted : Nat}
    (sent : (jobs ready.trigram).drop counted = pool.sent workerOf ready.trigram) :
    (jobs ready.trigram)[counted]? = some ready ∧
      (jobs ready.trigram).drop (counted + 1) =
        (pool.queues worker).filter (·.trigram = ready.trigram) := by
  rw [Pool.sent, delivers.workerOf_eq holds, waiting_of_ready? holds,
    List.filter_cons_of_pos (by simp)] at sent
  refine ⟨?_, ?_⟩
  · rw [← List.head?_drop, sent]
    rfl
  · rw [← List.tail_drop, sent]
    rfl

theorem Delivers.wide (delivers : pool.Delivers root own location folder workerOf jobs)
    (ordered : Ordered jobs) (holds : (pool.workers worker).ready? = some ready) :
    3 ≤ ready.trigram.length := by
  obtain ⟨counted, -, sent, -⟩ := delivers.files ready.trigram
  refine ordered.wide _ fun none => ?_
  have next := (delivers.next holds sent).1
  rw [none] at next
  cases next

theorem Delivers.writeShard (delivers : pool.Delivers root own location folder workerOf jobs)
    (ordered : Ordered jobs) {changed : FileTree}
    (phase : pool.workers worker = .writeShard ready)
    (wrote : (ready.writeShard (root / folder)).runOn pool.tree = (.ok (), changed)) :
    ({ pool with tree := changed }.set worker (.writeCount ready)).Delivers root own location
      folder workerOf jobs := by
  have holds : (pool.workers worker).ready? = some ready := by
    rw [phase]
    rfl
  have wide' := delivers.wide ordered holds
  have mine := delivers.workerOf_eq holds
  have waits (one : Fin workers) :
      ({ pool with tree := changed }.set worker (.writeCount ready)).waiting one =
        pool.waiting one := by
    by_cases same : one = worker
    · rw [same, waiting_set_self, waiting_of_ready? holds]
      rfl
    · exact waiting_set_of_ne _ same _
  obtain ⟨stays, files⟩ := ReadyShard.writeShard_spec delivers.site wide' wrote
  refine ⟨delivers.site.step stays, stays.named delivers.named,
    fun one ready' member => delivers.routed one ready' (waits one ▸ member), fun trigram => ?_⟩
  obtain ⟨counted, fits, sent, delivered⟩ := delivers.files trigram
  refine ⟨counted, fits, by rw [sent, Pool.sent, Pool.sent, waits], fun wide => ?_⟩
  have ahead : (({ pool with tree := changed }.set worker (.writeCount ready)).workers
      (workerOf trigram)).ahead trigram =
        (pool.workers (workerOf trigram)).ahead trigram +
          if ready.trigram = trigram then 1 else 0 := by
    by_cases same : workerOf trigram = worker
    · rw [same, workers_set_self, phase]
      exact (Nat.zero_add _).symm
    · rw [workers_set_of_ne _ _ _ same, if_neg (by rintro rfl; exact same mine)]
      rfl
  rw [ahead, ← Nat.add_assoc]
  refine (delivered wide).writeShard files ?_
  rintro rfl
  have none_ahead : (pool.workers (workerOf ready.trigram)).ahead ready.trigram = 0 := by
    rw [mine, phase]
    rfl
  have next := (delivers.next holds sent).1
  rw [none_ahead, Nat.add_zero]
  refine ⟨next, ?_⟩
  obtain ⟨shards, handed⟩ := ordered.handed ready.trigram
  rw [handed, getElem?_handedFrom, Option.map_eq_some_iff] at next
  obtain ⟨keys, -, eq⟩ := next
  rw [← eq]
  exact Nat.zero_add _

theorem Delivers.writeCount (delivers : pool.Delivers root own location folder workerOf jobs)
    (ordered : Ordered jobs) {changed : FileTree}
    (phase : pool.workers worker = .writeCount ready)
    (wrote : (ready.writeCount (root / folder)).runOn pool.tree = (.ok (), changed)) :
    ({ pool with tree := changed }.set worker .finish).Delivers root own location folder workerOf
      jobs := by
  have holds : (pool.workers worker).ready? = some ready := by
    rw [phase]
    rfl
  have wide' := delivers.wide ordered holds
  have before := waiting_of_ready? holds
  have mine := delivers.workerOf_eq holds
  have after : ({ pool with tree := changed }.set worker .finish).waiting worker =
      pool.queues worker := waiting_set_self _ _ _
  obtain ⟨stays, files⟩ := ReadyShard.writeCount_spec delivers.site wide' wrote
  refine ⟨delivers.site.step stays, stays.named delivers.named, fun one ready' member => ?_,
    fun trigram => ?_⟩
  · by_cases same : one = worker
    · subst same
      rw [after] at member
      exact delivers.routed one ready' (by rw [before]; exact List.mem_cons_of_mem _ member)
    · rw [waiting_set_of_ne _ same] at member
      exact delivers.routed one ready' member
  · obtain ⟨counted, fits, sent, delivered⟩ := delivers.files trigram
    refine ⟨counted + if ready.trigram = trigram then 1 else 0, ?_, ?_, fun wide => ?_⟩
    · split
      · rename_i same
        subst same
        exact (List.getElem?_eq_some_iff.mp (delivers.next holds sent).1).1
      · exact fits
    · by_cases same : ready.trigram = trigram
      · subst same
        rw [if_pos rfl, (delivers.next holds sent).2, Pool.sent, mine, after]
      · rw [if_neg same, Nat.add_zero, sent, Pool.sent, Pool.sent]
        by_cases here : workerOf trigram = worker
        · rw [here, after, before, List.filter_cons_of_neg (by simpa using same)]
        · rw [waiting_set_of_ne _ here]
          rfl
    · have ahead : (pool.workers (workerOf trigram)).ahead trigram =
          (({ pool with tree := changed }.set worker .finish).workers
            (workerOf trigram)).ahead trigram + if ready.trigram = trigram then 1 else 0 := by
        by_cases same : workerOf trigram = worker
        · rw [same, workers_set_self, phase]
          exact (Nat.zero_add _).symm
        · rw [workers_set_of_ne _ _ _ same, if_neg (by rintro rfl; exact same mine)]
          rfl
      rw [Nat.add_right_comm, Nat.add_assoc, ← ahead]
      refine (delivered wide).writeCount files ?_
      rintro rfl
      exact (delivers.next holds sent).1

/-- A step of a worker keeps the files in step with the shards that have been submitted. -/
theorem Delivers.step (delivers : pool.Delivers root own location folder workerOf jobs)
    (ordered : Ordered jobs) (step : pool.Step (root / folder) later) :
    later.Delivers root own location folder workerOf jobs := by
  cases step with
  | @receive worker ready rest phase queue =>
      refine delivers.quiet rfl (fun one => ?_) fun one trigram => ?_
      · by_cases same : one = worker
        · rw [same, waiting_set_self, queues_requeue_self, waiting, phase, queue]
          rfl
        · rw [waiting_set_of_ne _ same, waiting, queues_requeue_of_ne _ _ _ same, waiting,
            workers_requeue]
      · by_cases same : one = worker
        · rw [same, workers_set_self, phase]
          rfl
        · rw [workers_set_of_ne _ _ _ same, workers_requeue]
  | writeShard phase wrote => exact delivers.writeShard ordered phase wrote
  | writeCount phase wrote => exact delivers.writeCount ordered phase wrote
  | @finish worker phase =>
      refine delivers.quiet rfl (fun one => ?_) fun one trigram => ?_
      · by_cases same : one = worker
        · rw [same, waiting_set_self, waiting, phase]
          rfl
        · rw [waiting_set_of_ne _ same]
          rfl
      · by_cases same : one = worker
        · rw [same, workers_set_self, phase]
          rfl
        · rw [workers_set_of_ne _ _ _ same]

/-- A step of a worker changes nothing but files of the namespace. -/
theorem Delivers.staysIn (delivers : pool.Delivers root own location folder workerOf jobs)
    (ordered : Ordered jobs) (step : pool.Step (root / folder) later) :
    FileTree.StaysIn location folder 3 pool.tree later.tree := by
  cases step with
  | receive => exact .refl _
  | writeShard phase wrote =>
      have wide := delivers.wide ordered (by rw [phase]; rfl)
      exact (ReadyShard.writeShard_spec delivers.site wide wrote).1
  | writeCount phase wrote =>
      have wide := delivers.wide ordered (by rw [phase]; rfl)
      exact (ReadyShard.writeCount_spec delivers.site wide wrote).1
  | finish => exact .refl _

/-- A shard that is submitted waits behind the others of its trigram. -/
theorem Delivers.enqueue (delivers : pool.Delivers root own location folder workerOf jobs)
    {more : Trigram → List ReadyShard}
    (submits : ∀ trigram, more trigram =
      jobs trigram ++ if ready.trigram = trigram then [ready] else []) :
    (pool.enqueue (workerOf ready.trigram) ready).Delivers root own location folder workerOf
      more := by
  have waits (one : Fin workers) : (pool.enqueue (workerOf ready.trigram) ready).waiting one =
      pool.waiting one ++ if one = workerOf ready.trigram then [ready] else [] := by
    rw [waiting, waiting, Pool.enqueue]
    by_cases same : one = workerOf ready.trigram
    · rw [same, queues_requeue_self, if_pos rfl, workers_requeue, List.append_assoc]
    · rw [queues_requeue_of_ne _ _ _ same, if_neg same, workers_requeue, List.append_nil]
  refine ⟨delivers.site, delivers.named, fun one ready' member => ?_, fun trigram => ?_⟩
  · rw [waits] at member
    rcases List.mem_append.mp member with member | member
    · exact delivers.routed one ready' member
    · split at member
      · rename_i same
        rw [List.mem_singleton.mp member, same]
      · cases member
  · obtain ⟨counted, fits, sent, delivered⟩ := delivers.files trigram
    refine ⟨counted, ?_, ?_, fun wide => ?_⟩
    · rw [submits, List.length_append]
      exact Nat.le_add_right_of_le fits
    · rw [submits, List.drop_append_of_le_length fits, sent, Pool.sent, Pool.sent, waits,
        List.filter_append]
      congr 1
      by_cases same : ready.trigram = trigram
      · simp [same]
      · rw [if_neg same]
        split <;> simp [same]
    · rw [submits]
      refine (delivered wide).append ?_ fits _
      rcases Nat.eq_zero_or_pos ((pool.workers (workerOf trigram)).ahead trigram)
        with none_ahead | ahead
      · rw [none_ahead]
        exact fits
      · obtain ⟨one, ready', phase, rfl⟩ := WorkerPhase.eq_writeCount_of_ahead ahead
        have next := (delivers.next (by rw [phase]; rfl) sent).1
        rw [one]
        exact (List.getElem?_eq_some_iff.mp next).1

end Pool
end SourceSearch
