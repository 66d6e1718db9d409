import SourceSearch.Proofs.Postings.Concurrency

/-!
# Schedules

A schedule tells which thread or worker takes each step.  The steps of a schedule can be computed,
and what they lead to is a run.
-/

namespace SourceSearch

namespace Collection

variable {threads threshold : Nat} {collection later : Collection threads} {thread : Fin threads}
  {told : List (WriterEvent threads)}

/-- The next step of a thread with an accumulator, if it can take one; a save lists the accumulators
in the order of their trigrams. -/
def next? (threshold : Nat) (collection : Collection threads) (thread : Fin threads) :
    Option (List (WriterEvent threads) × Collection threads) :=
  match collection.threads thread with
  | ⟨.add trigram key :: tasks, .idle⟩ =>
      match collection.handles.find? trigram with
      | some handle =>
          some ([], collection.set thread ⟨tasks, .use trigram handle (.lock (some key))⟩)
      | none => some ([], collection.set thread ⟨tasks, .make trigram key⟩)
  | ⟨tasks, .make trigram key⟩ =>
      match collection.handles.find? trigram with
      | some handle =>
          some ([], collection.set thread ⟨tasks, .use trigram handle (.lock (some key))⟩)
      | none =>
          some ([], (collection.allocate trigram).set thread
            ⟨tasks, .use trigram collection.fresh (.lock (some key))⟩)
  | ⟨.save :: tasks, .idle⟩ =>
      some ([], collection.set thread
        ⟨collection.handles.toList.map (fun entry => .flush entry.1 entry.2) ++ .await :: tasks,
          .idle⟩)
  | ⟨.flush trigram handle :: tasks, .idle⟩ =>
      some ([], collection.set thread ⟨tasks, .use trigram handle (.lock none)⟩)
  | ⟨tasks, .use trigram handle (.lock key?)⟩ =>
      match (collection.memory handle).owner with
      | some _ => none
      | none =>
          some ([], (collection.put handle
            { collection.memory handle with owner := some thread }).set thread
              ⟨tasks, .use trigram handle (.change key?)⟩)
  | ⟨tasks, .use trigram handle (.change key?)⟩ =>
      let taken := (collection.memory handle).pending.take threshold trigram key?
      some ([.ofChange thread trigram key?],
        (collection.put handle { collection.memory handle with pending := taken.2 }).set thread
          ⟨tasks, .use trigram handle (.afterChange taken.1)⟩)
  | ⟨tasks, .use _ handle .unlock⟩ =>
      some ([], (collection.put handle { collection.memory handle with owner := none }).set thread
        ⟨tasks, .idle⟩)
  | _ => none

theorem step_of_next? (next : collection.next? threshold thread = some (told, later)) :
    collection.Step threshold told later := by
  rw [next?] at next
  split at next
  · rename_i state
    split at next <;> cases next
    · exact .find state ‹_›
    · exact .miss state ‹_›
  · rename_i state
    split at next <;> cases next
    · exact .share state ‹_›
    · exact .make state ‹_›
  · cases next
    exact .list ‹_› (.refl _)
  · cases next
    exact .turn ‹_›
  · rename_i state
    split at next <;> cases next
    exact .lock state ‹_›
  · cases next
    exact .change ‹_› rfl
  · cases next
    exact .unlock ‹_›
  · cases next

end Collection

/-- The next step of a worker, if it can take one and does not fail to write. -/
def Pool.next? {workers : Nat} (base : Path) (pool : Pool workers) (worker : Fin workers) :
    Option (Pool workers) :=
  match pool.workers worker with
  | .idle =>
      match pool.queues worker with
      | ready :: rest => some ((pool.requeue worker rest).set worker (.writeShard ready))
      | [] => none
  | .writeShard ready =>
      match (ready.writeShard base).runOn pool.tree with
      | (.ok (), tree) => some ({ pool with tree }.set worker (.writeCount ready))
      | (.error _, _) => none
  | .writeCount ready =>
      match (ready.writeCount base).runOn pool.tree with
      | (.ok (), tree) => some ({ pool with tree }.set worker .finish)
      | (.error _, _) => none
  | .finish => some ({ pool with inFlight := pool.inFlight - 1 }.set worker .idle)

theorem Pool.step_of_next? {workers : Nat} {base : Path} {pool later : Pool workers}
    {worker : Fin workers} (next : pool.next? base worker = some later) :
    pool.Step base later := by
  rw [next?] at next
  split at next
  · rename_i phase
    split at next <;> cases next
    exact .receive phase ‹_›
  · rename_i phase
    split at next <;> cases next
    exact .writeShard phase ‹_›
  · rename_i phase
    split at next <;> cases next
    exact .writeCount phase ‹_›
  · cases next
    exact .finish ‹_›

namespace SharedWriter

variable {threads workers threshold : Nat} {workerOf : Trigram → Fin workers} {base : Path}
  {writer later : SharedWriter threads workers} {told : List (WriterEvent threads)}

/-- Who takes the next step. -/
inductive Turn (threads workers : Nat) where
  /-- A thread. -/
  | thread (thread : Fin threads)
  /-- A worker. -/
  | worker (worker : Fin workers)

/-- The next step, if it can be taken. -/
def next? (threshold : Nat) (workerOf : Trigram → Fin workers) (base : Path)
    (writer : SharedWriter threads workers) :
    Turn threads workers → Option (List (WriterEvent threads) × SharedWriter threads workers)
  | .thread thread =>
      match writer.collection.threads thread with
      | ⟨tasks, .use trigram handle (.announce ready)⟩ =>
          some ([], ⟨writer.collection.set thread ⟨tasks, .use trigram handle (.send ready)⟩,
            { writer.pool with inFlight := writer.pool.inFlight + 1 }⟩)
      | ⟨tasks, .use trigram handle (.send ready)⟩ =>
          some ([.submitted ready],
            ⟨writer.collection.set thread ⟨tasks, .use trigram handle .unlock⟩,
              writer.pool.enqueue (workerOf ready.trigram) ready⟩)
      | ⟨.await :: tasks, .idle⟩ =>
          if writer.pool.inFlight = 0 then
            some ([], { writer with collection := writer.collection.set thread ⟨tasks, .idle⟩ })
          else none
      | _ =>
          (writer.collection.next? threshold thread).map fun stepped =>
            (stepped.1, { writer with collection := stepped.2 })
  | .worker worker => (writer.pool.next? base worker).map fun pool => ([], { writer with pool })

theorem step_of_next? {turn : Turn threads workers}
    (next : writer.next? threshold workerOf base turn = some (told, later)) :
    writer.Step threshold workerOf base told later := by
  cases turn with
  | thread thread =>
      rw [next?] at next
      split at next
      · cases next
        exact .announce ‹_›
      · cases next
        exact .send ‹_›
      · rename_i state
        split at next <;> cases next
        exact .await state ‹_›
      · obtain ⟨stepped, goes, eq⟩ := Option.map_eq_some_iff.mp next
        cases eq
        exact .collect (Collection.step_of_next? goes)
  | worker worker =>
      obtain ⟨pool, goes, eq⟩ := Option.map_eq_some_iff.mp next
      cases eq
      exact .work (Pool.step_of_next? goes)

/-- The steps of a schedule, if all of them can be taken. -/
def follow? (threshold : Nat) (workerOf : Trigram → Fin workers) (base : Path) :
    List (Turn threads workers) → SharedWriter threads workers →
      Option (List (WriterEvent threads) × SharedWriter threads workers)
  | [], writer => some ([], writer)
  | turn :: rest, writer => do
      let (told, later) ← writer.next? threshold workerOf base turn
      let (more, last) ← follow? threshold workerOf base rest later
      return (told ++ more, last)

theorem Run.head {between : SharedWriter threads workers} {events : List (WriterEvent threads)}
    (step : writer.Step threshold workerOf base told between)
    (run : between.Run threshold workerOf base events later) :
    writer.Run threshold workerOf base (told ++ events) later := by
  induction run with
  | refl =>
      rw [List.append_nil]
      exact .tail .refl step
  | tail _ last ih =>
      rw [← List.append_assoc]
      exact .tail ih last

/-- What a schedule leads to is a run. -/
theorem run_of_follow? {turns : List (Turn threads workers)}
    (follows : writer.follow? threshold workerOf base turns = some (told, later)) :
    writer.Run threshold workerOf base told later := by
  induction turns generalizing writer told with
  | nil =>
      cases follows
      exact .refl
  | cons turn rest ih =>
      obtain ⟨⟨first, between⟩, step, follows⟩ := Option.bind_eq_some_iff.mp follows
      obtain ⟨⟨more, last⟩, rests, eq⟩ := Option.bind_eq_some_iff.mp follows
      cases eq
      exact .head (step_of_next? step) (ih rests)

/-- Follow a schedule until all threads have returned, and let one of them save by another. -/
def saveAfter? (threshold : Nat) (workerOf : Trigram → Fin workers) (base : Path)
    (adding : List (Turn threads workers)) (saver : Fin threads)
    (saving : List (Turn threads workers)) (writer : SharedWriter threads workers) :
    Option (SharedWriter threads workers × SharedWriter threads workers) := do
  let (_, now) ← writer.follow? threshold workerOf base adding
  let (_, done) ← (now.call saver .save).follow? threshold workerOf base saving
  if now.Returned ∧ done.Returned then some (now, done) else none

theorem runs_of_saveAfter? {adding saving : List (Turn threads workers)} {saver : Fin threads}
    {now done : SharedWriter threads workers}
    (follows : writer.saveAfter? threshold workerOf base adding saver saving = some (now, done)) :
    (∃ events, writer.Run threshold workerOf base events now) ∧ now.Returned ∧
      (∃ told, (now.call saver .save).Run threshold workerOf base told done) ∧ done.Returned := by
  obtain ⟨⟨events, between⟩, first, follows⟩ := Option.bind_eq_some_iff.mp follows
  obtain ⟨⟨told, last⟩, second, follows⟩ := Option.bind_eq_some_iff.mp follows
  change (if between.Returned ∧ last.Returned then some (between, last) else none) = _ at follows
  split at follows
  · rename_i returned
    cases follows
    exact ⟨⟨events, run_of_follow? first⟩, returned.1, ⟨told, run_of_follow? second⟩, returned.2⟩
  · cases follows

end SharedWriter
end SourceSearch
