import SourceSearch.Proofs.Postings.Schedules
import SourceSearch.Proofs.Postings.SharedWriter

/-!
# The last save of a shared writer

While threads add keys, ledgers go through the adds in the order in which the keys were inserted,
which is some order of all of them.  A save that begins after the threads have returned flushes
every ledger once and ends when nothing is in flight, so it leaves the files of a writer that a
single thread uses in that order.
-/

namespace SourceSearch

/-! ## Flushes to come -/

/-- The accumulator is about to be flushed. -/
def ThreadStage.flushes : ThreadStage → Bool
  | lock key? => key?.isNone
  | change key? => key?.isNone
  | _ => false

/-- The phase is before a flush of a trigram. -/
def ThreadPhase.WillFlush (trigram : Trigram) : ThreadPhase → Prop
  | use other _ stage => other = trigram ∧ stage.flushes
  | _ => False

/-- The thread has still to flush a trigram. -/
def Thread.WillFlush (thread : Thread) (trigram : Trigram) : Prop :=
  .save ∈ thread.tasks ∨ (∃ handle, .flush trigram handle ∈ thread.tasks) ∨
    thread.phase.WillFlush trigram

theorem ThreadPhase.not_willFlush_use {trigram other : Trigram} {handle : Handle}
    {stage : ThreadStage} (calm : stage.flushes = false) :
    ¬ (use other handle stage).WillFlush trigram := by
  rintro ⟨-, flushes⟩
  rw [calm] at flushes
  cases flushes

@[simp]
theorem ThreadStage.flushes_afterChange (ready? : Option ReadyShard) :
    (afterChange ready?).flushes = false := by
  cases ready? <;> rfl

namespace Collection

open WriterEvent

variable {threads threshold : Nat} {collection later : Collection threads}
  {events told : List (WriterEvent threads)} {trigram : Trigram}

/-- The threads have only keys to add. -/
def OnlyAdds (collection : Collection threads) : Prop :=
  ∀ thread trigram, ¬ (collection.threads thread).WillFlush trigram

theorem OnlyAdds.set (onlyAdds : collection.OnlyAdds) {thread : Fin threads}
    {state changed : Thread} (same : later.threads = collection.threads)
    (before : collection.threads thread = state)
    (changes : ∀ trigram, changed.WillFlush trigram → state.WillFlush trigram) :
    (later.set thread changed).OnlyAdds := by
  intro one trigram flushes
  by_cases here : one = thread
  · subst here
    rw [threads_set_self] at flushes
    exact onlyAdds one trigram (before ▸ changes trigram flushes)
  · rw [threads_set_of_ne _ _ _ here, same] at flushes
    exact onlyAdds one trigram flushes

/-- Threads that only add keys go on like that, and nothing is flushed. -/
theorem OnlyAdds.step (onlyAdds : collection.OnlyAdds)
    (step : collection.Step threshold told later) :
    later.OnlyAdds ∧ ∀ trigram, flushed trigram ∉ told := by
  have calm {between : Collection threads} {thread : Fin threads} {state : Thread}
      {tasks : List ThreadTask} {phase : ThreadPhase} (same : between.threads = collection.threads)
      (before : collection.threads thread = state) (fewer : tasks ⊆ state.tasks)
      (quiet : ∀ trigram, ¬ phase.WillFlush trigram) :
      (between.set thread ⟨tasks, phase⟩).OnlyAdds :=
    onlyAdds.set same before fun trigram flushes => flushes.imp (fun save => fewer save) fun rest =>
      .inl ((rest.resolve_right (quiet trigram)).imp fun _ flush => fewer flush)
  have silent : ∀ trigram : Trigram, flushed trigram ∉ ([] : List (WriterEvent threads)) :=
    fun _ => List.not_mem_nil
  cases step with
  | find next =>
      exact ⟨calm rfl next (List.subset_cons_self _ _) fun _ => ThreadPhase.not_willFlush_use rfl,
        silent⟩
  | miss next => exact ⟨calm rfl next (List.subset_cons_self _ _) fun _ => id, silent⟩
  | share phase =>
      exact ⟨calm rfl phase (List.Subset.refl _) fun _ => ThreadPhase.not_willFlush_use rfl, silent⟩
  | make phase =>
      exact ⟨calm rfl phase (List.Subset.refl _) fun _ => ThreadPhase.not_willFlush_use rfl, silent⟩
  | @list thread tasks entries next =>
      exact absurd (next ▸ .inl List.mem_cons_self) (onlyAdds thread "")
  | @turn thread trigram handle tasks next =>
      exact absurd (next ▸ .inr (.inl ⟨handle, List.mem_cons_self⟩)) (onlyAdds thread trigram)
  | lock phase => exact ⟨onlyAdds.set rfl phase fun _ flushes => flushes, silent⟩
  | @change thread trigram handle key? tasks ready? rest phase taken =>
      cases key? with
      | none => exact absurd (phase ▸ .inr (.inr ⟨rfl, rfl⟩)) (onlyAdds thread trigram)
      | some key =>
          exact ⟨calm rfl phase (List.Subset.refl _) fun _ =>
            ThreadPhase.not_willFlush_use (ThreadStage.flushes_afterChange ready?),
            fun other => by simp [ofChange]⟩
  | unlock phase => exact ⟨calm rfl phase (List.Subset.refl _) fun _ => id, silent⟩

end Collection

namespace SharedWriter

open WriterEvent Collection

variable {root : Path} {own : List String} {location : Location} {folder : String} {base : Path}
  {threads workers threshold : Nat} {workerOf : Trigram → Fin workers}
  {adds : Fin threads → List (Trigram × DocumentKey)} {events told : List (WriterEvent threads)}
  {writer later : SharedWriter threads workers} {saver : Fin threads}
  {settled : Trigram → Ledger} {trigram : Trigram}

/-! ## Before the save -/

theorem onlyAdds_start {calls : Fin threads → List WriterCall}
    (unsaved : ∀ thread, .save ∉ calls thread) (tree : FileTree) :
    (start calls tree : SharedWriter threads workers).collection.OnlyAdds := by
  rintro thread trigram (save | ⟨handle, flush⟩ | idle)
  · obtain ⟨call, made, eq⟩ := List.mem_map.mp save
    cases call with
    | add => cases eq
    | save => exact unsaved thread made
  · exact flush_not_mem_tasks (calls thread) trigram handle flush
  · exact idle

/-- Threads that are given keys to add still only add keys. -/
theorem onlyAdds_assign (onlyAdds : writer.collection.OnlyAdds) {thread : Fin threads}
    {calls : List WriterCall} (unsaved : .save ∉ calls) :
    (writer.assign thread calls).collection.OnlyAdds := by
  refine onlyAdds.set rfl rfl fun trigram flushes => ?_
  refine flushes.imp (fun save => ?_) (Or.imp_left fun ⟨handle, flush⟩ => ⟨handle, ?_⟩)
  · rcases List.mem_append.mp save with before | given
    · exact before
    · obtain ⟨call, made, eq⟩ := List.mem_map.mp given
      cases call with
      | add => cases eq
      | save => exact absurd made unsaved
  · exact (List.mem_append.mp flush).resolve_right (flush_not_mem_tasks calls trigram handle)

/-- Threads that only add keys flush nothing. -/
theorem not_flushed_of_run (onlyAdds : writer.collection.OnlyAdds)
    (run : writer.Run threshold workerOf base told later) :
    later.collection.OnlyAdds ∧ ∀ trigram, flushed trigram ∉ told := by
  induction run with
  | refl => exact ⟨onlyAdds, fun _ => List.not_mem_nil⟩
  | tail _ step ih =>
      obtain ⟨onlyAdds, unflushed⟩ := ih
      have silent : ∀ trigram : Trigram, flushed trigram ∉ ([] : List (WriterEvent threads)) :=
        fun _ => List.not_mem_nil
      simp only [List.mem_append, not_or]
      cases step with
      | collect step =>
          obtain ⟨still, quiet⟩ := onlyAdds.step step
          exact ⟨still, fun trigram => ⟨unflushed trigram, quiet trigram⟩⟩
      | announce phase =>
          exact ⟨onlyAdds.set rfl phase fun _ => id,
            fun trigram => ⟨unflushed trigram, silent trigram⟩⟩
      | send phase =>
          exact ⟨onlyAdds.set rfl phase fun _ => id, fun trigram => ⟨unflushed trigram, by simp⟩⟩
      | await next =>
          refine ⟨onlyAdds.set rfl next fun trigram flushes => ?_,
            fun trigram => ⟨unflushed trigram, silent trigram⟩⟩
          exact flushes.imp (List.mem_cons_of_mem _) fun rest =>
            rest.imp (fun flush => flush.imp fun _ => List.mem_cons_of_mem _) id
      | work => exact ⟨onlyAdds, fun trigram => ⟨unflushed trigram, silent trigram⟩⟩

/-! ## During the save -/

/-- One thread saves what has been added and the others rest. -/
structure Saving (saver : Fin threads) (settled : Trigram → Ledger) (threshold : Nat)
    (events : List (WriterEvent threads)) (writer : SharedWriter threads workers) : Prop where
  /-- The others rest. -/
  others : ∀ thread, thread ≠ saver → writer.collection.threads thread = ⟨[], .idle⟩
  /-- No keys are added. -/
  additions : (writer.collection.threads saver).additions = []
  /-- Every ledger has been flushed or will be. -/
  ledgers : ∀ trigram, ledger threshold events trigram = (settled trigram).flush ∨
    ledger threshold events trigram = settled trigram ∧
      (writer.collection.threads saver).WillFlush trigram
  /-- The save has not begun, or it goes through the accumulators, or it has found that nothing is
  in flight. -/
  stage : writer.collection.threads saver = ⟨[.save], .idle⟩ ∨
    (∃ left : List (Trigram × Handle), (writer.collection.threads saver).tasks =
      left.map (fun entry => .flush entry.1 entry.2) ++ [.await]) ∨
    writer.collection.threads saver = ⟨[], .idle⟩ ∧ writer.pool.inFlight = 0

/-- The saving thread goes on. -/
theorem Saving.set (saving : writer.Saving saver settled threshold events)
    {between : Collection threads} {pool : Pool workers} {changed : Thread}
    (same : between.threads = writer.collection.threads) (additions : changed.additions = [])
    (ledgers : ∀ trigram, ledger threshold (events ++ told) trigram = (settled trigram).flush ∨
      ledger threshold (events ++ told) trigram = settled trigram ∧ changed.WillFlush trigram)
    (stage : (∃ left : List (Trigram × Handle), changed.tasks =
      left.map (fun entry => .flush entry.1 entry.2) ++ [.await]) ∨
      changed = ⟨[], .idle⟩ ∧ pool.inFlight = 0) :
    Saving saver settled threshold (events ++ told) ⟨between.set saver changed, pool⟩ where
  others thread other := by
    rw [threads_set_of_ne _ _ _ other, same]
    exact saving.others thread other
  additions := by rw [threads_set_self, additions]
  ledgers := by rwa [threads_set_self]
  stage := by
    rw [threads_set_self]
    exact .inr stage

/-- Only the saving thread has something to do. -/
theorem Saving.eq_saver (saving : writer.Saving saver settled threshold events)
    {thread : Fin threads} {state : Thread} (eq : writer.collection.threads thread = state)
    (busy : state ≠ ⟨[], .idle⟩) : thread = saver := by
  by_contra other
  exact busy (eq.symm.trans (saving.others thread other))

/-- While it uses an accumulator, the save goes through the accumulators. -/
theorem Saving.left_of_use (saving : writer.Saving saver settled threshold events)
    {tasks : List ThreadTask} {handle : Handle} {stage : ThreadStage}
    (phase : writer.collection.threads saver = ⟨tasks, .use trigram handle stage⟩) :
    ∃ left : List (Trigram × Handle),
      tasks = left.map (fun entry => .flush entry.1 entry.2) ++ [.await] := by
  rcases saving.stage with begun | ⟨left, eq⟩ | ⟨done, -⟩
  · rw [phase] at begun
    cases begun
  · rw [phase] at eq
    exact ⟨left, eq⟩
  · rw [phase] at done
    cases done

/-- A step between two phases, none of which flushes. -/
theorem Saving.calm (saving : writer.Saving saver settled threshold events)
    {between : Collection threads} {pool : Pool workers} {tasks : List ThreadTask}
    {handle : Handle} {stage : ThreadStage} {next : ThreadPhase}
    (same : between.threads = writer.collection.threads)
    (phase : writer.collection.threads saver = ⟨tasks, .use trigram handle stage⟩)
    (additions : next.addition? = (ThreadPhase.use trigram handle stage).addition?)
    (flushes : ∀ trigram', (ThreadPhase.use trigram handle stage).WillFlush trigram' →
      next.WillFlush trigram')
    (silent : ∀ trigram, ledger threshold (events ++ told) trigram =
      ledger threshold events trigram) :
    Saving saver settled threshold (events ++ told) ⟨between.set saver ⟨tasks, next⟩, pool⟩ := by
  have without := saving.additions
  have ledgers := saving.ledgers
  rw [phase] at without ledgers
  refine saving.set same ?_ (fun trigram' => ?_) (.inl (saving.left_of_use phase))
  · rw [Thread.additions, additions]
    exact without
  · rw [silent]
    exact (ledgers trigram').imp id fun due => ⟨due.1, due.2.imp id fun rest =>
      rest.imp id (flushes trigram')⟩

/-- A change of an accumulator during a save is a flush. -/
theorem Saving.change (saving : writer.Saving saver settled threshold events)
    {between : Collection threads} {tasks : List ThreadTask} {handle : Handle}
    {key? : Option DocumentKey} {ready? : Option ReadyShard}
    (same : between.threads = writer.collection.threads)
    (phase : writer.collection.threads saver = ⟨tasks, .use trigram handle (.change key?)⟩) :
    Saving saver settled threshold (events ++ [.ofChange saver trigram key?])
      ⟨between.set saver ⟨tasks, .use trigram handle (.afterChange ready?)⟩, writer.pool⟩ := by
  have without := saving.additions
  have ledgers := saving.ledgers
  rw [phase] at without ledgers
  obtain ⟨noKey, tasksAdd⟩ := List.append_eq_nil_iff.mp without
  have flushes : key? = none := by
    cases key? with
    | none => rfl
    | some key => cases noKey
  subst flushes
  refine saving.set same (List.append_eq_nil_iff.mpr ⟨?_, tasksAdd⟩) (fun other => ?_)
    (.inl (saving.left_of_use phase))
  · cases ready? <;> rfl
  · rw [ledger_append_change]
    by_cases here : other = trigram
    · rw [if_pos here]
      refine .inl ?_
      rcases ledgers other with flushed | ⟨due, -⟩
      · rw [flushed, Ledger.change, Ledger.flush_of_isEmpty Ledger.waiting_flush]
      · rw [due, Ledger.change]
    · rw [if_neg here]
      exact (ledgers other).imp id fun due => ⟨due.1, due.2.imp id fun rest => .inl
        (rest.resolve_right fun flush => here flush.1.symm)⟩

/-- A save that has begun goes through all accumulators. -/
theorem Saving.list (saving : writer.Saving saver settled threshold events)
    (accounts : writer.collection.Accounts threshold adds events) {tasks : List ThreadTask}
    {entries : List (Trigram × Handle)}
    (next : writer.collection.threads saver = ⟨.save :: tasks, .idle⟩)
    (all : entries.Perm writer.collection.handles.toList) :
    Saving saver settled threshold (events ++ [])
      ⟨writer.collection.set saver
        ⟨entries.map (fun entry => .flush entry.1 entry.2) ++ .await :: tasks, .idle⟩,
        writer.pool⟩ := by
  have last : tasks = [] := by
    rcases saving.stage with begun | ⟨left, eq⟩ | ⟨done, -⟩
    · rw [next] at begun
      cases begun
      rfl
    · rw [next] at eq
      cases left <;> cases eq
    · rw [next] at done
      cases done
  subst last
  refine saving.set rfl ?_ (fun trigram => ?_) (.inl ⟨entries, rfl⟩)
  · rw [Thread.additions, List.filterMap_append, filterMap_addition?_flushes]
    rfl
  · rw [List.append_nil]
    refine (saving.ledgers trigram).elim .inl fun due => ?_
    cases found : writer.collection.handles.find? trigram with
    | none =>
        have unseen := accounts.unseen trigram found
        rw [unseen, due.1.symm.trans unseen]
        exact .inl rfl
    | some handle =>
        have listed := all.mem_iff.mpr (SortedMap.find?_eq_some_iff.mp found)
        exact .inr ⟨due.1, .inr (.inl ⟨handle,
          List.mem_append_left _ (List.mem_map.mpr ⟨_, listed, rfl⟩)⟩)⟩

/-- It comes to the next accumulator. -/
theorem Saving.turn (saving : writer.Saving saver settled threshold events)
    {tasks : List ThreadTask} {handle : Handle}
    (next : writer.collection.threads saver = ⟨.flush trigram handle :: tasks, .idle⟩) :
    Saving saver settled threshold (events ++ [])
      ⟨writer.collection.set saver ⟨tasks, .use trigram handle (.lock none)⟩, writer.pool⟩ := by
  have without := saving.additions
  have ledgers := saving.ledgers
  rw [next] at without ledgers
  refine saving.set rfl without (fun other => ?_) (.inl ?_)
  · rw [List.append_nil]
    refine (ledgers other).imp id fun due => ⟨due.1, ?_⟩
    rcases due.2 with save | ⟨address, flush⟩ | idle
    · exact .inl ((List.mem_cons.mp save).resolve_left (by simp))
    · rcases List.mem_cons.mp flush with here | later
      · cases here
        exact .inr (.inr ⟨rfl, rfl⟩)
      · exact .inr (.inl ⟨address, later⟩)
    · exact idle.elim
  · rcases saving.stage with begun | ⟨left, eq⟩ | ⟨done, -⟩
    · rw [next] at begun
      cases begun
    · rw [next] at eq
      cases left with
      | nil => cases eq
      | cons entry left => exact ⟨left, (List.cons_eq_cons.mp eq).2⟩
    · rw [next] at done
      cases done

/-- It ends when nothing is in flight. -/
theorem Saving.await (saving : writer.Saving saver settled threshold events)
    {tasks : List ThreadTask}
    (next : writer.collection.threads saver = ⟨.await :: tasks, .idle⟩)
    (idle : writer.pool.inFlight = 0) :
    Saving saver settled threshold (events ++ [])
      ⟨writer.collection.set saver ⟨tasks, .idle⟩, writer.pool⟩ := by
  have ledgers := saving.ledgers
  have last : tasks = [] := by
    rcases saving.stage with begun | ⟨left, eq⟩ | ⟨done, -⟩
    · rw [next] at begun
      cases begun
    · rw [next] at eq
      cases left with
      | nil => exact (List.cons_eq_cons.mp eq).2
      | cons entry left => cases eq
    · rw [next] at done
      cases done
  subst last
  rw [next] at ledgers
  refine saving.set rfl rfl (fun trigram => ?_) (.inr ⟨rfl, idle⟩)
  rw [List.append_nil]
  refine .inl ((ledgers trigram).resolve_right fun due => ?_)
  simpa [Thread.WillFlush, ThreadPhase.WillFlush] using due.2

/-- A step during a save. -/
theorem Saving.step (saving : writer.Saving saver settled threshold events)
    (accounts : writer.collection.Accounts threshold adds events)
    (step : writer.Step threshold workerOf base told later) :
    later.Saving saver settled threshold (events ++ told) := by
  have adding {tasks : List ThreadTask} {phase : ThreadPhase} {addition : Trigram × DocumentKey}
      {rest : List (Trigram × DocumentKey)}
      (state : writer.collection.threads saver = ⟨tasks, phase⟩)
      (adds : Thread.additions ⟨tasks, phase⟩ = addition :: rest) : False := by
    have without := saving.additions
    rw [state, adds] at without
    cases without
  have silent (trigram : Trigram) : ledger threshold (events ++ []) trigram =
      ledger threshold events trigram := by rw [List.append_nil]
  have unflushing {trigram : Trigram} {handle : Handle} {stage : ThreadStage} {next : ThreadPhase}
      (calm : stage.flushes = false) (other : Trigram)
      (flushes : (ThreadPhase.use trigram handle stage).WillFlush other) : next.WillFlush other :=
    absurd flushes (ThreadPhase.not_willFlush_use calm)
  cases step with
  | collect step =>
      cases step with
      | find next =>
          obtain rfl := saving.eq_saver next (by simp)
          exact (adding next rfl).elim
      | miss next =>
          obtain rfl := saving.eq_saver next (by simp)
          exact (adding next rfl).elim
      | share phase =>
          obtain rfl := saving.eq_saver phase (by simp)
          exact (adding phase rfl).elim
      | make phase =>
          obtain rfl := saving.eq_saver phase (by simp)
          exact (adding phase rfl).elim
      | list next all =>
          obtain rfl := saving.eq_saver next (by simp)
          exact saving.list accounts next all
      | turn next =>
          obtain rfl := saving.eq_saver next (by simp)
          exact saving.turn next
      | lock phase =>
          obtain rfl := saving.eq_saver phase (by simp)
          exact saving.calm rfl phase rfl (fun _ => id) silent
      | change phase =>
          obtain rfl := saving.eq_saver phase (by simp)
          exact saving.change rfl phase
      | unlock phase =>
          obtain rfl := saving.eq_saver phase (by simp)
          exact saving.calm rfl phase rfl (unflushing rfl) silent
  | announce phase =>
      obtain rfl := saving.eq_saver phase (by simp)
      exact saving.calm rfl phase rfl (unflushing rfl) silent
  | send phase =>
      obtain rfl := saving.eq_saver phase (by simp)
      exact saving.calm rfl phase rfl (unflushing rfl) fun trigram =>
        ledger_append_submitted trigram _
  | await next idle =>
      obtain rfl := saving.eq_saver next (by simp)
      exact saving.await next idle
  | work step =>
      rw [List.append_nil]
      refine ⟨saving.others, saving.additions, saving.ledgers, ?_⟩
      rcases saving.stage with begun | left | ⟨done, idle⟩
      · exact .inl begun
      · exact .inr (.inl left)
      · exact .inr (.inr ⟨done, Nat.eq_zero_of_le_zero (idle ▸ step.inFlight_le)⟩)

/-- A thread begins to save when all have returned. -/
theorem Returned.saving (returned : writer.Returned) (saver : Fin threads)
    (events : List (WriterEvent threads)) :
    (writer.call saver .save).Saving saver (ledger threshold events) threshold events := by
  have begun : (writer.call saver .save).collection.threads saver = ⟨[.save], .idle⟩ := by
    rw [call, threads_set_self, returned saver]
    rfl
  refine ⟨fun thread other => ?_, by rw [begun]; rfl, fun trigram => .inr ⟨rfl, ?_⟩, .inl begun⟩
  · rw [call, threads_set_of_ne _ _ _ other, returned thread]
  · rw [begun]
    exact .inl List.mem_cons_self

/-- A save goes on to its end. -/
theorem Saving.run (saving : writer.Saving saver settled threshold events)
    (inStep : writer.InStep root own location folder threshold workerOf adds events)
    (wide : ∀ thread, ∀ addition ∈ adds thread, 3 ≤ addition.1.length)
    (run : writer.Run threshold workerOf (root / folder) told later) :
    later.Saving saver settled threshold (events ++ told) := by
  induction run with
  | refl =>
      rw [List.append_nil]
      exact saving
  | tail before step ih =>
      rw [← List.append_assoc]
      exact ih.step (inStep.run wide before).accounts step

/-- A save that has ended has flushed every ledger and left nothing in flight. -/
theorem Saving.ended (saving : writer.Saving saver settled threshold events)
    (returned : writer.Returned) :
    writer.pool.inFlight = 0 ∧
      ∀ trigram, ledger threshold events trigram = (settled trigram).flush := by
  have ledgers := saving.ledgers
  rw [returned saver] at ledgers
  refine ⟨?_, fun trigram => (ledgers trigram).resolve_right fun due => ?_⟩
  · rcases saving.stage with begun | ⟨left, eq⟩ | ⟨-, idle⟩
    · rw [returned saver] at begun
      cases begun
    · rw [returned saver] at eq
      cases left <;> cases eq
    · exact idle
  · simpa [Thread.WillFlush, ThreadPhase.WillFlush] using due.2

/-! ## After the save -/

/-- When all threads have returned and nothing is in flight, the files are those of the ledgers. -/
theorem InStep.written
    (inStep : writer.InStep root own location folder threshold workerOf adds events)
    (returned : writer.Returned) (idle : writer.pool.inFlight = 0) (wide : 3 ≤ trigram.length) :
    Written location folder writer.pool.tree trigram (ledger threshold events trigram) := by
  obtain ⟨accounts, delivers, loaded⟩ := inStep
  have unloaded : writer.pool.load = 0 := by omega
  obtain ⟨empty, resting⟩ := Pool.eq_nil_of_load unloaded (workerOf trigram)
  obtain ⟨counted, fits, sent, delivered⟩ := delivers.files trigram
  have nothing : writer.pool.sent workerOf trigram = [] := by
    rw [Pool.sent, Pool.waiting, resting, empty]
    rfl
  have unsent : writer.collection.unsent? trigram = none := by
    rw [unsent?, Option.bind_eq_none_iff]
    intro handle _
    rw [Option.bind_eq_none_iff]
    intro thread _
    rw [returned thread]
    rfl
  have handed := accounts.handed trigram
  rw [unsent, Option.toList_none, List.append_nil] at handed
  have all : counted = (shardsOf events trigram).length :=
    Nat.le_antisymm fits (List.drop_eq_nil_iff.mp (sent.trans nothing))
  have files := delivered wide
  rw [resting, show WorkerPhase.idle.ahead trigram = 0 from rfl, Nat.add_zero, all, handed] at files
  exact files.written

/-- Calls without a save are the keys that they add. -/
theorem map_additionsIn {calls : List WriterCall} (unsaved : .save ∉ calls) :
    (additionsIn calls).map (fun addition => .add addition.1 addition.2) = calls := by
  rw [additionsIn]
  induction calls with
  | nil => rfl
  | cons call rest ih =>
      rw [List.mem_cons, not_or] at unsaved
      cases call with
      | add trigram key => exact congrArg (WriterCall.add trigram key :: ·) (ih unsaved.2)
      | save => exact absurd rfl unsaved.1

/-- When all threads have returned, the keys that they were to add have been added in some order. -/
theorem InStep.callsOf_perm
    (inStep : writer.InStep root own location folder threshold workerOf adds events)
    (returned : writer.Returned) :
    (callsOf events).Perm
      (((List.finRange threads).flatMap adds).map fun addition => .add addition.1 addition.2) := by
  rw [List.map_flatMap]
  refine (WriterEvent.callsOf_perm events).trans (.of_eq (List.flatMap_congr fun thread _ => ?_))
  have added := inStep.accounts.added thread
  rw [returned thread] at added
  rw [(List.append_nil _).symm.trans added]

/-- The calls of all threads. -/
def allCalls (calls : Fin threads → List WriterCall) : List WriterCall :=
  (List.finRange threads).flatMap calls

/-- Without a save these are all calls. -/
theorem map_additions {calls : Fin threads → List WriterCall}
    (unsaved : ∀ thread, .save ∉ calls thread) :
    ((List.finRange threads).flatMap (additions calls)).map
      (fun addition => .add addition.1 addition.2) = allCalls calls := by
  rw [List.map_flatMap]
  exact List.flatMap_congr fun thread _ => map_additionsIn (unsaved thread)

theorem mem_allCalls {calls : Fin threads → List WriterCall} {call : WriterCall} :
    call ∈ allCalls calls ↔ ∃ thread, call ∈ calls thread := by
  simp [allCalls]

/-- A last save leaves the files of the calls in the order in which the keys were inserted. -/
theorem InStep.written_of_save
    (inStep : writer.InStep root own location folder threshold workerOf adds events)
    (wide : ∀ thread, ∀ addition ∈ adds thread, 3 ≤ addition.1.length)
    (unflushed : ∀ trigram, flushed trigram ∉ events) (returned : writer.Returned)
    (save : (writer.call saver .save).Run threshold workerOf (root / folder) told later)
    (returned' : later.Returned) (wideTrigram : 3 ≤ trigram.length) :
    Written location folder later.pool.tree trigram
      (Ledger.after threshold trigram {} (callsOf events)).flush := by
  have saving := inStep.save saver
  obtain ⟨idle, flushed⟩ := ((returned.saving saver events).run saving wide save).ended returned'
  have written := (saving.run wide save).written returned' idle wideTrigram
  rwa [flushed, ledger_eq_after unflushed] at written

/-- Threads that start with calls and a last save leave the files of these calls in some order. -/
theorem written_of_save {tree : FileTree} (site : Namespace root own location folder tree)
    (named : tree.WellNamed) (fresh : ∀ names, tree.fileAt? (location ++ folder :: names) = none)
    {calls : Fin threads → List WriterCall} (wide : ∀ thread, ∀ call ∈ calls thread, call.IsWide)
    (unsaved : ∀ thread, .save ∉ calls thread)
    (run : (start calls tree).Run (max threshold 1) workerOf (root / folder) events writer)
    (returned : writer.Returned)
    (save : (writer.call saver .save).Run (max threshold 1) workerOf (root / folder) told later)
    (returned' : later.Returned) :
    (callsOf events).Perm (allCalls calls) ∧
      Namespace root own location folder later.pool.tree ∧ later.pool.tree.WellNamed ∧
      ∀ trigram : Trigram, 3 ≤ trigram.length → Written location folder later.pool.tree trigram
        (Ledger.ofCalls threshold (callsOf events) trigram).flush := by
  have added : writer.InStep root own location folder (max threshold 1) workerOf (additions calls)
      events :=
    (inStep_start site named fresh _ workerOf calls).run (wide_additions wide) run
  have saved := (added.save saver).run (wide_additions wide) save
  have unflushed := (not_flushed_of_run (onlyAdds_start unsaved tree) run).2
  refine ⟨map_additions unsaved ▸ added.callsOf_perm returned, saved.delivers.site,
    saved.delivers.named, fun trigram => ?_⟩
  exact added.written_of_save (wide_additions wide) unflushed returned save returned'

/-- **Threads that share a writer neither lose nor reorder postings.**  Start in a namespace without
files, let threads add keys and save in any interleaving, and let no write fail.  Then at every
moment the shards of a trigram have been submitted in the order of their generations and its files
are those of the first of them.  When the threads have only added keys and a save that comes last
returns, each trigram has the set of keys that the calls leave in any order.  The count and the
number of shards are those of the calls in one order, and of the calls in any order if no key was
added twice. -/
theorem interleaved_adds_stored {tree : FileTree} (site : Namespace root own location folder tree)
    (named : tree.WellNamed) (fresh : ∀ names, tree.fileAt? (location ++ folder :: names) = none)
    {calls : Fin threads → List WriterCall} (wide : ∀ thread, ∀ call ∈ calls thread, call.IsWide)
    {now : SharedWriter threads workers}
    (run : (start calls tree).Run (max threshold 1) workerOf (root / folder) events now) :
    (∀ trigram : Trigram, 3 ≤ trigram.length →
      now.WritesInOrder (root / folder) workerOf events trigram) ∧
    ∀ {saver : Fin threads} {told : List (WriterEvent threads)}
      {done : SharedWriter threads workers},
      (∀ thread, .save ∉ calls thread) → now.Returned →
      (now.call saver .save).Run (max threshold 1) workerOf (root / folder) told done →
      done.Returned →
      ∃ observed : List WriterCall, observed.Perm (allCalls calls) ∧
        ∀ {order : List WriterCall} {writer : PostingsWriter} {saved : FileTree},
          order.Perm (allCalls calls) →
          PostingsWriter.runAll (order ++ [.save]) (.new (root / folder) threshold) tree =
            ((.ok (), writer), saved) →
          ∀ trigram : Trigram, 3 ≤ trigram.length → ∃ shards shards',
            StoresKeys (root / folder) (max threshold 1) done.pool.tree trigram
                (.ofList (WriterCall.keysFor order trigram)) shards ∧
              StoresKeys (root / folder) (max threshold 1) saved trigram
                (.ofList (WriterCall.keysFor order trigram)) shards' ∧
              (order = observed → shards = shards') ∧
              ((WriterCall.keysFor order trigram).Nodup → shards.length = shards'.length ∧
                (shards.map SortedSet.size).sum = (shards'.map SortedSet.size).sum) := by
  have inStep := (inStep_start site named fresh (max threshold 1) workerOf calls).run
    (wide_additions wide) run
  refine ⟨fun trigram wideTrigram => inStep.writesInOrder (wide_additions wide) wideTrigram,
    fun {saver told done} unsaved returned save returned' => ?_⟩
  obtain ⟨perm, site', named', written⟩ :=
    written_of_save site named fresh wide unsaved run returned save returned'
  refine ⟨callsOf events, perm, fun {order writer saved} perm' sequential trigram wideTrigram => ?_⟩
  have keys : (WriterCall.keysFor (callsOf events) trigram).Perm
      (WriterCall.keysFor order trigram) := (perm.trans perm'.symm).filterMap _
  have wideOrder : ∀ call ∈ order, call.IsWide := fun call member =>
    (mem_allCalls.mp (perm'.mem_iff.mp member)).elim fun thread made => wide thread call made
  have unsavedOrder {order : List WriterCall} (perm : order.Perm (allCalls calls)) :
      .save ∉ order := fun member =>
    (mem_allCalls.mp (perm.mem_iff.mp member)).elim unsaved
  obtain ⟨stays, -, -, written'⟩ := PostingsWriter.written_of_runAll site fresh wideOrder sequential
  refine ⟨_, _, (written trigram wideTrigram).storesKeys site' named'
      (Ledger.bounded_ofCalls threshold _ trigram).flush
      fun key => Ledger.holds_ofCalls.trans keys.mem_iff,
    (written' trigram).storesKeys (site.step stays) (stays.named named)
      (Ledger.bounded_ofCalls threshold _ trigram).flush fun key => Ledger.holds_ofCalls,
    fun same => by rw [same], fun distinct => ?_⟩
  have filled := Ledger.filled_ofCalls threshold (unsavedOrder perm) (keys.nodup_iff.mpr distinct)
  have filled' := Ledger.filled_ofCalls threshold (unsavedOrder perm') distinct
  rw [keys.length_eq] at filled
  exact ⟨filled.length_flush.trans filled'.length_flush.symm,
    filled.total_flush_eq.trans filled'.total_flush_eq.symm⟩

/-! ### Samples -/

/-- The folder of the samples. -/
def sampleBase : Path := emptyIndexRoot / "postings"

/-- Two threads with a key each for one trigram. -/
def racingCalls : Fin 2 → List WriterCall
  | 0 => [.add "abc" "1"]
  | 1 => [.add "abc" "2"]

/-- Both threads miss the accumulator, the first makes it, and the second fills a shard, which the
worker begins to write before the thread gives the lock back. -/
def racingTurns : List (Turn 2 1) :=
  [.thread 0, .thread 1, .thread 0, .thread 1, .thread 0, .thread 0, .thread 0, .thread 1,
    .thread 1, .thread 1, .thread 1, .worker 0, .worker 0, .thread 1, .worker 0, .worker 0]

theorem interleaved_adds_stored_sample :
    ∃ (now done : SharedWriter 2 1) (writer : PostingsWriter) (saved : FileTree)
      (shards shards' : List (SortedSet DocumentKey)),
      (∃ events, (start racingCalls emptyIndexTree).Run 2 (fun _ => 0) sampleBase events now) ∧
      now.Returned ∧ (∃ told, (now.call 0 .save).Run 2 (fun _ => 0) sampleBase told done) ∧
      done.Returned ∧
      PostingsWriter.runAll ([.add "abc" "2", .add "abc" "1"] ++ [.save]) (.new sampleBase 2)
        emptyIndexTree = ((.ok (), writer), saved) ∧
      StoresKeys sampleBase 2 done.pool.tree "abc" (.ofList ["2", "1"]) shards ∧
      StoresKeys sampleBase 2 saved "abc" (.ofList ["2", "1"]) shards' ∧
      shards.length = shards'.length := by
  have follows : ((start racingCalls emptyIndexTree).saveAfter? 2 (fun _ => 0) sampleBase
      racingTurns 0 (.replicate 6 (.thread 0))).isSome = true := by decide +kernel
  obtain ⟨⟨now, done⟩, follows⟩ := Option.isSome_iff_exists.mp follows
  obtain ⟨⟨events, run⟩, returned, ⟨told, save⟩, returned'⟩ := runs_of_saveAfter? follows
  obtain ⟨writer, saved, sequential⟩ := PostingsWriter.exists_of_runAll
    (show (PostingsWriter.runAll ([.add "abc" "2", .add "abc" "1"] ++ [.save]) (.new sampleBase 2)
      emptyIndexTree).1.1.toOption = some () by decide +kernel)
  have wide : ∀ thread, ∀ call ∈ racingCalls thread, call.IsWide := by decide
  have unsaved : ∀ thread, .save ∉ racingCalls thread := by decide
  obtain ⟨-, last⟩ := interleaved_adds_stored namespace_emptyIndexTree wellNamed_emptyIndexTree
    (FileTree.fileAt?_of_none rfl) wide (show Run (max 2 1) _ _ _ events now from run)
  obtain ⟨observed, -, same⟩ := last unsaved returned save returned'
  obtain ⟨shards, shards', stores, stores', -, counts⟩ :=
    same (by decide) sequential "abc" (by decide)
  exact ⟨now, done, writer, saved, shards, shards', ⟨events, run⟩, returned, ⟨told, save⟩,
    returned', sequential, stores, stores', (counts (by decide)).1⟩

/-- With a key that is added twice the count depends on the order: it is three if the second time
comes after the flush of a shard that has the key, and two before. -/
theorem count_depends_on_order :
    ∃ (now done : SharedWriter 1 1) (writer : PostingsWriter) (saved : FileTree),
      (∃ events, (start (fun _ => [.add "abc" "1", .add "abc" "1", .add "abc" "2"])
        emptyIndexTree).Run 2 (fun _ => 0) sampleBase events now) ∧
      now.Returned ∧ (∃ told, (now.call 0 .save).Run 2 (fun _ => 0) sampleBase told done) ∧
      done.Returned ∧
      PostingsWriter.runAll ([.add "abc" "1", .add "abc" "2", .add "abc" "1"] ++ [.save])
        (.new sampleBase 2) emptyIndexTree = ((.ok (), writer), saved) ∧
      (done.pool.tree.read (Postings.countFile sampleBase "abc")).toOption =
        some (countBytes "abc" 2) ∧
      (saved.read (Postings.countFile sampleBase "abc")).toOption = some (countBytes "abc" 3) := by
  have follows : ((start (fun _ => [.add "abc" "1", .add "abc" "1", .add "abc" "2"])
      emptyIndexTree).saveAfter? 2 (fun _ => (0 : Fin 1)) sampleBase (.replicate 15 (.thread 0))
        (0 : Fin 1) (.replicate 5 (.thread 0) ++ .replicate 4 (.worker 0) ++ [.thread 0])).map
          (fun runs => (runs.2.pool.tree.read (Postings.countFile sampleBase "abc")).toOption) =
      some (some (countBytes "abc" 2)) := by decide +kernel
  obtain ⟨⟨now, done⟩, follows, count⟩ := Option.map_eq_some_iff.mp follows
  obtain ⟨events, returned, told, returned'⟩ := runs_of_saveAfter? follows
  have saves : (PostingsWriter.runAll ([.add "abc" "1", .add "abc" "2", .add "abc" "1"] ++ [.save])
        (.new sampleBase 2) emptyIndexTree).1.1.toOption = some () ∧
      ((PostingsWriter.runAll ([.add "abc" "1", .add "abc" "2", .add "abc" "1"] ++ [.save])
        (.new sampleBase 2) emptyIndexTree).2.read (Postings.countFile sampleBase "abc")).toOption =
          some (countBytes "abc" 3) := by decide +kernel
  obtain ⟨writer, saved, sequential⟩ := PostingsWriter.exists_of_runAll saves.1
  have count' := saves.2
  rw [sequential] at count'
  exact ⟨now, done, writer, saved, events, returned, told, returned', sequential, count, count'⟩

end SharedWriter

end SourceSearch
