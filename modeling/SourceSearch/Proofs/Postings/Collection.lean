import SourceSearch.Proofs.Postings.Events

/-!
# Threads that collect postings

A trigram never gets a second accumulator, and a lock never has two holders.  So whatever the
interleaving is, the accumulator of a trigram goes through the states of one ledger, and its shards
are submitted in the order of their generations.
-/

namespace SourceSearch

/-! ## What a thread holds -/

namespace ThreadStage

/-- The thread holds the lock. -/
def locks : ThreadStage → Bool
  | lock _ => false
  | _ => true

/-- The shard that has been taken and is not yet in a queue. -/
def ready? : ThreadStage → Option ReadyShard
  | announce ready => some ready
  | send ready => some ready
  | _ => none

/-- The key that is still to be inserted. -/
def key? : ThreadStage → Option DocumentKey
  | lock key? => key?
  | change key? => key?
  | _ => none

end ThreadStage

namespace ThreadPhase

/-- The accumulator whose lock is held. -/
def held? : ThreadPhase → Option Handle
  | use _ handle stage => if stage.locks then some handle else none
  | _ => none

/-- The shard that has been taken and is not yet in a queue. -/
def ready? : ThreadPhase → Option ReadyShard
  | use _ _ stage => stage.ready?
  | _ => none

/-- The key that is still to be inserted, with its trigram. -/
def addition? : ThreadPhase → Option (Trigram × DocumentKey)
  | idle => none
  | make trigram key => some (trigram, key)
  | use trigram _ stage => stage.key?.map fun key => (trigram, key)

end ThreadPhase

/-- The key that a task adds, with its trigram. -/
def ThreadTask.addition? : ThreadTask → Option (Trigram × DocumentKey)
  | .add trigram key => some (trigram, key)
  | _ => none

/-- Flushes add no keys. -/
theorem filterMap_addition?_flushes (entries : List (Trigram × Handle)) :
    (entries.map fun entry => ThreadTask.flush entry.1 entry.2).filterMap ThreadTask.addition? =
      [] := by
  simp [List.filterMap_map, Function.comp_def, ThreadTask.addition?]

namespace Thread

/-- The keys that a thread has still to insert. -/
def additions (thread : Thread) : List (Trigram × DocumentKey) :=
  thread.phase.addition?.toList ++ thread.tasks.filterMap ThreadTask.addition?

/-- The thread knows the accumulator of a trigram. -/
def Knows (thread : Thread) (trigram : Trigram) (handle : Handle) : Prop :=
  (∃ stage, thread.phase = .use trigram handle stage) ∨ .flush trigram handle ∈ thread.tasks

theorem knows_use {tasks : List ThreadTask} {trigram other : Trigram} {handle address : Handle}
    {stage : ThreadStage} :
    Knows ⟨tasks, .use trigram handle stage⟩ other address ↔
      (other = trigram ∧ address = handle) ∨ .flush other address ∈ tasks := by
  simp only [Knows, ThreadPhase.use.injEq]
  grind

theorem knows_idle {tasks : List ThreadTask} {other : Trigram} {address : Handle} :
    Knows ⟨tasks, .idle⟩ other address ↔ .flush other address ∈ tasks := by
  simp [Knows]

end Thread

namespace Collection

variable {threads : Nat} {collection later : Collection threads} {thread : Fin threads}
  {trigram other : Trigram} {handle : Handle} {stage : ThreadStage} {changed : Thread}

/-- Accumulators and locks are in order. -/
structure Sound (collection : Collection threads) : Prop where
  /-- The accumulators that threads know are those of their trigrams. -/
  known : ∀ thread trigram handle, (collection.threads thread).Knows trigram handle →
    collection.handles.find? trigram = some handle
  /-- The owner of a lock is the thread that holds it. -/
  owned : ∀ thread handle, (collection.memory handle).owner = some thread ↔
    (collection.threads thread).phase.held? = some handle
  /-- Addresses in use are below the fresh one. -/
  bounded : ∀ trigram handle, collection.handles.find? trigram = some handle →
    handle < collection.fresh
  /-- Trigrams do not share an accumulator. -/
  apart : ∀ trigram other handle, collection.handles.find? trigram = some handle →
    collection.handles.find? other = some handle → trigram = other

/-- The shard of a trigram that has been taken and is not yet in a queue. -/
def unsent? (collection : Collection threads) (trigram : Trigram) : Option ReadyShard :=
  (collection.handles.find? trigram).bind fun handle =>
    (collection.memory handle).owner.bind fun thread => (collection.threads thread).phase.ready?

theorem Sound.set (sound : collection.Sound)
    (known : ∀ trigram handle, changed.Knows trigram handle →
      collection.handles.find? trigram = some handle)
    (held : changed.phase.held? = (collection.threads thread).phase.held?) :
    (collection.set thread changed).Sound where
  known one trigram handle knows := by
    by_cases same : one = thread
    · subst same
      rw [threads_set_self] at knows
      exact known trigram handle knows
    · rw [threads_set_of_ne _ _ _ same] at knows
      exact sound.known one trigram handle knows
  owned one handle := by
    by_cases same : one = thread
    · subst same
      rw [threads_set_self, held]
      exact sound.owned one handle
    · rw [threads_set_of_ne _ _ _ same]
      exact sound.owned one handle
  bounded := sound.bounded
  apart := sound.apart

/-- A thread that uses an accumulator whose lock is free or its own holds no other lock. -/
theorem held?_of_use {tasks : List ThreadTask} {address : Handle}
    (phase : collection.threads thread = ⟨tasks, .use trigram handle stage⟩)
    (held : (collection.threads thread).phase.held? = some address) : address = handle := by
  rw [phase, ThreadPhase.held?] at held
  split at held
  · exact (Option.some.inj held).symm
  · cases held

/-- A lock that is free or held by a thread has no other owner. -/
theorem Sound.owner_of_use (sound : collection.Sound) {tasks : List ThreadTask}
    (phase : collection.threads thread = ⟨tasks, .use trigram handle stage⟩)
    (free : stage.locks = true ∨ (collection.memory handle).owner = none) {one : Fin threads}
    (owner : (collection.memory handle).owner = some one) : one = thread := by
  rcases free with locks | free
  · have mine := (sound.owned thread handle).mpr (by rw [phase, ThreadPhase.held?, if_pos locks])
    exact Option.some.inj (owner.symm.trans mine)
  · rw [free] at owner
    cases owner

/-- A thread works on an accumulator whose lock is free or its own. -/
theorem Sound.work (sound : collection.Sound) {tasks : List ThreadTask}
    (phase : collection.threads thread = ⟨tasks, .use trigram handle stage⟩)
    (free : stage.locks = true ∨ (collection.memory handle).owner = none)
    {accumulator : Accumulator threads} {next : ThreadPhase}
    (stays : next = .idle ∨ ∃ stage, next = .use trigram handle stage)
    (owner : accumulator.owner = if next.held? = some handle then some thread else none) :
    ((collection.put handle accumulator).set thread ⟨tasks, next⟩).Sound where
  known one other address knows := by
    by_cases same : one = thread
    · subst same
      have knew (flush : .flush other address ∈ tasks) :
          collection.handles.find? other = some address :=
        sound.known one other address (by rw [phase]; exact .inr flush)
      rw [threads_set_self] at knows
      rcases knows with ⟨stage', uses⟩ | flush
      · rcases stays with rfl | ⟨stage'', rfl⟩
        · cases uses
        · cases uses
          exact sound.known one _ _ (by rw [phase]; exact .inl ⟨stage, rfl⟩)
      · exact knew flush
    · rw [threads_set_of_ne _ _ _ same] at knows
      exact sound.known one other address knows
  owned one address := by
    by_cases here : address = handle
    · subst here
      rw [memory_set, memory_put_self, owner]
      by_cases same : one = thread
      · subst same
        simp
      · rw [threads_set_of_ne _ _ _ same, threads_put, ← sound.owned]
        have absent : (collection.memory address).owner ≠ some one := fun other =>
          same (sound.owner_of_use phase free other)
        simp [absent, Ne.symm same]
    · rw [memory_set, memory_put_of_ne _ _ _ here, sound.owned]
      by_cases same : one = thread
      · subst same
        have before : (collection.threads one).phase.held? ≠ some address := fun held =>
          here (held?_of_use phase held)
        have after : next.held? ≠ some address := by
          rcases stays with rfl | ⟨stage', rfl⟩
          · simp [ThreadPhase.held?]
          · rw [ThreadPhase.held?]
            split
            · simpa using Ne.symm here
            · simp
        rw [threads_set_self]
        simp only [before, after]
      · rw [threads_set_of_ne _ _ _ same, threads_put]
  bounded := sound.bounded
  apart := sound.apart

/-- What a thread holds is the accumulator of a trigram. -/
theorem Sound.find?_of_held? (sound : collection.Sound)
    (held : (collection.threads thread).phase.held? = some handle) :
    ∃ trigram, collection.handles.find? trigram = some handle := by
  cases phase : (collection.threads thread).phase with
  | use trigram address stage =>
      rw [phase, ThreadPhase.held?] at held
      split at held
      · cases held
        exact ⟨trigram, sound.known thread trigram _ (.inl ⟨stage, phase⟩)⟩
      · cases held
  | _ => simp [phase, ThreadPhase.held?] at held

theorem Sound.allocate (sound : collection.Sound)
    (missing : collection.handles.find? trigram = none) : (collection.allocate trigram).Sound where
  known one other address knows := by
    have found := sound.known one other address knows
    rw [find?_handles_allocate, if_neg]
    · exact found
    · rintro rfl
      rw [missing] at found
      cases found
  owned one address := by
    by_cases new : address = collection.fresh
    · subst new
      have unheld : (collection.threads one).phase.held? ≠ some collection.fresh := fun held => by
        obtain ⟨other, found⟩ := sound.find?_of_held? held
        exact absurd (sound.bounded other _ found) (Nat.lt_irrefl _)
      simp [unheld]
    · rw [memory_allocate_of_ne _ _ new, threads_allocate]
      exact sound.owned one address
  bounded other address found := by
    rw [find?_handles_allocate] at found
    split at found
    · cases found
      exact Nat.lt_succ_self _
    · exact Nat.lt_succ_of_lt (sound.bounded other address found)
  apart one other address first second := by
    rw [find?_handles_allocate] at first second
    split at first <;> split at second
    · rename_i same same'
      rw [same, same']
    · cases first
      exact absurd (sound.bounded other _ second) (Nat.lt_irrefl _)
    · cases second
      exact absurd (sound.bounded one _ first) (Nat.lt_irrefl _)
    · exact sound.apart one other address first second

/-! ## Shards between accumulator and queue -/

theorem unsent?_of_find? (found : collection.handles.find? trigram = some handle) :
    collection.unsent? trigram =
      (collection.memory handle).owner.bind fun thread =>
        (collection.threads thread).phase.ready? := by
  rw [unsent?, found, Option.bind_some]

theorem unsent?_of_none (missing : collection.handles.find? trigram = none) :
    collection.unsent? trigram = none := by
  rw [unsent?, missing, Option.bind_none]

theorem unsent?_set (same : changed.phase.ready? = (collection.threads thread).phase.ready?) :
    (collection.set thread changed).unsent? other = collection.unsent? other := by
  have phases (one : Fin threads) : ((collection.set thread changed).threads one).phase.ready? =
      (collection.threads one).phase.ready? := by
    by_cases here : one = thread
    · subst here
      rw [threads_set_self, same]
    · rw [threads_set_of_ne _ _ _ here]
  simp only [unsent?, phases, handles_set, memory_set]

theorem unsent?_allocate (sound : collection.Sound)
    (missing : collection.handles.find? trigram = none) :
    (collection.allocate trigram).unsent? other = collection.unsent? other := by
  have finds := find?_handles_allocate collection trigram other
  by_cases same : other = trigram
  · rw [if_pos same] at finds
    rw [unsent?_of_find? finds, memory_allocate_fresh, same, unsent?_of_none missing]
    rfl
  · rw [if_neg same] at finds
    cases found : collection.handles.find? other with
    | none => rw [unsent?_of_none found, unsent?_of_none (finds.trans found)]
    | some handle =>
        have used := Nat.ne_of_lt (sound.bounded other handle found)
        rw [unsent?_of_find? found, unsent?_of_find? (finds.trans found),
          memory_allocate_of_ne _ _ used, threads_allocate]

/-- Only the stages under the lock have a shard. -/
theorem ready?_eq_none {next : ThreadPhase}
    (stays : next = .idle ∨ ∃ stage, next = .use trigram handle stage)
    (unheld : next.held? ≠ some handle) : next.ready? = none := by
  rcases stays with rfl | ⟨stage, rfl⟩
  · rfl
  · cases stage with
    | lock key? => rfl
    | _ => simp [ThreadPhase.held?, ThreadStage.locks] at unheld

theorem Sound.unsent?_of_use (sound : collection.Sound) {tasks : List ThreadTask}
    (phase : collection.threads thread = ⟨tasks, .use trigram handle stage⟩)
    (free : stage.locks = true ∨ (collection.memory handle).owner = none) :
    collection.unsent? trigram = stage.ready? := by
  have found := sound.known thread trigram handle (.inl ⟨stage, by rw [phase]⟩)
  rw [unsent?_of_find? found]
  cases locks : stage.locks with
  | true =>
      have mine := (sound.owned thread handle).mpr (by rw [phase, ThreadPhase.held?, if_pos locks])
      rw [mine, Option.bind_some, phase]
      rfl
  | false =>
      rw [free.resolve_left (by simp [locks]), Option.bind_none]
      cases stage <;> simp_all [ThreadStage.locks, ThreadStage.ready?]

theorem Sound.unsent?_work (sound : collection.Sound) {tasks : List ThreadTask}
    (phase : collection.threads thread = ⟨tasks, .use trigram handle stage⟩)
    {accumulator : Accumulator threads} {next : ThreadPhase}
    (stays : next = .idle ∨ ∃ stage, next = .use trigram handle stage)
    (owner : accumulator.owner = if next.held? = some handle then some thread else none) :
    ((collection.put handle accumulator).set thread ⟨tasks, next⟩).unsent? other =
      if other = trigram then next.ready? else collection.unsent? other := by
  have found := sound.known thread trigram handle (.inl ⟨stage, by rw [phase]⟩)
  let later := (collection.put handle accumulator).set thread ⟨tasks, next⟩
  have finds (one : Trigram) : later.handles.find? one = collection.handles.find? one := rfl
  split
  · rename_i same
    rw [same, unsent?_of_find? ((finds trigram).trans found), memory_set, memory_put_self, owner]
    split
    · rw [Option.bind_some, threads_set_self]
    · rename_i unheld
      rw [Option.bind_none, ready?_eq_none stays unheld]
  · rename_i different
    cases located : collection.handles.find? other with
    | none => rw [unsent?_of_none located, unsent?_of_none ((finds other).trans located)]
    | some address =>
        have apart : address ≠ handle := fun same =>
          different (sound.apart other trigram handle (same ▸ located) found)
        rw [unsent?_of_find? located, unsent?_of_find? ((finds other).trans located), memory_set,
          memory_put_of_ne _ _ _ apart]
        refine Option.bind_congr fun one owns => ?_
        have elsewhere : one ≠ thread := by
          rintro rfl
          exact apart (held?_of_use phase ((sound.owned one address).mp owns))
        rw [threads_set_of_ne _ _ _ elsewhere, threads_put]

/-! ## Accounts -/

open WriterEvent

variable {threshold : Nat} {adds : Fin threads → List (Trigram × DocumentKey)}
  {events : List (WriterEvent threads)}

/-- Accumulators are in step with what has been told: with the keys that were inserted and the
shards that were submitted. -/
structure Accounts (threshold : Nat) (adds : Fin threads → List (Trigram × DocumentKey))
    (events : List (WriterEvent threads)) (collection : Collection threads) : Prop where
  /-- Accumulators and locks are in order. -/
  sound : collection.Sound
  /-- Every thread has still to insert what it has not inserted. -/
  added : ∀ thread, additionsOf events thread ++ (collection.threads thread).additions = adds thread
  /-- Accumulators are made for keys. -/
  asked : ∀ trigram handle, collection.handles.find? trigram = some handle →
    ∃ thread key, (trigram, key) ∈ adds thread
  /-- The accumulator of a trigram is that of its ledger. -/
  pending : ∀ trigram handle, collection.handles.find? trigram = some handle →
    (collection.memory handle).pending = (ledger threshold events trigram).pending
  /-- Without an accumulator nothing has happened. -/
  unseen : ∀ trigram, collection.handles.find? trigram = none → ledger threshold events trigram = {}
  /-- The shards of the ledger have been submitted, except for one that a thread holds. -/
  handed : ∀ trigram, shardsOf events trigram ++ (collection.unsent? trigram).toList =
    (ledger threshold events trigram).handed trigram

/-- A thread goes on without touching an accumulator. -/
theorem Accounts.set (accounts : collection.Accounts threshold adds events)
    (known : ∀ trigram handle, changed.Knows trigram handle →
      collection.handles.find? trigram = some handle)
    (held : changed.phase.held? = (collection.threads thread).phase.held?)
    (ready : changed.phase.ready? = (collection.threads thread).phase.ready?)
    (additions : changed.additions = (collection.threads thread).additions) :
    (collection.set thread changed).Accounts threshold adds events where
  sound := accounts.sound.set known held
  added one := by
    by_cases same : one = thread
    · subst same
      rw [threads_set_self, additions]
      exact accounts.added one
    · rw [threads_set_of_ne _ _ _ same]
      exact accounts.added one
  asked := accounts.asked
  pending := accounts.pending
  unseen := accounts.unseen
  handed trigram := by
    rw [unsent?_set ready]
    exact accounts.handed trigram

theorem Accounts.allocate (accounts : collection.Accounts threshold adds events)
    (missing : collection.handles.find? trigram = none) {key : DocumentKey}
    (asked : (trigram, key) ∈ adds thread) :
    (collection.allocate trigram).Accounts threshold adds events where
  sound := accounts.sound.allocate missing
  added := accounts.added
  asked other handle found := by
    rw [find?_handles_allocate] at found
    split at found
    · rename_i same
      exact ⟨thread, key, same ▸ asked⟩
    · exact accounts.asked other handle found
  pending other handle found := by
    rw [find?_handles_allocate] at found
    split at found
    · rename_i same
      cases found
      rw [memory_allocate_fresh, same, accounts.unseen trigram missing]
      rfl
    · have used := Nat.ne_of_lt (accounts.sound.bounded other handle found)
      rw [memory_allocate_of_ne _ _ used]
      exact accounts.pending other handle found
  unseen other missing' := by
    rw [find?_handles_allocate] at missing'
    split at missing'
    · cases missing'
    · exact accounts.unseen other missing'
  handed other := by
    rw [unsent?_allocate accounts.sound missing]
    exact accounts.handed other

/-- A thread works on an accumulator whose lock is free or its own. -/
theorem Accounts.work (accounts : collection.Accounts threshold adds events)
    {tasks : List ThreadTask}
    (phase : collection.threads thread = ⟨tasks, .use trigram handle stage⟩)
    (free : stage.locks = true ∨ (collection.memory handle).owner = none)
    {accumulator : Accumulator threads} {next : ThreadPhase}
    (stays : next = .idle ∨ ∃ stage, next = .use trigram handle stage)
    (owner : accumulator.owner = if next.held? = some handle then some thread else none)
    {told : List (WriterEvent threads)}
    (mine : additionsOf (events ++ told) thread ++ Thread.additions ⟨tasks, next⟩ = adds thread)
    (theirs : ∀ one, one ≠ thread → additionsOf (events ++ told) one = additionsOf events one)
    (pending : accumulator.pending = (ledger threshold (events ++ told) trigram).pending)
    (handed : shardsOf (events ++ told) trigram ++ next.ready?.toList =
      (ledger threshold (events ++ told) trigram).handed trigram)
    (elsewhere : ∀ other, other ≠ trigram →
      ledger threshold (events ++ told) other = ledger threshold events other ∧
        shardsOf (events ++ told) other = shardsOf events other) :
    ((collection.put handle accumulator).set thread ⟨tasks, next⟩).Accounts threshold adds
      (events ++ told) where
  sound := accounts.sound.work phase free stays owner
  added one := by
    by_cases same : one = thread
    · subst same
      rw [threads_set_self, mine]
    · rw [threads_set_of_ne _ _ _ same, theirs one same]
      exact accounts.added one
  asked := accounts.asked
  pending other address found := by
    have here := accounts.sound.known thread trigram handle (.inl ⟨stage, by rw [phase]⟩)
    by_cases same : other = trigram
    · subst same
      obtain rfl : address = handle := Option.some.inj (found.symm.trans here)
      rw [memory_set, memory_put_self, pending]
    · have apart : address ≠ handle := fun eq =>
        same (accounts.sound.apart other trigram handle (eq ▸ found) here)
      rw [memory_set, memory_put_of_ne _ _ _ apart, (elsewhere other same).1]
      exact accounts.pending other address found
  unseen other missing := by
    have here := accounts.sound.known thread trigram handle (.inl ⟨stage, by rw [phase]⟩)
    have different : other ≠ trigram := by
      rintro rfl
      rw [handles_set, handles_put, here] at missing
      cases missing
    rw [(elsewhere other different).1]
    exact accounts.unseen other missing
  handed other := by
    rw [accounts.sound.unsent?_work phase stays owner]
    split
    · rename_i same
      rw [same, handed]
    · rename_i different
      rw [(elsewhere other different).1, (elsewhere other different).2]
      exact accounts.handed other

/-- A thread takes a lock or gives it back. -/
theorem Accounts.turn (accounts : collection.Accounts threshold adds events)
    {tasks : List ThreadTask}
    (phase : collection.threads thread = ⟨tasks, .use trigram handle stage⟩)
    (free : stage.locks = true ∨ (collection.memory handle).owner = none) {next : ThreadPhase}
    (stays : next = .idle ∨ ∃ stage, next = .use trigram handle stage)
    {owner : Option (Fin threads)}
    (owns : owner = if next.held? = some handle then some thread else none)
    (ready : next.ready? = stage.ready?)
    (additions : Thread.additions ⟨tasks, next⟩ = (collection.threads thread).additions) :
    ((collection.put handle { collection.memory handle with owner }).set thread
      ⟨tasks, next⟩).Accounts threshold adds events := by
  have found := accounts.sound.known thread trigram handle (.inl ⟨stage, by rw [phase]⟩)
  have handed := accounts.handed trigram
  rw [accounts.sound.unsent?_of_use phase free, ← ready, ← List.append_nil events] at handed
  rw [← List.append_nil events]
  refine accounts.work phase free stays owns ?_ (fun one _ => ?_) ?_ handed fun other _ => ?_
  · rw [additions, List.append_nil]
    exact accounts.added thread
  · rw [List.append_nil]
  · rw [List.append_nil]
    exact accounts.pending trigram handle found
  · rw [List.append_nil]
    exact ⟨rfl, rfl⟩

/-- A thread changes the accumulator whose lock it holds. -/
theorem Accounts.change (accounts : collection.Accounts threshold adds events)
    {tasks : List ThreadTask} {key? : Option DocumentKey} {ready? : Option ReadyShard}
    {rest : PendingPostings}
    (phase : collection.threads thread = ⟨tasks, .use trigram handle (.change key?)⟩)
    (taken : (collection.memory handle).pending.take threshold trigram key? = (ready?, rest)) :
    ((collection.put handle { collection.memory handle with pending := rest }).set thread
      ⟨tasks, .use trigram handle (.afterChange ready?)⟩).Accounts threshold adds
        (events ++ [.ofChange thread trigram key?]) := by
  have found := accounts.sound.known thread trigram handle (.inl ⟨_, by rw [phase]⟩)
  have mine : (collection.memory handle).owner = some thread :=
    (accounts.sound.owned thread handle).mpr (by rw [phase]; rfl)
  have handed := accounts.handed trigram
  rw [accounts.sound.unsent?_of_use phase (.inl rfl)] at handed
  obtain ⟨taken?, takes, hands⟩ :=
    (ledger threshold events trigram).take_pending threshold trigram key?
  rw [← accounts.pending trigram handle found, taken] at takes
  obtain ⟨rfl, rfl⟩ := Prod.mk.inj takes
  have next : (ThreadPhase.use trigram handle (.afterChange ready?)).ready? = ready? := by
    cases ready? <;> rfl
  have locked : (ThreadPhase.use trigram handle (.afterChange ready?)).held? = some handle := by
    cases ready? <;> rfl
  refine accounts.work phase (.inl rfl) (.inr ⟨_, rfl⟩) ?_ ?_ (fun one other => ?_) ?_ ?_
    fun other different => ⟨?_, ?_⟩
  · rw [locked, if_pos rfl]
    exact mine
  · have unchanged := accounts.added thread
    rw [phase] at unchanged
    rw [additionsOf_append_change, if_pos rfl, ← unchanged, List.append_assoc]
    cases ready? <;> rfl
  · rw [additionsOf_append_change, if_neg other, List.append_nil]
  · rw [ledger_append_change, if_pos rfl]
  · rw [shardsOf_append_change, ledger_append_change, if_pos rfl, hands, next, ← handed]
    simp [ThreadStage.ready?]
  · rw [ledger_append_change, if_neg different]
  · rw [shardsOf_append_change]

/-- A thread that begins to save has every accumulator to flush. -/
theorem Accounts.list (accounts : collection.Accounts threshold adds events)
    {tasks : List ThreadTask} {entries : List (Trigram × Handle)}
    (next : collection.threads thread = ⟨.save :: tasks, .idle⟩)
    (all : entries.Perm collection.handles.toList) :
    (collection.set thread
      ⟨entries.map (fun entry => .flush entry.1 entry.2) ++ .await :: tasks, .idle⟩).Accounts
        threshold adds events := by
  refine accounts.set (fun other address knows => ?_) (by rw [next]) (by rw [next]) ?_
  · rcases List.mem_append.mp (Thread.knows_idle.mp knows) with listed | task
    · obtain ⟨entry, member, eq⟩ := List.mem_map.mp listed
      cases eq
      exact SortedMap.find?_eq_some_iff.mpr (all.mem_iff.mp member)
    · refine accounts.sound.known thread _ _ (.inr ?_)
      rw [next]
      simpa using task
  · rw [next, Thread.additions, Thread.additions, List.filterMap_append,
      filterMap_addition?_flushes]
    rfl

/-- A step of a thread keeps the accounts. -/
theorem Accounts.step (accounts : collection.Accounts threshold adds events)
    {told : List (WriterEvent threads)} (step : collection.Step threshold told later) :
    later.Accounts threshold adds (events ++ told) := by
  have flushed {one : Fin threads} {other : Trigram} {address : Handle}
      (task : .flush other address ∈ (collection.threads one).tasks) :
      collection.handles.find? other = some address := accounts.sound.known one _ _ (.inr task)
  cases step with
  | @find thread trigram key tasks handle next found =>
      rw [List.append_nil]
      refine accounts.set (fun other address knows => ?_) (by rw [next]; rfl) (by rw [next]; rfl)
        (by rw [next]; rfl)
      rcases Thread.knows_use.mp knows with ⟨rfl, rfl⟩ | flush
      · exact found
      · exact flushed (by rw [next]; exact List.mem_cons_of_mem _ flush)
  | @miss thread trigram key tasks next missing =>
      rw [List.append_nil]
      refine accounts.set (fun other address knows => ?_) (by rw [next]; rfl) (by rw [next]; rfl)
        (by rw [next]; rfl)
      rcases knows with ⟨stage, use⟩ | flush
      · cases use
      · exact flushed (by rw [next]; exact List.mem_cons_of_mem _ flush)
  | @share thread trigram key tasks handle phase found =>
      rw [List.append_nil]
      refine accounts.set (fun other address knows => ?_) (by rw [phase]; rfl) (by rw [phase]; rfl)
        (by rw [phase]; rfl)
      rcases Thread.knows_use.mp knows with ⟨rfl, rfl⟩ | flush
      · exact found
      · exact flushed (by rw [phase]; exact flush)
  | @make thread trigram key tasks phase missing =>
      rw [List.append_nil]
      have asked : (trigram, key) ∈ adds thread := by
        rw [← accounts.added thread, phase]
        exact List.mem_append_right _ List.mem_cons_self
      have made := accounts.allocate missing asked
      refine made.set (fun other address knows => ?_) (by rw [threads_allocate, phase]; rfl)
        (by rw [threads_allocate, phase]; rfl) (by rw [threads_allocate, phase]; rfl)
      rcases Thread.knows_use.mp knows with ⟨rfl, rfl⟩ | flush
      · rw [find?_handles_allocate, if_pos rfl]
      · exact made.sound.known thread _ _ (.inr (by rw [threads_allocate, phase]; exact flush))
  | list next all =>
      rw [List.append_nil]
      exact accounts.list next all
  | @turn thread trigram handle tasks next =>
      rw [List.append_nil]
      refine accounts.set (fun other address knows => ?_) (by rw [next]; rfl) (by rw [next]; rfl)
        (by rw [next]; rfl)
      rcases Thread.knows_use.mp knows with ⟨rfl, rfl⟩ | flush
      · exact flushed (by rw [next]; exact List.mem_cons_self)
      · exact flushed (by rw [next]; exact List.mem_cons_of_mem _ flush)
  | lock phase free =>
      rw [List.append_nil]
      exact accounts.turn phase (.inr free) (.inr ⟨_, rfl⟩) (by simp [ThreadPhase.held?,
        ThreadStage.locks]) rfl (by rw [phase]; rfl)
  | change phase taken => exact accounts.change phase taken
  | unlock phase =>
      rw [List.append_nil]
      exact accounts.turn phase (.inl rfl) (.inl rfl) (by simp [ThreadPhase.held?]) rfl
        (by rw [phase]; rfl)

/-- A thread counts a shard as in flight. -/
theorem Accounts.announce (accounts : collection.Accounts threshold adds events)
    {tasks : List ThreadTask} {ready : ReadyShard}
    (phase : collection.threads thread = ⟨tasks, .use trigram handle (.announce ready)⟩) :
    (collection.set thread ⟨tasks, .use trigram handle (.send ready)⟩).Accounts threshold adds
      events := by
  refine accounts.set (fun other address knows => ?_) (by rw [phase]; rfl) (by rw [phase]; rfl)
    (by rw [phase]; rfl)
  refine accounts.sound.known thread other address ?_
  rw [phase]
  exact Thread.knows_use.mpr (Thread.knows_use.mp knows)

/-- The shard that a thread holds belongs to the trigram of its accumulator. -/
theorem Accounts.trigram_eq (accounts : collection.Accounts threshold adds events)
    {tasks : List ThreadTask} {ready : ReadyShard}
    (phase : collection.threads thread = ⟨tasks, .use trigram handle (.send ready)⟩) :
    ready.trigram = trigram := by
  have handed := accounts.handed trigram
  rw [accounts.sound.unsent?_of_use phase (.inl rfl)] at handed
  have member : ready ∈ (ledger threshold events trigram).handed trigram := by
    rw [← handed]
    exact List.mem_append_right _ (List.mem_singleton_self _)
  exact trigram_of_mem_handedFrom member

/-- A thread puts a shard into a queue. -/
theorem Accounts.send (accounts : collection.Accounts threshold adds events)
    {tasks : List ThreadTask} {ready : ReadyShard}
    (phase : collection.threads thread = ⟨tasks, .use trigram handle (.send ready)⟩) :
    (collection.set thread ⟨tasks, .use trigram handle .unlock⟩).Accounts threshold adds
      (events ++ [.submitted ready]) := by
  have found := accounts.sound.known thread trigram handle (.inl ⟨_, by rw [phase]⟩)
  have mine : (collection.memory handle).owner = some thread :=
    (accounts.sound.owned thread handle).mpr (by rw [phase]; rfl)
  have handed := accounts.handed trigram
  rw [accounts.sound.unsent?_of_use phase (.inl rfl)] at handed
  have belongs := accounts.trigram_eq phase
  rw [← put_memory collection handle]
  refine accounts.work phase (.inl rfl) (.inr ⟨_, rfl⟩) ?_ ?_ (fun one _ => ?_) ?_ ?_
    fun other different => ⟨?_, ?_⟩
  · exact mine.trans (if_pos rfl).symm
  · have unchanged := accounts.added thread
    rw [phase] at unchanged
    rw [additionsOf_append_submitted, ← unchanged]
    rfl
  · rw [additionsOf_append_submitted]
  · rw [ledger_append_submitted]
    exact accounts.pending trigram handle found
  · rw [shardsOf_append_submitted, if_pos belongs, ledger_append_submitted, ← handed]
    exact List.append_nil _
  · rw [ledger_append_submitted]
  · rw [shardsOf_append_submitted, if_neg (belongs ▸ Ne.symm different), List.append_nil]

theorem flush_not_mem_tasks (calls : List WriterCall) (trigram : Trigram) (handle : Handle) :
    ThreadTask.flush trigram handle ∉ calls.map WriterCall.task := by
  intro member
  obtain ⟨call, -, eq⟩ := List.mem_map.mp member
  cases call <;> cases eq

/-- The keys that calls add, with their trigrams. -/
def additionsIn (calls : List WriterCall) : List (Trigram × DocumentKey) :=
  calls.filterMap fun call => call.task.addition?

/-- A thread that is given more calls has their keys to insert as well. -/
theorem Accounts.assign (accounts : collection.Accounts threshold adds events)
    (thread : Fin threads) (calls : List WriterCall) :
    (collection.set thread { collection.threads thread with
      tasks := (collection.threads thread).tasks ++ calls.map WriterCall.task }).Accounts threshold
        (Function.update adds thread (adds thread ++ additionsIn calls)) events where
  sound := by
    refine accounts.sound.set (fun other address knows => ?_) rfl
    refine accounts.sound.known thread other address (knows.imp id fun flush => ?_)
    exact (List.mem_append.mp flush).resolve_right (flush_not_mem_tasks calls other address)
  added one := by
    by_cases same : one = thread
    · subst same
      rw [threads_set_self, Function.update_self, ← accounts.added one, Thread.additions,
        Thread.additions, List.filterMap_append, List.filterMap_map, List.append_assoc,
        List.append_assoc]
      rfl
    · rw [threads_set_of_ne _ _ _ same, Function.update_of_ne same]
      exact accounts.added one
  asked trigram handle found := by
    obtain ⟨one, key, asked⟩ := accounts.asked trigram handle found
    refine ⟨one, key, ?_⟩
    by_cases same : one = thread
    · subst same
      rw [Function.update_self]
      exact List.mem_append_left _ asked
    · rwa [Function.update_of_ne same]
  pending := accounts.pending
  unseen := accounts.unseen
  handed trigram := by
    have unsent : (collection.set thread
        { collection.threads thread with
          tasks := (collection.threads thread).tasks ++ calls.map WriterCall.task }).unsent?
            trigram = collection.unsent? trigram := unsent?_set rfl
    rw [unsent]
    exact accounts.handed trigram

end Collection
end SourceSearch
