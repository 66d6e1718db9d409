import SourceSearch.Proofs.Postings.Runs

/-!
# What calls hand over

All that a call of a writer does to the disk is that it hands shards to the sink.  Which shards
these are depends on the ledgers alone: each is the next shard of its trigram, and the ledgers have
gone on whether it is written or not.
-/

namespace SourceSearch

variable {ledgers between later : Ledgers} {trigram : Trigram} {tree : FileTree}

/-! ## Shards one after another -/

namespace ShardSink

/-- Accept shards one after another. -/
def acceptAll (jobs : List ReadyShard) (sink : ShardSink) : DiskM ShardSink :=
  jobs.foldlM accept sink

theorem acceptAll_cons (ready : ReadyShard) (rest : List ReadyShard) (sink : ShardSink) :
    acceptAll (ready :: rest) sink tree =
      acceptAll rest (sink.accept ready tree).1 (sink.accept ready tree).2 :=
  DiskM.foldlM_cons accept sink ready rest tree

theorem acceptAll_append (front rest : List ReadyShard) (sink : ShardSink) :
    acceptAll (front ++ rest) sink tree =
      acceptAll rest (acceptAll front sink tree).1 (acceptAll front sink tree).2 := by
  induction front generalizing sink tree with
  | nil => rfl
  | cons ready front ih => rw [List.cons_append, acceptAll_cons, ih, ← acceptAll_cons]

end ShardSink

/-! ## Shards between two states of the ledgers -/

/-- The shards that the later ledgers have and the earlier ones have not. -/
structure HandsOver (ledgers later : Ledgers) (jobs : List ReadyShard) : Prop where
  /-- Shards stay as they are. -/
  grows : ∀ trigram, (ledgers trigram).shards <+: (later trigram).shards
  /-- Each shard that is handed over is one of the later ledgers. -/
  listed : ∀ ready ∈ jobs, (later ready.trigram).shards[ready.generation]? = some ready.keys
  /-- Each new shard is handed over. -/
  complete : ∀ trigram generation keys, (ledgers trigram).shards.length ≤ generation →
    (later trigram).shards[generation]? = some keys →
      ∃ ready ∈ jobs, ready.trigram = trigram ∧ ready.generation = generation

namespace HandsOver

variable {jobs more : List ReadyShard}

/-- What is a shard of the earlier ledgers is one of the later ones. -/
theorem shard (handsOver : HandsOver ledgers later jobs) {generation : Nat}
    {keys : SortedSet DocumentKey} (held : (ledgers trigram).shards[generation]? = some keys) :
    (later trigram).shards[generation]? = some keys := by
  obtain ⟨rest, whole⟩ := handsOver.grows trigram
  have inside := (List.getElem?_eq_some_iff.mp held).1
  rw [← whole, List.getElem?_append_left inside, held]

theorem of_shards (same : ∀ trigram, (later trigram).shards = (ledgers trigram).shards) :
    HandsOver ledgers later [] where
  grows trigram := same trigram ▸ List.prefix_rfl
  listed := by simp
  complete trigram generation keys past held := by
    rw [same, List.getElem?_eq_none past] at held
    cases held

theorem trans (first : HandsOver ledgers between jobs) (second : HandsOver between later more) :
    HandsOver ledgers later (jobs ++ more) where
  grows trigram := (first.grows trigram).trans (second.grows trigram)
  listed ready member := by
    rcases List.mem_append.mp member with member | member
    · exact second.shard (first.listed ready member)
    · exact second.listed ready member
  complete trigram generation keys past held := by
    by_cases inside : generation < (between trigram).shards.length
    · obtain ⟨rest, whole⟩ := second.grows trigram
      rw [← whole, List.getElem?_append_left inside] at held
      obtain ⟨ready, member, is⟩ := first.complete trigram generation keys past held
      exact ⟨ready, List.mem_append_left _ member, is⟩
    · obtain ⟨ready, member, is⟩ :=
        second.complete trigram generation keys (Nat.not_lt.mp inside) held
      exact ⟨ready, List.mem_append_right _ member, is⟩

/-- The waiting keys of one trigram are handed over as its next shard. -/
theorem flush {ledger : Ledger} (same : ledger.shards = (ledgers trigram).shards) :
    HandsOver ledgers (ledgers.set trigram ledger.flush)
      (if ledger.waiting.isEmpty then [] else [ledger.ready trigram]) := by
  have apart {other : Trigram} (different : other ≠ trigram) :
      (ledgers.set trigram ledger.flush other).shards = (ledgers other).shards := by
    rw [Ledgers.set_of_ne ledgers different]
  split
  · rename_i empty
    refine .of_shards fun other => ?_
    by_cases here : other = trigram
    · rw [here, Ledgers.set_self, Ledger.flush_of_isEmpty empty, same]
    · exact apart here
  · rename_i nonempty
    have shards : (ledgers.set trigram ledger.flush trigram).shards =
        (ledgers trigram).shards ++ [ledger.waiting] := by
      rw [Ledgers.set_self, Ledger.flush_of_some (Bool.eq_false_iff.mpr nonempty), ← same]
    refine ⟨fun other => ?_, ?_, fun other generation keys past held => ?_⟩
    · by_cases here : other = trigram
      · rw [here, shards]
        exact List.prefix_append _ _
      · exact apart here ▸ List.prefix_rfl
    · rw [List.forall_mem_singleton]
      change (ledgers.set trigram ledger.flush trigram).shards[ledger.shards.length]? = _
      rw [shards, same, List.getElem?_concat_length]
      rfl
    · by_cases here : other = trigram
      · subst here
        rw [shards] at held
        have inside := (List.getElem?_eq_some_iff.mp held).1
        rw [List.length_append, List.length_singleton] at inside
        refine ⟨ledger.ready other, List.mem_singleton_self _, rfl, ?_⟩
        change ledger.shards.length = generation
        rw [same]
        omega
      · rw [apart here, List.getElem?_eq_none past] at held
        cases held

end HandsOver

/-! ## Shards of a call -/

namespace PostingsWriter

variable {writer next last : PostingsWriter} {before after : FileTree}

theorem follows_new (base : Path) (threshold : Nat) :
    (PostingsWriter.new base threshold).Follows fun _ => {} := fun _ => rfl

theorem Follows.insert (follows : writer.Follows ledgers) (trigram : Trigram) (ledger : Ledger)
    (sink : ShardSink) :
    Follows { writer with pending := writer.pending.insert trigram ledger.pending, sink }
      (ledgers.set trigram ledger) := by
  intro other
  rw [SortedMap.find?_insert]
  split
  · rename_i same
    rw [same, Ledgers.set_self]
    rfl
  · rename_i different
    rw [Ledgers.set_of_ne ledgers different]
    exact follows other

/-- A run that hands over shards, where the pending keys follow the ledgers. -/
structure Submits (ledgers later : Ledgers) (jobs : List ReadyShard) (writer : PostingsWriter)
    (before : FileTree) (next : PostingsWriter) (after : FileTree) : Prop where
  /-- The shards are those that the ledgers have handed over. -/
  handsOver : HandsOver ledgers later jobs
  /-- The pending keys are those of the later ledgers. -/
  follows : next.Follows later
  /-- The threshold stays. -/
  threshold_eq : next.threshold = writer.threshold
  /-- The sink has accepted the shards, and nothing else has been written. -/
  accepts : ShardSink.acceptAll jobs writer.sink before = (next.sink, after)

theorem Submits.trans {jobs more : List ReadyShard} {middle : FileTree}
    (first : Submits ledgers between jobs writer before next middle)
    (second : Submits between later more next middle last after) :
    Submits ledgers later (jobs ++ more) writer before last after where
  handsOver := first.handsOver.trans second.handsOver
  follows := second.follows
  threshold_eq := second.threshold_eq.trans first.threshold_eq
  accepts := by rw [ShardSink.acceptAll_append, first.accepts, second.accepts]

/-- A flush hands over the next shard of a trigram, if keys wait for one. -/
theorem Follows.flush (follows : writer.Follows ledgers) {ledger : Ledger}
    (same : ledger.shards = (ledgers trigram).shards)
    (run : writer.flush trigram ledger.pending before = (next, after)) :
    Submits ledgers (ledgers.set trigram ledger.flush)
      (if ledger.waiting.isEmpty then [] else [ledger.ready trigram]) writer before next after := by
  refine ⟨.flush same, ?_, ?_, ?_⟩ <;> rw [flush_eq] at run <;> split at run <;> cases run
  · exact follows.insert trigram _ writer.sink
  · exact follows.insert trigram _ _
  · rfl
  · rfl
  · rename_i empty
    rw [if_pos empty]
    rfl
  · rename_i nonempty
    rw [if_neg nonempty]
    rfl

/-- A key that is added waits, or it makes a shard. -/
theorem Follows.add (follows : writer.Follows ledgers) {key : DocumentKey}
    (run : writer.add trigram key before = (next, after)) :
    ∃ jobs, Submits ledgers (ledgers.set trigram ((ledgers trigram).add writer.threshold key)) jobs
      writer before next after := by
  let grown : Ledger :=
    { ledgers trigram with waiting := (ledgers trigram).waiting.insert key }
  have waiting : ((writer.pending.find? trigram).getD {}).add key = grown.pending := by
    rw [follows]
    rfl
  rw [PostingsWriter.add, waiting] at run
  rw [Ledger.add]
  by_cases less : grown.waiting.size < writer.threshold
  · have room : grown.pending.keys.size < writer.threshold := less
    rw [if_pos room] at run
    cases run
    rw [if_pos less]
    refine ⟨[], .of_shards fun other => ?_, follows.insert trigram grown writer.sink, rfl, rfl⟩
    by_cases here : other = trigram
    · rw [here, Ledgers.set_self]
    · rw [Ledgers.set_of_ne ledgers here]
  · have full : ¬ grown.pending.keys.size < writer.threshold := less
    rw [if_neg full] at run
    rw [if_neg less]
    exact ⟨_, follows.flush rfl run⟩

/-- Flushing trigrams one after another hands over the next shard of each. -/
theorem Follows.flushAll (follows : writer.Follows ledgers)
    {entries : List (Trigram × PendingPostings)} (distinct : (entries.map Prod.fst).Nodup)
    (pending : ∀ entry ∈ entries, entry.2 = (ledgers entry.1).pending)
    (run : (entries.foldlM (fun writer (trigram, waiting) => writer.flush trigram waiting) writer :
      DiskM PostingsWriter) before = (next, after)) :
    ∃ jobs, Submits ledgers (ledgers.flush (entries.map Prod.fst)) jobs writer before next
      after := by
  induction entries generalizing writer before ledgers with
  | nil =>
      cases run
      have unchanged : ledgers.flush [] = ledgers := by
        funext other
        simp [Ledgers.flush]
      rw [List.map_nil, unchanged]
      exact ⟨[], .of_shards fun _ => rfl, follows, rfl, rfl⟩
  | cons entry rest ih =>
      obtain ⟨trigram, waiting⟩ := entry
      rw [List.forall_mem_cons] at pending
      rw [List.map_cons, List.nodup_cons] at distinct
      obtain rfl : waiting = (ledgers trigram).pending := pending.1
      rcases step : writer.flush trigram (ledgers trigram).pending before with ⟨flushed, middle⟩
      rw [DiskM.foldlM_cons] at run
      simp only [step] at run
      have first := follows.flush rfl step
      have unchanged : ∀ entry ∈ rest,
          ledgers.set trigram (ledgers trigram).flush entry.1 = ledgers entry.1 :=
        fun entry member => Ledgers.set_of_ne ledgers (fun same =>
          distinct.1 (List.mem_map.mpr ⟨entry, member, same⟩)) _
      obtain ⟨jobs, more⟩ := ih first.follows distinct.2
        (fun entry member => unchanged entry member ▸ pending.2 entry member) run
      rw [ledgers.flush_cons distinct.1] at more
      exact ⟨_, first.trans more⟩

end PostingsWriter

/-- How a call ends: a save settles the account. -/
def WriterCall.close : WriterCall → ShardSink → Except Failure Unit × ShardSink
  | .add _ _, sink => (.ok (), sink)
  | .save, sink => sink.settle

/-- A call hands over shards and closes. -/
theorem PostingsWriter.Follows.call {writer next : PostingsWriter} {before after : FileTree}
    (follows : writer.Follows ledgers) {call : WriterCall} {outcome : Except Failure Unit}
    (run : call.run writer before = ((outcome, next), after)) :
    ∃ jobs flushed, Submits ledgers
        (fun trigram => (ledgers trigram).call writer.threshold trigram call) jobs writer before
        flushed after ∧
      (outcome, next) = ((call.close flushed.sink).1,
        { flushed with sink := (call.close flushed.sink).2 }) := by
  cases call with
  | add trigram key =>
      rcases step : writer.add trigram key before with ⟨flushed, between⟩
      rw [WriterCall.run, DiskM.bind_apply, step] at run
      cases run
      obtain ⟨jobs, submits⟩ := follows.add step
      rw [Ledgers.call_add]
      exact ⟨jobs, _, submits, rfl⟩
  | save =>
      rcases step : (writer.pending.toList.foldlM
        (fun writer (trigram, waiting) => writer.flush trigram waiting) writer :
          DiskM PostingsWriter) before with ⟨flushed, between⟩
      rw [WriterCall.run, writer.save_eq step] at run
      cases run
      obtain ⟨jobs, submits⟩ := follows.flushAll writer.nodup_pending
        (fun entry member => follows.eq_pending member) step
      rw [← SortedMap.keys, follows.flush_keys] at submits
      exact ⟨jobs, _, submits, rfl⟩

end SourceSearch
