import SourceSearch.Postings.Writer
import SourceSearch.Proofs.FileTree.Writes
import SourceSearch.Proofs.Postings.Ledger
import SourceSearch.Proofs.Postings.Places

/-!
# What a writer writes

A writer and the folder of its namespace keep step with one ledger for each trigram: the pending
keys are those that wait, and as long as no write has failed the files of the trigram are its
shards and their count.
-/

namespace SourceSearch

variable {root : Path} {own : List String} {location : Location} {folder : String}
  {tree before after : FileTree} {trigram : Trigram} {threshold : Nat}

/-- The folder of a namespace in a tree that hosts it. -/
structure Namespace (root : Path) (own : List String) (location : Location) (folder : String)
    (tree : FileTree) : Prop where
  /-- The path to the folder around it holds good. -/
  hosts : tree.Hosts root own location
  /-- The namespace is one of the folders that may change. -/
  member : folder ∈ own
  /-- Its name is plain. -/
  plain : IsPlain folder
  /-- Files lie below two folders. -/
  layered : tree.Layered location folder 3

theorem Namespace.step (site : Namespace root own location folder before)
    (stays : FileTree.StaysIn location folder 3 before after) :
    Namespace root own location folder after where
  hosts := site.hosts.of_agrees (stays.agrees.mono (by simpa using site.member))
  member := site.member
  plain := site.plain
  layered := stays.layered site.layered

/-! ## Files of a trigram -/

/-- The file of a shard. -/
def shardBytes (trigram : Trigram) (generation : Nat) (keys : SortedSet DocumentKey) : ByteArray :=
  (StoredShard.toJson ⟨keys, generation, trigram⟩).toBytes

/-- The file of a count. -/
def countBytes (trigram : Trigram) (count : Nat) : ByteArray :=
  (StoredCount.toJson ⟨trigram, count⟩).toBytes

/-- The files of a trigram are those of a ledger's shards. -/
structure Written (location : Location) (folder : String) (tree : FileTree) (trigram : Trigram)
    (ledger : Ledger) : Prop where
  /-- One file for each shard, numbered from zero. -/
  shard : ∀ generation,
    tree.fileAt? (location ++ folder :: Postings.shardPlace trigram generation) =
      ledger.shards[generation]?.map (shardBytes trigram generation)
  /-- The number of keys in all of them. -/
  count : tree.fileAt? (location ++ folder :: Postings.countPlace trigram) =
    if ledger.shards = [] then none else some (countBytes trigram ledger.total)

theorem Written.congr {ledger : Ledger} (written : Written location folder before trigram ledger)
    (same : ∀ rest, after.fileAt? (location ++ folder :: rest) =
      before.fileAt? (location ++ folder :: rest)) : Written location folder after trigram ledger :=
  ⟨fun generation => (same _).trans (written.shard generation), (same _).trans written.count⟩

theorem Written.of_shards {ledger ledger' : Ledger}
    (written : Written location folder tree trigram ledger)
    (same : ledger'.shards = ledger.shards) :
    Written location folder tree trigram ledger' := by
  refine ⟨fun generation => same ▸ written.shard generation, ?_⟩
  rw [written.count, same, Ledger.total, Ledger.total, same]

/-- An empty namespace holds the files of empty ledgers. -/
theorem written_empty (fresh : ∀ names, tree.fileAt? (location ++ folder :: names) = none)
    (trigram : Trigram) : Written location folder tree trigram {} :=
  ⟨fun _ => fresh _, fresh _⟩

/-! ## One shard -/

theorem Postings.isName_token {trigram token : String}
    (member : token ∈ Postings.tokens trigram) : IsName token := by
  have few := Postings.length_of_mem_tokens member
  have bytes := Text.utf8ByteSize_le token
  refine ⟨Postings.isPlain_token member, fun nul => ?_, ?_⟩
  · exact absurd (Postings.letters_of_mem_tokens member _ nul) (by decide)
  · rw [maxNameBytes]
    omega

/-- The names that lead to a file of a trigram of three characters are proper. -/
theorem Postings.isName_placeOf {trigram suffix : String} (three : trigram.length = 3)
    (proper : IsSuffix suffix) (noNul : '\x00' ∉ suffix.toList)
    (short : suffix.utf8ByteSize ≤ 100) :
    ∀ name ∈ Postings.placeOf trigram suffix, IsName name := by
  intro name member
  have plain := Postings.isPlain_placeOf proper name member
  rcases List.mem_append.mp member with folder | file
  · exact Postings.isName_token (List.mem_of_mem_take folder)
  · rw [List.mem_singleton.mp file] at plain ⊢
    have few := Postings.length_stem_le trigram
    have bytes := Text.utf8ByteSize_le ("_".intercalate (Postings.tokens trigram))
    refine ⟨plain, fun nul => ?_, ?_⟩
    · rw [String.toList_append] at nul
      rcases List.mem_append.mp nul with inside | inside
      · rcases Postings.mem_stem inside with eq | letter
        · exact absurd eq (by decide)
        · exact absurd letter (by decide)
      · exact noNul inside
    · rw [maxNameBytes, String.utf8ByteSize_append]
      omega

theorem Postings.isName_countPlace {trigram : String} (three : trigram.length = 3) :
    ∀ name ∈ Postings.countPlace trigram, IsName name :=
  Postings.isName_placeOf three Postings.isSuffix_countSuffix (by decide) (by decide)

/-- All names on the way to a shard and to the count of its trigram are proper. -/
structure IsWritable (folder : String) (trigram : Trigram) (generation : Nat) : Prop where
  /-- Those of the shard. -/
  shard : ∀ name ∈ folder :: Postings.shardPlace trigram generation, IsName name
  /-- Those of the count. -/
  count : ∀ name ∈ folder :: Postings.countPlace trigram, IsName name

namespace ReadyShard

/-- Writing a shard changes nothing outside of its namespace; if it succeeds, the file of the shard
and the count are new, and it fails only if a name is improper. -/
theorem write_spec (site : Namespace root own location folder before) {ready : ReadyShard}
    (wide : 3 ≤ ready.trigram.length) {outcome : Except Failure Unit}
    (run : (ready.write (root / folder)).runOn before = (outcome, after)) :
    FileTree.StaysIn location folder 3 before after ∧
      (outcome.isOk = true → ∀ place, after.fileAt? place =
        if place = location ++ folder :: Postings.countPlace ready.trigram then
          some (countBytes ready.trigram ready.total)
        else if place =
            location ++ folder :: Postings.shardPlace ready.trigram ready.generation then
          some (shardBytes ready.trigram ready.generation ready.keys)
        else before.fileAt? place) ∧
      (outcome.isOk = false → ¬ IsWritable folder ready.trigram ready.generation) := by
  rw [write, TaskM.runOn_bind, Postings.shardFile_eq, Postings.countFile_eq] at run
  rcases first : (TaskM.writeRecord ((root / folder).below
      (Postings.shardPlace ready.trigram ready.generation))
      (StoredShard.toJson ⟨ready.keys, ready.generation, ready.trigram⟩)).runOn before
    with ⟨result, between⟩
  have wroteShard := FileTree.writeFile_layered site.hosts site.member site.layered
    (Postings.placeOf_ne_nil _ _) (Postings.length_placeOf wide _)
    (List.forall_mem_cons.mpr
      ⟨site.plain, Postings.isPlain_placeOf (Postings.isSuffix_shardEnd _)⟩) first
  rw [first] at run
  cases result with
  | error failure =>
      cases run
      refine ⟨wroteShard.stays, (fun succeeded => nomatch succeeded), fun _ writable => ?_⟩
      cases wroteShard.succeeds.mpr writable.shard
  | ok =>
      have site' := site.step wroteShard.stays
      have wroteCount := FileTree.writeFile_layered site'.hosts site'.member site'.layered
        (Postings.placeOf_ne_nil _ _) (Postings.length_placeOf wide _)
        (List.forall_mem_cons.mpr
          ⟨site.plain, Postings.isPlain_placeOf Postings.isSuffix_countSuffix⟩) run
      refine ⟨wroteShard.stays.trans wroteCount.stays, fun succeeded place => ?_,
        fun failed writable => ?_⟩
      · rw [wroteCount.files, wroteShard.files, succeeded]
        simp only [Except.isOk, Except.toBool, true_and]
        rfl
      · have succeeded := wroteCount.succeeds.mpr writable.count
        rw [failed] at succeeded
        cases succeeded

end ReadyShard

theorem ShardSink.accept_eq (sink : ShardSink) (ready : ReadyShard) (tree : FileTree) :
    sink.accept ready tree =
      match (ready.write sink.base).runOn tree with
      | (.ok _, changed) => (sink, changed)
      | (.error failure, changed) =>
          ({ sink with failure := sink.failure.or (some failure) }, changed) := rfl

/-- A sink that takes a shard and has no failure afterwards had none before, and wrote it; one that
has a failure had one before, or could not write the shard. -/
theorem ShardSink.accept_spec (site : Namespace root own location folder before)
    (ready : ReadyShard) (wide : 3 ≤ ready.trigram.length) {sink later : ShardSink}
    (base : sink.base = root / folder) (run : sink.accept ready before = (later, after)) :
    FileTree.StaysIn location folder 3 before after ∧ later.base = root / folder ∧
      (later.failure = none → sink.failure = none ∧ ∀ place, after.fileAt? place =
        if place = location ++ folder :: Postings.countPlace ready.trigram then
          some (countBytes ready.trigram ready.total)
        else if place =
            location ++ folder :: Postings.shardPlace ready.trigram ready.generation then
          some (shardBytes ready.trigram ready.generation ready.keys)
        else before.fileAt? place) ∧
      (later.failure.isSome →
        sink.failure.isSome ∨ ¬ IsWritable folder ready.trigram ready.generation) := by
  rw [accept_eq, base] at run
  rcases wrote : (ready.write (root / folder)).runOn before with ⟨outcome, changed⟩
  obtain ⟨stays, files, improper⟩ := ReadyShard.write_spec site wide wrote
  rw [wrote] at run
  cases outcome with
  | ok =>
      cases run
      exact ⟨stays, base, fun clean => ⟨clean, files rfl⟩, .inl⟩
  | error failure =>
      cases run
      refine ⟨stays, rfl, fun clean => ?_, fun _ => .inr (improper rfl)⟩
      simp at clean

/-! ## Writers in step with ledgers -/

/-- One ledger for each trigram. -/
abbrev Ledgers := Trigram → Ledger

/-- The ledgers with another one for a trigram. -/
def Ledgers.set (ledgers : Ledgers) (trigram : Trigram) (ledger : Ledger) : Ledgers :=
  fun other => if other = trigram then ledger else ledgers other

/-- What is pending of a ledger. -/
def Ledger.pending (ledger : Ledger) : PendingPostings :=
  ⟨ledger.waiting, ledger.shards.length, ledger.total⟩

/-- The writer has done what the ledgers say. -/
structure Keeps (root : Path) (location : Location) (folder : String) (threshold : Nat)
    (ledgers : Ledgers) (writer : PostingsWriter) (tree : FileTree) : Prop where
  /-- It writes into the namespace. -/
  base : writer.sink.base = root / folder
  /-- Shards have this size. -/
  threshold_eq : writer.threshold = threshold
  /-- Only trigrams are written. -/
  wide : ∀ trigram, (writer.pending.find? trigram).isSome → 3 ≤ trigram.length
  /-- What is pending waits. -/
  pending : ∀ trigram, (writer.pending.find? trigram).getD {} = (ledgers trigram).pending
  /-- The writer knows the trigrams that have a ledger. -/
  known : ∀ trigram, (writer.pending.find? trigram).isSome ↔ ledgers trigram ≠ {}
  /-- Files are there unless a write has failed. -/
  written : writer.sink.failure = none → ∀ trigram : Trigram,
    Written location folder tree trigram (ledgers trigram)
  /-- A write fails only for a shard that cannot be written. -/
  reason : writer.sink.failure.isSome → ∃ trigram : Trigram, 3 ≤ trigram.length ∧
    ∃ generation < (ledgers trigram).shards.length, ¬ IsWritable folder trigram generation

theorem Keeps.of_agrees {ledgers : Ledgers} {writer : PostingsWriter}
    (keeps : Keeps root location folder threshold ledgers writer before)
    (agrees : before.AgreesOutside location own after) (other : folder ∉ own) :
    Keeps root location folder threshold ledgers writer after :=
  { keeps with
    written := fun clean trigram => (keeps.written clean trigram).congr fun rest =>
      agrees.fileAt?_below other rest }

/-- A new writer for an empty namespace starts from empty ledgers. -/
theorem keeps_new (fresh : ∀ names, tree.fileAt? (location ++ folder :: names) = none)
    (threshold : Nat) :
    Keeps root location folder (max threshold 1) (fun _ => {}) (.new (root / folder) threshold)
      tree where
  base := rfl
  threshold_eq := rfl
  wide _ present := nomatch present
  pending _ := rfl
  known _ := by simp [PostingsWriter.new]
  written _ := written_empty fresh
  reason failed := nomatch failed

@[simp]
theorem Ledgers.set_self (ledgers : Ledgers) (trigram : Trigram) (ledger : Ledger) :
    ledgers.set trigram ledger trigram = ledger := if_pos rfl

@[simp]
theorem Ledgers.set_of_ne (ledgers : Ledgers) {trigram other : Trigram}
    (different : other ≠ trigram) (ledger : Ledger) :
    ledgers.set trigram ledger other = ledgers other := if_neg different

/-- The next shard of a ledger as its writer hands it over. -/
def Ledger.ready (ledger : Ledger) (trigram : Trigram) : ReadyShard :=
  ⟨trigram, ledger.shards.length, ledger.waiting, ledger.total + ledger.waiting.size⟩

theorem Ledger.pending_flush (ledger : Ledger) (nonempty : ledger.waiting.isEmpty = false) :
    ledger.flush.pending =
      ⟨.empty, ledger.shards.length + 1, ledger.total + ledger.waiting.size⟩ := by
  rw [flush_of_some nonempty, Ledger.pending, total_append_singleton, List.length_append]
  rfl

/-- Taking the next shard of what is pending is a flush of the ledger. -/
theorem Ledger.nextShard_pending (ledger : Ledger) (trigram : Trigram) :
    ledger.pending.nextShard trigram =
      (if ledger.waiting.isEmpty then none else some (ledger.ready trigram),
        ledger.flush.pending) := by
  have next : ledger.pending.nextShard trigram =
      if ledger.waiting.isEmpty then (none, ledger.pending)
      else (some (ledger.ready trigram),
        ⟨.empty, ledger.shards.length + 1, ledger.total + ledger.waiting.size⟩) := rfl
  rw [next]
  cases empty : ledger.waiting.isEmpty with
  | true =>
      rw [Ledger.flush_of_isEmpty empty]
      rfl
  | false =>
      rw [Ledger.pending_flush ledger empty]
      rfl

theorem Ledger.length_le_flush (ledger : Ledger) :
    ledger.shards.length ≤ ledger.flush.shards.length := by
  rw [Ledger.flush]
  split <;> simp

theorem Ledger.flush_ne_empty {ledger : Ledger} (some : ledger ≠ {}) : ledger.flush ≠ {} := by
  cases empty : ledger.waiting.isEmpty with
  | true => rwa [flush_of_isEmpty empty]
  | false => simp [flush_of_some empty]

theorem PostingsWriter.flush_eq (writer : PostingsWriter) (trigram : Trigram) (ledger : Ledger)
    (tree : FileTree) :
    writer.flush trigram ledger.pending tree =
      if ledger.waiting.isEmpty then
        ({ writer with pending := writer.pending.insert trigram ledger.flush.pending }, tree)
      else
        ({ writer with
            pending := writer.pending.insert trigram ledger.flush.pending
            sink := (writer.sink.accept (ledger.ready trigram) tree).1 },
          (writer.sink.accept (ledger.ready trigram) tree).2) := by
  rw [flush, Ledger.nextShard_pending]
  cases ledger.waiting.isEmpty <;> rfl

/-- A writer that keeps all ledgers but one, whose next state it has pending, keeps that one too
once the files are there. -/
theorem Keeps.insert {ledgers : Ledgers} {writer : PostingsWriter}
    (keeps : Keeps root location folder threshold ledgers writer before)
    (wide : 3 ≤ trigram.length) {ledger : Ledger} (some : ledger ≠ {})
    (grows : (ledgers trigram).shards.length ≤ ledger.shards.length) {sink : ShardSink}
    (base : sink.base = root / folder)
    (reason : sink.failure.isSome → writer.sink.failure.isSome ∨
      ∃ generation < ledger.shards.length, ¬ IsWritable folder trigram generation)
    (written : sink.failure = none → writer.sink.failure = none ∧
      Written location folder after trigram ledger ∧
      ∀ other ≠ trigram, Written location folder before other (ledgers other) →
        Written location folder after other (ledgers other)) :
    Keeps root location folder threshold (ledgers.set trigram ledger)
      { writer with pending := writer.pending.insert trigram ledger.pending, sink } after where
  base := base
  threshold_eq := keeps.threshold_eq
  wide other present := by
    rw [SortedMap.find?_insert] at present
    split at present
    · rename_i same
      exact same ▸ wide
    · exact keeps.wide other present
  pending other := by
    rw [SortedMap.find?_insert]
    split
    · rename_i same
      rw [same, Ledgers.set_self]
      rfl
    · rename_i different
      rw [Ledgers.set_of_ne ledgers different]
      exact keeps.pending other
  known other := by
    rw [SortedMap.find?_insert]
    split
    · rename_i same
      rw [same, Ledgers.set_self]
      exact iff_of_true rfl some
    · rename_i different
      rw [Ledgers.set_of_ne ledgers different]
      exact keeps.known other
  reason failed := by
    rcases reason failed with before | ⟨generation, bound, improper⟩
    · obtain ⟨other, wideOther, generation, bound, improper⟩ := keeps.reason before
      refine ⟨other, wideOther, generation, ?_, improper⟩
      by_cases same : other = trigram
      · subst same
        rw [Ledgers.set_self]
        exact Nat.lt_of_lt_of_le bound grows
      · rwa [Ledgers.set_of_ne ledgers same]
    · exact ⟨trigram, wide, generation, by rwa [Ledgers.set_self], improper⟩
  written clean other := by
    obtain ⟨cleanBefore, here, elsewhere⟩ := written clean
    by_cases same : other = trigram
    · rw [same, Ledgers.set_self]
      exact here
    · rw [Ledgers.set_of_ne ledgers same]
      exact elsewhere other same (keeps.written cleanBefore other)

/-- Writing the next shard of a trigram adds it to the trigram's files and to no others. -/
theorem Written.accepted {ledger : Ledger}
    (nonempty : ledger.waiting.isEmpty = false)
    (files : ∀ place, after.fileAt? place =
      if place = location ++ folder :: Postings.countPlace trigram then
        some (countBytes trigram (ledger.total + ledger.waiting.size))
      else if place = location ++ folder :: Postings.shardPlace trigram ledger.shards.length then
        some (shardBytes trigram ledger.shards.length ledger.waiting)
      else before.fileAt? place) :
    (Written location folder before trigram ledger →
        Written location folder after trigram ledger.flush) ∧
      ∀ other ≠ trigram, ∀ held,
        Written location folder before other held → Written location folder after other held := by
  have apart {a b : Location} (different : a ≠ b) :
      location ++ folder :: a ≠ location ++ folder :: b := by
    simpa using different
  refine ⟨fun written => ?_, fun other different held written => ?_⟩
  · rw [Ledger.flush_of_some nonempty]
    constructor
    · intro generation
      rw [files, if_neg (apart (Postings.shardPlace_ne_countPlace _ _ _)),
        List.getElem?_append]
      by_cases last : generation = ledger.shards.length
      · subst last
        simp
      · rw [if_neg (apart fun same =>
          last (Postings.shardPlace_injective same).2), written.shard]
        split
        · rfl
        · rw [List.getElem?_eq_none (by omega), List.getElem?_eq_none (by simp; omega)]
    · rw [files, if_pos rfl, Ledger.total_append_singleton]
      simp [Ledger.total]
  · constructor
    · intro generation
      rw [files, if_neg (apart (Postings.shardPlace_ne_countPlace _ _ _)),
        if_neg (apart fun same =>
          different (Postings.shardPlace_injective same).1), written.shard]
    · rw [files, if_neg (apart fun same =>
          different (Postings.countPlace_injective same)),
        if_neg (apart fun same =>
          Postings.shardPlace_ne_countPlace _ _ _ same.symm), written.count]

/-- Flushing what is pending of a ledger hands over its next shard. -/
theorem Keeps.flush (site : Namespace root own location folder before) {ledgers : Ledgers}
    {writer later : PostingsWriter}
    (keeps : Keeps root location folder threshold ledgers writer before)
    (wide : 3 ≤ trigram.length) {ledger : Ledger} (some : ledger ≠ {})
    (same : ledger.shards = (ledgers trigram).shards)
    (run : writer.flush trigram ledger.pending before = (later, after)) :
    FileTree.StaysIn location folder 3 before after ∧
      Keeps root location folder threshold (ledgers.set trigram ledger.flush) later after := by
  rw [PostingsWriter.flush_eq] at run
  have grows : (ledgers trigram).shards.length ≤ ledger.flush.shards.length :=
    same ▸ ledger.length_le_flush
  split at run
  · rename_i empty
    cases run
    refine ⟨.refl _, keeps.insert wide (Ledger.flush_ne_empty some) grows keeps.base .inl
      fun clean => ⟨clean, ?_, fun _ _ held => held⟩⟩
    rw [Ledger.flush_of_isEmpty empty]
    exact (keeps.written clean trigram).of_shards same
  · rename_i nonempty
    cases run
    rcases accepted : writer.sink.accept (ledger.ready trigram) before with ⟨sink, after⟩
    obtain ⟨stays, base, files, improper⟩ :=
      ShardSink.accept_spec site (ledger.ready trigram) wide keeps.base accepted
    have next : ledger.shards.length < ledger.flush.shards.length := by
      rw [Ledger.flush_of_some (Bool.eq_false_iff.mpr nonempty)]
      simp
    refine ⟨stays, keeps.insert wide (Ledger.flush_ne_empty some) grows base
      (fun failed => (improper failed).imp_right fun improper => ⟨_, next, improper⟩)
      fun clean => ?_⟩
    obtain ⟨cleanBefore, files⟩ := files clean
    obtain ⟨here, elsewhere⟩ := Written.accepted (Bool.eq_false_iff.mpr nonempty) files
    exact ⟨cleanBefore, here ((keeps.written cleanBefore trigram).of_shards same),
      fun other different => elsewhere other different _⟩

/-- Adding a key to a trigram is one step of its ledger. -/
theorem Keeps.add (site : Namespace root own location folder before) {ledgers : Ledgers}
    {writer later : PostingsWriter}
    (keeps : Keeps root location folder threshold ledgers writer before)
    (wide : 3 ≤ trigram.length) {key : DocumentKey}
    (run : writer.add trigram key before = (later, after)) :
    FileTree.StaysIn location folder 3 before after ∧
      Keeps root location folder threshold
        (ledgers.set trigram ((ledgers trigram).add threshold key)) later after := by
  let grown : Ledger :=
    { ledgers trigram with waiting := (ledgers trigram).waiting.insert key }
  have waiting : ((writer.pending.find? trigram).getD {}).add key = grown.pending := by
    rw [keeps.pending]
    rfl
  have some : grown ≠ {} := by
    intro same
    have held : key ∈ grown.waiting := SortedSet.mem_insert_self _ key
    rw [same] at held
    exact SortedSet.not_mem_empty held
  rw [PostingsWriter.add, waiting] at run
  rw [Ledger.add]
  by_cases less : grown.waiting.size < threshold
  · have room : grown.pending.keys.size < writer.threshold := keeps.threshold_eq ▸ less
    rw [if_pos room] at run
    cases run
    rw [if_pos less]
    exact ⟨.refl _, keeps.insert wide some (Nat.le_refl _) keeps.base .inl fun clean =>
      ⟨clean, (keeps.written clean trigram).of_shards rfl, fun _ _ held => held⟩⟩
  · have full : ¬ grown.pending.keys.size < writer.threshold := keeps.threshold_eq ▸ less
    rw [if_neg full] at run
    rw [if_neg less]
    exact keeps.flush site wide some rfl run

/-- The ledgers after a document with several trigrams. -/
def Ledgers.addDocument (threshold : Nat) (ledgers : Ledgers) (key : DocumentKey)
    (trigrams : List Trigram) : Ledgers :=
  trigrams.foldl
    (fun ledgers trigram => ledgers.set trigram ((ledgers trigram).add threshold key)) ledgers

theorem Keeps.addDocument (site : Namespace root own location folder before) {ledgers : Ledgers}
    {writer later : PostingsWriter}
    (keeps : Keeps root location folder threshold ledgers writer before) {key : DocumentKey}
    {trigrams : List Trigram} (wide : ∀ trigram ∈ trigrams, 3 ≤ trigram.length)
    (run : writer.addDocument key trigrams before = (later, after)) :
    FileTree.StaysIn location folder 3 before after ∧
      Keeps root location folder threshold (ledgers.addDocument threshold key trigrams) later
        after := by
  induction trigrams generalizing writer before ledgers with
  | nil =>
      cases run
      exact ⟨.refl _, keeps⟩
  | cons trigram rest ih =>
      rw [List.forall_mem_cons] at wide
      rcases step : writer.add trigram key before with ⟨next, between⟩
      obtain ⟨stays, keeps'⟩ := keeps.add site wide.1 step
      rw [PostingsWriter.addDocument, DiskM.foldlM_cons, step] at run
      obtain ⟨stays', kept⟩ := ih (site.step stays) keeps' wide.2 run
      exact ⟨stays.trans stays', kept⟩

/-- The ledgers after the given trigrams are flushed. -/
def Ledgers.flush (ledgers : Ledgers) (trigrams : List Trigram) : Ledgers := fun trigram =>
  if trigram ∈ trigrams then (ledgers trigram).flush else ledgers trigram

theorem Ledgers.flush_cons (ledgers : Ledgers) {trigram : Trigram} {rest : List Trigram}
    (apart : trigram ∉ rest) :
    (ledgers.set trigram (ledgers trigram).flush).flush rest = ledgers.flush (trigram :: rest) := by
  funext other
  by_cases same : other = trigram
  · subst same
    simp [Ledgers.flush, apart]
  · simp [Ledgers.flush, same]

/-- Flushing trigrams one after another flushes their ledgers. -/
theorem Keeps.flushAll (site : Namespace root own location folder before) {ledgers : Ledgers}
    {writer later : PostingsWriter}
    (keeps : Keeps root location folder threshold ledgers writer before)
    {entries : List (Trigram × PendingPostings)} (distinct : (entries.map Prod.fst).Nodup)
    (wide : ∀ entry ∈ entries, 3 ≤ entry.1.length)
    (some : ∀ entry ∈ entries, ledgers entry.1 ≠ {})
    (pending : ∀ entry ∈ entries, entry.2 = (ledgers entry.1).pending)
    (run : (entries.foldlM (fun writer (trigram, waiting) => writer.flush trigram waiting) writer :
      DiskM PostingsWriter) before = (later, after)) :
    FileTree.StaysIn location folder 3 before after ∧
      Keeps root location folder threshold (ledgers.flush (entries.map Prod.fst)) later after := by
  induction entries generalizing writer before ledgers with
  | nil =>
      cases run
      have unchanged : ledgers.flush [] = ledgers := by
        funext other
        simp [Ledgers.flush]
      exact ⟨.refl _, unchanged ▸ keeps⟩
  | cons entry rest ih =>
      obtain ⟨trigram, waiting⟩ := entry
      rw [List.forall_mem_cons] at wide pending some
      rw [List.map_cons, List.nodup_cons] at distinct
      obtain rfl : waiting = (ledgers trigram).pending := pending.1
      rcases step : writer.flush trigram (ledgers trigram).pending before with ⟨next, between⟩
      obtain ⟨stays, keeps'⟩ := keeps.flush site wide.1 some.1 rfl step
      rw [DiskM.foldlM_cons] at run
      simp only [step] at run
      have unchanged : ∀ entry ∈ rest,
          ledgers.set trigram (ledgers trigram).flush entry.1 = ledgers entry.1 :=
        fun entry member => Ledgers.set_of_ne ledgers (fun same =>
          distinct.1 (List.mem_map.mpr ⟨entry, member, same⟩)) _
      obtain ⟨stays', kept⟩ := ih (site.step stays) keeps' distinct.2 wide.2
        (fun entry member => unchanged entry member ▸ some.2 entry member)
        (fun entry member => unchanged entry member ▸ pending.2 entry member) run
      rw [ledgers.flush_cons distinct.1] at kept
      exact ⟨stays.trans stays', kept⟩

/-- The keys that are pending in the writer are those that wait in the ledgers. -/
def PostingsWriter.Follows (writer : PostingsWriter) (ledgers : Ledgers) : Prop :=
  ∀ trigram, (writer.pending.find? trigram).getD {} = (ledgers trigram).pending

namespace PostingsWriter

variable {ledgers : Ledgers} {writer : PostingsWriter}

/-- What is not pending does not wait. -/
theorem Follows.flush_keys (follows : writer.Follows ledgers) :
    ledgers.flush writer.pending.keys = fun trigram => (ledgers trigram).flush := by
  funext trigram
  rw [Ledgers.flush]
  split
  · rfl
  · rename_i absent
    have missing : writer.pending.find? trigram = none := by
      refine Option.eq_none_iff_forall_ne_some.mpr fun waiting present => absent ?_
      exact List.mem_map_of_mem (SortedMap.find?_eq_some_iff.mp present)
    have nothing := follows trigram
    rw [missing] at nothing
    have empty : (ledgers trigram).waiting = .empty := (congrArg PendingPostings.keys nothing).symm
    rw [Ledger.flush_of_isEmpty (by rw [empty]; rfl)]

/-- An entry of a trigram holds what is pending of its ledger. -/
theorem Follows.eq_pending (follows : writer.Follows ledgers) {entry : Trigram × PendingPostings}
    (member : entry ∈ writer.pending.toList) : entry.2 = (ledgers entry.1).pending := by
  rw [← follows, SortedMap.find?_eq_some_iff.mpr member, Option.getD_some]

/-- Every trigram has one entry. -/
theorem nodup_pending (writer : PostingsWriter) : (writer.pending.toList.map Prod.fst).Nodup := by
  refine writer.pending.ascending.imp ?_
  rintro trigram _ less rfl
  exact SortOrder.irrefl trigram less

end PostingsWriter

/-- A save flushes what is pending and settles the account. -/
theorem PostingsWriter.save_eq (writer : PostingsWriter) {next : PostingsWriter}
    (flushed : (writer.pending.toList.foldlM
      (fun writer (trigram, waiting) => writer.flush trigram waiting) writer :
        DiskM PostingsWriter) before = (next, after)) :
    writer.save before =
      ((next.sink.settle.1, { next with sink := next.sink.settle.2 }), after) := by
  rw [save, DiskM.bind_apply, flushed]
  rfl

/-- Whatever becomes of a save, the account that it settles is that of flushed ledgers. -/
theorem Keeps.exists_flushed (site : Namespace root own location folder before)
    {ledgers : Ledgers} {writer : PostingsWriter}
    (keeps : Keeps root location folder threshold ledgers writer before) :
    ∃ next after, writer.save before =
        ((next.sink.settle.1, { next with sink := next.sink.settle.2 }), after) ∧
      FileTree.StaysIn location folder 3 before after ∧
      Keeps root location folder threshold (fun trigram => (ledgers trigram).flush) next after := by
  rcases flushed : (writer.pending.toList.foldlM
    (fun writer (trigram, waiting) => writer.flush trigram waiting) writer : DiskM PostingsWriter)
      before with ⟨next, after⟩
  have some (entry : Trigram × PendingPostings) (member : entry ∈ writer.pending.toList) :
      (writer.pending.find? entry.1).isSome :=
    Option.isSome_of_eq_some (SortedMap.find?_eq_some_iff.mpr member)
  have follows : writer.Follows ledgers := keeps.pending
  obtain ⟨stays, kept⟩ := keeps.flushAll site writer.nodup_pending
    (fun entry member => keeps.wide entry.1 (some entry member))
    (fun entry member => (keeps.known entry.1).mp (some entry member))
    (fun entry member => follows.eq_pending member) flushed
  rw [← SortedMap.keys, follows.flush_keys] at kept
  exact ⟨next, after, writer.save_eq flushed, stays, kept⟩

/-- A save that succeeds flushes all ledgers. -/
theorem Keeps.save (site : Namespace root own location folder before) {ledgers : Ledgers}
    {writer later : PostingsWriter}
    (keeps : Keeps root location folder threshold ledgers writer before)
    {outcome : Except Failure Unit} (run : writer.save before = ((outcome, later), after)) :
    FileTree.StaysIn location folder 3 before after ∧
      (outcome.isOk = true → later.sink.failure = none ∧
        Keeps root location folder threshold (fun trigram => (ledgers trigram).flush) later
          after) := by
  obtain ⟨next, _, saves, stays, kept⟩ := keeps.exists_flushed site
  rw [saves] at run
  cases run
  refine ⟨stays, fun succeeded => ?_⟩
  cases failure : next.sink.failure with
  | some failure' =>
      rw [ShardSink.settle, failure] at succeeded
      cases succeeded
  | none =>
      have same : next.sink.settle.2 = next.sink := by
        rw [ShardSink.settle, failure]
      rw [same]
      exact ⟨failure, kept⟩

/-- A save succeeds if all shards can be written. -/
theorem Keeps.save_ok (site : Namespace root own location folder before) {ledgers : Ledgers}
    {writer : PostingsWriter}
    (keeps : Keeps root location folder threshold ledgers writer before)
    (writable : ∀ trigram : Trigram, 3 ≤ trigram.length →
      ∀ generation < (ledgers trigram).flush.shards.length, IsWritable folder trigram generation) :
    ∃ later after, writer.save before = ((.ok (), later), after) := by
  obtain ⟨next, after, saves, -, kept⟩ := keeps.exists_flushed site
  cases failure : next.sink.failure with
  | some _ =>
      obtain ⟨trigram, wide, generation, bound, improper⟩ :=
        kept.reason (Option.isSome_of_eq_some failure)
      exact absurd (writable trigram wide generation bound) improper
  | none =>
      rw [ShardSink.settle, failure] at saves
      exact ⟨_, after, saves⟩

end SourceSearch
