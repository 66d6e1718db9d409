import SourceSearch.Postings.Reader
import SourceSearch.Proofs.Json.Records
import SourceSearch.Proofs.Postings.Writing

/-!
# What a reader reads

A reader finds the keys that the ledger of a trigram holds, if its bound admits as many shards as
there are.
-/

namespace SourceSearch

namespace FileTree

/-- A record is read if there is a file and it decodes. -/
theorem readRecord_eq_ok_iff {α : Type} {tree : FileTree} {decode : Json → Option α} {path : Path}
    {value : α} :
    tree.readRecord decode path = .ok value ↔
      ∃ content, (tree.read path).toOption = some content ∧
        Json.decodeBytes? decode content = some value := by
  rw [readRecord]
  split
  · rename_i content readable
    simp only [readable, Except.toOption, Option.some.injEq, exists_eq_left']
    cases Json.decodeBytes? decode content <;> simp
  · rename_i refused
    simp [refused, Except.toOption]
  · rename_i fault _ refused
    simp [refused, Except.toOption]

theorem toOption_readRecord {α : Type} (tree : FileTree) (decode : Json → Option α) (path : Path) :
    (tree.readRecord decode path).toOption =
      (tree.read path).toOption.bind (Json.decodeBytes? decode) := by
  refine Option.ext fun value => ?_
  rw [Option.bind_eq_some_iff, ← readRecord_eq_ok_iff]
  cases tree.readRecord decode path <;> simp [Except.toOption]

end FileTree

/-- The shards of a trigram depend only on what is read of their files. -/
theorem PostingsReader.load_congr {reader : PostingsReader} {tree changed : FileTree}
    {trigram : Trigram}
    (same : ∀ generation,
      (changed.read (Postings.shardFile reader.base trigram generation)).toOption =
        (tree.read (Postings.shardFile reader.base trigram generation)).toOption) :
    reader.load changed trigram = reader.load tree trigram := by
  have records (generation : Nat) (shard : StoredShard) :
      changed.readRecord StoredShard.ofJson?
          (Postings.shardFile reader.base trigram generation) = .ok shard ↔
        tree.readRecord StoredShard.ofJson?
          (Postings.shardFile reader.base trigram generation) = .ok shard := by
    rw [FileTree.readRecord_eq_ok_iff, FileTree.readRecord_eq_ok_iff, same]
  have from_ (bound generation : Nat) (found : SortedSet DocumentKey) :
      reader.loadFrom changed trigram bound generation found =
        reader.loadFrom tree trigram bound generation found := by
    induction bound generalizing generation found with
    | zero => rfl
    | succ bound ih =>
        rw [loadFrom, loadFrom]
        cases held : tree.readRecord StoredShard.ofJson?
            (Postings.shardFile reader.base trigram generation) with
        | ok shard =>
            rw [(records generation shard).mpr held]
            exact ih _ _
        | error failure =>
            cases held' : changed.readRecord StoredShard.ofJson?
                (Postings.shardFile reader.base trigram generation) with
            | ok shard =>
                rw [(records generation shard).mp held'] at held
                cases held
            | error failure' => rfl
  exact from_ _ _ _

/-- The declared number of a trigram is what its count decodes to. -/
theorem PostingsReader.declared_toOption (reader : PostingsReader) (tree : FileTree)
    (trigram : Trigram) :
    (reader.declared tree trigram).toOption.join =
      ((tree.read (Postings.countFile reader.base trigram)).toOption.bind
        (Json.decodeBytes? StoredCount.ofJson?)).map StoredCount.count := by
  rw [declared, FileTree.readRecord?, FileTree.readRecord]
  rcases tree.read (Postings.countFile reader.base trigram) with fault | content
  · cases fault <;> rfl
  · simp only [Except.toOption, Option.bind_some]
    cases Json.decodeBytes? StoredCount.ofJson? content <;> rfl

theorem PostingsReader.check_eq (reader : PostingsReader) (tree : FileTree) (trigram : Trigram) :
    reader.check tree trigram =
      { trigram
        declared := (reader.declared tree trigram).toOption.join
        actual := (reader.load tree trigram).1.size
        shards := (reader.load tree trigram).2 } := by
  rw [check]
  cases reader.declared tree trigram <;> rfl

/-- A comparison of sizes depends only on what is read of the files of the trigram. -/
theorem PostingsReader.check_congr {reader : PostingsReader} {tree changed : FileTree}
    {trigram : Trigram}
    (shards : ∀ generation,
      (changed.read (Postings.shardFile reader.base trigram generation)).toOption =
        (tree.read (Postings.shardFile reader.base trigram generation)).toOption)
    (count : (changed.read (Postings.countFile reader.base trigram)).toOption =
      (tree.read (Postings.countFile reader.base trigram)).toOption) :
    reader.check changed trigram = reader.check tree trigram := by
  rw [check_eq, check_eq, declared_toOption, declared_toOption, count, load_congr shards]

/-- The file of a shard decodes to the shard. -/
theorem decodeBytes?_shardBytes {trigram : Trigram} {generation : Nat}
    {keys : SortedSet DocumentKey} (fits : generation ≤ Json.max32) :
    Json.decodeBytes? StoredShard.ofJson? (shardBytes trigram generation keys) =
      some ⟨keys, generation, trigram⟩ := by
  rw [shardBytes, Json.decodeBytes?_toBytes _ (StoredShard.wellFormed_toJson _)]
  exact StoredShard.ofJson?_toJson fits

/-- The file of a count decodes to the count. -/
theorem decodeBytes?_countBytes {trigram : Trigram} {count : Nat} (fits : count ≤ Json.max64) :
    Json.decodeBytes? StoredCount.ofJson? (countBytes trigram count) = some ⟨trigram, count⟩ := by
  rw [countBytes, Json.decodeBytes?_toBytes _ (StoredCount.wellFormed_toJson _)]
  exact StoredCount.ofJson?_toJson fits

section Reading

variable {root : Path} {location : Location} {folder : String} {tree : FileTree}
  {trigram : Trigram} {ledger : Ledger} {reader : PostingsReader}
  {entries : List (String × FileNode)}

/-- A shard reads as the file at its place. -/
theorem FileTree.read_shard (named : tree.WellNamed)
    (found : tree.find root = .ok (location, .folder entries))
    (linkless : tree.Linkless location folder) (plain : IsPlain folder) (trigram : Trigram)
    (generation : Nat) :
    (tree.read (Postings.shardFile (root / folder) trigram generation)).toOption =
      tree.fileAt? (location ++ folder :: Postings.shardPlace trigram generation) := by
  rw [Postings.shardFile_eq, ← Path.below_cons]
  exact read_below_eq named found linkless (List.forall_mem_cons.mpr
    ⟨plain, Postings.isPlain_placeOf (Postings.isSuffix_shardEnd generation)⟩)

/-- A count reads as the file at its place. -/
theorem FileTree.read_count (named : tree.WellNamed)
    (found : tree.find root = .ok (location, .folder entries))
    (linkless : tree.Linkless location folder) (plain : IsPlain folder) (trigram : Trigram) :
    (tree.read (Postings.countFile (root / folder) trigram)).toOption =
      tree.fileAt? (location ++ folder :: Postings.countPlace trigram) := by
  rw [Postings.countFile_eq, ← Path.below_cons]
  exact read_below_eq named found linkless (List.forall_mem_cons.mpr
    ⟨plain, Postings.isPlain_placeOf Postings.isSuffix_countSuffix⟩)

/-- The file of a shard reads as the shard of the ledger. -/
theorem Written.read_shard (named : tree.WellNamed)
    (found : tree.find root = .ok (location, .folder entries))
    (layered : tree.Layered location folder 3) (plain : IsPlain folder)
    (written : Written location folder tree trigram ledger) (generation : Nat) :
    (tree.read (Postings.shardFile (root / folder) trigram generation)).toOption =
      ledger.shards[generation]?.map (shardBytes trigram generation) :=
  (FileTree.read_shard named found layered.linkless plain trigram generation).trans
    (written.shard generation)

/-- The count file reads as the number of keys in all shards, and not at all without shards. -/
theorem Written.read_count (named : tree.WellNamed)
    (found : tree.find root = .ok (location, .folder entries))
    (layered : tree.Layered location folder 3) (plain : IsPlain folder)
    (written : Written location folder tree trigram ledger) :
    (tree.read (Postings.countFile (root / folder) trigram)).toOption =
      if ledger.shards = [] then none else some (countBytes trigram ledger.total) :=
  (FileTree.read_count named found layered.linkless plain trigram).trans written.count

namespace PostingsReader

theorem readRecord_shard (named : tree.WellNamed)
    (found : tree.find root = .ok (location, .folder entries))
    (layered : tree.Layered location folder 3) (plain : IsPlain folder)
    (base : reader.base = root / folder)
    (written : Written location folder tree trigram ledger) (generation : Nat)
    (fits : generation ≤ Json.max32) (shard : StoredShard) :
    tree.readRecord StoredShard.ofJson? (Postings.shardFile reader.base trigram generation) =
        .ok shard ↔
      ∃ keys, ledger.shards[generation]? = some keys ∧ shard = ⟨keys, generation, trigram⟩ := by
  rw [FileTree.readRecord_eq_ok_iff, base,
    written.read_shard named found layered plain generation]
  simp only [Option.map_eq_some_iff]
  constructor
  · rintro ⟨content, ⟨keys, held, rfl⟩, decoded⟩
    rw [decodeBytes?_shardBytes fits] at decoded
    exact ⟨keys, held, (Option.some.inj decoded).symm⟩
  · rintro ⟨keys, held, rfl⟩
    exact ⟨_, ⟨keys, held, rfl⟩, decodeBytes?_shardBytes fits⟩

/-- The declared number of a trigram with shards is the number of keys in all of them. -/
theorem declared_eq (named : tree.WellNamed)
    (found : tree.find root = .ok (location, .folder entries))
    (layered : tree.Layered location folder 3) (plain : IsPlain folder)
    (base : reader.base = root / folder)
    (written : Written location folder tree trigram ledger) (filled : ledger.shards ≠ [])
    (fits : ledger.total ≤ Json.max64) :
    reader.declared tree trigram = .ok (some ledger.total) := by
  have reads := written.read_count named found layered plain
  rw [if_neg filled, ← base] at reads
  have record : tree.readRecord StoredCount.ofJson? (Postings.countFile reader.base trigram) =
      .ok ⟨trigram, ledger.total⟩ :=
    FileTree.readRecord_eq_ok_iff.mpr ⟨_, reads, decodeBytes?_countBytes fits⟩
  rw [declared, FileTree.readRecord?, record]
  rfl

/-- What has been read stays. -/
theorem mem_loadFrom {key : DocumentKey} (bound generation : Nat) {before : SortedSet DocumentKey}
    (member : key ∈ before) : key ∈ (reader.loadFrom tree trigram bound generation before).1 := by
  induction bound generalizing generation before with
  | zero => exact member
  | succ bound ih =>
      rw [loadFrom]
      split
      · exact ih _ (SortedSet.mem_union.mpr (.inl member))
      · exact member

/-- Where only shards of a tree are read, only its documents are found. -/
theorem mem_loadFrom_of_less {less : FileTree}
    (reads : ∀ generation shard,
      less.readRecord StoredShard.ofJson? (Postings.shardFile reader.base trigram generation) =
          .ok shard →
        tree.readRecord StoredShard.ofJson? (Postings.shardFile reader.base trigram generation) =
          .ok shard) {key : DocumentKey} (bound generation : Nat) {before : SortedSet DocumentKey}
    (member : key ∈ (reader.loadFrom less trigram bound generation before).1) :
    key ∈ (reader.loadFrom tree trigram bound generation before).1 := by
  induction bound generalizing generation before with
  | zero => exact member
  | succ bound ih =>
      rw [loadFrom] at member
      split at member
      · rename_i shard read
        rw [loadFrom, reads generation shard read]
        exact ih _ member
      · exact mem_loadFrom (bound + 1) generation member

/-- If the first shard cannot be read, no document is found. -/
theorem documents_eq_empty
    (lost : (tree.readRecord StoredShard.ofJson?
      (Postings.shardFile reader.base trigram 0)).toOption = none) :
    reader.documents tree trigram = .empty := by
  rw [documents, load]
  cases reader.maxGenerations with
  | zero => rfl
  | succ bound =>
      rw [loadFrom]
      split
      · rename_i shard read
        rw [read] at lost
        cases lost
      · rfl

/-- As far as the reader goes, the files of a trigram hold these shards, and none follows them. -/
def ReadsShards (reader : PostingsReader) (tree : FileTree) (trigram : Trigram)
    (shards : List (SortedSet DocumentKey)) : Prop :=
  ∀ generation ≤ shards.length, generation < reader.maxGenerations →
    (tree.readRecord StoredShard.ofJson?
      (Postings.shardFile reader.base trigram generation)).toOption.map StoredShard.documents =
        shards[generation]?

/-- The shards that were written are read, as far as their generations can be numbered. -/
theorem readsShards_of_written (named : tree.WellNamed)
    (found : tree.find root = .ok (location, .folder entries))
    (layered : tree.Layered location folder 3) (plain : IsPlain folder)
    (base : reader.base = root / folder)
    (written : Written location folder tree trigram ledger)
    (fits : reader.maxGenerations ≤ Json.max32) :
    reader.ReadsShards tree trigram ledger.shards := by
  intro generation _ bound
  have reads := readRecord_shard named found layered plain base written generation (by omega)
  cases next : ledger.shards[generation]? with
  | none =>
      simp only [next, reduceCtorEq, false_and, exists_false, iff_false] at reads
      cases held : tree.readRecord StoredShard.ofJson?
          (Postings.shardFile reader.base trigram generation) with
      | ok shard => exact absurd held (reads shard)
      | error failure => rfl
  | some keys =>
      rw [(reads ⟨keys, generation, trigram⟩).mpr ⟨keys, next, rfl⟩]
      rfl

namespace ReadsShards

variable {shards : List (SortedSet DocumentKey)}

/-- Reading from a generation on finds the shards from there on, up to the bound. -/
theorem loadFrom_spec (reads : reader.ReadsShards tree trigram shards) (bound generation : Nat)
    (limit : generation + bound = reader.maxGenerations) (whole : generation ≤ shards.length)
    (before : SortedSet DocumentKey) :
    (reader.loadFrom tree trigram bound generation before).2 =
        min shards.length reader.maxGenerations ∧
      ∀ key, key ∈ (reader.loadFrom tree trigram bound generation before).1 ↔
        key ∈ before ∨ ∃ shard ∈ (shards.drop generation).take bound, key ∈ shard := by
  induction bound generalizing generation before with
  | zero =>
      rw [loadFrom, List.take_zero]
      exact ⟨by omega, by simp⟩
  | succ bound ih =>
      have here := reads generation whole (by omega)
      rw [loadFrom]
      cases held : tree.readRecord StoredShard.ofJson?
          (Postings.shardFile reader.base trigram generation) with
      | error failure =>
          rw [held] at here
          have last : shards.length ≤ generation := List.getElem?_eq_none_iff.mp here.symm
          have all : generation = min shards.length reader.maxGenerations := by omega
          rw [List.drop_eq_nil_of_le last]
          exact ⟨all, by simp⟩
      | ok shard =>
          rw [held] at here
          obtain ⟨inside, same⟩ := List.getElem?_eq_some_iff.mp here.symm
          obtain ⟨number, members⟩ := ih (generation + 1) (by omega) (by omega)
            (before.union shard.documents)
          refine ⟨number, fun key => (members key).trans ?_⟩
          rw [List.drop_eq_getElem_cons inside, same, SortedSet.mem_union, List.take_succ_cons]
          simp [or_assoc]

/-- The shards of a trigram are read from the first one on, up to the bound. -/
theorem load_spec (reads : reader.ReadsShards tree trigram shards) :
    (reader.load tree trigram).2 = min shards.length reader.maxGenerations ∧
      ∀ key, key ∈ reader.documents tree trigram ↔
        ∃ shard ∈ shards.take reader.maxGenerations, key ∈ shard := by
  obtain ⟨number, members⟩ := reads.loadFrom_spec reader.maxGenerations 0 (Nat.zero_add _)
    (Nat.zero_le _) .empty
  refine ⟨number, fun key => ?_⟩
  rw [documents, load, members key, List.drop_zero, or_iff_right SortedSet.not_mem_empty]

/-- If one shard cannot be read, those before it are all that is read. -/
theorem take {damaged : FileTree} (reads : reader.ReadsShards tree trigram shards) {first : Nat}
    (lost : (damaged.readRecord StoredShard.ofJson?
      (Postings.shardFile reader.base trigram first)).toOption = none)
    (kept : ∀ generation < first,
      (damaged.readRecord StoredShard.ofJson?
          (Postings.shardFile reader.base trigram generation)).toOption =
        (tree.readRecord StoredShard.ofJson?
          (Postings.shardFile reader.base trigram generation)).toOption) :
    reader.ReadsShards damaged trigram (shards.take first) := by
  intro generation whole bound
  rw [List.length_take] at whole
  rcases Nat.lt_or_eq_of_le (Nat.le_trans whole (Nat.min_le_left _ _)) with before | rfl
  · rw [kept generation before, List.getElem?_take_of_lt before]
    exact reads generation (by omega) bound
  · rw [lost, List.getElem?_take_eq_none (Nat.le_refl _)]
    rfl

end ReadsShards

/-- The shards that were written are read from the first one on, up to the bound. -/
theorem load_spec (named : tree.WellNamed)
    (found : tree.find root = .ok (location, .folder entries))
    (layered : tree.Layered location folder 3) (plain : IsPlain folder)
    (base : reader.base = root / folder)
    (written : Written location folder tree trigram ledger)
    (fits : reader.maxGenerations ≤ Json.max32) :
    (reader.load tree trigram).2 = min ledger.shards.length reader.maxGenerations ∧
      ∀ key, key ∈ reader.documents tree trigram ↔
        ∃ shard ∈ ledger.shards.take reader.maxGenerations, key ∈ shard :=
  (readsShards_of_written named found layered plain base written fits).load_spec

/-- The documents of a trigram are keys that its flushed ledger holds. -/
theorem holds_of_mem_documents (named : tree.WellNamed)
    (found : tree.find root = .ok (location, .folder entries))
    (layered : tree.Layered location folder 3) (plain : IsPlain folder)
    (base : reader.base = root / folder)
    (written : Written location folder tree trigram ledger.flush)
    (fits : reader.maxGenerations ≤ Json.max32) {key : DocumentKey}
    (member : key ∈ reader.documents tree trigram) : ledger.Holds key := by
  obtain ⟨shard, read, inside⟩ :=
    ((load_spec named found layered plain base written fits).2 key).mp member
  exact Ledger.holds_flush_iff.mpr ⟨shard, List.mem_of_mem_take read, inside⟩

/-- The documents of a trigram are the keys that its flushed ledger holds. -/
theorem mem_documents_iff (named : tree.WellNamed)
    (found : tree.find root = .ok (location, .folder entries))
    (layered : tree.Layered location folder 3) (plain : IsPlain folder)
    (base : reader.base = root / folder)
    (written : Written location folder tree trigram ledger.flush)
    (fits : reader.maxGenerations ≤ Json.max32)
    (enough : ledger.flush.shards.length ≤ reader.maxGenerations) (key : DocumentKey) :
    key ∈ reader.documents tree trigram ↔ ledger.Holds key := by
  rw [(load_spec named found layered plain base written fits).2, List.take_of_length_le enough,
    Ledger.holds_flush_iff]

end PostingsReader

end Reading

end SourceSearch
