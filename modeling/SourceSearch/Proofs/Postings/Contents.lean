import SourceSearch.Proofs.Postings.Reading

/-!
# The postings of a list of documents

The ledgers after documents were added one after another, and what a reader finds of them.
-/

namespace SourceSearch

/-- A document with its trigrams. -/
abbrev PostingsEntry := DocumentKey × SortedSet Trigram

variable {threshold : Nat} {entries : List PostingsEntry} {key : DocumentKey} {trigram : Trigram}

/-- The documents that have a trigram, in order. -/
def keysWith (entries : List PostingsEntry) (trigram : Trigram) : List DocumentKey :=
  (entries.filter fun entry => trigram ∈ entry.2).map Prod.fst

/-- The ledgers after documents were added one after another. -/
def ledgersOf (threshold : Nat) (entries : List PostingsEntry) : Ledgers := fun trigram =>
  (keysWith entries trigram).foldl (Ledger.add threshold) {}

theorem mem_keysWith_iff : key ∈ keysWith entries trigram ↔
    ∃ trigrams, (key, trigrams) ∈ entries ∧ trigram ∈ trigrams := by
  simp [keysWith]

theorem Ledgers.addDocument_apply (ledgers : Ledgers) {trigrams : List Trigram}
    (distinct : trigrams.Nodup) :
    ledgers.addDocument threshold key trigrams trigram =
      if trigram ∈ trigrams then (ledgers trigram).add threshold key else ledgers trigram := by
  induction trigrams generalizing ledgers with
  | nil => rfl
  | cons first rest ih =>
      rw [List.nodup_cons] at distinct
      rw [addDocument, List.foldl_cons, ← addDocument, ih _ distinct.2]
      by_cases same : trigram = first
      · subst same
        rw [if_neg distinct.1, set_self, if_pos List.mem_cons_self]
      · rw [set_of_ne ledgers same]
        simp only [List.mem_cons, same, false_or]

theorem ledgersOf_append_singleton (entry : PostingsEntry) :
    ledgersOf threshold (entries ++ [entry]) =
      (ledgersOf threshold entries).addDocument threshold entry.1 entry.2.toList := by
  funext trigram
  rw [Ledgers.addDocument_apply _ entry.2.nodup, ledgersOf, ledgersOf, keysWith,
    List.filter_append, List.map_append, List.foldl_append]
  by_cases member : trigram ∈ entry.2
  · rw [if_pos (SortedSet.mem_toList.mpr member), List.filter_cons_of_pos (by simpa using member)]
    rfl
  · rw [if_neg (mt SortedSet.mem_toList.mp member), List.filter_cons_of_neg (by simpa using member)]
    rfl

theorem holds_ledgersOf_iff :
    (ledgersOf threshold entries trigram).Holds key ↔ key ∈ keysWith entries trigram := by
  rw [ledgersOf, Ledger.holds_foldl_add, or_iff_left Ledger.not_holds_empty]

theorem nodup_keysWith (distinct : (entries.map Prod.fst).Nodup) (trigram : Trigram) :
    (keysWith entries trigram).Nodup :=
  distinct.sublist (List.filter_sublist.map _)

/-- A trigram has a ledger if some document has it. -/
theorem ledgersOf_ne_empty_iff :
    ledgersOf threshold entries trigram ≠ {} ↔ ∃ entry ∈ entries, trigram ∈ entry.2 := by
  constructor
  · intro some
    cases keys : keysWith entries trigram with
    | nil =>
        rw [ledgersOf, keys] at some
        exact absurd rfl some
    | cons key rest =>
        obtain ⟨trigrams, member, inside⟩ :=
          mem_keysWith_iff.mp (keys ▸ List.mem_cons_self : key ∈ keysWith entries trigram)
        exact ⟨_, member, inside⟩
  · rintro ⟨entry, member, inside⟩ none
    have holds : (ledgersOf threshold entries trigram).Holds entry.1 :=
      holds_ledgersOf_iff.mpr (mem_keysWith_iff.mpr ⟨entry.2, member, inside⟩)
    rw [none] at holds
    exact Ledger.not_holds_empty holds

/-- The trigrams of documents. -/
def trigramsOf (entries : List PostingsEntry) : SortedSet Trigram :=
  .ofList (entries.flatMap fun entry => entry.2.toList)

theorem mem_trigramsOf_iff :
    trigram ∈ trigramsOf entries ↔ ∃ entry ∈ entries, trigram ∈ entry.2 := by
  rw [trigramsOf, SortedSet.mem_ofList, List.mem_flatMap]
  rfl

/-- A writer knows exactly the trigrams of the documents that were added. -/
theorem Keeps.size_eq {root : Path} {location : Location} {folder : String}
    {writer : PostingsWriter} {tree : FileTree}
    (keeps : Keeps root location folder threshold (ledgersOf threshold entries) writer tree) :
    writer.size = (trigramsOf entries).size := by
  have known (trigram : Trigram) :
      trigram ∈ writer.pending.keys ↔ trigram ∈ trigramsOf entries := by
    rw [mem_trigramsOf_iff, ← ledgersOf_ne_empty_iff, ← keeps.known, SortedMap.keys, List.mem_map,
      Option.isSome_iff_exists]
    constructor
    · rintro ⟨entry, member, rfl⟩
      exact ⟨entry.2, SortedMap.find?_eq_some_iff.mpr member⟩
    · rintro ⟨waiting, is⟩
      exact ⟨_, SortedMap.find?_eq_some_iff.mp is, rfl⟩
  have same : ⟨writer.pending.keys, writer.pending.ascending⟩ = trigramsOf entries :=
    SortedSet.ext_mem known
  rw [PostingsWriter.size, SortedMap.size, SortedSet.size, ← same]
  exact (List.length_map Prod.fst).symm

/-- Documents with different keys fill the shards of each trigram. -/
theorem filled_ledgersOf (positive : 0 < threshold) (distinct : (entries.map Prod.fst).Nodup)
    (trigram : Trigram) :
    Ledger.Filled threshold (ledgersOf threshold entries trigram)
      (keysWith entries trigram).length := by
  have filled := (Ledger.filled_empty positive).foldl_add (nodup_keysWith distinct trigram)
    fun key _ => Ledger.not_holds_empty
  rwa [Nat.zero_add] at filled

/-- Keys as many as the generations can hold need no further shard. -/
theorem length_flush_le_of_keys (positive : 0 < threshold) {keys : List DocumentKey}
    {generations : Nat} (bound : keys.length ≤ threshold * generations) :
    ((keys.foldl (Ledger.add threshold) {} : Ledger).flush.shards).length ≤ generations := by
  have spends := (Ledger.spends_empty threshold).foldl_add keys
  rw [Nat.zero_add] at spends
  exact spends.length_flush_le positive bound

/-- The files in the folder of a namespace are those of a list of documents. -/
structure HoldsPostings (location : Location) (folder : String) (threshold : Nat)
    (entries : List PostingsEntry) (tree : FileTree) : Prop where
  /-- Files lie below two folders. -/
  layered : tree.Layered location folder 3
  /-- Each trigram has the shards of its documents. -/
  written : ∀ trigram : Trigram,
    Written location folder tree trigram (ledgersOf threshold entries trigram).flush

theorem HoldsPostings.of_agrees {location : Location} {folder : String} {before after : FileTree}
    (holds : HoldsPostings location folder threshold entries before) {own : List String}
    (agrees : before.AgreesOutside location own after) (other : folder ∉ own) :
    HoldsPostings location folder threshold entries after where
  layered := holds.layered.of_agrees agrees other
  written trigram := (holds.written trigram).congr fun rest =>
    agrees.fileAt?_below other rest

/-- The files in the folder of a namespace are those of a list of documents that were added in any
order, which may be another one for each trigram. -/
structure HoldsShuffled (location : Location) (folder : String) (threshold : Nat)
    (entries : List PostingsEntry) (tree : FileTree) : Prop where
  /-- Files lie below two folders. -/
  layered : tree.Layered location folder 3
  /-- Each trigram has the shards of its documents in some order. -/
  written : ∀ trigram : Trigram, 3 ≤ trigram.length → ∃ keys : List DocumentKey,
    keys.Perm (keysWith entries trigram) ∧
      Written location folder tree trigram (keys.foldl (Ledger.add threshold) {}).flush

theorem HoldsPostings.shuffled {location : Location} {folder : String} {tree : FileTree}
    (holds : HoldsPostings location folder threshold entries tree) :
    HoldsShuffled location folder threshold entries tree :=
  ⟨holds.layered, fun trigram _ => ⟨_, .refl _, holds.written trigram⟩⟩

theorem HoldsShuffled.of_agrees {location : Location} {folder : String} {before after : FileTree}
    (holds : HoldsShuffled location folder threshold entries before) {own : List String}
    (agrees : before.AgreesOutside location own after) (other : folder ∉ own) :
    HoldsShuffled location folder threshold entries after where
  layered := holds.layered.of_agrees agrees other
  written trigram wide := (holds.written trigram wide).imp fun _ =>
    And.imp_right fun written => written.congr fun rest => agrees.fileAt?_below other rest

/-- The order of the list does not matter. -/
theorem HoldsShuffled.perm {location : Location} {folder : String} {tree : FileTree}
    {others : List PostingsEntry}
    (holds : HoldsShuffled location folder threshold entries tree) (same : entries.Perm others) :
    HoldsShuffled location folder threshold others tree where
  layered := holds.layered
  written trigram wide := (holds.written trigram wide).imp fun _ =>
    And.imp_left fun perm => perm.trans ((same.filter _).map _)

/-- All shards of a list of documents can be written into a folder. -/
def PostingsAreWritable (folder : String) (threshold : Nat) (entries : List PostingsEntry) : Prop :=
  ∀ trigram : Trigram, 3 ≤ trigram.length →
    ∀ generation < (ledgersOf threshold entries trigram).flush.shards.length,
      IsWritable folder trigram generation

/-- What was written could be written. -/
theorem HoldsPostings.areWritable {location : Location} {folder : String} {tree : FileTree}
    (holds : HoldsPostings location folder threshold entries tree) (named : tree.WellNamed) :
    PostingsAreWritable folder threshold entries := by
  intro trigram _ generation bound
  have written := holds.written trigram
  have proper {names : List String} {content : ByteArray}
      (held : tree.fileAt? (location ++ names) = some content) : ∀ name ∈ names, IsName name := by
    intro name member
    obtain ⟨front, rest, rfl⟩ := List.append_of_mem member
    rw [← List.append_assoc] at held
    exact named.isName (FileTree.fileAt?_eq_some_iff.mp held)
  have shard := written.shard generation
  rw [List.getElem?_eq_getElem bound, Option.map_some] at shard
  have count := written.count
  rw [if_neg (List.ne_nil_of_length_pos (by omega))] at count
  exact ⟨proper shard, proper count⟩

/-- A reader finds only documents that have a trigram, whatever its bound is. -/
theorem HoldsPostings.mem_keysWith_of_mem {root : Path} {location : Location} {folder : String}
    {tree : FileTree} (holds : HoldsPostings location folder threshold entries tree)
    (named : tree.WellNamed) {others : List (String × FileNode)}
    (found : tree.find root = .ok (location, .folder others)) (plain : IsPlain folder)
    {reader : PostingsReader} (base : reader.base = root / folder)
    (fits : reader.maxGenerations ≤ Json.max32)
    (member : key ∈ reader.documents tree trigram) : key ∈ keysWith entries trigram :=
  holds_ledgersOf_iff.mp <| PostingsReader.holds_of_mem_documents named found holds.layered plain
    base (holds.written trigram) fits member

/-- Documents need no more shards than hold them. -/
theorem HoldsShuffled.admits {location : Location} {folder : String} {tree : FileTree}
    (holds : HoldsShuffled location folder threshold entries tree) (positive : 0 < threshold)
    (wide : 3 ≤ trigram.length) {generations : Nat}
    (bound : (keysWith entries trigram).length ≤ threshold * generations) :
    tree.fileAt? (location ++ folder :: Postings.shardPlace trigram generations) = none := by
  obtain ⟨keys, perm, written⟩ := holds.written trigram wide
  rw [written.shard, List.getElem?_eq_none
    (length_flush_le_of_keys positive (perm.length_eq ▸ bound)), Option.map_none]

/-- A reader that admits all shards of a trigram finds the documents that have it, whatever order
they were added in. -/
theorem HoldsShuffled.mem_documents_iff {root : Path} {location : Location} {folder : String}
    {tree : FileTree} (holds : HoldsShuffled location folder threshold entries tree)
    (named : tree.WellNamed) {others : List (String × FileNode)}
    (found : tree.find root = .ok (location, .folder others)) (plain : IsPlain folder)
    {reader : PostingsReader} (base : reader.base = root / folder)
    (fits : reader.maxGenerations ≤ Json.max32) (wide : 3 ≤ trigram.length)
    (admits : tree.fileAt?
      (location ++ folder :: Postings.shardPlace trigram reader.maxGenerations) = none) :
    key ∈ reader.documents tree trigram ↔ key ∈ keysWith entries trigram := by
  obtain ⟨keys, perm, written⟩ := holds.written trigram wide
  rw [written.shard, Option.map_eq_none_iff, List.getElem?_eq_none_iff] at admits
  rw [PostingsReader.mem_documents_iff named found holds.layered plain base written fits admits,
    Ledger.holds_foldl_add, or_iff_left Ledger.not_holds_empty, perm.mem_iff]

/-- Documents with different keys make as many shards in every order, and have the same count. -/
theorem HoldsShuffled.count_eq {location : Location} {folder : String} {before after : FileTree}
    (holds : HoldsShuffled location folder threshold entries before)
    (holds' : HoldsShuffled location folder threshold entries after) (positive : 0 < threshold)
    (distinct : (entries.map Prod.fst).Nodup) (wide : 3 ≤ trigram.length) :
    after.fileAt? (location ++ folder :: Postings.countPlace trigram) =
        before.fileAt? (location ++ folder :: Postings.countPlace trigram) ∧
      ∀ generation,
        (after.fileAt? (location ++ folder :: Postings.shardPlace trigram generation)).isSome =
          (before.fileAt?
            (location ++ folder :: Postings.shardPlace trigram generation)).isSome := by
  obtain ⟨keys, perm, written⟩ := holds.written trigram wide
  obtain ⟨keys', perm', written'⟩ := holds'.written trigram wide
  have once := nodup_keysWith distinct trigram
  have fills {keys : List DocumentKey} (perm : keys.Perm (keysWith entries trigram)) :
      Ledger.Filled threshold (keys.foldl (Ledger.add threshold) {})
        (keysWith entries trigram).length := by
    have filled := (Ledger.filled_empty positive).foldl_add (perm.nodup_iff.mpr once)
      fun key _ => Ledger.not_holds_empty
    rwa [Nat.zero_add, perm.length_eq] at filled
  have length := (fills perm').length_flush.trans (fills perm).length_flush.symm
  have total := (fills perm').total_flush_eq.trans (fills perm).total_flush_eq.symm
  refine ⟨?_, fun generation => ?_⟩
  · rw [written'.count, written.count, total]
    refine if_congr ?_ rfl rfl
    rw [← List.length_eq_zero_iff, length, List.length_eq_zero_iff]
  · rw [written'.shard, written.shard, Option.isSome_map, Option.isSome_map, Bool.eq_iff_iff,
      isSome_getElem?, isSome_getElem?, length]

end SourceSearch
