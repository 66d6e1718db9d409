import Mathlib.Data.Set.Defs
import SourceSearch.Proofs.Crawl.Paths
import SourceSearch.Proofs.FileTree.Made
import SourceSearch.Proofs.FileTree.Unchanged
import SourceSearch.Proofs.Store.Keys

/-!
# Stores as maps

However many records are written to a store that was empty, under whatever keys, the store is the
map of what was written: each pair of a key and a suffix has a file of its own, two steps below the
folder of the store, which holds what was written last under that pair, and the keys that are
listed are those that were written.  Keys that would lead elsewhere are refused.
-/

namespace SourceSearch
namespace Store

/-! ## Writes -/

/-- What is stored as a record. -/
inductive Content where
  /-- Bytes as they are. -/
  | bytes (content : ByteArray)
  /-- A document. -/
  | document (json : Json)

/-- The bytes that are stored. -/
def Content.toBytes : Content → ByteArray
  | bytes content => content
  | document json => json.toBytes

/-- A record that is written to a store. -/
structure Write where
  /-- The key. -/
  key : String
  /-- The suffix. -/
  suffix : String
  /-- What is stored. -/
  content : Content

/-- Write a record. -/
def Write.task (write : Write) (store : Store) : TaskM Unit :=
  match write.content with
  | .bytes content => store.put write.key write.suffix content
  | .document json => store.putRecord write.key write.suffix json

/-- The tree after a number of writes, whether they succeed or fail. -/
def writeAll (store : Store) (writes : List Write) (tree : FileTree) : FileTree :=
  writes.foldl (fun tree write => ((write.task store).runOn tree).2) tree

/-- What was written last under a key and a suffix. -/
def lastWritten? (writes : List Write) (key suffix : String) : Option Content :=
  (writes.reverse.find? fun write => write.key = key ∧ write.suffix = suffix).map Write.content

theorem lastWritten?_concat (writes : List Write) (write : Write) (key suffix : String) :
    lastWritten? (writes ++ [write]) key suffix =
      if write.key = key ∧ write.suffix = suffix then some write.content
      else lastWritten? writes key suffix := by
  rw [lastWritten?, List.reverse_append, List.reverse_singleton, List.singleton_append,
    List.find?_cons]
  split
  · rename_i same
    rw [if_pos (of_decide_eq_true same)]
    rfl
  · rename_i other
    rw [if_neg (of_decide_eq_false other)]
    rfl

theorem isSome_lastWritten?_iff {writes : List Write} {key suffix : String} :
    (lastWritten? writes key suffix).isSome ↔
      ∃ write ∈ writes, write.key = key ∧ write.suffix = suffix := by
  rw [lastWritten?, Option.isSome_map, List.find?_isSome]
  simp

/-- Suffixes that tell records apart: no slash is in them, and none ends in another. -/
structure IsSuffixFamily (suffixes : Set String) : Prop where
  /-- A name that ends in a suffix stays one step. -/
  noSlash : ∀ suffix ∈ suffixes, '/' ∉ suffix.toList
  /-- No suffix ends in another. -/
  apart : ∀ suffix ∈ suffixes, ∀ other ∈ suffixes,
    suffix.toList <:+ other.toList → suffix = other

/-- A file name that the file system takes. -/
structure IsAccepted (name : String) : Prop where
  /-- The character that ends names is not part of it. -/
  noNul : '\x00' ∉ name.toList
  /-- It fits an entry. -/
  short : name.utf8ByteSize ≤ maxNameBytes

/-! ## Places -/

variable {store : Store} {tree made after : FileTree} {location : Location} {suffixes : Set String}
  {own : List String} {writes : List Write} {key suffix shard : String} {names : List String}

theorem utf8ByteSize_shard (admitted : folder? key = some shard) : shard.utf8ByteSize = 2 := by
  have named := (folder?_admits admitted).1
  rw [shard?] at named
  split at named
  · split at named
    · rename_i wide
      obtain rfl := Option.some.inj named
      simp [wide]
    · split at named
      · split at named
        · rename_i narrow
          obtain rfl := Option.some.inj named
          simp [narrow]
        · cases named
      · cases named
  · cases named

theorem backslash_notMem_shard (admitted : folder? key = some shard) : '\\' ∉ shard.toList := by
  have inside := (starts_of_shard? (folder?_admits admitted).1).2
  rw [folder?] at admitted
  split at admitted
  · split at admitted
    · cases admitted
    · rename_i clean
      obtain rfl := Option.some.inj admitted
      exact fun slash => clean (.inr (.inr (inside.subset slash)))
  · cases admitted

/-- The file of a record is one step, whatever its key and suffix are. -/
theorem isPlain_file (admitted : folder? key = some shard) (noSlash : '/' ∉ suffix.toList) :
    IsPlain (key ++ suffix) := by
  obtain ⟨named, noDot, clean⟩ := folder?_admits admitted
  obtain ⟨nonempty, inside⟩ := starts_of_shard? named
  obtain ⟨first, rest, letters⟩ := List.exists_cons_of_ne_nil nonempty
  obtain ⟨later, whole⟩ := inside
  have starts : (key ++ suffix).toList.head? = some first := by
    rw [String.toList_append, ← whole, letters]
    rfl
  have notDot : first ≠ '.' := fun dot => noDot (by simp [letters, dot])
  refine ⟨?_, ?_, ?_, fun slash => ?_⟩
  · intro empty
    rw [empty] at starts
    cases starts
  · intro here
    rw [here] at starts
    exact notDot (Option.some.inj starts).symm
  · intro up
    rw [up] at starts
    exact notDot (Option.some.inj starts).symm
  · rw [String.toList_append, List.mem_append] at slash
    exact slash.elim clean noSlash

theorem isPlain_of_place (noSlash : '/' ∉ suffix.toList) (placed : place? key suffix = some names) :
    ∀ name ∈ names, IsPlain name := by
  obtain ⟨shard, admitted, rfl⟩ := place?_eq_some_iff.mp placed
  simp only [List.forall_mem_cons]
  exact ⟨isPlain_shard admitted, isPlain_file admitted noSlash, by simp⟩

/-- The names that lead to a record are proper if the name of its file is accepted. -/
theorem isName_of_place (noSlash : '/' ∉ suffix.toList) (placed : place? key suffix = some names)
    (accepted : IsAccepted (key ++ suffix)) : ∀ name ∈ names, IsName name := by
  obtain ⟨shard, admitted, rfl⟩ := place?_eq_some_iff.mp placed
  have inside := (starts_of_shard? (folder?_admits admitted).1).2
  simp only [List.forall_mem_cons]
  refine ⟨⟨isPlain_shard admitted, fun nul => accepted.noNul ?_, ?_⟩,
    ⟨isPlain_file admitted noSlash, accepted.noNul, accepted.short⟩, by simp⟩
  · rw [String.toList_append]
    exact List.mem_append_left _ (inside.subset nul)
  · rw [utf8ByteSize_shard admitted]
    decide

/-- Different pairs of a key and a suffix have different files. -/
theorem IsSuffixFamily.pair_eq (family : IsSuffixFamily suffixes) {other suffix' : String}
    (member : suffix ∈ suffixes) (member' : suffix' ∈ suffixes)
    (same : key ++ suffix = other ++ suffix') : key = other ∧ suffix = suffix' := by
  have lists := congrArg String.toList same
  rw [String.toList_append, String.toList_append] at lists
  have ends : suffix.toList <:+ other.toList ++ suffix'.toList := ⟨key.toList, lists⟩
  obtain rfl : suffix = suffix' := by
    rcases List.suffix_or_suffix_of_suffix ends (List.suffix_append _ _) with inner | inner
    · exact family.apart _ member _ member' inner
    · exact (family.apart _ member' _ member inner).symm
  exact ⟨String.toList_inj.mp (List.append_cancel_right lists), rfl⟩

theorem IsSuffixFamily.place_inj (family : IsSuffixFamily suffixes) {other suffix' : String}
    (member : suffix ∈ suffixes) (member' : suffix' ∈ suffixes)
    (first : place? key suffix = some names) (second : place? other suffix' = some names) :
    key = other ∧ suffix = suffix' := by
  obtain ⟨shard, -, rfl⟩ := place?_eq_some_iff.mp first
  obtain ⟨shard', -, same⟩ := place?_eq_some_iff.mp second
  simp only [List.cons.injEq, and_true] at same
  exact family.pair_eq member member' same.2

/-! ## What a store keeps -/

theorem Write.runOn_task (write : Write) (tree : FileTree) :
    (write.task store).runOn tree =
      match place? write.key write.suffix with
      | some names =>
          (TaskM.writeFile (store.root.below names) write.content.toBytes).runOn tree
      | none => (.error (.invalidKey write.key), tree) := by
  have puts : write.task store = store.put write.key write.suffix write.content.toBytes := by
    rw [task]
    cases write.content <;> rfl
  rw [puts]
  exact runOn_put write.content.toBytes

/-- The folder of a store holds what was written, and nothing else. -/
structure Keeps (store : Store) (suffixes : Set String) (own : List String) (location : Location)
    (writes : List Write) (tree : FileTree) : Prop where
  /-- Names are proper. -/
  named : tree.WellNamed
  /-- The folder is found whatever its subfolders hold. -/
  hosts : tree.Hosts store.root own location
  /-- There are subfolders, and files in them. -/
  shards : ∀ shard, tree.Layered location shard 1
  /-- Each record holds what was written last. -/
  files : ∀ key, ∀ suffix ∈ suffixes, ∀ names, place? key suffix = some names →
    tree.fileAt? (location ++ names) = (lastWritten? writes key suffix).map Content.toBytes
  /-- Each file is that of a record. -/
  known : ∀ names content, tree.fileAt? (location ++ names) = some content →
    ∃ write ∈ writes, place? write.key write.suffix = some names

/-- An empty folder keeps nothing. -/
theorem keeps_nil (named : tree.WellNamed)
    (found : tree.find store.root = .ok (location, .folder [])) (own : List String) :
    Keeps store suffixes own location [] tree := by
  have nothing (names : List String) : tree.fileAt? (location ++ names) = none := by
    cases names with
    | nil =>
        rw [List.append_nil, FileTree.fileAt?,
          FileTree.kind?_of_at? (FileTree.find_iff.mp found).2.2]
        rfl
    | cons name rest => rw [FileTree.fileAt?, FileTree.kind?_below_of_empty found]
  exact {
    named
    hosts := FileTree.hosts_of_empty found own
    shards := fun shard =>
      FileTree.layered_of_none (FileTree.kind?_below_of_empty found shard [])
    files := fun _ _ _ names _ => nothing names
    known := fun names content file => by simp [nothing] at file }

/-- A write with a proper name succeeds, and the store keeps it. -/
theorem Keeps.write (keeps : Keeps store suffixes own location writes tree)
    (family : IsSuffixFamily suffixes) {write : Write} (member : write.suffix ∈ suffixes)
    (placed : place? write.key write.suffix = some names)
    (shelved : ∀ shard ∈ names.head?, shard ∈ own)
    (accepted : IsAccepted (write.key ++ write.suffix)) :
    ∃ after, (write.task store).runOn tree = (.ok (), after) ∧
      Keeps store suffixes own location (writes ++ [write]) after := by
  obtain ⟨shard, admitted, rfl⟩ := place?_eq_some_iff.mp placed
  have proper := isName_of_place (family.noSlash _ member) placed accepted
  rw [Write.runOn_task, placed]
  simp only
  rcases run : (TaskM.writeFile (store.root.below [shard, write.key ++ write.suffix])
    write.content.toBytes).runOn tree with ⟨outcome, after⟩
  have wrote := FileTree.writeFile_layered keeps.hosts (shelved shard rfl) (keeps.shards shard)
    (List.cons_ne_nil _ _) rfl (fun name inside => (proper name inside).toIsPlain) run
  have succeeded : outcome.isOk = true := wrote.succeeds.mpr proper
  obtain rfl : outcome = .ok () := by
    cases outcome with
    | error => cases succeeded
    | ok => rfl
  refine ⟨after, rfl, ?_⟩
  have files (names : List String) : after.fileAt? (location ++ names) =
      if names = [shard, write.key ++ write.suffix] then some write.content.toBytes
      else tree.fileAt? (location ++ names) := by
    simpa [succeeded] using wrote.files (location ++ names)
  exact {
    named := wrote.stays.named keeps.named
    hosts := keeps.hosts.of_agrees (wrote.stays.agrees.mono (by simpa using shelved shard rfl))
    shards := fun other => by
      by_cases same : other = shard
      · exact same ▸ wrote.stays.layered (keeps.shards shard)
      · exact (keeps.shards other).of_agrees wrote.stays.agrees (by simpa using same)
    files := fun key suffix known others held => by
      rw [files, lastWritten?_concat]
      by_cases same : write.key = key ∧ write.suffix = suffix
      · obtain ⟨rfl, rfl⟩ := same
        rw [if_pos (Option.some.inj (held.symm.trans placed)), if_pos ⟨rfl, rfl⟩, Option.map_some]
      · rw [if_neg same, if_neg, keeps.files key suffix known others held]
        rintro rfl
        exact same (family.place_inj member known placed held)
    known := fun others content file => by
      rw [files] at file
      split at file
      · rename_i here
        exact ⟨write, by simp, here ▸ placed⟩
      · obtain ⟨earlier, inside, held⟩ := keeps.known others content file
        exact ⟨earlier, List.mem_append_left _ inside, held⟩ }

/-- A refused write makes no difference. -/
theorem Keeps.refused (keeps : Keeps store suffixes own location writes tree) {write : Write}
    (refused : place? write.key write.suffix = none) :
    Keeps store suffixes own location (writes ++ [write]) tree :=
  { keeps with
    files := fun key suffix known names held => by
      rw [lastWritten?_concat, if_neg, keeps.files key suffix known names held]
      rintro ⟨rfl, rfl⟩
      rw [refused] at held
      cases held
    known := fun names content file => by
      obtain ⟨earlier, inside, held⟩ := keeps.known names content file
      exact ⟨earlier, List.mem_append_left _ inside, held⟩ }

/-! ## Runs of writes -/

/-- A store that keeps nothing yet: its folder holds nothing, or is missing and can be made. -/
inductive IsEmpty (store : Store) (tree : FileTree) : Prop where
  /-- The folder is there and holds nothing. -/
  | bare {location : Location} (found : tree.find store.root = .ok (location, .folder []))
  /-- The folder is not there. -/
  | unmade {location : Location} {made : FileTree} (is : tree.IsMade store.root location made)

/-- The store keeps what was written, or would keep it once its folder is made. -/
structure Follows (store : Store) (suffixes : Set String) (own : List String) (location : Location)
    (writes : List Write) (tree made : FileTree) : Prop where
  /-- What is kept once the folder is made. -/
  keeps : Keeps store suffixes own location writes made
  /-- The folder has been made, or it is missing. -/
  settled : tree = made ∨ tree.IsMade store.root location made

theorem exists_follows (named : tree.WellNamed) (empty : store.IsEmpty tree) (own : List String) :
    ∃ location made, Follows store suffixes own location [] tree made := by
  cases empty with
  | bare found => exact ⟨_, tree, keeps_nil named found own, .inl rfl⟩
  | unmade is => exact ⟨_, _, keeps_nil (is.grows.named named) is.found own, .inr is⟩

/-- A write is refused and nothing changes, or it succeeds; the store follows. -/
theorem Follows.write (follows : Follows store suffixes own location writes tree made)
    (family : IsSuffixFamily suffixes) {write : Write} (member : write.suffix ∈ suffixes)
    (shelved : ∀ shard, folder? write.key = some shard → shard ∈ own)
    (accepted : (folder? write.key).isSome → IsAccepted (write.key ++ write.suffix)) :
    (((write.task store).runOn tree).1 = .ok () ↔ (folder? write.key).isSome) ∧
      ∃ later, Follows store suffixes own location (writes ++ [write])
        ((write.task store).runOn tree).2 later := by
  cases placed : place? write.key write.suffix with
  | none =>
      have refused : folder? write.key = none := Option.map_eq_none_iff.mp placed
      rw [Write.runOn_task, placed, refused]
      exact ⟨by simp, made, follows.keeps.refused placed, follows.settled⟩
  | some names =>
      obtain ⟨shard, admitted, rfl⟩ := place?_eq_some_iff.mp placed
      have accepted := accepted (by simp [admitted])
      obtain ⟨after, run, keeps⟩ := follows.keeps.write family member placed
        (fun _ is => by cases is; exact shelved shard admitted) accepted
      have same : (write.task store).runOn tree = (write.task store).runOn made := by
        rcases follows.settled with rfl | is
        · rfl
        · have proper := isName_of_place (family.noSlash _ member) placed accepted
          rw [Write.runOn_task, Write.runOn_task, placed]
          have above : ∀ name ∈ [shard], IsName name :=
            fun name inside => proper name (by simp_all)
          exact is.runOn_writeFile_below (by simp) above (proper _ (by simp)).toIsPlain _
      rw [same, run]
      exact ⟨by simp [admitted], after, keeps, .inl rfl⟩

/-- The store follows all writes, one after the other. -/
theorem exists_follows_writeAll (family : IsSuffixFamily suffixes) (writes : List Write)
    (members : ∀ write ∈ writes, write.suffix ∈ suffixes)
    (shelved : ∀ write ∈ writes, ∀ shard, folder? write.key = some shard → shard ∈ own)
    (accepted : ∀ write ∈ writes, (folder? write.key).isSome →
      IsAccepted (write.key ++ write.suffix))
    {earlier : List Write} (follows : Follows store suffixes own location earlier tree made) :
    ∃ later, Follows store suffixes own location (earlier ++ writes) (store.writeAll writes tree)
      later := by
  induction writes generalizing earlier tree made with
  | nil => exact ⟨made, by simpa [writeAll] using follows⟩
  | cons write writes ih =>
      rw [List.forall_mem_cons] at members shelved accepted
      obtain ⟨-, later, next⟩ := follows.write family members.1 shelved.1 accepted.1
      rw [List.append_cons]
      exact ih members.2 shelved.2 accepted.2 next

theorem fileAt?_of_isMade (is : tree.IsMade store.root location made) (shard name : String) :
    made.fileAt? (location ++ [shard, name]) = none := by
  rw [FileTree.fileAt?, FileTree.kind?_below_of_empty is.found]

namespace Follows

variable (follows : Follows store suffixes own location writes tree made)

include follows

/-- A record reads as what was written last. -/
theorem read_eq (family : IsSuffixFamily suffixes) (member : suffix ∈ suffixes)
    (placed : place? key suffix = some names) (accepted : IsAccepted (key ++ suffix)) :
    tree.read (store.root.below names) =
      ((lastWritten? writes key suffix).map Content.toBytes).elim (.error .missing) .ok := by
  have proper := isName_of_place (family.noSlash _ member) placed accepted
  rw [← follows.keeps.files key suffix member names placed]
  obtain ⟨shard, -, rfl⟩ := place?_eq_some_iff.mp placed
  rcases follows.settled with rfl | is
  · obtain ⟨entries, found⟩ := follows.keeps.hosts.find
    exact FileTree.read_below_eq_elim found (follows.keeps.shards shard) rfl proper
  · rw [fileAt?_of_isMade is, is.read_below_eq_missing (by simp) proper]
    rfl

/-- Files of records are those that were written. -/
theorem written_iff (family : IsSuffixFamily suffixes) (member : suffix ∈ suffixes)
    (members : ∀ write ∈ writes, write.suffix ∈ suffixes) {shard : String} :
    (made.fileAt? (location ++ [shard, key ++ suffix])).isSome ↔
      folder? key = some shard ∧ ∃ write ∈ writes, write.key = key ∧ write.suffix = suffix := by
  constructor
  · intro recorded
    obtain ⟨content, file⟩ := Option.isSome_iff_exists.mp recorded
    obtain ⟨write, inside, held⟩ := follows.keeps.known _ content file
    obtain ⟨other, admitted, same⟩ := place?_eq_some_iff.mp held
    simp only [List.cons.injEq, and_true] at same
    obtain ⟨rfl, rfl⟩ := family.pair_eq member (members write inside) same.2
    exact ⟨same.1 ▸ admitted, write, inside, rfl, rfl⟩
  · rintro ⟨admitted, written⟩
    rw [follows.keeps.files key suffix member _ (place?_eq_some_iff.mpr ⟨shard, admitted, rfl⟩),
      Option.isSome_map]
    exact isSome_lastWritten?_iff.mpr written

/-- The keys that are listed are those that were written. -/
theorem exists_keys_eq (family : IsSuffixFamily suffixes) (member : suffix ∈ suffixes)
    (members : ∀ write ∈ writes, write.suffix ∈ suffixes) :
    ∃ keys, store.keys tree suffix = .ok keys ∧ keys.Pairwise (· < ·) ∧
      ∀ key, key ∈ keys ↔ (folder? key).isSome ∧
        ∃ write ∈ writes, write.key = key ∧ write.suffix = suffix := by
  have shards (key : String) :
      (∃ shard, (made.fileAt? (location ++ [shard, key ++ suffix])).isSome) ↔
        (folder? key).isSome ∧ ∃ write ∈ writes, write.key = key ∧ write.suffix = suffix := by
    simp only [follows.written_iff family member members, exists_and_right,
      Option.isSome_iff_exists]
  rcases follows.settled with rfl | is
  · obtain ⟨entries, found⟩ := follows.keeps.hosts.find
    obtain ⟨keys, listed, ascending, exact⟩ :=
      keys_of_find follows.keeps.named found follows.keeps.shards fun shard key recorded =>
        ((follows.written_iff family member members).mp recorded).1
    exact ⟨keys, listed, ascending, fun key => (exact key).trans (shards key)⟩
  · have lists : tree.list store.root = .error .missing := by rw [FileTree.list, is.missing]
    refine ⟨[], by rw [Store.keys, lists], .nil, fun key => ?_⟩
    rw [← shards]
    simp [fileAt?_of_isMade is]

end Follows

/-! ## The map -/

/-- A store acts as a map from pairs of a key and a suffix to contents, and the paths of its records
stay below its folder. -/
structure ActsAsMap (store : Store) (suffixes : Set String) (writes : List Write)
    (tree : FileTree) : Prop where
  /-- A key is refused, and then nothing is read or changed, or it has a file in the subfolder of
  its first two bytes, both of them ordinary names. -/
  places : ∀ key, ∀ suffix ∈ suffixes,
    (store.path key suffix = .error (.invalidKey key) ∧
      ∀ before, store.get before key suffix = .error (.invalidKey key) ∧
        ∀ content, (Write.task ⟨key, suffix, content⟩ store).runOn before =
          (.error (.invalidKey key), before)) ∨
    ∃ shard rest, key = shard ++ rest ∧ shard.utf8ByteSize = 2 ∧
      store.path key suffix = .ok (store.root / shard / (key ++ suffix)) ∧
      (store.root / shard / (key ++ suffix)).components =
        store.root.components ++ [.name shard, .name (key ++ suffix)] ∧
      IsPlain shard ∧ '\\' ∉ shard.toList ∧ IsPlain (key ++ suffix)
  /-- Different pairs have different paths. -/
  distinct : ∀ key, ∀ suffix ∈ suffixes, ∀ path, store.path key suffix = .ok path →
    ∀ other, ∀ suffix' ∈ suffixes, ∀ path', store.path other suffix' = .ok path' →
      path.components = path'.components → key = other ∧ suffix = suffix'
  /-- A record of a key that is not refused is written. -/
  succeeds : ∀ earlier write later, writes = earlier ++ write :: later →
    (store.path write.key write.suffix).isOk →
      ((write.task store).runOn (store.writeAll earlier tree)).1 = .ok ()
  /-- The bytes that are read are those that were written last, if any were. -/
  bytes : ∀ key, ∀ suffix ∈ suffixes, (store.path key suffix).isOk → IsAccepted (key ++ suffix) →
    store.get (store.writeAll writes tree) key suffix =
      .ok ((lastWritten? writes key suffix).map Content.toBytes)
  /-- The value that is read is the one that was written last, if any was. -/
  values : ∀ {α : Type} (decode : Json → Option α) key, ∀ suffix ∈ suffixes,
    (store.path key suffix).isOk → IsAccepted (key ++ suffix) →
      (lastWritten? writes key suffix = none →
        store.getRecord (store.writeAll writes tree) decode key suffix = .ok none) ∧
      ∀ json value, lastWritten? writes key suffix = some (.document json) → json.WellFormed →
        decode json = some value →
          store.getRecord (store.writeAll writes tree) decode key suffix = .ok (some value)
  /-- The keys are those that were written with the suffix, each of them once and in order. -/
  keys : ∀ suffix ∈ suffixes, ∃ keys,
    store.keys (store.writeAll writes tree) suffix = .ok keys ∧ keys.Pairwise (· < ·) ∧
      ∀ key, key ∈ keys ↔ (store.path key suffix).isOk ∧
        ∃ write ∈ writes, write.key = key ∧ write.suffix = suffix

theorem isOk_path_iff : (store.path key suffix).isOk ↔ (folder? key).isSome := by
  rw [path]
  cases folder? key <;> simp [Except.isOk, Except.toBool]

theorem path_eq_ok_iff {path : Path} :
    store.path key suffix = .ok path ↔
      ∃ names, place? key suffix = some names ∧ path = store.root.below names := by
  rw [path_eq_below]
  cases place? key suffix <;> simp [eq_comm]

/-- A refused key has no file, and nothing happens under it. -/
theorem refuses (refused : place? key suffix = none) :
    store.path key suffix = .error (.invalidKey key) ∧
      ∀ before, store.get before key suffix = .error (.invalidKey key) ∧
        ∀ content, (Write.task ⟨key, suffix, content⟩ store).runOn before =
          (.error (.invalidKey key), before) := by
  refine ⟨by rw [path_eq_below, refused], fun before => ⟨?_, fun content => ?_⟩⟩
  · rw [get, path_eq_below, refused]
    rfl
  · rw [Write.runOn_task, refused]

/-- A key that is admitted has a file in the subfolder of its first two bytes. -/
theorem confines (noSlash : '/' ∉ suffix.toList) (admitted : folder? key = some shard) :
    ∃ rest, key = shard ++ rest ∧ shard.utf8ByteSize = 2 ∧
      store.path key suffix = .ok (store.root / shard / (key ++ suffix)) ∧
      (store.root / shard / (key ++ suffix)).components =
        store.root.components ++ [.name shard, .name (key ++ suffix)] ∧
      IsPlain shard ∧ '\\' ∉ shard.toList ∧ IsPlain (key ++ suffix) := by
  have plain := isPlain_shard admitted
  have plainFile := isPlain_file admitted noSlash
  obtain ⟨rest, whole⟩ := (starts_of_shard? (folder?_admits admitted).1).2
  refine ⟨String.ofList rest, ?_, utf8ByteSize_shard admitted, by rw [path, admitted], ?_, plain,
    backslash_notMem_shard admitted, plainFile⟩
  · exact String.toList_inj.mp (by rw [String.toList_append, String.toList_ofList, whole])
  · rw [Path.components_join _ plainFile, Path.components_join _ plain, List.append_assoc]
    rfl

/-- **A store that was empty is the map of what was written to it.** -/
theorem actsAsMap (named : tree.WellNamed) (empty : store.IsEmpty tree)
    (family : IsSuffixFamily suffixes) (members : ∀ write ∈ writes, write.suffix ∈ suffixes)
    (accepted : ∀ write ∈ writes, (store.path write.key write.suffix).isOk →
      IsAccepted (write.key ++ write.suffix)) :
    store.ActsAsMap suffixes writes tree := by
  simp only [isOk_path_iff] at accepted
  obtain ⟨location, made, start⟩ : ∃ location made, Follows store suffixes
      (writes.filterMap fun write => folder? write.key) location [] tree made :=
    exists_follows named empty _
  have shelved (write : Write) (inside : write ∈ writes) (shard : String)
      (admitted : folder? write.key = some shard) :
      shard ∈ writes.filterMap fun write => folder? write.key :=
    List.mem_filterMap.mpr ⟨write, inside, admitted⟩
  obtain ⟨later, follows⟩ :=
    exists_follows_writeAll family writes members shelved accepted start
  rw [List.nil_append] at follows
  have placed {key suffix : String} (admitted : (store.path key suffix).isOk) :
      ∃ names, place? key suffix = some names := by
    obtain ⟨shard, held⟩ := Option.isSome_iff_exists.mp (isOk_path_iff.mp admitted)
    exact ⟨_, place?_eq_some_iff.mpr ⟨shard, held, rfl⟩⟩
  exact {
    places := fun key suffix member => by
      cases admitted : folder? key with
      | none => exact .inl (refuses (by rw [place?, admitted]; rfl))
      | some shard => exact .inr ⟨shard, confines (family.noSlash _ member) admitted⟩
    distinct := fun key suffix member path is other suffix' member' path' is' same => by
      obtain ⟨names, held, rfl⟩ := path_eq_ok_iff.mp is
      obtain ⟨names', held', rfl⟩ := path_eq_ok_iff.mp is'
      rw [Path.components_below _ (isPlain_of_place (family.noSlash _ member) held),
        Path.components_below _ (isPlain_of_place (family.noSlash _ member') held'),
        List.append_cancel_left_eq] at same
      obtain rfl := List.map_injective_iff.mpr (fun _ _ => Path.Component.name.inj) same
      exact family.place_inj member member' held held'
    succeeds := fun earlier write rest whole admitted => by
      subst whole
      rw [List.forall_mem_append, List.forall_mem_cons] at members shelved accepted
      obtain ⟨between, next⟩ :=
        exists_follows_writeAll family earlier members.1 shelved.1 accepted.1 start
      exact (next.write family members.2.1 shelved.2.1 accepted.2.1).1.mpr
        (isOk_path_iff.mp admitted)
    bytes := fun key suffix member admitted taken => by
      obtain ⟨names, held⟩ := placed admitted
      rw [get_eq held, follows.read_eq family member held taken]
      cases lastWritten? writes key suffix <;> rfl
    values := fun decode key suffix member admitted taken => by
      obtain ⟨names, held⟩ := placed admitted
      rw [getRecord_eq held, FileTree.readRecord?, FileTree.readRecord,
        follows.read_eq family member held taken]
      refine ⟨fun never => by rw [never]; rfl, fun json value last formed decodes => ?_⟩
      rw [last]
      simp [Content.toBytes, Json.decodeBytes?_toBytes decode formed, decodes]
    keys := fun suffix member => by
      simp only [isOk_path_iff]
      exact follows.exists_keys_eq family member members }

/-- A key that would lead out of the store, a record of ASCII characters, one of a character of two
bytes that is written over, and a key of dots. -/
def sampleWrites : List Write := [
  ⟨"ab/../c", ".a", .bytes "x".toUTF8⟩,
  ⟨"abc", ".a", .bytes "x".toUTF8⟩,
  ⟨"ü", ".b", .document (.ofText "x")⟩,
  ⟨"..", ".a", .bytes "x".toUTF8⟩,
  ⟨"ü", ".b", .document (.ofText "𝄞")⟩]

/-- The suffixes of the sample. -/
def sampleSuffixes : Set String := fun suffix => suffix ∈ [".a", ".b"]

theorem isSuffixFamily_sample : IsSuffixFamily sampleSuffixes where
  noSlash := by
    change ∀ suffix ∈ [".a", ".b"], _
    decide
  apart := by
    change ∀ suffix ∈ [".a", ".b"], ∀ other ∈ [".a", ".b"], _
    decide

theorem isMade_sample :
    FileTree.empty.IsMade ⟨"/store"⟩ ["store"] { entries := [("store", .folder [])] } where
  missing := by rfl
  makes := by rfl
  found := by rfl

theorem isAccepted_sample : ∀ write ∈ sampleWrites, IsAccepted (write.key ++ write.suffix) := by
  have each : ∀ write ∈ sampleWrites, '\x00' ∉ (write.key ++ write.suffix).toList ∧
      (write.key ++ write.suffix).utf8ByteSize ≤ maxNameBytes := by decide
  exact fun write inside => ⟨(each write inside).1, (each write inside).2⟩

theorem actsAsMap_sample :
    FileTree.empty.WellNamed ∧ IsEmpty ⟨⟨"/store"⟩⟩ FileTree.empty ∧
      IsSuffixFamily sampleSuffixes ∧ (∀ write ∈ sampleWrites, write.suffix ∈ sampleSuffixes) ∧
      (∀ write ∈ sampleWrites, IsAccepted (write.key ++ write.suffix)) ∧
      ActsAsMap ⟨⟨"/store"⟩⟩ sampleSuffixes sampleWrites FileTree.empty := by
  have members : ∀ write ∈ sampleWrites, write.suffix ∈ sampleSuffixes := by
    change ∀ write ∈ sampleWrites, write.suffix ∈ [".a", ".b"]
    decide
  exact ⟨FileNode.wellNamed_emptyFolder, .unmade isMade_sample, isSuffixFamily_sample, members,
    isAccepted_sample, actsAsMap FileNode.wellNamed_emptyFolder (.unmade isMade_sample)
      isSuffixFamily_sample members fun write inside _ => isAccepted_sample write inside⟩

end Store
end SourceSearch
