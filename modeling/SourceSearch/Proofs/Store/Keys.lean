import SourceSearch.Proofs.Store.Records

/-!
# The keys of a store

Listing a store that holds nothing but records of one suffix gives the key of each record, once.
-/

namespace SourceSearch
namespace Store

variable {store : Store} {tree : FileTree} {root : Path} {location : Location}
  {folder suffix : String}

theorem stripSuffix?_eq_some_iff {name key : String} :
    stripSuffix? suffix name = some key ↔ name = key ++ suffix := by
  rw [stripSuffix?]
  split
  · rename_i ends
    obtain ⟨front, split⟩ := List.isSuffixOf_iff_suffix.mp ends
    have lengths : name.length - suffix.length = front.length := by
      rw [← String.length_toList, ← String.length_toList, ← split, List.length_append]
      omega
    rw [lengths, ← split, List.take_left, Option.some.injEq]
    constructor
    · rintro rfl
      exact String.toList_inj.mp (by rw [String.toList_append, String.toList_ofList, split])
    · rintro rfl
      rw [String.toList_append] at split
      rw [List.append_cancel_right split, String.ofList_toList]
  · rename_i other
    simp only [reduceCtorEq, false_iff]
    rintro rfl
    exact other (List.isSuffixOf_iff_suffix.mpr ⟨key.toList, String.toList_append.symm⟩)

/-- Different names have different keys. -/
theorem nodup_stripped {entries : List (String × FileNode)}
    (apart : (entries.map Prod.fst).Nodup) :
    (entries.filterMap fun entry => stripSuffix? suffix entry.1).Nodup := by
  refine List.Pairwise.filterMap _ ?_ (List.pairwise_map.mp apart)
  intro first second different key strip other strip' same
  have names := stripSuffix?_eq_some_iff.mp strip
  rw [same] at names
  exact different (names.trans (stripSuffix?_eq_some_iff.mp strip').symm)

theorem mapM_eq_ok {α β ε : Type} {f : α → Except ε β} {g : α → β} {l : List α}
    (each : ∀ a ∈ l, f a = .ok (g a)) : l.mapM f = .ok (l.map g) := by
  induction l with
  | nil => rfl
  | cons a l ih =>
      rw [List.forall_mem_cons] at each
      rw [List.mapM_cons, each.1, ih each.2]
      rfl

/-- The keys of the records in one subfolder. -/
def keysOf (suffix : String) : FileNode → List String
  | .folder entries => entries.filterMap fun entry => stripSuffix? suffix entry.1
  | _ => []

/-- The keys of the records in all subfolders. -/
def keysAmong (suffix : String) (entries : List (String × FileNode)) : List String :=
  (entries.map fun entry => keysOf suffix entry.2).flatten

/-! ## Folders of subfolders -/

section Found

variable {place : Location} {entries : List (String × FileNode)}

/-- What stands in the folder of a store is a subfolder. -/
theorem subfolder_of_mem (named : tree.WellNamed) (shards : ∀ shard, tree.Layered place shard 1)
    (stands : tree.at? place = some (.folder entries)) {entry : String × FileNode}
    (member : entry ∈ entries) :
    ∃ inner, entry.2 = .folder inner ∧ tree.at? (place ++ [entry.1]) = some (.folder inner) := by
  have held := (named.mem_entries_iff stands).mp member
  rcases shards entry.1 [] _ (FileTree.kind?_of_at? held) with ⟨-, kind⟩ | ⟨deep, -⟩
  · obtain ⟨inner, eq⟩ := FileNode.eq_folder_of_kind kind
    exact ⟨inner, eq, eq ▸ held⟩
  · cases deep

theorem keysIn_eq (suffix : String) (named : tree.WellNamed)
    (found : tree.find store.root = .ok (place, .folder entries))
    (shards : ∀ shard, tree.Layered place shard 1) {entry : String × FileNode}
    (member : entry ∈ entries) :
    store.keysIn tree suffix entry.1 = .ok (keysOf suffix entry.2) := by
  have stands := (FileTree.find_iff.mp found).2.2
  obtain ⟨inner, eq, held⟩ := subfolder_of_mem named shards stands member
  have proper : ∀ name ∈ [entry.1], IsName name := by
    simpa using (named _ _ stands).1 _ member
  have reached : tree.find (store.root / entry.1) = _ :=
    FileTree.find_below found (shards entry.1).linkless proper held
  have folds : tree.isFolder (store.root / entry.1) = true := by
    rw [FileTree.isFolder, reached]
    rfl
  have lists : tree.list (store.root / entry.1) = .ok inner := by
    rw [FileTree.list, reached]
  rw [keysIn, folds, if_pos rfl, lists, eq]
  rfl

theorem mem_keysOf_iff (named : tree.WellNamed) (shards : ∀ shard, tree.Layered place shard 1)
    (stands : tree.at? place = some (.folder entries)) {entry : String × FileNode}
    (member : entry ∈ entries) {key : String} :
    key ∈ keysOf suffix entry.2 ↔
      (tree.fileAt? (place ++ [entry.1, key ++ suffix])).isSome := by
  obtain ⟨inner, eq, held⟩ := subfolder_of_mem named shards stands member
  have inside (node : FileNode) : (key ++ suffix, node) ∈ inner ↔
      tree.at? (place ++ [entry.1, key ++ suffix]) = some node := by
    rw [named.mem_entries_iff held, List.append_assoc]
    rfl
  rw [eq, keysOf, List.mem_filterMap]
  constructor
  · rintro ⟨⟨name, node⟩, listed, strip⟩
    obtain rfl := stripSuffix?_eq_some_iff.mp strip
    have kind := FileTree.kind?_of_at? ((inside node).mp listed)
    rcases shards entry.1 [key ++ suffix] _ kind with ⟨less, -⟩ | ⟨-, content, file⟩
    · exact absurd less (Nat.lt_irrefl 1)
    · exact Option.isSome_of_eq_some (FileTree.fileAt?_eq_some_iff.mpr (file ▸ kind))
  · intro recorded
    obtain ⟨content, recorded⟩ := Option.isSome_iff_exists.mp recorded
    have file := FileTree.at?_of_kind?_file (FileTree.fileAt?_eq_some_iff.mp recorded)
    exact ⟨(key ++ suffix, .file content), (inside _).mpr file, stripSuffix?_eq_some_iff.mpr rfl⟩

theorem nodup_keysOf (named : tree.WellNamed) (shards : ∀ shard, tree.Layered place shard 1)
    (stands : tree.at? place = some (.folder entries)) {entry : String × FileNode}
    (member : entry ∈ entries) : (keysOf suffix entry.2).Nodup := by
  obtain ⟨inner, eq, held⟩ := subfolder_of_mem named shards stands member
  rw [eq, keysOf]
  exact nodup_stripped (named _ _ held).2

/-- A file of a subfolder has an entry above it. -/
theorem entry_of_file (named : tree.WellNamed) (stands : tree.at? place = some (.folder entries))
    {shard name : String} (recorded : (tree.fileAt? (place ++ [shard, name])).isSome) :
    ∃ node, (shard, node) ∈ entries := by
  obtain ⟨content, file⟩ := Option.isSome_iff_exists.mp recorded
  have kind := FileTree.fileAt?_eq_some_iff.mp file
  rw [List.append_cons] at kind
  obtain ⟨inner, held⟩ := FileTree.at?_of_kind?_folder (FileTree.kind?_of_append kind)
  exact ⟨.folder inner, (named.mem_entries_iff stands).mpr held⟩

theorem mem_keysAmong_iff (named : tree.WellNamed) (shards : ∀ shard, tree.Layered place shard 1)
    (stands : tree.at? place = some (.folder entries)) (key : String) :
    key ∈ keysAmong suffix entries ↔
      ∃ shard, (tree.fileAt? (place ++ [shard, key ++ suffix])).isSome := by
  constructor
  · intro listed
    obtain ⟨inner, member, inside⟩ := List.mem_flatten.mp listed
    obtain ⟨entry, held, rfl⟩ := List.mem_map.mp member
    exact ⟨entry.1, (mem_keysOf_iff named shards stands held).mp inside⟩
  · rintro ⟨shard, recorded⟩
    obtain ⟨node, member⟩ := entry_of_file named stands recorded
    exact List.mem_flatten.mpr ⟨_, List.mem_map_of_mem member,
      (mem_keysOf_iff named shards stands member).mpr recorded⟩

/-- The files with a suffix are in the subfolders of their keys. -/
def Shelved (tree : FileTree) (place : Location) (suffix : String) : Prop :=
  ∀ shard key, (tree.fileAt? (place ++ [shard, key ++ suffix])).isSome → folder? key = some shard

theorem nodup_keysAmong (named : tree.WellNamed) (shards : ∀ shard, tree.Layered place shard 1)
    (shelved : Shelved tree place suffix) (stands : tree.at? place = some (.folder entries)) :
    (keysAmong suffix entries).Nodup := by
  refine List.pairwise_flatten.mpr ⟨fun inner member => ?_, List.pairwise_map.mpr ?_⟩
  · obtain ⟨entry, held, rfl⟩ := List.mem_map.mp member
    exact nodup_keysOf named shards stands held
  · refine (List.pairwise_map.mp (named _ _ stands).2).imp_of_mem ?_
    intro first second member member' different key inside other inside' same
    have admitted := shelved _ _ ((mem_keysOf_iff named shards stands member).mp inside)
    have admitted' := shelved _ _ ((mem_keysOf_iff named shards stands member').mp inside')
    rw [same] at admitted
    exact different (Option.some.inj (admitted.symm.trans admitted'))

/-- A store is listed by its subfolders. -/
theorem keys_eq_of_find (named : tree.WellNamed)
    (found : tree.find store.root = .ok (place, .folder entries))
    (shards : ∀ shard, tree.Layered place shard 1) :
    store.keys tree suffix = .ok ((keysAmong suffix entries).mergeSort fun a b => a ≤ b) := by
  have lists : tree.list store.root = .ok entries := by rw [FileTree.list, found]
  have each := mapM_eq_ok fun entry (member : entry ∈ entries) =>
    keysIn_eq suffix named found shards member
  rw [Store.keys, lists]
  simp only [each]
  rfl

theorem pairwise_lt_mergeSort {keys : List String} (distinct : keys.Nodup) :
    (keys.mergeSort fun a b => a ≤ b).Pairwise (· < ·) := by
  have ordered : (keys.mergeSort fun a b => decide (a ≤ b)).Pairwise
      fun a b => decide (a ≤ b) = true :=
    List.pairwise_mergeSort
      (fun a b c first second => by
        rw [decide_eq_true_eq] at first second ⊢
        exact String.le_trans first second)
      (fun a b => by simpa using String.le_total a b) keys
  have apart := (List.mergeSort_perm keys fun a b => decide (a ≤ b)).nodup_iff.mpr distinct
  refine (ordered.and apart).imp ?_
  rintro a b ⟨le, different⟩
  exact String.not_le.mp fun more =>
    different (String.le_antisymm (of_decide_eq_true le) more)

/-- The listed keys are those of the files with the suffix, each of them once and in order. -/
theorem keys_of_find (named : tree.WellNamed)
    (found : tree.find store.root = .ok (place, .folder entries))
    (shards : ∀ shard, tree.Layered place shard 1) (shelved : Shelved tree place suffix) :
    ∃ keys, store.keys tree suffix = .ok keys ∧ keys.Pairwise (· < ·) ∧
      ∀ key, key ∈ keys ↔ ∃ shard, (tree.fileAt? (place ++ [shard, key ++ suffix])).isSome := by
  have stands := (FileTree.find_iff.mp found).2.2
  exact ⟨_, keys_eq_of_find named found shards,
    pairwise_lt_mergeSort (nodup_keysAmong named shards shelved stands),
    fun key => List.mem_mergeSort.trans (mem_keysAmong_iff named shards stands key)⟩

end Found

/-! ## Stores in hosted folders -/

section Hosted

variable {outer : List (String × FileNode)}

/-- The folder of a store holds nothing but records of a suffix. -/
def Tidy (tree : FileTree) (location : Location) (folder suffix : String) : Prop :=
  ∀ names content, tree.fileAt? (location ++ folder :: names) = some content →
    ∃ key, place? key suffix = some names

theorem Tidy.shelved (tidy : Tidy tree location folder suffix) :
    Shelved tree (location ++ [folder]) suffix := by
  intro shard key recorded
  obtain ⟨content, file⟩ := Option.isSome_iff_exists.mp recorded
  rw [List.append_assoc] at file
  obtain ⟨other, placed⟩ := tidy [shard, key ++ suffix] content file
  obtain ⟨held, admitted, names⟩ := place?_eq_some_iff.mp placed
  simp only [List.cons.injEq, and_true] at names
  have lists := congrArg String.toList names.2
  rw [String.toList_append, String.toList_append] at lists
  obtain rfl := String.toList_inj.mp (List.append_cancel_right lists)
  exact names.1 ▸ admitted

/-- A store whose folder is missing has no keys. -/
theorem keys_of_none (found : tree.find root = .ok (location, .folder outer))
    (proper : IsName folder) (lies : store.root = root / folder)
    (missing : tree.kind? (location ++ [folder]) = none) : store.keys tree suffix = .ok [] := by
  have hosted : tree.kind? location = some .folder :=
    FileTree.kind?_of_at? (FileTree.find_iff.mp found).2.2
  obtain ⟨left, goes⟩ := FileTree.resolve_below found
  have resolved : tree.resolve (root / folder) true = _ :=
    goes true [folder] (by simp) (by simpa using proper.toIsPlain) (by simpa using proper.noNul)
  have absent : tree.list (root / folder) = .error .missing := by
    rw [FileTree.list, FileTree.find, resolved, FileTree.walkWithin_missing _ hosted
      (FileTree.isLookedUp_of_isName proper) missing, if_pos rfl]
  rw [Store.keys, lies, absent]

/-- The folder of a store is found if anything stands at its name. -/
theorem find_of_layered (found : tree.find root = .ok (location, .folder outer))
    (layered : tree.Layered location folder 2) (proper : IsName folder)
    (lies : store.root = root / folder) {kind : NodeKind}
    (stands : tree.kind? (location ++ [folder]) = some kind) :
    ∃ entries, tree.find store.root = .ok (location ++ [folder], .folder entries) := by
  obtain rfl : kind = .folder := by
    rcases layered [] kind stands with ⟨-, rfl⟩ | ⟨deep, -⟩
    · rfl
    · cases deep
  obtain ⟨entries, held⟩ := FileTree.at?_of_kind?_folder stands
  refine ⟨entries, ?_⟩
  rw [lies]
  have single : ∀ name ∈ [folder], IsName name := by simpa using proper
  exact FileTree.find_below found layered.linkless single held

/-- The listed keys are those of the records, each of them once and in order. -/
theorem keys_spec (named : tree.WellNamed) (found : tree.find root = .ok (location, .folder outer))
    (layered : tree.Layered location folder 2) (proper : IsName folder)
    (lies : store.root = root / folder) (tidy : Tidy tree location folder suffix)
    {keys : List String} (listed : store.keys tree suffix = .ok keys) :
    keys.Pairwise (· < ·) ∧
      ∀ key, key ∈ keys ↔ (tree.record? location folder key suffix).isSome := by
  cases kind : tree.kind? (location ++ [folder]) with
  | none =>
      rw [keys_of_none found proper lies kind] at listed
      cases listed
      exact ⟨.nil, fun key => by simp [FileTree.record?_of_none kind]⟩
  | some kind =>
      obtain ⟨entries, reached⟩ := find_of_layered found layered proper lies kind
      obtain ⟨others, listed', ascending, exact⟩ :=
        keys_of_find named reached layered.below tidy.shelved
      obtain rfl : keys = others := Except.ok.inj (listed.symm.trans listed')
      refine ⟨ascending, fun key => (exact key).trans ⟨?_, ?_⟩⟩
      · rintro ⟨shard, recorded⟩
        rw [FileTree.record?, place?, tidy.shelved _ _ recorded, Option.map_some, Option.bind_some]
        rwa [List.append_assoc] at recorded
      · intro recorded
        rw [FileTree.record?] at recorded
        cases placed : place? key suffix with
        | none =>
            rw [placed] at recorded
            cases recorded
        | some names =>
            obtain ⟨shard, -, rfl⟩ := place?_eq_some_iff.mp placed
            rw [placed, Option.bind_some] at recorded
            exact ⟨shard, by rwa [List.append_assoc]⟩

/-- A store in a hosted folder is always listed. -/
theorem exists_keys {own : List String} (named : tree.WellNamed)
    (hosts : tree.Hosts root own location) (layered : tree.Layered location folder 2)
    (proper : IsName folder) (lies : store.root = root / folder) :
    ∃ keys, store.keys tree suffix = .ok keys := by
  obtain ⟨outer, found⟩ := hosts.find
  cases kind : tree.kind? (location ++ [folder]) with
  | none => exact ⟨[], keys_of_none found proper lies kind⟩
  | some kind =>
      obtain ⟨entries, reached⟩ := find_of_layered found layered proper lies kind
      exact ⟨_, keys_eq_of_find named reached layered.below⟩

end Hosted

end Store
end SourceSearch
