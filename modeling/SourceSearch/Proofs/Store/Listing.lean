import Mathlib.Data.List.Nodup
import SourceSearch.Proofs.Store.Keys

/-!
# What a store lists

The listing of a store looks into each subfolder of its folder, wherever links lead on the way.  A
key is listed once for each subfolder that has an entry named like its record.  So a record that can
be read is listed, and one that has a namesake in another subfolder is listed twice.
-/

namespace SourceSearch

/-! ## Entries of folders -/

namespace FileTree

variable {tree changed : FileTree} {path : Path} {location place : Location} {name : String}
  {entries : List (String × FileNode)}

/-- The path leads to a folder that has an entry of the name. -/
def Lists (tree : FileTree) (path : Path) (name : String) : Prop :=
  ∃ entries, tree.list path = .ok entries ∧ name ∈ entries.map Prod.fst

theorem list_eq_ok_iff : tree.list path = .ok entries ↔
    ∃ place, tree.find path = .ok (place, .folder entries) := by
  rw [list]
  split
  · rename_i place held found
    simp [found]
  · rename_i reached other found
    obtain ⟨place, node⟩ := reached
    cases node with
    | folder held => exact absurd rfl (other place held)
    | file content => simp [found]
    | sealed size => simp [found]
    | link target => simp [found]
  · rename_i fault refused
    simp [refused]

theorem nodup_names (named : tree.WellNamed) (listed : tree.list path = .ok entries) :
    (entries.map Prod.fst).Nodup := by
  obtain ⟨place, found⟩ := list_eq_ok_iff.mp listed
  exact (named _ _ (find_iff.mp found).2.2).2

/-- A name stands where a walk along it arrives. -/
theorem Arrives.stands {links : Nat} (walk : tree.Arrives true links location [name] place)
    (plain : IsPlain name) : ∃ kind, tree.kind? (location ++ [name]) = some kind := by
  cases walk with
  | here => exact absurd rfl plain.notHere
  | up => exact absurd rfl plain.notUp
  | step _ found => exact ⟨_, found⟩
  | follow _ found => exact ⟨_, found⟩
  | stay _ found => exact ⟨_, found⟩

/-- A walk along the names of a path that arrives at a folder may end in a slash. -/
theorem Arrives.steps {links : Nat} (walk : tree.Arrives true links location path.names place)
    (folder : tree.kind? place = some .folder) :
    tree.Arrives true links location path.steps place := by
  rcases path.steps_eq with steps | steps
  · rwa [steps]
  · obtain ⟨inner, held⟩ := at?_of_kind?_folder folder
    obtain ⟨left, -, goes⟩ := walk.append
    have whole := goes true ["."] (by simp)
    rw [walkWithin_here _ folder, walkWithin_nil _ held] at whole
    rw [steps]
    exact (arrives_iff.mp whole).1

/-- Where a path goes on by a name, the folder above lists the name. -/
theorem lists_of_find (given : path.text ≠ "") (plain : IsPlain name) {node : FileNode}
    (found : tree.find (path / name) = .ok (place, node)) : tree.Lists path name := by
  have single : ∀ other ∈ [name], IsPlain other := by simpa using plain
  obtain ⟨sound, walk, stands⟩ := find_iff.mp found
  have sameStart : tree.startOf (path / name) = tree.startOf path := by
    rw [← Path.below_nil (path / name), ← Path.below_cons, startOf_below tree given single]
  rw [sameStart, Path.steps_join path plain] at walk
  obtain ⟨above, front⟩ := walk.front
  obtain ⟨left, -, goes⟩ := front.append
  have whole := arrives_iff.mpr ⟨walk, stands⟩
  rw [goes true [name] (by simp)] at whole
  -- The last step of the walk finds the name in the folder above.
  obtain ⟨kind, held⟩ := (arrives_iff.mp whole).1.stands plain
  obtain ⟨entries, folder⟩ := at?_of_kind?_folder (kind?_of_append held)
  rw [kind?_snoc folder] at held
  obtain ⟨entry, looked, -⟩ := Option.map_eq_some_iff.mp held
  have clean : path.IsSound := by
    refine ⟨fun nul => sound.noNul ?_, given⟩
    exact (Path.mem_text_below single (by decide)).mpr (.inl nul)
  refine ⟨entries, list_eq_ok_iff.mpr ⟨above, find_iff.mpr
    ⟨clean, front.steps (kind?_of_at? folder), folder⟩⟩, ?_⟩
  obtain ⟨before, after, rfl, -⟩ := List.lookup_eq_some_iff.mp looked
  simp

/-- A folder that lists a name is found. -/
theorem Lists.find (lists : tree.Lists path name) :
    ∃ place entries, tree.find path = .ok (place, .folder entries) := by
  obtain ⟨entries, listed, -⟩ := lists
  obtain ⟨place, found⟩ := list_eq_ok_iff.mp listed
  exact ⟨place, entries, found⟩

/-- Without links a folder lists the names that stand in it. -/
theorem lists_below_iff {root : Path} {folder : String} {names : List String}
    (named : tree.WellNamed) (found : tree.find root = .ok (location, .folder entries))
    (linkless : tree.Linkless location folder) (plain : ∀ name ∈ folder :: names, IsPlain name) :
    tree.Lists (root.below (folder :: names)) name ↔
      (tree.kind? (location ++ folder :: names ++ [name])).isSome := by
  constructor
  · rintro ⟨inner, listed, member⟩
    obtain ⟨place, reached⟩ := list_eq_ok_iff.mp listed
    have stands := at?_of_find_below found linkless plain reached
    obtain ⟨⟨_, node⟩, held, rfl⟩ := List.mem_map.mp member
    exact Option.isSome_of_eq_some (kind?_of_at? ((named.mem_entries_iff stands).mp held))
  · intro stands
    obtain ⟨kind, stands⟩ := Option.isSome_iff_exists.mp stands
    obtain ⟨inner, above⟩ := at?_of_kind?_folder (kind?_of_append stands)
    have proper : ∀ name ∈ folder :: names, IsName name := by
      intro other member
      obtain ⟨front, rest, split⟩ := List.append_of_mem member
      have within := kind?_of_append stands
      rw [split, ← List.append_assoc] at within
      exact named.isName within
    obtain ⟨node, held, -⟩ := Option.map_eq_some_iff.mp stands
    refine ⟨inner, list_eq_ok_iff.mpr ⟨_, find_below found linkless proper above⟩, ?_⟩
    exact List.mem_map.mpr ⟨(name, node), (named.mem_entries_iff above).mpr held, rfl⟩

end FileTree

/-! ## Filings -/

namespace Store

variable {store : Store} {tree changed : FileTree} {suffix shard key : String}
  {keys : List String}

/-- A subfolder has an entry that is named like the record of a key. -/
def Files (store : Store) (tree : FileTree) (suffix shard key : String) : Prop :=
  tree.Lists store.root shard ∧ tree.Lists (store.root / shard) (key ++ suffix)

/-- The keys that are listed of a subfolder. -/
def keysAt (store : Store) (tree : FileTree) (suffix shard : String) : List String :=
  ((tree.list (store.root / shard)).toOption.getD []).filterMap fun entry =>
    stripSuffix? suffix entry.1

/-- What is no folder lists no keys, so no subfolder makes a listing fail. -/
theorem keysIn_eq_keysAt (store : Store) (tree : FileTree) (suffix shard : String) :
    store.keysIn tree suffix shard = .ok (store.keysAt tree suffix shard) := by
  rw [keysIn, keysAt, FileTree.isFolder, FileTree.list]
  rcases tree.find (store.root / shard) with fault | ⟨place, node⟩
  · rfl
  · cases node <;> rfl

theorem mem_keysAt_iff :
    key ∈ store.keysAt tree suffix shard ↔ tree.Lists (store.root / shard) (key ++ suffix) := by
  rw [keysAt, FileTree.Lists]
  cases tree.list (store.root / shard) with
  | error fault => simp [Except.toOption]
  | ok entries =>
      simp only [Except.toOption, Option.getD_some, Except.ok.injEq, exists_eq_left',
        List.mem_filterMap, stripSuffix?_eq_some_iff, List.mem_map]

theorem nodup_keysAt (named : tree.WellNamed) : (store.keysAt tree suffix shard).Nodup := by
  rw [keysAt]
  cases listed : tree.list (store.root / shard) with
  | error fault => exact .nil
  | ok entries => exact nodup_stripped (FileTree.nodup_names named listed)

/-- A key is listed once for each subfolder that files it. -/
theorem exists_filings (named : tree.WellNamed) (listed : store.keys tree suffix = .ok keys) :
    ∃ filings : List (String × String), filings.Nodup ∧
      (∀ filing, filing ∈ filings ↔ store.Files tree suffix filing.1 filing.2) ∧
      (filings.map Prod.snd).Perm keys := by
  rw [Store.keys] at listed
  split at listed
  · rename_i refused
    cases listed
    refine ⟨[], .nil, fun filing => ?_, .nil⟩
    simp [Files, FileTree.Lists, refused]
  · cases listed
  · rename_i entries found
    rw [mapM_eq_ok fun entry _ => store.keysIn_eq_keysAt tree suffix entry.1] at listed
    cases listed
    have apart := FileTree.nodup_names named found
    refine ⟨(entries.map Prod.fst).flatMap fun shard =>
      (store.keysAt tree suffix shard).map (Prod.mk shard), ?_, ?_, ?_⟩
    · refine List.nodup_flatMap.mpr ⟨fun shard _ => ?_, apart.imp ?_⟩
      · exact (nodup_keysAt named).map fun _ _ same => congrArg Prod.snd same
      · intro shard other different filing member member'
        obtain ⟨_, -, rfl⟩ := List.mem_map.mp member
        obtain ⟨_, -, same⟩ := List.mem_map.mp member'
        exact different (congrArg Prod.fst same).symm
    · rintro ⟨shard, key⟩
      simp only [List.mem_flatMap, List.mem_map (f := Prod.mk _), Prod.mk.injEq, Files,
        FileTree.Lists, found, Except.ok.injEq, exists_eq_left']
      constructor
      · rintro ⟨_, held, _, member, rfl, rfl⟩
        exact ⟨held, mem_keysAt_iff.mp member⟩
      · rintro ⟨held, member⟩
        exact ⟨shard, held, key, mem_keysAt_iff.mpr member, rfl, rfl⟩
    · rw [List.map_flatMap, List.flatMap_map]
      simp only [List.map_map, Function.comp_def, List.map_id']
      exact (List.mergeSort_perm _ _).symm

/-- Where the keys of all subfolders are in order one after another, they are the listing. -/
theorem keys_eq_ok {names : List String}
    (lists : (tree.list store.root).toOption.map (List.map Prod.fst) = some names)
    (each : names.flatMap (store.keysAt tree suffix) = keys)
    (ascending : keys.Pairwise (· ≤ ·)) : store.keys tree suffix = .ok keys := by
  rw [Store.keys]
  cases listed : tree.list store.root with
  | error fault =>
      rw [listed] at lists
      cases lists
  | ok entries =>
      rw [listed] at lists
      obtain rfl : entries.map Prod.fst = names := Option.some.inj lists
      have found := mapM_eq_ok fun entry (_ : entry ∈ entries) =>
        store.keysIn_eq_keysAt tree suffix entry.1
      rw [List.flatMap_map, List.flatMap_def] at each
      have sorted : (keys.mergeSort fun a b => a ≤ b) = keys :=
        List.mergeSort_of_pairwise (ascending.imp fun less => decide_eq_true less)
      simp only [found]
      change Except.ok (List.mergeSort _ _) = _
      rw [each, sorted]

/-- A record that is read is filed. -/
theorem files_of_read (given : store.root.text ≠ "") (proper : IsSuffix suffix) {path : Path}
    (located : store.path key suffix = .ok path) {content : ByteArray}
    (readable : tree.read path = .ok content) : ∃ shard, store.Files tree suffix shard key := by
  rw [Store.path] at located
  split at located
  · rename_i shard admitted
    cases located
    have plain := isPlain_shard admitted
    obtain ⟨place, node, found⟩ :
        ∃ place node, tree.find (store.root / shard / (key ++ suffix)) = .ok (place, node) := by
      rw [FileTree.read] at readable
      split at readable
      · exact ⟨_, _, ‹_›⟩
      · cases readable
      · cases readable
      · cases readable
    have inner := FileTree.lists_of_find (Path.join_text_ne_empty plain)
      (proper.isPlain_append (folder?_admits admitted).2.2) found
    obtain ⟨_, _, reached⟩ := inner.find
    exact ⟨shard, FileTree.lists_of_find given plain reached, inner⟩
  · cases located

/-- In a folder without links, what stands in its subfolders is filed. -/
theorem files_iff {root : Path} {location : Location} {folder : String}
    {entries : List (String × FileNode)} (named : tree.WellNamed)
    (found : tree.find root = .ok (location, .folder entries))
    (linkless : tree.Linkless location folder) (plain : IsPlain folder)
    (lies : store.root = root / folder) :
    store.Files tree suffix shard key ↔
      (tree.kind? (location ++ [folder, shard, key ++ suffix])).isSome := by
  have outer : tree.Lists store.root shard ↔ (tree.kind? (location ++ [folder, shard])).isSome := by
    have single : ∀ name ∈ [folder], IsPlain name := by simpa using plain
    rw [lies, ← Path.below_nil (root / folder), ← Path.below_cons,
      FileTree.lists_below_iff named found linkless single, List.append_assoc]
    rfl
  have inner (proper : IsName shard) : tree.Lists (store.root / shard) (key ++ suffix) ↔
      (tree.kind? (location ++ [folder, shard, key ++ suffix])).isSome := by
    have both : ∀ name ∈ [folder, shard], IsPlain name := by simpa using ⟨plain, proper.toIsPlain⟩
    rw [lies, ← Path.below_nil (root / folder / shard), ← Path.below_cons, ← Path.below_cons,
      FileTree.lists_below_iff named found linkless both, List.append_assoc]
    rfl
  have isName (stands : (tree.kind? (location ++ [folder, shard])).isSome) : IsName shard := by
    obtain ⟨kind, stands⟩ := Option.isSome_iff_exists.mp stands
    rw [List.append_cons] at stands
    exact named.isName stands
  have above (stands : (tree.kind? (location ++ [folder, shard, key ++ suffix])).isSome) :
      (tree.kind? (location ++ [folder, shard])).isSome := by
    obtain ⟨kind, stands⟩ := Option.isSome_iff_exists.mp stands
    have split : location ++ [folder, shard, key ++ suffix] =
        (location ++ [folder, shard]) ++ [key ++ suffix] := by simp
    rw [split] at stands
    exact Option.isSome_of_eq_some (FileTree.kind?_of_append stands)
  rw [Files, outer]
  constructor
  · rintro ⟨stands, lists⟩
    exact (inner (isName stands)).mp lists
  · intro stands
    exact ⟨above stands, (inner (isName (above stands))).mpr stands⟩

end Store
end SourceSearch
