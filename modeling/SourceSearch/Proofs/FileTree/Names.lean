import SourceSearch.Proofs.FileTree.Nodes
import SourceSearch.Proofs.Path

/-!
# Names that a file system admits

Every folder of a well-named tree holds proper names only, and each of them once.  What is put and
erased under proper names keeps a tree well named.
-/

namespace SourceSearch

/-- A name that an entry of a folder can have. -/
structure IsName (name : String) : Prop extends IsPlain name where
  /-- The character that ends names is not part of them. -/
  noNul : '\x00' ∉ name.toList
  /-- It fits an entry. -/
  short : name.utf8ByteSize ≤ maxNameBytes

instance (name : String) : Decidable (IsPlain name) :=
  decidable_of_iff (name ≠ "" ∧ name ≠ "." ∧ name ≠ ".." ∧ '/' ∉ name.toList)
    ⟨fun ⟨notEmpty, notHere, notUp, noSlash⟩ => ⟨notEmpty, notHere, notUp, noSlash⟩,
      fun ⟨notEmpty, notHere, notUp, noSlash⟩ => ⟨notEmpty, notHere, notUp, noSlash⟩⟩

instance (name : String) : Decidable (IsName name) :=
  decidable_of_iff (IsPlain name ∧ '\x00' ∉ name.toList ∧ name.utf8ByteSize ≤ maxNameBytes)
    ⟨fun ⟨plain, noNul, short⟩ => ⟨plain, noNul, short⟩,
      fun ⟨plain, noNul, short⟩ => ⟨plain, noNul, short⟩⟩

namespace FileNode

/-- The entries of a folder have proper names, no two the same. -/
def NamesApart (entries : List (String × FileNode)) : Prop :=
  (∀ entry ∈ entries, IsName entry.1) ∧ (entries.map Prod.fst).Nodup

instance (entries : List (String × FileNode)) : Decidable (NamesApart entries) :=
  inferInstanceAs (Decidable (_ ∧ _))

/-- All folders in a node have proper names for what they hold. -/
def WellNamed (node : FileNode) : Prop :=
  ∀ place entries, node.at? place = some (.folder entries) → NamesApart entries

theorem wellNamed_file (content : ByteArray) : (file content).WellNamed := by
  intro place entries stands
  cases place <;> cases stands

theorem wellNamed_sealed (size : Nat) : (sealed size).WellNamed := by
  intro place entries stands
  cases place <;> cases stands

theorem wellNamed_link (target : Path) : (link target).WellNamed := by
  intro place entries stands
  cases place <;> cases stands

theorem wellNamed_folder_iff {entries : List (String × FileNode)} :
    (folder entries).WellNamed ↔
      NamesApart entries ∧ ∀ name child, entries.lookup name = some child → child.WellNamed := by
  constructor
  · intro named
    refine ⟨named [] entries (at?_nil _), fun name child found place inner stands => ?_⟩
    exact named (name :: place) inner (by rw [at?_cons_folder, found]; exact stands)
  · rintro ⟨apart, children⟩ place inner stands
    cases place with
    | nil =>
        obtain rfl : entries = inner := by simpa using stands
        exact apart
    | cons name rest =>
        rw [at?_cons_folder] at stands
        obtain ⟨child, found, stands⟩ := Option.bind_eq_some_iff.mp stands
        exact children name child found rest inner stands

theorem wellNamed_folder_iff_forall {entries : List (String × FileNode)} :
    (folder entries).WellNamed ↔ NamesApart entries ∧ ∀ entry ∈ entries, entry.2.WellNamed := by
  rw [wellNamed_folder_iff]
  refine and_congr_right fun apart =>
    ⟨fun inner entry listed => ?_, fun inner name child held => ?_⟩
  · exact inner entry.1 entry.2 ((lookup_eq_some_iff apart.2).mpr listed)
  · exact inner (name, child) ((lookup_eq_some_iff apart.2).mp held)

theorem wellNamed_emptyFolder : (folder []).WellNamed :=
  wellNamed_folder_iff.mpr ⟨⟨by simp, by simp⟩, by simp⟩

theorem NamesApart.alterEntry {entries : List (String × FileNode)} (apart : NamesApart entries)
    {name : String} (proper : IsName name) (change : Option FileNode → Option FileNode) :
    NamesApart (alterEntry name change entries) := by
  refine ⟨fun entry member => ?_, nodup_alterEntry apart.2⟩
  rcases mem_alterEntry member with rfl | member
  · exact proper
  · exact apart.1 entry member

/-- A change of one entry to something well named keeps a node well named. -/
theorem WellNamed.alter {node : FileNode} (named : node.WellNamed) {front : Location}
    {name : String} (proper : IsName name) {change : Option FileNode → Option FileNode}
    (fresh : ∀ old new, change old = some new → new.WellNamed) :
    (node.alter change (front ++ [name])).WellNamed := by
  induction front generalizing node with
  | nil =>
      cases node with
      | file => simpa using named
      | sealed => simpa using named
      | link => simpa using named
      | folder entries =>
          rw [List.nil_append, alter_cons_folder]
          obtain ⟨apart, children⟩ := wellNamed_folder_iff.mp named
          refine wellNamed_folder_iff.mpr ⟨apart.alterEntry proper _, fun other child found => ?_⟩
          by_cases same : other = name
          · subst same
            rw [lookup_alterEntry_self] at found
            exact fresh _ child found
          · rw [lookup_alterEntry_of_ne same] at found
            exact children other child found
  | cons step front ih =>
      cases node with
      | file => simpa using named
      | sealed => simpa using named
      | link => simpa using named
      | folder entries =>
          rw [List.cons_append, alter_cons_folder, if_neg (by simp)]
          obtain ⟨apart, children⟩ := wellNamed_folder_iff.mp named
          cases found : entries.lookup step with
          | none =>
              rw [alterEntry_of_none found rfl]
              exact named
          | some child =>
              have stepProper : IsName step :=
                apart.1 (step, child) ((lookup_eq_some_iff apart.2).mp found)
              refine wellNamed_folder_iff.mpr
                ⟨apart.alterEntry stepProper _, fun other inner held => ?_⟩
              by_cases same : other = step
              · subst same
                rw [lookup_alterEntry_self, found, Option.map_some, Option.some.injEq] at held
                exact held ▸ ih (children other child found)
              · rw [lookup_alterEntry_of_ne same] at held
                exact children other inner held

end FileNode

namespace FileTree

/-- All folders of a tree have proper names for what they hold. -/
def WellNamed (tree : FileTree) : Prop := tree.root.WellNamed

theorem WellNamed.put {tree : FileTree} (named : tree.WellNamed) (front : Location) {name : String}
    (proper : IsName name) {node : FileNode} (fresh : node.WellNamed) :
    (tree.put (front ++ [name]) node).WellNamed := by
  rw [WellNamed, FileTree.put, root_alter]
  exact FileNode.WellNamed.alter named proper fun _ new eq => Option.some.inj eq ▸ fresh

theorem WellNamed.erase {tree : FileTree} (named : tree.WellNamed) {front : Location}
    {name : String} (proper : IsName name) : (tree.erase (front ++ [name])).WellNamed := by
  rw [WellNamed, FileTree.erase, root_alter]
  exact FileNode.WellNamed.alter named proper fun _ new eq => by cases eq

/-- The entries of a folder are the nodes at its names. -/
theorem WellNamed.mem_entries_iff {tree : FileTree} (named : tree.WellNamed) {location : Location}
    {entries : List (String × FileNode)} (stands : tree.at? location = some (.folder entries))
    {name : String} {node : FileNode} :
    (name, node) ∈ entries ↔ tree.at? (location ++ [name]) = some node := by
  rw [at?_snoc stands, lookup_eq_some_iff (named location entries stands).2]

/-- Whatever stands below a folder of a well-named tree has a proper name. -/
theorem WellNamed.isName {tree : FileTree} (named : tree.WellNamed) {front : Location}
    {name : String} {rest : Location} {kind : NodeKind}
    (stands : tree.kind? (front ++ name :: rest) = some kind) : IsName name := by
  obtain ⟨entries, above⟩ := at?_of_kind?_folder (kind?_of_append stands)
  obtain ⟨node, found, -⟩ := Option.map_eq_some_iff.mp stands
  rw [at?_append, above, Option.bind_some, FileNode.at?_cons_folder] at found
  obtain ⟨child, held, -⟩ := Option.bind_eq_some_iff.mp found
  obtain ⟨proper, distinct⟩ := named front entries above
  exact proper (name, child) ((lookup_eq_some_iff distinct).mp held)

end FileTree
end SourceSearch
