import SourceSearch.Proofs.FileTree.Names
import SourceSearch.Proofs.FileTree.Records

/-!
# Files that have been altered

Files are overwritten or deleted one after another, as it happens to a folder that others have
access to.  Only the altered files differ afterwards: each of them is gone or holds something that
was admitted there.
-/

namespace SourceSearch
namespace FileTree

variable {tree altered : FileTree} {may : Location → ByteArray → Prop} {places : List Location}
  {location : Location}

/-- Files at some places have been overwritten or deleted, one after another.  `may` admits what is
written to a place. -/
inductive Alters (may : Location → ByteArray → Prop) (tree : FileTree) :
    List Location → FileTree → Prop where
  /-- None has. -/
  | none : Alters may tree [] tree
  /-- A file is overwritten. -/
  | overwrite {places altered front name held content} (alters : Alters may tree places altered)
      (stands : altered.kind? (front ++ [name]) = some (.file held))
      (admitted : may (front ++ [name]) content) :
      Alters may tree ((front ++ [name]) :: places) (altered.put (front ++ [name]) (.file content))
  /-- A file is deleted. -/
  | delete {places altered front name held} (alters : Alters may tree places altered)
      (stands : altered.kind? (front ++ [name]) = some (.file held)) :
      Alters may tree ((front ++ [name]) :: places) (altered.erase (front ++ [name]))

/-- The trees differ in altered files only. -/
structure DiffersAt (may : Location → ByteArray → Prop) (tree : FileTree) (places : List Location)
    (altered : FileTree) : Prop where
  /-- Paths start from the same folder. -/
  home : altered.home = tree.home
  /-- Names are proper. -/
  named : tree.WellNamed → altered.WellNamed
  /-- All else is the same. -/
  kept : ∀ place ∉ places, altered.kind? place = tree.kind? place
  /-- There have been files. -/
  files : ∀ place ∈ places, ∃ held, tree.kind? place = some (.file held)
  /-- What has become of them. -/
  left : ∀ place ∈ places, ∀ kind, altered.kind? place = some kind →
    ∃ content, may place content ∧ kind = .file content

/-- Another file has been altered: `content?` is what is left of it. -/
theorem DiffersAt.cons (differs : DiffersAt may tree places altered) (content? : Option ByteArray)
    {place : Location} {held : ByteArray} {after : FileTree}
    (stands : altered.kind? place = some (.file held))
    (admitted : ∀ content ∈ content?, may place content)
    (home : after.home = altered.home) (named : altered.WellNamed → after.WellNamed)
    (shows : ∀ other, after.kind? other =
      if other = place then content?.map .file else altered.kind? other) :
    DiffersAt may tree (place :: places) after where
  home := home.trans differs.home
  named := named ∘ differs.named
  kept other apart := by
    rw [List.mem_cons, not_or] at apart
    rw [shows, if_neg apart.1, differs.kept other apart.2]
  files other member := by
    rcases List.mem_cons.mp member with rfl | member
    · by_cases before : other ∈ places
      · exact differs.files other before
      · exact ⟨held, by rw [← differs.kept other before, stands]⟩
    · exact differs.files other member
  left other member kind is := by
    rw [shows] at is
    split at is
    · rename_i same
      subst same
      obtain ⟨content, left, rfl⟩ := Option.map_eq_some_iff.mp is
      exact ⟨content, admitted content left, rfl⟩
    · rename_i different
      exact differs.left other ((List.mem_cons.mp member).resolve_left different) kind is

/-- Altering files changes nothing else. -/
theorem Alters.differsAt (alters : Alters may tree places altered) :
    DiffersAt may tree places altered := by
  induction alters with
  | none => exact ⟨rfl, id, fun _ _ => rfl, by simp, by simp⟩
  | @overwrite places altered front name held content alters stands admitted ih =>
      have notFolder : altered.kind? (front ++ [name]) ≠ some .folder := by simp [stands]
      exact ih.cons (some content) stands (by simpa using admitted)
        (home_alter _ _ _)
        (fun named => named.put front (named.isName stands) (FileNode.wellNamed_file content))
        (kind?_put_file (kind?_of_append stands) notFolder content)
  | @delete places altered front name held alters stands ih =>
      have notFolder : altered.kind? (front ++ [name]) ≠ some .folder := by simp [stands]
      exact ih.cons Option.none stands (by simp) (home_alter _ _ _)
        (fun named => named.erase (named.isName stands))
        (kind?_erase_of_not_folder (kind?_of_append stands) notFolder)

namespace DiffersAt

theorem fileAt?_eq (differs : DiffersAt may tree places altered) {place : Location}
    (apart : place ∉ places) : altered.fileAt? place = tree.fileAt? place :=
  fileAt?_congr (differs.kept place apart)

/-- What is read of an altered file was admitted there. -/
theorem may_of_fileAt? (differs : DiffersAt may tree places altered) {place : Location}
    (member : place ∈ places) {content : ByteArray}
    (held : altered.fileAt? place = some content) : may place content := by
  obtain ⟨other, admitted, same⟩ := differs.left place member _ (fileAt?_eq_some_iff.mp held)
  cases same
  exact admitted

/-- Folders without altered files are the same. -/
theorem agrees (differs : DiffersAt may tree places altered) {own : List String}
    (below : ∀ place ∈ places, ∃ folder ∈ own, location ++ [folder] <+: place) :
    tree.AgreesOutside location own altered := by
  refine ⟨differs.home, fun place apart => differs.kept place fun member => ?_⟩
  obtain ⟨folder, named, inside⟩ := below place member
  exact apart folder named inside

/-- Files stay as deep as they were. -/
theorem layered (differs : DiffersAt may tree places altered) {folder : String} {depth : Nat}
    (layered : tree.Layered location folder depth) : altered.Layered location folder depth := by
  intro names kind is
  by_cases member : location ++ folder :: names ∈ places
  · obtain ⟨held, before⟩ := differs.files _ member
    obtain ⟨content, -, rfl⟩ := differs.left _ member kind is
    rcases layered names _ before with ⟨-, folderKind⟩ | ⟨deep, -⟩
    · cases folderKind
    · exact .inr ⟨deep, content, rfl⟩
  · rw [differs.kept _ member] at is
    exact layered names kind is

end DiffersAt

end FileTree
end SourceSearch
