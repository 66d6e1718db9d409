import SourceSearch.Crawl.Crawler
import SourceSearch.Proofs.FileTree.Found

/-!
# Files that a crawl lists

What a crawl lists is what its walk comes to: a derivation, one rule for each kind of node.  It
shows that every path that is listed in a well-named tree leads to a regular file.
-/

namespace SourceSearch
namespace FileTree

variable {tree : FileTree}

/-- The path leads to a regular file. -/
def LeadsToFile (tree : FileTree) (path : Path) : Prop :=
  ∃ place node, tree.find path = .ok (place, node) ∧ node.isFile = true

/-- An entry of a folder that is found is found behind its name, unless it is a link. -/
theorem find_join (named : tree.WellNamed) {path : Path} {place : Location}
    {entries : List (String × FileNode)} (found : tree.find path = .ok (place, .folder entries))
    {name : String} {node : FileNode} (member : (name, node) ∈ entries)
    (notLink : ∀ target, node ≠ .link target) :
    tree.find (path / name) = .ok (place ++ [name], node) := by
  have stands := (find_iff.mp found).2.2
  have proper : IsName name := (named place entries stands).1 _ member
  have held := (named.mem_entries_iff stands).mp member
  obtain ⟨left, goes⟩ := resolve_below found
  have resolved : tree.resolve (path / name) true = tree.walkWithin true left place [name] :=
    goes true [name] (by simp) (by simpa using proper.toIsPlain) (by simpa using proper.noNul)
  have kind : ∀ target, node.kind ≠ .link target := by
    intro target eq
    cases node with
    | file content => cases eq
    | sealed size => cases eq
    | link other => exact notLink other rfl
    | folder inner => cases eq
  rw [walkWithin_step _ ⟨proper.notHere, proper.notUp, proper.short⟩ (kind?_of_at? held) kind,
    walkWithin_nil _ held] at resolved
  rw [find, resolved]

/-! ## Walks that come to a file -/

section Listed

variable {excluded : List Path} {links : Nat} {path file : Path} {location : Location}
  {above : List Location} {node : FileNode}

/-- A regular file is no link. -/
theorem notLink_of_isFile (isFile : node.isFile = true) (target : Path) : node ≠ .link target := by
  rintro rfl
  cases isFile

theorem filesAt_of_isFile (isFile : node.isFile = true)
    {onLink : Path → List Location → List Path} :
    filesAt excluded onLink path location above node = [path] := by
  cases node with
  | file content => rw [filesAt]
  | sealed size => rw [filesAt]
  | link target => cases isFile
  | folder entries => cases isFile

theorem mem_filesAmong_iff {onLink : Path → List Location → List Path}
    {entries : List (String × FileNode)} :
    file ∈ filesAmong excluded onLink path location above entries ↔
      ∃ entry ∈ entries, excluded.any (path / entry.1).same = false ∧
        file ∈ filesAt excluded onLink (path / entry.1) (location ++ [entry.1]) above entry.2 := by
  induction entries with
  | nil => simp [filesAmong]
  | cons entry rest ih =>
      rw [filesAmong, List.mem_append, ih]
      simp only [List.mem_cons, exists_eq_or_imp]
      refine or_congr_left ?_
      cases excluded.any (path / entry.1).same <;> simp

/-- A walk from a node, which stands at a path and a location below the folders `above`, comes to a
file behind at most `links` links. -/
inductive ComesTo (tree : FileTree) (excluded : List Path) :
    Nat → Path → Location → List Location → FileNode → Path → Prop where
  /-- The node is the file. -/
  | file {links : Nat} {path : Path} {location : Location} {above : List Location} {node : FileNode}
      (isFile : node.isFile = true) :
      ComesTo tree excluded links path location above node path
  /-- The file is in a folder, which is entered by a path that is not excluded. -/
  | enter {links path location above entries name node file} (listed : (name, node) ∈ entries)
      (entered : excluded.any (path / name).same = false)
      (inner : ComesTo tree excluded links (path / name) (location ++ [name]) (location :: above)
        node file) :
      ComesTo tree excluded links path location above (.folder entries) file
  /-- The file is behind a link, which does not lead back into a folder above. -/
  | follow {links path location above target place node file}
      (found : tree.find path = .ok (place, node)) (outside : place ∉ above)
      (behind : ComesTo tree excluded links path place above node file) :
      ComesTo tree excluded (links + 1) path location above (.link target) file

theorem comesTo_of_mem_filesAt {onLink : Path → List Location → List Path}
    (onward : ∀ path location above target, ∀ file ∈ onLink path above,
      tree.ComesTo excluded links path location above (.link target) file)
    (path : Path) (location : Location) (above : List Location) (node : FileNode)
    (member : file ∈ filesAt excluded onLink path location above node) :
    tree.ComesTo excluded links path location above node file := by
  match node with
  | .file content =>
      rw [filesAt, List.mem_singleton] at member
      exact member ▸ .file rfl
  | .sealed size =>
      rw [filesAt, List.mem_singleton] at member
      exact member ▸ .file rfl
  | .link target =>
      rw [filesAt] at member
      exact onward path location above target file member
  | .folder entries =>
      rw [filesAt, mem_filesAmong_iff] at member
      obtain ⟨⟨name, child⟩, listed, entered, member⟩ := member
      exact .enter listed entered (comesTo_of_mem_filesAt onward (path / name) _ _ child member)
termination_by sizeOf node
decreasing_by
  have smaller := List.sizeOf_lt_of_mem listed
  simp only [Prod.mk.sizeOf_spec, FileNode.folder.sizeOf_spec] at smaller ⊢
  omega

theorem comesTo_of_mem_filesBehind (path : Path) (location : Location) (above : List Location)
    (target : Path) :
    ∀ file ∈ filesBehind tree excluded links path above,
      tree.ComesTo excluded links path location above (.link target) file := by
  induction links generalizing path location above target with
  | zero => exact fun file member => absurd member List.not_mem_nil
  | succ links ih =>
      intro file member
      rw [filesBehind] at member
      split at member
      · rename_i place node found
        split at member
        · exact absurd member List.not_mem_nil
        · exact .follow found ‹_› (comesTo_of_mem_filesAt ih path place above node member)
      · exact absurd member List.not_mem_nil

/-- The derivations say what is listed. -/
theorem mem_filesAt_iff :
    file ∈ filesAt excluded (filesBehind tree excluded links) path location above node ↔
      tree.ComesTo excluded links path location above node file := by
  refine ⟨comesTo_of_mem_filesAt comesTo_of_mem_filesBehind path location above node,
    fun comes => ?_⟩
  induction comes with
  | file isFile =>
      rw [filesAt_of_isFile isFile]
      exact List.mem_singleton_self _
  | enter listed entered _ ih =>
      rw [filesAt, mem_filesAmong_iff]
      exact ⟨_, listed, entered, ih⟩
  | follow found outside _ ih =>
      rw [filesAt, filesBehind, found]
      dsimp only
      rwa [if_neg outside]

theorem mem_filesBehind_iff (location : Location) (target : Path) :
    file ∈ filesBehind tree excluded links path above ↔
      tree.ComesTo excluded links path location above (.link target) file := by
  rw [← mem_filesAt_iff, filesAt]

/-- How many links are followed one after another. -/
def linksFollowed (followLinks : Bool) : Nat := if followLinks then maxLinks else 0

theorem filesBelow_eq (tree : FileTree) (followLinks : Bool) (excluded : List Path) (path : Path) :
    tree.filesBelow followLinks excluded path =
      match tree.find path with
      | .ok (place, node) =>
          filesAt excluded (filesBehind tree excluded (linksFollowed followLinks)) path place []
            node
      | .error _ => [] := by
  cases followLinks with
  | true => rfl
  | false => rfl

theorem mem_filesBelow_iff_comesTo {followLinks : Bool} :
    file ∈ tree.filesBelow followLinks excluded path ↔
      ∃ place node, tree.find path = .ok (place, node) ∧
        tree.ComesTo excluded (linksFollowed followLinks) path place [] node file := by
  rw [filesBelow_eq]
  constructor
  · intro member
    split at member
    · rename_i place node found
      exact ⟨place, node, found, mem_filesAt_iff.mp member⟩
    · exact absurd member List.not_mem_nil
  · rintro ⟨place, node, found, comes⟩
    rw [found]
    exact mem_filesAt_iff.mpr comes

/-! ## What is listed -/

theorem ComesTo.leadsToFile (named : tree.WellNamed)
    (comes : tree.ComesTo excluded links path location above node file)
    (found : (∀ target, node ≠ .link target) → tree.find path = .ok (location, node)) :
    tree.LeadsToFile file := by
  induction comes with
  | file isFile => exact ⟨_, _, found (notLink_of_isFile isFile), isFile⟩
  | enter listed _ _ ih => exact ih (find_join named (found (by simp)) listed)
  | follow leads _ _ ih => exact ih fun _ => leads

theorem leadsToFile_filesBelow (named : tree.WellNamed) {followLinks : Bool}
    (member : file ∈ tree.filesBelow followLinks excluded path) : tree.LeadsToFile file := by
  obtain ⟨place, node, found, comes⟩ := mem_filesBelow_iff_comesTo.mp member
  exact comes.leadsToFile named fun _ => found

end Listed

end FileTree

/-- Whether a file is worth indexing depends on nothing but what the path leads to. -/
theorem Crawler.admits_congr {crawler : Crawler} {tree other : FileTree} {path : Path}
    (same : other.find path = tree.find path) :
    crawler.admits other path = crawler.admits tree path := by
  rw [admits, admits, admitsSize, admitsSize, FileTree.size?, FileTree.size?, same]

/-- A crawl of a well-named tree lists regular files only. -/
theorem Crawler.leadsToFile_crawl {tree : FileTree} (named : tree.WellNamed) {crawler : Crawler}
    {file : Path} (member : file ∈ crawler.crawl tree) : tree.LeadsToFile file := by
  rw [crawl, List.mem_mergeSort, files, List.mem_filter] at member
  exact FileTree.leadsToFile_filesBelow named member.1

end SourceSearch
