import SourceSearch.Proofs.Crawl.Alike

/-!
# Crawls of a part of a tree

A tree is a part of another if whatever it holds the other holds as well.  Walks in the part arrive
at the same places in the whole, so a crawl of the part lists those files of a crawl of the whole
that can be found in the part.
-/

namespace SourceSearch
namespace FileTree

variable {part whole tree : FileTree} {path file root : Path} {place location : Location}
  {entries : List (String × FileNode)} {names : List String}

/-- Whatever the one tree holds the other holds as well. -/
structure IsPart (part whole : FileTree) : Prop where
  /-- Relative paths start in the same folder. -/
  home : whole.home = part.home
  /-- What stands somewhere stands there in the other. -/
  kinds : ∀ place kind, part.kind? place = some kind → whole.kind? place = some kind

namespace IsPart

/-- What is found in the part is found in the whole. -/
theorem find (isPart : IsPart part whole) {node : FileNode}
    (found : part.find path = .ok (place, node)) :
    ∃ node', whole.find path = .ok (place, node') ∧ node'.kind = node.kind := by
  obtain ⟨sound, walk, stands⟩ := find_iff.mp found
  have start : whole.startOf path = part.startOf path := by rw [startOf, startOf, isPart.home]
  obtain ⟨node', stands', kind⟩ :=
    Option.map_eq_some_iff.mp (isPart.kinds place _ (kind?_of_at? stands))
  exact ⟨node', find_iff.mpr ⟨sound, start ▸ walk.grow isPart.kinds, stands'⟩, kind⟩

/-- What leads to a file in the part leads to it in the whole. -/
theorem leadsToFile (isPart : IsPart part whole) (leads : part.LeadsToFile path) :
    whole.LeadsToFile path := by
  obtain ⟨place, node, found, isFile⟩ := leads
  obtain ⟨node', found', kind⟩ := isPart.find found
  exact ⟨place, node, FileNode.eq_of_kind_of_isFile isFile kind ▸ found', isFile⟩

/-- A file of the part is the same in the whole. -/
theorem find_file (isPart : IsPart part whole) (leads : part.LeadsToFile path) :
    whole.find path = part.find path := by
  obtain ⟨place, node, found, isFile⟩ := leads
  obtain ⟨node', found', kind⟩ := isPart.find found
  rw [found, found', FileNode.eq_of_kind_of_isFile isFile kind]

/-- So it reads the same. -/
theorem read_eq (isPart : IsPart part whole) (leads : part.LeadsToFile path) :
    whole.read path = part.read path := by
  rw [read, read, isPart.find_file leads]

/-- What stands in the part stands in the whole with the same kind. -/
theorem exists_at? (isPart : IsPart part whole) {node : FileNode}
    (stands : part.at? place = some node) :
    ∃ node', whole.at? place = some node' ∧ node'.kind = node.kind :=
  Option.map_eq_some_iff.mp (isPart.kinds place _ (kind?_of_at? stands))

end IsPart

/-- A tree in which a folder is empty is a part of each tree that agrees outside of the folder. -/
theorem AgreesOutside.isPart {other : FileTree} {front : Location} {name : String}
    (agrees : tree.AgreesOutside front [name] other) (above : tree.kind? front = some .folder)
    (stands : other.kind? (front ++ [name]) = some .folder) :
    IsPart (tree.put (front ++ [name]) (.folder [])) other where
  home := agrees.1.trans (home_alter _ _ _).symm
  kinds place kind held := by
    by_cases below : front ++ [name] <+: place
    · obtain ⟨rest, rfl⟩ := below
      rw [List.append_assoc, List.singleton_append, kind?_put above] at held
      cases rest with
      | nil =>
          rw [List.append_nil, stands]
          exact held
      | cons next rest => cases held
    · rw [put, kind?_alter_of_apart tree below] at held
      rw [agrees.2 place (List.forall_mem_singleton.mpr below), held]

/-! ## Fronts of what is found -/

/-- Below a folder something is found only behind an entry. -/
theorem exists_at?_of_find_below (found : tree.find path = .ok (place, .folder entries))
    {name : String} (proper : ∀ other ∈ name :: names, IsName other) {node : FileNode}
    (reached : tree.find (path.below (name :: names)) = .ok (location, node)) :
    ∃ child, tree.at? (place ++ [name]) = some child := by
  obtain ⟨left, goes⟩ := resolve_below found
  have resolved := goes true (name :: names) (by simp) (isPlain_of_isName proper)
    fun other member => (proper other member).noNul
  have plain := (proper name List.mem_cons_self).toIsPlain
  have stands (kind : NodeKind) (there : tree.kind? (place ++ [name]) = some kind) :
      ∃ child, tree.at? (place ++ [name]) = some child := by
    obtain ⟨child, held, -⟩ := Option.map_eq_some_iff.mp there
    exact ⟨child, held⟩
  rw [find, resolved] at reached
  split at reached
  · rename_i arrived
    cases (arrives_iff.mp arrived).1 with
    | here => exact absurd rfl plain.notHere
    | up => exact absurd rfl plain.notUp
    | step _ there => exact stands _ there
    | follow _ there => exact stands _ there
    | stay _ there => exact stands _ there
  · cases reached
  · cases reached

/-- Where something is found below a path, something is found at the path. -/
theorem exists_find_of_find_below (given : path.text ≠ "") (proper : ∀ name ∈ names, IsName name)
    {node : FileNode} (reached : tree.find (path.below names) = .ok (location, node)) :
    ∃ place node', tree.find path = .ok (place, node') := by
  cases names with
  | nil => exact ⟨location, node, reached⟩
  | cons name rest =>
      have plain := isPlain_of_isName proper
      obtain ⟨clean, walk, -⟩ := find_iff.mp reached
      have sound : path.IsSound := ⟨fun nul => clean.noNul
        ((Path.mem_text_below plain (by decide)).mpr (.inl nul)), given⟩
      rw [startOf_below tree given plain, Path.steps_below path (by simp) plain] at walk
      obtain ⟨place, front⟩ := walk.front
      rcases path.steps_eq with steps | steps
      · obtain ⟨node', stands, -⟩ := front.walkWithin
        exact ⟨place, node', find_iff.mpr ⟨sound, steps ▸ front, stands⟩⟩
      · -- A slash at the end asks for a folder, and only in a folder can the walk go on.
        obtain ⟨left, -, goes⟩ := front.append
        obtain ⟨_, -, onward⟩ := walk.walkWithin
        rw [goes true (name :: rest) (by simp)] at onward
        have folder := (arrives_iff.mp onward).1.folder
        obtain ⟨entries, stands⟩ := at?_of_kind?_folder folder
        have here := goes true ["."] (by simp)
        rw [walkWithin_here left folder, walkWithin_nil left stands] at here
        exact ⟨place, _, find_iff.mpr ⟨sound, steps ▸ (arrives_iff.mp here).1, stands⟩⟩

/-! ## Files that are listed -/

section Listed

variable {excluded : List Path} {links : Nat} {above : List Location} {node node' : FileNode}

/-- A walk comes to a file of the part in the whole as well. -/
theorem ComesTo.of_isPart (isPart : IsPart part whole) (named : part.WellNamed)
    (named' : whole.WellNamed)
    (comes : part.ComesTo excluded links path location above node file)
    (same : node'.kind = node.kind) (stands : part.at? location = some node)
    (stands' : whole.at? location = some node') :
    whole.ComesTo excluded links path location above node' file := by
  induction comes generalizing node' with
  | file isFile =>
      obtain rfl := FileNode.eq_of_kind_of_isFile isFile same
      exact .file isFile
  | enter listed entered _ ih =>
      obtain ⟨entries', rfl⟩ := FileNode.eq_folder_of_kind same
      have inner := (named.mem_entries_iff stands).mp listed
      obtain ⟨child', inner', same'⟩ := isPart.exists_at? inner
      exact .enter ((named'.mem_entries_iff stands').mpr inner') entered (ih same' inner inner')
  | follow leads outside _ ih =>
      obtain rfl := FileNode.eq_link_of_kind same
      obtain ⟨node', leads', same'⟩ := isPart.find leads
      exact .follow leads' outside (ih same' (find_iff.mp leads).2.2 (find_iff.mp leads').2.2)

/-- A walk comes to a file of the whole in the part as well, if the file can be found there. -/
theorem ComesTo.of_leads (isPart : IsPart part whole) (named : part.WellNamed)
    (named' : whole.WellNamed)
    (comes : whole.ComesTo excluded links path location above node' file)
    (given : path.text ≠ "") (same : node'.kind = node.kind) (wellNamed : node'.WellNamed)
    (stands' : whole.at? location = some node')
    (found : (∀ target, node ≠ .link target) → part.find path = .ok (location, node))
    (leads : part.LeadsToFile file) :
    part.ComesTo excluded links path location above node file := by
  induction comes generalizing node with
  | file isFile =>
      obtain rfl := FileNode.eq_of_kind_of_isFile isFile same.symm
      exact .file isFile
  | @enter links path location above entries' name child' file listed entered inner ih =>
      obtain ⟨entries, rfl⟩ := FileNode.eq_folder_of_kind same.symm
      obtain ⟨apart, wellNamedInner⟩ := FileNode.wellNamed_folder_iff_forall.mp wellNamed
      have proper := apart.1 _ listed
      have there := (named'.mem_entries_iff stands').mp listed
      -- The file is found in the part, so there is an entry on the way.
      obtain ⟨names, plain, is⟩ := inner.isBelow named' (wellNamedInner _ listed)
      have here := found (by simp)
      obtain ⟨place, last, reached, isFile⟩ := leads
      obtain ⟨child, stands⟩ := exists_at?_of_find_below here
        (List.forall_mem_cons.mpr ⟨proper, plain⟩) (is ▸ reached)
      have entry := (named.mem_entries_iff (find_iff.mp here).2.2).mpr stands
      obtain ⟨_, there', same'⟩ := isPart.exists_at? stands
      rw [Option.some.inj (there'.symm.trans there)] at same'
      exact .enter entry entered (ih (Path.join_text_ne_empty proper.toIsPlain) same'
        (wellNamedInner _ listed) there (find_join named here entry) ⟨place, last, reached, isFile⟩)
  | follow leads' outside behind ih =>
      obtain rfl := FileNode.eq_link_of_kind same.symm
      obtain ⟨names, plain, is⟩ := behind.isBelow named' (named'.of_find leads')
      obtain ⟨_, _, reached, isFile⟩ := leads
      obtain ⟨place, child, there⟩ := exists_find_of_find_below given plain (is ▸ reached)
      obtain ⟨child', there', same'⟩ := isPart.find there
      cases leads'.symm.trans there'
      exact .follow there outside (ih given same' (named'.of_find there')
        (find_iff.mp there').2.2 (fun _ => there) ⟨_, _, reached, isFile⟩)

/-- The files below a path in the part are those in the whole that can be found in the part. -/
theorem IsPart.mem_filesBelow_iff (isPart : IsPart part whole) (named : part.WellNamed)
    (named' : whole.WellNamed) {followLinks : Bool} :
    file ∈ part.filesBelow followLinks excluded root ↔
      file ∈ whole.filesBelow followLinks excluded root ∧ part.LeadsToFile file := by
  constructor
  · intro member
    refine ⟨?_, leadsToFile_filesBelow named member⟩
    obtain ⟨place, node, found, comes⟩ := mem_filesBelow_iff_comesTo.mp member
    obtain ⟨node', found', same⟩ := isPart.find found
    exact mem_filesBelow_iff_comesTo.mpr ⟨place, node', found',
      comes.of_isPart isPart named named' same (find_iff.mp found).2.2 (find_iff.mp found').2.2⟩
  · rintro ⟨member, leads⟩
    obtain ⟨place', node', found', comes⟩ := mem_filesBelow_iff_comesTo.mp member
    have given : root.text ≠ "" := (find_iff.mp found').1.2
    obtain ⟨names, plain, is⟩ := comes.isBelow named' (named'.of_find found')
    obtain ⟨_, _, reached, isFile⟩ := leads
    obtain ⟨place, node, found⟩ := exists_find_of_find_below given plain (is ▸ reached)
    obtain ⟨_, found'', same⟩ := isPart.find found
    cases found'.symm.trans found''
    exact mem_filesBelow_iff_comesTo.mpr ⟨_, node, found,
      comes.of_leads isPart named named' given same (named'.of_find found')
        (find_iff.mp found').2.2 (fun _ => found) ⟨_, _, reached, isFile⟩⟩

end Listed

end FileTree

namespace Crawler

variable {crawler : Crawler} {part whole : FileTree} {file : Path}

/-- **Crawls of a part.**  A crawl of a part of a tree lists what it lists in the whole, as far as
it can be found in the part. -/
theorem mem_crawl_iff_of_isPart (isPart : FileTree.IsPart part whole) (named : part.WellNamed)
    (named' : whole.WellNamed) :
    file ∈ crawler.crawl part ↔ file ∈ crawler.crawl whole ∧ part.LeadsToFile file := by
  have admits (leads : part.LeadsToFile file) :
      crawler.admits whole file = crawler.admits part file := admits_congr (isPart.find_file leads)
  simp only [crawl, List.mem_mergeSort, files, List.mem_filter,
    isPart.mem_filesBelow_iff named named']
  constructor
  · rintro ⟨⟨member, leads⟩, admitted⟩
    exact ⟨⟨member, admits leads ▸ admitted⟩, leads⟩
  · rintro ⟨⟨member, admitted⟩, leads⟩
    exact ⟨⟨member, leads⟩, admits leads ▸ admitted⟩

end Crawler
end SourceSearch
