import SourceSearch.Proofs.Crawl.Alike

/-!
# All that a crawl lists

A walk that follows no links comes to every file below the root unless it is stopped on the way: by
an excluded path, which is not entered.  Paths are compared component by component, so an excluded
path stops the walk exactly before the files that are it or lie below it.
-/

namespace SourceSearch
namespace Path

variable {folder root file : Path} {names : List String}

/-- The file is the folder or lies below it, component by component. -/
def Covers (folder file : Path) : Prop := folder.components <+: file.components

instance (folder file : Path) : Decidable (folder.Covers file) :=
  inferInstanceAs (Decidable (folder.components <+: file.components))

/-- A path that does not cover the root covers what lies below it from one of the paths on the way
on. -/
theorem covers_below_iff (apart : ¬ folder.Covers root) (plain : ∀ name ∈ names, IsPlain name) :
    folder.Covers (root.below names) ↔
      ∃ front, front ≠ [] ∧ front <+: names ∧ (root.below front).same folder = true := by
  have components (front : List String) (inside : front <+: names) :
      (root.below front).components = root.components ++ front.map .name :=
    components_below root fun name member => plain name (inside.subset member)
  have whole := components names (List.prefix_refl names)
  constructor
  · intro covers
    rw [Covers, whole] at covers
    have longer : root.components <+: folder.components :=
      (List.prefix_or_prefix_of_prefix covers (List.prefix_append _ _)).resolve_left apart
    obtain ⟨rest, goes⟩ := longer
    rw [← goes, List.prefix_append_right_inj, List.prefix_iff_eq_take, ← List.map_take] at covers
    refine ⟨names.take rest.length, ?_, List.take_prefix _ _, ?_⟩
    · intro empty
      rw [empty, List.map_nil] at covers
      rw [covers, List.append_nil] at goes
      exact apart ⟨[], by rw [List.append_nil, goes]⟩
    · rw [same, decide_eq_true_eq, components _ (List.take_prefix _ _), ← covers, goes]
  · rintro ⟨front, -, inside, same⟩
    rw [Path.same, decide_eq_true_eq, components front inside] at same
    rw [Covers, whole, ← same, List.prefix_append_right_inj]
    exact inside.map _

/-- A path below another covers what goes on from it. -/
theorem covers_below_below_iff {front : List String} (plain : ∀ name ∈ front, IsPlain name)
    (plain' : ∀ name ∈ names, IsPlain name) :
    (root.below front).Covers (root.below names) ↔ front <+: names := by
  rw [Covers, components_below _ plain, components_below _ plain', List.prefix_append_right_inj]
  exact List.prefix_map_iff_of_injective fun _ _ eq => Component.name.inj eq

end Path

namespace FileTree

variable {tree : FileTree} {excluded : List Path} {onLink : Path → List Location → List Path}
  {file path root : Path} {place : Location} {names : List String}
  {entries : List (String × FileNode)}

/-! ## Files of a node -/

/-- No excluded path is met on the way from a path by names. -/
def IsOpen (excluded : List Path) (path : Path) (names : List String) : Prop :=
  ∀ front, front ≠ [] → front <+: names → excluded.any (path.below front).same = false

theorem isOpen_nil : IsOpen excluded path [] := fun _ nonempty inside =>
  absurd (List.prefix_nil.mp inside) nonempty

theorem isOpen_cons {name : String} : IsOpen excluded path (name :: names) ↔
    excluded.any (path / name).same = false ∧ IsOpen excluded (path / name) names := by
  constructor
  · exact fun isOpen => ⟨isOpen [name] (by simp) (by simp), fun front _ inside =>
      isOpen (name :: front) (by simp) (List.cons_prefix_cons.mpr ⟨rfl, inside⟩)⟩
  · rintro ⟨entered, isOpen⟩ front nonempty inside
    obtain ⟨first, rest, rfl⟩ := List.exists_cons_of_ne_nil nonempty
    obtain ⟨rfl, within⟩ := List.cons_prefix_cons.mp inside
    by_cases last : rest = []
    · rw [last]
      exact entered
    · exact isOpen rest last within

/-- What a walk comes to is a file that the way to is open, or it is behind a link that the way to
is open. -/
theorem ComesTo.exists_isOpen {links : Nat} {location : Location} {above : List Location}
    {node : FileNode} (comes : tree.ComesTo excluded links path location above node file)
    (named : node.WellNamed) :
    ∃ names, IsOpen excluded path names ∧
      ((∃ stands, node.at? names = some stands ∧ stands.isFile = true) ∧ path.below names = file ∨
        ∃ target above', node.at? names = some (.link target) ∧
          file ∈ filesBehind tree excluded links (path.below names) above') := by
  induction comes with
  | @file links path location above node isFile =>
      exact ⟨[], isOpen_nil, .inl ⟨⟨node, node.at?_nil, isFile⟩, rfl⟩⟩
  | @enter links path location above entries name child file listed entered _ ih =>
      obtain ⟨apart, inner⟩ := FileNode.wellNamed_folder_iff_forall.mp named
      obtain ⟨names, isOpen, ends⟩ := ih (inner _ listed)
      refine ⟨name :: names, isOpen_cons.mpr ⟨entered, isOpen⟩, ?_⟩
      rw [FileNode.at?_cons_folder, (lookup_eq_some_iff apart.2).mpr listed]
      exact ends
  | @follow links path location above target place node file leads outside behind =>
      exact ⟨[], isOpen_nil, .inr ⟨target, above, rfl,
        (mem_filesBehind_iff location target).mpr (.follow leads outside behind)⟩⟩

/-- A walk lists what it lists in a node that the way to is open.  On the way it enters only folders
above that node. -/
theorem mem_filesAt_of_isOpen {location : Location} {above : List Location} {node inner : FileNode}
    (named : node.WellNamed) (stands : node.at? names = some inner)
    (isOpen : IsOpen excluded path names)
    (lists : ∀ above', (∀ entered ∈ above', entered ∈ above ∨
        entered <+: location ++ names ∧ entered ≠ location ++ names) →
      file ∈ filesAt excluded onLink (path.below names) (location ++ names) above' inner) :
    file ∈ filesAt excluded onLink path location above node := by
  induction names generalizing path location above node with
  | nil =>
      obtain rfl : node = inner := by simpa using stands
      simpa using lists above fun _ => .inl
  | cons name rest ih =>
      obtain ⟨entries, rfl⟩ := FileNode.at?_cons_isSome (Option.isSome_of_eq_some stands)
      obtain ⟨apart, inner⟩ := FileNode.wellNamed_folder_iff_forall.mp named
      obtain ⟨entered, isOpen⟩ := isOpen_cons.mp isOpen
      rw [FileNode.at?_cons_folder] at stands
      obtain ⟨child, held, stands⟩ := Option.bind_eq_some_iff.mp stands
      have listed := (lookup_eq_some_iff apart.2).mp held
      rw [filesAt, mem_filesAmong_iff]
      refine ⟨(name, child), listed, entered, ih (inner _ listed) stands isOpen fun above' on => ?_⟩
      rw [List.append_assoc, List.singleton_append] at on ⊢
      refine lists above' fun entered member => ?_
      rcases on entered member with inside | inside
      · rcases List.mem_cons.mp inside with rfl | inside
        · exact .inr ⟨List.prefix_append _ _, by simp⟩
        · exact .inl inside
      · exact .inr inside

/-- A walk lists the files of a node that the way to is open. -/
theorem mem_filesAt_of_at? {location : Location} {above : List Location} {node inner : FileNode}
    (named : node.WellNamed) (stands : node.at? names = some inner) (isFile : inner.isFile = true)
    (isOpen : IsOpen excluded path names) :
    path.below names ∈ filesAt excluded onLink path location above node :=
  mem_filesAt_of_isOpen named stands isOpen fun above' _ => by
    rw [filesAt_of_isFile isFile]
    exact List.mem_singleton_self _

/-! ## Files below a folder -/

/-- Below what is found stands what it holds. -/
theorem at?_below_found {node : FileNode} (found : tree.find root = .ok (place, node))
    (names : List String) : tree.at? (place ++ names) = node.at? names := by
  rw [at?_append, (find_iff.mp found).2.2, Option.bind_some]

/-- What stands below a folder at plain places is found there, unless it is a link. -/
theorem find_below_of_at? (named : tree.WellNamed) {node : FileNode}
    (found : tree.find root = .ok (place, .folder entries))
    (stands : tree.at? (place ++ names) = some node) (notLink : ∀ target, node ≠ .link target) :
    tree.find (root.below names) = .ok (place ++ names, node) := by
  induction names generalizing root place entries with
  | nil =>
      rw [List.append_nil] at stands ⊢
      rw [Path.below_nil, found, Option.some.inj (stands.symm.trans (find_iff.mp found).2.2)]
  | cons name rest ih =>
      have above := (find_iff.mp found).2.2
      rw [List.append_cons] at stands ⊢
      rw [at?_append] at stands
      obtain ⟨first, held, stands⟩ := Option.bind_eq_some_iff.mp stands
      have listed := (named.mem_entries_iff above).mpr held
      cases rest with
      | nil =>
          obtain rfl : first = node := by simpa using stands
          simpa using find_join named found listed notLink
      | cons next rest =>
          obtain ⟨inner, rfl⟩ := FileNode.at?_cons_isSome (Option.isSome_of_eq_some stands)
          refine ih (find_join named found listed (by simp)) ?_
          rw [at?_append, held]
          exact stands

/-- Names of what stands below a folder of a well-named tree are proper. -/
theorem WellNamed.isName_of_mem (named : tree.WellNamed) {front names : Location} {node : FileNode}
    (stands : tree.at? (front ++ names) = some node) : ∀ name ∈ names, IsName name := by
  intro name member
  obtain ⟨before, after, rfl⟩ := List.append_of_mem member
  rw [← List.append_assoc] at stands
  exact named.isName (kind?_of_at? stands)

/-- The way from a root is open if no excluded path covers its end. -/
theorem isOpen_iff (apart : ∀ path ∈ excluded, ¬ path.Covers root)
    (plain : ∀ name ∈ names, IsPlain name) :
    IsOpen excluded root names ↔ ∀ path ∈ excluded, ¬ path.Covers (root.below names) := by
  simp only [IsOpen, List.any_eq_false]
  constructor
  · intro isOpen path listed covers
    obtain ⟨front, nonempty, inside, same⟩ :=
      (Path.covers_below_iff (apart path listed) plain).mp covers
    exact isOpen front nonempty inside path listed same
  · intro uncovered front nonempty inside path listed same
    exact uncovered path listed
      ((Path.covers_below_iff (apart path listed) plain).mpr ⟨front, nonempty, inside, same⟩)

/-- The files below a folder that no excluded path covers. -/
theorem mem_filesBelow_iff (named : tree.WellNamed)
    (found : tree.find root = .ok (place, .folder entries))
    (apart : ∀ path ∈ excluded, ¬ path.Covers root) :
    file ∈ tree.filesBelow false excluded root ↔
      ∃ names node, tree.at? (place ++ names) = some node ∧ node.isFile = true ∧
        (∀ path ∈ excluded, ¬ path.Covers (root.below names)) ∧ root.below names = file := by
  have inner := at?_below_found found
  have plain {names : List String} {node : FileNode}
      (stands : tree.at? (place ++ names) = some node) : ∀ name ∈ names, IsPlain name :=
    isPlain_of_isName (named.isName_of_mem stands)
  rw [filesBelow_eq, found]
  constructor
  · intro member
    obtain ⟨names, isOpen, ⟨⟨node, stands, isFile⟩, is⟩ | ⟨_, _, -, behind⟩⟩ :=
      (mem_filesAt_iff.mp member).exists_isOpen (named.of_find found)
    · rw [← inner] at stands
      exact ⟨names, node, stands, isFile, (isOpen_iff apart (plain stands)).mp isOpen, is⟩
    · exact absurd behind List.not_mem_nil
  · rintro ⟨names, node, stands, isFile, free, rfl⟩
    exact mem_filesAt_of_at? (named.of_find found) (inner names ▸ stands) isFile
      ((isOpen_iff apart (plain stands)).mpr free)

end FileTree

namespace Crawler

variable {crawler : Crawler} {tree : FileTree} {patterns : List String} {config : Config}
  {root file : Path} {place : Location} {entries : List (String × FileNode)}

/-- A crawl of a folder that follows no links lists the files below it that no excluded path
covers, that are not too large and that have the name of a source file. -/
theorem mem_crawl_iff (crawler : Crawler) (named : tree.WellNamed)
    (noLinks : crawler.followSymlinks = false)
    (found : tree.find crawler.root = .ok (place, .folder entries))
    (apart : ∀ path ∈ crawler.excluded, ¬ path.Covers crawler.root) :
    file ∈ crawler.crawl tree ↔
      ∃ front name node size, tree.at? (place ++ (front ++ [name])) = some node ∧
        node.size? = some size ∧
        (∀ path ∈ crawler.excluded, ¬ path.Covers (crawler.root.below (front ++ [name]))) ∧
        crawler.admitsName name = true ∧ size ≤ crawler.maxFileSize ∧
        crawler.root.below (front ++ [name]) = file := by
  have admits {front : List String} {name : String} {node : FileNode} {size : Nat}
      (stands : tree.at? (place ++ (front ++ [name])) = some node)
      (sized : node.size? = some size) :
      crawler.admits tree (crawler.root.below (front ++ [name])) = true ↔
        crawler.admitsName name = true ∧ size ≤ crawler.maxFileSize := by
    have notLink := FileTree.notLink_of_isFile (node.isSome_size? ▸ Option.isSome_of_eq_some sized)
    rw [Crawler.admits, Path.fileName?_below _ (named.isName_of_mem stands), Bool.and_eq_true,
      admitsSize, FileTree.size?, FileTree.find_below_of_at? named found stands notLink]
    simp [sized]
  rw [crawl, List.mem_mergeSort, files, List.mem_filter, noLinks,
    FileTree.mem_filesBelow_iff named found apart]
  constructor
  · rintro ⟨⟨names, node, stands, isFile, free, rfl⟩, admitted⟩
    obtain ⟨size, sized⟩ := Option.isSome_iff_exists.mp (node.isSome_size?.trans isFile)
    -- The root itself is a folder.
    rcases List.eq_nil_or_concat names with rfl | ⟨front, name, rfl⟩
    · rw [List.append_nil, (FileTree.find_iff.mp found).2.2] at stands
      cases stands
      cases isFile
    · rw [List.concat_eq_append] at stands free admitted ⊢
      obtain ⟨matching, small⟩ := (admits stands sized).mp admitted
      exact ⟨front, name, node, size, stands, sized, free, matching, small, rfl⟩
  · rintro ⟨front, name, node, size, stands, sized, free, matching, small, rfl⟩
    have isFile := node.isSome_size? ▸ Option.isSome_of_eq_some sized
    exact ⟨⟨front ++ [name], node, stands, isFile, free, rfl⟩,
      (admits stands sized).mpr ⟨matching, small⟩⟩

/-- Crawls of trees that hold the same find the same files. -/
theorem perm_files {other : FileTree} (named : tree.WellNamed) (named' : other.WellNamed)
    (home : other.home = tree.home)
    (kinds : ∀ location, other.kind? location = tree.kind? location) :
    (crawler.files other).Perm (crawler.files tree) := by
  have alike : FileTree.AlikeBut [] tree other :=
    ⟨home, fun place _ => kinds place, by simp, by simp⟩
  have same : crawler.crawl other = crawler.crawl tree :=
    crawl_eq_of_alike alike named named' (fun _ _ => by simp [FileTree.Avoids])
      fun _ _ => by simp [FileTree.Avoids]
  calc (crawler.files other).Perm (crawler.crawl other) := (List.mergeSort_perm _ _).symm
    _ = crawler.crawl tree := same
    (crawler.crawl tree).Perm (crawler.files tree) := List.mergeSort_perm _ _

/-! ## Patterns -/

/-- The pattern is well formed and stands for the name. -/
def Matches (pattern name : String) : Prop :=
  ∃ parts, Glob.parse pattern = some parts ∧ Glob.admits parts name = true

theorem parsePatterns_eq (valid : ∀ pattern ∈ patterns, (Glob.parse pattern).isSome = true) :
    parsePatterns patterns = .ok (patterns.filterMap Glob.parse) := by
  induction patterns with
  | nil => rfl
  | cons pattern rest ih =>
      rw [List.forall_mem_cons] at valid
      obtain ⟨parts, parsed⟩ := Option.isSome_iff_exists.mp valid.1
      rw [parsePatterns] at ih ⊢
      rw [List.mapM_cons, ih valid.2, parsed, List.filterMap_cons, parsed]
      rfl

theorem any_filterMap_parse (patterns : List String) (name : String) :
    (patterns.filterMap Glob.parse).any (Glob.admits · name) = true ↔
      ∃ pattern ∈ patterns, Matches pattern name := by
  simp only [List.any_eq_true, List.mem_filterMap, Matches]
  grind

theorem admitsName_iff (sources : crawler.sources = patterns.filterMap Glob.parse)
    (archives : crawler.archives = archivePatterns.filterMap Glob.parse) {name : String} :
    crawler.admitsName name = true ↔ (∃ pattern ∈ patterns, Matches pattern name) ∧
      ¬ ∃ pattern ∈ archivePatterns, Matches pattern name := by
  rw [admitsName, sources, archives, Bool.and_eq_true, Bool.not_eq_true', ← Bool.not_eq_true,
    any_filterMap_parse, any_filterMap_parse, and_comm]

/-- There is a crawler for well-formed patterns. -/
theorem exists_matching (root : Path) (config : Config)
    (valid : ∀ pattern ∈ patterns, (Glob.parse pattern).isSome = true) :
    ∃ base, matching root patterns config = .ok base ∧ base.root = root ∧
      base.sources = patterns.filterMap Glob.parse ∧
      base.archives = archivePatterns.filterMap Glob.parse ∧
      base.followSymlinks = config.followSymlinks ∧ base.maxFileSize = config.maxFileSize ∧
      base.excluded = [] := by
  have archives : ∀ pattern ∈ archivePatterns, (Glob.parse pattern).isSome = true := by
    decide +kernel
  rw [matching, parsePatterns_eq valid, parsePatterns_eq archives]
  exact ⟨_, rfl, rfl, rfl, rfl, rfl, rfl, rfl⟩

end Crawler
end SourceSearch
