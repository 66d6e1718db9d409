import Mathlib.Data.List.Nodup
import SourceSearch.Document.Key
import SourceSearch.Proofs.Crawl.Listed

/-!
# Paths that a crawl lists

A crawl of a well-named tree lists paths that go on by proper names from the root of the crawl, each
of them once.  So different files have different paths below the root, and the order of paths leaves
only one way to list them.
-/

namespace SourceSearch
namespace Path

variable {path : Path} {names more : List String}

/-! ## Components -/

/-- What the first piece of a path comes to; pieces after it that are empty or `.` are left out. -/
def leading (first : String) : List Component :=
  if first = "" then [.root] else if first = "." then [.here] else (component? first).toList

theorem leading_of_plain {name : String} (plain : IsPlain name) : leading name = [.name name] := by
  rw [leading, if_neg plain.notEmpty, if_neg plain.notHere, component?_of_plain plain]
  rfl

/-- The first piece of a path that is not empty counts in its own way. -/
theorem components_cons {first : String} {rest : List String} (given : path.pieces ≠ [""])
    (is : path.pieces = first :: rest) :
    path.components = leading first ++ rest.filterMap component? := by
  rw [is] at given
  rw [components, is]
  by_cases root : first = ""
  · subst root
    cases rest with
    | nil => exact absurd rfl given
    | cons next rest => rfl
  by_cases here : first = "."
  · subst here
    rfl
  · have ordinary : (first :: rest).filterMap component? =
        (component? first).toList ++ rest.filterMap component? := by
      rw [List.filterMap_cons]
      cases component? first <;> rfl
    rw [leading, if_neg root, if_neg here, ← ordinary]
    split <;> simp_all

theorem pieces_eq_iff : path.pieces = [""] ↔ path.text = "" := by
  constructor
  · intro is
    have whole : ['/'].intercalate (path.text.toList.splitOn '/') = path.text.toList :=
      List.intercalate_splitOn '/'
    rw [pieces, List.map_eq_singleton_iff] at is
    obtain ⟨piece, split, empty⟩ := is
    rw [split, ← String.toList_ofList (l := piece), empty] at whole
    exact String.toList_inj.mp whole.symm
  · intro empty
    simp [pieces, empty]

theorem components_join (path : Path) {name : String} (plain : IsPlain name) :
    (path / name).components = path.components ++ [.name name] := by
  by_cases empty : path.text = ""
  · have single : (path / name).pieces = [name] := by
      rw [pieces, join_text plain, if_pos (.inl empty), empty, String.empty_append,
        List.splitOn_eq_singleton plain.noSlash]
      simp
    rw [components_cons (by simp [single, plain.notEmpty]) single, leading_of_plain plain,
      components, pieces_eq_iff.mpr empty]
    rfl
  have given : path.pieces ≠ [""] := fun is => empty (pieces_eq_iff.mp is)
  obtain ⟨front, joined, above⟩ := pieces_join path plain
  have nonempty : front ≠ [] := by
    rintro rfl
    rcases above with above | above
    · simp [pieces, List.splitOn_ne_nil] at above
    · exact given above
  obtain ⟨first, rest, rfl⟩ := List.exists_cons_of_ne_nil nonempty
  rw [List.cons_append] at joined above
  have before : path.components = leading first ++ rest.filterMap component? := by
    rcases above with above | above
    · exact components_cons given above
    · rw [components_cons given above, List.filterMap_append]
      simp [component?]
  rw [components_cons (by simp [joined]) joined, List.filterMap_append, before, List.append_assoc]
  simp [component?_of_plain plain]

theorem components_below (path : Path) (plain : ∀ name ∈ names, IsPlain name) :
    (path.below names).components = path.components ++ names.map .name := by
  induction names generalizing path with
  | nil => simp
  | cons name rest ih =>
      rw [List.forall_mem_cons] at plain
      rw [below_cons, ih _ plain.2, components_join _ plain.1, List.append_assoc]
      rfl

theorem fileName?_below (path : Path) {name : String}
    (proper : ∀ other ∈ names ++ [name], IsName other) :
    (path.below (names ++ [name])).fileName? = some name := by
  rw [fileName?, components_below _ fun other member => (proper other member).toIsPlain,
    List.map_append, ← List.append_assoc, List.map_singleton, List.getLast?_concat]
  rfl

theorem below_injective (plain : ∀ name ∈ names, IsPlain name)
    (plain' : ∀ name ∈ more, IsPlain name) (same : path.below names = path.below more) :
    names = more := by
  have below := congrArg Path.names same
  rwa [names_below _ plain, names_below _ plain', List.append_cancel_left_eq] at below

/-- Below a path the names that it goes on by are found again. -/
theorem namesBelow?_below (path : Path) (nonempty : names ≠ [])
    (plain : ∀ name ∈ names, IsPlain name) :
    (path.below names).namesBelow? path = some names := by
  have ordinary (l : List String) : ((l.map Component.name).filter (· ≠ .here)).mapM
      Component.name? = some l := by
    induction l with
    | nil => rfl
    | cons name rest ih => simp_all [Component.name?]
  rw [namesBelow?, strip?, components_below _ plain, if_pos (List.prefix_append _ _),
    List.drop_left]
  simp only [Option.bind_eq_bind, Option.bind_some, ordinary]
  rw [if_neg (by simpa using nonempty)]

/-! ## Order -/

namespace Component

variable {a b c : Component}

theorem le_total (a b : Component) : a.le b = true ∨ b.le a = true := by
  cases a <;> cases b <;> simp [le, rank, String.le_total]

theorem le_trans (first : a.le b = true) (second : b.le c = true) : a.le c = true := by
  cases a <;> cases b <;> cases c <;> simp_all [le, rank]
  exact String.le_trans first second

theorem le_antisymm (first : a.le b = true) (second : b.le a = true) : a = b := by
  cases a <;> cases b <;> simp_all [le, rank]
  exact String.le_antisymm first second

end Component

theorem leComponents_total (as bs : List Component) :
    leComponents as bs = true ∨ leComponents bs as = true := by
  induction as, bs using leComponents.induct with
  | case1 bs => exact .inl rfl
  | case2 a as => exact .inr rfl
  | case3 as b bs ih => simpa [leComponents] using ih
  | case4 a as b bs different =>
      simpa [leComponents, different, Ne.symm different] using Component.le_total a b

theorem leComponents_antisymm {as bs : List Component} (first : leComponents as bs = true)
    (second : leComponents bs as = true) : as = bs := by
  induction as, bs using leComponents.induct with
  | case1 bs =>
      cases bs with
      | nil => rfl
      | cons b bs => cases second
  | case2 a as => cases first
  | case3 as b bs ih =>
      simp only [leComponents, if_true] at first second
      rw [ih first second]
  | case4 a as b bs different =>
      simp only [leComponents, if_neg different, if_neg (Ne.symm different)] at first second
      exact absurd (Component.le_antisymm first second) different

theorem leComponents_trans {as bs cs : List Component} (first : leComponents as bs = true)
    (second : leComponents bs cs = true) : leComponents as cs = true := by
  induction as generalizing bs cs with
  | nil => rfl
  | cons a as ih =>
      match bs, cs with
      | [], _ => cases first
      | b :: bs, [] => cases second
      | b :: bs, c :: cs =>
          rw [leComponents] at first second ⊢
          by_cases ab : a = b
          · subst ab
            rw [if_pos rfl] at first
            by_cases ac : a = c
            · rw [if_pos ac] at second ⊢
              exact ih first second
            · rwa [if_neg ac] at second ⊢
          rw [if_neg ab] at first
          by_cases bc : b = c
          · subst bc
            rwa [if_neg ab]
          rw [if_neg bc] at second
          have le := Component.le_trans first second
          by_cases ac : a = c
          · subst ac
            exact absurd (Component.le_antisymm first second) ab
          · rwa [if_neg ac]

theorem le_total (a b : Path) : a.le b = true ∨ b.le a = true :=
  leComponents_total a.components b.components

theorem le_trans {a b c : Path} (first : a.le b = true) (second : b.le c = true) :
    a.le c = true := leComponents_trans first second

end Path

theorem pathBelow_below_iff {root : Path} {names : List String} {relative : String}
    (plain : ∀ name ∈ names, IsPlain name) :
    pathBelow (root.below names) root = .ok relative ↔
      names ≠ [] ∧ "/".intercalate names = relative := by
  rw [pathBelow]
  by_cases empty : names = []
  · subst empty
    simp [Path.namesBelow?, Path.strip?]
  · rw [Path.namesBelow?_below root empty plain]
    simp [empty]

/-- Plain names are the pieces of the text that joins them. -/
theorem splitOn_intercalate {names : List String} (nonempty : names ≠ [])
    (plain : ∀ name ∈ names, IsPlain name) :
    ("/".intercalate names).toList.splitOn '/' = names.map String.toList := by
  rw [String.toList_intercalate]
  exact List.splitOn_intercalate '/' (by simpa using fun name member => (plain name member).noSlash)
    (by simpa using nonempty)

/-- Different plain names make different texts. -/
theorem eq_of_intercalate {names more : List String} (nonempty : names ≠ []) (nonempty' : more ≠ [])
    (plain : ∀ name ∈ names, IsPlain name) (plain' : ∀ name ∈ more, IsPlain name)
    (same : "/".intercalate names = "/".intercalate more) : names = more := by
  have pieces := congrArg (fun text => text.toList.splitOn '/') same
  simp only [splitOn_intercalate nonempty plain, splitOn_intercalate nonempty' plain'] at pieces
  exact List.map_injective_iff.mpr (fun _ _ eq => String.toList_inj.mp eq) pieces

/-! ## Paths below a path -/

theorem isPlain_of_isName {names : List String} (proper : ∀ name ∈ names, IsName name) :
    ∀ name ∈ names, IsPlain name := fun name member => (proper name member).toIsPlain

/-- The path goes on from another by proper names. -/
def Path.IsBelow (root file : Path) : Prop :=
  ∃ names, (∀ name ∈ names, IsName name) ∧ file = root.below names

namespace Path.IsBelow

variable {root file other : Path}

theorem refl (root : Path) : root.IsBelow root := ⟨[], by simp, rfl⟩

theorem trans {between : Path} (first : root.IsBelow between) (second : between.IsBelow file) :
    root.IsBelow file := by
  obtain ⟨front, proper, rfl⟩ := first
  obtain ⟨rest, proper', rfl⟩ := second
  refine ⟨front ++ rest, List.forall_mem_append.mpr ⟨proper, proper'⟩, ?_⟩
  rw [Path.below, Path.below, Path.below, List.foldl_append]

theorem join {name : String} (proper : IsName name) : root.IsBelow (root / name) :=
  ⟨[name], by simpa using proper, rfl⟩

/-- Below two names of a path there is nothing in common. -/
theorem name_eq {name name' : String} (proper : IsName name) (proper' : IsName name')
    (first : (root / name).IsBelow file) (second : (root / name').IsBelow file) :
    name = name' := by
  obtain ⟨names, plain, rfl⟩ := first
  obtain ⟨names', plain', same⟩ := second
  have whole : name :: names = name' :: names' := Path.below_injective
    (List.forall_mem_cons.mpr ⟨proper.toIsPlain, isPlain_of_isName plain⟩)
    (List.forall_mem_cons.mpr ⟨proper'.toIsPlain, isPlain_of_isName plain'⟩) same
  exact (List.cons.inj whole).1

/-- Paths below a path are known by their components. -/
theorem eq_of_components (below : root.IsBelow file) (below' : root.IsBelow other)
    (same : file.components = other.components) : file = other := by
  obtain ⟨names, proper, rfl⟩ := below
  obtain ⟨names', proper', rfl⟩ := below'
  rw [Path.components_below _ (isPlain_of_isName proper),
    Path.components_below _ (isPlain_of_isName proper'), List.append_cancel_left_eq] at same
  rw [List.map_injective_iff.mpr (fun _ _ eq => Path.Component.name.inj eq) same]

end Path.IsBelow

namespace FileTree

variable {tree : FileTree} {excluded : List Path} {links : Nat} {path file : Path}
  {location : Location} {above : List Location} {node : FileNode}

/-- Whatever is found in a well-named tree is well named. -/
theorem WellNamed.of_find (named : tree.WellNamed) {place : Location}
    (found : tree.find path = .ok (place, node)) : node.WellNamed := by
  intro below entries stands
  have held := (find_iff.mp found).2.2
  refine named (place ++ below) entries ?_
  rw [FileNode.at?_append, ← at?, held]
  exact stands

/-- A walk comes to paths that go on from where it starts. -/
theorem ComesTo.isBelow (named : tree.WellNamed)
    (comes : tree.ComesTo excluded links path location above node file)
    (wellNamed : node.WellNamed) : path.IsBelow file := by
  induction comes with
  | file => exact .refl _
  | enter listed _ _ ih =>
      have ⟨apart, inner⟩ := FileNode.wellNamed_folder_iff_forall.mp wellNamed
      exact (Path.IsBelow.join (apart.1 _ listed)).trans (ih (inner _ listed))
  | follow found _ _ ih => exact ih (named.of_find found)

theorem isBelow_filesBehind (named : tree.WellNamed) (links : Nat) (path : Path)
    (above : List Location) :
    ∀ file ∈ filesBehind tree excluded links path above, path.IsBelow file := fun _ member =>
  ((mem_filesBehind_iff [] path).mp member).isBelow named (FileNode.wellNamed_link path)

mutual

theorem nodup_filesAt (named : tree.WellNamed)
    (once : ∀ path above, (filesBehind tree excluded links path above).Nodup) (path : Path)
    (location : Location) (above : List Location) (node : FileNode) (wellNamed : node.WellNamed) :
    (filesAt excluded (filesBehind tree excluded links) path location above node).Nodup := by
  match node with
  | .file content =>
      rw [filesAt]
      exact List.nodup_singleton path
  | .sealed size =>
      rw [filesAt]
      exact List.nodup_singleton path
  | .link target =>
      rw [filesAt]
      exact once path above
  | .folder entries =>
      rw [filesAt]
      have ⟨apart, inner⟩ := FileNode.wellNamed_folder_iff_forall.mp wellNamed
      exact nodup_filesAmong named once path location (location :: above) entries apart inner

theorem nodup_filesAmong (named : tree.WellNamed)
    (once : ∀ path above, (filesBehind tree excluded links path above).Nodup) (path : Path)
    (location : Location) (above : List Location)
    (entries : List (String × FileNode)) (apart : FileNode.NamesApart entries)
    (wellNamed : ∀ entry ∈ entries, entry.2.WellNamed) :
    (filesAmong excluded (filesBehind tree excluded links) path location above entries).Nodup := by
  match entries with
  | [] =>
      rw [filesAmong]
      exact List.nodup_nil
  | (name, node) :: rest =>
      obtain ⟨proper, distinct⟩ := apart
      rw [List.forall_mem_cons] at proper wellNamed
      rw [List.map_cons, List.nodup_cons] at distinct
      rw [filesAmong, List.nodup_append]
      refine ⟨?_, nodup_filesAmong named once path location above rest ⟨proper.2, distinct.2⟩
        wellNamed.2, ?_⟩
      · split
        · exact List.nodup_nil
        · exact nodup_filesAt named once (path / name) _ _ node wellNamed.1
      · -- A path in both parts would go on by two names.
        rintro file first other later rfl
        split at first
        · exact absurd first List.not_mem_nil
        · obtain ⟨entry, listed, -, member⟩ := mem_filesAmong_iff.mp later
          have same := Path.IsBelow.name_eq proper.1 (proper.2 entry listed)
            ((mem_filesAt_iff.mp first).isBelow named wellNamed.1)
            ((mem_filesAt_iff.mp member).isBelow named (wellNamed.2 entry listed))
          exact distinct.1 (same ▸ List.mem_map_of_mem listed)

end

theorem nodup_filesBehind (named : tree.WellNamed) (links : Nat) (path : Path)
    (above : List Location) : (filesBehind tree excluded links path above).Nodup := by
  induction links generalizing path above with
  | zero => exact List.nodup_nil
  | succ links ih =>
      rw [filesBehind]
      split
      · rename_i location node found
        split
        · exact List.nodup_nil
        · exact nodup_filesAt named ih path location above node (named.of_find found)
      · exact List.nodup_nil

/-- The files below a path go on from it by proper names, and each is listed once. -/
theorem filesBelow_spec (named : tree.WellNamed) (followLinks : Bool) (path : Path) :
    (∀ file ∈ tree.filesBelow followLinks excluded path, path.IsBelow file) ∧
      (tree.filesBelow followLinks excluded path).Nodup := by
  constructor
  · intro file member
    obtain ⟨place, node, found, comes⟩ := mem_filesBelow_iff_comesTo.mp member
    exact comes.isBelow named (named.of_find found)
  · rw [filesBelow_eq]
    split
    · rename_i found
      exact nodup_filesAt named (nodup_filesBehind named _) path _ [] _ (named.of_find found)
    · exact List.nodup_nil

/-- Where links are passed over, files are found under the names that lead to them. -/
theorem ComesTo.exists_names (named : tree.WellNamed)
    (comes : tree.ComesTo excluded 0 path location above node file)
    (found : (∀ target, node ≠ .link target) → tree.find path = .ok (location, node)) :
    ∃ names stands, (∀ name ∈ names, IsName name) ∧ file = path.below names ∧
      tree.find file = .ok (location ++ names, stands) ∧ stands.isFile = true := by
  generalize none_followed : 0 = links at comes
  induction comes with
  | @file links path location above node isFile =>
      refine ⟨[], node, by simp, rfl, ?_, isFile⟩
      rw [List.append_nil]
      exact found (notLink_of_isFile isFile)
  | @enter links path location above entries name node file listed _ _ ih =>
      have here := found (by simp)
      have own : IsName name := (named location entries (find_iff.mp here).2.2).1 _ listed
      obtain ⟨names, stands, proper, eq, leads, isFile⟩ :=
        ih (find_join named here listed) none_followed
      refine ⟨name :: names, stands, List.forall_mem_cons.mpr ⟨own, proper⟩, eq, ?_, isFile⟩
      rwa [List.append_assoc] at leads
  | follow => cases none_followed

end FileTree

/-! ## Crawls -/

namespace Crawler

variable {crawler : Crawler} {tree : FileTree}

/-- A crawl lists paths below its root. -/
theorem isBelow_crawl (named : tree.WellNamed) :
    ∀ file ∈ crawler.crawl tree, crawler.root.IsBelow file := by
  intro file member
  rw [crawl, List.mem_mergeSort, files, List.mem_filter] at member
  exact (FileTree.filesBelow_spec named _ _).1 file member.1

/-- A crawl of a folder that follows no links finds each file under the name that it has. -/
theorem admitsName_of_find (named : tree.WellNamed) (noLinks : crawler.followSymlinks = false)
    {place : Location} {entries : List (String × FileNode)}
    (found : tree.find crawler.root = .ok (place, .folder entries)) {file : Path}
    (member : file ∈ crawler.crawl tree) {front : Location} {name : String} {node : FileNode}
    (leads : tree.find file = .ok (front ++ [name], node)) : crawler.admitsName name = true := by
  rw [crawl, List.mem_mergeSort, files, List.mem_filter] at member
  obtain ⟨listed, admitted⟩ := member
  rw [noLinks] at listed
  obtain ⟨_, _, found', comes⟩ := FileTree.mem_filesBelow_iff_comesTo.mp listed
  cases found.symm.trans found'
  obtain ⟨names, stands, proper, rfl, leads', isFile⟩ := comes.exists_names named fun _ => found
  have same : place ++ names = front ++ [name] :=
    congrArg Prod.fst (Except.ok.inj (leads'.symm.trans leads))
  have nonempty : names ≠ [] := by
    -- The root itself is a folder.
    rintro rfl
    rw [Path.below_nil, List.append_nil, found] at leads'
    cases leads'
    cases isFile
  obtain ⟨init, last, rfl⟩ : ∃ init last, names = init ++ [last] :=
    ⟨_, _, (List.dropLast_concat_getLast nonempty).symm⟩
  obtain rfl : last = name := by
    rw [← List.append_assoc] at same
    exact List.singleton_inj.mp (List.append_inj_right' same rfl)
  rw [admits, Path.fileName?_below _ proper, Bool.and_eq_true] at admitted
  exact admitted.1

/-- A crawl lists each file once. -/
theorem nodup_crawl (named : tree.WellNamed) : (crawler.crawl tree).Nodup :=
  (List.mergeSort_perm _ _).nodup_iff.mpr ((FileTree.filesBelow_spec named _ _).2.filter _)

theorem pairwise_crawl : (crawler.crawl tree).Pairwise (Path.le · · = true) := by
  have trans (a b c : Path) : a.le b = true → b.le c = true → a.le c = true := Path.le_trans
  have total (a b : Path) : (a.le b || b.le a) = true := by simpa using Path.le_total a b
  exact List.pairwise_mergeSort trans total (crawler.files tree)

/-- Crawls that find the same files list them in the same order. -/
theorem crawl_eq_of_mem_iff {other : Crawler} {otherTree : FileTree}
    (root : other.root = crawler.root) (named : tree.WellNamed) (named' : otherTree.WellNamed)
    (same : ∀ file, file ∈ other.crawl otherTree ↔ file ∈ crawler.crawl tree) :
    other.crawl otherTree = crawler.crawl tree := by
  have perm : (other.crawl otherTree).Perm (crawler.crawl tree) :=
    (List.perm_ext_iff_of_nodup (nodup_crawl named') (nodup_crawl named)).mpr same
  refine perm.eq_of_pairwise (fun a b first second le le' => ?_) pairwise_crawl pairwise_crawl
  exact (root ▸ isBelow_crawl named' a first).eq_of_components (isBelow_crawl named b second)
    (Path.leComponents_antisymm le le')

end Crawler
end SourceSearch
