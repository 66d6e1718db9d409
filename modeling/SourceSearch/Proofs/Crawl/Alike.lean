import SourceSearch.Proofs.Crawl.Paths

/-!
# Trees that a crawl cannot tell apart

Two trees hold the same but at a few places, where each of them has a file or nothing.  A walk that
does not end at one of these places goes the same way in both.  So crawls of both list the same
files as long as they list none that leads to such a place.
-/

namespace SourceSearch
namespace FileTree

variable {tree other : FileTree} {odd : List Location} {path file : Path} {place : Location}

/-- The trees hold the same everywhere but at the given places, where both have a file or
nothing. -/
structure AlikeBut (odd : List Location) (tree other : FileTree) : Prop where
  /-- Relative paths start in the same folder. -/
  home : other.home = tree.home
  /-- Everywhere else they hold the same. -/
  kinds : ∀ place ∉ odd, other.kind? place = tree.kind? place
  /-- The one has no folder and no link at these places. -/
  files : ∀ place ∈ odd, tree.AdmitsFile place
  /-- Neither has the other. -/
  files' : ∀ place ∈ odd, other.AdmitsFile place

/-- The path leads to a place. -/
def LeadsTo (tree : FileTree) (path : Path) (place : Location) : Prop :=
  ∃ node, tree.find path = .ok (place, node)

/-- The path leads to none of the places. -/
def Avoids (tree : FileTree) (odd : List Location) (path : Path) : Prop :=
  ∀ place ∈ odd, ¬ tree.LeadsTo path place

/-- A walk from a file is over. -/
theorem Arrives.of_file {followLast : Bool} {links : Nat} {location : Location}
    {steps : List String} (walk : tree.Arrives followLast links location steps place)
    {content : ByteArray} (file : tree.kind? location = some (.file content)) :
    place = location := by
  cases steps with
  | nil =>
      cases walk
      rfl
  | cons step rest =>
      have folder := walk.folder
      rw [file] at folder
      cases folder

namespace AlikeBut

theorem symm (alike : AlikeBut odd tree other) : AlikeBut odd other tree where
  home := alike.home.symm
  kinds place apart := (alike.kinds place apart).symm
  files := alike.files'
  files' := alike.files

/-- Folders and links are the same everywhere. -/
theorem kind?_of_not_file (alike : AlikeBut odd tree other) {kind : NodeKind}
    (stands : tree.kind? place = some kind) (notFile : ∀ content, kind ≠ .file content) :
    other.kind? place = some kind := by
  by_cases inside : place ∈ odd
  · obtain ⟨content, is⟩ := alike.files place inside kind stands
    exact absurd is (notFile content)
  · rw [alike.kinds place inside, stands]

theorem admitsFile (alike : AlikeBut odd tree other) (admits : tree.AdmitsFile place) :
    other.AdmitsFile place := by
  by_cases inside : place ∈ odd
  · exact alike.files' place inside
  · exact fun kind stands => admits kind ((alike.kinds place inside).symm.trans stands)

/-- Walks that arrive elsewhere go the same way. -/
theorem arrives (alike : AlikeBut odd tree other) {followLast : Bool} {links : Nat}
    {location : Location} {steps : List String}
    (walk : tree.Arrives followLast links location steps place) (apart : place ∉ odd) :
    other.Arrives followLast links location steps place := by
  induction walk with
  | done stands => exact .done ((alike.kinds _ apart).trans stands)
  | here folder _ ih => exact .here (alike.kind?_of_not_file folder (by simp)) (ih apart)
  | up folder _ ih => exact .up (alike.kind?_of_not_file folder (by simp)) (ih apart)
  | @step _ location step kind rest place name found notLink walk ih =>
      refine .step name ?_ notLink (ih apart)
      by_cases inside : location ++ [step] ∈ odd
      · -- A file is no step on the way, so the walk would end here.
        obtain ⟨content, rfl⟩ := alike.files _ inside kind found
        exact absurd inside (walk.of_file found ▸ apart)
      · rw [alike.kinds _ inside, found]
  | follow name found follows _ ih =>
      exact .follow name (alike.kind?_of_not_file found (by simp)) follows (ih apart)
  | stay name found stays =>
      exact .stay name (alike.kind?_of_not_file found (by simp)) stays

/-- What is found elsewhere is of the same kind in both. -/
theorem find (alike : AlikeBut odd tree other) {node : FileNode}
    (found : tree.find path = .ok (place, node)) (apart : place ∉ odd) :
    ∃ node', other.find path = .ok (place, node') ∧ other.at? place = some node' ∧
      node'.kind = node.kind := by
  obtain ⟨sound, walk, stands⟩ := find_iff.mp found
  have start : other.startOf path = tree.startOf path := by rw [startOf, startOf, alike.home]
  obtain ⟨node', stands', kind⟩ := Option.map_eq_some_iff.mp
    ((alike.kinds place apart).trans (kind?_of_at? stands))
  refine ⟨node', find_iff.mpr ⟨sound, ?_, stands'⟩, stands', kind⟩
  rw [start]
  exact alike.arrives walk apart

/-- Folders are found in both. -/
theorem find_folder (alike : AlikeBut odd tree other) {entries : List (String × FileNode)}
    (found : tree.find path = .ok (place, .folder entries)) :
    ∃ entries', other.find path = .ok (place, .folder entries') := by
  have apart : place ∉ odd := fun inside =>
    nomatch (alike.files place inside _ (kind?_of_at? (find_iff.mp found).2.2)).choose_spec
  obtain ⟨node', found', -, kind⟩ := alike.find found apart
  obtain ⟨entries', rfl⟩ := FileNode.eq_folder_of_kind kind
  exact ⟨entries', found'⟩

/-- A file elsewhere is the same in both. -/
theorem find_file (alike : AlikeBut odd tree other) (leads : tree.LeadsToFile path)
    (avoids : tree.Avoids odd path) : other.find path = tree.find path := by
  obtain ⟨place, node, found, isFile⟩ := leads
  obtain ⟨node', found', -, kind⟩ :=
    alike.find found fun inside => avoids place inside ⟨_, found⟩
  rw [found, found', FileNode.eq_of_kind_of_isFile isFile kind]

end AlikeBut

/-- Trees that agree outside of a folder's names are alike, if under each of these names both have
nothing, or a file at most. -/
theorem AgreesOutside.alike {location : Location} (own : List String) {gone : List String}
    (agrees : tree.AgreesOutside location (own ++ gone) other)
    (admits : ∀ name ∈ own, tree.AdmitsFile (location ++ [name]))
    (admits' : ∀ name ∈ own, other.AdmitsFile (location ++ [name]))
    (missing : ∀ name ∈ gone, tree.kind? (location ++ [name]) = none)
    (missing' : ∀ name ∈ gone, other.kind? (location ++ [name]) = none) :
    AlikeBut (own.map fun name => location ++ [name]) tree other where
  home := agrees.1
  files := List.forall_mem_map.mpr admits
  files' := List.forall_mem_map.mpr admits'
  kinds place apart := by
    by_cases below : ∃ name ∈ own ++ gone, location ++ [name] <+: place
    · obtain ⟨name, member, rest, rfl⟩ := below
      rcases List.mem_append.mp member with inside | inside
      · cases rest with
        | nil =>
            rw [List.append_nil] at apart
            exact absurd (List.mem_map_of_mem inside) apart
        | cons next rest =>
            rw [List.append_assoc, List.singleton_append, (admits name inside).kind?_below,
              (admits' name inside).kind?_below]
      · rw [kind?_append_of_none (missing name inside), kind?_append_of_none (missing' name inside)]
    · exact agrees.2 place fun name member inside => below ⟨name, member, inside⟩

/-! ## Files below a path -/

section Listed

variable {excluded : List Path} {links : Nat} {location : Location} {above : List Location}
  {node node' : FileNode}

/-- Where a walk that comes to a file elsewhere sets out is no odd place. -/
theorem ComesTo.not_mem_odd (alike : AlikeBut odd tree other)
    (comes : tree.ComesTo excluded links path place above node file)
    (found : tree.find path = .ok (place, node)) (avoids : tree.Avoids odd file) :
    place ∉ odd := by
  intro inside
  obtain ⟨content, kind⟩ := alike.files place inside _ (kind?_of_at? (find_iff.mp found).2.2)
  obtain rfl := FileNode.eq_file_of_kind kind
  cases comes
  exact avoids place inside ⟨_, found⟩

/-- A walk that comes to a file elsewhere comes to it in both trees. -/
theorem ComesTo.alike (alike : AlikeBut odd tree other) (named : tree.WellNamed)
    (named' : other.WellNamed)
    (comes : tree.ComesTo excluded links path location above node file)
    (same : node'.kind = node.kind) (stands' : other.at? location = some node')
    (found : (∀ target, node ≠ .link target) → tree.find path = .ok (location, node))
    (avoids : tree.Avoids odd file) :
    other.ComesTo excluded links path location above node' file := by
  induction comes generalizing node' with
  | file isFile =>
      obtain rfl := FileNode.eq_of_kind_of_isFile isFile same
      exact .file isFile
  | @enter links path location above entries name node file listed entered inner ih =>
      obtain ⟨entries', rfl⟩ := FileNode.eq_folder_of_kind same
      have here := found (by simp)
      have joined := find_join named here listed
      have stands := (named.mem_entries_iff (find_iff.mp here).2.2).mp listed
      have apart : location ++ [name] ∉ odd := by
        intro inside
        obtain ⟨content, kind⟩ := alike.files _ inside _ (kind?_of_at? stands)
        obtain rfl := FileNode.eq_file_of_kind kind
        exact inner.not_mem_odd alike (joined (by simp)) avoids inside
      obtain ⟨node', standsThere, kind⟩ := Option.map_eq_some_iff.mp
        ((alike.kinds _ apart).trans (kind?_of_at? stands))
      exact .enter ((named'.mem_entries_iff stands').mpr standsThere) entered
        (ih kind standsThere joined avoids)
  | follow leads outside behind ih =>
      obtain rfl := FileNode.eq_link_of_kind same
      obtain ⟨node', leads', standsThere, kind⟩ :=
        alike.find leads (behind.not_mem_odd alike leads avoids)
      exact .follow leads' outside (ih kind standsThere (fun _ => leads) avoids)

theorem mem_filesBelow (alike : AlikeBut odd tree other) (named : tree.WellNamed)
    (named' : other.WellNamed) {followLinks : Bool}
    (member : file ∈ tree.filesBelow followLinks excluded path)
    (avoids : tree.Avoids odd file) : file ∈ other.filesBelow followLinks excluded path := by
  obtain ⟨place, node, found, comes⟩ := mem_filesBelow_iff_comesTo.mp member
  obtain ⟨node', found', stands', same⟩ := alike.find found (comes.not_mem_odd alike found avoids)
  exact mem_filesBelow_iff_comesTo.mpr ⟨place, node', found',
    comes.alike alike named named' same stands' (fun _ => found) avoids⟩

end Listed

end FileTree

/-! ## Crawls -/

namespace Crawler

variable {crawler : Crawler} {tree other : FileTree} {odd : List Location} {file : Path}

/-- What a crawl lists that leads elsewhere is listed in both trees. -/
theorem mem_crawl_of_alike (alike : FileTree.AlikeBut odd tree other) (named : tree.WellNamed)
    (named' : other.WellNamed) (member : file ∈ crawler.crawl tree)
    (avoids : tree.Avoids odd file) : file ∈ crawler.crawl other := by
  have same := alike.find_file (leadsToFile_crawl named member) avoids
  rw [crawl, List.mem_mergeSort, files, List.mem_filter] at member ⊢
  exact ⟨FileTree.mem_filesBelow alike named named' member.1 avoids,
    (admits_congr same).trans member.2⟩

/-- **Crawls of alike trees.**  They list the same files if none of these leads to a place where the
trees differ. -/
theorem crawl_eq_of_alike (alike : FileTree.AlikeBut odd tree other) (named : tree.WellNamed)
    (named' : other.WellNamed) (avoids : ∀ file ∈ crawler.crawl tree, tree.Avoids odd file)
    (avoids' : ∀ file ∈ crawler.crawl other, other.Avoids odd file) :
    crawler.crawl other = crawler.crawl tree :=
  crawl_eq_of_mem_iff rfl named named' fun file =>
    ⟨fun member => mem_crawl_of_alike alike.symm named' named member (avoids' file member),
      fun member => mem_crawl_of_alike alike named named' member (avoids file member)⟩

end Crawler
end SourceSearch
