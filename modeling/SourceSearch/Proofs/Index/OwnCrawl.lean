import SourceSearch.Proofs.Crawl.Complete
import SourceSearch.Proofs.Crawl.Parts
import SourceSearch.Proofs.Index.Buildable
import SourceSearch.Proofs.Index.Rebuild

/-!
# An index below the root of its crawl

The crawler of a build does not enter the path of the index folder.  Every other way to the folder
leads through a link, so a crawl comes upon what is in there behind links that are followed and
nowhere else.  Where a link leads is not looked at, so there it does come upon it.  As long as
nothing that is crawled needs what is in the index folder, a build comes to the same whatever that
is.
-/

namespace SourceSearch

/-- A link outside of the folder at a location. -/
def FileTree.IsLinkOutside (tree : FileTree) (location place : Location) : Prop :=
  (∃ target, tree.kind? place = some (.link target)) ∧ ¬ location <+: place

namespace Index

variable {index : Index} {tree other start start' : FileTree} {crawlRoot file : Path}
  {above location place : Location} {crawler : Crawler} {names : List String} {name : String}
  {content : ByteArray}

/-- The index folder lies strictly below the folder that is crawled, each at its place behind all
links. -/
structure IsInside (index : Index) (crawlRoot : Path) (above location : Location)
    (tree : FileTree) : Prop where
  /-- A folder is crawled. -/
  crawls : ∃ entries, tree.find crawlRoot = .ok (above, .folder entries)
  /-- The index is a folder. -/
  stands : ∃ entries, tree.find index.root = .ok (location, .folder entries)
  /-- It is the one that is crawled or lies below. -/
  within : above <+: location
  /-- It is another one. -/
  apart : above ≠ location

/-! ## The crawler of a build -/

/-- A crawler for the sources below a root that goes by the settings of an index and stays out of a
path. -/
structure Skips (index : Index) (crawlRoot path : Path) (crawler : Crawler) : Prop where
  /-- The crawl starts at the root. -/
  root : crawler.root = crawlRoot
  /-- It lists source files. -/
  sources : crawler.sources = Crawler.sourcePatterns.filterMap Glob.parse
  /-- It lists no archives. -/
  archives : crawler.archives = Crawler.archivePatterns.filterMap Glob.parse
  /-- The settings say whether links are followed. -/
  follows : crawler.followSymlinks = index.config.followSymlinks
  /-- They say how large files may be. -/
  size : crawler.maxFileSize = index.config.maxFileSize
  /-- The path is not entered. -/
  excluded : crawler.excluded = [path]

/-- The crawler of a build stays out of the path by which the crawl comes to the index folder. -/
theorem IsInside.skips (inside : index.IsInside crawlRoot above location start)
    (named : start.WellNamed) (made : index.crawler start crawlRoot = .ok crawler) :
    ∃ rest, above ++ rest = location ∧ rest ≠ [] ∧ (∀ name ∈ rest, IsName name) ∧
      index.Skips crawlRoot (crawlRoot.below rest) crawler := by
  obtain ⟨entries, crawls⟩ := inside.crawls
  obtain ⟨entries', stands⟩ := inside.stands
  obtain ⟨rest, rfl⟩ := inside.within
  have nonempty : rest ≠ [] := by
    rintro rfl
    exact inside.apart (List.append_nil above).symm
  have proper : ∀ name ∈ rest, IsName name :=
    named.isName_of_mem (FileTree.find_iff.mp stands).2.2
  have met : index.pathInCrawl? start crawlRoot = some (crawlRoot.below rest) :=
    pathInCrawl?_eq_some_iff.mpr ⟨above, _, _, _, crawls, stands, List.prefix_append _ _,
      inside.apart, by
        rw [List.drop_left, Path.below_eq_join _ nonempty (isPlain_of_isName proper)]⟩
  have valid : ∀ pattern ∈ Crawler.sourcePatterns, (Glob.parse pattern).isSome = true := by
    decide +kernel
  obtain ⟨base, is, root, sources, archives, follows, size, none⟩ :=
    Crawler.exists_matching crawlRoot index.config valid
  rw [Index.crawler, Crawler.new, is, met] at made
  obtain rfl : base.avoid (crawlRoot.below rest) = crawler := Except.ok.inj made
  exact ⟨rest, rfl, nonempty, proper, root, sources, archives, follows, size,
    congrArg (List.cons _) none⟩

namespace Skips

variable {rest : List String}

/-- The path that is not entered covers what is in the index folder. -/
theorem free_iff (skips : index.Skips crawlRoot (crawlRoot.below rest) crawler)
    (proper : ∀ name ∈ rest, IsName name) (proper' : ∀ name ∈ names, IsName name) :
    (∀ path ∈ crawler.excluded, ¬ path.Covers (crawlRoot.below names)) ↔
      ¬ above ++ rest <+: above ++ names := by
  rw [skips.excluded, List.forall_mem_singleton,
    Path.covers_below_below_iff (isPlain_of_isName proper) (isPlain_of_isName proper'),
    List.prefix_append_right_inj]

theorem not_covers_root (skips : index.Skips crawlRoot (crawlRoot.below rest) crawler)
    (nonempty : rest ≠ []) (proper : ∀ name ∈ rest, IsName name) :
    ∀ path ∈ crawler.excluded, ¬ path.Covers crawlRoot := by
  have outside : ¬ ([] : Location) ++ rest <+: [] ++ [] := by simpa using nonempty
  have free := (skips.free_iff proper (by simp)).mpr outside
  rwa [Path.below_nil] at free

/-- So the crawl can enter all else. -/
theorem isOpen_iff (skips : index.Skips crawlRoot (crawlRoot.below rest) crawler)
    (nonempty : rest ≠ []) (proper : ∀ name ∈ rest, IsName name)
    (proper' : ∀ name ∈ names, IsName name) :
    FileTree.IsOpen crawler.excluded crawlRoot names ↔ ¬ above ++ rest <+: above ++ names :=
  (FileTree.isOpen_iff (skips.not_covers_root nonempty proper) (isPlain_of_isName proper')).trans
    (skips.free_iff proper proper')

end Skips

/-! ## Ways into the index -/

/-- A crawl comes upon what is in the index folder only behind a link outside of it. -/
theorem IsInside.exists_link (inside : index.IsInside crawlRoot above location start)
    (named : start.WellNamed) (made : index.crawler start crawlRoot = .ok crawler)
    (listed : file ∈ crawler.crawl start) (leads : start.LeadsTo file place)
    (own : location <+: place) :
    index.config.followSymlinks = true ∧
      ∃ names, start.IsLinkOutside location (above ++ names) ∧
        (crawlRoot.below names).IsBelow file := by
  obtain ⟨rest, rfl, nonempty, proper, skips⟩ := inside.skips named made
  obtain ⟨entries, crawls⟩ := inside.crawls
  rw [Crawler.crawl, List.mem_mergeSort, Crawler.files, List.mem_filter, skips.root,
    skips.follows, FileTree.filesBelow_eq, crawls] at listed
  obtain ⟨names, isOpen, ends⟩ :=
    (FileTree.mem_filesAt_iff.mp listed.1).exists_isOpen (named.of_find crawls)
  have stands {node : FileNode} (held : (FileNode.folder entries).at? names = some node) :
      start.at? (above ++ names) = some node := (FileTree.at?_below_found crawls names).trans held
  have outside {node : FileNode} (held : (FileNode.folder entries).at? names = some node) :
      ¬ above ++ rest <+: above ++ names :=
    (skips.isOpen_iff nonempty proper (named.isName_of_mem (stands held))).mp isOpen
  rcases ends with ⟨⟨_, held, isFile⟩, rfl⟩ | ⟨target, _, held, behind⟩
  · -- The file is found where it stands.
    have found := FileTree.find_below_of_at? named crawls (stands held)
      (FileTree.notLink_of_isFile isFile)
    obtain ⟨node, leads⟩ := leads
    obtain rfl : above ++ names = place :=
      congrArg Prod.fst (Except.ok.inj (found.symm.trans leads))
    exact absurd own (outside held)
  · cases follows : index.config.followSymlinks with
    | true =>
        exact ⟨rfl, names, ⟨⟨target, FileTree.kind?_of_at? (stands held)⟩, outside held⟩,
          FileTree.isBelow_filesBehind named _ _ _ file behind⟩
    | false =>
        rw [follows] at behind
        exact absurd behind List.not_mem_nil

/-- The name is that of a source file and of no archive. -/
def IsSource (name : String) : Prop :=
  (∃ pattern ∈ Crawler.sourcePatterns, Crawler.Matches pattern name) ∧
    ¬ ∃ pattern ∈ Crawler.archivePatterns, Crawler.Matches pattern name

/-- A crawl that follows links lists every link to a source file, wherever it leads. -/
theorem IsInside.mem_crawl_of_link (inside : index.IsInside crawlRoot above location start)
    (named : start.WellNamed) (made : index.crawler start crawlRoot = .ok crawler)
    (follows : index.config.followSymlinks = true)
    (link : start.IsLinkOutside location (above ++ (names ++ [name])))
    {node : FileNode} (found : start.find (crawlRoot.below (names ++ [name])) = .ok (place, node))
    {size : Nat} (sized : node.size? = some size) (source : IsSource name)
    (small : size ≤ index.config.maxFileSize) :
    crawlRoot.below (names ++ [name]) ∈ crawler.crawl start := by
  obtain ⟨rest, rfl, nonempty, proper, skips⟩ := inside.skips named made
  obtain ⟨entries, crawls⟩ := inside.crawls
  obtain ⟨⟨target, linked⟩, outside⟩ := link
  have stands := FileTree.at?_of_kind?_link linked
  have proper' := named.isName_of_mem stands
  have isFile : node.isFile = true := node.isSome_size? ▸ Option.isSome_of_eq_some sized
  have admitted : crawler.admits start (crawlRoot.below (names ++ [name])) = true := by
    rw [Crawler.admits, Path.fileName?_below _ proper', Bool.and_eq_true, Crawler.admitsSize,
      FileTree.size?, found]
    exact ⟨(Crawler.admitsName_iff skips.sources skips.archives).mpr source,
      by simpa [sized, skips.size] using small⟩
  rw [Crawler.crawl, List.mem_mergeSort, Crawler.files, List.mem_filter, skips.root,
    skips.follows, follows, FileTree.filesBelow, crawls]
  have held := (FileTree.at?_below_found crawls (names ++ [name])).symm.trans stands
  refine ⟨FileTree.mem_filesAt_of_isOpen (named.of_find crawls) held
    ((skips.isOpen_iff nonempty proper proper').mpr outside) fun above' on => ?_, admitted⟩
  -- The file is none of the folders above the link.
  have entered : place ∉ above' := by
    intro member
    rcases on place member with none | ⟨⟨more, whole⟩, apart⟩
    · cases none
    · have file := FileTree.kind?_of_at? (FileTree.find_iff.mp found).2.2
      cases more with
      | nil => exact apart (List.append_nil place ▸ whole)
      | cons next more =>
          rw [FileTree.kind?_of_append (whole ▸ linked), Option.some.injEq] at file
          rw [← node.isFile_kind, ← file] at isFile
          cases isFile
  rw [FileTree.filesAt, if_pos rfl, maxLinks, FileTree.filesBehind, found]
  dsimp only
  rw [if_neg entered, FileTree.filesAt_of_isFile isFile]
  exact List.mem_singleton_self _

/-! ## Builds without the index -/

section Without

variable {front : Location}

/-- The index is met in the same way. -/
theorem IsInside.crawler_eq (inside : index.IsInside crawlRoot above location start)
    (inside' : index.IsInside crawlRoot above location start') :
    index.crawler start' crawlRoot = index.crawler start crawlRoot := by
  obtain ⟨_, crawls⟩ := inside.crawls
  obtain ⟨_, stands⟩ := inside.stands
  obtain ⟨_, crawls'⟩ := inside'.crawls
  obtain ⟨_, stands'⟩ := inside'.stands
  rw [crawler, crawler, pathInCrawl?, pathInCrawl?, crawls, stands, crawls', stands']

/-- What a crawl lists that follows no links does not depend on the index folder. -/
theorem IsInside.mem_crawl_of_noLinks
    (inside : index.IsInside crawlRoot above (front ++ [name]) start)
    (inside' : index.IsInside crawlRoot above (front ++ [name]) start') (named : start.WellNamed)
    (named' : start'.WellNamed) (agrees : start.AgreesOutside front [name] start')
    (made : index.crawler start crawlRoot = .ok crawler)
    (noLinks : index.config.followSymlinks = false) (listed : file ∈ crawler.crawl start) :
    file ∈ crawler.crawl start' ∧ start'.read file = start.read file := by
  obtain ⟨rest, whole, nonempty, proper, skips⟩ := inside.skips named made
  obtain ⟨entries, crawls⟩ := inside.crawls
  obtain ⟨entries', crawls'⟩ := inside'.crawls
  have apart := skips.not_covers_root nonempty proper
  have follows := skips.follows.trans noLinks
  rw [← skips.root] at crawls crawls' apart
  obtain ⟨names, last, node, size, stands, sized, free, admitted, small, rfl⟩ :=
    (Crawler.mem_crawl_iff crawler named follows crawls apart).mp listed
  have outside : ¬ front ++ [name] <+: above ++ (names ++ [last]) :=
    whole ▸ (skips.free_iff proper (named.isName_of_mem stands)).mp (skips.root ▸ free)
  have isFile : node.isFile = true := node.isSome_size? ▸ Option.isSome_of_eq_some sized
  obtain ⟨node', stands', kind⟩ := Option.map_eq_some_iff.mp
    ((agrees.2 _ (List.forall_mem_singleton.mpr outside)).trans (FileTree.kind?_of_at? stands))
  obtain rfl := FileNode.eq_of_kind_of_isFile isFile kind
  have notLink := FileTree.notLink_of_isFile isFile
  refine ⟨(Crawler.mem_crawl_iff crawler named' follows crawls' apart).mpr
    ⟨names, last, _, size, stands', sized, free, admitted, small, rfl⟩, ?_⟩
  rw [FileTree.read, FileTree.read, FileTree.find_below_of_at? named crawls stands notLink,
    FileTree.find_below_of_at? named' crawls' stands' notLink]

theorem IsInside.crawlsAlike_of_noLinks
    (inside : index.IsInside crawlRoot above (front ++ [name]) start)
    (inside' : index.IsInside crawlRoot above (front ++ [name]) start') (named : start.WellNamed)
    (named' : start'.WellNamed) (agrees : start.AgreesOutside front [name] start')
    (made : index.crawler start crawlRoot = .ok crawler)
    (noLinks : index.config.followSymlinks = false) : CrawlsAlike crawler start start' where
  crawls := Crawler.crawl_eq_of_mem_iff rfl named named' fun _ =>
    ⟨fun listed => (inside'.mem_crawl_of_noLinks inside named' named agrees.symm
        ((inside.crawler_eq inside').trans made) noLinks listed).1,
      fun listed => (inside.mem_crawl_of_noLinks inside' named named' agrees made noLinks listed).1⟩
  reads _ listed :=
    (inside.mem_crawl_of_noLinks inside' named named' agrees made noLinks listed).2

/-- What a crawl lists that can be found without the index folder does not depend on it. -/
theorem crawlsAlike_of_leads (named : start.WellNamed) (named' : start'.WellNamed)
    (agrees : start.AgreesOutside front [name] start')
    (stands : start.kind? (front ++ [name]) = some .folder)
    (stands' : start'.kind? (front ++ [name]) = some .folder)
    (leads : ∀ file ∈ crawler.crawl start,
      (start.put (front ++ [name]) (.folder [])).LeadsToFile file)
    (leads' : ∀ file ∈ crawler.crawl start',
      (start'.put (front ++ [name]) (.folder [])).LeadsToFile file) :
    CrawlsAlike crawler start start' := by
  have folder := FileTree.kind?_of_append stands
  have folder' := FileTree.kind?_of_append stands'
  have part := named.put front (named.isName stands) FileNode.wellNamed_emptyFolder
  have isPart := (FileTree.AgreesOutside.refl start front [name]).isPart folder stands
  have isPart' := agrees.isPart folder stands'
  -- With an empty folder both trees are the same.
  have emptied : FileTree.IsPart (start'.put (front ++ [name]) (.folder []))
      (start.put (front ++ [name]) (.folder [])) :=
    (agrees.symm.trans (.alter start front (List.mem_singleton_self name) [] _)).isPart folder'
      (FileTree.kind?_put folder name (.folder []) [])
  have crawls : crawler.crawl (start.put (front ++ [name]) (.folder [])) = crawler.crawl start :=
    Crawler.crawl_eq_of_mem_iff rfl named part fun file =>
      (Crawler.mem_crawl_iff_of_isPart isPart part named).trans (and_iff_left_of_imp (leads file))
  have crawls' : crawler.crawl (start.put (front ++ [name]) (.folder [])) = crawler.crawl start' :=
    Crawler.crawl_eq_of_mem_iff rfl named' part fun file =>
      (Crawler.mem_crawl_iff_of_isPart isPart' part named').trans
        (and_iff_left_of_imp fun listed => emptied.leadsToFile (leads' file listed))
  exact ⟨crawls'.symm.trans crawls, fun file listed =>
    (isPart'.read_eq (leads file listed)).trans (isPart.read_eq (leads file listed)).symm⟩

/-- Every file that a build finds can be found without what is in a folder. -/
def CrawlsWithout (index : Index) (crawlRoot : Path) (location : Location) (tree : FileTree) :
    Prop :=
  ∀ file ∈ index.crawled crawlRoot tree,
    ((index.startOf tree).put location (.folder [])).LeadsToFile file

/-- Builds that are crawled alike come to the same summary. -/
theorem IsBuildable.exists_builds (buildable : index.IsBuildable location tree)
    (buildable' : index.IsBuildable location other)
    (made : index.crawler (index.startOf tree) crawlRoot = .ok crawler)
    (made' : index.crawler (index.startOf other) crawlRoot = .ok crawler)
    (alike : CrawlsAlike crawler (index.startOf tree) (index.startOf other)) (scheme : KeyScheme)
    {classifier : Classifier} (keeps : classifier.KeepsKeys)
    (small : index.config.maxFileSize ≤ Json.max64)
    (few : (index.crawled crawlRoot tree).length ≤ Json.max64) :
    ∃ summary built built', (index.build scheme classifier crawlRoot).runOn tree =
        (.ok summary, built) ∧
      (index.build scheme classifier crawlRoot).runOn other = (.ok summary, built') := by
  have few' : (index.crawled crawlRoot other).length ≤ Json.max64 := by
    rwa [crawled_eq made', alike.crawls, ← crawled_eq made]
  obtain ⟨summary, built, run, -⟩ : ∃ summary built,
      (index.build scheme classifier crawlRoot).runOn tree = (.ok summary, built) ∧ _ :=
    buildable.exists_build keeps small few
  obtain ⟨summary', built', run', -⟩ : ∃ summary built,
      (index.build scheme classifier crawlRoot).runOn other = (.ok summary, built) ∧ _ :=
    buildable'.exists_build keeps small few'
  obtain ⟨-, -, sums⟩ := holdsDeposits_of_build buildable.hosted buildable.named keeps small run
  obtain ⟨-, -, sums'⟩ := holdsDeposits_of_build buildable'.hosted buildable'.named keeps small run'
  have same : summary' = summary := by
    rw [sums, sums', deposited, deposited, crawled_eq made, crawled_eq made',
      alike.deposits_eq, alike.failures_eq, alike.crawls]
  exact ⟨summary, built, built', run, same ▸ run'⟩

/-- Two trees have an index that can be built, below the root of the crawl, and they differ only in
what is in the index folder. -/
structure DifferInside (index : Index) (crawlRoot : Path) (above front : Location) (name : String)
    (tree other : FileTree) : Prop where
  /-- The one index can be built. -/
  buildable : index.IsBuildable (front ++ [name]) tree
  /-- The other can be built. -/
  buildable' : index.IsBuildable (front ++ [name]) other
  /-- The one crawl meets it. -/
  inside : index.IsInside crawlRoot above (front ++ [name]) (index.startOf tree)
  /-- So does the other. -/
  inside' : index.IsInside crawlRoot above (front ++ [name]) (index.startOf other)
  /-- All else is the same. -/
  agrees : tree.AgreesOutside front [name] other

/-- Such trees are crawled alike if links are not followed or nothing that is crawled needs the
index folder. -/
theorem DifferInside.crawlsAlike (differ : index.DifferInside crawlRoot above front name tree other)
    (made : index.crawler (index.startOf tree) crawlRoot = .ok crawler)
    (free : index.config.followSymlinks = false ∨
      index.CrawlsWithout crawlRoot (front ++ [name]) tree ∧
        index.CrawlsWithout crawlRoot (front ++ [name]) other) :
    CrawlsAlike crawler (index.startOf tree) (index.startOf other) := by
  obtain ⟨-, prepared, -⟩ := differ.buildable.prepared
  obtain ⟨-, prepared', -⟩ := differ.buildable'.prepared
  have agrees : (index.startOf tree).AgreesOutside front [name] (index.startOf other) :=
    prepared.agrees.coarsen.symm.trans (differ.agrees.trans prepared'.agrees.coarsen)
  have named := prepared.stands.named
  have named' := prepared'.stands.named
  rcases free with noLinks | ⟨leads, leads'⟩
  · exact differ.inside.crawlsAlike_of_noLinks differ.inside' named named' agrees made noLinks
  · rw [CrawlsWithout, crawled_eq made] at leads
    rw [CrawlsWithout, crawled_eq ((differ.inside.crawler_eq differ.inside').trans made)] at leads'
    exact crawlsAlike_of_leads named named' agrees prepared.stands.hosted.hosts.kind?
      prepared'.stands.hosted.hosts.kind? leads leads'

/-- **The index in its own crawl.**  If the index folder lies below the root of a crawl, a file that
leads into it is crawled only if links are followed, and behind a link that stands outside of it.
Then it is: a link to a file with the name and the size of a source is crawled wherever it leads.
A build comes to the same summary whatever is in the index folder, if links are not followed, and as
long as all that is crawled can be found without the folder. -/
theorem own_files_crawled_by_links
    (inside : index.IsInside crawlRoot above (front ++ [name]) (index.startOf tree))
    (named : (index.startOf tree).WellNamed) :
    (∀ file ∈ index.crawled crawlRoot tree, ∀ place, (index.startOf tree).LeadsTo file place →
      front ++ [name] <+: place → index.config.followSymlinks = true ∧
        ∃ names, (index.startOf tree).IsLinkOutside (front ++ [name]) (above ++ names) ∧
          (crawlRoot.below names).IsBelow file) ∧
    (index.config.followSymlinks = true → ∀ names last place node size,
      (index.startOf tree).IsLinkOutside (front ++ [name]) (above ++ (names ++ [last])) →
      (index.startOf tree).find (crawlRoot.below (names ++ [last])) = .ok (place, node) →
      node.size? = some size → IsSource last → size ≤ index.config.maxFileSize →
      crawlRoot.below (names ++ [last]) ∈ index.crawled crawlRoot tree) ∧
    ∀ other, index.DifferInside crawlRoot above front name tree other →
      (index.config.followSymlinks = false ∨
        index.CrawlsWithout crawlRoot (front ++ [name]) tree ∧
          index.CrawlsWithout crawlRoot (front ++ [name]) other) →
      ∀ (scheme : KeyScheme) (classifier : Classifier), classifier.KeepsKeys →
        index.config.maxFileSize ≤ Json.max64 →
        (index.crawled crawlRoot tree).length ≤ Json.max64 →
        ∃ summary built built',
          (index.build scheme classifier crawlRoot).runOn tree = (.ok summary, built) ∧
            (index.build scheme classifier crawlRoot).runOn other = (.ok summary, built') := by
  obtain ⟨crawler, made⟩ := index.exists_crawler (index.startOf tree) crawlRoot
  rw [crawled_eq made]
  refine ⟨fun file listed place => inside.exists_link named made listed,
    fun follows names last place node size link found sized source small =>
      inside.mem_crawl_of_link named made follows link found sized source small,
    fun other differ free scheme classifier keeps small few => ?_⟩
  exact differ.buildable.exists_builds differ.buildable' made
    ((differ.inside.crawler_eq differ.inside').trans made) (differ.crawlsAlike made free) scheme
    keeps small (crawled_eq made ▸ few)

end Without

/-! ## A sample -/

/-- The sample with a link into the index folder, where nothing is yet. -/
def strayLinkTree : FileTree := sampleTree.put ["x.txt"] (.link ⟨"/index/notes.txt"⟩)

/-- The same with the file that the link leads to. -/
def notedTree : FileTree := strayLinkTree.put ["index", "notes.txt"] (.file "abc".toUTF8)

theorem wellNamed_strayLinkTree : strayLinkTree.WellNamed :=
  wellNamed_sampleTree.put [] (by decide) (FileNode.wellNamed_link _)

theorem wellNamed_notedTree : notedTree.WellNamed :=
  wellNamed_strayLinkTree.put ["index"] (by decide) (FileNode.wellNamed_file _)

theorem isBuildable_strayLinkTree : sampleIndex.IsBuildable ["index"] strayLinkTree :=
  isBuildable_sampleIndex_of wellNamed_strayLinkTree rfl (by decide)

theorem isBuildable_notedTree : sampleIndex.IsBuildable ["index"] notedTree :=
  isBuildable_sampleIndex_of wellNamed_notedTree rfl (by decide)

/-- The index of the sample lies below the root of the tree. -/
theorem isInside_sampleIndex {start : FileTree} (stands : sampleIndex.Stands ["index"] start) :
    sampleIndex.IsInside ⟨"/"⟩ [] ["index"] start where
  crawls := ⟨_, rfl⟩
  stands := stands.find
  within := List.nil_prefix
  apart := by decide

/-- Without links a file in the index folder makes no difference; where links are followed it is
crawled. -/
theorem own_files_crawled_by_links_sample : ∃ summary built built',
    (sampleIndex.build sampleScheme .standard ⟨"/"⟩).runOn strayLinkTree = (.ok summary, built) ∧
    (sampleIndex.build sampleScheme .standard ⟨"/"⟩).runOn notedTree = (.ok summary, built') ∧
    ⟨"/x.txt"⟩ ∈ followingIndex.crawled ⟨"/"⟩ notedTree ∧
      (followingIndex.startOf notedTree).LeadsTo ⟨"/x.txt"⟩ ["index", "notes.txt"] := by
  obtain ⟨-, prepared, -⟩ := isBuildable_strayLinkTree.prepared
  obtain ⟨-, prepared', -⟩ := isBuildable_notedTree.prepared
  have inside : sampleIndex.IsInside ⟨"/"⟩ [] ([] ++ ["index"])
      (sampleIndex.startOf strayLinkTree) := isInside_sampleIndex prepared.stands
  have inside' : sampleIndex.IsInside ⟨"/"⟩ [] ([] ++ ["index"]) (sampleIndex.startOf notedTree) :=
    isInside_sampleIndex prepared'.stands
  have differ : sampleIndex.DifferInside ⟨"/"⟩ [] [] "index" strayLinkTree notedTree :=
    ⟨isBuildable_strayLinkTree, isBuildable_notedTree, inside, inside',
      .alter strayLinkTree [] (by decide) ["notes.txt"] _⟩
  obtain ⟨-, -, builds⟩ := own_files_crawled_by_links inside prepared.stands.named
  obtain ⟨summary, built, built', run, run'⟩ := builds notedTree differ (.inl rfl) sampleScheme
    .standard Classifier.keepsKeys_standard (by decide) (by decide +kernel)
  -- The index that follows links starts from the same tree.
  have following : followingIndex.IsInside ⟨"/"⟩ [] ([] ++ ["index"])
      (followingIndex.startOf notedTree) :=
    ⟨inside'.crawls, inside'.stands, inside'.within, inside'.apart⟩
  have linked : (followingIndex.startOf notedTree).kind? ["x.txt"] =
      some (.link ⟨"/index/notes.txt"⟩) :=
    (prepared'.agrees.2 _ fun _ _ inside => absurd inside (by simp)).trans rfl
  have held : (followingIndex.startOf notedTree).kind? ["index", "notes.txt"] =
      some (.file "abc".toUTF8) := (prepared'.agrees.kind?_below (by decide) []).trans rfl
  have leads : ((followingIndex.startOf notedTree).find ⟨"/x.txt"⟩).toOption.map Prod.fst =
      some ["index", "notes.txt"] := by decide +kernel
  obtain ⟨⟨_, node⟩, found, rfl⟩ := Option.map_eq_some_iff.mp leads
  rw [Store.toOption_eq_some_iff] at found
  have kind := FileTree.kind?_of_at? (FileTree.find_iff.mp found).2.2
  obtain rfl := FileNode.eq_file_of_kind (Option.some.inj (kind.symm.trans held))
  have source : IsSource "x.txt" := ⟨(Crawler.any_filterMap_parse _ _).mp (by decide +kernel),
    fun archive => absurd ((Crawler.any_filterMap_parse _ _).mpr archive) (by decide +kernel)⟩
  have spelled : (⟨"/"⟩ : Path).below ([] ++ ["x.txt"]) = ⟨"/x.txt"⟩ := by decide
  obtain ⟨-, links, -⟩ := own_files_crawled_by_links following prepared'.stands.named
  have listed := links rfl [] "x.txt" _ _ _ ⟨⟨_, linked⟩, by decide⟩ (spelled ▸ found) rfl source
    (by decide +kernel)
  exact ⟨summary, built, built', run, run', spelled ▸ listed, _, found⟩

end Index
end SourceSearch
