import SourceSearch.Proofs.Crawl.Alike
import SourceSearch.Proofs.Index.Kept
import SourceSearch.Proofs.Search.Terms

/-!
# Building again

A build starts by removing all records, so nothing that earlier builds have left counts.  What it
does leave beside the records is the fingerprint, which a later crawl can come upon by way of a link
only.  So a build comes to the same whatever was in the record folders, and to the same once more as
long as no link that is followed leads to the fingerprint.
-/

namespace SourceSearch
namespace Index

variable {index : Index} {location : Location} {tree other start start' built : FileTree}
  {scheme : KeyScheme} {classifier : Classifier} {crawlRoot : Path} {crawler : Crawler}
  {odd : List Location} {deposits : Deposits}

/-! ## The same index -/

/-- Two trees hold the same index: the same documents, the same postings and the same settings, and
no results of queries. -/
structure SameIndex (index : Index) (location : Location) (first second : FileTree) : Prop where
  /-- All copies, extractions and records are the same. -/
  files : ∀ folder ∈ documentStores, ∀ names,
    second.fileAt? (location ++ folder :: names) = first.fileAt? (location ++ folder :: names)
  /-- The same documents and shards are loaded for every trigram of either namespace. -/
  loads : ∀ folder ∈ [textFolder, tagFolder], ∀ reader : PostingsReader,
    reader.base = index.root / folder → ∀ trigram : Trigram,
      reader.load second trigram = reader.load first trigram
  /-- The numbers of documents are declared the same. -/
  checks : ∀ folder ∈ [textFolder, tagFolder], ∀ reader : PostingsReader,
    reader.base = index.root / folder → ∀ trigram : Trigram,
      reader.check second trigram = reader.check first trigram
  /-- Settings and fingerprint are the same. -/
  settings : ∀ name ∈ settingFiles,
    second.kind? (location ++ [name]) = first.kind? (location ++ [name])
  /-- The query cache of the one is empty. -/
  noResults : first.kind? (location ++ [queriesFolder]) = none
  /-- So is that of the other. -/
  noResults' : second.kind? (location ++ [queriesFolder]) = none

/-- Wherever the same postings are held, the same is read of them. -/
theorem reads_eq_of_holdsPostings {folder : String} {entries : List PostingsEntry}
    (stands : index.Stands location tree) (stands' : index.Stands location other)
    (plain : IsPlain folder) (holds : HoldsPostings location folder index.threshold entries tree)
    (holds' : HoldsPostings location folder index.threshold entries other)
    {reader : PostingsReader} (base : reader.base = index.root / folder) (trigram : Trigram) :
    reader.load other trigram = reader.load tree trigram ∧
      reader.check other trigram = reader.check tree trigram := by
  obtain ⟨entries, found⟩ := stands.find
  obtain ⟨entries', found'⟩ := stands'.find
  have written := holds.written trigram
  have written' := holds'.written trigram
  have shards (generation : Nat) :
      (other.read (Postings.shardFile reader.base trigram generation)).toOption =
        (tree.read (Postings.shardFile reader.base trigram generation)).toOption := by
    rw [base, written.read_shard stands.named found holds.layered plain,
      written'.read_shard stands'.named found' holds'.layered plain]
  have count : (other.read (Postings.countFile reader.base trigram)).toOption =
      (tree.read (Postings.countFile reader.base trigram)).toOption := by
    rw [base, written.read_count stands.named found holds.layered plain,
      written'.read_count stands'.named found' holds'.layered plain]
  exact ⟨PostingsReader.load_congr shards, PostingsReader.check_congr shards count⟩

/-- Indexes of the same deposits are the same. -/
theorem HoldsDeposits.same (holds : index.HoldsDeposits location deposits tree)
    (holds' : index.HoldsDeposits location deposits other)
    (settings : ∀ name ∈ settingFiles,
      other.kind? (location ++ [name]) = tree.kind? (location ++ [name])) :
    index.SameIndex location tree other := by
  obtain ⟨ordered, perm, ascending, tags⟩ := holds.tags
  obtain ⟨ordered', perm', ascending', tags'⟩ := holds'.tags
  obtain rfl := eq_of_ascending (perm.trans perm'.symm) ascending ascending'
  have plain {folder : String} (member : folder ∈ clearedFolders) : IsPlain folder :=
    (isName_of_mem (mem_ownNames_of_cleared member)).toIsPlain
  have reads : ∀ folder ∈ [textFolder, tagFolder], ∀ reader : PostingsReader,
      reader.base = index.root / folder → ∀ trigram : Trigram,
        reader.load other trigram = reader.load tree trigram ∧
          reader.check other trigram = reader.check tree trigram := by
    intro folder member reader base trigram
    rcases List.mem_pair.mp member with rfl | rfl
    · exact reads_eq_of_holdsPostings holds.stands holds'.stands (plain (by decide)) holds.texts
        holds'.texts base trigram
    · exact reads_eq_of_holdsPostings holds.stands holds'.stands (plain (by decide)) tags tags'
        base trigram
  exact {
    files := fun folder member names => by
      rw [holds.files folder member names, holds'.files folder member names]
    loads := fun folder member reader base trigram =>
      (reads folder member reader base trigram).1
    checks := fun folder member reader base trigram =>
      (reads folder member reader base trigram).2
    settings
    noResults := holds.noResults
    noResults' := holds'.noResults }

/-! ## Alike starts -/

theorem pathInCrawl?_eq_some_iff {path : Path} :
    index.pathInCrawl? tree crawlRoot = some path ↔
      ∃ above node below node', tree.find crawlRoot = .ok (above, node) ∧
        tree.find index.root = .ok (below, node') ∧ above <+: below ∧ above ≠ below ∧
          crawlRoot / "/".intercalate (below.drop above.length) = path := by
  rw [pathInCrawl?]
  rcases tree.find crawlRoot with fault | ⟨above, node⟩
  · simp
  · rcases tree.find index.root with fault | ⟨below, node'⟩
    · simp
    · simp [and_assoc]

/-- A crawl meets the index folder in the same way. -/
theorem pathInCrawl?_of_alike (alike : FileTree.AlikeBut odd start start')
    (inside : ∀ place ∈ odd, location <+: place) (stands : index.Stands location start)
    (stands' : index.Stands location start') {path : Path}
    (is : index.pathInCrawl? start crawlRoot = some path) :
    index.pathInCrawl? start' crawlRoot = some path := by
  obtain ⟨above, node, below, node', crawls, found, within, apart, eq⟩ :=
    pathInCrawl?_eq_some_iff.mp is
  obtain ⟨entries, found'⟩ := stands'.find
  obtain rfl : below = location :=
    congrArg Prod.fst (Except.ok.inj (found.symm.trans stands.find.choose_spec))
  obtain ⟨node'', crawls', -⟩ := alike.find crawls fun member =>
    apart (within.eq_of_length_le (inside above member).length_le)
  exact pathInCrawl?_eq_some_iff.mpr ⟨above, node'', below, _, crawls', found', within, apart, eq⟩

/-- The same is crawled. -/
theorem crawler_eq_of_alike (alike : FileTree.AlikeBut odd start start')
    (inside : ∀ place ∈ odd, location <+: place) (stands : index.Stands location start)
    (stands' : index.Stands location start') :
    index.crawler start' crawlRoot = index.crawler start crawlRoot := by
  have same : index.pathInCrawl? start' crawlRoot = index.pathInCrawl? start crawlRoot :=
    Option.ext fun path => ⟨pathInCrawl?_of_alike alike.symm inside stands' stands,
      pathInCrawl?_of_alike alike inside stands stands'⟩
  rw [crawler, crawler, same]

/-- There are settings when a build starts. -/
theorem Prepared.hasSettings (prepared : index.Prepared location tree start) :
    start.kind? (location ++ [Config.fileName]) ≠ none := by
  by_cases missing : tree.kind? (location ++ [Config.fileName]) = none
  · rw [prepared.initial missing]
    simp
  · rwa [(prepared.keeps missing).kind?_below (by decide) []]

/-- Trees that agree outside of the record folders make starts that do. -/
theorem Prepared.agrees_start (prepared : index.Prepared location tree start)
    (prepared' : index.Prepared location other start')
    (agrees : tree.AgreesOutside location clearedFolders other) :
    start.AgreesOutside location clearedFolders start' := by
  have config := agrees.kind?_below (by decide : Config.fileName ∉ clearedFolders) []
  by_cases missing : tree.kind? (location ++ [Config.fileName]) = none
  · -- Both have the initial settings.
    have initial := prepared.initial missing
    have initial' := prepared'.initial (config.trans missing)
    have subset : clearedFolders ⊆ Config.fileName :: clearedFolders := List.subset_cons_self _ _
    refine (prepared.agrees.symm.trans ((agrees.mono subset).trans prepared'.agrees)).of_admitsFile
      (initial'.trans initial.symm) fun kind stands => ⟨Config.initialText.toUTF8, ?_⟩
    exact Option.some.inj (stands.symm.trans initial)
  · exact (prepared.keeps missing).symm.trans (agrees.trans (prepared'.keeps (config ▸ missing)))

/-! ## Succeeding again -/

/-- Both passes succeed if some tree holds an index of what there is to store, as then all postings
can be written. -/
theorem Prepared.exists_passes (prepared : index.Prepared location tree start)
    (made : index.crawler start crawlRoot = .ok crawler) (keeps : classifier.KeepsKeys)
    (small : index.config.maxFileSize ≤ Json.max64)
    (admits : start.AdmitsFile (location ++ [formatFile])) {held : FileTree}
    (holds : index.HoldsDeposits location
      ((crawler.crawl start).filterMap (stored? scheme classifier crawlRoot start)) held) :
    ∃ summary built, (index.passes scheme classifier crawlRoot (crawler.crawl start)).runOn start =
      (.ok summary, built) :=
  prepared.exists_passes_over keeps (prepared.arePassable_crawl made keeps small) admits
    holds.areWritable

/-! ## Building again -/

/-- Two trees are crawled alike: the same files are listed, and they hold the same. -/
structure CrawlsAlike (crawler : Crawler) (tree other : FileTree) : Prop where
  /-- The same files are listed. -/
  crawls : crawler.crawl other = crawler.crawl tree
  /-- They hold the same. -/
  reads : ∀ file ∈ crawler.crawl tree, other.read file = tree.read file

namespace CrawlsAlike

/-- The same is stored. -/
theorem deposits_eq (alike : CrawlsAlike crawler start start') (scheme : KeyScheme)
    (classifier : Classifier) (crawlRoot : Path) :
    (crawler.crawl start').filterMap (stored? scheme classifier crawlRoot start') =
      (crawler.crawl start).filterMap (stored? scheme classifier crawlRoot start) := by
  rw [alike.crawls]
  exact List.filterMap_congr fun file listed => stored?_congr (alike.reads file listed)

/-- The same files fail. -/
theorem failures_eq (alike : CrawlsAlike crawler start start') (scheme : KeyScheme)
    (classifier : Classifier) (crawlRoot : Path) :
    ((crawler.crawl start').filter fun file =>
        (stored? scheme classifier crawlRoot start' file).isNone) =
      (crawler.crawl start).filter fun file =>
        (stored? scheme classifier crawlRoot start file).isNone := by
  rw [alike.crawls]
  exact List.filter_congr fun file listed => by rw [stored?_congr (alike.reads file listed)]

end CrawlsAlike

/-- A build of the tree comes to a summary, and to the index that another tree holds. -/
def BuildsAlike (index : Index) (scheme : KeyScheme) (classifier : Classifier) (crawlRoot : Path)
    (location : Location) (tree : FileTree) (summary : BuildSummary) (built : FileTree) : Prop :=
  ∃ built', (index.build scheme classifier crawlRoot).runOn tree = (.ok summary, built') ∧
    index.SameIndex location built built'

/-- A build comes to the same from a start that differs in the fingerprint at most, as long as
neither crawl comes upon the difference. -/
theorem Prepared.buildsAlike {summary : BuildSummary}
    (prepared : index.Prepared location tree start)
    (made : index.crawler start crawlRoot = .ok crawler) (keeps : classifier.KeepsKeys)
    (small : index.config.maxFileSize ≤ Json.max64)
    (run : (index.passes scheme classifier crawlRoot (crawler.crawl start)).runOn start =
      (.ok summary, built))
    (prepares' : index.prepare.runOn other = (.ok (), start'))
    (prepared' : index.Prepared location other start')
    (alike : FileTree.AlikeBut odd start start')
    (only : ∀ place ∈ odd, place = location ++ [formatFile])
    (avoids : ∀ file ∈ crawler.crawl start, start.Avoids odd file)
    (avoids' : ∀ file ∈ crawler.crawl start', start'.Avoids odd file) :
    index.BuildsAlike scheme classifier crawlRoot location other summary built := by
  have named := prepared.stands.named
  have made' : index.crawler start' crawlRoot = .ok crawler := by
    rw [crawler_eq_of_alike alike (fun place member => only place member ▸ List.prefix_append _ _)
      prepared.stands prepared'.stands, made]
  have crawls : crawler.crawl start' = crawler.crawl start :=
    Crawler.crawl_eq_of_alike alike named prepared'.stands.named avoids avoids'
  have crawlsAlike : CrawlsAlike crawler start start' := ⟨crawls, fun file listed => by
    rw [FileTree.read, FileTree.read,
      alike.find_file (Crawler.leadsToFile_crawl named listed) (avoids file listed)]⟩
  have deposits := crawlsAlike.deposits_eq scheme classifier crawlRoot
  have failures := crawlsAlike.failures_eq scheme classifier crawlRoot
  obtain ⟨holds, agrees, admits, mark, rfl⟩ := prepared.passes made keeps small run
  obtain ⟨summary', built', run'⟩ := prepared'.exists_passes made' keeps small
    (alike.admitsFile admits) (deposits ▸ holds)
  obtain ⟨holds', agrees', -, mark', rfl⟩ := prepared'.passes made' keeps small run'
  rw [deposits, failures] at run'
  rw [deposits] at holds'
  have config : location ++ [Config.fileName] ∉ odd := fun member =>
    absurd (List.append_cancel_left (only _ member)) (by decide)
  refine ⟨built', build_ok_iff.mpr ⟨start', crawler, prepares', made', by rw [run', crawls]⟩,
    holds.same holds' (List.forall_mem_cons.mpr ⟨?_, List.forall_mem_singleton.mpr ?_⟩)⟩
  · rw [agrees.kind?_below (by decide) [], agrees'.kind?_below (by decide) [],
      alike.kinds _ config]
  · rw [mark, mark']

/-- Trees that agree outside of the record folders are prepared alike. -/
theorem Prepared.alike_cleared (prepared : index.Prepared location tree start)
    (prepared' : index.Prepared location other start')
    (agrees : tree.AgreesOutside location clearedFolders other) :
    FileTree.AlikeBut [] start start' :=
  FileTree.AgreesOutside.alike [] (prepared.agrees_start prepared' agrees) (by simp) (by simp)
    prepared.cleared prepared'.cleared

/-- After a build, a tree is prepared as it was before it but for the fingerprint. -/
theorem Prepared.alike_marked (prepared : index.Prepared location tree start)
    (prepared' : index.Prepared location built start')
    (agrees : start.AgreesOutside location (formatFile :: clearedFolders) built)
    (admits : start.AdmitsFile (location ++ [formatFile]))
    (mark : built.kind? (location ++ [formatFile]) =
      some (.file formatFingerprint.toUTF8)) :
    FileTree.AlikeBut [location ++ [formatFile]] start start' := by
  have settings : built.kind? (location ++ [Config.fileName]) ≠ none := by
    rw [agrees.kind?_below (by decide) []]
    exact prepared.hasSettings
  have kept := prepared'.keeps settings
  refine FileTree.AgreesOutside.alike [formatFile]
    (agrees.trans (kept.mono (List.subset_cons_self _ _))) (List.forall_mem_singleton.mpr admits)
    (List.forall_mem_singleton.mpr ?_) prepared.cleared prepared'.cleared
  intro kind stands
  rw [kept.kind?_below (by decide) [], mark, Option.some.injEq] at stands
  exact ⟨_, stands.symm⟩

/-- The crawl of a build comes upon the fingerprint of the index itself. -/
def CrawlsMark (index : Index) (location : Location) (crawlRoot : Path) (tree : FileTree) : Prop :=
  ∃ file ∈ index.crawled crawlRoot tree,
    (index.startOf tree).LeadsTo file (location ++ [formatFile])

/-- The name of the fingerprint is not that of a source file. -/
theorem not_admitsName_formatFile (made : index.crawler start crawlRoot = .ok crawler) :
    crawler.admitsName formatFile = false := by
  obtain ⟨sources, parsed, refused⟩ : ∃ sources,
      Crawler.parsePatterns Crawler.sourcePatterns = .ok sources ∧
        sources.any (Glob.admits · formatFile) = false := ⟨_, rfl, by decide +kernel⟩
  have same : sources = crawler.sources :=
    Except.ok.inj (parsed.symm.trans (fields_of_crawler made).2.2.2)
  rw [Crawler.admitsName, ← same, refused, Bool.and_false]

/-- A crawl of a folder that follows no links does not come upon the fingerprint. -/
theorem not_leadsTo_of_noLinks (named : start.WellNamed)
    (made : index.crawler start crawlRoot = .ok crawler)
    (noLinks : index.config.followSymlinks = false) {place : Location}
    {entries : List (String × FileNode)}
    (found : start.find crawlRoot = .ok (place, .folder entries)) :
    ∀ file ∈ crawler.crawl start, ¬ start.LeadsTo file (location ++ [formatFile]) := by
  rintro file listed ⟨node, leads⟩
  obtain ⟨root, -, follows, -⟩ := fields_of_crawler made
  have admitted := Crawler.admitsName_of_find named (follows.trans noLinks) (root ▸ found) listed
    leads
  rw [not_admitsName_formatFile made] at admitted
  cases admitted

/-- **A build does not depend on earlier ones.**  Whatever was in the record folders, a build that
succeeds comes to what it comes to from any other contents of them, and keeps the settings.  It
comes to the same once more if no file that either crawl lists leads to the fingerprint, and so in
any case if the crawl starts in a folder and follows no links. -/
theorem build_again (hosted : index.IsHosted location tree) (named : tree.WellNamed)
    (keeps : classifier.KeepsKeys) (small : index.config.maxFileSize ≤ Json.max64)
    {summary : BuildSummary}
    (run : (index.build scheme classifier crawlRoot).runOn tree = (.ok summary, built)) :
    (∀ other, tree.AgreesOutside location clearedFolders other → other.WellNamed →
      (∀ folder ∈ clearedFolders, ¬ other.HasFile (location ++ [folder])) →
      index.BuildsAlike scheme classifier crawlRoot location other summary built) ∧
    (¬ index.CrawlsMark location crawlRoot tree → ¬ index.CrawlsMark location crawlRoot built →
      index.BuildsAlike scheme classifier crawlRoot location built summary built) ∧
    (index.config.followSymlinks = false →
      (∃ place entries, (index.startOf tree).find crawlRoot = .ok (place, .folder entries)) →
      index.BuildsAlike scheme classifier crawlRoot location built summary built) ∧
    ∀ kind, tree.kind? (location ++ [Config.fileName]) = some kind →
      built.kind? (location ++ [Config.fileName]) = some kind := by
  obtain ⟨start, crawler, prepares, made, run⟩ := build_ok_iff.mp run
  obtain rfl : index.startOf tree = start := congrArg Prod.snd prepares
  have prepared := Index.prepared hosted named prepares
  obtain ⟨holds, agrees, admits, mark, -⟩ := prepared.passes made keeps small run
  -- What a second build starts from.
  obtain ⟨start', prepares'⟩ := holds.stands.hosted.exists_prepared fun _ => holds.stands.notFile
  obtain rfl : index.startOf built = start' := congrArg Prod.snd prepares'
  have prepared' := Index.prepared holds.stands.hosted holds.stands.named prepares'
  have alike := prepared.alike_marked prepared' agrees admits mark
  have only : ∀ place ∈ [location ++ [formatFile]], place = location ++ [formatFile] := by simp
  have made' : index.crawler (index.startOf built) crawlRoot = .ok crawler := by
    rw [crawler_eq_of_alike alike (fun place member => only place member ▸ List.prefix_append _ _)
      prepared.stands prepared'.stands, made]
  have again (avoids : ∀ file ∈ crawler.crawl (index.startOf tree),
        ¬ (index.startOf tree).LeadsTo file (location ++ [formatFile]))
      (avoids' : ∀ file ∈ crawler.crawl (index.startOf built),
        ¬ (index.startOf built).LeadsTo file (location ++ [formatFile])) :
      index.BuildsAlike scheme classifier crawlRoot location built summary built :=
    prepared.buildsAlike made keeps small run prepares' prepared' alike only
      (fun file listed => List.forall_mem_singleton.mpr (avoids file listed))
      fun file listed => List.forall_mem_singleton.mpr (avoids' file listed)
  refine ⟨fun other same named' noFiles => ?_, fun avoids avoids' => ?_,
    fun noLinks ⟨place, entries, found⟩ => ?_, fun kind stands => ?_⟩
  · have hosted' := hosted.of_agrees same (fun _ => mem_ownNames_of_cleared)
      fun name setting cleared => not_mem_settingFiles cleared setting
    obtain ⟨start', prepares'⟩ := hosted'.exists_prepared noFiles
    have prepared' := Index.prepared hosted' named' prepares'
    exact prepared.buildsAlike made keeps small run prepares' prepared'
      (prepared.alike_cleared prepared' same) (by simp) (fun _ _ => by simp [FileTree.Avoids])
      fun _ _ => by simp [FileTree.Avoids]
  · rw [CrawlsMark, crawled_eq made] at avoids
    rw [CrawlsMark, crawled_eq made'] at avoids'
    exact again (fun file listed leads => avoids ⟨file, listed, leads⟩)
      fun file listed leads => avoids' ⟨file, listed, leads⟩
  · obtain ⟨entries', found'⟩ := alike.find_folder found
    exact again (not_leadsTo_of_noLinks prepared.stands.named made noLinks found)
      (not_leadsTo_of_noLinks prepared'.stands.named made' noLinks found')
  · rw [agrees.kind?_below (by decide) [], (prepared.keeps (by simp [stands])).kind?_below
      (by decide) [], stands]

/-! ## A sample -/

/-- The sample with a query cache. -/
def staleTree : FileTree := sampleTree.put ["index", queriesFolder] (.folder [])

/-- The sample is built alike where there is a query cache already, and once more. -/
theorem build_again_sample : ∃ summary built,
    (sampleIndex.build sampleScheme .standard ⟨"/src"⟩).runOn sampleTree = (.ok summary, built) ∧
      sampleIndex.BuildsAlike sampleScheme .standard ⟨"/src"⟩ ["index"] staleTree summary built ∧
      sampleIndex.BuildsAlike sampleScheme .standard ⟨"/src"⟩ ["index"] built summary built := by
  obtain ⟨summary, built, -, builds⟩ := builds_sample
  obtain ⟨alike, -, again, -⟩ := build_again builds.hosted builds.named builds.keepsKeys
    builds.sizes builds.succeeds
  have noFiles : ∀ folder ∈ clearedFolders,
      ((staleTree.kind? (["index"] ++ [folder])).map NodeKind.isFile).getD false = false := by
    decide
  refine ⟨summary, built, builds.succeeds, alike staleTree ?_ ?_ ?_,
    again rfl (FileTree.find_of_isFolder (by decide +kernel))⟩
  · exact FileTree.AgreesOutside.alter _ ["index"] (by decide) [] _
  · exact wellNamed_sampleTree.put ["index"] (isName_of_mem (by decide))
      FileNode.wellNamed_emptyFolder
  · rintro folder member ⟨kind, held, isFile⟩
    have notFile := noFiles folder member
    rw [held, Option.map_some, Option.getD_some, isFile] at notFile
    cases notFile

/-- The index of the sample, which follows links. -/
def followingIndex : Index :=
  { sampleIndex with config := { sampleIndex.config with followSymlinks := true } }

/-- A tree with a link to the fingerprint among the source files. -/
def linkedTree : FileTree :=
  (sampleTree.put ["more"] (.folder [])).put ["more", "x.txt"] (.link ⟨"/index/format.hash"⟩)

/-- Keys that are refused. -/
def refusedScheme : KeyScheme := ⟨fun _ => "x"⟩

/-- A second build of the same tree comes upon the fingerprint that the first one has left. -/
theorem second_build_differs : ∃ summary built summary' built',
    followingIndex.Builds refusedScheme .standard ⟨"/more"⟩ ["index"] linkedTree summary built ∧
      followingIndex.Builds refusedScheme .standard ⟨"/more"⟩ ["index"] built summary' built' ∧
      summary.failed = [] ∧ summary'.failed = [⟨"/more/x.txt"⟩] := by
  have hosted : followingIndex.IsHosted ["index"] linkedTree := by
    have sample : sampleIndex.IsHosted ["index"] linkedTree := isHosted_sampleIndex_of rfl
      (by simp only [settingFiles, List.forall_mem_cons]; decide)
    exact ⟨sample.hosts, sample.noLinks⟩
  have named : linkedTree.WellNamed := by
    have proper : ∀ name ∈ ["more", "x.txt"], IsName name := by
      simp only [List.forall_mem_cons, List.not_mem_nil, false_implies, implies_true, and_true]
      refine ⟨?_, ?_⟩ <;>
        exact ⟨⟨by decide, by decide, by decide, by decide⟩, by decide, by decide⟩
    exact (wellNamed_sampleTree.put [] (proper _ (by simp)) FileNode.wellNamed_emptyFolder).put
      ["more"] (proper _ (by simp)) (FileNode.wellNamed_link _)
  have first : ((followingIndex.build refusedScheme .standard ⟨"/more"⟩).runOn
      linkedTree).1.toOption.map BuildSummary.failed = some [] := by decide +kernel
  have second : ((followingIndex.build refusedScheme .standard ⟨"/more"⟩).runOn
      ((followingIndex.build refusedScheme .standard ⟨"/more"⟩).runOn
        linkedTree).2).1.toOption.map BuildSummary.failed =
      some [⟨"/more/x.txt"⟩] := by decide +kernel
  have distinct : ((followingIndex.documentsOf refusedScheme .standard ⟨"/more"⟩
      ((followingIndex.build refusedScheme .standard ⟨"/more"⟩).runOn linkedTree).2
      (followingIndex.crawled ⟨"/more"⟩
        ((followingIndex.build refusedScheme .standard ⟨"/more"⟩).runOn linkedTree).2)).map
          IndexedDocument.key).Nodup := by decide +kernel
  obtain ⟨summary, built, run, failed⟩ := TaskM.exists_of_map_toOption first
  rw [run] at second distinct
  obtain ⟨summary', built', run', failed'⟩ := TaskM.exists_of_map_toOption second
  have builds : followingIndex.Builds refusedScheme .standard ⟨"/more"⟩ ["index"] linkedTree
      summary built := ⟨hosted, named, Classifier.keepsKeys_standard, by decide, by decide,
        by decide +kernel, run⟩
  have stands := builds.represents.1.stands
  refine ⟨summary, built, summary', built', builds, ⟨stands.hosted, stands.named,
    Classifier.keepsKeys_standard, by decide, by decide, distinct, run'⟩, failed, failed'⟩

end Index
end SourceSearch
