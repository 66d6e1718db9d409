import SourceSearch.Proofs.Index.Kept

/-!
# Indexes that can be built

Where the index folder is in order a build succeeds, whatever the files are that it finds.  A file
fails by itself: its path or its key is no good, or it cannot be read.
-/

namespace SourceSearch
namespace Index

variable {index : Index} {location : Location} {tree start : FileTree} {scheme : KeyScheme}
  {classifier : Classifier} {crawlRoot file : Path}

/-! ## Files that fail -/

/-- There is nothing to store of a file: its path is not below the crawl root, or it cannot be read,
or its key does not make names that are accepted. -/
def fails (scheme : KeyScheme) (crawlRoot : Path) (tree : FileTree) (file : Path) : Bool :=
  match DocumentIdentity.ofPath file crawlRoot scheme, tree.read file with
  | .ok id, .ok _ => !Store.accepts id.key
  | _, _ => true

theorem isNone_stored? (scheme : KeyScheme) (classifier : Classifier) (crawlRoot : Path)
    (tree : FileTree) (file : Path) :
    (stored? scheme classifier crawlRoot tree file).isNone = fails scheme crawlRoot tree file := by
  rw [stored?, fails]
  cases DocumentIdentity.ofPath file crawlRoot scheme with
  | error failure => rfl
  | ok id =>
      cases tree.read file with
      | error fault => rfl
      | ok content => by_cases accepted : Store.accepts id.key = true <;> simp [accepted]

theorem fails_of_unreadable {fault : Fault} (unreadable : tree.read file = .error fault) :
    fails scheme crawlRoot tree file = true := by
  rw [fails, unreadable]
  cases DocumentIdentity.ofPath file crawlRoot scheme <;> rfl

/-- What is stored of files is what is stored of those that do not fail. -/
theorem filterMap_stored? (files : List Path) :
    (files.filter fun file => !fails scheme crawlRoot tree file).filterMap
        (stored? scheme classifier crawlRoot tree) =
      files.filterMap (stored? scheme classifier crawlRoot tree) := by
  rw [List.filterMap_filter]
  refine List.filterMap_congr fun file _ => ?_
  rw [← isNone_stored? scheme classifier]
  cases stored? scheme classifier crawlRoot tree file <;> rfl

/-- Those are the documents of the files that do not fail. -/
theorem map_filterMap_stored? (files : List Path) :
    (files.filterMap (stored? scheme classifier crawlRoot tree)).map Prod.fst =
      (files.filter fun file => !fails scheme crawlRoot tree file).filterMap
        (IndexedDocument.ofFile? scheme classifier crawlRoot tree) := by
  rw [List.map_filterMap, List.filterMap_filter]
  refine List.filterMap_congr fun file _ => ?_
  rw [← isNone_stored? scheme classifier]
  cases is : stored? scheme classifier crawlRoot tree file with
  | none => rfl
  | some entry => simp [ofFile?_of_stored? is]

/-! ## Builds that succeed -/

/-- An index folder in order: no record folder is a file, and no folder or link stands for the
fingerprint. -/
structure IsBuildable (index : Index) (location : Location) (tree : FileTree) : Prop where
  /-- The index folder is there. -/
  hosted : index.IsHosted location tree
  /-- Names are proper. -/
  named : tree.WellNamed
  /-- Record folders can be removed. -/
  noFiles : ∀ folder ∈ clearedFolders, ¬ tree.HasFile (location ++ [folder])
  /-- The fingerprint can be written. -/
  admits : tree.AdmitsFile (location ++ [formatFile])

/-- What a build starts from. -/
theorem IsBuildable.prepared (buildable : index.IsBuildable location tree) :
    index.prepare.runOn tree = (.ok (), index.startOf tree) ∧
      index.Prepared location tree (index.startOf tree) ∧
      (index.startOf tree).AdmitsFile (location ++ [formatFile]) := by
  obtain ⟨start, prepares⟩ := buildable.hosted.exists_prepared buildable.noFiles
  obtain rfl : index.startOf tree = start := congrArg Prod.snd prepares
  have prepared := Index.prepared buildable.hosted buildable.named prepares
  exact ⟨prepares, prepared, prepared.agrees.admitsFile (by decide) buildable.admits⟩

/-- The patterns of a crawler are well-formed, so there is always one. -/
theorem exists_crawler (index : Index) (start : FileTree) (crawlRoot : Path) :
    ∃ crawler, index.crawler start crawlRoot = .ok crawler := by
  obtain ⟨sources, parsed⟩ : ∃ sources,
      Crawler.parsePatterns Crawler.sourcePatterns = .ok sources := ⟨_, rfl⟩
  obtain ⟨archives, parsed'⟩ : ∃ archives,
      Crawler.parsePatterns Crawler.archivePatterns = .ok archives := ⟨_, rfl⟩
  rw [Index.crawler, Crawler.new, Crawler.matching, parsed, parsed']
  exact ⟨_, rfl⟩

/-- The files that a build of a buildable index finds can be gone over. -/
theorem IsBuildable.arePassable_crawled (buildable : index.IsBuildable location tree)
    (keeps : classifier.KeepsKeys) (small : index.config.maxFileSize ≤ Json.max64)
    (scheme : KeyScheme) (crawlRoot : Path) :
    ArePassable scheme classifier crawlRoot location (index.startOf tree)
      (index.crawled crawlRoot tree) := by
  obtain ⟨crawler, made⟩ := index.exists_crawler (index.startOf tree) crawlRoot
  rw [crawled_eq made]
  exact buildable.prepared.2.1.arePassable_crawl made keeps small

/-- A build consists of both passes over the files that it finds. -/
theorem IsBuildable.build_of_passes (buildable : index.IsBuildable location tree)
    {summary : BuildSummary} {built : FileTree}
    (run : (index.passes scheme classifier crawlRoot (index.crawled crawlRoot tree)).runOn
      (index.startOf tree) = (.ok summary, built)) :
    (index.build scheme classifier crawlRoot).runOn tree = (.ok summary, built) := by
  obtain ⟨crawler, made⟩ := index.exists_crawler (index.startOf tree) crawlRoot
  rw [crawled_eq made] at run
  exact build_ok_iff.mpr ⟨_, crawler, buildable.prepared.1, made, run⟩

/-- Both passes succeed over files that can be gone over, as long as they can be counted. -/
theorem IsBuildable.exists_passes (buildable : index.IsBuildable location tree)
    (keeps : classifier.KeepsKeys) {files : List Path}
    (passable : ArePassable scheme classifier crawlRoot location (index.startOf tree) files)
    (few : files.length ≤ Json.max64) :
    ∃ summary built, (index.passes scheme classifier crawlRoot files).runOn (index.startOf tree) =
      (.ok summary, built) :=
  buildable.prepared.2.1.exists_passes_over keeps passable buildable.prepared.2.2
    (index.areWritable_of_length ((List.length_filterMap_le _ _).trans few))

/-- A build of a buildable index succeeds, and fails for the files of which there is nothing to
store. -/
theorem IsBuildable.exists_build (buildable : index.IsBuildable location tree)
    (keeps : classifier.KeepsKeys) (small : index.config.maxFileSize ≤ Json.max64)
    (few : (index.crawled crawlRoot tree).length ≤ Json.max64) :
    ∃ summary built,
      (index.build scheme classifier crawlRoot).runOn tree = (.ok summary, built) ∧
        summary.failed = (index.crawled crawlRoot tree).filter
          (fails scheme crawlRoot (index.startOf tree)) := by
  obtain ⟨summary, built, run⟩ :=
    buildable.exists_passes keeps (buildable.arePassable_crawled keeps small _ _) few
  have build := buildable.build_of_passes run
  obtain ⟨-, -, sums⟩ := holdsDeposits_of_build buildable.hosted buildable.named keeps small build
  refine ⟨summary, built, build, ?_⟩
  rw [sums, summaryOf]
  exact List.filter_congr fun file _ => isNone_stored? _ _ _ _ file

end Index
end SourceSearch
