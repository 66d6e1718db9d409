import SourceSearch.Index.Build
import SourceSearch.Proofs.FileTree.Altered
import SourceSearch.Proofs.Store.Records

/-!
# Index folders

An index stands in a tree if the path to its folder holds good whatever the folder's own entries
are, and its record folders are layered.  A build makes it stand: it starts by removing all record
folders.
-/

namespace SourceSearch
namespace Index

variable {index : Index} {location : Location} {tree before after : FileTree}

/-- The files beside the record folders. -/
def settingFiles : List String := [Config.fileName, formatFile]

/-- All entries of the index folder that are its own. -/
def ownNames : List String := clearedFolders ++ settingFiles

theorem isName_of_mem {name : String} (member : name ∈ ownNames) : IsName name :=
  have proper : ∀ name ∈ ownNames, IsName name := by decide
  proper name member

theorem mem_ownNames_of_cleared {folder : String} (member : folder ∈ clearedFolders) :
    folder ∈ ownNames := List.mem_append_left _ member

theorem mem_ownNames_of_setting {name : String} (member : name ∈ settingFiles) :
    name ∈ ownNames := List.mem_append_right _ member

theorem not_mem_settingFiles {folder : String} (member : folder ∈ clearedFolders) :
    folder ∉ settingFiles := by
  have all : ∀ folder ∈ clearedFolders, folder ∉ settingFiles := by decide
  exact all folder member

/-- How far below a record folder its files lie. -/
def depthOf (folder : String) : Nat := if folder = textFolder ∨ folder = tagFolder then 3 else 2

/-- The index folder is an ordinary folder at a location: its path does not lead through what the
index keeps there, and its settings are no links. -/
structure IsHosted (index : Index) (location : Location) (tree : FileTree) : Prop where
  /-- The path leads there. -/
  hosts : tree.Hosts index.root ownNames location
  /-- Settings are not written elsewhere. -/
  noLinks : ∀ name ∈ settingFiles, ∀ target, tree.kind? (location ++ [name]) ≠ some (.link target)

/-- The index stands at a location with nothing but records in its record folders. -/
structure Stands (index : Index) (location : Location) (tree : FileTree) : Prop where
  /-- The index folder is there. -/
  hosted : index.IsHosted location tree
  /-- Names are proper. -/
  named : tree.WellNamed
  /-- Records lie at the depth of their folder. -/
  layered : ∀ folder ∈ clearedFolders, tree.Layered location folder (depthOf folder)

theorem IsHosted.of_agrees (hosted : index.IsHosted location tree) {own : List String}
    (agrees : tree.AgreesOutside location own after) (subset : ∀ name ∈ own, name ∈ ownNames)
    (settings : ∀ name ∈ settingFiles, name ∉ own) : index.IsHosted location after where
  hosts := hosted.hosts.of_agrees (agrees.mono subset)
  noLinks name member target := by
    rw [agrees.kind?_below (settings name member) []]
    exact hosted.noLinks name member target

/-- A step in one record folder leaves the index standing. -/
theorem Stands.step (stands : index.Stands location before) {folder : String}
    (member : folder ∈ clearedFolders)
    (stays : FileTree.StaysIn location folder (depthOf folder) before after) :
    index.Stands location after where
  hosted := stands.hosted.of_agrees stays.agrees
    (by simpa using mem_ownNames_of_cleared member)
    fun name setting same =>
      not_mem_settingFiles member (List.mem_singleton.mp same ▸ setting)
  named := stays.named stands.named
  layered other mem := by
    by_cases same : other = folder
    · subst same
      exact stays.layered (stands.layered _ mem)
    · exact (stands.layered other mem).of_agrees stays.agrees (by simpa using same)

/-- Altered records leave the index standing. -/
theorem Stands.of_differsAt {may : Location → ByteArray → Prop} {places : List Location}
    (stands : index.Stands location before)
    (differs : FileTree.DiffersAt may before places after)
    (below : ∀ place ∈ places, ∃ folder ∈ clearedFolders, location ++ [folder] <+: place) :
    index.Stands location after where
  hosted := stands.hosted.of_agrees (differs.agrees below) (fun _ => mem_ownNames_of_cleared)
    fun _ setting cleared => not_mem_settingFiles cleared setting
  named := differs.named stands.named
  layered folder member := differs.layered (stands.layered folder member)

theorem Stands.find (stands : index.Stands location tree) :
    ∃ entries, tree.find index.root = .ok (location, .folder entries) :=
  stands.hosted.hosts.find

/-- A record folder is no file. -/
theorem Stands.notFile (stands : index.Stands location tree) {folder : String}
    (member : folder ∈ clearedFolders) : ¬ tree.HasFile (location ++ [folder]) := by
  rintro ⟨kind, held, isFile⟩
  rcases stands.layered folder member [] _ held with ⟨-, rfl⟩ | ⟨deep, -⟩
  · cases isFile
  · rw [depthOf] at deep
    split at deep <;> cases deep

/-! ## Preparing a build -/

/-- What a build does first. -/
def prepare (index : Index) : TaskM Unit := do
  Config.writeInitial index.root
  index.clear

theorem forM_removeFolder {folders : List String} (subset : ∀ folder ∈ folders, folder ∈ ownNames)
    (hosts : tree.Hosts index.root ownNames location)
    (run : (folders.forM fun folder => TaskM.removeFolder (index.root / folder)).runOn tree =
      (.ok (), after)) :
    tree.AgreesOutside location folders after ∧ (tree.WellNamed → after.WellNamed) ∧
      ∀ folder ∈ folders, after.kind? (location ++ [folder]) = none := by
  induction folders generalizing tree with
  | nil =>
      cases run
      exact ⟨.refl _ _ _, id, by simp⟩
  | cons folder rest ih =>
      rw [List.forall_mem_cons] at subset
      obtain ⟨_, between, removed, run⟩ := TaskM.bind_ok_iff.mp run
      obtain ⟨agrees, named, gone⟩ :=
        FileTree.removeFolder_hosted hosts (isName_of_mem subset.1) removed
      obtain ⟨agrees', named', gone'⟩ := ih subset.2
        (hosts.of_agrees (agrees.mono (by simpa using subset.1))) run
      refine ⟨(agrees.mono (by simp)).trans (agrees'.mono (by simp)), named' ∘ named,
        List.forall_mem_cons.mpr ⟨?_, gone'⟩⟩
      by_cases again : folder ∈ rest
      · exact gone' folder again
      · rw [agrees'.kind?_below again []]
        exact gone

/-- Folders of a hosted one can be removed if none of them is a file. -/
theorem exists_forM_removeFolder {folders : List String}
    (subset : ∀ folder ∈ folders, folder ∈ ownNames)
    (hosts : tree.Hosts index.root ownNames location)
    (noFiles : ∀ folder ∈ folders, ¬ tree.HasFile (location ++ [folder])) :
    ∃ after, (folders.forM fun folder => TaskM.removeFolder (index.root / folder)).runOn tree =
      (.ok (), after) := by
  induction folders generalizing tree with
  | nil => exact ⟨tree, rfl⟩
  | cons folder rest ih =>
      rw [List.forall_mem_cons] at subset noFiles
      have proper := isName_of_mem subset.1
      obtain ⟨between, removed⟩ := FileTree.exists_removed hosts proper noFiles.1
      obtain ⟨agrees, -, gone⟩ := FileTree.removeFolder_hosted hosts proper removed
      have noFiles' : ∀ folder ∈ rest, ¬ between.HasFile (location ++ [folder]) := by
        rintro other member ⟨kind, stands, isFile⟩
        by_cases same : other = folder
        · rw [same, gone] at stands
          cases stands
        · rw [agrees.kind?_below (by simpa using same) []] at stands
          exact noFiles.2 other member ⟨kind, stands, isFile⟩
      obtain ⟨after, rest⟩ := ih subset.2
        (hosts.of_agrees (agrees.mono (by simpa using subset.1))) noFiles'
      exact ⟨after, TaskM.bind_ok_iff.mpr ⟨(), between, removed, rest⟩⟩

/-- A settings file that is written is a file of the index folder, and nothing else changes. -/
theorem IsHosted.write (hosted : index.IsHosted location tree) {name : String}
    (setting : name ∈ settingFiles) {content : ByteArray}
    (written : tree.write (index.root / name) content = .ok after) :
    index.IsHosted location after ∧ tree.AgreesOutside location [name] after ∧
      (tree.WellNamed → after.WellNamed) ∧
      after.kind? (location ++ [name]) = some (.file content) := by
  have own := mem_ownNames_of_setting setting
  obtain ⟨agrees, named, file⟩ := FileTree.write_hosted hosted.hosts (isName_of_mem own)
    (hosted.noLinks name setting) written
  refine ⟨⟨hosted.hosts.of_agrees (agrees.mono (by simpa using own)), ?_⟩, agrees, named, file⟩
  intro other member target
  by_cases same : other = name
  · rw [same, file]
    simp
  · rw [agrees.kind?_below (by simpa using same) []]
    exact hosted.noLinks other member target

/-- The initial settings are written where nothing stands. -/
theorem IsHosted.exists_initial (hosted : index.IsHosted location tree) :
    ∃ after, (Config.writeInitial index.root).runOn tree = (.ok (), after) ∧
      index.IsHosted location after ∧ tree.AgreesOutside location [Config.fileName] after ∧
      (tree.WellNamed → after.WellNamed) ∧
      (tree.kind? (location ++ [Config.fileName]) ≠ none → after = tree) ∧
      (tree.kind? (location ++ [Config.fileName]) = none →
        after.kind? (location ++ [Config.fileName]) =
          some (.file Config.initialText.toUTF8)) := by
  have setting : Config.fileName ∈ settingFiles := List.mem_cons_self
  have proper := isName_of_mem (mem_ownNames_of_setting setting)
  have present := FileTree.pathExists_single hosted.hosts proper (hosted.noLinks _ setting)
  rw [Config.writeInitial, TaskM.runOn_bind, TaskM.runOn_observe, present]
  cases kind : tree.kind? (location ++ [Config.fileName]) with
  | some found => exact ⟨tree, rfl, hosted, .refl _ _ _, id, fun _ => rfl, nofun⟩
  | none =>
      have written := FileTree.write_single hosted.hosts proper
        (by simp [FileTree.AdmitsFile, kind]) Config.initialText.toUTF8
      obtain ⟨hosted', agrees, named, file⟩ := hosted.write setting written
      refine ⟨_, ?_, hosted', agrees, named, fun some => absurd rfl some, fun _ => file⟩
      simp only [Option.isSome_none, Bool.false_eq_true, if_false, TaskM.runOn_change, written]

/-- What a build starts from: the record folders are gone, there are settings, and all else is as
before. -/
structure Prepared (index : Index) (location : Location) (tree start : FileTree) : Prop where
  /-- The index stands. -/
  stands : index.Stands location start
  /-- Nothing else has changed. -/
  agrees : tree.AgreesOutside location (Config.fileName :: clearedFolders) start
  /-- Settings that were there are kept. -/
  keeps : tree.kind? (location ++ [Config.fileName]) ≠ none →
    tree.AgreesOutside location clearedFolders start
  /-- Else there are the initial ones. -/
  initial : tree.kind? (location ++ [Config.fileName]) = none →
    start.kind? (location ++ [Config.fileName]) = some (.file Config.initialText.toUTF8)
  /-- There are no records. -/
  cleared : ∀ folder ∈ clearedFolders, start.kind? (location ++ [folder]) = none

theorem prepared (hosted : index.IsHosted location tree) (named : tree.WellNamed)
    {start : FileTree} (run : index.prepare.runOn tree = (.ok (), start)) :
    index.Prepared location tree start := by
  obtain ⟨_, between, initial, run⟩ := TaskM.bind_ok_iff.mp run
  obtain ⟨_, initial', hosted', agrees, named', keeps, writes⟩ := hosted.exists_initial
  rw [initial'] at initial
  cases initial
  obtain ⟨agrees', named'', gone⟩ :=
    forM_removeFolder (fun _ => mem_ownNames_of_cleared) hosted'.hosts run
  exact {
    stands := {
      hosted := hosted'.of_agrees agrees' (fun _ => mem_ownNames_of_cleared)
        fun name setting cleared => not_mem_settingFiles cleared setting
      named := named'' (named' named)
      layered := fun folder member => FileTree.layered_of_none (gone folder member) }
    agrees := (agrees.mono (by simp)).trans (agrees'.mono (List.subset_cons_self _ _))
    keeps := fun some => keeps some ▸ agrees'
    initial := fun none => (agrees'.kind?_below (by decide) []).trans (writes none)
    cleared := gone }

/-- A build can be prepared if no record folder is a file. -/
theorem IsHosted.exists_prepared (hosted : index.IsHosted location tree)
    (noFiles : ∀ folder ∈ clearedFolders, ¬ tree.HasFile (location ++ [folder])) :
    ∃ start, index.prepare.runOn tree = (.ok (), start) := by
  obtain ⟨between, initial, hosted', agrees, -, -, -⟩ := hosted.exists_initial
  have apart : ∀ folder ∈ clearedFolders, folder ∉ [Config.fileName] := by decide
  obtain ⟨start, cleared⟩ := exists_forM_removeFolder (fun _ => mem_ownNames_of_cleared)
    hosted'.hosts fun folder (member : folder ∈ clearedFolders) => by
      rw [FileTree.HasFile, agrees.kind?_below (apart folder member) []]
      exact noFiles folder member
  exact ⟨start, TaskM.bind_ok_iff.mpr ⟨(), between, initial, cleared⟩⟩

end Index
end SourceSearch
