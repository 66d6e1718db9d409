import SourceSearch.FileTree.Operations
import SourceSearch.Proofs.FileTree.Names
import SourceSearch.Proofs.FileTree.Walks

/-!
# Paths that are found

A path that goes on by plain names from one that leads to a folder is looked up below that folder.
A tree hosts a set of record folders if the path to the folder around them holds good whatever they
hold.
-/

namespace SourceSearch

/-- A path can be looked up at all. -/
structure Path.IsSound (path : Path) : Prop where
  /-- No character ends it early. -/
  noNul : '\x00' ∉ path.text.toList
  /-- There are characters. -/
  notEmpty : path.text ≠ ""

namespace FileTree

variable {tree : FileTree} {path : Path} {place : Location} {node : FileNode}

theorem resolve_of_isSound (tree : FileTree) (sound : path.IsSound) (followLast : Bool) :
    tree.resolve path followLast =
      tree.walkWithin followLast maxLinks (tree.startOf path) path.steps := by
  rw [resolve, if_neg (by simpa using sound.noNul), if_neg sound.notEmpty]

theorem find_iff :
    tree.find path = .ok (place, node) ↔
      path.IsSound ∧ tree.Arrives true maxLinks (tree.startOf path) path.steps place ∧
        tree.at? place = some node := by
  rw [find, ← arrives_iff]
  by_cases nul : '\x00' ∈ path.text.toList
  · rw [resolve, if_pos (by simpa using nul)]
    simp only [reduceCtorEq, false_iff]
    exact fun whole => whole.1.noNul nul
  by_cases empty : path.text = ""
  · rw [resolve, if_neg (by simpa using nul), if_pos empty]
    simp only [reduceCtorEq, false_iff]
    exact fun whole => whole.1.notEmpty empty
  · rw [resolve_of_isSound tree ⟨nul, empty⟩]
    constructor
    · intro found
      refine ⟨⟨nul, empty⟩, ?_⟩
      split at found
      · rename_i reached
        cases found
        exact reached
      · cases found
      · cases found
    · rintro ⟨-, reached⟩
      rw [reached]

/-- A path that leads to a folder finds its entries. -/
theorem find_of_isFolder (folder : tree.isFolder path = true) :
    ∃ place entries, tree.find path = .ok (place, .folder entries) := by
  rw [isFolder] at folder
  split at folder
  · rename_i place node found
    match node with
    | .folder entries => exact ⟨place, entries, found⟩
  · cases folder

/-- A path that leads somewhere does so without a slash at its end. -/
theorem Arrives.names {links : Nat} {start : Location}
    (walk : tree.Arrives true links start path.steps place) :
    tree.Arrives true links start path.names place := by
  rcases path.steps_eq with steps | steps
  · rwa [steps] at walk
  · rw [steps] at walk
    obtain ⟨reached, front⟩ := walk.front
    obtain ⟨node, stands, whole⟩ := walk.walkWithin
    obtain ⟨left, -, goes⟩ := front.append
    rw [goes true ["."] (by simp)] at whole
    have above : tree.kind? reached = some .folder := by
      refine Classical.byContradiction fun notFolder => ?_
      rw [walkWithin_cons_of_not_folder _ notFolder] at whole
      cases whole
    obtain ⟨entries, held⟩ := at?_of_kind?_folder above
    rw [walkWithin_here _ above, walkWithin_nil _ held] at whole
    cases whole
    exact front

section Below

variable {entries : List (String × FileNode)}

theorem startOf_below (tree : FileTree) (given : path.text ≠ "") {names : List String}
    (plain : ∀ name ∈ names, IsPlain name) :
    tree.startOf (path.below names) = tree.startOf path := by
  rw [startOf, startOf, Path.isAbsolute_below given plain]

theorem isSound_below (sound : path.IsSound) {names : List String}
    (plain : ∀ name ∈ names, IsPlain name) :
    (path.below names).IsSound ↔ ∀ name ∈ names, '\x00' ∉ name.toList := by
  constructor
  · intro whole name member nul
    exact whole.noNul ((Path.mem_text_below plain (by decide)).mpr (.inr ⟨name, member, nul⟩))
  · intro clean
    refine ⟨fun nul => ?_, Path.text_below_ne_empty sound.notEmpty plain⟩
    rcases (Path.mem_text_below plain (by decide)).mp nul with nul | ⟨name, member, nul⟩
    · exact sound.noNul nul
    · exact clean name member nul

/-- Names below a folder are looked up from the folder on. -/
theorem resolve_below (found : tree.find path = .ok (place, .folder entries)) :
    ∃ left, ∀ (followLast : Bool) (names : List String), names ≠ [] →
      (∀ name ∈ names, IsPlain name) → (∀ name ∈ names, '\x00' ∉ name.toList) →
        tree.resolve (path.below names) followLast =
          tree.walkWithin followLast left place names := by
  obtain ⟨sound, walk, stands⟩ := find_iff.mp found
  obtain ⟨left, -, goes⟩ := walk.names.append
  refine ⟨left, fun followLast names nonempty plain clean => ?_⟩
  rw [resolve_of_isSound tree ((isSound_below sound plain).mpr clean),
    startOf_below tree sound.notEmpty plain, Path.steps_below path nonempty plain]
  exact goes followLast names nonempty

theorem resolve_below_of_nul (tree : FileTree) {names : List String}
    (plain : ∀ name ∈ names, IsPlain name) (nul : ∃ name ∈ names, '\x00' ∈ name.toList)
    (followLast : Bool) :
    tree.resolve (path.below names) followLast = .error .nulCharacter := by
  have inside : '\x00' ∈ (path.below names).text.toList :=
    (Path.mem_text_below plain (by decide)).mpr (.inr nul)
  rw [resolve, if_pos (by simpa using inside)]

theorem Arrives.folder {links : Nat} {followLast : Bool} {location : Location} {step : String}
    {rest : List String}
    (walk : tree.Arrives followLast links location (step :: rest) place) :
    tree.kind? location = some .folder := by
  cases walk with
  | here folder _ => exact folder
  | up folder _ => exact folder
  | step name found _ _ => exact kind?_of_append found
  | follow name found _ _ => exact kind?_of_append found
  | stay name found _ => exact kind?_of_append found

/-- No folder is made where there is one already. -/
theorem makeFoldersFrom_append {location : Location} {front : List String}
    (walk : tree.Arrives true maxLinks location front place)
    (folder : tree.kind? place = some .folder) (rest : List String) :
    tree.makeFoldersFrom location (front ++ rest) = tree.makeFoldersFrom place rest := by
  induction front generalizing location with
  | nil =>
      cases walk
      rfl
  | cons step front ih =>
      obtain ⟨next, first⟩ : ∃ next, tree.Arrives true maxLinks location [step] next :=
        Arrives.front walk
      obtain ⟨left, bound, goes⟩ := first.append
      have onward : tree.Arrives true maxLinks next front place := by
        obtain ⟨held, stands, whole⟩ := walk.walkWithin
        cases front with
        | nil =>
            obtain ⟨reached, stands', single⟩ := first.walkWithin
            rw [single] at whole
            cases whole
            exact .done (kind?_of_at? stands)
        | cons second front =>
            rw [← List.singleton_append, goes true _ (by simp)] at whole
            exact (arrives_iff.mp whole).1.mono bound
      have nextFolder : tree.kind? next = some .folder := by
        cases front with
        | nil =>
            cases onward
            exact folder
        | cons => exact onward.folder
      obtain ⟨reached, stands, single⟩ := first.walkWithin
      obtain ⟨inner, rfl⟩ : ∃ inner, reached = .folder inner :=
        FileNode.eq_folder_of_kind (Option.some.inj ((kind?_of_at? stands).symm.trans nextFolder))
      rw [List.cons_append, makeFoldersFrom, single]
      exact ih onward

/-- Nothing is made where there is a folder already. -/
theorem makeFolders_of_find (found : tree.find path = .ok (place, .folder entries)) :
    tree.makeFolders path = (tree, none) := by
  obtain ⟨sound, walk, stands⟩ := find_iff.mp found
  have folder := kind?_of_at? stands
  rw [makeFolders, if_neg (by simpa using sound.noNul)]
  rcases path.steps_eq with steps | steps
  · rw [steps, ← List.append_nil path.names]
    exact makeFoldersFrom_append walk.names folder []
  · rw [steps, makeFoldersFrom_append walk.names folder, makeFoldersFrom,
      walkWithin_here _ folder, walkWithin_nil _ stands]
    rfl

theorem makeFolders_below (found : tree.find path = .ok (place, .folder entries))
    {names : List String} (nonempty : names ≠ []) (plain : ∀ name ∈ names, IsPlain name) :
    tree.makeFolders (path.below names) =
      if ∃ name ∈ names, '\x00' ∈ name.toList then (tree, some .nulCharacter)
      else tree.makeFoldersFrom place names := by
  obtain ⟨sound, walk, stands⟩ := find_iff.mp found
  have folder := kind?_of_at? stands
  split
  · rename_i nul
    have inside : '\x00' ∈ (path.below names).text.toList :=
      (Path.mem_text_below plain (by decide)).mpr (.inr nul)
    rw [makeFolders, if_pos (by simpa using inside)]
  · rename_i clean
    have whole := (isSound_below sound plain).mpr fun name member nul => clean ⟨name, member, nul⟩
    rw [makeFolders, if_neg (by simpa using whole.noNul),
      startOf_below tree sound.notEmpty plain, Path.steps_below path nonempty plain]
    exact makeFoldersFrom_append walk.names folder names

end Below

/-! ## Hosted folders -/

/-- The path leads to the folder at a location, whatever stands there at the given names. -/
def Hosts (tree : FileTree) (path : Path) (own : List String) (location : Location) : Prop :=
  ∀ changed, tree.AgreesOutside location own changed →
    ∃ entries, changed.find path = .ok (location, .folder entries)

namespace Hosts

variable {own : List String} {location : Location} {changed : FileTree}

theorem find (hosts : tree.Hosts path own location) :
    ∃ entries, tree.find path = .ok (location, .folder entries) :=
  hosts tree (.refl _ _ _)

theorem of_agrees (hosts : tree.Hosts path own location)
    (agrees : tree.AgreesOutside location own changed) : changed.Hosts path own location :=
  fun later more => hosts later (agrees.trans more)

theorem kind? (hosts : tree.Hosts path own location) : tree.kind? location = some .folder := by
  obtain ⟨entries, found⟩ := hosts.find
  exact kind?_of_at? (find_iff.mp found).2.2

end Hosts

end FileTree
end SourceSearch
