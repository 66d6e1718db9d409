import SourceSearch.FileTree.Task
import SourceSearch.Proofs.FileTree.Found

/-!
# Record folders

A record folder is layered: folders down to a fixed depth and files there, no links.  Reading a
record asks for the file at its place.  Writing one puts the file there or fails, and then no file
has changed, though folders may have been made.
-/

namespace SourceSearch
namespace FileTree

variable {tree before after : FileTree} {root : Path} {own : List String} {location : Location}
  {folder : String} {depth : Nat}

/-- The content of the file at a location. -/
def fileAt? (tree : FileTree) (place : Location) : Option ByteArray :=
  match tree.kind? place with
  | some (.file content) => some content
  | _ => none

/-- A regular file stands at the location, whether it may be opened or not. -/
def HasFile (tree : FileTree) (place : Location) : Prop :=
  ∃ kind, tree.kind? place = some kind ∧ kind.isFile = true

theorem fileAt?_eq_some_iff {place : Location} {content : ByteArray} :
    tree.fileAt? place = some content ↔ tree.kind? place = some (.file content) := by
  rw [fileAt?]
  split
  · rename_i held kind
    simp [kind]
  · rename_i other
    simp only [reduceCtorEq, false_iff]
    exact other content

theorem fileAt?_congr {changed : FileTree} {place : Location}
    (same : changed.kind? place = tree.kind? place) :
    changed.fileAt? place = tree.fileAt? place := by
  rw [fileAt?, fileAt?, same]

theorem AgreesOutside.fileAt?_below {own : List String} {changed : FileTree}
    (agrees : tree.AgreesOutside location own changed) {name : String} (other : name ∉ own)
    (rest : Location) :
    changed.fileAt? (location ++ name :: rest) = tree.fileAt? (location ++ name :: rest) :=
  fileAt?_congr (agrees.kind?_below other rest)

theorem fileAt?_of_none (missing : tree.kind? (location ++ [folder]) = none) (names : Location) :
    tree.fileAt? (location ++ folder :: names) = none := by
  rw [List.append_cons, fileAt?, kind?_append_of_none missing]

/-- In the folder of a name there are folders down to a depth, and files there. -/
def Layered (tree : FileTree) (location : Location) (folder : String) (depth : Nat) : Prop :=
  ∀ names kind, tree.kind? (location ++ folder :: names) = some kind →
    (names.length < depth ∧ kind = .folder) ∨
      (names.length = depth ∧ ∃ content, kind = .file content)

/-- There are no links in the folder of a name. -/
def Linkless (tree : FileTree) (location : Location) (folder : String) : Prop :=
  ∀ names target, tree.kind? (location ++ folder :: names) ≠ some (.link target)

theorem Layered.linkless (layered : tree.Layered location folder depth) :
    tree.Linkless location folder := by
  intro names target link
  rcases layered names _ link with ⟨-, kind⟩ | ⟨-, content, kind⟩ <;> cases kind

theorem Linkless.of_agrees (linkless : tree.Linkless location folder) {own : List String}
    {changed : FileTree} (agrees : tree.AgreesOutside location own changed)
    (other : folder ∉ own) : changed.Linkless location folder := by
  intro names target
  rw [agrees.kind?_below other]
  exact linkless names target

/-- A folder below is layered as well. -/
theorem Layered.below (layered : tree.Layered location folder (depth + 1)) (name : String) :
    tree.Layered (location ++ [folder]) name depth := by
  intro names kind stands
  rw [List.append_assoc] at stands
  simpa using layered (name :: names) kind stands

theorem layered_of_none (missing : tree.kind? (location ++ [folder]) = none) :
    tree.Layered location folder depth := by
  intro names kind stands
  rw [List.append_cons, kind?_append_of_none missing] at stands
  cases stands

theorem Layered.of_agrees (layered : tree.Layered location folder depth) {own : List String}
    {changed : FileTree} (agrees : tree.AgreesOutside location own changed)
    (other : folder ∉ own) : changed.Layered location folder depth := by
  intro names kind stands
  rw [agrees.kind?_below other] at stands
  exact layered names kind stands

/-! ## Walks without links -/

theorem isLookedUp_of_isName {name : String} (proper : IsName name) : IsLookedUp name :=
  ⟨proper.notHere, proper.notUp, proper.short⟩

/-- Along proper names and no links a walk arrives wherever something stands. -/
theorem arrives_below {place names : Location} {kind : NodeKind}
    (proper : ∀ name ∈ names, IsName name)
    (noLinks : ∀ front rest target, front ++ rest = names → front ≠ [] →
      tree.kind? (place ++ front) ≠ some (.link target))
    (stands : tree.kind? (place ++ names) = some kind) (followLast : Bool) (links : Nat) :
    tree.Arrives followLast links place names (place ++ names) := by
  induction names generalizing place with
  | nil =>
      rw [List.append_nil] at stands ⊢
      exact .done stands
  | cons name rest ih =>
      rw [List.forall_mem_cons] at proper
      obtain ⟨first, found⟩ : ∃ first, tree.kind? (place ++ [name]) = some first := by
        cases rest with
        | nil => exact ⟨kind, stands⟩
        | cons next rest =>
            rw [List.append_cons] at stands
            exact ⟨.folder, kind?_of_append stands⟩
      have notLink : ∀ target, first ≠ .link target := by
        rintro target rfl
        exact noLinks [name] rest target rfl (by simp) found
      rw [List.append_cons] at stands ⊢
      refine .step (isLookedUp_of_isName proper.1) found notLink
        (ih proper.2 (fun front rest' target whole _ => ?_) stands)
      rw [List.append_assoc]
      exact noLinks (name :: front) rest' target (by simp [← whole]) (by simp)

/-- Along plain names and no links a walk arrives nowhere else. -/
theorem Arrives.eq_below {place names reached : Location} {followLast : Bool} {links : Nat}
    (walk : tree.Arrives followLast links place names reached)
    (plain : ∀ name ∈ names, IsPlain name)
    (noLinks : ∀ front rest target, front ++ rest = names → front ≠ [] →
      tree.kind? (place ++ front) ≠ some (.link target)) :
    reached = place ++ names := by
  induction walk with
  | done stands => simp
  | here _ _ _ => exact absurd rfl (plain _ List.mem_cons_self).notHere
  | up _ _ _ => exact absurd rfl (plain _ List.mem_cons_self).notUp
  | step name found notLink walk ih =>
      rw [List.forall_mem_cons] at plain
      rw [ih plain.2 fun front rest' target whole more => ?_, List.append_assoc]
      · rfl
      · rw [List.append_assoc]
        exact noLinks (_ :: front) rest' target (by simp [← whole]) (by simp)
  | follow name found _ _ _ => exact absurd found (noLinks [_] _ _ rfl (by simp))
  | stay name found _ => exact absurd found (noLinks [_] _ _ rfl (by simp))

theorem Linkless.noLinks (linkless : tree.Linkless location folder) {names : Location} :
    ∀ front rest target, front ++ rest = folder :: names → front ≠ [] →
      tree.kind? (location ++ front) ≠ some (.link target) := by
  intro front rest target whole more
  cases front with
  | nil => exact absurd rfl more
  | cons first front =>
      obtain rfl := (List.cons.inj whole).1
      exact linkless front target

/-- A folder is hosted by the absolute path that spells its location. -/
theorem hosts_of_absolute {path : Path} (sound : path.IsSound) (absolute : path.isAbsolute = true)
    (steps : path.steps = location) (proper : ∀ name ∈ location, IsName name)
    (stands : tree.kind? location = some .folder) (own : List String) :
    tree.Hosts path own location := by
  intro changed agrees
  have folder : changed.kind? location = some .folder := agrees.kind?_folder.trans stands
  obtain ⟨entries, held⟩ := at?_of_kind?_folder folder
  have walk : changed.Arrives true maxLinks [] location ([] ++ location) := by
    refine arrives_below proper (fun front rest target whole _ link => ?_) folder true maxLinks
    rw [List.nil_append] at link
    cases rest with
    | nil =>
        rw [List.append_nil] at whole
        rw [whole, folder] at link
        cases link
    | cons next rest =>
        have above : changed.kind? front = some .folder := by
          rw [← whole] at folder
          exact kind?_of_append folder
        rw [above] at link
        cases link
  rw [List.nil_append] at walk
  exact ⟨entries, find_iff.mpr ⟨sound, by rwa [startOf, absolute, if_pos rfl, steps], held⟩⟩

/-! ## Reading -/

section Read

variable {entries : List (String × FileNode)} {names : List String}

/-- What stands at proper names is found there. -/
theorem find_below (found : tree.find root = .ok (location, .folder entries))
    (linkless : tree.Linkless location folder)
    (proper : ∀ name ∈ folder :: names, IsName name) {node : FileNode}
    (stands : tree.at? (location ++ folder :: names) = some node) :
    tree.find (root.below (folder :: names)) = .ok (location ++ folder :: names, node) := by
  obtain ⟨left, goes⟩ := resolve_below found
  have walk := arrives_below proper linkless.noLinks (kind?_of_at? stands) true left
  rw [find, goes true _ (by simp) (fun name member => (proper name member).toIsPlain)
    fun name member => (proper name member).noNul, arrives_iff.mpr ⟨walk, stands⟩]

/-- What is found at plain names stands there. -/
theorem at?_of_find_below (found : tree.find root = .ok (location, .folder entries))
    (linkless : tree.Linkless location folder)
    (plain : ∀ name ∈ folder :: names, IsPlain name) {place : Location} {node : FileNode}
    (reached : tree.find (root.below (folder :: names)) = .ok (place, node)) :
    tree.at? (location ++ folder :: names) = some node := by
  obtain ⟨left, goes⟩ := resolve_below found
  obtain ⟨sound, -, -⟩ := find_iff.mp reached
  have clean := (isSound_below (find_iff.mp found).1 plain).mp sound
  rw [find, goes true _ (by simp) plain clean] at reached
  split at reached
  · rename_i arrived
    cases reached
    obtain ⟨walk, stands⟩ := arrives_iff.mp arrived
    rwa [walk.eq_below plain linkless.noLinks] at stands
  · cases reached
  · cases reached

/-- A file that can be read shows the size of what is read. -/
theorem size?_of_read {path : Path} {content : ByteArray}
    (readable : tree.read path = .ok content) : tree.size? path = some content.size := by
  rw [read] at readable
  rw [size?]
  split at readable
  · rename_i found
    cases readable
    rw [found]
    rfl
  all_goals cases readable

theorem read_below (found : tree.find root = .ok (location, .folder entries))
    (linkless : tree.Linkless location folder)
    (proper : ∀ name ∈ folder :: names, IsName name) {content : ByteArray}
    (stands : tree.fileAt? (location ++ folder :: names) = some content) :
    tree.read (root.below (folder :: names)) = .ok content := by
  rw [read, find_below found linkless proper (at?_of_kind?_file (fileAt?_eq_some_iff.mp stands))]

theorem fileAt?_of_read_below (found : tree.find root = .ok (location, .folder entries))
    (linkless : tree.Linkless location folder)
    (plain : ∀ name ∈ folder :: names, IsPlain name) {content : ByteArray}
    (readable : tree.read (root.below (folder :: names)) = .ok content) :
    tree.fileAt? (location ++ folder :: names) = some content := by
  rw [read] at readable
  split at readable
  · rename_i place held reached
    cases readable
    exact fileAt?_eq_some_iff.mpr (kind?_of_at? (at?_of_find_below found linkless plain reached))
  · cases readable
  · cases readable
  · cases readable

/-- A record reads as the file at its place, and as a fault if there is none. -/
theorem toOption_read_below (found : tree.find root = .ok (location, .folder entries))
    (linkless : tree.Linkless location folder)
    (plain : ∀ name ∈ folder :: names, IsPlain name)
    (proper : (tree.fileAt? (location ++ folder :: names)).isSome →
      ∀ name ∈ folder :: names, IsName name) :
    (tree.read (root.below (folder :: names))).toOption =
      tree.fileAt? (location ++ folder :: names) := by
  cases held : tree.fileAt? (location ++ folder :: names) with
  | some content =>
      rw [read_below found linkless (proper (by simp [held])) held]
      rfl
  | none =>
      cases readable : tree.read (root.below (folder :: names)) with
      | error fault => rfl
      | ok content =>
          rw [fileAt?_of_read_below found linkless plain readable] at held
          cases held

/-- In a well-named tree files stand at proper names only. -/
theorem read_below_eq (named : tree.WellNamed)
    (found : tree.find root = .ok (location, .folder entries))
    (linkless : tree.Linkless location folder)
    (plain : ∀ name ∈ folder :: names, IsPlain name) :
    (tree.read (root.below (folder :: names))).toOption =
      tree.fileAt? (location ++ folder :: names) := by
  refine toOption_read_below found linkless plain fun held name member => ?_
  obtain ⟨content, held⟩ := Option.isSome_iff_exists.mp held
  have kind := fileAt?_eq_some_iff.mp held
  obtain ⟨front, rest, split⟩ := List.append_of_mem member
  rw [split, ← List.append_assoc] at kind
  exact named.isName kind

end Read

end FileTree
end SourceSearch
