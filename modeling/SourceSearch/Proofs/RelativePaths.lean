import SourceSearch.Proofs.Crawl.Paths
import SourceSearch.Proofs.FileTree.Made

/-!
# Paths below a root

The path of a file below a root is made of the components that follow those of the root.  It undoes
joining a path to the root, and it says which components follow but for `.`.  How the two paths are
spelled makes no difference.
-/

namespace SourceSearch
namespace Path

variable {path other root file : Path} {names more : List String} {text : String}

/-! ## Names among components -/

theorem isPlain_of_component? {piece : String} (inside : piece ∈ path.pieces)
    (is : component? piece = some (.name text)) : IsPlain text := by
  rw [component?] at is
  split_ifs at is with idle up
  · cases is
  · obtain rfl := Component.name.inj (Option.some.inj is)
    rw [not_or] at idle
    exact ⟨idle.1, idle.2, up, noSlash_of_mem_pieces inside⟩

/-- Every name among the components of a path is plain. -/
theorem isPlain_of_mem_components (member : .name text ∈ path.components) : IsPlain text := by
  have ordinary {rest : List String} (inside : rest ⊆ path.pieces)
      (member : .name text ∈ rest.filterMap component?) : IsPlain text := by
    obtain ⟨piece, listed, is⟩ := List.mem_filterMap.mp member
    exact isPlain_of_component? (inside listed) is
  rw [components] at member
  split at member
  · cases member
  · cases member
  · rename_i split
    rw [List.mem_cons, or_iff_right (by simp)] at member
    exact ordinary (split ▸ List.subset_cons_self ..) member
  · rename_i split
    rw [List.mem_cons, or_iff_right (by simp)] at member
    exact ordinary (split ▸ List.subset_cons_self ..) member
  · exact ordinary (List.Subset.refl _) member

/-! ## Spellings -/

/-- Another spelling of a path has one more slash, or `.` as a step of its own. -/
inductive Respelled : Path → Path → Prop
  /-- Between two steps. -/
  | between {idle : String} (idles : isIdle idle = true) (front rest : String) :
      Respelled ⟨front ++ "/" ++ rest⟩ ⟨front ++ "/" ++ idle ++ "/" ++ rest⟩
  /-- At the end. -/
  | atEnd {idle : String} (idles : isIdle idle = true) {front : String} (given : front ≠ "") :
      Respelled ⟨front⟩ ⟨front ++ "/" ++ idle⟩

theorem pieces_append_slash (front rest : String) :
    (⟨front ++ "/" ++ rest⟩ : Path).pieces =
      (⟨front⟩ : Path).pieces ++ (⟨rest⟩ : Path).pieces := by
  have split : (front ++ "/" ++ rest).toList = front.toList ++ '/' :: rest.toList := by simp
  rw [pieces, split, List.splitOn_append_cons_self, List.map_append]
  rfl

theorem pieces_of_isIdle {idle : String} (idles : isIdle idle = true) :
    (⟨idle⟩ : Path).pieces = [idle] := by
  rw [isIdle, Bool.or_eq_true, beq_iff_eq, beq_iff_eq] at idles
  rcases idles with rfl | rfl
  · decide
  · decide

/-- An idle piece makes no difference after the first place. -/
theorem components_eq_of_idle {front rest : List String} {idle : String}
    (idles : isIdle idle = true) (nonempty : front ≠ []) (given : path.pieces ≠ [""])
    (pieces : path.pieces = front ++ rest) (respelled : other.pieces = front ++ idle :: rest) :
    other.components = path.components := by
  have silent : component? idle = none := by
    rw [isIdle, Bool.or_eq_true, beq_iff_eq, beq_iff_eq] at idles
    exact if_pos idles
  obtain ⟨first, front, rfl⟩ := List.exists_cons_of_ne_nil nonempty
  rw [List.cons_append] at pieces respelled
  rw [components_cons given pieces, components_cons (by simp [respelled]) respelled,
    List.filterMap_append, List.filterMap_append, List.filterMap_cons_none silent]

theorem Respelled.components_eq (respelled : Respelled path other) :
    other.components = path.components := by
  cases respelled with
  | @between idle idles front rest =>
      have long : (⟨front ++ "/" ++ rest⟩ : Path).pieces ≠ [""] := by
        rw [ne_eq, pieces_eq_iff]
        simp
      refine components_eq_of_idle idles ?_ long (pieces_append_slash front rest) ?_
      · simp [pieces, List.splitOn_ne_nil]
      · rw [pieces_append_slash, pieces_append_slash, pieces_of_isIdle idles, List.append_assoc,
          List.singleton_append]
  | @atEnd idle idles front given =>
      have nonempty : (⟨front⟩ : Path).pieces ≠ [] := by simp [pieces, List.splitOn_ne_nil]
      refine components_eq_of_idle idles nonempty ?_ (List.append_nil _).symm ?_
      · rwa [ne_eq, pieces_eq_iff]
      · rw [pieces_append_slash, pieces_of_isIdle idles]

/-! ## Paths that go on -/

/-- A path goes on from a root by names, with nothing but `.` beside them. -/
def GoesOnBy (root file : Path) (names : List String) : Prop :=
  ∃ rest, file.components = root.components ++ rest ∧
    rest.filter (· ≠ .here) = names.map Component.name

theorem Component.name?_eq_some_iff {component : Component} :
    component.name? = some text ↔ component = .name text := by
  cases component <;> simp [name?]

theorem mapM_name?_eq_some_iff {components : List Component} :
    components.mapM Component.name? = some names ↔ components = names.map .name := by
  induction components generalizing names with
  | nil => cases names <;> simp
  | cons component rest ih =>
      simp only [List.mapM_cons, Option.bind_eq_bind, Option.bind_eq_some_iff, Option.pure_def,
        Option.some_inj, ih, Component.name?_eq_some_iff]
      constructor
      · rintro ⟨name, rfl, later, rfl, rfl⟩
        rfl
      · intro whole
        cases names with
        | nil => cases whole
        | cons name later =>
            obtain ⟨rfl, rfl⟩ := List.cons.inj whole
            exact ⟨name, rfl, later, rfl, rfl⟩

theorem strip?_eq_some_iff {rest : List Component} :
    file.strip? root = some rest ↔ file.components = root.components ++ rest := by
  rw [strip?]
  constructor
  · intro strips
    split at strips
    · rename_i goes
      obtain ⟨later, whole⟩ := goes
      rw [← whole, List.drop_left, Option.some_inj] at strips
      rw [← whole, strips]
    · cases strips
  · intro whole
    rw [whole, if_pos (List.prefix_append ..), List.drop_left]

theorem namesBelow?_eq_some_iff :
    file.namesBelow? root = some names ↔ names ≠ [] ∧ root.GoesOnBy file names := by
  have opens : file.namesBelow? root = some names ↔ ∃ rest, file.strip? root = some rest ∧
      ∃ found, (rest.filter (· ≠ .here)).mapM Component.name? = some found ∧
        (if found.isEmpty then none else some found) = some names := by
    simp only [namesBelow?, Option.bind_eq_bind, Option.bind_eq_some_iff]
  rw [opens]
  constructor
  · rintro ⟨rest, strips, found, named, whole⟩
    split at whole
    · cases whole
    · rename_i nonempty
      cases whole
      exact ⟨fun empty => nonempty (List.isEmpty_iff.mpr empty), rest,
        strip?_eq_some_iff.mp strips, mapM_name?_eq_some_iff.mp named⟩
  · rintro ⟨nonempty, rest, strips, named⟩
    refine ⟨rest, strip?_eq_some_iff.mpr strips, names, mapM_name?_eq_some_iff.mpr named, ?_⟩
    rw [if_neg (by simpa using nonempty)]

theorem GoesOnBy.isPlain (goesOn : root.GoesOnBy file names) : ∀ name ∈ names, IsPlain name := by
  obtain ⟨rest, whole, named⟩ := goesOn
  intro name member
  have inside : .name name ∈ rest.filter (· ≠ .here) := named ▸ List.mem_map_of_mem member
  have below : .name name ∈ file.components := by
    rw [whole]
    exact List.mem_append_right _ (List.mem_filter.mp inside).1
  exact isPlain_of_mem_components below

/-- A root that the names are joined to differs from the path by `.` only. -/
theorem GoesOnBy.components_below (goesOn : root.GoesOnBy file names) :
    (root.below names).components.filter (· ≠ .here) = file.components.filter (· ≠ .here) := by
  have plain := goesOn.isPlain
  obtain ⟨rest, whole, named⟩ := goesOn
  have stays : (names.map Component.name).filter (· ≠ .here) = names.map Component.name := by
    rw [← named, List.filter_filter]
    simp
  rw [Path.components_below root plain, whole, List.filter_append, List.filter_append, named, stays]

end Path

open SourceSearch.Path

variable {file root other : Path} {names : List String} {relative : String}

theorem toOption_pathBelow (file root : Path) :
    (pathBelow file root).toOption = (file.namesBelow? root).map ("/".intercalate ·) := by
  rw [pathBelow]
  cases file.namesBelow? root <;> rfl

theorem pathBelow_eq_ok_iff : pathBelow file root = .ok relative ↔
    ∃ names, names ≠ [] ∧ root.GoesOnBy file names ∧ relative = "/".intercalate names := by
  rw [pathBelow]
  cases found : file.namesBelow? root with
  | none =>
      simp only [reduceCtorEq, false_iff, not_exists, not_and]
      intro names nonempty goesOn
      rw [namesBelow?_eq_some_iff.mpr ⟨nonempty, goesOn⟩] at found
      cases found
  | some names =>
      have holds := namesBelow?_eq_some_iff.mp found
      simp only [Except.ok.injEq]
      constructor
      · rintro rfl
        exact ⟨names, holds.1, holds.2, rfl⟩
      · rintro ⟨names', nonempty, goesOn, rfl⟩
        rw [namesBelow?_eq_some_iff.mpr ⟨nonempty, goesOn⟩, Option.some_inj] at found
        rw [found]

theorem pathBelow_eq_error_iff {failure : Failure} : pathBelow file root = .error failure ↔
    failure = .outside file root ∧ ∀ names, root.GoesOnBy file names → names = [] := by
  have nothing : file.namesBelow? root = none ↔
      ∀ names, root.GoesOnBy file names → names = [] := by
    simp only [Option.eq_none_iff_forall_ne_some, ne_eq, namesBelow?_eq_some_iff, not_and', not_not]
  rw [pathBelow, ← nothing]
  cases found : file.namesBelow? root with
  | none => simp [eq_comm]
  | some names => simp

/-- How the path of a file below a root depends on both. -/
structure InvertsJoin (file root : Path) : Prop where
  /-- It consists of the names that the file goes on by from the root. -/
  ok_iff : ∀ relative, pathBelow file root = .ok relative ↔
    ∃ names, names ≠ [] ∧ root.GoesOnBy file names ∧ relative = "/".intercalate names
  /-- Where there are none, or not only names, it is refused. -/
  error_iff : ∀ failure, pathBelow file root = .error failure ↔
    failure = .outside file root ∧ ∀ names, root.GoesOnBy file names → names = []
  /-- The refusal names both paths. -/
  message : (Failure.outside file root).message =
    "Path error: " ++ file.text ++ " is not located below " ++ root.text
  /-- It undoes joining names to the root. -/
  ofJoin : ∀ names, names ≠ [] → (∀ name ∈ names, IsPlain name) →
    pathBelow (root / "/".intercalate names) root = .ok ("/".intercalate names)
  /-- Joining it to the root leads to the file again. -/
  join : ∀ relative, pathBelow file root = .ok relative →
    (root / relative).components.filter (· ≠ .here) = file.components.filter (· ≠ .here)
  /-- Files with the same one go on from the root alike. -/
  injective : ∀ other relative, pathBelow file root = .ok relative →
    pathBelow other root = .ok relative →
    ∃ rest later, file.components = root.components ++ rest ∧
      other.components = root.components ++ later ∧
      rest.filter (· ≠ .here) = later.filter (· ≠ .here)
  /-- It is the same however the file is spelled. -/
  respelledFile : ∀ other, Respelled file other →
    (pathBelow other root).toOption = (pathBelow file root).toOption
  /-- It is the same however the root is spelled. -/
  respelledRoot : ∀ other, Respelled root other →
    (pathBelow file other).toOption = (pathBelow file root).toOption

/-- The path of a file below a root inverts joining, whatever the file and the root. -/
theorem pathBelow_invertsJoin (file root : Path) : InvertsJoin file root where
  ok_iff relative := pathBelow_eq_ok_iff
  error_iff failure := pathBelow_eq_error_iff
  message := rfl
  ofJoin names nonempty plain := by
    rw [← below_eq_join root nonempty plain]
    exact (pathBelow_below_iff plain).mpr ⟨nonempty, rfl⟩
  join relative found := by
    obtain ⟨names, nonempty, goesOn, rfl⟩ := pathBelow_eq_ok_iff.mp found
    rw [← below_eq_join root nonempty goesOn.isPlain]
    exact goesOn.components_below
  injective other relative first second := by
    obtain ⟨names, nonempty, goesOn, rfl⟩ := pathBelow_eq_ok_iff.mp first
    obtain ⟨names', nonempty', goesOn', same⟩ := pathBelow_eq_ok_iff.mp second
    obtain rfl := eq_of_intercalate nonempty nonempty' goesOn.isPlain goesOn'.isPlain same
    obtain ⟨rest, whole, named⟩ := goesOn
    obtain ⟨later, whole', named'⟩ := goesOn'
    exact ⟨rest, later, whole, whole', named.trans named'.symm⟩
  respelledFile other respelled := by
    rw [toOption_pathBelow, toOption_pathBelow, namesBelow?, strip?, respelled.components_eq]
    rfl
  respelledRoot other respelled := by
    rw [toOption_pathBelow, toOption_pathBelow, namesBelow?, strip?, respelled.components_eq]
    rfl

example : pathBelow ⟨"/crawl//a/./b.h/"⟩ ⟨"/crawl/."⟩ = .ok "a/b.h" := by decide

end SourceSearch
