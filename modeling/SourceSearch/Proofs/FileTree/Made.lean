import SourceSearch.Proofs.FileTree.Writes
import SourceSearch.Proofs.Words

/-!
# Folders that are made on demand

A path that goes on from one that leads nowhere leads nowhere either, and for the same reason.
Making a folder leaves all that stands there, so what is written below it is the same whether it
has been made before or is made on the way.  A folder that holds nothing is hosted, whatever comes
to stand in it.
-/

namespace SourceSearch

/-! ## Steps of a path -/

namespace Path

/-- No piece of a path holds a slash. -/
theorem noSlash_of_mem_pieces {path : Path} {piece : String} (member : piece ∈ path.pieces) :
    '/' ∉ piece.toList := by
  intro slash
  obtain ⟨characters, split, rfl⟩ := List.mem_map.mp member
  rw [List.splitOn_eq_splitOnP] at split
  rw [String.toList_ofList] at slash
  simpa using Text.not_of_mem_splitOnP split '/' slash

/-- Every step of a path that can be looked up is a name, the folder itself, or the one above. -/
theorem isPlain_of_mem_steps {path : Path} {step : String} (member : step ∈ path.steps)
    (notHere : step ≠ ".") (notUp : step ≠ "..") : IsPlain step := by
  have named : step ∈ path.names := by
    rcases path.steps_eq with steps | steps
    · rwa [steps] at member
    · rw [steps, List.mem_append, List.mem_singleton] at member
      exact member.resolve_right notHere
  obtain ⟨inside, notEmpty⟩ := List.mem_filter.mp named
  exact ⟨by simpa using notEmpty, notHere, notUp, noSlash_of_mem_pieces inside⟩

theorem noNul_of_mem_steps {path : Path} (clean : '\x00' ∉ path.text.toList) {step : String}
    (member : step ∈ path.steps) : '\x00' ∉ step.toList := by
  have named : step ∈ path.names ∨ step = "." := by
    rcases path.steps_eq with steps | steps
    · exact .inl (steps ▸ member)
    · rwa [steps, List.mem_append, List.mem_singleton] at member
  rcases named with named | rfl
  · obtain ⟨piece, split, rfl⟩ := List.mem_map.mp (List.mem_filter.mp named).1
    rw [List.splitOn_eq_splitOnP] at split
    rw [String.toList_ofList]
    exact fun nul => clean (((Text.infix_splitOnP _ _).2 piece split).subset nul)
  · decide

end Path

namespace FileTree

variable {tree made : FileTree} {root : Path} {location : Location} {followLast : Bool}
  {links : Nat}

/-! ## Walks that lead nowhere -/

/-- What a step does in a folder that is there: it is refused, it goes on from somewhere, it finds
nothing, or it meets a link. -/
theorem walkWithin_cons_cases (stands : tree.kind? location ≠ none) (step : String) :
    (∃ fault, ∀ links followLast rest,
      tree.walkWithin followLast links location (step :: rest) = .error fault) ∨
    (∃ next, tree.kind? next ≠ none ∧ ∀ links followLast rest,
      tree.walkWithin followLast links location (step :: rest) =
        tree.walkWithin followLast links next rest) ∨
    tree.kind? location = some .folder ∧ IsLookedUp step ∧
      (tree.kind? (location ++ [step]) = none ∨
        ∃ target, tree.kind? (location ++ [step]) = some (.link target)) := by
  by_cases folder : tree.kind? location = some .folder
  · by_cases here : step = "."
    · subst here
      exact .inr (.inl ⟨location, stands, fun links _ => walkWithin_here links folder⟩)
    by_cases up : step = ".."
    · subst up
      refine .inr (.inl ⟨location.dropLast, ?_, fun links _ => walkWithin_up links folder⟩)
      rcases List.eq_nil_or_concat location with rfl | ⟨front, last, rfl⟩
      · exact stands
      · rw [List.concat_eq_append] at folder
        rw [List.concat_eq_append, List.dropLast_concat, kind?_of_append folder]
        simp
    by_cases short : step.utf8ByteSize ≤ maxNameBytes
    · have lookedUp : IsLookedUp step := ⟨here, up, short⟩
      cases found : tree.kind? (location ++ [step]) with
      | none => exact .inr (.inr ⟨folder, lookedUp, .inl rfl⟩)
      | some kind =>
          by_cases link : ∃ target, kind = .link target
          · obtain ⟨target, rfl⟩ := link
            exact .inr (.inr ⟨folder, lookedUp, .inr ⟨target, rfl⟩⟩)
          · exact .inr (.inl ⟨location ++ [step], by simp [found], fun links _ =>
              walkWithin_step links lookedUp found fun target is => link ⟨target, is⟩⟩)
    · exact .inl ⟨.nameTooLong, fun links _ =>
        walkWithin_long links folder here up (Nat.not_le.mp short)⟩
  · exact .inl ⟨.notFolder, fun links _ rest =>
      walkWithin_cons_of_not_folder links folder step rest⟩

theorem kind?_linkStart (stands : tree.kind? location ≠ none) (target : Path) :
    tree.kind? (linkStart location target) ≠ none := by
  rw [linkStart]
  split
  · simp
  · exact stands

/-- Why nothing is found where a walk ends. -/
def stop? : Except Fault Found → Option Fault
  | .ok (.node _ _) => none
  | .ok (.vacant _ _) => some .missing
  | .error fault => some fault

theorem stop?_eq_none_iff {found : Except Fault Found} :
    stop? found = none ↔ ∃ place node, found = .ok (.node place node) := by
  rcases found with fault | ⟨place, node⟩ | ⟨folder, name⟩ <;> simp [stop?]

theorem find_eq_error_iff {fault : Fault} :
    tree.find root = .error fault ↔ stop? (tree.resolve root true) = some fault := by
  rw [find]
  rcases tree.resolve root true with fault | ⟨place, node⟩ | ⟨folder, name⟩ <;> simp [stop?]

theorem walkWithin_append_of_again {fault : Fault} {front rest : List String} (more : rest ≠ [])
    (again : ∀ start steps, tree.kind? start ≠ none →
      stop? (tree.afterLink true links start steps) = some fault →
      tree.afterLink followLast links start (steps ++ rest) = .error fault)
    (stands : tree.kind? location ≠ none)
    (stopped : stop? (tree.walkWithin true links location front) = some fault) :
    tree.walkWithin followLast links location (front ++ rest) = .error fault := by
  induction front generalizing location with
  | nil =>
      obtain ⟨kind, found⟩ := Option.ne_none_iff_exists'.mp stands
      obtain ⟨node, held, -⟩ := Option.map_eq_some_iff.mp found
      rw [walkWithin_nil _ held] at stopped
      cases stopped
  | cons step front ih =>
      rw [List.cons_append]
      rcases walkWithin_cons_cases stands step with
        ⟨reason, refused⟩ | ⟨next, there, goes⟩ | ⟨folder, lookedUp, absent | ⟨target, link⟩⟩
      · rw [refused] at stopped
        rw [refused, Option.some.inj stopped]
      · rw [goes] at stopped
        rw [goes]
        exact ih there stopped
      · rw [walkWithin_missing _ folder lookedUp absent] at stopped
        rw [walkWithin_missing _ folder lookedUp absent, if_neg (by simp [more])]
        split at stopped <;> exact congrArg Except.error (Option.some.inj stopped)
      · rw [walkWithin_follow _ lookedUp link (.inr rfl)] at stopped
        rw [walkWithin_follow _ lookedUp link (.inl (by simp [more])), ← List.append_assoc]
        exact again _ _ (kind?_linkStart stands target) stopped

/-- A walk that goes on from one that leads nowhere ends for the same reason. -/
theorem walkWithin_append_of_stop {fault : Fault} {front rest : List String} (more : rest ≠ [])
    (stands : tree.kind? location ≠ none)
    (stopped : stop? (tree.walkWithin true links location front) = some fault) :
    tree.walkWithin followLast links location (front ++ rest) = .error fault := by
  induction links generalizing location front with
  | zero =>
      refine walkWithin_append_of_again more (fun start steps _ stopped => ?_) stands stopped
      exact congrArg Except.error (Option.some.inj stopped)
  | succ links ih => exact walkWithin_append_of_again more (fun _ _ => ih) stands stopped

/-- Whether a path that leads nowhere ends in a slash makes no difference to what is below it. -/
theorem walkWithin_append_of_stop_steps {fault : Fault} {rest : List String} (more : rest ≠ [])
    (folder : tree.kind? location = some .folder)
    (stopped : stop? (tree.walkWithin true links location root.steps) = some fault) :
    tree.walkWithin followLast links location (root.names ++ rest) = .error fault := by
  have stands : tree.kind? location ≠ none := by simp [folder]
  rcases root.steps_eq with steps | steps
  · exact walkWithin_append_of_stop more stands (steps ▸ stopped)
  · rw [steps] at stopped
    cases front : stop? (tree.walkWithin true links location root.names) with
    | some reason =>
        rw [walkWithin_append_of_stop (by simp) stands front] at stopped
        rw [walkWithin_append_of_stop more stands front, Option.some.inj stopped]
    | none =>
        obtain ⟨place, node, reached⟩ := stop?_eq_none_iff.mp front
        obtain ⟨walk, held⟩ := arrives_iff.mp reached
        obtain ⟨left, -, goes⟩ := walk.append
        rw [goes true _ (by simp)] at stopped
        rw [goes _ _ more]
        obtain ⟨first, others, rfl⟩ := List.exists_cons_of_ne_nil more
        by_cases inside : tree.kind? place = some .folder
        · rw [walkWithin_here _ inside, walkWithin_nil _ held] at stopped
          cases stopped
        · rw [walkWithin_cons_of_not_folder _ inside] at stopped ⊢
          exact congrArg Except.error (Option.some.inj stopped)

/-- Below a path that leads nowhere nothing is found, for the same reason. -/
theorem resolve_below_of_error (starts : tree.kind? (tree.startOf root) = some .folder)
    (sound : root.IsSound) {fault : Fault} (failed : tree.find root = .error fault)
    {names : List String} (nonempty : names ≠ []) (plain : ∀ name ∈ names, IsPlain name)
    (clean : ∀ name ∈ names, '\x00' ∉ name.toList) :
    tree.resolve (root.below names) followLast = .error fault := by
  rw [find_eq_error_iff, resolve_of_isSound tree sound] at failed
  rw [resolve_of_isSound tree ((isSound_below sound plain).mpr clean),
    startOf_below tree sound.notEmpty plain, Path.steps_below root nonempty plain]
  exact walkWithin_append_of_stop_steps nonempty starts failed

/-! ## Making folders -/

theorem vacant_of_again {steps : List String} {above : Location} {name : String}
    (again : ∀ start steps, tree.kind? start ≠ none →
      tree.afterLink true links start steps = .ok (.vacant above name) →
      tree.kind? above = some .folder ∧ IsLookedUp name ∧ tree.kind? (above ++ [name]) = none)
    (stands : tree.kind? location ≠ none)
    (ends : tree.walkWithin true links location steps = .ok (.vacant above name)) :
    tree.kind? above = some .folder ∧ IsLookedUp name ∧ tree.kind? (above ++ [name]) = none := by
  induction steps generalizing location with
  | nil =>
      obtain ⟨kind, found⟩ := Option.ne_none_iff_exists'.mp stands
      obtain ⟨node, held, -⟩ := Option.map_eq_some_iff.mp found
      rw [walkWithin_nil _ held] at ends
      cases ends
  | cons step rest ih =>
      rcases walkWithin_cons_cases stands step with
        ⟨reason, refused⟩ | ⟨next, there, goes⟩ | ⟨folder, lookedUp, absent | ⟨target, link⟩⟩
      · rw [refused] at ends
        cases ends
      · exact ih there (goes _ _ _ ▸ ends)
      · rw [walkWithin_missing _ folder lookedUp absent] at ends
        split at ends
        · cases ends
          exact ⟨folder, lookedUp, absent⟩
        · cases ends
      · rw [walkWithin_follow _ lookedUp link (.inr rfl)] at ends
        exact again _ _ (kind?_linkStart stands target) ends

/-- Where a walk finds nothing of a name there is a folder without that name. -/
theorem vacant_of_walkWithin {steps : List String} {above : Location} {name : String}
    (stands : tree.kind? location ≠ none)
    (ends : tree.walkWithin true links location steps = .ok (.vacant above name)) :
    tree.kind? above = some .folder ∧ IsLookedUp name ∧ tree.kind? (above ++ [name]) = none := by
  induction links generalizing location steps with
  | zero => exact vacant_of_again (fun _ _ _ ends => by cases ends) stands ends
  | succ links ih => exact vacant_of_again (fun _ _ => ih) stands ends

/-- A step that takes nothing away. -/
structure Grows (before after : FileTree) : Prop where
  /-- Paths start from the same folder. -/
  home : after.home = before.home
  /-- Whatever stood there stands there. -/
  keeps : ∀ place kind, before.kind? place = some kind → after.kind? place = some kind
  /-- Names are proper. -/
  named : before.WellNamed → after.WellNamed

namespace Grows

theorem refl (tree : FileTree) : Grows tree tree := ⟨rfl, fun _ _ stands => stands, id⟩

theorem trans {before between after : FileTree} (first : Grows before between)
    (second : Grows between after) : Grows before after :=
  ⟨second.home.trans first.home,
    fun place kind stands => second.keeps place kind (first.keeps place kind stands),
    second.named ∘ first.named⟩

theorem putFolder {front : Location} {name : String} (above : tree.kind? front = some .folder)
    (vacant : tree.kind? (front ++ [name]) = none) (proper : IsName name) :
    Grows tree (tree.put (front ++ [name]) (.folder [])) :=
  ⟨home_alter _ _ _, fun _ _ stands => (kind?_put_emptyFolder above vacant).mpr (.inl stands),
    fun named => named.put front proper FileNode.wellNamed_emptyFolder⟩

end Grows

/-- The first of the folders that are made is there already, or it is made. -/
theorem makeFoldersFrom_cons_ok (stands : tree.kind? location ≠ none) {step : String}
    {rest : List String} (run : tree.makeFoldersFrom location (step :: rest) = (made, none)) :
    (∃ next, tree.Arrives true maxLinks location [step] next ∧
      tree.kind? next = some .folder ∧ tree.makeFoldersFrom next rest = (made, none)) ∨
    tree.kind? location = some .folder ∧ IsLookedUp step ∧
      tree.kind? (location ++ [step]) = none ∧
      (tree.put (location ++ [step]) (.folder [])).makeFoldersFrom (location ++ [step]) rest =
        (made, none) := by
  rw [makeFoldersFrom] at run
  split at run
  · rename_i next entries reached
    obtain ⟨walk, held⟩ := arrives_iff.mp reached
    exact .inl ⟨next, walk, kind?_of_at? held, run⟩
  · cases run
  · rename_i above name ends
    split at run
    · rename_i here
      obtain ⟨rfl, rfl⟩ := here
      obtain ⟨folder, lookedUp, absent⟩ := vacant_of_walkWithin stands ends
      exact .inr ⟨folder, lookedUp, absent, run⟩
    · cases run
  · cases run

theorem makeFoldersFrom_of_arrives {step : String} {next : Location}
    (walk : tree.Arrives true maxLinks location [step] next)
    (folder : tree.kind? next = some .folder) (rest : List String) :
    tree.makeFoldersFrom location (step :: rest) = tree.makeFoldersFrom next rest :=
  makeFoldersFrom_append walk folder rest

/-- Folders that have been made need not be made again. -/
theorem makeFoldersFrom_ok {steps : List String} (stands : tree.kind? location ≠ none)
    (proper : ∀ step ∈ steps, IsLookedUp step → IsName step)
    (run : tree.makeFoldersFrom location steps = (made, none)) :
    Grows tree made ∧ ∀ rest, tree.makeFoldersFrom location (steps ++ rest) =
      made.makeFoldersFrom location (steps ++ rest) := by
  induction steps generalizing tree location with
  | nil =>
      cases run
      exact ⟨.refl _, fun _ => rfl⟩
  | cons step steps ih =>
      rw [List.forall_mem_cons] at proper
      rcases makeFoldersFrom_cons_ok stands run with
        ⟨next, walk, folder, onward⟩ | ⟨above, lookedUp, absent, onward⟩
      · obtain ⟨grows, same⟩ := ih (by simp [folder]) proper.2 onward
        refine ⟨grows, fun rest => ?_⟩
        rw [List.cons_append, makeFoldersFrom_of_arrives walk folder, makeFoldersFrom_of_arrives
          (walk.grow grows.keeps) (grows.keeps _ _ folder), same]
      · have fresh : (tree.put (location ++ [step]) (.folder [])).kind? (location ++ [step]) =
            some .folder := (kind?_put_emptyFolder above absent).mpr (.inr ⟨rfl, rfl⟩)
        obtain ⟨grows, same⟩ := ih (by simp [fresh]) proper.2 onward
        have whole : Grows tree made :=
          (Grows.putFolder above absent (proper.1 lookedUp)).trans grows
        refine ⟨whole, fun rest => ?_⟩
        have there := grows.keeps _ _ fresh
        have walk : made.Arrives true maxLinks location [step] (location ++ [step]) :=
          .step lookedUp there (by simp) (.done there)
        rw [List.cons_append, makeFoldersFrom_of_arrives walk there, ← same, makeFoldersFrom,
          walkWithin_missing _ above lookedUp absent]
        simp

/-- A slash at the end of a path makes no difference to the folders that are made. -/
theorem makeFoldersFrom_front {front : List String} (stands : tree.kind? location ≠ none)
    (run : tree.makeFoldersFrom location (front ++ ["."]) = (made, none)) :
    tree.makeFoldersFrom location front = (made, none) := by
  induction front generalizing tree location with
  | nil =>
      rcases makeFoldersFrom_cons_ok stands run with ⟨next, -, -, ends⟩ | ⟨-, lookedUp, -⟩
      · exact ends
      · exact absurd rfl lookedUp.1
  | cons step front ih =>
      rcases makeFoldersFrom_cons_ok stands run with
        ⟨next, walk, folder, onward⟩ | ⟨above, lookedUp, absent, onward⟩
      · rw [makeFoldersFrom_of_arrives walk folder]
        exact ih (by simp [folder]) onward
      · have fresh : (tree.put (location ++ [step]) (.folder [])).kind? (location ++ [step]) =
            some .folder := (kind?_put_emptyFolder above absent).mpr (.inr ⟨rfl, rfl⟩)
        rw [makeFoldersFrom, walkWithin_missing _ above lookedUp absent]
        simpa using ih (by simp [fresh]) onward

/-- A folder that is missing and can be made: then it is there, and it holds nothing. -/
structure IsMade (tree : FileTree) (root : Path) (location : Location)
    (made : FileTree) : Prop where
  /-- The folder is not there. -/
  missing : tree.find root = .error .missing
  /-- It can be made. -/
  makes : tree.makeFolders root = (made, none)
  /-- It is found to hold nothing. -/
  found : made.find root = .ok (location, .folder [])

namespace IsMade

variable (is : tree.IsMade root location made)

include is

theorem sound : root.IsSound := (find_iff.mp is.found).1

theorem makeFoldersFrom_eq :
    tree.makeFoldersFrom (tree.startOf root) root.steps = (made, none) := by
  have makes := is.makes
  rwa [makeFolders, if_neg (by simpa using is.sound.noNul)] at makes

theorem starts : tree.kind? (tree.startOf root) = some .folder := by
  have run := is.makeFoldersFrom_eq
  cases steps : root.steps with
  | nil =>
      rw [steps] at run
      cases run
      exact absurd (is.missing.symm.trans is.found) (by simp)
  | cons step rest =>
      refine Classical.byContradiction fun notFolder => ?_
      rw [steps, makeFoldersFrom, walkWithin_cons_of_not_folder _ notFolder] at run
      cases run

theorem makeFoldersFrom_names :
    Grows tree made ∧ ∀ rest, tree.makeFoldersFrom (tree.startOf root) (root.names ++ rest) =
      made.makeFoldersFrom (tree.startOf root) (root.names ++ rest) := by
  have stands : tree.kind? (tree.startOf root) ≠ none := by simp [is.starts]
  have run : tree.makeFoldersFrom (tree.startOf root) root.names = (made, none) := by
    have run := is.makeFoldersFrom_eq
    rcases root.steps_eq with steps | steps
    · rwa [steps] at run
    · exact makeFoldersFrom_front stands (steps ▸ run)
  refine makeFoldersFrom_ok stands (fun step member lookedUp => ?_) run
  have inside : step ∈ root.steps := by
    rcases root.steps_eq with steps | steps <;> simp [steps, member]
  exact ⟨Path.isPlain_of_mem_steps inside lookedUp.1 lookedUp.2.1,
    Path.noNul_of_mem_steps is.sound.noNul inside, lookedUp.2.2⟩

theorem grows : Grows tree made := is.makeFoldersFrom_names.1

/-- Folders below are the same whether they are made before or after. -/
theorem makeFolders_below_eq {names : List String} (nonempty : names ≠ [])
    (plain : ∀ name ∈ names, IsPlain name) (clean : ∀ name ∈ names, '\x00' ∉ name.toList) :
    tree.makeFolders (root.below names) = made.makeFolders (root.below names) := by
  have whole := (isSound_below is.sound plain).mpr clean
  have same : made.startOf root = tree.startOf root := by rw [startOf, startOf, is.grows.home]
  rw [makeFolders, makeFolders, if_neg (by simpa using whole.noNul),
    if_neg (by simpa using whole.noNul), startOf_below tree is.sound.notEmpty plain,
    startOf_below made is.sound.notEmpty plain, same, Path.steps_below root nonempty plain]
  exact is.makeFoldersFrom_names.2 names

/-- A file below the folder is written as if the folder had been made before. -/
theorem runOn_writeFile_below {front : List String} {last : String} (nonempty : front ≠ [])
    (proper : ∀ name ∈ front, IsName name) (plain : IsPlain last) (content : ByteArray) :
    (TaskM.writeFile (root.below (front ++ [last])) content).runOn tree =
      (TaskM.writeFile (root.below (front ++ [last])) content).runOn made := by
  have parent := root.parent?_below nonempty (fun name member => (proper name member).toIsPlain)
    plain
  rw [runOn_writeFile parent, runOn_writeFile parent, is.makeFolders_below_eq nonempty
    (fun name member => (proper name member).toIsPlain)
    fun name member => (proper name member).noNul]

/-- Nothing is read below the folder before it is made. -/
theorem read_below_eq_missing {names : List String} (nonempty : names ≠ [])
    (proper : ∀ name ∈ names, IsName name) :
    tree.read (root.below names) = .error .missing := by
  rw [read, find, resolve_below_of_error is.starts is.sound is.missing nonempty
    (fun name member => (proper name member).toIsPlain)
    fun name member => (proper name member).noNul]

end IsMade

/-! ## Empty folders -/

/-- Below an empty folder nothing stands. -/
theorem kind?_below_of_empty (found : tree.find root = .ok (location, .folder [])) (name : String)
    (rest : Location) : tree.kind? (location ++ name :: rest) = none := by
  rw [List.append_cons]
  exact kind?_append_of_none (by rw [kind?_snoc (find_iff.mp found).2.2]; rfl) rest

/-- An empty folder is hosted, whatever comes to stand in it. -/
theorem hosts_of_empty (found : tree.find root = .ok (location, .folder [])) (own : List String) :
    tree.Hosts root own location := by
  obtain ⟨sound, walk, held⟩ := find_iff.mp found
  intro changed agrees
  have keeps (place : Location) (kind : NodeKind) (stands : tree.kind? place = some kind) :
      changed.kind? place = some kind := by
    refine (agrees.2 place fun name _ below => ?_).trans stands
    obtain ⟨rest, rfl⟩ := below
    rw [List.append_assoc, List.singleton_append, kind?_below_of_empty found] at stands
    cases stands
  obtain ⟨entries, held'⟩ := at?_of_kind?_folder (keeps location .folder (kind?_of_at? held))
  refine ⟨entries, find_iff.mpr ⟨sound, ?_, held'⟩⟩
  rw [startOf, agrees.1]
  exact walk.grow keeps

end FileTree
end SourceSearch
