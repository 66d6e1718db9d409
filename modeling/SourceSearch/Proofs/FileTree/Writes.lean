import SourceSearch.Proofs.FileTree.Records

/-!
# Writing record files

Writing the file of a record, with the folders on the way, and removing a record folder, as tasks:
what they change, what they leave, and when they succeed.
-/

namespace SourceSearch

/-! ## Running tasks -/

namespace DiskM

variable {α β : Type}

theorem bind_apply (task : DiskM α) (next : α → DiskM β) (tree : FileTree) :
    (task >>= next) tree = next (task tree).1 (task tree).2 := rfl

/-- A run through a list is a step and a run through the rest. -/
theorem foldlM_cons (step : β → α → DiskM β) (init : β) (a : α) (rest : List α)
    (tree : FileTree) :
    ((a :: rest).foldlM step init : DiskM β) tree =
      (rest.foldlM step (step init a tree).1 : DiskM β) (step init a tree).2 := rfl

end DiskM

namespace TaskM

variable {α β : Type} {tree : FileTree}

@[simp]
theorem runOn_pure (value : α) : (pure value : TaskM α).runOn tree = (.ok value, tree) := rfl

theorem runOn_bind (task : TaskM α) (next : α → TaskM β) :
    (task >>= next).runOn tree =
      match task.runOn tree with
      | (.ok value, changed) => (next value).runOn changed
      | (.error failure, changed) => (.error failure, changed) := by
  change (match task.runOn tree with
    | (outcome, changed) => (ExceptT.bindCont next outcome : StateM FileTree _) changed) = _
  rcases task.runOn tree with ⟨failure | value, changed⟩ <;> rfl

/-- A task in two parts that succeeds does so in both. -/
theorem bind_ok_iff {task : TaskM α} {next : α → TaskM β} {result : β} {after : FileTree} :
    (task >>= next).runOn tree = (.ok result, after) ↔
      ∃ value between, task.runOn tree = (.ok value, between) ∧
        (next value).runOn between = (.ok result, after) := by
  rw [runOn_bind]
  rcases task.runOn tree with ⟨failure | value, changed⟩
  · simp
  · constructor
    · intro run
      exact ⟨value, changed, rfl, run⟩
    · rintro ⟨_, _, ⟨⟩, run⟩
      exact run

/-- What is said of the result of a run is said of a run that succeeds. -/
theorem exists_of_map_toOption {run : Except Failure α × FileTree} {f : α → β} {outcome : β}
    (is : run.1.toOption.map f = some outcome) :
    ∃ result after, run = (.ok result, after) ∧ f result = outcome := by
  rcases run with ⟨failure | result, after⟩
  · cases is
  · exact ⟨result, after, rfl, Option.some.inj is⟩

@[simp]
theorem runOn_observe (look : FileTree → α) :
    (observe look).runOn tree = (.ok (look tree), tree) := rfl

@[simp]
theorem runOn_examine (look : FileTree → Except Failure α) :
    (examine look).runOn tree = (look tree, tree) := rfl

theorem runOn_change (refusal : Fault → Failure) (operation : FileTree → Except Fault FileTree) :
    (change refusal operation).runOn tree =
      match operation tree with
      | .ok changed => (.ok (), changed)
      | .error fault => (.error (refusal fault), tree) := rfl

theorem runOn_makeFolders (refusal : Fault → Failure) (path : Path) :
    (makeFolders refusal path).runOn tree =
      match tree.makeFolders path with
      | (changed, none) => (.ok (), changed)
      | (changed, some fault) => (.error (refusal fault), changed) := rfl

theorem runOn_removeFolder (path : Path) :
    (removeFolder path).runOn tree =
      match tree.removeFolder path with
      | .ok changed => (.ok (), changed)
      | .error .missing => (.ok (), tree)
      | .error fault =>
          (.error (.during s!"Failed to remove {path}" (.system fault)), tree) := rfl

theorem runOn_within (task : String) (part : TaskM α) :
    (within task part).runOn tree =
      match part.runOn tree with
      | (.ok value, changed) => (.ok value, changed)
      | (.error cause, changed) => (.error (.during task cause), changed) := by
  rw [within, runOn]
  simp only [tryCatch, tryCatchThe, MonadExceptOf.tryCatch, ExceptT.tryCatch, ExceptT.run_mk,
    StateT.run_bind]
  rcases run : part.runOn tree with ⟨failure | value, changed⟩ <;>
  · rw [runOn, ExceptT.run] at run
    rw [run]
    rfl

end TaskM

namespace FileTree

variable {tree before between after : FileTree} {root : Path} {own : List String}
  {location : Location} {folder : String} {depth : Nat}

/-! ## Steps in a record folder -/

/-- A step that changes nothing but one record folder, which stays layered. -/
structure StaysIn (location : Location) (folder : String) (depth : Nat)
    (before after : FileTree) : Prop where
  /-- All else is as before. -/
  agrees : before.AgreesOutside location [folder] after
  /-- There are files at the depth only. -/
  layered : before.Layered location folder depth → after.Layered location folder depth
  /-- Names are proper. -/
  named : before.WellNamed → after.WellNamed

namespace StaysIn

theorem refl (tree : FileTree) : StaysIn location folder depth tree tree :=
  ⟨.refl _ _ _, id, id⟩

theorem trans (first : StaysIn location folder depth before between)
    (second : StaysIn location folder depth between after) :
    StaysIn location folder depth before after :=
  ⟨first.agrees.trans second.agrees, second.layered ∘ first.layered, second.named ∘ first.named⟩

/-- A file is put at the depth of the folder. -/
theorem putFile {front : Location} {last : String}
    (above : tree.kind? (location ++ folder :: front) = some .folder) (proper : IsName last)
    (notFolder : tree.kind? (location ++ folder :: front ++ [last]) ≠ some .folder)
    (deep : front.length + 1 = depth) (content : ByteArray) :
    StaysIn location folder depth tree
      (tree.put (location ++ folder :: front ++ [last]) (.file content)) where
  agrees := by
    rw [List.append_assoc, List.cons_append]
    exact .alter tree location (by simp) (front ++ [last]) _
  layered layered names kind stands := by
    rw [kind?_put_file above notFolder] at stands
    split at stands
    · rename_i here
      obtain rfl : names = front ++ [last] := by simpa using here
      cases stands
      exact .inr ⟨by simpa using deep, content, rfl⟩
    · exact layered names kind stands
  named named := named.put _ proper (FileNode.wellNamed_file content)

end StaysIn

/-- A file at a place where no folder stands is the only file that changes. -/
theorem fileAt?_put_file {front : Location} {name : String}
    (above : tree.kind? front = some .folder)
    (notFolder : tree.kind? (front ++ [name]) ≠ some .folder) (content : ByteArray)
    (place : Location) :
    (tree.put (front ++ [name]) (.file content)).fileAt? place =
      if place = front ++ [name] then some content else tree.fileAt? place := by
  rw [fileAt?, kind?_put_file above notFolder]
  by_cases here : place = front ++ [name]
  · rw [if_pos here, if_pos here]
  · rw [if_neg here, if_neg here, fileAt?]

/-! ## Making folders -/

/-- An empty folder that is put where nothing stands is all that is new. -/
theorem kind?_put_emptyFolder {front : Location} {name : String}
    (above : tree.kind? front = some .folder) (vacant : tree.kind? (front ++ [name]) = none)
    {place : Location} {kind : NodeKind} :
    (tree.put (front ++ [name]) (.folder [])).kind? place = some kind ↔
      tree.kind? place = some kind ∨ kind = .folder ∧ place = front ++ [name] := by
  by_cases below : front ++ [name] <+: place
  · obtain ⟨rest, rfl⟩ := below
    rw [kind?_append_of_none vacant, List.append_assoc, List.singleton_append, kind?_put above]
    cases rest with
    | nil => simp [FileNode.kind, eq_comm]
    | cons next rest => simp
  · have other : place ≠ front ++ [name] := fun same => below (same ▸ List.prefix_rfl)
    rw [FileTree.put, kind?_alter_of_apart tree below]
    simp [other]

/-- New files and new folders are no links. -/
theorem Linkless.putFile (linkless : tree.Linkless location folder) (front : Location)
    {name : String} (above : tree.kind? front = some .folder)
    (vacant : tree.kind? (front ++ [name]) = none) (content : ByteArray) :
    (tree.put (front ++ [name]) (.file content)).Linkless location folder := by
  intro names target
  rw [kind?_put_file above (by simp [vacant])]
  split
  · simp
  · exact linkless names target

theorem Linkless.putEmptyFolder (linkless : tree.Linkless location folder) (front : Location)
    {name : String} (above : tree.kind? front = some .folder)
    (vacant : tree.kind? (front ++ [name]) = none) :
    (tree.put (front ++ [name]) (.folder [])).Linkless location folder := by
  intro names target link
  rcases (kind?_put_emptyFolder above vacant).mp link with before | ⟨other, -⟩
  · exact linkless names target before
  · cases other

/-- A step that makes folders on the way to a place below a record folder and changes nothing
else. -/
structure MakesFolders (location : Location) (folder : String) (names : List String)
    (before after : FileTree) : Prop where
  /-- Paths start from the same folder. -/
  home : after.home = before.home
  /-- Whatever stood there stands there. -/
  keeps : ∀ place kind, before.kind? place = some kind → after.kind? place = some kind
  /-- What is new is a folder on the way. -/
  makes : ∀ place kind, after.kind? place = some kind → before.kind? place = some kind ∨
    kind = .folder ∧ ∃ deeper, deeper <+: names ∧ place = location ++ folder :: deeper
  /-- Names are proper. -/
  named : before.WellNamed → after.WellNamed

namespace MakesFolders

variable {names : List String}

theorem refl (tree : FileTree) : MakesFolders location folder names tree tree :=
  ⟨rfl, fun _ _ stands => stands, fun _ _ stands => .inl stands, id⟩

theorem trans (first : MakesFolders location folder names before between)
    (second : MakesFolders location folder names between after) :
    MakesFolders location folder names before after where
  home := second.home.trans first.home
  keeps place kind stands := second.keeps place kind (first.keeps place kind stands)
  makes place kind stands := by
    rcases second.makes place kind stands with stands | new
    · exact first.makes place kind stands
    · exact .inr new
  named := second.named ∘ first.named

/-- One folder is made where nothing stands. -/
theorem put {front deeper : Location} {name : String}
    (whole : front ++ [name] = location ++ folder :: deeper) (onTheWay : deeper <+: names)
    (above : tree.kind? front = some .folder) (vacant : tree.kind? (front ++ [name]) = none)
    (proper : IsName name) :
    MakesFolders location folder names tree (tree.put (front ++ [name]) (.folder [])) := by
  refine ⟨home_alter _ _ _, fun place kind stands => (kind?_put_emptyFolder above vacant).mpr
    (.inl stands), fun place kind stands => ?_,
    fun named => named.put front proper FileNode.wellNamed_emptyFolder⟩
  rcases (kind?_put_emptyFolder above vacant).mp stands with stands | ⟨folderKind, here⟩
  · exact .inl stands
  · exact .inr ⟨folderKind, deeper, onTheWay, here.trans whole⟩

/-- What is no folder stood there before. -/
theorem kind?_of_not_folder (makes : MakesFolders location folder names before after)
    {place : Location} {kind : NodeKind} (stands : after.kind? place = some kind)
    (notFolder : kind ≠ .folder) : before.kind? place = some kind :=
  (makes.makes place kind stands).resolve_right fun new => notFolder new.1

/-- No regular file is new. -/
theorem hasFile (makes : MakesFolders location folder names before after) (place : Location) :
    after.HasFile place → before.HasFile place := by
  rintro ⟨kind, stands, isFile⟩
  refine ⟨kind, makes.kind?_of_not_folder stands ?_, isFile⟩
  rintro rfl
  cases isFile

/-- No file changes. -/
theorem fileAt?_eq (makes : MakesFolders location folder names before after) (place : Location) :
    after.fileAt? place = before.fileAt? place := by
  refine Option.ext fun content => ?_
  rw [fileAt?_eq_some_iff, fileAt?_eq_some_iff]
  constructor
  · exact fun stands => makes.kind?_of_not_folder stands (by simp)
  · exact makes.keeps place _

theorem agrees (makes : MakesFolders location folder names before after) :
    before.AgreesOutside location [folder] after := by
  refine ⟨makes.home, fun place apart => Option.ext fun kind => ⟨fun stands => ?_,
    makes.keeps place kind⟩⟩
  refine (makes.makes place kind stands).resolve_right ?_
  rintro ⟨-, deeper, -, rfl⟩
  exact apart folder (List.mem_singleton_self _) ⟨deeper, by simp⟩

theorem linkless (makes : MakesFolders location folder names before after)
    (linkless : before.Linkless location folder) : after.Linkless location folder :=
  fun others target stands => (makes.makes _ _ stands).elim (linkless others target)
    fun new => nomatch new.1

theorem stays (makes : MakesFolders location folder names before after)
    (fits : names.length < depth) : StaysIn location folder depth before after := by
  refine ⟨makes.agrees, fun layered others kind stands => ?_, makes.named⟩
  rcases makes.makes _ _ stands with stands | ⟨rfl, deeper, onTheWay, here⟩
  · exact layered others kind stands
  · obtain rfl : others = deeper := by simpa using here
    exact .inl ⟨Nat.lt_of_le_of_lt onTheWay.length_le fits, rfl⟩

end MakesFolders

/-- Folders cannot be made from a location on: a name is improper, or a file stands on the way. -/
def IsBlocked (tree : FileTree) (place : Location) (names : List String) : Prop :=
  (∃ name ∈ names, ¬ IsName name) ∨
    ∃ front, front <+: names ∧ tree.HasFile (place ++ front)

/-- What stops the folders after the first stops all of them. -/
theorem IsBlocked.cons {later : FileTree} {place : Location} {step : String} {rest : List String}
    (blocked : later.IsBlocked (place ++ [step]) rest)
    (files : ∀ place, later.HasFile place → tree.HasFile place) :
    tree.IsBlocked place (step :: rest) := by
  rcases blocked with ⟨name, member, improper⟩ | ⟨front, inside, file⟩
  · exact .inl ⟨name, List.mem_cons_of_mem _ member, improper⟩
  · rw [List.append_assoc, List.singleton_append] at file
    exact .inr ⟨step :: front, List.cons_prefix_cons.mpr ⟨rfl, inside⟩, files _ file⟩

/-- Where no link stands, the first of the folders is there or is made, unless its name is improper
or a file stands there. -/
theorem makeFoldersFrom_cons_of_plain {place : Location} {step : String}
    (stands : tree.kind? place = some .folder) (plain : IsPlain step)
    (clean : '\x00' ∉ step.toList)
    (notLink : ∀ target, tree.kind? (place ++ [step]) ≠ some (.link target)) (rest : List String) :
    tree.makeFoldersFrom place (step :: rest) =
      if IsName step then
        match tree.kind? (place ++ [step]) with
        | none => (tree.put (place ++ [step]) (.folder [])).makeFoldersFrom (place ++ [step]) rest
        | some .folder => tree.makeFoldersFrom (place ++ [step]) rest
        | some _ => (tree, some (if rest = [] then .occupied else .notFolder))
      else (tree, some .nameTooLong) := by
  rw [makeFoldersFrom]
  by_cases short : step.utf8ByteSize ≤ maxNameBytes
  · have lookedUp : IsLookedUp step := ⟨plain.notHere, plain.notUp, short⟩
    have proper : IsName step := ⟨plain, clean, short⟩
    rw [if_pos proper]
    cases kind : tree.kind? (place ++ [step]) with
    | none =>
        rw [walkWithin_missing _ stands lookedUp kind, if_pos rfl]
        exact if_pos ⟨rfl, rfl⟩
    | some found =>
        obtain ⟨node, held, isKind⟩ := Option.map_eq_some_iff.mp kind
        rw [walkWithin_step _ lookedUp kind fun target link => notLink target (link ▸ kind),
          walkWithin_nil _ held]
        cases found with
        | link target => exact absurd kind (notLink target)
        | file content => rw [FileNode.eq_file_of_kind isKind]
        | sealed size => rw [FileNode.eq_sealed_of_kind isKind]
        | folder =>
            obtain ⟨entries, rfl⟩ := FileNode.eq_folder_of_kind isKind
            rfl
  · have improper : ¬ IsName step := fun proper => short proper.short
    rw [walkWithin_long _ stands plain.notHere plain.notUp (Nat.not_le.mp short), if_neg improper]

/-- A name on the way to a place below a record folder is the folder's or below it. -/
theorem exists_deeper {done rest names : List String} {step : String}
    (whole : done ++ step :: rest = folder :: names) :
    ∃ deeper, done ++ [step] = folder :: deeper ∧ deeper <+: names := by
  have inside : done ++ [step] <+: folder :: names := ⟨rest, (List.append_cons ..).symm.trans whole⟩
  exact (List.prefix_cons_iff.mp inside).resolve_left (by simp)

/-- Making folders towards a record changes nothing else, and fails at improper names and files
only. -/
theorem makeFoldersFrom_spec {done rest names : List String}
    (whole : done ++ rest = folder :: names) (linkless : tree.Linkless location folder)
    (stands : tree.kind? (location ++ done) = some .folder)
    (plain : ∀ name ∈ rest, IsPlain name) (clean : ∀ name ∈ rest, '\x00' ∉ name.toList)
    {fault : Option Fault} (made : tree.makeFoldersFrom (location ++ done) rest = (after, fault)) :
    MakesFolders location folder names tree after ∧
      (fault = none → after.kind? (location ++ folder :: names) = some .folder ∧
        ∀ name ∈ rest, IsName name) ∧
      (fault ≠ none → tree.IsBlocked (location ++ done) rest) := by
  induction rest generalizing tree done with
  | nil =>
      cases made
      rw [List.append_nil] at whole
      exact ⟨.refl _, fun _ => ⟨whole ▸ stands, by simp⟩, fun failed => absurd rfl failed⟩
  | cons step rest ih =>
      rw [List.forall_mem_cons] at plain clean
      obtain ⟨deeper, split, onTheWay⟩ := exists_deeper whole
      rw [List.append_cons] at whole
      have below : location ++ done ++ [step] = location ++ folder :: deeper := by
        rw [List.append_assoc, split]
      have notLink : ∀ target, tree.kind? (location ++ done ++ [step]) ≠ some (.link target) :=
        below ▸ linkless deeper
      rw [makeFoldersFrom_cons_of_plain stands plain.1 clean.1 notLink] at made
      by_cases proper : IsName step
      · rw [if_pos proper] at made
        cases kind : tree.kind? (location ++ done ++ [step]) with
        | none =>
            rw [kind] at made
            have first : MakesFolders location folder names tree
                (tree.put (location ++ done ++ [step]) (.folder [])) :=
              .put below onTheWay stands kind proper
            have there : (tree.put (location ++ done ++ [step]) (.folder [])).kind?
                (location ++ done ++ [step]) = some .folder :=
              (kind?_put_emptyFolder stands kind).mpr (.inr ⟨rfl, rfl⟩)
            obtain ⟨later, arrives, fails⟩ := ih whole (first.linkless linkless)
              (by rwa [← List.append_assoc]) plain.2 clean.2 (by rwa [← List.append_assoc])
            rw [← List.append_assoc] at fails
            refine ⟨first.trans later, fun succeeded => ?_,
              fun failed => (fails failed).cons first.hasFile⟩
            rw [List.forall_mem_cons]
            exact ⟨(arrives succeeded).1, proper, (arrives succeeded).2⟩
        | some found =>
            rw [kind] at made
            cases found with
            | link target => exact absurd kind (notLink target)
            | file content =>
                cases made
                exact ⟨.refl _, nofun, fun _ => .inr ⟨[step], ⟨rest, rfl⟩, _, kind, rfl⟩⟩
            | sealed size =>
                cases made
                exact ⟨.refl _, nofun, fun _ => .inr ⟨[step], ⟨rest, rfl⟩, _, kind, rfl⟩⟩
            | folder =>
                obtain ⟨later, arrives, fails⟩ := ih whole linkless
                  (by rwa [← List.append_assoc]) plain.2 clean.2 (by rwa [← List.append_assoc])
                rw [← List.append_assoc] at fails
                refine ⟨later, fun succeeded => ?_, fun failed => (fails failed).cons fun _ => id⟩
                rw [List.forall_mem_cons]
                exact ⟨(arrives succeeded).1, proper, (arrives succeeded).2⟩
      · rw [if_neg proper] at made
        cases made
        exact ⟨.refl _, nofun, fun _ => .inl ⟨step, List.mem_cons_self, proper⟩⟩

/-! ## Writing files -/

theorem runOn_writeFile {path above : Path} (parent : path.parent? = some above)
    (content : ByteArray) :
    (TaskM.writeFile path content).runOn tree =
      match tree.makeFolders above with
      | (made, none) =>
          (TaskM.change (.file path) (·.write path content)).runOn made
      | (made, some fault) => (.error (.file above fault), made) := by
  rw [TaskM.writeFile, parent]
  refine (TaskM.runOn_bind _ _).trans ?_
  rw [TaskM.runOn_makeFolders]
  rcases tree.makeFolders above with ⟨made, fault | fault⟩ <;> rfl

/-- Something is in the way of a file: a file where a folder has to be, or a folder or a file that
may not be opened where the file has to be. -/
def IsObstructed (tree : FileTree) (location : Location) (names : List String) : Prop :=
  (∃ front next rest, names = front ++ next :: rest ∧ tree.HasFile (location ++ front)) ∨
    tree.kind? (location ++ names) = some .folder ∨
      ∃ size, tree.kind? (location ++ names) = some (.sealed size)

/-- Nothing is in the way of a record. -/
theorem Layered.not_isObstructed (layered : tree.Layered location folder depth)
    (stands : tree.kind? location = some .folder) {names : List String}
    (deep : names.length = depth) : ¬ tree.IsObstructed location (folder :: names) := by
  rintro (⟨front, next, rest, split, kind, held, isFile⟩ | folderKind | ⟨size, sealedKind⟩)
  · cases front with
    | nil =>
        rw [List.append_nil, stands] at held
        cases held
        cases isFile
    | cons first front =>
        rw [List.cons_append, List.cons.injEq] at split
        obtain ⟨rfl, rfl⟩ := split
        rcases layered front _ held with ⟨-, rfl⟩ | ⟨all, -⟩
        · cases isFile
        · rw [List.length_append, List.length_cons] at deep
          omega
  · rcases layered names _ folderKind with ⟨less, -⟩ | ⟨-, content, file⟩
    · omega
    · cases file
  · rcases layered names _ sealedKind with ⟨-, folderKind⟩ | ⟨-, content, file⟩
    · cases folderKind
    · cases file

section Write

variable {front : List String} {last : String} {content : ByteArray} {succeeded : Bool}

/-- Below a folder that is there, the path of a file is looked up in that folder. -/
theorem resolve_last (hosts : tree.Hosts root own location)
    (linkless : tree.Linkless location folder)
    (proper : ∀ name ∈ folder :: front, IsName name) (plain : IsPlain last)
    (clean : '\x00' ∉ last.toList)
    (above : tree.kind? (location ++ folder :: front) = some .folder) :
    ∃ links, tree.resolve (root.below (folder :: front ++ [last])) true =
      tree.walkWithin true links (location ++ folder :: front) [last] := by
  obtain ⟨entries, found⟩ := hosts.find
  obtain ⟨left, goes⟩ := resolve_below found
  obtain ⟨fewer, -, onward⟩ := (arrives_below proper linkless.noLinks above true left).append
  refine ⟨fewer, (goes true _ (by simp) (fun name member => ?_) fun name member => ?_).trans
    (onward true [last] (by simp))⟩
  · rcases List.mem_append.mp member with member | member
    · exact (proper name member).toIsPlain
    · exact List.mem_singleton.mp member ▸ plain
  · rcases List.mem_append.mp member with member | member
    · exact (proper name member).noNul
    · exact List.mem_singleton.mp member ▸ clean

/-- A file with a proper name is written unless a folder stands there or a file that may not be
opened. -/
theorem write_proper (hosts : tree.Hosts root own location)
    (linkless : tree.Linkless location folder)
    (proper : ∀ name ∈ folder :: front, IsName name) (properLast : IsName last)
    (above : tree.kind? (location ++ folder :: front) = some .folder) (content : ByteArray) :
    tree.write (root.below (folder :: front ++ [last])) content =
      match tree.kind? (location ++ folder :: front ++ [last]) with
      | some .folder => .error .isFolder
      | some (.sealed _) => .error .denied
      | _ => .ok (tree.put (location ++ folder :: front ++ [last]) (.file content)) := by
  obtain ⟨links, resolved⟩ :=
    resolve_last hosts linkless proper properLast.toIsPlain properLast.noNul above
  have lookedUp := isLookedUp_of_isName properLast
  rw [write, resolved]
  cases kind : tree.kind? (location ++ folder :: front ++ [last]) with
  | none => rw [walkWithin_missing _ above lookedUp kind, if_pos rfl]
  | some found =>
      have notLink : ∀ target, found ≠ .link target := by
        rintro target rfl
        rw [List.append_assoc] at kind
        exact linkless _ target kind
      obtain ⟨node, held, isKind⟩ := Option.map_eq_some_iff.mp kind
      rw [walkWithin_step _ lookedUp kind notLink, walkWithin_nil _ held]
      cases found with
      | link target => exact absurd rfl (notLink target)
      | file old => rw [FileNode.eq_file_of_kind isKind]
      | sealed size => rw [FileNode.eq_sealed_of_kind isKind]
      | folder =>
          obtain ⟨entries, rfl⟩ := FileNode.eq_folder_of_kind isKind
          rfl

theorem write_improper (hosts : tree.Hosts root own location)
    (linkless : tree.Linkless location folder)
    (proper : ∀ name ∈ folder :: front, IsName name) (plain : IsPlain last)
    (improper : ¬ IsName last)
    (above : tree.kind? (location ++ folder :: front) = some .folder) (content : ByteArray) :
    ∃ fault, tree.write (root.below (folder :: front ++ [last])) content = .error fault := by
  by_cases clean : '\x00' ∉ last.toList
  · obtain ⟨links, resolved⟩ := resolve_last hosts linkless proper plain clean above
    have long : maxNameBytes < last.utf8ByteSize :=
      Nat.not_le.mp fun short => improper ⟨plain, clean, short⟩
    rw [walkWithin_long _ above plain.notHere plain.notUp long] at resolved
    exact ⟨.nameTooLong, by rw [write, resolved]⟩
  · have plainAll : ∀ name ∈ folder :: front ++ [last], IsPlain name := by
      rw [List.forall_mem_append, List.forall_mem_singleton]
      exact ⟨fun name member => (proper name member).toIsPlain, plain⟩
    have resolved : tree.resolve (root.below (folder :: front ++ [last])) true = _ :=
      resolve_below_of_nul tree plainAll ⟨last, by simp, Classical.not_not.mp clean⟩ true
    exact ⟨.nulCharacter, by rw [write, resolved]⟩

/-- A step that makes the folders above a file and puts it there, or is refused on the way. -/
inductive PutsFile (location : Location) (folder : String) (front : List String) (last : String)
    (content : ByteArray) (before : FileTree) : FileTree → Bool → Prop where
  /-- The file is put at its place. -/
  | put {made : FileTree} (makes : MakesFolders location folder front before made)
      (above : made.kind? (location ++ folder :: front) = some .folder)
      (notFolder : made.kind? (location ++ folder :: front ++ [last]) ≠ some .folder)
      (proper : ∀ name ∈ folder :: front ++ [last], IsName name) :
      PutsFile location folder front last content before
        (made.put (location ++ folder :: front ++ [last]) (.file content)) true
  /-- A name is improper, or something is in the way. -/
  | refused {made : FileTree} (makes : MakesFolders location folder front before made)
      (reason : (∃ name ∈ folder :: front ++ [last], ¬ IsName name) ∨
        before.IsObstructed location (folder :: front ++ [last])) :
      PutsFile location folder front last content before made false

/-- A file is not put where the folders above it cannot be made. -/
theorem PutsFile.of_isBlocked {made : FileTree}
    (makes : MakesFolders location folder front before made)
    (blocked : before.IsBlocked location (folder :: front)) :
    PutsFile location folder front last content before made false := by
  refine .refused makes ?_
  rcases blocked with ⟨name, inside, improper⟩ | ⟨done, ⟨more, whole⟩, file⟩
  · exact .inl ⟨name, List.mem_append_left [last] inside, improper⟩
  · obtain ⟨next, rest, split⟩ : ∃ next rest, more ++ [last] = next :: rest :=
      List.exists_cons_of_ne_nil (by simp)
    refine .inr (.inl ⟨done, next, rest, ?_, file⟩)
    rw [← whole, List.append_assoc, split]

/-- A folder that is in the way of a file has not been made on the way to it. -/
theorem MakesFolders.kind?_last {made : FileTree}
    (makes : MakesFolders location folder front before made)
    (stands : made.kind? (location ++ folder :: front ++ [last]) = some .folder) :
    before.kind? (location ++ (folder :: front ++ [last])) = some .folder := by
  rw [List.append_assoc] at stands
  refine (makes.makes _ _ stands).resolve_right ?_
  -- The file's name is below the folders that were made.
  rintro ⟨-, deeper, onTheWay, here⟩
  obtain rfl : front ++ [last] = deeper := by simpa using here
  have less := onTheWay.length_le
  rw [List.length_append, List.length_singleton] at less
  omega

/-- When the folders above a file are made it is put at its place, or is refused. -/
theorem PutsFile.of_change {made : FileTree} (hosts : made.Hosts root own location)
    (makes : MakesFolders location folder front before made)
    (linkless : made.Linkless location folder)
    (above : made.kind? (location ++ folder :: front) = some .folder)
    (proper : ∀ name ∈ folder :: front, IsName name) (plain : IsPlain last)
    {refusal : Fault → Failure} {outcome : Except Failure Unit}
    (run : (TaskM.change refusal
      (·.write (root.below (folder :: front ++ [last])) content)).runOn made = (outcome, after)) :
    PutsFile location folder front last content before after outcome.isOk := by
  rw [TaskM.runOn_change] at run
  by_cases properLast : IsName last
  · have written := write_proper hosts linkless proper properLast above content
    split at written
    · rename_i stands
      rw [written] at run
      cases run
      exact .refused makes (.inr (.inr (.inl (makes.kind?_last stands))))
    · rename_i size stands
      rw [written] at run
      cases run
      rw [List.append_assoc] at stands
      exact .refused makes
        (.inr (.inr (.inr ⟨size, makes.kind?_of_not_folder stands (by simp)⟩)))
    · rename_i notFolder _
      rw [written] at run
      cases run
      refine .put makes above notFolder ?_
      rw [List.forall_mem_append, List.forall_mem_singleton]
      exact ⟨proper, properLast⟩
  · obtain ⟨fault, refused⟩ := write_improper hosts linkless proper plain properLast above content
    rw [refused] at run
    cases run
    exact .refused makes (.inl ⟨last, by simp, properLast⟩)

/-- Writing a file makes the folders above it and puts it at its place, or is refused. -/
theorem writeFile_puts (hosts : tree.Hosts root own location) (member : folder ∈ own)
    (linkless : tree.Linkless location folder)
    (plain : ∀ name ∈ folder :: front ++ [last], IsPlain name)
    {outcome : Except Failure Unit}
    (run : (TaskM.writeFile (root.below (folder :: front ++ [last])) content).runOn tree =
      (outcome, after)) :
    PutsFile location folder front last content tree after outcome.isOk := by
  rw [List.forall_mem_append, List.forall_mem_singleton] at plain
  obtain ⟨plainFront, plainLast⟩ := plain
  obtain ⟨entries, found⟩ := hosts.find
  rw [runOn_writeFile (root.parent?_below (by simp) plainFront plainLast),
    makeFolders_below found (by simp) plainFront] at run
  by_cases nul : ∃ name ∈ folder :: front, '\x00' ∈ name.toList
  · rw [if_pos nul] at run
    cases run
    obtain ⟨name, inside, ends⟩ := nul
    exact .refused (.refl _)
      (.inl ⟨name, List.mem_append_left [last] inside, fun proper => proper.noNul ends⟩)
  · rw [if_neg nul] at run
    rcases made : tree.makeFoldersFrom location (folder :: front) with ⟨between, fault⟩
    obtain ⟨makes, arrives, fails⟩ := makeFoldersFrom_spec (List.nil_append (folder :: front))
      linkless (by simpa using hosts.kind?) plainFront
      (fun name inside ends => nul ⟨name, inside, ends⟩) (by simpa using made)
    rw [List.append_nil] at fails
    rw [made] at run
    cases fault with
    | some fault =>
        cases run
        exact .of_isBlocked makes (fails (by simp))
    | none =>
        obtain ⟨above, properFront⟩ := arrives rfl
        exact .of_change (hosts.of_agrees (makes.agrees.mono (by simpa using member))) makes
          (makes.linkless linkless) above properFront plainLast run

namespace PutsFile

variable (puts : PutsFile location folder front last content before after succeeded)

include puts

/-- No other file changes. -/
theorem fileAt?_eq (place : Location) :
    after.fileAt? place =
      if succeeded = true ∧ place = location ++ folder :: (front ++ [last]) then some content
      else before.fileAt? place := by
  cases puts with
  | put makes above notFolder =>
      rw [fileAt?_put_file above notFolder, makes.fileAt?_eq]
      simp
  | refused makes => simp [makes.fileAt?_eq]

theorem agrees : before.AgreesOutside location [folder] after := by
  cases puts with
  | put makes =>
      rw [List.append_assoc, List.cons_append]
      exact makes.agrees.trans (.alter _ location (by simp) (front ++ [last]) _)
  | refused makes => exact makes.agrees

theorem linkless (linkless : before.Linkless location folder) : after.Linkless location folder := by
  cases puts with
  | put makes above notFolder =>
      intro names target link
      rw [kind?_put_file above notFolder] at link
      split at link
      · cases link
      · exact makes.linkless linkless names target link
  | refused makes => exact makes.linkless linkless

theorem named (named : before.WellNamed) : after.WellNamed := by
  cases puts with
  | put makes _ _ proper =>
      exact (makes.named named).put _ (proper last (by simp)) (FileNode.wellNamed_file content)
  | refused makes => exact makes.named named

end PutsFile

end Write

/-- A step that writes one file of a record folder, if all names on the way are proper, and else
changes no file. -/
structure WritesFile (location : Location) (folder : String) (depth : Nat) (names : List String)
    (content : ByteArray) (before after : FileTree) (succeeded : Bool) : Prop where
  /-- Nothing changes besides the record folder. -/
  stays : StaysIn location folder depth before after
  /-- No other file changes. -/
  files : ∀ place, after.fileAt? place =
    if succeeded = true ∧ place = location ++ folder :: names then some content
    else before.fileAt? place
  /-- Only improper names are refused. -/
  succeeds : succeeded = true ↔ ∀ name ∈ folder :: names, IsName name

/-- Writing a record puts its file at its place or leaves all files as they are, and it fails only
if a name is improper. -/
theorem writeFile_layered (hosts : tree.Hosts root own location) (member : folder ∈ own)
    (layered : tree.Layered location folder depth) {names : List String} (nonempty : names ≠ [])
    (deep : names.length = depth) (plain : ∀ name ∈ folder :: names, IsPlain name)
    {content : ByteArray} {outcome : Except Failure Unit}
    (run : (TaskM.writeFile (root.below (folder :: names)) content).runOn tree =
      (outcome, after)) :
    WritesFile location folder depth names content tree after outcome.isOk := by
  obtain ⟨front, last, rfl⟩ : ∃ front last, names = front ++ [last] :=
    ⟨_, _, (List.dropLast_concat_getLast nonempty).symm⟩
  have puts := writeFile_puts hosts member layered.linkless plain run
  refine ⟨?_, puts.fileAt?_eq, ?_⟩
  · rw [List.length_append, List.length_singleton] at deep
    generalize outcome.isOk = succeeded at puts
    cases puts with
    | put makes above notFolder proper =>
        exact (makes.stays (by omega)).trans
          (.putFile above (proper last (by simp)) notFolder deep content)
    | refused makes => exact makes.stays (by omega)
  · generalize outcome.isOk = succeeded at puts
    cases puts with
    | put _ _ _ proper => exact iff_of_true rfl proper
    | refused _ reason =>
        refine iff_of_false (by simp) fun proper => ?_
        rcases reason with ⟨name, inside, improper⟩ | obstructed
        · exact improper (proper name inside)
        · exact layered.not_isObstructed hosts.kind? deep obstructed

/-! ## Single names of a hosted folder -/

section Single

variable {name : String}

theorem resolve_single (hosts : tree.Hosts root own location) (proper : IsName name)
    (followLast : Bool) :
    ∃ links, tree.resolve (root / name) followLast =
      tree.walkWithin followLast links location [name] := by
  obtain ⟨entries, found⟩ := hosts.find
  obtain ⟨left, goes⟩ := resolve_below found
  exact ⟨left, goes followLast [name] (by simp) (by simpa using proper.toIsPlain)
    (by simpa using proper.noNul)⟩

/-- Something is there at the path of a name if anything stands at the name that is no link. -/
theorem pathExists_single (hosts : tree.Hosts root own location) (proper : IsName name)
    (notLink : ∀ target, tree.kind? (location ++ [name]) ≠ some (.link target)) :
    tree.pathExists (root / name) = (tree.kind? (location ++ [name])).isSome := by
  obtain ⟨links, resolved⟩ := resolve_single hosts proper true
  have lookedUp := isLookedUp_of_isName proper
  rw [pathExists, find, resolved]
  cases kind : tree.kind? (location ++ [name]) with
  | none =>
      rw [walkWithin_missing _ hosts.kind? lookedUp kind, if_pos rfl]
      rfl
  | some found =>
      obtain ⟨node, stands, -⟩ := Option.map_eq_some_iff.mp kind
      rw [walkWithin_step _ lookedUp kind fun target link => notLink target (link ▸ kind),
        walkWithin_nil _ stands]
      rfl

/-- Removing a folder of a hosted one passes over nothing, takes away a folder or a link, and is
refused if a file stands there. -/
theorem runOn_removeFolder_hosted (hosts : tree.Hosts root own location) (proper : IsName name) :
    (TaskM.removeFolder (root / name)).runOn tree =
      match tree.kind? (location ++ [name]) with
      | none => (.ok (), tree)
      | some (.file _) | some (.sealed _) =>
          (.error (.during s!"Failed to remove {root / name}" (.system .notFolder)), tree)
      | some _ => (.ok (), tree.erase (location ++ [name])) := by
  obtain ⟨links, resolved⟩ := resolve_single hosts proper false
  have lookedUp := isLookedUp_of_isName proper
  rw [TaskM.runOn_removeFolder, FileTree.removeFolder, findLink, resolved]
  cases kind : tree.kind? (location ++ [name]) with
  | none => rw [walkWithin_missing _ hosts.kind? lookedUp kind, if_pos rfl]
  | some found =>
      obtain ⟨node, stands, eq⟩ := Option.map_eq_some_iff.mp kind
      cases found with
      | file content =>
          rw [walkWithin_step _ lookedUp kind (by simp), walkWithin_nil _ stands,
            FileNode.eq_file_of_kind eq]
      | sealed size =>
          rw [walkWithin_step _ lookedUp kind (by simp), walkWithin_nil _ stands,
            FileNode.eq_sealed_of_kind eq]
      | link target =>
          rw [walkWithin_stay _ lookedUp kind]
      | folder =>
          obtain ⟨entries, rfl⟩ := FileNode.eq_folder_of_kind eq
          rw [walkWithin_step _ lookedUp kind (by simp), walkWithin_nil _ stands]

/-- Whatever is no file can be removed from a hosted folder. -/
theorem exists_removed (hosts : tree.Hosts root own location) (proper : IsName name)
    (notFile : ¬ tree.HasFile (location ++ [name])) :
    ∃ after, (TaskM.removeFolder (root / name)).runOn tree = (.ok (), after) := by
  rw [runOn_removeFolder_hosted hosts proper]
  cases kind : tree.kind? (location ++ [name]) with
  | none => exact ⟨_, rfl⟩
  | some found =>
      cases found with
      | file content => exact absurd ⟨_, kind, rfl⟩ notFile
      | sealed size => exact absurd ⟨_, kind, rfl⟩ notFile
      | link target => exact ⟨_, rfl⟩
      | folder => exact ⟨_, rfl⟩

/-- A folder of a hosted one that is removed has nothing left, and all else stays. -/
theorem removeFolder_hosted (hosts : tree.Hosts root own location) (proper : IsName name)
    (run : (TaskM.removeFolder (root / name)).runOn tree = (.ok (), after)) :
    tree.AgreesOutside location [name] after ∧ (tree.WellNamed → after.WellNamed) ∧
      after.kind? (location ++ [name]) = none := by
  rw [runOn_removeFolder_hosted hosts proper] at run
  split at run
  · rename_i missing
    cases run
    exact ⟨.refl _ _ _, id, missing⟩
  · cases run
  · cases run
  · cases run
    exact ⟨.alter tree location (by simp) [] _, fun named => named.erase proper,
      kind?_erase hosts.kind? name []⟩

/-- A file is written beside the record folders where nothing or a file stands. -/
theorem write_single (hosts : tree.Hosts root own location) (proper : IsName name)
    (admits : tree.AdmitsFile (location ++ [name])) (content : ByteArray) :
    tree.write (root / name) content = .ok (tree.put (location ++ [name]) (.file content)) := by
  obtain ⟨links, resolved⟩ := resolve_single hosts proper true
  have lookedUp := isLookedUp_of_isName proper
  rw [write, resolved]
  cases kind : tree.kind? (location ++ [name]) with
  | none => rw [walkWithin_missing _ hosts.kind? lookedUp kind, if_pos rfl]
  | some found =>
      obtain ⟨held, rfl⟩ := admits found kind
      obtain ⟨node, stands, eq⟩ := Option.map_eq_some_iff.mp kind
      rw [walkWithin_step _ lookedUp kind (by simp), walkWithin_nil _ stands,
        FileNode.eq_file_of_kind eq]

/-- What was written beside the record folders was written over no folder. -/
theorem admitsFile_of_write (hosts : tree.Hosts root own location) (proper : IsName name)
    (notLink : ∀ target, tree.kind? (location ++ [name]) ≠ some (.link target))
    {content : ByteArray} (written : tree.write (root / name) content = .ok after) :
    tree.AdmitsFile (location ++ [name]) := by
  intro kind stands
  cases kind with
  | file held => exact ⟨held, rfl⟩
  | link target => exact absurd stands (notLink target)
  | sealed size =>
      obtain ⟨links, resolved⟩ := resolve_single hosts proper true
      obtain ⟨node, held, isKind⟩ := Option.map_eq_some_iff.mp stands
      rw [write, resolved, walkWithin_step _ (isLookedUp_of_isName proper) stands (by simp),
        walkWithin_nil _ held, FileNode.eq_sealed_of_kind isKind] at written
      cases written
  | folder =>
      obtain ⟨links, resolved⟩ := resolve_single hosts proper true
      obtain ⟨entries, held⟩ := at?_of_kind?_folder stands
      rw [write, resolved, walkWithin_step _ (isLookedUp_of_isName proper) stands (by simp),
        walkWithin_nil _ held] at written
      cases written

/-- A file beside the record folders is written at its name. -/
theorem write_hosted (hosts : tree.Hosts root own location) (proper : IsName name)
    (notLink : ∀ target, tree.kind? (location ++ [name]) ≠ some (.link target))
    {content : ByteArray} (written : tree.write (root / name) content = .ok after) :
    tree.AgreesOutside location [name] after ∧ (tree.WellNamed → after.WellNamed) ∧
      after.kind? (location ++ [name]) = some (.file content) := by
  rw [write_single hosts proper (admitsFile_of_write hosts proper notLink written)] at written
  cases written
  exact ⟨.alter tree location (by simp) [] _,
    fun named => named.put _ proper (FileNode.wellNamed_file content),
    (kind?_put hosts.kind? name (.file content) []).trans rfl⟩

end Single

end FileTree
end SourceSearch
