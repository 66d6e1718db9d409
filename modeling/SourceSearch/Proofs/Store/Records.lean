import SourceSearch.Proofs.FileTree.Writes
import SourceSearch.Proofs.Json.Records
import SourceSearch.Store.Documents

/-!
# Records of a store

A store that lies in a hosted folder acts like a map from keys to contents: a record that is put is
the one that is read, and the records of other keys stay.
-/

namespace SourceSearch

namespace Store

/-! ## Places of records -/

/-- The names that lead to a record below the folder of its store, if the key is admitted. -/
def place? (key suffix : String) : Option (List String) :=
  (folder? key).map fun shard => [shard, key ++ suffix]

theorem starts_of_shard? {key shard : String} (named : shard? key = some shard) :
    shard.toList ≠ [] ∧ shard.toList <+: key.toList := by
  rw [shard?] at named
  split at named
  · rename_i a rest letters
    split at named
    · obtain rfl := Option.some.inj named
      rw [letters, String.toList_ofList]
      exact ⟨by simp, rest, rfl⟩
    · split at named
      · rename_i b rest
        split at named
        · obtain rfl := Option.some.inj named
          rw [letters, String.toList_ofList]
          exact ⟨by simp, rest, rfl⟩
        · cases named
      · cases named
  · cases named

theorem folder?_admits {key shard : String} (admitted : folder? key = some shard) :
    shard? key = some shard ∧ '.' ∉ shard.toList ∧ '/' ∉ key.toList := by
  rw [folder?] at admitted
  split at admitted
  · rename_i held named
    split at admitted
    · cases admitted
    · rename_i clean
      obtain rfl := Option.some.inj admitted
      rw [not_or, not_or] at clean
      exact ⟨named, clean.1, clean.2.1⟩
  · cases admitted

theorem isPlain_shard {key shard : String} (admitted : folder? key = some shard) :
    IsPlain shard := by
  obtain ⟨named, noDot, noSlash⟩ := folder?_admits admitted
  obtain ⟨nonempty, inside⟩ := starts_of_shard? named
  refine ⟨fun empty => nonempty (by simp [empty]), ?_, ?_, fun slash => ?_⟩
  · rintro rfl
    exact noDot (by decide)
  · rintro rfl
    exact noDot (by decide)
  · exact noSlash (inside.subset slash)

theorem place?_eq_some_iff {key suffix : String} {names : List String} :
    place? key suffix = some names ↔
      ∃ shard, folder? key = some shard ∧ names = [shard, key ++ suffix] := by
  rw [place?, Option.map_eq_some_iff]
  simp only [eq_comm]

theorem length_place {key suffix : String} {names : List String}
    (placed : place? key suffix = some names) : names.length = 2 := by
  obtain ⟨shard, -, rfl⟩ := place?_eq_some_iff.mp placed
  rfl

theorem isPlain_place {key suffix : String} (proper : IsSuffix suffix) {names : List String}
    (placed : place? key suffix = some names) : ∀ name ∈ names, IsPlain name := by
  obtain ⟨shard, admitted, rfl⟩ := place?_eq_some_iff.mp placed
  simp only [List.forall_mem_cons]
  exact ⟨isPlain_shard admitted, proper.isPlain_append (folder?_admits admitted).2.2, by simp⟩

/-- Records of one suffix have places of their own. -/
theorem place?_injective {key other suffix : String} {names : List String}
    (first : place? key suffix = some names) (second : place? other suffix = some names) :
    key = other := by
  obtain ⟨shard, -, rfl⟩ := place?_eq_some_iff.mp first
  obtain ⟨shard', -, same⟩ := place?_eq_some_iff.mp second
  simp only [List.cons.injEq, and_true] at same
  have lists := congrArg String.toList same.2
  rw [String.toList_append, String.toList_append] at lists
  exact String.toList_inj.mp (List.append_cancel_right lists)

/-- Suffixes none of which ends in the other. -/
def SuffixesApart (suffix other : String) : Prop :=
  ¬ suffix.toList <:+ other.toList ∧ ¬ other.toList <:+ suffix.toList

theorem place?_ne_of_apart {key other suffix suffix' : String}
    (apart : SuffixesApart suffix suffix') {names : List String}
    (first : place? key suffix = some names) :
    place? other suffix' ≠ some names := by
  intro second
  obtain ⟨shard, -, rfl⟩ := place?_eq_some_iff.mp first
  obtain ⟨shard', -, same⟩ := place?_eq_some_iff.mp second
  simp only [List.cons.injEq, and_true] at same
  have lists := congrArg String.toList same.2
  rw [String.toList_append, String.toList_append] at lists
  have ends : suffix.toList <:+ other.toList ++ suffix'.toList := ⟨key.toList, lists⟩
  rcases List.suffix_or_suffix_of_suffix ends (List.suffix_append _ _) with inner | inner
  · exact apart.1 inner
  · exact apart.2 inner

/-- The path of a record goes on from the folder of its store by the names that lead to it. -/
theorem path_eq_below (store : Store) (key suffix : String) :
    store.path key suffix =
      match place? key suffix with
      | some names => .ok (store.root.below names)
      | none => .error (.invalidKey key) := by
  rw [path, place?]
  cases folder? key <;> rfl

theorem path_eq {store : Store} {root : Path} {folder : String}
    (lies : store.root = root / folder) (key suffix : String) :
    store.path key suffix =
      match place? key suffix with
      | some names => .ok (root.below (folder :: names))
      | none => .error (.invalidKey key) := by
  rw [path_eq_below, lies]
  rfl

theorem get_eq {store : Store} {tree : FileTree} {key suffix : String} {names : List String}
    (placed : place? key suffix = some names) :
    store.get tree key suffix =
      match tree.read (store.root.below names) with
      | .ok content => .ok (some content)
      | .error .missing => .ok none
      | .error fault => .error (.file (store.root.below names) fault) := by
  rw [get, path_eq_below, placed]
  simp only [bind, Except.bind]
  cases tree.read (store.root.below names) with
  | ok content => rfl
  | error fault => cases fault <;> rfl

theorem getRecord_eq {α : Type} {store : Store} {tree : FileTree} {decode : Json → Option α}
    {key suffix : String} {names : List String} (placed : place? key suffix = some names) :
    store.getRecord tree decode key suffix = tree.readRecord? decode (store.root.below names) := by
  rw [getRecord, path_eq_below, placed]
  rfl

end Store

namespace FileTree

/-- The content of a record. -/
def record? (tree : FileTree) (location : Location) (folder key suffix : String) :
    Option ByteArray :=
  (Store.place? key suffix).bind fun names => tree.fileAt? (location ++ folder :: names)

theorem record?_of_none {tree : FileTree} {location : Location} {folder : String}
    (missing : tree.kind? (location ++ [folder]) = none) (key suffix : String) :
    tree.record? location folder key suffix = none := by
  rw [record?]
  cases Store.place? key suffix with
  | none => rfl
  | some names => exact fileAt?_of_none missing names

theorem AgreesOutside.record? {tree changed : FileTree} {location : Location} {own : List String}
    (agrees : tree.AgreesOutside location own changed) {folder : String} (other : folder ∉ own)
    (key suffix : String) :
    changed.record? location folder key suffix = tree.record? location folder key suffix := by
  rw [FileTree.record?, FileTree.record?]
  cases Store.place? key suffix with
  | none => rfl
  | some names => exact agrees.fileAt?_below other names

end FileTree

namespace Store

variable {store : Store} {tree before after : FileTree} {root : Path} {own : List String}
  {location : Location} {folder key suffix : String} {content : ByteArray}

/-! ## Putting -/

/-- The file of one record is set, or no file changes. -/
structure SetsRecord (location : Location) (folder key suffix : String) (content : ByteArray)
    (before after : FileTree) (succeeded : Bool) : Prop where
  /-- No other file changes. -/
  files : ∀ place, after.fileAt? place =
    if succeeded = true ∧ ∃ names, place? key suffix = some names ∧
      place = location ++ folder :: names then some content
    else before.fileAt? place
  /-- A key that is refused is put nowhere. -/
  admitted : succeeded = true → (place? key suffix).isSome

/-- A step that puts one record, or fails and leaves all records as they are. -/
structure PutsRecord (location : Location) (folder key suffix : String) (content : ByteArray)
    (before after : FileTree) (succeeded : Bool) : Prop
    extends SetsRecord location folder key suffix content before after succeeded where
  /-- Nothing changes besides the folder of the store. -/
  stays : FileTree.StaysIn location folder 2 before after
  /-- Only improper names are refused. -/
  succeeds : ∀ names, place? key suffix = some names → (∀ name ∈ folder :: names, IsName name) →
    succeeded = true

theorem setsRecord_of_failed (same : ∀ place, after.fileAt? place = before.fileAt? place) :
    SetsRecord location folder key suffix content before after false where
  files place := by rw [same, if_neg fun both => Bool.false_ne_true both.1]
  admitted := nofun

theorem setsRecord_of_files {names : List String} (placed : place? key suffix = some names)
    {succeeded : Bool}
    (files : ∀ place, after.fileAt? place =
      if succeeded = true ∧ place = location ++ folder :: names then some content
      else before.fileAt? place) :
    SetsRecord location folder key suffix content before after succeeded where
  files place := by simp [files, placed]
  admitted _ := by simp [placed]

theorem runOn_put (content : ByteArray) :
    (store.put key suffix content).runOn tree =
      match place? key suffix with
      | some names => (TaskM.writeFile (store.root.below names) content).runOn tree
      | none => (.error (.invalidKey key), tree) := by
  rw [put, TaskM.runOn_bind, TaskM.runOn_examine, path_eq_below]
  cases place? key suffix <;> rfl

theorem putsRecord (hosts : tree.Hosts root own location) (member : folder ∈ own)
    (layered : tree.Layered location folder 2) (lies : store.root = root / folder)
    (plain : IsPlain folder) (proper : IsSuffix suffix) {outcome : Except Failure Unit}
    (run : (store.put key suffix content).runOn tree = (outcome, after)) :
    PutsRecord location folder key suffix content tree after outcome.isOk := by
  rw [runOn_put, lies] at run
  cases placed : place? key suffix with
  | none =>
      rw [placed] at run
      cases run
      exact ⟨setsRecord_of_failed (fun _ => rfl), .refl _, by simp [placed]⟩
  | some names =>
      rw [placed] at run
      have deep := length_place placed
      have wrote := FileTree.writeFile_layered hosts member layered
        (List.ne_nil_of_length_pos (by omega)) deep
        (List.forall_mem_cons.mpr ⟨plain, isPlain_place proper placed⟩) run
      refine ⟨setsRecord_of_files placed wrote.files, wrote.stays, fun others same all => ?_⟩
      obtain rfl := Option.some.inj (placed.symm.trans same)
      exact wrote.succeeds.mpr all

/-- Putting a record in a folder without links, whatever else is in it. -/
theorem setsRecord (hosts : tree.Hosts root own location) (member : folder ∈ own)
    (linkless : tree.Linkless location folder) (lies : store.root = root / folder)
    (plain : IsPlain folder) (proper : IsSuffix suffix) {outcome : Except Failure Unit}
    (run : (store.put key suffix content).runOn tree = (outcome, after)) :
    tree.AgreesOutside location [folder] after ∧ after.Linkless location folder ∧
      SetsRecord location folder key suffix content tree after outcome.isOk := by
  rw [runOn_put, lies] at run
  cases placed : place? key suffix with
  | none =>
      rw [placed] at run
      cases run
      exact ⟨.refl _ _ _, linkless, setsRecord_of_failed fun _ => rfl⟩
  | some names =>
      rw [placed] at run
      obtain ⟨shard, -, rfl⟩ := place?_eq_some_iff.mp placed
      have puts : FileTree.PutsFile location folder [shard] (key ++ suffix) content tree after
          outcome.isOk := FileTree.writeFile_puts hosts member linkless
        (List.forall_mem_cons.mpr ⟨plain, isPlain_place proper placed⟩) run
      exact ⟨puts.agrees, puts.linkless linkless, setsRecord_of_files placed puts.fileAt?_eq⟩

namespace SetsRecord

theorem record?_self (sets : SetsRecord location folder key suffix content before after true) :
    after.record? location folder key suffix = some content := by
  obtain ⟨names, placed⟩ := Option.isSome_iff_exists.mp (sets.admitted rfl)
  rw [FileTree.record?, placed, Option.bind_some, sets.files, if_pos ⟨rfl, names, placed, rfl⟩]

theorem record?_of_ne {succeeded : Bool}
    (sets : SetsRecord location folder key suffix content before after succeeded) {other : String}
    (different : other ≠ key) :
    after.record? location folder other suffix = before.record? location folder other suffix := by
  rw [FileTree.record?, FileTree.record?]
  cases placed : place? other suffix with
  | none => rfl
  | some names =>
      rw [Option.bind_some, Option.bind_some, sets.files, if_neg]
      rintro ⟨-, others, held, same⟩
      obtain rfl : names = others := by simpa using same
      exact different (place?_injective placed held)

theorem record?_of_apart {succeeded : Bool}
    (sets : SetsRecord location folder key suffix content before after succeeded)
    {suffix' : String} (apart : SuffixesApart suffix suffix') (other : String) :
    after.record? location folder other suffix' =
      before.record? location folder other suffix' := by
  rw [FileTree.record?, FileTree.record?]
  cases placed : place? other suffix' with
  | none => rfl
  | some names =>
      rw [Option.bind_some, Option.bind_some, sets.files, if_neg]
      rintro ⟨-, others, held, same⟩
      obtain rfl : names = others := by simpa using same
      exact place?_ne_of_apart apart held placed

end SetsRecord

/-! ## Getting -/

/-- The file of a record reads as the tree has it. -/
def Reads (tree : FileTree) (root : Path) (location : Location) (folder key suffix : String) :
    Prop :=
  ∀ names, place? key suffix = some names →
    (tree.read (root.below (folder :: names))).toOption =
      tree.fileAt? (location ++ folder :: names)

/-- Records with proper names are read from a folder without links. -/
theorem reads_of_isName {entries : List (String × FileNode)}
    (found : tree.find root = .ok (location, .folder entries))
    (linkless : tree.Linkless location folder)
    (proper : ∀ names, place? key suffix = some names → ∀ name ∈ folder :: names, IsName name) :
    Reads tree root location folder key suffix := fun names placed =>
  FileTree.toOption_read_below found linkless
    (fun name member => (proper names placed name member).toIsPlain) fun _ => proper names placed

theorem reads_of_wellNamed (named : tree.WellNamed) {entries : List (String × FileNode)}
    (found : tree.find root = .ok (location, .folder entries))
    (layered : tree.Layered location folder 2) (plain : IsPlain folder) (proper : IsSuffix suffix)
    (key : String) : Reads tree root location folder key suffix := fun _ placed =>
  FileTree.read_below_eq named found layered.linkless
    (List.forall_mem_cons.mpr ⟨plain, isPlain_place proper placed⟩)

theorem toOption_eq_some_iff {α ε : Type} {outcome : Except ε α} {value : α} :
    outcome.toOption = some value ↔ outcome = .ok value := by
  cases outcome <;> simp [Except.toOption]

theorem get_eq_some_iff (lies : store.root = root / folder)
    (reads : Reads tree root location folder key suffix) :
    store.get tree key suffix = .ok (some content) ↔
      tree.record? location folder key suffix = some content := by
  rw [get, path_eq lies, FileTree.record?]
  cases placed : place? key suffix with
  | none => simp [bind, Except.bind]
  | some names =>
      rw [Option.bind_some, ← reads names placed, toOption_eq_some_iff]
      simp only [bind, Except.bind]
      split
      · rename_i held eq
        rw [eq]
        simp [pure, Except.pure]
      · rename_i eq
        rw [eq]
        simp [pure, Except.pure]
      · rename_i fault _ eq
        rw [eq]
        simp [throw, throwThe, MonadExceptOf.throw]

/-- A record is decoded from the content that the tree has of it. -/
theorem getRecord_eq_some_iff {α : Type} {decode : Json → Option α} {value : α}
    (lies : store.root = root / folder) (reads : Reads tree root location folder key suffix) :
    store.getRecord tree decode key suffix = .ok (some value) ↔
      ∃ content, tree.record? location folder key suffix = some content ∧
        Json.decodeBytes? decode content = some value := by
  rw [getRecord, path_eq lies, FileTree.record?]
  cases placed : place? key suffix with
  | none => simp [bind, Except.bind]
  | some names =>
      rw [Option.bind_some, ← reads names placed]
      simp only [bind, Except.bind, toOption_eq_some_iff]
      rw [FileTree.readRecord?, FileTree.readRecord]
      cases tree.read (root.below (folder :: names)) with
      | ok content =>
          simp only [Except.ok.injEq, exists_eq_left']
          cases Json.decodeBytes? decode content <;> simp
      | error fault => cases fault <;> simp

end Store
end SourceSearch
