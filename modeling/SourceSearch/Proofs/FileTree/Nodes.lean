import SourceSearch.FileTree.Resolve

/-!
# Nodes at locations

How changing the node at one location shows at every location.  Most of what is proved of a tree
only asks for the kind of node at a place, where a file counts with its content and a folder
without its entries; so a tree acts like a map from locations to kinds.
-/

namespace SourceSearch

/-! ## Entries of a folder -/

section Entries

variable {β : Type}

theorem lookup_cons_of_ne {key other : String} (differs : other ≠ key) (value : β)
    (entries : List (String × β)) :
    ((key, value) :: entries).lookup other = entries.lookup other := by
  have skipped : (other == key) = false := by simpa using differs
  rw [List.lookup_cons, skipped]

theorem lookup_filter_ne {name other : String} (differs : other ≠ name)
    (entries : List (String × β)) :
    (entries.filter (·.1 ≠ name)).lookup other = entries.lookup other := by
  induction entries with
  | nil => rfl
  | cons entry rest ih =>
      obtain ⟨key, value⟩ := entry
      by_cases same : key = name
      · subst same
        rw [List.filter_cons, if_neg (by simp), ih, lookup_cons_of_ne differs]
      · rw [List.filter_cons, if_pos (by simpa using same), List.lookup_cons, List.lookup_cons, ih]

theorem lookup_filter_self (name : String) (entries : List (String × β)) :
    (entries.filter (·.1 ≠ name)).lookup name = none := by
  induction entries with
  | nil => rfl
  | cons entry rest ih =>
      obtain ⟨key, value⟩ := entry
      by_cases same : key = name
      · rw [List.filter_cons, if_neg (by simpa using same), ih]
      · rw [List.filter_cons, if_pos (by simpa using same), lookup_cons_of_ne (Ne.symm same), ih]

@[simp]
theorem lookup_alterEntry_self (name : String) (change : Option β → Option β)
    (entries : List (String × β)) :
    (alterEntry name change entries).lookup name = change (entries.lookup name) := by
  induction entries with
  | nil =>
      rw [alterEntry, List.lookup_nil]
      cases change none <;> simp
  | cons entry rest ih =>
      obtain ⟨key, value⟩ := entry
      rw [alterEntry]
      split
      · rename_i same
        subst same
        rw [List.lookup_cons_self]
        cases change (some value) with
        | none => exact lookup_filter_self key rest
        | some => exact List.lookup_cons_self
      · rename_i other
        rw [lookup_cons_of_ne (Ne.symm other), lookup_cons_of_ne (Ne.symm other), ih]

@[simp]
theorem lookup_alterEntry_of_ne {name other : String} (differs : other ≠ name)
    (change : Option β → Option β) (entries : List (String × β)) :
    (alterEntry name change entries).lookup other = entries.lookup other := by
  induction entries with
  | nil =>
      rw [alterEntry]
      cases change none with
      | none => rfl
      | some value => exact lookup_cons_of_ne differs value []
  | cons entry rest ih =>
      obtain ⟨key, value⟩ := entry
      rw [alterEntry]
      split
      · rename_i same
        subst same
        rw [lookup_cons_of_ne differs]
        cases change (some value) with
        | none => exact lookup_filter_ne differs rest
        | some new => exact (lookup_cons_of_ne differs new _).trans (lookup_filter_ne differs rest)
      · rw [List.lookup_cons, List.lookup_cons, ih]

/-- A change that makes nothing of nothing passes over a name that is not there. -/
theorem alterEntry_of_none {name : String} {change : Option β → Option β}
    {entries : List (String × β)} (missing : entries.lookup name = none)
    (nothing : change none = none) : alterEntry name change entries = entries := by
  induction entries with
  | nil => rw [alterEntry, nothing]; rfl
  | cons entry rest ih =>
      obtain ⟨key, value⟩ := entry
      have other : key ≠ name := by
        rintro rfl
        simp at missing
      rw [lookup_cons_of_ne (Ne.symm other)] at missing
      rw [alterEntry, if_neg other, ih missing]

/-- The names of a folder after a change of one entry. -/
theorem mem_alterEntry {name : String} {change : Option β → Option β}
    {entries : List (String × β)} {entry : String × β}
    (member : entry ∈ alterEntry name change entries) : entry.1 = name ∨ entry ∈ entries := by
  induction entries with
  | nil =>
      obtain ⟨value, -, rfl⟩ := List.mem_map.mp member
      exact .inl rfl
  | cons first rest ih =>
      obtain ⟨key, value⟩ := first
      rw [alterEntry] at member
      split at member
      · rename_i same
        rcases List.mem_append.mp member with new | kept
        · obtain ⟨value, -, rfl⟩ := List.mem_map.mp new
          exact .inl same
        · exact .inr (List.mem_cons_of_mem _ (List.mem_filter.mp kept).1)
      · rcases List.mem_cons.mp member with rfl | later
        · exact .inr List.mem_cons_self
        · exact (ih later).imp_right (List.mem_cons_of_mem _)

theorem nodup_alterEntry {name : String} {change : Option β → Option β}
    {entries : List (String × β)} (distinct : (entries.map Prod.fst).Nodup) :
    ((alterEntry name change entries).map Prod.fst).Nodup := by
  induction entries with
  | nil =>
      rw [alterEntry]
      cases change none <;> simp
  | cons first rest ih =>
      obtain ⟨key, value⟩ := first
      rw [List.map_cons, List.nodup_cons] at distinct
      rw [alterEntry]
      split
      · rename_i same
        have kept : ((rest.filter (·.1 ≠ name)).map Prod.fst).Nodup :=
          distinct.2.sublist (List.filter_sublist.map _)
        cases change (some value) with
        | none => exact kept
        | some new =>
            refine List.nodup_cons.mpr ⟨fun again => ?_, kept⟩
            obtain ⟨entry, member, eq⟩ := List.mem_map.mp again
            have apart : entry.1 ≠ name := by simpa using (List.mem_filter.mp member).2
            exact apart (eq.trans same)
      · rename_i other
        refine List.nodup_cons.mpr ⟨fun again => ?_, ih distinct.2⟩
        obtain ⟨entry, member, eq⟩ := List.mem_map.mp again
        rcases mem_alterEntry member with changed | kept
        · exact other (eq.symm.trans changed)
        · exact distinct.1 (List.mem_map.mpr ⟨entry, kept, eq⟩)

theorem lookup_eq_some_iff {entries : List (String × β)}
    (distinct : (entries.map Prod.fst).Nodup) {name : String} {value : β} :
    entries.lookup name = some value ↔ (name, value) ∈ entries := by
  induction entries with
  | nil => simp
  | cons first rest ih =>
      obtain ⟨key, held⟩ := first
      rw [List.map_cons, List.nodup_cons] at distinct
      by_cases same : name = key
      · subst same
        have apart : (name, value) ∉ rest := fun member =>
          distinct.1 (List.mem_map.mpr ⟨(name, value), member, rfl⟩)
        simp [apart, eq_comm]
      · rw [lookup_cons_of_ne same, ih distinct.2, List.mem_cons, Prod.mk.injEq]
        simp [same]

end Entries

/-! ## Kinds of nodes -/

/-- What stands at a place; of a folder no more is told. -/
inductive NodeKind where
  /-- A regular file. -/
  | file (content : ByteArray)
  /-- A regular file that may not be opened. -/
  | sealed (size : Nat)
  /-- A symbolic link. -/
  | link (target : Path)
  /-- A folder. -/
  | folder

/-- What stands there is a regular file. -/
def NodeKind.isFile : NodeKind → Bool
  | .file _ => true
  | .sealed _ => true
  | _ => false

namespace FileNode

/-- The kind of a node. -/
def kind : FileNode → NodeKind
  | file content => .file content
  | sealed size => .sealed size
  | link target => .link target
  | folder _ => .folder

@[simp]
theorem kind_file (content : ByteArray) : (file content).kind = .file content := rfl

@[simp]
theorem kind_sealed (size : Nat) : (sealed size).kind = .sealed size := rfl

@[simp]
theorem kind_link (target : Path) : (link target).kind = .link target := rfl

@[simp]
theorem kind_folder (entries : List (String × FileNode)) : (folder entries).kind = .folder := rfl

theorem isFile_kind (node : FileNode) : node.kind.isFile = node.isFile := by
  cases node <;> rfl

theorem eq_folder_of_kind {node : FileNode} (kind : node.kind = .folder) :
    ∃ entries, node = folder entries := by
  cases node with
  | file content => cases kind
  | sealed size => cases kind
  | link target => cases kind
  | folder entries => exact ⟨entries, rfl⟩

theorem eq_file_of_kind {node : FileNode} {content : ByteArray} (kind : node.kind = .file content) :
    node = file content := by
  cases node with
  | file held => exact congrArg file (NodeKind.file.inj kind)
  | sealed size => cases kind
  | link target => cases kind
  | folder entries => cases kind

theorem eq_sealed_of_kind {node : FileNode} {size : Nat} (kind : node.kind = .sealed size) :
    node = sealed size := by
  cases node with
  | file content => cases kind
  | sealed held => exact congrArg sealed (NodeKind.sealed.inj kind)
  | link target => cases kind
  | folder entries => cases kind

theorem eq_link_of_kind {node : FileNode} {target : Path} (kind : node.kind = .link target) :
    node = link target := by
  cases node with
  | file content => cases kind
  | sealed size => cases kind
  | link held => exact congrArg link (NodeKind.link.inj kind)
  | folder entries => cases kind

theorem isSome_size? (node : FileNode) : node.size?.isSome = node.isFile := by
  cases node <;> rfl

/-- A regular file is all that its kind tells. -/
theorem eq_of_kind_of_isFile {node other : FileNode} (isFile : node.isFile = true)
    (same : other.kind = node.kind) : other = node := by
  cases node with
  | file content => exact eq_file_of_kind same
  | sealed size => exact eq_sealed_of_kind same
  | link target => cases isFile
  | folder entries => cases isFile

/-! ## Locations below a node -/

@[simp]
theorem at?_nil (node : FileNode) : node.at? [] = some node := by
  cases node <;> rfl

@[simp]
theorem at?_cons_folder (name : String) (rest : Location) (entries : List (String × FileNode)) :
    (folder entries).at? (name :: rest) = (entries.lookup name).bind (at? rest) := rfl

theorem at?_append (node : FileNode) (front rest : Location) :
    node.at? (front ++ rest) = (node.at? front).bind (at? rest) := by
  induction front generalizing node with
  | nil => simp
  | cons name front ih =>
      cases node with
      | file => rfl
      | sealed => rfl
      | link => rfl
      | folder entries =>
          simp only [List.cons_append, at?_cons_folder]
          cases entries.lookup name with
          | none => rfl
          | some child => exact ih child

/-- Only folders have anything below them. -/
theorem at?_cons_isSome {node : FileNode} {name : String} {rest : Location}
    (found : (node.at? (name :: rest)).isSome) : ∃ entries, node = folder entries := by
  cases node with
  | file => simp [at?] at found
  | sealed => simp [at?] at found
  | link => simp [at?] at found
  | folder entries => exact ⟨entries, rfl⟩

theorem alter_cons_folder (change : Option FileNode → Option FileNode) (name : String)
    (rest : Location) (entries : List (String × FileNode)) :
    (folder entries).alter change (name :: rest) =
      folder (alterEntry name
        (if rest = [] then change else Option.map (alter change rest)) entries) := by
  cases rest <;> rfl

@[simp]
theorem alter_file (change : Option FileNode → Option FileNode) (location : Location)
    (content : ByteArray) : (file content).alter change location = file content := by
  rcases location with _ | ⟨name, _ | ⟨next, rest⟩⟩ <;> rfl

@[simp]
theorem alter_sealed (change : Option FileNode → Option FileNode) (location : Location)
    (size : Nat) : (sealed size).alter change location = sealed size := by
  rcases location with _ | ⟨name, _ | ⟨next, rest⟩⟩ <;> rfl

@[simp]
theorem alter_link (change : Option FileNode → Option FileNode) (location : Location)
    (target : Path) : (link target).alter change location = link target := by
  rcases location with _ | ⟨name, _ | ⟨next, rest⟩⟩ <;> rfl

@[simp]
theorem kind_alter (change : Option FileNode → Option FileNode) (location : Location)
    (node : FileNode) : (node.alter change location).kind = node.kind := by
  cases location with
  | nil => rfl
  | cons name rest =>
      cases node with
      | file => simp
      | sealed => simp
      | link => simp
      | folder entries => rw [alter_cons_folder, kind_folder, kind_folder]

/-- A change at a name of a folder shows in the entries of the folder. -/
theorem at?_alter {front : Location} {node : FileNode} {entries : List (String × FileNode)}
    (stands : node.at? front = some (folder entries)) (name : String)
    (change : Option FileNode → Option FileNode) (rest : Location) :
    (node.alter change (front ++ [name])).at? (front ++ rest) =
      (folder (alterEntry name change entries)).at? rest := by
  induction front generalizing node with
  | nil =>
      obtain rfl : node = folder entries := by simpa using stands
      rfl
  | cons step front ih =>
      obtain ⟨others, rfl⟩ := at?_cons_isSome (Option.isSome_of_eq_some stands)
      rw [at?_cons_folder] at stands
      obtain ⟨child, found, stands⟩ := Option.bind_eq_some_iff.mp stands
      rw [List.cons_append, List.cons_append, alter_cons_folder, if_neg (by simp),
        at?_cons_folder, lookup_alterEntry_self, found]
      exact ih stands

/-- A change shows nowhere but at its place and below. -/
theorem kind_at?_alter {front : Location} {name : String} {place : Location}
    (apart : ¬ front ++ [name] <+: place) (node : FileNode)
    (change : Option FileNode → Option FileNode) :
    ((node.alter change (front ++ [name])).at? place).map kind = (node.at? place).map kind := by
  induction place generalizing front node with
  | nil => simp
  | cons other rest ih =>
      cases node with
      | file => simp
      | sealed => simp
      | link => simp
      | folder entries =>
          cases front with
          | nil =>
              have differs : other ≠ name := fun same => apart (by simp [same])
              rw [List.nil_append, alter_cons_folder, at?_cons_folder, at?_cons_folder,
                lookup_alterEntry_of_ne differs]
          | cons step front =>
              rw [List.cons_append, alter_cons_folder, if_neg (by simp), at?_cons_folder,
                at?_cons_folder]
              by_cases same : other = step
              · subst same
                rw [lookup_alterEntry_self]
                cases entries.lookup other with
                | none => rfl
                | some child =>
                    refine ih (fun below => apart ?_) child
                    rw [List.cons_append]
                    exact List.cons_prefix_cons.mpr ⟨rfl, below⟩
              · rw [lookup_alterEntry_of_ne same]

end FileNode

namespace FileTree

/-! ## Locations in a tree -/

@[simp]
theorem root_alter (tree : FileTree) (location : Location)
    (change : Option FileNode → Option FileNode) :
    (tree.alter location change).root = tree.root.alter change location := by
  obtain ⟨entries, changed⟩ := FileNode.eq_folder_of_kind
    (FileNode.kind_alter change location tree.root)
  rw [alter, changed]
  rfl

@[simp]
theorem home_alter (tree : FileTree) (location : Location)
    (change : Option FileNode → Option FileNode) :
    (tree.alter location change).home = tree.home := by
  rw [alter]
  split <;> rfl

/-- The kind of node at a location. -/
def kind? (tree : FileTree) (location : Location) : Option NodeKind :=
  (tree.at? location).map FileNode.kind

theorem kind?_of_at? {tree : FileTree} {location : Location} {node : FileNode}
    (stands : tree.at? location = some node) : tree.kind? location = some node.kind := by
  rw [kind?, stands, Option.map_some]

theorem at?_nil (tree : FileTree) : tree.at? [] = some tree.root := FileNode.at?_nil _

@[simp]
theorem kind?_nil (tree : FileTree) : tree.kind? [] = some .folder := kind?_of_at? tree.at?_nil

theorem at?_of_kind?_folder {tree : FileTree} {location : Location}
    (kind : tree.kind? location = some .folder) :
    ∃ entries, tree.at? location = some (.folder entries) := by
  obtain ⟨node, stands, eq⟩ := Option.map_eq_some_iff.mp kind
  obtain ⟨entries, rfl⟩ := FileNode.eq_folder_of_kind eq
  exact ⟨entries, stands⟩

theorem at?_of_kind?_file {tree : FileTree} {location : Location} {content : ByteArray}
    (kind : tree.kind? location = some (.file content)) :
    tree.at? location = some (.file content) := by
  obtain ⟨node, stands, eq⟩ := Option.map_eq_some_iff.mp kind
  rw [stands, FileNode.eq_file_of_kind eq]

theorem at?_of_kind?_link {tree : FileTree} {location : Location} {target : Path}
    (kind : tree.kind? location = some (.link target)) :
    tree.at? location = some (.link target) := by
  obtain ⟨node, stands, eq⟩ := Option.map_eq_some_iff.mp kind
  rw [stands, FileNode.eq_link_of_kind eq]

theorem at?_append (tree : FileTree) (front rest : Location) :
    tree.at? (front ++ rest) = (tree.at? front).bind (FileNode.at? rest) :=
  FileNode.at?_append _ _ _

theorem at?_snoc {tree : FileTree} {location : Location} {entries : List (String × FileNode)}
    (stands : tree.at? location = some (.folder entries)) (name : String) :
    tree.at? (location ++ [name]) = entries.lookup name := by
  rw [at?_append, stands, Option.bind_some, FileNode.at?_cons_folder]
  cases entries.lookup name <;> simp

theorem kind?_snoc {tree : FileTree} {location : Location} {entries : List (String × FileNode)}
    (stands : tree.at? location = some (.folder entries)) (name : String) :
    tree.kind? (location ++ [name]) = (entries.lookup name).map FileNode.kind := by
  rw [kind?, at?_snoc stands]

/-- What has something below it is a folder. -/
theorem kind?_of_append {tree : FileTree} {front : Location} {name : String} {rest : Location}
    {kind : NodeKind} (stands : tree.kind? (front ++ name :: rest) = some kind) :
    tree.kind? front = some .folder := by
  obtain ⟨node, found, -⟩ := Option.map_eq_some_iff.mp stands
  rw [at?_append] at found
  obtain ⟨above, stands, found⟩ := Option.bind_eq_some_iff.mp found
  obtain ⟨entries, rfl⟩ := FileNode.at?_cons_isSome (Option.isSome_of_eq_some found)
  exact kind?_of_at? stands

/-- Below nothing there is nothing. -/
theorem kind?_append_of_none {tree : FileTree} {front : Location}
    (missing : tree.kind? front = none) (rest : Location) : tree.kind? (front ++ rest) = none := by
  rw [kind?, at?_append, Option.map_eq_none_iff.mp missing]
  rfl

theorem at?_alter {tree : FileTree} {front : Location} {entries : List (String × FileNode)}
    (stands : tree.at? front = some (.folder entries)) (name : String)
    (change : Option FileNode → Option FileNode) (rest : Location) :
    (tree.alter (front ++ [name]) change).at? (front ++ rest) =
      (FileNode.folder (alterEntry name change entries)).at? rest := by
  rw [at?, root_alter]
  exact FileNode.at?_alter stands name change rest

theorem kind?_alter_of_apart (tree : FileTree) {front : Location} {name : String}
    {place : Location} (apart : ¬ front ++ [name] <+: place)
    (change : Option FileNode → Option FileNode) :
    (tree.alter (front ++ [name]) change).kind? place = tree.kind? place := by
  rw [kind?, at?, root_alter]
  exact FileNode.kind_at?_alter apart tree.root change

/-- A node that is put into a folder stands there with all it holds. -/
theorem kind?_put {tree : FileTree} {front : Location} (folder : tree.kind? front = some .folder)
    (name : String) (node : FileNode) (rest : Location) :
    (tree.put (front ++ [name]) node).kind? (front ++ name :: rest) =
      (node.at? rest).map FileNode.kind := by
  obtain ⟨entries, stands⟩ := at?_of_kind?_folder folder
  rw [put, kind?, at?_alter stands, FileNode.at?_cons_folder, lookup_alterEntry_self]
  rfl

theorem kind?_erase {tree : FileTree} {front : Location} (folder : tree.kind? front = some .folder)
    (name : String) (rest : Location) :
    (tree.erase (front ++ [name])).kind? (front ++ name :: rest) = none := by
  obtain ⟨entries, stands⟩ := at?_of_kind?_folder folder
  rw [erase, kind?, at?_alter stands, FileNode.at?_cons_folder, lookup_alterEntry_self]
  rfl

/-- Below what is no folder there is nothing. -/
theorem kind?_below_of_not_folder {tree : FileTree} {front : Location} {name : String}
    (notFolder : tree.kind? (front ++ [name]) ≠ some .folder) (next : String) (rest : Location) :
    tree.kind? (front ++ name :: next :: rest) = none := by
  refine Option.eq_none_iff_forall_ne_some.mpr fun kind stands => notFolder ?_
  rw [List.append_cons] at stands
  exact kind?_of_append stands

/-- A file at a place where no folder stands shows nowhere else. -/
theorem kind?_put_file {tree : FileTree} {front : Location} {name : String}
    (above : tree.kind? front = some .folder)
    (notFolder : tree.kind? (front ++ [name]) ≠ some .folder) (content : ByteArray)
    (place : Location) :
    (tree.put (front ++ [name]) (.file content)).kind? place =
      if place = front ++ [name] then some (.file content) else tree.kind? place := by
  by_cases below : front ++ [name] <+: place
  · obtain ⟨rest, rfl⟩ := below
    rw [List.append_assoc, List.singleton_append, kind?_put above]
    cases rest with
    | nil => simp
    | cons next rest =>
        rw [if_neg (by simp), kind?_below_of_not_folder notFolder]
        rfl
  · have other : place ≠ front ++ [name] := fun same => below (same ▸ List.prefix_rfl)
    rw [if_neg other, put, kind?_alter_of_apart tree below]

/-- What is no folder is taken away without a trace elsewhere. -/
theorem kind?_erase_of_not_folder {tree : FileTree} {front : Location} {name : String}
    (above : tree.kind? front = some .folder)
    (notFolder : tree.kind? (front ++ [name]) ≠ some .folder) (place : Location) :
    (tree.erase (front ++ [name])).kind? place =
      if place = front ++ [name] then none else tree.kind? place := by
  by_cases below : front ++ [name] <+: place
  · obtain ⟨rest, rfl⟩ := below
    rw [List.append_assoc, List.singleton_append, kind?_erase above]
    cases rest with
    | nil => simp
    | cons next rest => rw [if_neg (by simp), kind?_below_of_not_folder notFolder]
  · have other : place ≠ front ++ [name] := fun same => below (same ▸ List.prefix_rfl)
    rw [if_neg other, erase, kind?_alter_of_apart tree below]

/-- A file can be written at the place: a file or nothing stands there. -/
def AdmitsFile (tree : FileTree) (place : Location) : Prop :=
  ∀ kind, tree.kind? place = some kind → ∃ content, kind = .file content

theorem AdmitsFile.kind?_below {tree : FileTree} {front : Location} {name : String}
    (admits : tree.AdmitsFile (front ++ [name])) (next : String) (rest : Location) :
    tree.kind? (front ++ name :: next :: rest) = none :=
  kind?_below_of_not_folder (fun folder => nomatch (admits _ folder).choose_spec) next rest

/-! ## Trees that differ in a few folders -/

/-- The trees hold the same everywhere but at the given names of one folder. -/
def AgreesOutside (tree : FileTree) (location : Location) (own : List String)
    (changed : FileTree) : Prop :=
  changed.home = tree.home ∧
    ∀ place, (∀ name ∈ own, ¬ location ++ [name] <+: place) →
      changed.kind? place = tree.kind? place

namespace AgreesOutside

variable {tree changed later : FileTree} {location : Location} {own more : List String}

theorem refl (tree : FileTree) (location : Location) (own : List String) :
    tree.AgreesOutside location own tree := ⟨rfl, fun _ _ => rfl⟩

theorem symm (agrees : tree.AgreesOutside location own changed) :
    changed.AgreesOutside location own tree :=
  ⟨agrees.1.symm, fun place apart => (agrees.2 place apart).symm⟩

theorem trans (first : tree.AgreesOutside location own changed)
    (second : changed.AgreesOutside location own later) :
    tree.AgreesOutside location own later :=
  ⟨second.1.trans first.1, fun place apart => (second.2 place apart).trans (first.2 place apart)⟩

theorem mono (agrees : tree.AgreesOutside location own changed) (subset : own ⊆ more) :
    tree.AgreesOutside location more changed :=
  ⟨agrees.1, fun place apart => agrees.2 place fun name member => apart name (subset member)⟩

/-- Trees that agree outside of names in a folder agree outside of the folder. -/
theorem coarsen {name : String} (agrees : tree.AgreesOutside (location ++ [name]) own changed) :
    tree.AgreesOutside location [name] changed :=
  ⟨agrees.1, fun place apart => agrees.2 place fun _ _ inside =>
    apart name (List.mem_singleton_self name) ((List.prefix_append _ _).trans inside)⟩

theorem alter (tree : FileTree) (location : Location) {name : String} (member : name ∈ own)
    (rest : Location) (change : Option FileNode → Option FileNode) :
    tree.AgreesOutside location own (tree.alter (location ++ name :: rest) change) := by
  refine ⟨home_alter _ _ _, fun place apart => ?_⟩
  obtain ⟨front, last, split⟩ : ∃ front last, location ++ name :: rest = front ++ [last] :=
    ⟨_, _, (List.dropLast_concat_getLast (by simp)).symm⟩
  rw [split]
  refine kind?_alter_of_apart tree (fun below => apart name member ?_) change
  rw [← split] at below
  exact (List.prefix_append (location ++ [name]) rest).trans (by simpa using below)

/-- Names of the folder that are not given hold the same. -/
theorem kind?_below (agrees : tree.AgreesOutside location own changed) {name : String}
    (other : name ∉ own) (rest : Location) :
    changed.kind? (location ++ name :: rest) = tree.kind? (location ++ name :: rest) := by
  refine agrees.2 _ fun given member below => ?_
  rw [List.prefix_append_right_inj] at below
  obtain rfl := (List.cons_prefix_cons.mp below).1
  exact other member

theorem kind?_folder (agrees : tree.AgreesOutside location own changed) :
    changed.kind? location = tree.kind? location := by
  refine agrees.2 _ fun given _ below => ?_
  have longer := below.length_le
  rw [List.length_append, List.length_singleton] at longer
  omega

theorem admitsFile (agrees : tree.AgreesOutside location own changed) {name : String}
    (other : name ∉ own) (admits : tree.AdmitsFile (location ++ [name])) :
    changed.AdmitsFile (location ++ [name]) := fun kind stands =>
  admits kind ((agrees.kind?_below other []).symm.trans stands)

/-- A name at which the trees hold the same file, or nothing, makes no difference. -/
theorem of_admitsFile {name : String} (agrees : tree.AgreesOutside location (name :: own) changed)
    (same : changed.kind? (location ++ [name]) = tree.kind? (location ++ [name]))
    (admits : tree.AdmitsFile (location ++ [name])) : tree.AgreesOutside location own changed := by
  refine ⟨agrees.1, fun place apart => ?_⟩
  by_cases below : location ++ [name] <+: place
  · obtain ⟨rest, rfl⟩ := below
    cases rest with
    | nil => rwa [List.append_nil]
    | cons next rest =>
        have admits' : changed.AdmitsFile (location ++ [name]) := fun kind => same ▸ admits kind
        rw [List.append_assoc, List.singleton_append, admits'.kind?_below, admits.kind?_below]
  · exact agrees.2 place (List.forall_mem_cons.mpr ⟨below, apart⟩)

end AgreesOutside

end FileTree
end SourceSearch
