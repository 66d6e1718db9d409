import SourceSearch.Proofs.Crawl.Paths
import SourceSearch.Proofs.FileTree.Made
import SourceSearch.Proofs.Postings.Writing

/-!
# Postings do not clash

Every file of postings has its path for itself, and no such path is on the way to another: its last
name has a dot, and the folders of trigrams have none.  So where there are only postings, the
folders of every trigram can be made, whatever has been written before.
-/

namespace SourceSearch

open Postings

/-! ## Places -/

/-- A file of postings. -/
inductive PostingsFile where
  /-- One shard of a trigram. -/
  | shard (trigram : String) (generation : Nat)
  /-- The declared number of a trigram's postings. -/
  | count (trigram : String)
  deriving DecidableEq

namespace PostingsFile

variable {file other : PostingsFile}

/-- The trigram that the file belongs to. -/
def trigram : PostingsFile → String
  | shard trigram _ => trigram
  | count trigram => trigram

/-- What follows the stem in the name of the file. -/
def suffix : PostingsFile → String
  | shard _ generation => shardEnd generation
  | count _ => countSuffix

/-- The path of the file below the folder of its namespace. -/
def path (base : Path) : PostingsFile → Path
  | shard trigram generation => shardFile base trigram generation
  | count trigram => countFile base trigram

/-- The folders on the way to the file. -/
def folders (file : PostingsFile) : List String := (tokens file.trigram).take 2

/-- The name of the file. -/
def record (file : PostingsFile) : String := "_".intercalate (tokens file.trigram) ++ file.suffix

/-- The names that lead to the file. -/
def place (file : PostingsFile) : List String := placeOf file.trigram file.suffix

theorem place_eq (file : PostingsFile) : file.place = file.folders ++ [file.record] := rfl

theorem isSuffix (file : PostingsFile) : IsSuffix file.suffix := by
  cases file with
  | shard trigram generation => exact isSuffix_shardEnd generation
  | count trigram => exact isSuffix_countSuffix

theorem isPlain (file : PostingsFile) : ∀ name ∈ file.place, IsPlain name :=
  isPlain_placeOf file.isSuffix

theorem isName_of_mem_folders {name : String} (member : name ∈ file.folders) : IsName name :=
  isName_token (List.mem_of_mem_take member)

theorem path_eq (base : Path) (file : PostingsFile) : file.path base = base.below file.place := by
  cases file with
  | shard trigram generation => exact shardFile_eq base trigram generation
  | count trigram => exact countFile_eq base trigram

/-- The place of a file tells the file. -/
theorem eq_of_place (same : file.place = other.place) : file = other := by
  obtain ⟨trigrams, suffixes⟩ := placeOf_injective file.isSuffix other.isSuffix same
  cases file with
  | shard a g =>
      cases other with
      | shard b h =>
          obtain rfl : a = b := trigrams
          rw [shardEnd_injective suffixes]
      | count b => exact absurd suffixes (shardEnd_ne_countSuffix g)
  | count a =>
      cases other with
      | shard b h => exact absurd suffixes.symm (shardEnd_ne_countSuffix h)
      | count b =>
          obtain rfl : a = b := trigrams
          rfl

/-- The name of a file has a dot, and no folder of a trigram has one. -/
theorem record_not_mem_folders (file other : PostingsFile) : file.record ∉ other.folders := by
  intro member
  obtain ⟨rest, dot⟩ := file.isSuffix.dot
  have letter : '.' ∈ tokenLetters := letters_of_mem_tokens (List.mem_of_mem_take member) '.'
    (by simp [record, dot])
  exact absurd letter (by decide)

/-- No file stands where a folder of a trigram has to be. -/
theorem not_place_prefix_folders (file other : PostingsFile) : ¬ file.place <+: other.folders :=
  fun onTheWay => file.record_not_mem_folders other (onTheWay.subset (by simp [place_eq]))

/-- A place on the way to another one is that place. -/
theorem eq_of_place_prefix (onTheWay : file.place <+: other.place) : file = other := by
  rcases List.prefix_concat_iff.mp onTheWay with same | inside
  · exact eq_of_place same
  · exact absurd inside (file.not_place_prefix_folders other)

/-- A path on the way to another one is that path. -/
theorem eq_of_components_prefix {base : Path}
    (onTheWay : (file.path base).components <+: (other.path base).components) : file = other := by
  rw [path_eq, path_eq, Path.components_below _ file.isPlain, Path.components_below _ other.isPlain,
    List.prefix_append_right_inj] at onTheWay
  exact eq_of_place_prefix
    ((List.prefix_map_iff_of_injective fun _ _ => Path.Component.name.inj).mp onTheWay)

theorem eq_of_components {base : Path}
    (same : (file.path base).components = (other.path base).components) : file = other := by
  have onTheWay : (file.path base).components <+: (other.path base).components :=
    same ▸ List.prefix_rfl
  exact eq_of_components_prefix onTheWay

theorem folders_ne_nil (nonempty : file.trigram ≠ "") : file.folders ≠ [] := by
  rw [folders, Ne, List.take_eq_nil_iff]
  rintro (two | none)
  · cases two
  · exact nonempty (tokens_injective (none.trans rfl))

/-- The folders on the way to a file are those that are made before it is written. -/
theorem parent?_path (base : Path) (nonempty : file.trigram ≠ "") :
    (file.path base).parent? = some (base.below file.folders) := by
  have plain := file.isPlain
  rw [place_eq, List.forall_mem_append, List.forall_mem_singleton] at plain
  rw [path_eq, place_eq]
  exact base.parent?_below (folders_ne_nil nonempty) plain.1 plain.2

end PostingsFile

namespace FileTree

variable {tree after : FileTree} {base : Path} {own : List String} {location : Location}
  {entries : List (String × FileNode)}

/-! ## Folders of trigrams -/

/-- Below a location there are folders and files of postings at their places. -/
def HoldsPostings (tree : FileTree) (location : Location) : Prop :=
  ∀ name rest kind, tree.kind? (location ++ name :: rest) = some kind →
    kind = .folder ∨
      ∃ (file : PostingsFile) (content : ByteArray),
        name :: rest = file.place ∧ kind = .file content

theorem holdsPostings_of_empty (found : tree.find base = .ok (location, .folder [])) :
    tree.HoldsPostings location := by
  intro name rest kind stands
  rw [kind?_below_of_empty found] at stands
  cases stands

theorem HoldsPostings.linkless (holds : tree.HoldsPostings location) (folder : String) :
    tree.Linkless location folder := by
  intro names target link
  rcases holds folder names _ link with kind | ⟨file, content, -, kind⟩ <;> cases kind

/-- Among postings the folders of every file can be made. -/
theorem HoldsPostings.exists_makeFolders (holds : tree.HoldsPostings location)
    (found : tree.find base = .ok (location, .folder entries)) (file : PostingsFile) :
    ∃ made, tree.makeFolders (base.below file.folders) = (made, none) := by
  cases folders : file.folders with
  | nil => exact ⟨tree, makeFolders_of_find found⟩
  | cons folder rest =>
      have proper : ∀ name ∈ folder :: rest, IsName name := fun name member =>
        PostingsFile.isName_of_mem_folders (folders ▸ member)
      have stands := kind?_of_at? (find_iff.mp found).2.2
      rw [makeFolders_below found (by simp) (isPlain_of_isName proper), if_neg
        fun ⟨name, member, nul⟩ => (proper name member).noNul nul]
      rcases made : tree.makeFoldersFrom location (folder :: rest) with ⟨after, fault⟩
      obtain ⟨-, -, fails⟩ := makeFoldersFrom_spec (List.nil_append (folder :: rest))
        (holds.linkless folder) (by simpa using stands) (isPlain_of_isName proper)
        (fun name member => (proper name member).noNul) (by simpa using made)
      cases fault with
      | none => exact ⟨after, rfl⟩
      | some fault =>
          rcases fails (by simp) with ⟨name, member, improper⟩ | ⟨front, inside, kind, held, isFile⟩
          · exact absurd (proper name member) improper
          rw [List.append_nil] at held
          cases front with
          | nil =>
              rw [List.append_nil, stands] at held
              cases held
              cases isFile
          | cons name front =>
              rcases holds name front _ held with rfl | ⟨other, -, here, -⟩
              · cases isFile
              · rw [here, ← folders] at inside
                exact absurd inside (other.not_place_prefix_folders file)

/-! ## Writes -/

/-- A write of postings leaves postings. -/
theorem HoldsPostings.of_puts {folder last : String} {front : List String} {content : ByteArray}
    {succeeded : Bool} (holds : tree.HoldsPostings location) {file : PostingsFile}
    (leads : file.place = folder :: front ++ [last])
    (puts : PutsFile location folder front last content tree after succeeded) :
    after.HoldsPostings location := by
  have made {between : FileTree} (makes : MakesFolders location folder front tree between) :
      between.HoldsPostings location := by
    intro name rest kind stands
    rcases makes.makes _ kind stands with before | ⟨kind, -⟩
    · exact holds name rest kind before
    · exact .inl kind
  cases puts with
  | refused makes => exact made makes
  | put makes above notFolder =>
      intro name rest kind stands
      rw [kind?_put_file above notFolder] at stands
      split at stands
      · rename_i here
        rw [List.append_assoc, List.append_cancel_left_eq] at here
        exact .inr ⟨file, content, here.trans leads.symm, (Option.some.inj stands).symm⟩
      · exact made makes name rest kind stands

/-- The tree after one file of postings has been written, whether or not the write succeeds. -/
def writePostings (base : Path) (tree : FileTree) (write : PostingsFile × ByteArray) : FileTree :=
  ((TaskM.writeFile (write.1.path base) write.2).runOn tree).2

theorem HoldsPostings.of_write (holds : tree.HoldsPostings location)
    (hosts : tree.Hosts base own location) {write : PostingsFile × ByteArray}
    (filled : write.1.trigram ≠ "") (inside : ∀ name ∈ write.1.folders, name ∈ own) :
    (writePostings base tree write).HoldsPostings location ∧
      (writePostings base tree write).Hosts base own location := by
  obtain ⟨file, content⟩ := write
  obtain ⟨folder, front, folders⟩ := List.exists_cons_of_ne_nil
    (PostingsFile.folders_ne_nil filled)
  have leads : file.place = folder :: front ++ [file.record] := by
    rw [PostingsFile.place_eq, folders]
  have member : folder ∈ own := inside folder (by simp [folders])
  have plain := file.isPlain
  rw [leads] at plain
  rw [writePostings, file.path_eq, leads]
  rcases run : (TaskM.writeFile (base.below (folder :: front ++ [file.record])) content).runOn tree
    with ⟨outcome, after⟩
  have puts := writeFile_puts hosts member (holds.linkless folder) plain run
  exact ⟨holds.of_puts leads puts, hosts.of_agrees (puts.agrees.mono (by simpa using member))⟩

theorem HoldsPostings.of_writes {writes : List (PostingsFile × ByteArray)}
    (holds : tree.HoldsPostings location) (hosts : tree.Hosts base own location)
    (filled : ∀ write ∈ writes, write.1.trigram ≠ "")
    (inside : ∀ write ∈ writes, ∀ name ∈ write.1.folders, name ∈ own) :
    (writes.foldl (writePostings base) tree).HoldsPostings location ∧
      (writes.foldl (writePostings base) tree).Hosts base own location := by
  induction writes generalizing tree with
  | nil => exact ⟨holds, hosts⟩
  | cons write writes ih =>
      rw [List.forall_mem_cons] at filled inside
      obtain ⟨holds', hosts'⟩ := holds.of_write hosts filled.1 inside.1
      exact ih holds' hosts' filled.2 inside.2

/-- Whatever postings have been written below an empty folder, the folders of all others can be
made. -/
theorem exists_makeFolders_of_writes (found : tree.find base = .ok (location, .folder []))
    {writes : List (PostingsFile × ByteArray)} (filled : ∀ write ∈ writes, write.1.trigram ≠ "")
    (file : PostingsFile) :
    ∃ made, (writes.foldl (writePostings base) tree).makeFolders (base.below file.folders) =
      (made, none) := by
  obtain ⟨holds, hosts⟩ := (holdsPostings_of_empty found).of_writes
    (hosts_of_empty found (writes.flatMap (·.1.folders))) filled
    fun write member name inside => List.mem_flatMap.mpr ⟨write, member, inside⟩
  obtain ⟨entries, there⟩ := hosts.find
  exact holds.exists_makeFolders there file

end FileTree

/-! ## The files of one base -/

namespace Postings

/-- The files of postings below a path do not clash.  Two paths are the same if their components
are. -/
structure FilesApart (base : Path) : Prop where
  /-- A shard shares its path with no other shard. -/
  shard : ∀ (a b : String) (g h : Nat),
    (shardFile base a g).components = (shardFile base b h).components → a = b ∧ g = h
  /-- A count shares its path with no other count. -/
  count : ∀ a b : String, (countFile base a).components = (countFile base b).components → a = b
  /-- No path is that of a shard and of a count. -/
  shard_ne_count : ∀ (a b : String) (generation : Nat),
    (shardFile base a generation).components ≠ (countFile base b).components
  /-- No path is a folder on the way to another. -/
  not_on_the_way : ∀ file other : PostingsFile, (file.path base).components ≠
      (other.path base).components → ¬ (file.path base).components <+: (other.path base).components
  /-- The folder that is made for a file of a trigram is that of its first two tokens. -/
  parent : ∀ file : PostingsFile, file.trigram ≠ "" →
    (file.path base).parent? = some (base.below file.folders)
  /-- Where there are only postings below the base, no file is in the way of the folders of
  another. -/
  folders : ∀ (tree : FileTree) (location : Location) (entries : List (String × FileNode)),
    tree.find base = .ok (location, .folder entries) → tree.HoldsPostings location →
      ∀ file : PostingsFile, ∃ made, tree.makeFolders (base.below file.folders) = (made, none)

/-- **Postings do not clash**, whatever their base. -/
theorem filesApart (base : Path) : FilesApart base where
  shard a b g h same := by
    have files : PostingsFile.shard a g = .shard b h := PostingsFile.eq_of_components same
    exact PostingsFile.shard.inj files
  count a b same := by
    have files : PostingsFile.count a = .count b := PostingsFile.eq_of_components same
    exact PostingsFile.count.inj files
  shard_ne_count a b g same := by
    have files : PostingsFile.shard a g = .count b := PostingsFile.eq_of_components same
    cases files
  not_on_the_way file other different onTheWay :=
    different (by rw [PostingsFile.eq_of_components_prefix onTheWay])
  parent _ nonempty := PostingsFile.parent?_path base nonempty
  folders _ _ _ found holds := holds.exists_makeFolders found

end Postings
end SourceSearch
