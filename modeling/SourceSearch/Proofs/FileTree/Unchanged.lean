import SourceSearch.Proofs.FileTree.Records

/-!
# Reads that a change leaves alone

What is read at a place, and the fault where nothing can be read, depend only on the kinds of nodes
on the way there.  So a change to one record folder does not show in what is read from the others.
-/

namespace SourceSearch
namespace FileTree

variable {tree changed : FileTree} {root : Path} {own : List String} {location : Location}

/-- What is read where a walk ends. -/
def readFound : Except Fault Found → Except Fault ByteArray
  | .ok (.node _ (.file content)) => .ok content
  | .ok (.node _ (.sealed _)) => .error .denied
  | .ok (.node _ _) => .error .isFolder
  | .ok (.vacant _ _) => .error .missing
  | .error fault => .error fault

theorem read_eq (tree : FileTree) (path : Path) :
    tree.read path = readFound (tree.resolve path true) := by
  rw [read, find]
  cases tree.resolve path true with
  | error fault => rfl
  | ok found =>
      cases found with
      | node place node => cases node <;> rfl
      | vacant folder name => rfl

theorem readFound_node_congr {place : Location} {node other : FileNode}
    (same : other.kind = node.kind) :
    readFound (.ok (.node place other)) = readFound (.ok (.node place node)) := by
  cases node with
  | file content => rw [FileNode.eq_file_of_kind same]
  | sealed size => rw [FileNode.eq_sealed_of_kind same]
  | link target => cases other <;> first | rfl | cases same
  | folder entries => cases other <;> first | rfl | cases same

/-- Walks without links that see the same kinds read the same. -/
theorem readFound_walkWithin_congr {place : Location} {names : List String} {kind : NodeKind}
    (stands : tree.kind? place = some kind)
    (same : ∀ front rest, front ++ rest = names →
      changed.kind? (place ++ front) = tree.kind? (place ++ front))
    (noLinks : ∀ front rest target, front ++ rest = names → front ≠ [] →
      tree.kind? (place ++ front) ≠ some (.link target))
    (plain : ∀ name ∈ names, IsPlain name) (links links' : Nat) :
    readFound (changed.walkWithin true links place names) =
      readFound (tree.walkWithin true links' place names) := by
  have here : changed.kind? place = tree.kind? place := by
    simpa using same [] names rfl
  induction names generalizing place kind with
  | nil =>
      obtain ⟨node, held, -⟩ := Option.map_eq_some_iff.mp stands
      obtain ⟨other, held', -⟩ := Option.map_eq_some_iff.mp (here.trans stands)
      rw [walkWithin_nil _ held, walkWithin_nil _ held']
      refine readFound_node_congr (Option.some.inj ?_)
      rw [← kind?_of_at? held, ← kind?_of_at? held', here]
  | cons name rest ih =>
      rw [List.forall_mem_cons] at plain
      have next : changed.kind? (place ++ [name]) = tree.kind? (place ++ [name]) :=
        same [name] rest rfl
      by_cases folder : tree.kind? place = some .folder
      · have folder' := here.trans folder
        by_cases short : name.utf8ByteSize ≤ maxNameBytes
        · have lookedUp : IsLookedUp name := ⟨plain.1.notHere, plain.1.notUp, short⟩
          cases found : tree.kind? (place ++ [name]) with
          | none =>
              rw [walkWithin_missing _ folder lookedUp found,
                walkWithin_missing _ folder' lookedUp (next.trans found)]
          | some first =>
              have notLink : ∀ target, first ≠ .link target := by
                rintro target rfl
                exact noLinks [name] rest target rfl (by simp) found
              rw [walkWithin_step _ lookedUp found notLink,
                walkWithin_step _ lookedUp (next.trans found) notLink]
              refine ih found (fun front rest' whole => ?_) (fun front rest' target whole _ => ?_)
                plain.2 next
              · rw [List.append_assoc]
                exact same (name :: front) rest' (by simp [← whole])
              · rw [List.append_assoc]
                exact noLinks (name :: front) rest' target (by simp [← whole]) (by simp)
        · rw [walkWithin_long _ folder plain.1.notHere plain.1.notUp (Nat.not_le.mp short),
            walkWithin_long _ folder' plain.1.notHere plain.1.notUp (Nat.not_le.mp short)]
      · rw [walkWithin_cons_of_not_folder _ folder,
          walkWithin_cons_of_not_folder _ (here ▸ folder)]

/-- Reads from a record folder do not notice a change in others. -/
theorem AgreesOutside.read_below (agrees : tree.AgreesOutside location own changed)
    (hosts : tree.Hosts root own location) {folder : String} (other : folder ∉ own)
    (linkless : tree.Linkless location folder) {names : List String}
    (plain : ∀ name ∈ folder :: names, IsPlain name) :
    changed.read (root.below (folder :: names)) = tree.read (root.below (folder :: names)) := by
  obtain ⟨entries, found⟩ := hosts.find
  obtain ⟨entries', found'⟩ := hosts changed agrees
  rw [read_eq, read_eq]
  by_cases clean : ∀ name ∈ folder :: names, '\x00' ∉ name.toList
  · obtain ⟨left, goes⟩ := resolve_below found
    obtain ⟨left', goes'⟩ := resolve_below found'
    rw [goes true _ (by simp) plain clean, goes' true _ (by simp) plain clean]
    refine readFound_walkWithin_congr hosts.kind? (fun front rest whole => ?_)
      linkless.noLinks plain _ _
    cases front with
    | nil => rw [List.append_nil, agrees.kind?_folder]
    | cons first front =>
        obtain rfl := (List.cons.inj whole).1
        exact agrees.kind?_below other front
  · have nul : ∃ name ∈ folder :: names, '\x00' ∈ name.toList :=
      Classical.not_not.mp fun absent =>
        clean fun name member inside => absent ⟨name, member, inside⟩
    rw [resolve_below_of_nul _ plain nul, resolve_below_of_nul _ plain nul]

/-! ## Missing files -/

/-- Where folders lead to and nothing stands, a file is missing. -/
theorem readFound_walkWithin_missing {place : Location} {names : List String}
    (folder : tree.kind? place = some .folder) (proper : ∀ name ∈ names, IsName name)
    (folders : ∀ front rest kind, front ++ rest = names → front ≠ [] → rest ≠ [] →
      tree.kind? (place ++ front) = some kind → kind = .folder)
    (absent : tree.kind? (place ++ names) = none) (links : Nat) :
    readFound (tree.walkWithin true links place names) = .error .missing := by
  induction names generalizing place with
  | nil =>
      rw [List.append_nil, folder] at absent
      cases absent
  | cons name rest ih =>
      rw [List.forall_mem_cons] at proper
      have lookedUp : IsLookedUp name := ⟨proper.1.notHere, proper.1.notUp, proper.1.short⟩
      cases found : tree.kind? (place ++ [name]) with
      | none =>
          rw [walkWithin_missing _ folder lookedUp found]
          split <;> rfl
      | some kind =>
          have more : rest ≠ [] := by
            rintro rfl
            rw [found] at absent
            cases absent
          obtain rfl := folders [name] rest kind rfl (by simp) more found
          rw [walkWithin_step _ lookedUp found (by simp)]
          refine ih found proper.2 (fun front rest' kind whole _ => ?_) ?_
          · rw [List.append_assoc]
            exact folders (name :: front) rest' kind (by rw [← whole]; rfl) (by simp)
          · rwa [List.append_assoc]

/-- A file of a record folder is read, or else it is missing. -/
theorem read_below_eq_elim {entries : List (String × FileNode)}
    (found : tree.find root = .ok (location, .folder entries)) {folder : String} {depth : Nat}
    (layered : tree.Layered location folder depth) {names : List String}
    (deep : names.length = depth) (proper : ∀ name ∈ folder :: names, IsName name) :
    tree.read (root.below (folder :: names)) =
      (tree.fileAt? (location ++ folder :: names)).elim (.error .missing) .ok := by
  cases held : tree.fileAt? (location ++ folder :: names) with
  | some content =>
      rw [read_below found layered.linkless proper held]
      rfl
  | none =>
      have absent : tree.kind? (location ++ folder :: names) = none := by
        cases is : tree.kind? (location ++ folder :: names) with
        | none => rfl
        | some kind =>
            rcases layered names kind is with ⟨short, -⟩ | ⟨-, content, rfl⟩
            · omega
            · rw [fileAt?_eq_some_iff.mpr is] at held
              cases held
      obtain ⟨left, goes⟩ := resolve_below found
      have hosted : tree.kind? location = some .folder := kind?_of_at? (find_iff.mp found).2.2
      rw [read_eq, goes true _ (by simp) (fun name member => (proper name member).toIsPlain)
        fun name member => (proper name member).noNul]
      refine readFound_walkWithin_missing hosted proper (fun front rest kind whole _ more is => ?_)
        absent _
      -- Between the record folder and the file there are folders only.
      cases front with
      | nil => contradiction
      | cons first front =>
          rw [List.cons_append, List.cons.injEq] at whole
          obtain ⟨rfl, rfl⟩ := whole
          have positive := List.length_pos_iff.mpr more
          rw [List.length_append] at deep
          rcases layered front kind is with ⟨-, kind⟩ | ⟨all, -⟩
          · exact kind
          · omega

end FileTree
end SourceSearch
