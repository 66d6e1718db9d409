import SourceSearch.Proofs.FileTree.Nodes

/-!
# Walks that arrive

A walk that arrives at a node is a derivation, one rule for each thing that a step can do.  From it
come the composition of walks and what a walk in one tree says about a walk in another.
-/

namespace SourceSearch
namespace FileTree

variable {tree : FileTree} {followLast : Bool} {links : Nat} {location : Location} {step : String}
  {rest : List String}

/-! ## Single steps -/

/-- A name that can stand in a folder and is looked up there. -/
def IsLookedUp (step : String) : Prop :=
  step ≠ "." ∧ step ≠ ".." ∧ step.utf8ByteSize ≤ maxNameBytes

/-- What becomes of a walk that meets a link. -/
def afterLink (tree : FileTree) (followLast : Bool) :
    Nat → Location → List String → Except Fault Found
  | 0 => fun _ _ => .error .tooManyLinks
  | links + 1 => tree.walkWithin followLast links

/-- Where the target of a link that is met in a folder starts. -/
def linkStart (location : Location) (target : Path) : Location :=
  if target.isAbsolute then [] else location

theorem walkWithin_eq_walk (links : Nat) (location : Location) (steps : List String) :
    tree.walkWithin followLast links location steps =
      tree.walk followLast (tree.afterLink followLast links) location steps := by
  cases links <;> rfl

theorem walkWithin_nil (links : Nat) {node : FileNode} (stands : tree.at? location = some node) :
    tree.walkWithin followLast links location [] = .ok (.node location node) := by
  rw [walkWithin_eq_walk, walk, stands]

theorem walkWithin_cons_of_not_folder (links : Nat) (notFolder : tree.kind? location ≠ some .folder)
    (step : String) (rest : List String) :
    tree.walkWithin followLast links location (step :: rest) = .error .notFolder := by
  rw [walkWithin_eq_walk, walk]
  split
  · rename_i entries stands
    exact absurd (kind?_of_at? stands) notFolder
  · rfl

theorem walkWithin_here (links : Nat) (folder : tree.kind? location = some .folder)
    (rest : List String) :
    tree.walkWithin followLast links location ("." :: rest) =
      tree.walkWithin followLast links location rest := by
  obtain ⟨entries, stands⟩ := at?_of_kind?_folder folder
  rw [walkWithin_eq_walk, walkWithin_eq_walk, walk, stands]
  rfl

theorem walkWithin_up (links : Nat) (folder : tree.kind? location = some .folder)
    (rest : List String) :
    tree.walkWithin followLast links location (".." :: rest) =
      tree.walkWithin followLast links location.dropLast rest := by
  obtain ⟨entries, stands⟩ := at?_of_kind?_folder folder
  rw [walkWithin_eq_walk, walkWithin_eq_walk, walk, stands]
  rfl

theorem walkWithin_long (links : Nat) (folder : tree.kind? location = some .folder)
    (notHere : step ≠ ".") (notUp : step ≠ "..") (long : maxNameBytes < step.utf8ByteSize)
    (rest : List String) :
    tree.walkWithin followLast links location (step :: rest) = .error .nameTooLong := by
  obtain ⟨entries, stands⟩ := at?_of_kind?_folder folder
  rw [walkWithin_eq_walk, walk, stands]
  simp only [if_neg notHere, if_neg notUp, if_pos long]

/-- The lookup of a name in a folder. -/
private theorem walk_lookedUp {entries : List (String × FileNode)}
    (stands : tree.at? location = some (.folder entries)) (name : IsLookedUp step)
    (again : Location → List String → Except Fault Found) (rest : List String) :
    tree.walk followLast again location (step :: rest) =
      match entries.lookup step with
      | none => if rest = [] then .ok (.vacant location step) else .error .missing
      | some (.link target) =>
          if rest = [] && !followLast then .ok (.node (location ++ [step]) (.link target))
          else again (linkStart location target) (target.steps ++ rest)
      | some _ => tree.walk followLast again (location ++ [step]) rest := by
  rw [walk, stands]
  simp only [if_neg name.1, if_neg name.2.1, if_neg (Nat.not_lt.mpr name.2.2)]
  rfl

theorem walkWithin_missing (links : Nat) (folder : tree.kind? location = some .folder)
    (name : IsLookedUp step) (missing : tree.kind? (location ++ [step]) = none)
    (rest : List String) :
    tree.walkWithin followLast links location (step :: rest) =
      if rest = [] then .ok (.vacant location step) else .error .missing := by
  obtain ⟨entries, stands⟩ := at?_of_kind?_folder folder
  rw [kind?_snoc stands, Option.map_eq_none_iff] at missing
  rw [walkWithin_eq_walk, walk_lookedUp stands name, missing]

theorem walkWithin_step (links : Nat) (name : IsLookedUp step) {kind : NodeKind}
    (found : tree.kind? (location ++ [step]) = some kind) (notLink : ∀ target, kind ≠ .link target)
    (rest : List String) :
    tree.walkWithin followLast links location (step :: rest) =
      tree.walkWithin followLast links (location ++ [step]) rest := by
  obtain ⟨entries, stands⟩ := at?_of_kind?_folder (kind?_of_append found)
  rw [kind?_snoc stands] at found
  obtain ⟨node, held, rfl⟩ := Option.map_eq_some_iff.mp found
  rw [walkWithin_eq_walk, walkWithin_eq_walk, walk_lookedUp stands name, held]
  cases node with
  | file content => rfl
  | sealed size => rfl
  | link target => exact absurd rfl (notLink target)
  | folder entries => rfl

theorem walkWithin_follow (links : Nat) (name : IsLookedUp step) {target : Path}
    (found : tree.kind? (location ++ [step]) = some (.link target))
    (follows : rest ≠ [] ∨ followLast = true) :
    tree.walkWithin followLast links location (step :: rest) =
      tree.afterLink followLast links (linkStart location target) (target.steps ++ rest) := by
  obtain ⟨entries, stands⟩ := at?_of_kind?_folder (kind?_of_append found)
  rw [kind?_snoc stands] at found
  obtain ⟨node, held, kind⟩ := Option.map_eq_some_iff.mp found
  obtain rfl := FileNode.eq_link_of_kind kind
  rw [walkWithin_eq_walk, walk_lookedUp stands name, held]
  refine if_neg fun stays => ?_
  simp only [Bool.and_eq_true, decide_eq_true_eq, Bool.not_eq_true'] at stays
  rcases follows with more | all
  · exact more stays.1
  · exact Bool.false_ne_true (stays.2.symm.trans all)

theorem walkWithin_stay (links : Nat) (name : IsLookedUp step) {target : Path}
    (found : tree.kind? (location ++ [step]) = some (.link target)) :
    tree.walkWithin false links location [step] =
      .ok (.node (location ++ [step]) (.link target)) := by
  obtain ⟨entries, stands⟩ := at?_of_kind?_folder (kind?_of_append found)
  rw [kind?_snoc stands] at found
  obtain ⟨node, held, kind⟩ := Option.map_eq_some_iff.mp found
  obtain rfl := FileNode.eq_link_of_kind kind
  rw [walkWithin_eq_walk, walk_lookedUp stands name, held]
  rfl

/-! ## Derivations -/

/-- A walk along `steps` with at most `links` links that arrives at a place. -/
inductive Arrives (tree : FileTree) (followLast : Bool) :
    (links : Nat) → Location → List String → Location → Prop where
  /-- All steps are done. -/
  | done {links location kind} (stands : tree.kind? location = some kind) :
      Arrives tree followLast links location [] location
  /-- The folder itself. -/
  | here {links location rest place} (folder : tree.kind? location = some .folder)
      (walk : Arrives tree followLast links location rest place) :
      Arrives tree followLast links location ("." :: rest) place
  /-- The folder above. -/
  | up {links location rest place} (folder : tree.kind? location = some .folder)
      (walk : Arrives tree followLast links location.dropLast rest place) :
      Arrives tree followLast links location (".." :: rest) place
  /-- Something that is no link. -/
  | step {links location step kind rest place} (name : IsLookedUp step)
      (found : tree.kind? (location ++ [step]) = some kind)
      (notLink : ∀ target, kind ≠ .link target)
      (walk : Arrives tree followLast links (location ++ [step]) rest place) :
      Arrives tree followLast links location (step :: rest) place
  /-- A link that is followed. -/
  | follow {links location step target rest place} (name : IsLookedUp step)
      (found : tree.kind? (location ++ [step]) = some (.link target))
      (follows : rest ≠ [] ∨ followLast = true)
      (walk : Arrives tree followLast links (linkStart location target) (target.steps ++ rest)
        place) :
      Arrives tree followLast (links + 1) location (step :: rest) place
  /-- A link that the walk ends at. -/
  | stay {links location step target} (name : IsLookedUp step)
      (found : tree.kind? (location ++ [step]) = some (.link target))
      (stays : followLast = false) :
      Arrives tree followLast links location [step] (location ++ [step])

theorem Arrives.walkWithin {place : Location} {steps : List String}
    (walk : tree.Arrives followLast links location steps place) :
    ∃ node, tree.at? place = some node ∧
      tree.walkWithin followLast links location steps = .ok (.node place node) := by
  induction walk with
  | done stands =>
      obtain ⟨node, held, -⟩ := Option.map_eq_some_iff.mp stands
      exact ⟨node, held, walkWithin_nil _ held⟩
  | here folder _ ih => rwa [walkWithin_here _ folder]
  | up folder _ ih => rwa [walkWithin_up _ folder]
  | step name found notLink _ ih => rwa [walkWithin_step _ name found notLink]
  | follow name found follows _ ih => rwa [walkWithin_follow _ name found follows]
  | stay name found stays =>
      subst stays
      exact ⟨_, at?_of_kind?_link found, walkWithin_stay _ name found⟩

theorem arrives_of_again
    (again : ∀ start steps place node,
      tree.afterLink followLast links start steps = .ok (.node place node) →
      ∃ fewer, links = fewer + 1 ∧ tree.Arrives followLast fewer start steps place)
    {steps : List String} {place : Location} {node : FileNode}
    (reached : tree.walkWithin followLast links location steps = .ok (.node place node)) :
    tree.Arrives followLast links location steps place := by
  induction steps generalizing location with
  | nil =>
      rw [walkWithin_eq_walk, walk] at reached
      split at reached
      · rename_i found stands
        cases reached
        exact .done (kind?_of_at? stands)
      · cases reached
  | cons step rest ih =>
      by_cases folder : tree.kind? location = some .folder
      case neg =>
        rw [walkWithin_cons_of_not_folder _ folder] at reached
        cases reached
      by_cases here : step = "."
      · subst here
        rw [walkWithin_here _ folder] at reached
        exact .here folder (ih reached)
      by_cases up : step = ".."
      · subst up
        rw [walkWithin_up _ folder] at reached
        exact .up folder (ih reached)
      by_cases short : step.utf8ByteSize ≤ maxNameBytes
      case neg =>
        rw [walkWithin_long _ folder here up (Nat.not_le.mp short)] at reached
        cases reached
      have name : IsLookedUp step := ⟨here, up, short⟩
      cases kind : tree.kind? (location ++ [step]) with
      | none =>
          rw [walkWithin_missing _ folder name kind] at reached
          split at reached
          · cases reached
          · cases reached
      | some found =>
          by_cases link : ∃ target, found = .link target
          · obtain ⟨target, rfl⟩ := link
            by_cases follows : rest ≠ [] ∨ followLast = true
            · rw [walkWithin_follow _ name kind follows] at reached
              obtain ⟨fewer, rfl, walk⟩ := again _ _ _ _ reached
              exact .follow name kind follows walk
            · rw [not_or, Classical.not_not, Bool.not_eq_true] at follows
              obtain ⟨rfl, rfl⟩ := follows
              rw [walkWithin_stay _ name kind] at reached
              cases reached
              exact .stay name kind rfl
          · have notLink : ∀ target, found ≠ .link target := fun target is => link ⟨target, is⟩
            rw [walkWithin_step _ name kind notLink] at reached
            exact .step name kind notLink (ih reached)

/-- The derivations are the walks that arrive. -/
theorem arrives_iff {steps : List String} {place : Location} {node : FileNode} :
    tree.walkWithin followLast links location steps = .ok (.node place node) ↔
      tree.Arrives followLast links location steps place ∧ tree.at? place = some node := by
  constructor
  · intro reached
    have walk : tree.Arrives followLast links location steps place := by
      induction links generalizing location steps place node with
      | zero => exact arrives_of_again (fun _ _ _ _ eq => by cases eq) reached
      | succ links ih => exact arrives_of_again (fun _ _ _ _ eq => ⟨links, rfl, ih eq⟩) reached
    obtain ⟨held, stands, same⟩ := walk.walkWithin
    rw [reached] at same
    cases same
    exact ⟨walk, stands⟩
  · rintro ⟨walk, stands⟩
    obtain ⟨held, stands', reached⟩ := walk.walkWithin
    rw [reached, Option.some.inj (stands'.symm.trans stands)]

/-! ## Walks on end -/

/-- More links do no harm. -/
theorem Arrives.mono {steps : List String} {place : Location}
    (walk : tree.Arrives followLast links location steps place) {more : Nat}
    (bound : links ≤ more) : tree.Arrives followLast more location steps place := by
  induction walk generalizing more with
  | done stands => exact .done stands
  | here folder _ ih => exact .here folder (ih bound)
  | up folder _ ih => exact .up folder (ih bound)
  | step name found notLink _ ih => exact .step name found notLink (ih bound)
  | follow name found follows _ ih =>
      obtain ⟨more, rfl⟩ : ∃ fewer, more = fewer + 1 := ⟨more - 1, by omega⟩
      exact .follow name found follows (ih (by omega))
  | stay name found stays => exact .stay name found stays

/-- A walk goes on from where its front arrives, with the links that are left. -/
theorem Arrives.append {front : List String} {place : Location}
    (walk : tree.Arrives true links location front place) :
    ∃ left ≤ links, ∀ (followLast : Bool) (rest : List String), rest ≠ [] →
      tree.walkWithin followLast links location (front ++ rest) =
        tree.walkWithin followLast left place rest := by
  induction walk with
  | done stands => exact ⟨_, Nat.le_refl _, fun _ _ _ => rfl⟩
  | here folder _ ih =>
      obtain ⟨left, bound, goes⟩ := ih
      refine ⟨left, bound, fun followLast rest more => ?_⟩
      rw [List.cons_append, walkWithin_here _ folder, goes followLast rest more]
  | up folder _ ih =>
      obtain ⟨left, bound, goes⟩ := ih
      refine ⟨left, bound, fun followLast rest more => ?_⟩
      rw [List.cons_append, walkWithin_up _ folder, goes followLast rest more]
  | step name found notLink _ ih =>
      obtain ⟨left, bound, goes⟩ := ih
      refine ⟨left, bound, fun followLast rest more => ?_⟩
      rw [List.cons_append, walkWithin_step _ name found notLink, goes followLast rest more]
  | follow name found follows _ ih =>
      obtain ⟨left, bound, goes⟩ := ih
      refine ⟨left, Nat.le_succ_of_le bound, fun followLast rest more => ?_⟩
      rw [List.cons_append, walkWithin_follow _ name found (.inl (by simp [more])),
        ← List.append_assoc]
      exact goes followLast rest more
  | stay name found stays => cases stays

/-- The front of a walk that arrives arrives as well, its last link followed. -/
theorem Arrives.front {front rest : List String} {place : Location}
    (walk : tree.Arrives true links location (front ++ rest) place) :
    ∃ reached, tree.Arrives true links location front reached := by
  generalize whole : front ++ rest = steps at walk
  induction walk generalizing front with
  | done stands =>
      obtain ⟨rfl, rfl⟩ := List.append_eq_nil_iff.mp whole
      exact ⟨_, .done stands⟩
  | here folder walk ih =>
      cases front with
      | nil => exact ⟨_, .done folder⟩
      | cons first front =>
          obtain ⟨rfl, tail⟩ := List.cons.inj whole
          obtain ⟨reached, arrives⟩ := ih tail
          exact ⟨reached, .here folder arrives⟩
  | up folder walk ih =>
      cases front with
      | nil => exact ⟨_, .done folder⟩
      | cons first front =>
          obtain ⟨rfl, tail⟩ := List.cons.inj whole
          obtain ⟨reached, arrives⟩ := ih tail
          exact ⟨reached, .up folder arrives⟩
  | step name found notLink walk ih =>
      cases front with
      | nil => exact ⟨_, .done (kind?_of_append found)⟩
      | cons first front =>
          obtain ⟨rfl, tail⟩ := List.cons.inj whole
          obtain ⟨reached, arrives⟩ := ih tail
          exact ⟨reached, .step name found notLink arrives⟩
  | @follow links location step target others place name found follows walk ih =>
      cases front with
      | nil => exact ⟨_, .done (kind?_of_append found)⟩
      | cons first front =>
          obtain ⟨rfl, tail⟩ := List.cons.inj whole
          obtain ⟨reached, arrives⟩ := @ih (target.steps ++ front)
            ((List.append_assoc _ _ _).trans (congrArg (target.steps ++ ·) tail))
          exact ⟨reached, .follow name found (.inr rfl) arrives⟩
  | stay name found stays => cases stays

/-- What a tree has more of does not turn walks away. -/
theorem Arrives.grow {steps : List String} {place : Location}
    (walk : tree.Arrives followLast links location steps place) {grown : FileTree}
    (grows : ∀ place kind, tree.kind? place = some kind → grown.kind? place = some kind) :
    grown.Arrives followLast links location steps place := by
  induction walk with
  | done stands => exact .done (grows _ _ stands)
  | here folder _ ih => exact .here (grows _ _ folder) ih
  | up folder _ ih => exact .up (grows _ _ folder) ih
  | step name found notLink _ ih => exact .step name (grows _ _ found) notLink ih
  | follow name found follows _ ih => exact .follow name (grows _ _ found) follows ih
  | stay name found stays => exact .stay name (grows _ _ found) stays

end FileTree
end SourceSearch
