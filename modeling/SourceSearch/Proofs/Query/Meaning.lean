import SourceSearch.Query.Filter

/-!
# The meaning of a query

A query is a formula over words and class tags.  What a filter refuses stands outside of all
exclusions; a query that it admits says that its required leaves hold and that none of the parts it
excludes does.  Only the required leaves of an excluded part are evaluated, so a part without any
excludes nothing.
-/

namespace SourceSearch
namespace Query

/-! ## Formulas -/

section Meaning

variable (hasWord : String → Prop) (hasTag : String × String → Prop)

mutual

/-- A query read as a formula, where words and values of class tags are lowercased. -/
def Holds : Query → Prop
  | empty => True
  | text word => hasWord (lowercase word)
  | phrase words => hasWord (lowercase words)
  | tag key value => hasTag (key, lowercase value)
  | all parts => AllHold parts
  | any parts => SomeHolds parts
  | including part => Holds part
  | excluding part => ¬ Holds part
  | unsupported _ => False

/-- Every part holds. -/
def AllHold : List Query → Prop
  | [] => True
  | part :: rest => Holds part ∧ AllHold rest

/-- Some part holds. -/
def SomeHolds : List Query → Prop
  | [] => False
  | part :: rest => Holds part ∨ SomeHolds rest

end

/-- What a leaf says of words and class tags. -/
structure LeafHolds (leaf : Query) : Prop where
  /-- Its word is there. -/
  word : ∀ word, leafWord? leaf = some word → hasWord word
  /-- Its class tag is there. -/
  tag : ∀ tag, leafTag? leaf = some tag → hasTag tag

end Meaning

/-! ## Parts of a query -/

mutual

/-- A construct that cannot be evaluated occurs anywhere in the query. -/
def mentionsUnsupported : Query → Bool
  | unsupported _ => true
  | all parts => anyMentionsUnsupported parts
  | any parts => anyMentionsUnsupported parts
  | including part => mentionsUnsupported part
  | excluding part => mentionsUnsupported part
  | _ => false

/-- A construct that cannot be evaluated occurs in one of the parts. -/
def anyMentionsUnsupported : List Query → Bool
  | [] => false
  | part :: rest => mentionsUnsupported part || anyMentionsUnsupported rest

end

mutual

/-- Alternatives, or a construct that cannot be evaluated, stand outside of all exclusions. -/
def isRefused : Query → Bool
  | all parts => anyIsRefused parts
  | any _ => true
  | including part => isRefused part
  | unsupported _ => true
  | _ => false

/-- One of the parts is refused. -/
def anyIsRefused : List Query → Bool
  | [] => false
  | part :: rest => isRefused part || anyIsRefused rest

end

mutual

/-- The parts that are excluded outside of all other exclusions. -/
def exclusions : Query → List Query
  | all parts => exclusionsOf parts
  | including part => exclusions part
  | excluding part => [part]
  | _ => []

/-- The parts that one of the parts excludes. -/
def exclusionsOf : List Query → List Query
  | [] => []
  | part :: rest => exclusions part ++ exclusionsOf rest

end

/-- An excluded part has a required leaf that is looked for: a class tag, or a text that is not
made of delimiters and blanks alone. -/
def isEnforced (part : Query) : Bool :=
  part.requiredLeaves.any fun leaf =>
    (leafTag? leaf).isSome || (leafWord? leaf).any fun word => !(Words.split word).isEmpty

/-! ## Refused queries -/

mutual

/-- A query has no filter exactly if it is refused. -/
theorem isRefused_iff : (query : Query) →
    (query.isRefused = true ↔ ∃ failure, query.filter = .error failure)
  | empty => by simp [isRefused, filter]
  | text word => by simp [isRefused, filter]
  | phrase words => by simp [isRefused, filter]
  | tag key value => by simp [isRefused, filter]
  | all parts => by
      rw [isRefused, filter]
      exact anyIsRefused_iff parts _
  | any parts => by simp [isRefused, filter]
  | excluding part => by simp [isRefused, filter]
  | including part => by
      rw [isRefused, filter]
      exact isRefused_iff part
  | unsupported kind => by simp [isRefused, filter]

theorem anyIsRefused_iff : (parts : List Query) → (found : TrigramFilter) →
    (anyIsRefused parts = true ↔ ∃ failure, filterAll parts found = .error failure)
  | [], found => by simp [anyIsRefused, filterAll]
  | part :: rest, found => by
      rw [anyIsRefused, filterAll, Bool.or_eq_true, isRefused_iff part]
      cases compiled : part.filter with
      | error failure => simp
      | ok first => simpa using anyIsRefused_iff rest _

end

theorem exists_filter {query : Query} (admitted : query.isRefused = false) :
    ∃ filter, query.filter = .ok filter := by
  cases compiled : query.filter with
  | error failure =>
      rw [Bool.eq_false_iff, ne_eq, isRefused_iff] at admitted
      exact absurd ⟨failure, compiled⟩ admitted
  | ok filter => exact ⟨filter, rfl⟩

/-! ## Required leaves and excluded parts -/

section Meaning

variable {hasWord : String → Prop} {hasTag : String × String → Prop}

theorem leafHolds_of_word (leaf : Query) {word : String} (is : leafWord? leaf = some word) :
    LeafHolds hasWord hasTag leaf ↔ hasWord word := by
  refine ⟨fun holds => holds.word _ is, fun has => ⟨fun other same => ?_, fun tag tagged => ?_⟩⟩
  · rw [is] at same
    exact Option.some.inj same ▸ has
  · cases leaf <;> cases is <;> cases tagged

theorem leafHolds_of_tag (leaf : Query) {tag : String × String} (is : leafTag? leaf = some tag) :
    LeafHolds hasWord hasTag leaf ↔ hasTag tag := by
  refine ⟨fun holds => holds.tag _ is, fun has => ⟨fun word worded => ?_, fun other same => ?_⟩⟩
  · cases leaf <;> cases is
    cases worded
  · rw [is] at same
    exact Option.some.inj same ▸ has

mutual

/-- A query that holds has all its required leaves, even where it cannot be evaluated as a whole. -/
theorem leafHolds_of_holds : (query : Query) → query.Holds hasWord hasTag →
    ∀ leaf ∈ query.requiredLeaves, LeafHolds hasWord hasTag leaf
  | text word, holds, leaf, member => by
      obtain rfl := List.mem_singleton.mp member
      exact (leafHolds_of_word _ rfl).mpr holds
  | phrase words, holds, leaf, member => by
      obtain rfl := List.mem_singleton.mp member
      exact (leafHolds_of_word _ rfl).mpr holds
  | tag key value, holds, leaf, member => by
      obtain rfl := List.mem_singleton.mp member
      exact (leafHolds_of_tag _ rfl).mpr holds
  | all parts, holds, leaf, member => leafHolds_of_allHold parts holds leaf member
  | including part, holds, leaf, member => leafHolds_of_holds part holds leaf member
  | empty, _, _, member => absurd member List.not_mem_nil
  | any parts, _, _, member => absurd member List.not_mem_nil
  | excluding part, _, _, member => absurd member List.not_mem_nil
  | unsupported kind, _, _, member => absurd member List.not_mem_nil

theorem leafHolds_of_allHold : (parts : List Query) → AllHold hasWord hasTag parts →
    ∀ leaf ∈ requiredLeavesOf parts, LeafHolds hasWord hasTag leaf
  | [], _, _, member => absurd member List.not_mem_nil
  | part :: rest, holds, leaf, member => by
      rcases List.mem_append.mp member with here | later
      · exact leafHolds_of_holds part holds.1 leaf here
      · exact leafHolds_of_allHold rest holds.2 leaf later

end

mutual

/-- A query that is not refused holds if its required leaves do and what it excludes does not. -/
theorem holds_iff : (query : Query) → query.isRefused = false →
    (query.Holds hasWord hasTag ↔
      (∀ leaf ∈ query.requiredLeaves, LeafHolds hasWord hasTag leaf) ∧
        ∀ part ∈ query.exclusions, ¬ part.Holds hasWord hasTag)
  | empty, _ => by simp [Holds, requiredLeaves, exclusions]
  | text word, _ => by simp [Holds, requiredLeaves, exclusions, leafHolds_of_word (text word) rfl]
  | phrase words, _ => by
      simp [Holds, requiredLeaves, exclusions, leafHolds_of_word (phrase words) rfl]
  | tag key value, _ => by
      simp [Holds, requiredLeaves, exclusions, leafHolds_of_tag (tag key value) rfl]
  | all parts, admitted => by
      rw [isRefused] at admitted
      rw [Holds, requiredLeaves, exclusions]
      exact allHold_iff parts admitted
  | including part, admitted => by
      rw [isRefused] at admitted
      rw [Holds, requiredLeaves, exclusions]
      exact holds_iff part admitted
  | excluding part, _ => by simp [Holds, requiredLeaves, exclusions]
  | any parts, admitted => by cases admitted
  | unsupported kind, admitted => by cases admitted

theorem allHold_iff : (parts : List Query) → anyIsRefused parts = false →
    (AllHold hasWord hasTag parts ↔
      (∀ leaf ∈ requiredLeavesOf parts, LeafHolds hasWord hasTag leaf) ∧
        ∀ part ∈ exclusionsOf parts, ¬ part.Holds hasWord hasTag)
  | [], _ => by simp [AllHold, requiredLeavesOf, exclusionsOf]
  | part :: rest, admitted => by
      rw [anyIsRefused, Bool.or_eq_false_iff] at admitted
      rw [AllHold, requiredLeavesOf, exclusionsOf, holds_iff part admitted.1,
        allHold_iff rest admitted.2]
      simp only [List.mem_append, or_imp, forall_and]
      exact and_and_and_comm

end

end Meaning

mutual

/-- The excluded leaves are the required leaves of the parts that are excluded. -/
theorem excludedLeaves_eq : (query : Query) →
    query.excludedLeaves = query.exclusions.flatMap requiredLeaves
  | all parts => by
      rw [excludedLeaves, exclusions]
      exact excludedLeavesOf_eq parts
  | including part => by
      rw [excludedLeaves, exclusions]
      exact excludedLeaves_eq part
  | excluding part => by simp [excludedLeaves, exclusions]
  | empty => rfl
  | text _ => rfl
  | phrase _ => rfl
  | tag _ _ => rfl
  | any _ => rfl
  | unsupported _ => rfl

theorem excludedLeavesOf_eq : (parts : List Query) →
    excludedLeavesOf parts = (exclusionsOf parts).flatMap requiredLeaves
  | [] => rfl
  | part :: rest => by
      rw [excludedLeavesOf, exclusionsOf, List.flatMap_append, excludedLeaves_eq part,
        excludedLeavesOf_eq rest]

end

end Query
end SourceSearch
