import Mathlib.Logic.Relation
import SourceSearch.Proofs.Query.Filter
import SourceSearch.Proofs.Query.Meaning

/-!
# Rewriting queries

Parts that have to hold together may be permuted, repeated, nested and left out where they say
nothing.  Such a step, anywhere in a query, does not change which words and class tags are required
and excluded, nor whether there is a filter; only the order and the number of times they are listed
may change.
-/

namespace SourceSearch
namespace Query

variable {query other : Query}

/-- One step of rewriting, anywhere in a query. -/
inductive Rewrites : Query → Query → Prop where
  /-- The order of parts does not matter. -/
  | permute {parts others : List Query} (same : parts.Perm others) :
      Rewrites (all parts) (all others)
  /-- A part may be repeated. -/
  | duplicate (before : List Query) (part : Query) (after : List Query) :
      Rewrites (all (before ++ part :: after)) (all (before ++ part :: part :: after))
  /-- Nested parts may be listed directly. -/
  | flatten (before inner after : List Query) :
      Rewrites (all (before ++ all inner :: after)) (all (before ++ inner ++ after))
  /-- What says nothing may be left out. -/
  | drop (before after : List Query) :
      Rewrites (all (before ++ empty :: after)) (all (before ++ after))
  /-- A single part stands for itself. -/
  | unwrap (part : Query) : Rewrites (all [part]) part
  /-- So does an included part. -/
  | bare (part : Query) : Rewrites (including part) part
  /-- A word may be quoted. -/
  | quote (word : String) : Rewrites (text word) (phrase word)
  /-- A step in a part that holds together with others. -/
  | inAll {part new : Query} (before after : List Query) (step : Rewrites part new) :
      Rewrites (all (before ++ part :: after)) (all (before ++ new :: after))
  /-- A step in an alternative. -/
  | inAny {part new : Query} (before after : List Query) (step : Rewrites part new) :
      Rewrites (any (before ++ part :: after)) (any (before ++ new :: after))
  /-- A step in an included part. -/
  | inIncluding {part new : Query} (step : Rewrites part new) :
      Rewrites (including part) (including new)
  /-- A step in an excluded part. -/
  | inExcluding {part new : Query} (step : Rewrites part new) :
      Rewrites (excluding part) (excluding new)

/-- A property that parts hand on to the whole; of alternatives and of excluded parts it depends on
nothing that a step changes. -/
structure Gathers (p : Query → Prop) : Prop where
  /-- Parts that hold together have it if one of them has. -/
  all : ∀ parts, p (all parts) ↔ ∃ part ∈ parts, p part
  /-- Alternatives have it, or have it not, whatever they are. -/
  any : ∀ parts others, p (any parts) ↔ p (any others)
  /-- It is that of an included part. -/
  including : ∀ part, p (including part) ↔ p part
  /-- A step in an excluded part keeps it. -/
  excluding : ∀ part new, Rewrites part new → (p (excluding part) ↔ p (excluding new))
  /-- What says nothing has it not. -/
  empty : ¬ p empty
  /-- Quotes do not matter. -/
  quoted : ∀ word, p (text word) ↔ p (phrase word)

/-- A step keeps such a property. -/
theorem Gathers.congr {p : Query → Prop} (gathers : Gathers p) (step : Rewrites query other) :
    p query ↔ p other := by
  induction step with
  | permute same =>
      rw [gathers.all, gathers.all]
      exact exists_congr fun part => and_congr_left fun _ => same.mem_iff
  | duplicate before part after =>
      rw [gathers.all, gathers.all]
      simp
  | flatten before inner after =>
      simp only [gathers.all, List.mem_append, List.mem_cons, or_and_right, exists_or,
        exists_eq_left, or_assoc]
  | drop before after =>
      simp only [gathers.all, List.mem_append, List.mem_cons, or_and_right, exists_or,
        exists_eq_left, gathers.empty, false_or]
  | unwrap part =>
      rw [gathers.all]
      simp
  | bare part => exact gathers.including part
  | quote word => exact gathers.quoted word
  | inAll before after _ ih =>
      simp only [gathers.all, List.mem_append, List.mem_cons, or_and_right, exists_or,
        exists_eq_left, ih]
  | inAny before after _ _ => exact gathers.any _ _
  | inIncluding _ ih => rw [gathers.including, gathers.including, ih]
  | inExcluding step _ => exact gathers.excluding _ _ step

/-! ## What is gathered -/

theorem requiredLeavesOf_eq (parts : List Query) :
    requiredLeavesOf parts = parts.flatMap requiredLeaves := by
  induction parts with
  | nil => rfl
  | cons part rest ih => rw [requiredLeavesOf, List.flatMap_cons, ih]

theorem excludedLeavesOf_eq_flatMap (parts : List Query) :
    excludedLeavesOf parts = parts.flatMap excludedLeaves := by
  induction parts with
  | nil => rfl
  | cons part rest ih => rw [excludedLeavesOf, List.flatMap_cons, ih]

theorem anyIsRefused_eq (parts : List Query) : anyIsRefused parts = parts.any isRefused := by
  induction parts with
  | nil => rfl
  | cons part rest ih => rw [anyIsRefused, List.any_cons, ih]

theorem gathers_isRefused : Gathers fun query => query.isRefused = true where
  all parts := by rw [isRefused, anyIsRefused_eq, List.any_eq_true]
  any _ _ := Iff.rfl
  including _ := Iff.rfl
  excluding _ _ _ := Iff.rfl
  empty := Bool.false_ne_true
  quoted _ := Iff.rfl

section Leaves

variable {α : Type} {select : Query → Option α}

/-- What is taken from the required leaves, as long as quotes do not matter. -/
theorem gathers_required (unquoted : ∀ word, select (text word) = select (phrase word)) (a : α) :
    Gathers fun query => a ∈ query.requiredLeaves.filterMap select where
  all parts := by
    rw [requiredLeaves, requiredLeavesOf_eq]
    simp only [List.mem_filterMap, List.mem_flatMap]
    grind
  any _ _ := Iff.rfl
  including _ := Iff.rfl
  excluding _ _ _ := Iff.rfl
  empty := List.not_mem_nil
  quoted word := by simp [requiredLeaves, unquoted]

/-- What is taken from the excluded leaves, which are required of an excluded part. -/
theorem gathers_excluded (unquoted : ∀ word, select (text word) = select (phrase word)) (a : α) :
    Gathers fun query => a ∈ query.excludedLeaves.filterMap select where
  all parts := by
    rw [excludedLeaves, excludedLeavesOf_eq_flatMap]
    simp only [List.mem_filterMap, List.mem_flatMap]
    grind
  any _ _ := Iff.rfl
  including _ := Iff.rfl
  excluding _ _ step := (gathers_required unquoted a).congr step
  empty := List.not_mem_nil
  quoted _ := Iff.rfl

end Leaves

/-! ## Equal demands -/

/-- Two queries have the same required and excluded words and class tags, and either both have a
filter or neither has. -/
structure SameDemands (query other : Query) : Prop where
  /-- Both are refused, or neither. -/
  refused : query.isRefused = true ↔ other.isRefused = true
  /-- The same words are required. -/
  words : ∀ word, word ∈ query.requiredWords ↔ word ∈ other.requiredWords
  /-- The same class tags are required. -/
  tags : ∀ tag, tag ∈ query.requiredTags ↔ tag ∈ other.requiredTags
  /-- The same words are excluded. -/
  noWords : ∀ word, word ∈ query.excludedWords ↔ word ∈ other.excludedWords
  /-- The same class tags are excluded. -/
  noTags : ∀ tag, tag ∈ query.excludedTags ↔ tag ∈ other.excludedTags

/-- **One step.**  Wherever it is, the demands stay the same. -/
theorem Rewrites.sameDemands (step : Rewrites query other) : SameDemands query other where
  refused := gathers_isRefused.congr step
  words word := (gathers_required (fun _ => rfl) word).congr step
  tags tag := (gathers_required (fun _ => rfl) tag).congr step
  noWords word := (gathers_excluded (fun _ => rfl) word).congr step
  noTags tag := (gathers_excluded (fun _ => rfl) tag).congr step

namespace SameDemands

theorem refl (query : Query) : SameDemands query query :=
  ⟨Iff.rfl, fun _ => Iff.rfl, fun _ => Iff.rfl, fun _ => Iff.rfl, fun _ => Iff.rfl⟩

theorem symm (same : SameDemands query other) : SameDemands other query :=
  ⟨same.refused.symm, fun word => (same.words word).symm, fun tag => (same.tags tag).symm,
    fun word => (same.noWords word).symm, fun tag => (same.noTags tag).symm⟩

theorem trans {last : Query} (first : SameDemands query other) (second : SameDemands other last) :
    SameDemands query last :=
  ⟨first.refused.trans second.refused, fun word => (first.words word).trans (second.words word),
    fun tag => (first.tags tag).trans (second.tags tag),
    fun word => (first.noWords word).trans (second.noWords word),
    fun tag => (first.noTags tag).trans (second.noTags tag)⟩

/-- **Any number of steps**, in either direction. -/
theorem of_steps (steps : Relation.EqvGen Rewrites query other) : SameDemands query other := by
  induction steps with
  | rel _ _ step => exact step.sameDemands
  | refl query => exact .refl query
  | symm _ _ _ ih => exact ih.symm
  | trans _ _ _ _ _ first second => exact first.trans second

/-- Queries with the same demands have filters of the same trigrams. -/
theorem filter_eq (same : SameDemands query other) {filter more : TrigramFilter}
    (compiled : query.filter = .ok filter) (compiled' : other.filter = .ok more) :
    filter.content = more.content ∧ filter.metadata = more.metadata := by
  have filters := filters_filter query filter compiled
  have filters' := filters_filter other more compiled'
  constructor
  · apply SortedSet.ext_mem
    intro trigram
    rw [filters.content, filters'.content]
    exact exists_congr fun word => and_congr_left fun _ => same.words word
  · apply SortedSet.ext_mem
    intro trigram
    rw [filters.metadata, filters'.metadata]
    exact exists_congr fun tag => and_congr_left fun _ => same.tags tag

end SameDemands

end Query
end SourceSearch
