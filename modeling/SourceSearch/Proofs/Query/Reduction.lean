import SourceSearch.Proofs.Query.Filter

/-!
# What is reduced to a filter

An exclusion hides what is below it.  Of all other nodes of a query, listed from left to right and
each before the nodes below it, the first that cannot be reduced is the reason why there is no
filter; if there is none, the filter requires exactly the trigrams of the required words and of the
values of the required class tags.
-/

namespace SourceSearch
namespace Query

variable {query node part hidden : Query} {filter : TrigramFilter} {failure : Failure}

/-- Why a node has no filter, whatever is below it. -/
def refusal? : Query → Option String
  | any _ => some alternativeReason
  | unsupported kind => some (unsupportedReason kind)
  | _ => none

/-! ## Exposed nodes -/

/-- A node is reached from the top without passing an exclusion. -/
inductive Exposes : Query → Query → Prop where
  /-- The top itself. -/
  | here (query : Query) : Exposes query query
  /-- What a part exposes, unless the part is excluded. -/
  | inside {query part node : Query} (visible : ∀ hidden, query ≠ excluding hidden)
      (direct : part ∈ query.parts) (exposes : Exposes part node) : Exposes query node

mutual

/-- The exposed nodes, each before the nodes below it. -/
def exposed : Query → List Query
  | all parts => all parts :: exposedAmong parts
  | any parts => any parts :: exposedAmong parts
  | including part => including part :: exposed part
  | node => [node]

/-- The exposed nodes of all parts, from left to right. -/
def exposedAmong : List Query → List Query
  | [] => []
  | part :: rest => exposed part ++ exposedAmong rest

end

theorem mem_exposedAmong_iff {parts : List Query} :
    node ∈ exposedAmong parts ↔ ∃ part ∈ parts, node ∈ part.exposed := by
  induction parts with
  | nil => simp [exposedAmong]
  | cons part rest ih => simp [exposedAmong, ih]

theorem mem_exposed_self (query : Query) : query ∈ query.exposed := by
  cases query <;> exact List.mem_cons_self

/-- What a part exposes is exposed. -/
theorem mem_exposed_of_part (visible : ∀ hidden, query ≠ excluding hidden)
    (direct : part ∈ query.parts) (member : node ∈ part.exposed) : node ∈ query.exposed := by
  cases query with
  | all parts => exact List.mem_cons_of_mem _ (mem_exposedAmong_iff.mpr ⟨part, direct, member⟩)
  | any parts => exact List.mem_cons_of_mem _ (mem_exposedAmong_iff.mpr ⟨part, direct, member⟩)
  | including inner =>
      obtain rfl := List.mem_singleton.mp direct
      exact List.mem_cons_of_mem _ member
  | excluding hidden => exact absurd rfl (visible hidden)
  | empty => cases direct
  | text word => cases direct
  | phrase words => cases direct
  | tag key value => cases direct
  | unsupported kind => cases direct

mutual

theorem exposes_of_mem : (query : Query) → node ∈ query.exposed → Exposes query node
  | all parts, member => by
      rcases List.mem_cons.mp member with rfl | below
      · exact .here _
      · obtain ⟨part, direct, exposes⟩ := exposes_of_mem_among parts below
        exact .inside (by simp) direct exposes
  | any parts, member => by
      rcases List.mem_cons.mp member with rfl | below
      · exact .here _
      · obtain ⟨part, direct, exposes⟩ := exposes_of_mem_among parts below
        exact .inside (by simp) direct exposes
  | including part, member => by
      rcases List.mem_cons.mp member with rfl | below
      · exact .here _
      · exact .inside (by simp) (List.mem_singleton_self part) (exposes_of_mem part below)
  | excluding hidden, member => List.mem_singleton.mp member ▸ .here _
  | empty, member => List.mem_singleton.mp member ▸ .here _
  | text word, member => List.mem_singleton.mp member ▸ .here _
  | phrase words, member => List.mem_singleton.mp member ▸ .here _
  | tag key value, member => List.mem_singleton.mp member ▸ .here _
  | unsupported kind, member => List.mem_singleton.mp member ▸ .here _

theorem exposes_of_mem_among : (parts : List Query) → node ∈ exposedAmong parts →
    ∃ part ∈ parts, Exposes part node
  | [], member => absurd member List.not_mem_nil
  | part :: rest, member => by
      rcases List.mem_append.mp member with here | later
      · exact ⟨part, List.mem_cons_self, exposes_of_mem part here⟩
      · obtain ⟨other, listed, exposes⟩ := exposes_of_mem_among rest later
        exact ⟨other, List.mem_cons_of_mem _ listed, exposes⟩

end

/-- The listed nodes are those that are reached. -/
theorem mem_exposed_iff : node ∈ query.exposed ↔ Exposes query node := by
  constructor
  · exact exposes_of_mem query
  · intro exposes
    induction exposes with
    | here query => exact mem_exposed_self query
    | inside visible direct _ ih => exact mem_exposed_of_part visible direct ih

/-! ## Failures -/

mutual

/-- A query fails for the first exposed node that cannot be reduced. -/
theorem filter_eq_error_iff : (query : Query) → {failure : Failure} →
    (query.filter = .error failure ↔
      (query.exposed.findSome? refusal?).map .unsupportedQuery = some failure)
  | all parts, failure => by
      rw [Query.filter, exposed]
      exact filterAll_eq_error_iff parts _
  | including part, failure => by
      rw [Query.filter, exposed]
      exact filter_eq_error_iff part
  | any parts, failure => by
      rw [Query.filter, exposed, List.findSome?_cons_of_isSome rfl]
      simp [refusal?]
  | unsupported kind, failure => by simp [Query.filter, exposed, refusal?]
  | excluding hidden, failure => by simp [Query.filter, exposed, refusal?]
  | empty, failure => by simp [Query.filter, exposed, refusal?]
  | text word, failure => by simp [Query.filter, exposed, refusal?]
  | phrase words, failure => by simp [Query.filter, exposed, refusal?]
  | tag key value, failure => by simp [Query.filter, exposed, refusal?]

/-- So do several parts, whatever was found before. -/
theorem filterAll_eq_error_iff : (parts : List Query) → (found : TrigramFilter) →
    {failure : Failure} → (filterAll parts found = .error failure ↔
      ((exposedAmong parts).findSome? refusal?).map .unsupportedQuery = some failure)
  | [], found, failure => by simp [filterAll, exposedAmong]
  | part :: rest, found, failure => by
      rw [filterAll, exposedAmong, List.findSome?_append]
      cases compiled : part.filter with
      | error first =>
          have reason := (filter_eq_error_iff part).mp compiled
          obtain ⟨text, refused, -⟩ := Option.map_eq_some_iff.mp reason
          rw [refused] at reason ⊢
          rw [Option.some_or, reason, Option.some.injEq, Except.error.injEq]
      | ok first =>
          have none : part.exposed.findSome? refusal? = none := by
            cases refused : part.exposed.findSome? refusal? with
            | none => rfl
            | some text =>
                have failed := (filter_eq_error_iff part).mpr (congrArg _ refused)
                rw [compiled] at failed
                cases failed
          rw [none, Option.none_or]
          exact filterAll_eq_error_iff rest _

end

theorem exists_refusal_iff : (∃ reason, node.refusal? = some reason) ↔
    (∃ parts, node = any parts) ∨ ∃ kind, node = unsupported kind := by
  cases node <;> simp [refusal?]

/-- A query fails if it exposes a node that cannot be reduced. -/
theorem exists_failure_iff : (∃ failure, query.filter = .error failure) ↔
    ∃ node, Exposes query node ∧
      ((∃ parts, node = any parts) ∨ ∃ kind, node = unsupported kind) := by
  constructor
  · rintro ⟨failure, failed⟩
    obtain ⟨reason, first, -⟩ :=
      Option.map_eq_some_iff.mp ((filter_eq_error_iff query).mp failed)
    obtain ⟨node, member, refused⟩ := List.exists_of_findSome?_eq_some first
    exact ⟨node, mem_exposed_iff.mp member, exists_refusal_iff.mp ⟨reason, refused⟩⟩
  · rintro ⟨node, exposes, kind⟩
    obtain ⟨reason, refused⟩ := exists_refusal_iff.mpr kind
    have found : (query.exposed.findSome? refusal?).isSome := by
      apply List.findSome?_isSome_iff.mpr
      exact ⟨node, mem_exposed_iff.mpr exposes, Option.isSome_of_eq_some refused⟩
    obtain ⟨first, is⟩ := Option.isSome_iff_exists.mp found
    exact ⟨.unsupportedQuery first, (filter_eq_error_iff query).mpr (congrArg _ is)⟩

/-- The failure is that of the first exposed node that cannot be reduced. -/
theorem filter_eq_error_iff_first : query.filter = .error failure ↔
    ∃ before node after reason, query.exposed = before ++ node :: after ∧
      (∀ earlier ∈ before, earlier.refusal? = none) ∧
      node.refusal? = some reason ∧ failure = .unsupportedQuery reason := by
  rw [filter_eq_error_iff, Option.map_eq_some_iff]
  constructor
  · rintro ⟨reason, found, rfl⟩
    obtain ⟨before, node, after, split, refused, none⟩ := List.findSome?_eq_some_iff.mp found
    exact ⟨before, node, after, reason, split, none, refused, rfl⟩
  · rintro ⟨before, node, after, reason, split, none, refused, rfl⟩
    apply Exists.intro reason
    exact ⟨List.findSome?_eq_some_iff.mpr ⟨before, node, after, split, refused, none⟩, rfl⟩

/-- **A filter is decided by the exposed nodes.**  A query has no filter exactly if alternatives or
a construct that cannot be evaluated are reached without passing an exclusion, and the failure is
that of the first such node.  Otherwise its filter requires exactly the trigrams of the required
words and of the values of the required class tags; so if it requires one of a class tag, the query
mentions one. -/
theorem filter_decided_by_exposed (query : Query) :
    ((∃ failure, query.filter = .error failure) ↔
      ∃ node, Exposes query node ∧
        ((∃ parts, node = any parts) ∨ ∃ kind, node = unsupported kind)) ∧
    (∀ failure, query.filter = .error failure ↔ ∃ before node after reason,
      query.exposed = before ++ node :: after ∧ (∀ earlier ∈ before, earlier.refusal? = none) ∧
        node.refusal? = some reason ∧ failure = .unsupportedQuery reason) ∧
    ∀ filter, query.filter = .ok filter →
      (∀ trigram : Trigram, trigram ∈ filter.content ↔
        ∃ word ∈ query.requiredWords, trigram.length = 3 ∧ trigram.toList <:+: word.toList) ∧
      (∀ trigram : Trigram, trigram ∈ filter.metadata ↔
        ∃ tag ∈ query.requiredTags, trigram.length = 3 ∧ trigram.toList <:+: tag.2.toList) ∧
      (filter.metadata.isEmpty = false → query.mentionsTag = true) := by
  refine ⟨exists_failure_iff, fun failure => filter_eq_error_iff_first, fun filter compiled => ?_⟩
  have filters := filters_filter query filter compiled
  refine ⟨fun trigram => ?_, fun trigram => ?_, filters.mentionsTag⟩
  · rw [filters.content, requiredWords]
    simp only [Trigram.mem_ofWord_iff]
  · rw [filters.metadata, requiredTags]
    simp only [Trigram.mem_ofWord_iff]

/-- A word and a nested class tag are required, while the alternatives are hidden. -/
theorem filter_decided_by_exposed_sample : ∃ filter,
    (all [text "Abc", including (tag "k" "Value"), excluding (any [])]).filter = .ok filter ∧
      "abc" ∈ filter.content ∧ "alu" ∈ filter.metadata ∧
      (all [text "Abc", including (tag "k" "Value"), excluding (any [])]).mentionsTag = true := by
  obtain ⟨-, -, decided⟩ := filter_decided_by_exposed
    (all [text "Abc", including (tag "k" "Value"), excluding (any [])])
  obtain ⟨content, metadata, mentions⟩ := decided _ rfl
  refine ⟨_, rfl, (content "abc").mpr ?_, (metadata "alu").mpr ?_, mentions (by decide)⟩
  · exact ⟨"abc", by decide, by decide, by decide⟩
  · exact ⟨("k", "value"), by decide, by decide, by decide⟩

end Query
end SourceSearch
