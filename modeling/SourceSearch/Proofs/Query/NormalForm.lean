import SourceSearch.Proofs.Query.Grammar
import SourceSearch.Proofs.Query.Reduction

/-!
# Queries in normal form

Whatever the text, the query that is read from it is flat: alternatives of terms, all of which have
to hold, with nothing wrapped that stands alone.  So no construct that cannot be evaluated is ever
read, and alternatives are the only reason why such a query has no filter.
-/

namespace SourceSearch
namespace Query

variable {query node : Query}

/-! ## Normal forms -/

/-- A word, a phrase or a class tag as it is read. -/
inductive IsAtom : Query → Prop where
  /-- A word without blanks. -/
  | text {word : String} (filled : word ≠ "")
      (unbroken : ∀ c ∈ word.toList, Text.isBlank c = false) : IsAtom (text word)
  /-- A phrase without quotes. -/
  | phrase {words : String} (noQuote : '"' ∉ words.toList) : IsAtom (phrase words)
  /-- A class tag, both sides of which are without blanks. -/
  | tag {key value : String} (keyFilled : key ≠ "") (noColon : ':' ∉ key.toList)
      (keyUnbroken : ∀ c ∈ key.toList, Text.isBlank c = false) (valueFilled : value ≠ "")
      (valueUnbroken : ∀ c ∈ value.toList, Text.isBlank c = false) : IsAtom (tag key value)

/-- An atom with at most one sign. -/
inductive IsTerm : Query → Prop where
  /-- No sign. -/
  | bare {atom : Query} (is : IsAtom atom) : IsTerm atom
  /-- An included atom. -/
  | including {atom : Query} (is : IsAtom atom) : IsTerm (including atom)
  /-- An excluded atom. -/
  | excluding {atom : Query} (is : IsAtom atom) : IsTerm (excluding atom)

/-- A term, or several as alternatives. -/
inductive IsItem : Query → Prop where
  /-- A single term. -/
  | term {term : Query} (is : IsTerm term) : IsItem term
  /-- Several terms. -/
  | any {terms : List Query} (several : 2 ≤ terms.length) (each : ∀ term ∈ terms, IsTerm term) :
      IsItem (any terms)

/-- Nothing, an item, or several items that have to hold together. -/
inductive IsNormal : Query → Prop where
  /-- No item. -/
  | empty : IsNormal empty
  /-- A single item. -/
  | item {item : Query} (is : IsItem item) : IsNormal item
  /-- Several items. -/
  | all {items : List Query} (several : 2 ≤ items.length) (each : ∀ item ∈ items, IsItem item) :
      IsNormal (all items)

/-! ## Reading normal forms -/

theorem isAtom_quoted {words : List Char} (noQuote : '"' ∉ words) :
    IsAtom (atomOf ('"' :: words)) := by
  rw [atomOf_quoted noQuote]
  exact .phrase (by rwa [String.toList_ofList])

theorem ofList_ne_empty {letters : List Char} (nonempty : letters ≠ []) :
    String.ofList letters ≠ "" := by
  intro same
  exact nonempty (by simpa using congrArg String.toList same)

theorem isAtom_unquoted {word : List Char} (unquoted : IsUnquoted word) : IsAtom (atomOf word) := by
  have key : ∀ c ∈ word.takeWhile (· ≠ ':'), c ∈ word :=
    fun c member => (List.takeWhile_prefix _).subset member
  have value : ∀ c ∈ (word.dropWhile (· ≠ ':')).drop 1, c ∈ word := fun c member =>
    (List.dropWhile_suffix _).subset (List.mem_of_mem_drop member)
  rw [atomOf_unquoted unquoted]
  split
  · refine .text (ofList_ne_empty unquoted.nonempty) fun c member => ?_
    exact unquoted.unbroken c (by rwa [String.toList_ofList] at member)
  · rename_i split
    rw [Bool.or_eq_true, not_or, List.isEmpty_iff, List.isEmpty_iff] at split
    refine .tag (ofList_ne_empty split.1) ?_ ?_ (ofList_ne_empty split.2) ?_ <;>
      rw [String.toList_ofList]
    · exact fun member => by simpa using List.mem_takeWhile_imp member
    · exact fun c member => unquoted.unbroken c (key c member)
    · exact fun c member => unquoted.unbroken c (value c member)

theorem IsWord.isUnquoted {word : List Char} (proper : IsWord word) : IsUnquoted word where
  nonempty := proper.nonempty
  unbroken := proper.unbroken
  notQuoted quote := by
    obtain ⟨words, rfl⟩ := List.head?_eq_some_iff.mp quote
    exact proper.notQuoted words rfl

/-- What follows a sign in a word. -/
theorem IsWord.isUnquoted_tail {sign c : Char} {rest : List Char}
    (proper : IsWord (sign :: c :: rest)) (is : sign = '-' ∨ sign = '+') :
    IsUnquoted (c :: rest) where
  nonempty := List.cons_ne_nil _ _
  unbroken := (List.forall_mem_cons.mp proper.unbroken).2
  notQuoted quote := by
    obtain rfl : c = '"' := Option.some.inj quote
    obtain ⟨notMinus, notPlus⟩ := proper.notSigned sign rest rfl
    exact is.elim notMinus notPlus

/-- A word of the scanner is read as a term. -/
theorem isTerm_termOf {word : List Char} (read : (Token.word word).IsRead) :
    IsTerm (termOf word) := by
  rcases read with proper | ⟨sign, words, rfl | rfl, rfl, noQuote⟩
  · fun_cases termOf word with
    | case1 c rest => exact .excluding (isAtom_unquoted (proper.isUnquoted_tail (.inl rfl)))
    | case2 c rest => exact .including (isAtom_unquoted (proper.isUnquoted_tail (.inr rfl)))
    | case3 => exact .bare (isAtom_unquoted proper.isUnquoted)
  · exact .excluding (isAtom_quoted noQuote)
  · exact .including (isAtom_quoted noQuote)

/-- A group as it is read. -/
def IsTermGroup (group : List Query) : Prop := group ≠ [] ∧ ∀ term ∈ group, IsTerm term

theorem isTermGroup_of_mem_place {term : Query} (is : IsTerm term) (rest : List Token)
    {later : List (List Query)} (each : ∀ group ∈ later, IsTermGroup group) :
    ∀ group ∈ groups.place term rest later, IsTermGroup group := by
  fun_cases groups.place term rest later with
  | case1 tokens first others =>
      rw [List.forall_mem_cons] at each ⊢
      exact ⟨⟨List.cons_ne_nil _ _, List.forall_mem_cons.mpr ⟨is, each.1.2⟩⟩, each.2⟩
  | case2 =>
      refine List.forall_mem_cons.mpr ⟨⟨List.cons_ne_nil _ _, ?_⟩, each⟩
      exact List.forall_mem_singleton.mpr is

/-- The tokens of a text are read as groups of terms. -/
theorem isTermGroup_of_mem_groups {tokens : List Token} (read : ∀ token ∈ tokens, token.IsRead) :
    ∀ group ∈ groups tokens, IsTermGroup group := by
  fun_induction groups tokens with
  | case1 => exact List.forall_mem_nil _
  | case2 rest ih => exact ih (List.forall_mem_cons.mp read).2
  | case3 word rest ih =>
      rw [List.forall_mem_cons] at read
      exact isTermGroup_of_mem_place (isTerm_termOf read.1) rest (ih read.2)
  | case4 words rest ih =>
      rw [List.forall_mem_cons] at read
      have atom : IsAtom (phrase (String.ofList words)) := .phrase (by
        rw [String.toList_ofList]
        exact read.1)
      exact isTermGroup_of_mem_place (.bare atom) rest (ih read.2)

theorem isItem_combine {group : List Query} (is : IsTermGroup group) :
    IsItem (combine any group) := by
  obtain ⟨nonempty, each⟩ := is
  rcases group with - | ⟨first, - | ⟨second, others⟩⟩
  · exact absurd rfl nonempty
  · exact .term (each first List.mem_cons_self)
  · exact .any (by simp) each

theorem isNormal_parse (input : String) : IsNormal (parse input) := by
  have start : Scan.between.IsSound := trivial
  have read : ∀ token ∈ tokensOf input.toList, token.IsRead := fun token member =>
    isRead_of_mem_scan start member
  have each : ∀ item ∈ (groups (tokensOf input.toList)).map (combine any), IsItem item := by
    intro item member
    obtain ⟨group, inside, rfl⟩ := List.mem_map.mp member
    exact isItem_combine (isTermGroup_of_mem_groups read group inside)
  rw [parse]
  generalize (groups (tokensOf input.toList)).map (combine any) = items at each
  rcases items with - | ⟨first, - | ⟨second, others⟩⟩
  · exact .empty
  · exact .item (each first List.mem_cons_self)
  · exact .all (by simp) each

/-! ## Nodes of normal forms -/

/-- A node stands anywhere in a query. -/
inductive Contains : Query → Query → Prop where
  /-- The top itself. -/
  | here (query : Query) : Contains query query
  /-- What a part contains. -/
  | inside {query part node : Query} (direct : part ∈ query.parts) (contains : Contains part node) :
      Contains query node

theorem Exposes.contains (exposes : Exposes query node) : Contains query node := by
  induction exposes with
  | here query => exact .here query
  | inside _ direct _ ih => exact .inside direct ih

theorem IsAtom.parts (is : IsAtom query) : query.parts = [] := by cases is <;> rfl

/-- All nodes of a term are terms. -/
theorem IsTerm.of_contains (is : IsTerm query) (contains : Contains query node) : IsTerm node := by
  have below {atom part : Query} (isAtom : IsAtom atom) (inner : Contains atom part) :
      IsTerm part := by
    cases inner with
    | here => exact .bare isAtom
    | inside direct => exact absurd (isAtom.parts ▸ direct) List.not_mem_nil
  cases contains with
  | here => exact is
  | inside direct inner =>
      cases is with
      | bare isAtom => exact absurd (isAtom.parts ▸ direct) List.not_mem_nil
      | including isAtom => exact below isAtom (List.mem_singleton.mp direct ▸ inner)
      | excluding isAtom => exact below isAtom (List.mem_singleton.mp direct ▸ inner)

theorem IsItem.of_contains (is : IsItem query) (contains : Contains query node) :
    node = query ∨ IsTerm node := by
  cases contains with
  | here => exact .inl rfl
  | inside direct inner =>
      cases is with
      | term isTerm => exact .inr (isTerm.of_contains (.inside direct inner))
      | any several each => exact .inr ((each _ direct).of_contains inner)

theorem IsNormal.of_contains (is : IsNormal query) (contains : Contains query node) :
    node = query ∨ IsItem node := by
  cases contains with
  | here => exact .inl rfl
  | inside direct inner =>
      have item {part : Query} (isItem : IsItem part) (held : Contains part node) : IsItem node :=
        (isItem.of_contains held).elim (fun same => same ▸ isItem) .term
      cases is with
      | empty => cases direct
      | item isItem => exact .inr (item isItem (.inside direct inner))
      | all several each => exact .inr (item (each _ direct) inner)

theorem not_isTerm_any {parts : List Query} : ¬ IsTerm (any parts) := by rintro ⟨⟨⟩⟩

theorem not_isItem_unsupported {kind : String} : ¬ IsItem (unsupported kind) := by rintro ⟨⟨⟨⟩⟩⟩

theorem not_isItem_empty : ¬ IsItem empty := by rintro ⟨⟨⟨⟩⟩⟩

/-- Alternatives stand at the top or directly below it, outside of all exclusions. -/
theorem IsNormal.exposes_any (is : IsNormal query) {parts : List Query}
    (contains : Contains query (any parts)) : Exposes query (any parts) := by
  have item {part : Query} (isItem : IsItem part) (held : Contains part (any parts)) :
      Exposes part (any parts) := by
    rcases isItem.of_contains held with same | isTerm
    · exact same ▸ .here _
    · exact absurd isTerm not_isTerm_any
  cases is with
  | empty =>
      cases contains with
      | inside direct => cases direct
  | item isItem => exact item isItem contains
  | all several each =>
      cases contains with
      | inside direct inner =>
          exact .inside (fun hidden => Query.noConfusion) direct (item (each _ direct) inner)

theorem alternativeReason_ne (kind : String) : alternativeReason ≠ unsupportedReason kind := by
  intro same
  have first := congrArg (·.toList.head?) same
  have node : (unsupportedReason kind).toList.head? = some 'n' := by
    rw [unsupportedReason]
    simp [toString]
  rw [node] at first
  exact absurd first (by decide)

/-- **What is read is in normal form.**  Nothing unsupported is ever read and the query that says
nothing is read at the top only, so a query that is read has no filter exactly if it holds
alternatives, and then for this reason. -/
theorem parse_flat (input : String) :
    IsNormal (parse input) ∧
      (∀ kind, ¬ Contains (parse input) (unsupported kind)) ∧
      (Contains (parse input) empty → parse input = empty) ∧
      ((∃ failure, (parse input).filter = .error failure) ↔
        ∃ parts, Contains (parse input) (any parts)) ∧
      ∀ failure, (parse input).filter = .error failure →
        failure = .unsupportedQuery alternativeReason ∧
          ∀ kind, failure ≠ .unsupportedQuery (unsupportedReason kind) := by
  have normal := isNormal_parse input
  generalize parse input = query at normal
  have supported (kind : String) : ¬ Contains query (unsupported kind) := by
    intro contains
    rcases normal.of_contains contains with same | isItem
    · rw [← same] at normal
      cases normal with
      | item isItem => exact not_isItem_unsupported isItem
    · exact not_isItem_unsupported isItem
  refine ⟨normal, supported, fun contains => ?_, ⟨?_, ?_⟩, fun failure failed => ?_⟩
  · exact ((normal.of_contains contains).resolve_right not_isItem_empty).symm
  · intro failed
    obtain ⟨node, exposes, ⟨parts, rfl⟩ | ⟨kind, rfl⟩⟩ := exists_failure_iff.mp failed
    · exact ⟨parts, exposes.contains⟩
    · exact absurd exposes.contains (supported kind)
  · rintro ⟨parts, contains⟩
    exact exists_failure_iff.mpr ⟨_, normal.exposes_any contains, .inl ⟨parts, rfl⟩⟩
  · obtain ⟨before, node, after, reason, listed, -, refused, rfl⟩ :=
      filter_eq_error_iff_first.mp failed
    have exposed : Exposes query node := mem_exposed_iff.mp (by simp [listed])
    obtain ⟨parts, rfl⟩ | ⟨kind, rfl⟩ := exists_refusal_iff.mp ⟨reason, refused⟩
    · cases refused
      exact ⟨rfl, fun kind same => alternativeReason_ne kind (Failure.unsupportedQuery.inj same)⟩
    · exact absurd exposed.contains (supported kind)

/-- `OR` joins what stands on its two sides, however often it is written and whatever says nothing
between them. -/
example : parse "OR a OR OR \"\" -b c OR" = all [any [text "a", excluding (text "b")], text "c"] :=
  rfl

end Query
end SourceSearch
