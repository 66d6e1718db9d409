import SourceSearch.Sorted.Order

/-!
# Finite sets in ascending order

A set is its list of elements, ascending and without repetition, so two sets with the same
elements are equal and listing a set is free.
-/

namespace SourceSearch

/-- A finite set, listed in ascending order. -/
structure SortedSet (α : Type) [LT α] where
  /-- The elements in ascending order. -/
  toList : List α
  /-- Each element is smaller than all that follow. -/
  ascending : toList.Pairwise (· < ·)

namespace SortedSet

variable {α : Type} [LT α]

@[ext]
theorem ext {s t : SortedSet α} (h : s.toList = t.toList) : s = t := by
  cases s
  cases t
  simp_all

instance [DecidableEq α] : DecidableEq (SortedSet α) := fun s t =>
  decidable_of_iff (s.toList = t.toList) ⟨ext, fun h => h ▸ rfl⟩

theorem ascending_nil : ([] : List α).Pairwise (· < ·) := .nil

/-- The set without elements. -/
def empty : SortedSet α := ⟨[], ascending_nil⟩

instance : EmptyCollection (SortedSet α) := ⟨empty⟩

instance : Inhabited (SortedSet α) := ⟨empty⟩

instance : Membership α (SortedSet α) := ⟨fun s a => a ∈ s.toList⟩

theorem mem_toList {s : SortedSet α} {a : α} : a ∈ s.toList ↔ a ∈ s := Iff.rfl

instance [DecidableEq α] (a : α) (s : SortedSet α) : Decidable (a ∈ s) :=
  inferInstanceAs (Decidable (a ∈ s.toList))

/-- The number of elements. -/
def size (s : SortedSet α) : Nat := s.toList.length

/-- The set has no elements. -/
def isEmpty (s : SortedSet α) : Bool := s.toList.isEmpty

section Insert

variable [DecidableLT α]

/-- Put an element at its place in an ascending list; an element that is there already stays. -/
def place (a : α) : List α → List α
  | [] => [a]
  | b :: rest => if a < b then a :: b :: rest else if b < a then b :: place a rest else b :: rest

theorem mem_place [SortOrder α] {a x : α} {l : List α} :
    x ∈ place a l ↔ x = a ∨ x ∈ l := by
  induction l with
  | nil => simp [place]
  | cons b rest ih =>
      rw [place]
      split
      · simp
      · split
        · simp only [List.mem_cons, ih]
          grind
        · have h : a = b := SortOrder.connected ‹_› ‹_›
          simp [h]

theorem mem_of_mem_place {a x : α} {l : List α} (h : x ∈ place a l) : x = a ∨ x ∈ l := by
  induction l with
  | nil => simpa [place] using h
  | cons b rest ih =>
      rw [place] at h
      split at h
      · simpa using h
      · split at h
        · rcases List.mem_cons.mp h with h | h
          · simp [h]
          · rcases ih h with h | h <;> simp [h]
        · exact .inr h

theorem pairwise_place [SortOrder α] {a : α} {l : List α} (h : l.Pairwise (· < ·)) :
    (place a l).Pairwise (· < ·) := by
  induction l with
  | nil => simp [place]
  | cons b rest ih =>
      rw [place]
      split
      · rename_i less
        refine List.pairwise_cons.mpr ⟨fun x hx => ?_, h⟩
        rcases List.mem_cons.mp hx with rfl | hx
        · exact less
        · exact SortOrder.trans less (List.rel_of_pairwise_cons h hx)
      · split
        · rename_i less
          refine List.pairwise_cons.mpr ⟨fun x hx => ?_, ih (List.Pairwise.of_cons h)⟩
          rcases mem_of_mem_place hx with rfl | hx
          · exact less
          · exact List.rel_of_pairwise_cons h hx
        · exact h

variable [SortOrder α]

/-- Add an element. -/
def insert (s : SortedSet α) (a : α) : SortedSet α :=
  ⟨place a s.toList, pairwise_place s.ascending⟩

/-- The set of the elements of a list. -/
def ofList (l : List α) : SortedSet α := l.foldl insert empty

/-- The elements of either set. -/
def union (s t : SortedSet α) : SortedSet α := t.toList.foldl insert s

/-- The elements that satisfy `p`. -/
def filter (p : α → Bool) (s : SortedSet α) : SortedSet α :=
  ⟨s.toList.filter p, s.ascending.filter p⟩

/-- The elements of both sets. -/
def inter [DecidableEq α] (s t : SortedSet α) : SortedSet α :=
  s.filter fun a => decide (a ∈ t)

theorem mem_insert {s : SortedSet α} {a x : α} :
    x ∈ s.insert a ↔ x = a ∨ x ∈ s := mem_place

theorem mem_foldl_insert {l : List α} {s : SortedSet α}
    {x : α} : x ∈ l.foldl insert s ↔ x ∈ l ∨ x ∈ s := by
  induction l generalizing s with
  | nil => simp
  | cons a rest ih =>
      rw [List.foldl_cons, ih, mem_insert, List.mem_cons]
      grind

theorem mem_union {s t : SortedSet α} {x : α} :
    x ∈ s.union t ↔ x ∈ s ∨ x ∈ t := by
  rw [union, mem_foldl_insert, mem_toList]
  exact Or.comm

theorem mem_ofList {l : List α} {x : α} : x ∈ ofList l ↔ x ∈ l := by
  rw [ofList, mem_foldl_insert]
  simp [← mem_toList, empty]

theorem mem_insert_self (s : SortedSet α) (a : α) : a ∈ s.insert a := mem_insert.mpr (.inl rfl)

omit [DecidableLT α] in
theorem nodup (s : SortedSet α) : s.toList.Nodup := by
  refine s.ascending.imp ?_
  rintro a _ less rfl
  exact SortOrder.irrefl a less

omit [DecidableLT α] in
/-- Sets with the same elements are equal. -/
theorem ext_mem {s t : SortedSet α} (same : ∀ x, x ∈ s ↔ x ∈ t) : s = t := by
  have perm : s.toList.Perm t.toList := (List.perm_ext_iff_of_nodup s.nodup t.nodup).mpr same
  exact ext (perm.eq_of_pairwise
    (fun _ _ _ _ less more => absurd (SortOrder.trans less more) (SortOrder.irrefl _))
    s.ascending t.ascending)

theorem ofList_toList (s : SortedSet α) : ofList s.toList = s :=
  ext_mem fun _ => mem_ofList

theorem length_place {a : α} {l : List α} (ascending : l.Pairwise (· < ·)) (fresh : a ∉ l) :
    (place a l).length = l.length + 1 := by
  induction l with
  | nil => rfl
  | cons b rest ih =>
      rw [List.mem_cons, not_or] at fresh
      rw [place]
      split
      · rfl
      · split
        · rw [List.length_cons, ih ascending.of_cons fresh.2, List.length_cons]
        · exact absurd (SortOrder.connected ‹_› ‹_›) fresh.1

theorem insert_of_mem {s : SortedSet α} {a : α} (member : a ∈ s) : s.insert a = s := by
  refine ext_mem fun x => ?_
  rw [mem_insert, or_iff_right_iff_imp]
  rintro rfl
  exact member

theorem size_insert [DecidableEq α] (s : SortedSet α) (a : α) :
    (s.insert a).size = if a ∈ s then s.size else s.size + 1 := by
  split
  · rw [insert_of_mem ‹_›]
  · exact length_place s.ascending ‹_›

omit [DecidableLT α] [SortOrder α] in
theorem isEmpty_iff {s : SortedSet α} : s.isEmpty ↔ ∀ x, x ∉ s := by
  rw [isEmpty, List.isEmpty_iff, List.eq_nil_iff_forall_not_mem]
  rfl

omit [DecidableLT α] [SortOrder α] in
@[simp]
theorem not_mem_empty {x : α} : x ∉ (empty : SortedSet α) := List.not_mem_nil

omit [DecidableLT α] [SortOrder α] in
theorem mem_filter {p : α → Bool} {s : SortedSet α} {x : α} : x ∈ s.filter p ↔ x ∈ s ∧ p x :=
  List.mem_filter

omit [DecidableLT α] [SortOrder α] in
theorem mem_inter [DecidableEq α] {s t : SortedSet α} {x : α} :
    x ∈ s.inter t ↔ x ∈ s ∧ x ∈ t := by
  simp [inter, filter, ← mem_toList]

end Insert

end SortedSet
end SourceSearch
