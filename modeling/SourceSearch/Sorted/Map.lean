import SourceSearch.Sorted.Order

/-!
# Finite maps in ascending order of their keys

A map is its list of entries, ascending in the key and with one entry for each key, so two maps
with the same entries are equal and listing a map is free.
-/

namespace SourceSearch

/-- A finite map, listed in ascending order of its keys. -/
structure SortedMap (κ : Type) [LT κ] (β : Type) where
  /-- The entries in ascending order of their keys. -/
  toList : List (κ × β)
  /-- Each key is smaller than all that follow. -/
  ascending : (toList.map Prod.fst).Pairwise (· < ·)

namespace SortedMap

variable {κ β : Type} [LT κ]

@[ext]
theorem ext {m n : SortedMap κ β} (h : m.toList = n.toList) : m = n := by
  cases m
  cases n
  simp_all

instance [DecidableEq κ] [DecidableEq β] : DecidableEq (SortedMap κ β) := fun m n =>
  decidable_of_iff (m.toList = n.toList) ⟨ext, fun h => h ▸ rfl⟩

theorem ascending_keys_nil : (([] : List (κ × β)).map Prod.fst).Pairwise (· < ·) := .nil

/-- The map without entries. -/
def empty : SortedMap κ β := ⟨[], ascending_keys_nil⟩

instance : EmptyCollection (SortedMap κ β) := ⟨empty⟩

instance : Inhabited (SortedMap κ β) := ⟨empty⟩

/-- The keys in ascending order. -/
def keys (m : SortedMap κ β) : List κ := m.toList.map Prod.fst

/-- The values in ascending order of their keys. -/
def values (m : SortedMap κ β) : List β := m.toList.map Prod.snd

/-- The number of entries. -/
def size (m : SortedMap κ β) : Nat := m.toList.length

/-- The map has no entries. -/
def isEmpty (m : SortedMap κ β) : Bool := m.toList.isEmpty

/-- The value of a key. -/
def find? [DecidableEq κ] (m : SortedMap κ β) (k : κ) : Option β :=
  (m.toList.find? fun entry => entry.1 = k).map Prod.snd

/-- The values of a map, changed one by one. -/
def mapValues {γ : Type} (f : β → γ) (m : SortedMap κ β) : SortedMap κ γ :=
  ⟨m.toList.map fun entry => (entry.1, f entry.2), by
    simpa [List.map_map, Function.comp_def] using m.ascending⟩

/-- The entries whose keys satisfy `p`. -/
def filterKeys (p : κ → Bool) (m : SortedMap κ β) : SortedMap κ β :=
  ⟨m.toList.filter fun entry => p entry.1,
    m.ascending.sublist (List.filter_sublist.map Prod.fst)⟩

section Insert

variable [DecidableLT κ]

/-- Put an entry at its place in a list ascending in the keys, in place of an entry of its key. -/
def place (k : κ) (v : β) : List (κ × β) → List (κ × β)
  | [] => [(k, v)]
  | entry :: rest =>
      if k < entry.1 then (k, v) :: entry :: rest
      else if entry.1 < k then entry :: place k v rest
      else (k, v) :: rest

theorem fst_place {k : κ} {v : β} {l : List (κ × β)} {x : κ}
    (h : x ∈ (place k v l).map Prod.fst) : x = k ∨ x ∈ l.map Prod.fst := by
  induction l with
  | nil => simpa [place] using h
  | cons entry rest ih =>
      rw [place] at h
      split at h
      · simpa using h
      · split at h
        · rw [List.map_cons, List.mem_cons] at h
          rw [List.map_cons, List.mem_cons]
          grind
        · rw [List.map_cons, List.mem_cons] at h
          rw [List.map_cons, List.mem_cons]
          grind

variable [SortOrder κ]

theorem pairwise_place {k : κ} {v : β} {l : List (κ × β)}
    (h : (l.map Prod.fst).Pairwise (· < ·)) : ((place k v l).map Prod.fst).Pairwise (· < ·) := by
  induction l with
  | nil => simp [place]
  | cons entry rest ih =>
      rw [place]
      split
      · rename_i less
        rw [List.map_cons]
        refine List.pairwise_cons.mpr ⟨fun x hx => ?_, h⟩
        rcases List.mem_cons.mp hx with rfl | hx
        · exact less
        · exact SortOrder.trans less (List.rel_of_pairwise_cons h hx)
      · split
        · rename_i less
          rw [List.map_cons] at h ⊢
          refine List.pairwise_cons.mpr ⟨fun x hx => ?_, ih (List.Pairwise.of_cons h)⟩
          rcases fst_place hx with rfl | hx
          · exact less
          · exact List.rel_of_pairwise_cons h hx
        · have same : k = entry.1 := SortOrder.connected ‹_› ‹_›
          simpa [same] using h

/-- Give a key a value; an earlier value is replaced. -/
def insert (m : SortedMap κ β) (k : κ) (v : β) : SortedMap κ β :=
  ⟨place k v m.toList, pairwise_place m.ascending⟩

/-- The map of a list of entries; of several entries of one key the last counts. -/
def ofList (entries : List (κ × β)) : SortedMap κ β :=
  entries.foldl (fun m entry => m.insert entry.1 entry.2) empty

/-- Give a key the value that `f` makes of its present one. -/
def alter [DecidableEq κ] (m : SortedMap κ β) (k : κ) (f : Option β → β) : SortedMap κ β :=
  m.insert k (f (m.find? k))

omit [DecidableLT κ] in
theorem find?_eq_some_iff [DecidableEq κ] {m : SortedMap κ β} {k : κ} {v : β} :
    m.find? k = some v ↔ (k, v) ∈ m.toList := by
  obtain ⟨entries, ascending⟩ := m
  simp only [find?]
  induction entries with
  | nil => simp
  | cons entry rest ih =>
      rw [List.map_cons] at ascending
      have apart : ∀ w, (entry.1, w) ∉ rest := fun w member =>
        SortOrder.irrefl entry.1
          (List.rel_of_pairwise_cons ascending (List.mem_map.mpr ⟨(entry.1, w), member, rfl⟩))
      by_cases same : entry.1 = k
      · subst same
        simp only [List.find?_cons, decide_true, Option.map_some, List.mem_cons, apart, or_false]
        constructor
        · rintro ⟨⟩
          rfl
        · intro eq
          rw [← eq]
      · have other : (k, v) ≠ entry := fun eq => same (eq ▸ rfl)
        simp only [List.find?_cons, same, decide_false, List.mem_cons, other, false_or]
        exact ih ascending.of_cons

theorem mem_place {k x : κ} {v w : β} {l : List (κ × β)}
    (ascending : (l.map Prod.fst).Pairwise (· < ·)) :
    (x, w) ∈ place k v l ↔ (x = k ∧ w = v) ∨ (x ≠ k ∧ (x, w) ∈ l) := by
  induction l with
  | nil => simp [place]
  | cons entry rest ih =>
      rw [List.map_cons] at ascending
      have above : ∀ y u, (y, u) ∈ rest → entry.1 < y := fun y u member =>
        List.rel_of_pairwise_cons ascending (List.mem_map_of_mem member)
      have step := ih ascending.of_cons
      rw [place]
      split
      · rename_i less
        have apart : (x, w) ∈ entry :: rest → x ≠ k := by
          rintro member rfl
          rcases List.mem_cons.mp member with rfl | member
          · exact SortOrder.irrefl _ less
          · exact SortOrder.irrefl _ (SortOrder.trans less (above _ _ member))
        rw [List.mem_cons, Prod.mk.injEq]
        grind
      · split
        · rename_i less
          have apart : (x, w) = entry → x ≠ k := by
            rintro rfl rfl
            exact SortOrder.irrefl _ less
          rw [List.mem_cons, step, List.mem_cons]
          grind
        · have same : k = entry.1 := SortOrder.connected ‹_› ‹_›
          subst same
          have apart : (x, w) ∈ rest → x ≠ entry.1 := by
            rintro member rfl
            exact SortOrder.irrefl _ (above _ _ member)
          rw [List.mem_cons, List.mem_cons, Prod.mk.injEq]
          grind

theorem find?_insert [DecidableEq κ] (m : SortedMap κ β) (k x : κ) (v : β) :
    (m.insert k v).find? x = if x = k then some v else m.find? x := by
  refine Option.ext fun w => ?_
  rw [find?_eq_some_iff, insert, mem_place m.ascending]
  split
  · rename_i same
    simp [same, eq_comm]
  · rename_i other
    simp [other, find?_eq_some_iff]

omit [DecidableLT κ] in
theorem nodup (m : SortedMap κ β) : m.toList.Nodup := by
  refine (List.pairwise_map.mp m.ascending).imp ?_
  rintro entry _ less rfl
  exact SortOrder.irrefl entry.1 less

omit [DecidableLT κ] in
/-- Maps with the same value for each key are equal. -/
theorem ext_find? [DecidableEq κ] {m n : SortedMap κ β} (same : ∀ k, m.find? k = n.find? k) :
    m = n := by
  have members : ∀ entry, entry ∈ m.toList ↔ entry ∈ n.toList := by
    rintro ⟨k, v⟩
    rw [← find?_eq_some_iff, ← find?_eq_some_iff, same]
  have perm : m.toList.Perm n.toList :=
    (List.perm_ext_iff_of_nodup m.nodup n.nodup).mpr members
  exact ext (perm.eq_of_pairwise
    (fun _ _ _ _ less more => absurd (SortOrder.trans less more) (SortOrder.irrefl _))
    (List.pairwise_map.mp m.ascending) (List.pairwise_map.mp n.ascending))

/-- A later value of a key replaces an earlier one. -/
@[simp]
theorem insert_insert [DecidableEq κ] (m : SortedMap κ β) (k : κ) (v w : β) :
    (m.insert k v).insert k w = m.insert k w := by
  refine ext_find? fun x => ?_
  simp only [find?_insert]
  split <;> rfl

omit [DecidableLT κ] [SortOrder κ] in
theorem find?_mapValues [DecidableEq κ] {γ : Type} (f : β → γ) (m : SortedMap κ β) (k : κ) :
    (m.mapValues f).find? k = (m.find? k).map f := by
  rw [find?, mapValues, List.find?_map, Option.map_map, find?, Option.map_map]
  rfl

omit [DecidableLT κ] [SortOrder κ] in
@[simp]
theorem find?_empty [DecidableEq κ] (k : κ) : (empty : SortedMap κ β).find? k = none := rfl

/-- Of several entries of one key the last counts. -/
theorem find?_foldl_insert [DecidableEq κ] (entries : List (κ × β)) (m : SortedMap κ β) (k : κ) :
    (entries.foldl (fun m entry => m.insert entry.1 entry.2) m).find? k =
      ((entries.reverse.find? fun entry => entry.1 = k).map Prod.snd).or (m.find? k) := by
  induction entries generalizing m with
  | nil => simp
  | cons entry rest ih =>
      rw [List.foldl_cons, ih, find?_insert, List.reverse_cons, List.find?_append]
      cases rest.reverse.find? fun entry => entry.1 = k with
      | some found => simp
      | none =>
          by_cases same : entry.1 = k
          · simp [same]
          · simp [same, Ne.symm same]

theorem find?_ofList [DecidableEq κ] (entries : List (κ × β)) (k : κ) :
    (ofList entries).find? k =
      (entries.reverse.find? fun entry => entry.1 = k).map Prod.snd := by
  rw [ofList, find?_foldl_insert]
  simp

theorem ofList_toList [DecidableEq κ] (m : SortedMap κ β) : ofList m.toList = m := by
  refine ext_find? fun k => ?_
  rw [find?_ofList]
  cases found : m.toList.reverse.find? fun entry => entry.1 = k with
  | none =>
      refine (Option.eq_none_iff_forall_ne_some.mpr fun v eq => ?_).symm
      have member : (k, v) ∈ m.toList.reverse := List.mem_reverse.mpr (find?_eq_some_iff.mp eq)
      simpa using List.find?_eq_none.mp found _ member
  | some entry =>
      have member : entry ∈ m.toList := List.mem_reverse.mp (List.mem_of_find?_eq_some found)
      have key : entry.1 = k := by simpa using List.find?_some found
      exact (find?_eq_some_iff.mpr (key ▸ member)).symm

end Insert

end SortedMap
end SourceSearch
