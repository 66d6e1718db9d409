import Mathlib
import SourceSearch.Proofs.Search.Intersection

/-!
# The order and the end of an intersection

Postings are intersected in the order of their assumed sizes, where equal sizes keep the order of
the trigrams.  The intersection ends after the first postings that are out of proportion to what
they left; the seed alone never ends it.  The order and the place where it ends determine what is
found and all diagnostics, whatever the postings and the sizes are.
-/

namespace SourceSearch

/-- If the images of a list are different, then an entry is in the front of the list exactly if its
image is not in the back. -/
theorem mem_take_iff_of_nodup_map {α β : Type} {l : List α} {f : α → β}
    (distinct : (l.map f).Nodup) {a : α} (member : a ∈ l) (count : Nat) :
    a ∈ l.take count ↔ f a ∉ (l.drop count).map f := by
  rw [← List.take_append_drop count l, List.map_append, List.nodup_append] at distinct
  rw [← List.take_append_drop count l, List.mem_append] at member
  constructor
  · exact fun taken dropped => distinct.2.2 _ (List.mem_map_of_mem taken) _ dropped rfl
  · exact fun kept => member.resolve_right fun dropped => kept (List.mem_map_of_mem dropped)

namespace Intersection

variable {postings : Trigram → SortedSet DocumentKey} {abortRatio : Nat}
  {occurrences : List Occurrence} {key : DocumentKey}

/-! ## Where an intersection ends -/

/-- The documents in the postings of all of a list of trigrams; an empty list has none. -/
def meet (postings : Trigram → SortedSet DocumentKey) : List Occurrence → SortedSet DocumentKey
  | [] => .empty
  | seed :: rest =>
      rest.foldl (fun kept occurrence => kept.inter (postings occurrence.trigram))
        (postings seed.trigram)

/-- The last of the first `count` postings is out of proportion to what they have in common. -/
def outgrows (postings : Trigram → SortedSet DocumentKey) (abortRatio : Nat)
    (occurrences : List Occurrence) (count : Nat) : Bool :=
  occurrences[count - 1]?.any fun last =>
    min (abortRatio * (meet postings (occurrences.take count)).size) (2 ^ 64 - 1) < last.count

/-- The number of postings that are read: up to the first after the seed that is out of proportion
to what it left, or all of them. -/
def reach (postings : Trigram → SortedSet DocumentKey) (abortRatio : Nat)
    (occurrences : List Occurrence) : Nat :=
  ((List.range' 2 (occurrences.length - 1)).find? (outgrows postings abortRatio occurrences)).getD
    occurrences.length

/-- What the postings at a place did if only the first `reach` of them were read. -/
def stateAt (postings : Trigram → SortedSet DocumentKey) (occurrences : List Occurrence)
    (reach place : Nat) : UsageState :=
  if place = 0 then .success
  else if reach ≤ place then .unknown
  else if (meet postings (occurrences.take (place + 1))).size <
      (meet postings (occurrences.take place)).size then .success
  else .failed

/-- The reach is the only number of postings after which an intersection has to end. -/
theorem reach_eq {count : Nat} (bound : count ≤ occurrences.length)
    (ends : count = occurrences.length ∨
      2 ≤ count ∧ outgrows postings abortRatio occurrences count = true)
    (least : ∀ fewer, 2 ≤ fewer → fewer < count →
      outgrows postings abortRatio occurrences fewer = false) :
    reach postings abortRatio occurrences = count := by
  by_cases stops : 2 ≤ count ∧ outgrows postings abortRatio occurrences count = true
  · have first : (List.range' 2 (occurrences.length - 1)).find?
        (outgrows postings abortRatio occurrences) = some count := by
      rw [List.find?_range'_eq_some]
      refine ⟨stops.2, ?_, fun fewer low less => by rw [least fewer low less, Bool.not_false]⟩
      rw [List.mem_range'_1]
      omega
    rw [reach, first, Option.getD_some]
  · obtain rfl : count = occurrences.length := by tauto
    have never : (List.range' 2 (occurrences.length - 1)).find?
        (outgrows postings abortRatio occurrences) = none := by
      rw [List.find?_range'_eq_none]
      intro fewer low less
      rcases Nat.lt_or_ge fewer occurrences.length with before | after
      · rw [least fewer low before, Bool.not_false]
      · obtain rfl : fewer = occurrences.length := by omega
        rw [Bool.eq_false_iff.mpr fun outgrown => stops ⟨low, outgrown⟩, Bool.not_false]
    rw [reach, never, Option.getD_none]

theorem reach_pos (nonempty : occurrences ≠ []) : 0 < reach postings abortRatio occurrences := by
  rw [reach]
  cases found : (List.range' 2 (occurrences.length - 1)).find?
      (outgrows postings abortRatio occurrences) with
  | none => exact List.length_pos_of_ne_nil nonempty
  | some count =>
      have listed := List.mem_range'_1.mp (List.mem_of_find?_eq_some found)
      rw [Option.getD_some]
      omega

-- The second list is three times as long as what it leaves, so the third is not read.
example : reach (fun _ => .ofList ["one"]) 2 [⟨"abc", 1⟩, ⟨"bcd", 3⟩, ⟨"cde", 9⟩] = 2 := by decide

/-! ## What an intersection leaves -/

theorem meet_append_singleton {front : List Occurrence} (begun : front ≠ [])
    (occurrence : Occurrence) :
    meet postings (front ++ [occurrence]) =
      (meet postings front).inter (postings occurrence.trigram) := by
  cases front with
  | nil => exact absurd rfl begun
  | cons seed rest => simp [meet, List.foldl_append]

theorem mem_meet_iff (nonempty : occurrences ≠ []) :
    key ∈ meet postings occurrences ↔
      ∀ occurrence ∈ occurrences, key ∈ postings occurrence.trigram := by
  induction occurrences using List.reverseRecOn with
  | nil => exact absurd rfl nonempty
  | append_singleton front last ih =>
      by_cases begun : front = []
      · simp [begun, meet]
      · rw [meet_append_singleton begun, SortedSet.mem_inter, ih begun]
        simp [or_imp, forall_and]

/-- How an intersection ends that has read the first `count` of the postings. -/
def endedAt (postings : Trigram → SortedSet DocumentKey) (occurrences : List Occurrence)
    (count place : Nat) (rest : List Occurrence) : Intersection where
  documents := meet postings (occurrences.take count)
  usage := rest.mapIdx fun offset occurrence =>
    .of occurrence (stateAt postings occurrences count (place + offset))
  skipped := (occurrences.drop count).map Occurrence.trigram

theorem stateAt_of_le {count place : Nat} (positive : place ≠ 0) (skipped : count ≤ place) :
    stateAt postings occurrences count place = .unknown := by
  rw [stateAt, if_neg positive, if_pos skipped]

theorem stateAt_of_lt {count place : Nat} (positive : place ≠ 0) (read : place < count) :
    stateAt postings occurrences count place =
      stateOf (meet postings (occurrences.take place)).size
        (meet postings (occurrences.take (place + 1))).size := by
  rw [stateAt, if_neg positive, if_neg (Nat.not_le.mpr read), stateOf]

theorem endedAt_cons {count place : Nat} (positive : place ≠ 0) (read : place < count)
    (occurrence : Occurrence) (rest : List Occurrence) :
    endedAt postings occurrences count place (occurrence :: rest) =
      { endedAt postings occurrences count (place + 1) rest with
        usage := .of occurrence (stateOf (meet postings (occurrences.take place)).size
            (meet postings (occurrences.take (place + 1))).size) ::
          (endedAt postings occurrences count (place + 1) rest).usage } := by
  rw [endedAt, List.mapIdx_cons, Nat.add_zero, stateAt_of_lt positive read]
  simp only [endedAt, Nat.add_assoc, Nat.add_comm 1]

/-- Postings that are skipped did nothing. -/
theorem endedAt_self (postings : Trigram → SortedSet DocumentKey) (occurrences : List Occurrence)
    {place : Nat} (positive : place ≠ 0) :
    endedAt postings occurrences place place (occurrences.drop place) =
      ⟨meet postings (occurrences.take place),
        (occurrences.drop place).map (Usage.of · .unknown),
        (occurrences.drop place).map Occurrence.trigram⟩ := by
  have unread (offset : Nat) : stateAt postings occurrences place (place + offset) = .unknown :=
    stateAt_of_le (by omega) (by omega)
  rw [endedAt]
  congr 1
  exact List.ext_getElem (by simp) fun offset _ _ => by simp [unread]

/-- From where some postings have been read without an end, an intersection goes on to the first
that is out of proportion. -/
theorem narrow_eq (postings : Trigram → SortedSet DocumentKey) (abortRatio : Nat)
    (front rest : List Occurrence) (begun : front ≠ []) :
    ∃ count, front.length ≤ count ∧ count ≤ (front ++ rest).length ∧
      (count = (front ++ rest).length ∨
        front.length < count ∧ outgrows postings abortRatio (front ++ rest) count = true) ∧
      (∀ fewer, front.length < fewer → fewer < count →
        outgrows postings abortRatio (front ++ rest) fewer = false) ∧
      narrow postings abortRatio (meet postings front) rest =
        endedAt postings (front ++ rest) count front.length rest := by
  induction rest generalizing front with
  | nil =>
      refine ⟨front.length, Nat.le_refl _, by simp, .inl (by simp),
        fun fewer low less => by omega, ?_⟩
      simp [narrow, endedAt]
  | cons occurrence rest ih =>
      have positive : front.length ≠ 0 := by simpa using begun
      have before : (front ++ occurrence :: rest).take front.length = front := List.take_left
      have kept : meet postings ((front ++ occurrence :: rest).take (front.length + 1)) =
          (meet postings front).inter (postings occurrence.trigram) := by
        rw [← meet_append_singleton begun, List.append_cons, List.take_left' (by simp)]
      have skipped : (front ++ occurrence :: rest).drop (front.length + 1) = rest := by
        rw [List.append_cons, List.drop_left' (by simp)]
      have test : outgrows postings abortRatio (front ++ occurrence :: rest) (front.length + 1) =
          isExcessive abortRatio ((meet postings front).inter (postings occurrence.trigram)).size
            occurrence := by
        rw [Bool.eq_iff_iff]
        simp [outgrows, kept, isExcessive, Json.max64]
      rw [narrow, ← test]
      split
      next excessive =>
        refine ⟨front.length + 1, by omega, by simp, .inr ⟨by omega, excessive⟩,
          fun fewer low less => by omega, ?_⟩
        have ended := endedAt_self postings (front ++ occurrence :: rest)
          (Nat.succ_ne_zero front.length)
        rw [skipped] at ended
        rw [endedAt_cons positive (by omega), ended, before, kept]
      next proportionate =>
        rw [Bool.not_eq_true] at proportionate
        obtain ⟨count, low, bound, ends, least, narrowed⟩ := ih (front ++ [occurrence]) (by simp)
        rw [← List.append_cons] at bound ends least narrowed
        rw [meet_append_singleton begun, ← kept] at narrowed
        rw [show (front ++ [occurrence]).length = front.length + 1 by simp]
          at low ends least narrowed
        refine ⟨count, by omega, bound, ends.imp id fun ends => ⟨by omega, ends.2⟩,
          fun fewer above less => ?_, ?_⟩
        · rcases Nat.eq_or_lt_of_le above with rfl | above
          · exact proportionate
          · exact least fewer above less
        · rw [endedAt_cons positive (by omega), ← kept, narrowed, before]

/-- An intersection reads the postings up to its reach. -/
theorem ofOccurrences_eq : ofOccurrences postings abortRatio occurrences =
    endedAt postings occurrences (reach postings abortRatio occurrences) 0 occurrences := by
  cases occurrences with
  | nil => rfl
  | cons seed rest =>
      obtain ⟨count, low, bound, ends, least, narrowed⟩ :=
        narrow_eq postings abortRatio [seed] rest (by simp)
      rw [List.singleton_append] at bound ends least narrowed
      rw [List.length_singleton] at low ends least narrowed
      rw [reach_eq bound (ends.imp id fun ends => ⟨ends.1, ends.2⟩)
        fun fewer two less => least fewer two less]
      have started : meet postings [seed] = postings seed.trigram := rfl
      rw [ofOccurrences, ← started, narrowed]
      simp only [endedAt, List.mapIdx_cons, Nat.add_comm 1, Nat.zero_add]
      rfl

end Intersection

/-! ## The order of the postings -/

namespace Occurrence

/-- The order of an intersection: smaller sizes first, and equal sizes in the order of the
trigrams. -/
def Precedes (first second : Occurrence) : Prop :=
  first.count < second.count ∨ first.count = second.count ∧ first.trigram < second.trigram

end Occurrence

namespace PostingsReader

variable {reader : PostingsReader} {abortRatio : Nat} {tree : FileTree}
  {trigrams : SortedSet Trigram} {key : DocumentKey}

theorem perm_bySize :
    (reader.bySize tree trigrams).Perm (trigrams.toList.map (reader.occurrence tree)) :=
  List.mergeSort_perm _ _

/-- Trigrams with equal sizes keep their order. -/
theorem filter_bySize (size : Nat) :
    (reader.bySize tree trigrams).filter (·.count = size) =
      (trigrams.toList.map (reader.occurrence tree)).filter (·.count = size) := by
  have kept : ((trigrams.toList.map (reader.occurrence tree)).filter (·.count = size)).Sublist
      (reader.bySize tree trigrams) := by
    refine List.sublist_mergeSort (by simp; omega) (by simp; omega) ?_ List.filter_sublist
    rw [List.pairwise_filter]
    exact List.pairwise_of_forall fun first second => by simp; omega
  have inside := kept.filter (·.count = size)
  simp only [List.filter_filter, Bool.and_self] at inside
  exact (inside.eq_of_length (perm_bySize.filter _).length_eq.symm).symm

/-- Postings are intersected from the smallest on, where equal sizes keep the order of the
trigrams. -/
theorem pairwise_bySize : (reader.bySize tree trigrams).Pairwise Occurrence.Precedes := by
  have sorted : (reader.bySize tree trigrams).Pairwise fun a b => decide (a.count ≤ b.count) :=
    List.pairwise_mergeSort (by simp; omega) (by simp; omega) _
  have given : (trigrams.toList.map (reader.occurrence tree)).Pairwise fun a b =>
      a.trigram < b.trigram := by
    rw [List.pairwise_map]
    refine trigrams.ascending.imp fun ascending => ?_
    rwa [trigram_occurrence, trigram_occurrence]
  rw [List.pairwise_iff_forall_sublist]
  intro first second listed
  have sizes : first.count ≤ second.count := by
    simpa using List.pairwise_iff_forall_sublist.mp sorted listed
  rcases Nat.lt_or_eq_of_le sizes with smaller | same
  · exact .inl smaller
  · have tied := listed.filter (·.count = second.count)
    rw [filter_bySize, List.filter_eq_self.mpr (by simp [same])] at tied
    exact .inr ⟨same, List.pairwise_iff_forall_sublist.mp given (tied.trans List.filter_sublist)⟩

/-- What a search for trigrams answers, given the documents that it found and its diagnostics. -/
structure Answers (reader : PostingsReader) (abortRatio : Nat) (tree : FileTree)
    (trigrams : SortedSet Trigram) (found : SortedSet DocumentKey) (details : Details) : Prop where
  /-- Every trigram is listed with its assumed size. -/
  listed : details.occurrences.Perm
    (trigrams.toList.map fun trigram => ⟨trigram, (reader.occurrence tree trigram).count⟩)
  /-- Smaller sizes come first, and equal sizes in the order of the trigrams. -/
  ordered : details.occurrences.Pairwise Occurrence.Precedes
  /-- What is found is in the postings up to the reach, and nothing is found without trigrams. -/
  meets : found = Intersection.meet (reader.documents tree) (details.occurrences.take
    (Intersection.reach (reader.documents tree) abortRatio details.occurrences))
  /-- Documents with all of the trigrams are found. -/
  complete : trigrams ≠ .empty → ∀ key,
    (∀ trigram ∈ trigrams, key ∈ reader.documents tree trigram) → key ∈ found
  /-- Documents that are found have every trigram that was read. -/
  sound : ∀ key ∈ found, ∀ occurrence ∈ details.occurrences.take
    (Intersection.reach (reader.documents tree) abortRatio details.occurrences),
    key ∈ reader.documents tree occurrence.trigram
  /-- The trigrams beyond the reach are skipped. -/
  skipped : details.skipped = (details.occurrences.drop (Intersection.reach (reader.documents tree)
    abortRatio details.occurrences)).map Occurrence.trigram
  /-- The diagnostics tell of every trigram what it did. -/
  usage : details.usage = details.occurrences.mapIdx fun place occurrence =>
    ⟨occurrence.trigram, occurrence.count,
      Intersection.stateAt (reader.documents tree) details.occurrences
        (Intersection.reach (reader.documents tree) abortRatio details.occurrences) place⟩

theorem occurrence_eq (trigram : Trigram) :
    reader.occurrence tree trigram = ⟨trigram, (reader.occurrence tree trigram).count⟩ :=
  calc reader.occurrence tree trigram
    _ = ⟨(reader.occurrence tree trigram).trigram, (reader.occurrence tree trigram).count⟩ := rfl
    _ = ⟨trigram, (reader.occurrence tree trigram).count⟩ := by rw [trigram_occurrence]

theorem search_eq : reader.search abortRatio tree trigrams =
    let ended := Intersection.endedAt (reader.documents tree) (reader.bySize tree trigrams)
      (Intersection.reach (reader.documents tree) abortRatio (reader.bySize tree trigrams)) 0
      (reader.bySize tree trigrams)
    (ended.documents,
      { skipped := ended.skipped, usage := ended.usage,
        occurrences := reader.bySize tree trigrams }) := by
  rw [search, Intersection.ofOccurrences_eq]

theorem nodup_bySize (reader : PostingsReader) (tree : FileTree) (trigrams : SortedSet Trigram) :
    ((reader.bySize tree trigrams).map Occurrence.trigram).Nodup := by
  have once : Occurrence.trigram ∘ reader.occurrence tree = id := funext trigram_occurrence
  rw [(perm_bySize.map _).nodup_iff, List.map_map, once, List.map_id]
  exact trigrams.nodup

/-- The occurrences up to the reach. -/
def readBySize (reader : PostingsReader) (abortRatio : Nat) (tree : FileTree)
    (trigrams : SortedSet Trigram) : List Occurrence :=
  (reader.bySize tree trigrams).take
    (Intersection.reach (reader.documents tree) abortRatio (reader.bySize tree trigrams))

/-- The trigrams that are read are those that are not skipped. -/
theorem mem_readBySize_iff {occurrence : Occurrence} :
    occurrence ∈ reader.readBySize abortRatio tree trigrams ↔ ∃ trigram ∈ trigrams,
      trigram ∉ (reader.search abortRatio tree trigrams).2.skipped ∧
        reader.occurrence tree trigram = occurrence := by
  have skipped : (reader.search abortRatio tree trigrams).2.skipped =
      ((reader.bySize tree trigrams).drop (Intersection.reach (reader.documents tree) abortRatio
        (reader.bySize tree trigrams))).map Occurrence.trigram := by
    rw [search_eq]
    rfl
  have taken (trigram : Trigram) (inside : trigram ∈ trigrams) :
      reader.occurrence tree trigram ∈ reader.readBySize abortRatio tree trigrams ↔
        trigram ∉ (reader.search abortRatio tree trigrams).2.skipped := by
    rw [readBySize, mem_take_iff_of_nodup_map (nodup_bySize reader tree trigrams)
      (mem_bySize_iff.mpr ⟨trigram, inside, rfl⟩), trigram_occurrence, skipped]
  constructor
  · intro read
    obtain ⟨trigram, inside, rfl⟩ := mem_bySize_iff.mp (List.mem_of_mem_take read)
    exact ⟨trigram, inside, (taken trigram inside).mp read, rfl⟩
  · rintro ⟨trigram, inside, kept, rfl⟩
    exact (taken trigram inside).mpr kept

theorem readBySize_ne_nil (nonempty : trigrams ≠ .empty) :
    reader.readBySize abortRatio tree trigrams ≠ [] := by
  have some : reader.bySize tree trigrams ≠ [] := fun none => by
    have listed : (reader.bySize tree trigrams).Perm _ := perm_bySize
    rw [none, List.nil_perm, List.map_eq_nil_iff] at listed
    exact nonempty (SortedSet.ext listed)
  rw [readBySize, Ne, List.take_eq_nil_iff, not_or]
  exact ⟨Nat.pos_iff_ne_zero.mp (Intersection.reach_pos some), some⟩

/-- A search skips no more than all but one of its trigrams. -/
theorem exists_not_skipped (nonempty : trigrams ≠ .empty) :
    ∃ trigram ∈ trigrams, trigram ∉ (reader.search abortRatio tree trigrams).2.skipped := by
  obtain ⟨occurrence, read⟩ := List.exists_mem_of_ne_nil _
    (readBySize_ne_nil nonempty : reader.readBySize abortRatio tree trigrams ≠ [])
  obtain ⟨trigram, inside, kept, -⟩ := mem_readBySize_iff.mp read
  exact ⟨trigram, inside, kept⟩

/-- A search finds what is in the postings of all trigrams that it does not skip, if there are
trigrams. -/
theorem mem_search_iff : key ∈ (reader.search abortRatio tree trigrams).1 ↔
    trigrams ≠ .empty ∧ ∀ trigram ∈ trigrams,
      trigram ∉ (reader.search abortRatio tree trigrams).2.skipped →
        key ∈ reader.documents tree trigram := by
  by_cases empty : trigrams = .empty
  · rw [empty, search_of_isEmpty _ _ _ rfl]
    simp [SortedSet.not_mem_empty]
  have found : (reader.search abortRatio tree trigrams).1 =
      Intersection.meet (reader.documents tree) (reader.readBySize abortRatio tree trigrams) := by
    rw [search_eq]
    rfl
  rw [found, Intersection.mem_meet_iff (readBySize_ne_nil empty), and_iff_right empty]
  constructor
  · intro all trigram inside kept
    have held := all _ (mem_readBySize_iff.mpr ⟨trigram, inside, kept, rfl⟩)
    rwa [trigram_occurrence] at held
  · intro all occurrence read
    obtain ⟨trigram, inside, kept, rfl⟩ := mem_readBySize_iff.mp read
    rw [trigram_occurrence]
    exact all trigram inside kept

/-- However the postings and their sizes are stored, a search for trigrams intersects them from the
smallest on up to its reach, and says what it did. -/
theorem answers_search (reader : PostingsReader) (abortRatio : Nat) (tree : FileTree)
    (trigrams : SortedSet Trigram) :
    reader.Answers abortRatio tree trigrams (reader.search abortRatio tree trigrams).1
      (reader.search abortRatio tree trigrams).2 where
  listed := by
    simp only [← occurrence_eq]
    exact perm_bySize
  ordered := pairwise_bySize
  meets := by rw [search_eq]; rfl
  complete nonempty key everywhere := by
    refine mem_search (Bool.eq_false_iff.mpr fun empty => nonempty ?_) everywhere
    exact SortedSet.ext (List.isEmpty_iff.mp empty)
  sound key member occurrence read := by
    rw [search_eq] at member read
    exact (Intersection.mem_meet_iff (List.ne_nil_of_mem read)).mp member occurrence read
  skipped := by rw [search_eq]; rfl
  usage := by
    rw [search_eq]
    simp only [Intersection.endedAt, Nat.zero_add]
    rfl

end PostingsReader
end SourceSearch
