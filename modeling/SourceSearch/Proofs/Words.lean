import SourceSearch.Proofs.Trigram
import SourceSearch.Words

/-!
# Lowercasing and cutting

No capital is the lowercase form of another, so lowercasing twice is lowercasing once, wherever a
text stands.  The tokens of a text are runs of consecutive characters of its lowercase form.
-/

namespace SourceSearch

namespace Text

/-! ## Lowercase characters -/

/-- A character that lowercasing leaves as it is, whatever stands around it. -/
structure IsLower (c : Char) : Prop where
  /-- It is no capital sigma. -/
  notSigma : c ≠ 'Σ'
  /-- It is no capital I with a dot. -/
  notDotted : c ≠ 'İ'
  /-- It has no other lowercase form. -/
  kept : lowerChar c = c

instance (c : Char) : Decidable (IsLower c) :=
  decidable_of_iff (c ≠ 'Σ' ∧ c ≠ 'İ' ∧ lowerChar c = c)
    ⟨fun ⟨notSigma, notDotted, kept⟩ => ⟨notSigma, notDotted, kept⟩,
      fun lower => ⟨lower.notSigma, lower.notDotted, lower.kept⟩⟩

namespace CaseRun

variable {run other : CaseRun} {c : Char}

/-- The first and the last lowercase form of the capitals of a run. -/
def bounds (run : CaseRun) : Nat × Nat :=
  ((run.first + run.offset).toNat, (run.last + run.offset).toNat)

/-- The lowercase forms of a run lie outside another run, or between its capitals. -/
def isApart (run other : CaseRun) : Bool :=
  Nat.blt run.bounds.2 other.first || Nat.blt other.last run.bounds.1 ||
    (other.step == 2 && (run.step == 2 || run.first == run.last) &&
      (run.bounds.1 + other.first) % 2 == 1)

/-- The lowercase forms of a run are characters, other than the capital I with a dot, and those of
ASCII are small letters. -/
def isSettled (run : CaseRun) : Bool :=
  Nat.ble 0x61 run.bounds.1 && (0 ≤ run.first + run.offset) &&
    (Nat.ble 0x131 run.bounds.1 || Nat.blt run.bounds.2 0x130) &&
    (Nat.ble 0x80 run.bounds.1 || Nat.ble run.bounds.2 0x7A) &&
    (Nat.blt run.bounds.2 0xD800 || (Nat.blt 0xDFFF run.bounds.1 && Nat.blt run.bounds.2 0x110000))

theorem isApart_caseRuns :
    (caseRuns.all fun run => caseRuns.all fun other => run.isApart other) = true := by
  decide +kernel

theorem isSettled_caseRuns : (caseRuns.all isSettled) = true := by decide +kernel

theorem holds_iff : run.holds c = true ↔
    run.first ≤ c.toNat ∧ c.toNat ≤ run.last ∧ (c.toNat - run.first) % run.step = 0 := by
  simp [holds, and_assoc]

/-- The number of the lowercase form of a capital of the run is that of a character. -/
theorem toNat_target (settled : run.isSettled = true) (holds : run.holds c = true) :
    (Char.ofNat (c.toNat + run.offset).toNat).toNat = (c.toNat + run.offset).toNat := by
  have range := holds_iff.mp holds
  simp only [isSettled, bounds, Bool.and_eq_true, Bool.or_eq_true, Nat.blt_eq, Nat.ble_eq,
    decide_eq_true_eq] at settled
  have valid : (c.toNat + run.offset).toNat.isValidChar := by
    rw [Nat.isValidChar]
    omega
  rw [Char.ofNat, dif_pos valid]
  rfl

/-- No capital of the other run is the lowercase form of a capital of the run. -/
theorem holds_eq_false (apart : run.isApart other = true) (settled : run.isSettled = true)
    (holds : run.holds c = true) {target : Char}
    (is : target.toNat = (c.toNat + run.offset).toNat) : other.holds target = false := by
  rw [Bool.eq_false_iff, ne_eq, holds_iff, is]
  rw [holds_iff] at holds
  simp only [isSettled, isApart, bounds, Bool.and_eq_true, Bool.or_eq_true, Nat.blt_eq,
    Nat.ble_eq, decide_eq_true_eq, beq_iff_eq] at apart settled
  rcases apart with (below | above) | ⟨⟨step, narrow⟩, odd⟩
  · omega
  · omega
  · rw [step]
    rcases narrow with narrow | narrow
    · rw [narrow] at holds
      omega
    · omega

end CaseRun

theorem toLower_small :
    ∀ n < 0x80, 0x61 ≤ n → n ≤ 0x7A → (Char.ofNat n).toLower = Char.ofNat n := by
  decide

/-- The lowercase form of a capital is lowercase. -/
theorem isLower_target {run : CaseRun} (member : run ∈ caseRuns) {c : Char}
    (holds : run.holds c = true) : IsLower (Char.ofNat (c.toNat + run.offset).toNat) := by
  have settled := List.all_eq_true.mp CaseRun.isSettled_caseRuns run member
  have apart (other : CaseRun) (listed : other ∈ caseRuns) : run.isApart other = true :=
    List.all_eq_true.mp (List.all_eq_true.mp CaseRun.isApart_caseRuns run member) other listed
  have range := CaseRun.holds_iff.mp holds
  have bounds := settled
  simp only [CaseRun.isSettled, CaseRun.bounds, Bool.and_eq_true, Bool.or_eq_true, Nat.blt_eq,
    Nat.ble_eq, decide_eq_true_eq] at bounds
  have number := CaseRun.toNat_target settled holds
  have outside (other : CaseRun) (listed : other ∈ caseRuns) :=
    CaseRun.holds_eq_false (apart other listed) settled holds number
  refine ⟨fun sigma => ?_, fun dotted => ?_, ?_⟩
  · have none := outside ⟨0x3A3, 0x3AB, 1, 32⟩ (by decide +kernel)
    rw [sigma] at none
    exact absurd none (by decide +kernel)
  · rw [dotted] at number
    change 0x130 = _ at number
    omega
  · rw [lowerChar, number]
    split
    · exact toLower_small _ (by omega) (by omega) (by omega)
    · rw [List.find?_eq_none.mpr fun other listed => by rw [outside other listed]; decide]

theorem isLower_toLower : ∀ n < 0x80, IsLower (Char.ofNat n).toLower := by decide +kernel

theorem isLower_lowerChar {c : Char} (notSigma : c ≠ 'Σ') (notDotted : c ≠ 'İ') :
    IsLower (lowerChar c) := by
  rw [lowerChar]
  split
  · rename_i ascii
    simpa [Char.ofNat_toNat] using isLower_toLower c.toNat ascii
  · rename_i wide
    split
    · rename_i run found
      have holds := List.find?_some found
      exact isLower_target (List.mem_of_find?_eq_some found) holds
    · rename_i none
      exact ⟨notSigma, notDotted, by rw [lowerChar, if_neg wide, none]⟩

/-! ## Lowercase texts -/

theorem isLower_of_mem_lowercaseAfter {before text : List Char} {c : Char}
    (member : c ∈ lowercaseAfter before text) : IsLower c := by
  induction text generalizing before with
  | nil => cases member
  | cons first rest ih =>
      rw [lowercaseAfter] at member
      rcases List.mem_append.mp member with here | later
      · split at here
        · split at here <;> obtain rfl := List.mem_singleton.mp here <;> decide
        · split at here
          · simp only [List.mem_cons, List.not_mem_nil, or_false] at here
            rcases here with rfl | rfl <;> decide
          · obtain rfl := List.mem_singleton.mp here
            exact isLower_lowerChar ‹_› ‹_›
      · exact ih later

theorem lowercaseAfter_of_isLower {before text : List Char} (lower : ∀ c ∈ text, IsLower c) :
    lowercaseAfter before text = text := by
  induction text generalizing before with
  | nil => rfl
  | cons first rest ih =>
      rw [List.forall_mem_cons] at lower
      obtain ⟨⟨notSigma, notDotted, kept⟩, others⟩ := lower
      rw [lowercaseAfter, if_neg notSigma, if_neg notDotted, kept, ih others, List.singleton_append]

/-- Lowercasing twice is lowercasing once. -/
theorem lowercase_lowercase (text : List Char) : lowercase (lowercase text) = lowercase text :=
  lowercaseAfter_of_isLower fun _ member => isLower_of_mem_lowercaseAfter member

/-! ## Pieces of a text -/

/-- The pieces of a text are infixes of it, and the first is a prefix. -/
theorem infix_splitOnP (p : Char → Bool) (text : List Char) :
    (∀ first ∈ (text.splitOnP p).head?, first <+: text) ∧
      ∀ piece ∈ text.splitOnP p, piece <:+: text := by
  induction text with
  | nil => simp [List.splitOnP_nil]
  | cons c text ih =>
      obtain ⟨first, pieces⟩ := ih
      rw [List.splitOnP_cons_eq_if_modifyHead]
      split
      · refine ⟨by simp, fun piece member => ?_⟩
        rcases List.mem_cons.mp member with rfl | later
        · exact List.nil_infix
        · exact (pieces piece later).trans (List.infix_cons_iff.mpr (.inr (List.infix_refl _)))
      · cases split : text.splitOnP p with
        | nil => exact absurd split (List.splitOnP_ne_nil p text)
        | cons head rest =>
            rw [split] at first pieces
            have longer : c :: head <+: c :: text :=
              (List.prefix_cons_inj c).mpr (first head rfl)
            rw [List.modifyHead_cons]
            refine ⟨fun piece member => ?_, fun piece member => ?_⟩
            · obtain rfl : c :: head = piece := by simpa using member
              exact longer
            · rcases List.mem_cons.mp member with rfl | later
              · exact longer.isInfix
              · exact List.infix_cons_iff.mpr (.inr (pieces piece (List.mem_cons_of_mem _ later)))

/-- No piece of a text has a character that separates pieces. -/
theorem not_of_mem_splitOnP {p : Char → Bool} {text piece : List Char}
    (member : piece ∈ text.splitOnP p) : ∀ c ∈ piece, p c = false := by
  induction text generalizing piece with
  | nil => simp_all [List.splitOnP_nil]
  | cons c text ih =>
      rw [List.splitOnP_cons_eq_if_modifyHead] at member
      split at member
      · rcases List.mem_cons.mp member with rfl | later
        · simp
        · exact ih later
      · rename_i inside
        cases split : text.splitOnP p with
        | nil => exact absurd split (List.splitOnP_ne_nil p text)
        | cons head rest =>
            rw [split] at ih member
            rw [List.modifyHead_cons] at member
            rcases List.mem_cons.mp member with rfl | later
            · exact List.forall_mem_cons.mpr ⟨by simpa using inside, ih List.mem_cons_self⟩
            · exact ih (List.mem_cons_of_mem _ later)

theorem mem_intercalate {separator : String} {parts : List String} {c : Char}
    (member : c ∈ (separator.intercalate parts).toList) :
    c ∈ separator.toList ∨ ∃ part ∈ parts, c ∈ part.toList := by
  induction parts with
  | nil => simp at member
  | cons part rest ih =>
      by_cases last : rest = []
      · subst last
        rw [String.intercalate_singleton] at member
        exact .inr ⟨part, List.mem_cons_self, member⟩
      · rw [String.intercalate_cons_of_ne_nil last, String.toList_append, String.toList_append,
          List.mem_append, List.mem_append] at member
        rcases member with (member | member) | member
        · exact .inr ⟨part, List.mem_cons_self, member⟩
        · exact .inl member
        · refine (ih member).imp_right ?_
          rintro ⟨other, inside, member⟩
          exact ⟨other, List.mem_cons_of_mem _ inside, member⟩

theorem trim_infix (text : List Char) : trim text <:+: text := by
  have trailing (l : List Char) : dropTrailing isBlank l <+: l := by
    rw [dropTrailing, ← List.reverse_suffix, List.reverse_reverse]
    exact List.dropWhile_suffix _
  exact (trailing _).isInfix.trans (List.dropWhile_suffix _).isInfix

end Text

/-- Whatever is in a text in lowercase is in lowercase. -/
theorem lowercase_of_part {part : String} {text : List Char}
    (inside : part.toList <:+: Text.lowercase text) : lowercase part = part := by
  rw [lowercase, Text.lowercase, Text.lowercaseAfter_of_isLower fun _ member =>
    Text.isLower_of_mem_lowercaseAfter (inside.subset member), String.ofList_toList]

/-- A token of a line is in its lowercase form. -/
theorem Words.infix_of_mem_split {line token : String} (member : token ∈ Words.split line) :
    token.toList <:+: Text.lowercase line.toList := by
  rw [Words.split] at member
  obtain ⟨piece, held, rfl⟩ := List.mem_map.mp member
  obtain ⟨part, inside, rfl⟩ := List.mem_map.mp (List.mem_filter.mp held).1
  rw [String.toList_ofList]
  exact (Text.trim_infix part).trans ((Text.infix_splitOnP _ _).2 part inside)

/-- A word of a text is in the lowercase form of a line. -/
theorem Words.exists_of_mem_distinct {text word : String} (member : word ∈ Words.distinct text) :
    ∃ line : List Char, word.toList <:+: Text.lowercase line := by
  rw [Words.distinct, List.mem_eraseDups, Words.ofText] at member
  obtain ⟨line, -, token⟩ := List.mem_flatMap.mp (List.mem_filter.mp member).1
  exact ⟨line.toList, Words.infix_of_mem_split token⟩

/-- The tokens of a text in lowercase occur in it. -/
theorem Words.occursIn_of_mem_split {text token : String}
    (member : token ∈ Words.split (lowercase text)) : occursIn token (lowercase text) = true := by
  have inside := Words.infix_of_mem_split member
  rw [lowercase, String.toList_ofList, Text.lowercase_lowercase] at inside
  rwa [occursIn_iff, lowercase, String.toList_ofList]

end SourceSearch
