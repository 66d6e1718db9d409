import SourceSearch.Proofs.Words

/-!
# Pieces and tokens of lines

A line is lowercased as a whole before it is cut, and a term on its own.  Both come to the same but
for capital sigmas, whose small form depends on the letters around them.  Lowercasing makes neither
delimiters nor blanks, so what holds none of them stays within one token.
-/

namespace SourceSearch
namespace Text

/-! ## Lowercasing in place -/

/-- A capital sigma between these characters becomes the final small one.  Those before it are given
nearest first. -/
def isFinal (before after : List Char) : Bool := meetsCased before && !meetsCased after

/-- The lowercase form of a character between others. -/
def lowerAt (before : List Char) (c : Char) (after : List Char) : List Char :=
  if c = 'Σ' then [if isFinal before after then 'ς' else 'σ']
  else if c = 'İ' then ['i', '\u0307']
  else [lowerChar c]

/-- The lowercase form of a text between other characters, those before it nearest first. -/
def lowercaseBetween : (before text after : List Char) → List Char
  | _, [], _ => []
  | before, c :: rest, after =>
      lowerAt before c (rest ++ after) ++ lowercaseBetween (c :: before) rest after

theorem lowercaseAfter_cons (before : List Char) (c : Char) (rest : List Char) :
    lowercaseAfter before (c :: rest) =
      lowerAt before c rest ++ lowercaseAfter (c :: before) rest := rfl

theorem lowercaseAfter_append (before text after : List Char) :
    lowercaseAfter before (text ++ after) =
      lowercaseBetween before text after ++ lowercaseAfter (text.reverse ++ before) after := by
  induction text generalizing before with
  | nil => rfl
  | cons c rest ih =>
      rw [List.cons_append, lowercaseAfter_cons, ih, lowercaseBetween, List.append_assoc,
        List.reverse_cons, List.append_assoc, List.singleton_append]

theorem length_lowerAt (c : Char) (before after before' after' : List Char) :
    (lowerAt before c after).length = (lowerAt before' c after').length := by
  rw [lowerAt, lowerAt]
  split <;> rfl

theorem lowerAt_ne_nil (before : List Char) (c : Char) (after : List Char) :
    lowerAt before c after ≠ [] := by
  rw [lowerAt]
  split
  · simp
  · split <;> simp

theorem length_le_lowercaseAfter (before text : List Char) :
    text.length ≤ (lowercaseAfter before text).length := by
  induction text generalizing before with
  | nil => exact Nat.zero_le _
  | cons c rest ih =>
      have one := List.length_pos_iff.mpr (lowerAt_ne_nil before c rest)
      have more := ih (c :: before)
      rw [lowercaseAfter_cons, List.length_append, List.length_cons]
      omega

/-- Only for a sigma it matters what stands around. -/
theorem lowerAt_eq_iff {c : Char} {before after before' after' : List Char} :
    lowerAt before c after = lowerAt before' c after' ↔
      (c = 'Σ' → isFinal before after = isFinal before' after') := by
  by_cases sigma : c = 'Σ'
  · rw [lowerAt, lowerAt, if_pos sigma, if_pos sigma]
    cases isFinal before after <;> cases isFinal before' after' <;> simp [sigma]
  · simp [lowerAt, sigma]

/-- Every capital sigma of a text has the same small form between other characters as without
them. -/
def SigmasAlike (before text after : List Char) : Prop :=
  ∀ front back, text = front ++ 'Σ' :: back →
    isFinal (front.reverse ++ before) (back ++ after) = isFinal front.reverse back

theorem sigmasAlike_of_not_mem {text : List Char} (none : 'Σ' ∉ text) (before after : List Char) :
    SigmasAlike before text after := by
  rintro front back rfl
  exact absurd (List.mem_append_right front List.mem_cons_self) none

private theorem lowercaseBetween_eq_lowercaseAfter_iff (done before text after : List Char) :
    lowercaseBetween (done ++ before) text after = lowercaseAfter done text ↔
      ∀ front back, text = front ++ 'Σ' :: back →
        isFinal (front.reverse ++ (done ++ before)) (back ++ after) =
          isFinal (front.reverse ++ done) back := by
  induction text generalizing done with
  | nil => simp [lowercaseBetween, lowercaseAfter]
  | cons c rest ih =>
      have later := ih (c :: done)
      rw [List.cons_append] at later
      have parts : lowercaseBetween (done ++ before) (c :: rest) after =
            lowercaseAfter done (c :: rest) ↔
          lowerAt (done ++ before) c (rest ++ after) = lowerAt done c rest ∧
            lowercaseBetween (c :: (done ++ before)) rest after =
              lowercaseAfter (c :: done) rest := by
        refine ⟨fun same => List.append_inj same (length_lowerAt c _ _ _ _), ?_⟩
        rintro ⟨first, others⟩
        rw [lowercaseBetween, lowercaseAfter_cons, first, others]
      rw [parts, lowerAt_eq_iff, later]
      constructor
      · rintro ⟨here, others⟩ front back whole
        cases front with
        | nil =>
            obtain ⟨rfl, rfl⟩ := List.cons.inj whole
            exact here rfl
        | cons first front =>
            obtain ⟨rfl, tail⟩ := List.cons.inj whole
            simpa using others front back tail
      · intro all
        refine ⟨fun sigma => all [] rest (by rw [sigma]; rfl), fun front back tail => ?_⟩
        simpa using all (c :: front) back (by rw [tail]; rfl)

/-- A text lowercases alike between other characters and without them exactly if its sigmas do. -/
theorem lowercaseBetween_eq_iff {before text after : List Char} :
    lowercaseBetween before text after = lowercase text ↔ SigmasAlike before text after := by
  simpa [SigmasAlike, lowercase] using
    lowercaseBetween_eq_lowercaseAfter_iff [] before text after

/-- Then its lowercase form stands in that of the line. -/
theorem SigmasAlike.infix_lowercase {before text after : List Char}
    (alike : SigmasAlike before.reverse text after) :
    lowercase text <:+: lowercase (before ++ text ++ after) := by
  refine ⟨lowercaseBetween [] before (text ++ after),
    lowercaseAfter (text.reverse ++ before.reverse) after, ?_⟩
  rw [← lowercaseBetween_eq_iff.mpr alike, lowercase, List.append_assoc before,
    lowercaseAfter_append, lowercaseAfter_append, List.append_nil, List.append_assoc]

end Text

/-! ## Delimiters and blanks -/

namespace Words

/-- The character neither separates tokens nor is it a blank. -/
def isSolid (c : Char) : Bool := !separates c && !Text.isBlank c

/-- The delimiters and blanks beyond the small letters of ASCII. -/
def highGaps : List Nat :=
  [0x7B, 0x7D, 0x85, 0xA0, 0x1680, 0x2000, 0x2001, 0x2002, 0x2003, 0x2004, 0x2005, 0x2006, 0x2007,
    0x2008, 0x2009, 0x200A, 0x2028, 0x2029, 0x202F, 0x205F, 0x3000]

theorem lt_or_mem_highGaps {c : Char} (gap : isSolid c = false) :
    c.toNat < 0x61 ∨ c.toNat ∈ highGaps := by
  rw [isSolid, Bool.and_eq_false_iff, Bool.not_eq_false', Bool.not_eq_false'] at gap
  rcases gap with delimiter | blank
  · simp only [separates, List.mem_cons, List.not_mem_nil, or_false, decide_eq_true_eq] at delimiter
    rcases delimiter with rfl | rfl | rfl | rfl | rfl | rfl | rfl | rfl | rfl | rfl | rfl | rfl |
      rfl | rfl | rfl | rfl | rfl | rfl <;> decide
  · simp only [Text.isBlank, Bool.or_eq_true, Bool.and_eq_true, decide_eq_true_eq,
      beq_iff_eq] at blank
    simp only [highGaps, List.mem_cons, List.not_mem_nil, or_false]
    omega

end Words

namespace Text

open Words

/-- No capital of the run has this lowercase form. -/
def CaseRun.avoids (run : CaseRun) (n : Nat) : Bool :=
  Nat.blt run.bounds.2 n || Nat.blt n run.bounds.1

theorem avoids_caseRuns : (caseRuns.all fun run => highGaps.all run.avoids) = true := by
  decide +kernel

theorem isSolid_toLower :
    ∀ n < 0x80, isSolid (Char.ofNat n) = true → isSolid (Char.ofNat n).toLower = true := by
  decide +kernel

theorem isSolid_lowerChar {c : Char} (solid : isSolid c = true) : isSolid (lowerChar c) = true := by
  rw [lowerChar]
  split
  · rename_i ascii
    have lower := isSolid_toLower c.toNat ascii
    rw [Char.ofNat_toNat] at lower
    exact lower solid
  · split
    · rename_i run found
      have member := List.mem_of_find?_eq_some found
      have holds := List.find?_some found
      have settled := List.all_eq_true.mp CaseRun.isSettled_caseRuns run member
      have avoids := List.all_eq_true.mp (List.all_eq_true.mp avoids_caseRuns run member)
      have range := CaseRun.holds_iff.mp holds
      have number := CaseRun.toNat_target settled holds
      rw [← Bool.not_eq_false]
      intro gap
      rcases lt_or_mem_highGaps gap with low | high
      · rw [number] at low
        simp only [CaseRun.isSettled, CaseRun.bounds, Bool.and_eq_true, Nat.ble_eq] at settled
        omega
      · have outside := avoids _ high
        rw [number] at outside
        simp only [CaseRun.avoids, CaseRun.bounds, Bool.or_eq_true, Nat.blt_eq] at outside
        omega
    · exact solid

/-- Lowercasing makes no delimiters and no blanks. -/
theorem isSolid_of_mem_lowercaseAfter {before text : List Char}
    (solid : ∀ c ∈ text, isSolid c = true) {c : Char} (member : c ∈ lowercaseAfter before text) :
    isSolid c = true := by
  induction text generalizing before with
  | nil => cases member
  | cons first rest ih =>
      rw [List.forall_mem_cons] at solid
      rw [lowercaseAfter_cons, lowerAt] at member
      rcases List.mem_append.mp member with here | later
      · split at here
        · split at here <;> obtain rfl := List.mem_singleton.mp here <;> decide
        · split at here
          · simp only [List.mem_cons, List.not_mem_nil, or_false] at here
            rcases here with rfl | rfl <;> decide
          · obtain rfl := List.mem_singleton.mp here
            exact isSolid_lowerChar solid.1
      · exact ih solid.2 later

/-! ## Runs within tokens -/

/-- Characters without cuts before a text are those of its first piece. -/
theorem exists_prefix_piece {p : Char → Bool} {part : List Char}
    (whole : ∀ c ∈ part, p c = false) {text : List Char} (begins : part <+: text) :
    ∃ first ∈ (text.splitOnP p).head?, part <+: first := by
  obtain ⟨rest, rfl⟩ := begins
  induction part with
  | nil =>
      obtain ⟨first, pieces, cut⟩ :=
        List.exists_cons_of_ne_nil (List.splitOnP_ne_nil p ([] ++ rest))
      exact ⟨first, by rw [cut]; rfl, List.nil_prefix⟩
  | cons c part ih =>
      rw [List.forall_mem_cons] at whole
      obtain ⟨first, is, begins⟩ := ih whole.2
      refine ⟨c :: first, ?_, (List.prefix_cons_inj c).mpr begins⟩
      rw [List.cons_append, List.splitOnP_cons_eq_if_modifyHead, if_neg (by simp [whole.1]),
        List.head?_modifyHead, is]
      rfl

/-- A run without cuts lies in one piece of a text. -/
theorem exists_infix_piece {p : Char → Bool} {part : List Char}
    (whole : ∀ c ∈ part, p c = false) {text : List Char} (inside : part <:+: text) :
    ∃ piece ∈ text.splitOnP p, part <:+: piece := by
  obtain ⟨front, back, rfl⟩ := inside
  rw [List.append_assoc]
  induction front with
  | nil =>
      obtain ⟨first, is, begins⟩ := exists_prefix_piece whole (List.prefix_append part back)
      exact ⟨first, List.mem_of_mem_head? is, begins.isInfix⟩
  | cons c front ih =>
      obtain ⟨piece, member, inside⟩ := ih
      rw [List.cons_append, List.splitOnP_cons_eq_if_modifyHead]
      split
      · exact ⟨piece, List.mem_cons_of_mem _ member, inside⟩
      · obtain ⟨first, pieces, cut⟩ :=
          List.exists_cons_of_ne_nil (List.splitOnP_ne_nil p (front ++ (part ++ back)))
        rw [cut, List.modifyHead_cons]
        rw [cut] at member
        rcases List.mem_cons.mp member with rfl | later
        · exact ⟨c :: piece, List.mem_cons_self, inside.trans (List.suffix_cons c piece).isInfix⟩
        · exact ⟨piece, List.mem_cons_of_mem _ later, inside⟩

/-- Dropping blanks at the start spares a run without blanks. -/
theorem infix_dropWhile {p : Char → Bool} {part text : List Char} (nonempty : part ≠ [])
    (whole : ∀ c ∈ part, p c = false) (inside : part <:+: text) :
    part <:+: text.dropWhile p := by
  obtain ⟨front, back, rfl⟩ := inside
  obtain ⟨c, rest, rfl⟩ := List.exists_cons_of_ne_nil nonempty
  rw [List.append_assoc, List.dropWhile_append]
  split
  · rw [List.cons_append, List.dropWhile_cons_of_neg (by simp [whole c List.mem_cons_self])]
    exact (List.prefix_append _ _).isInfix
  · exact ⟨front.dropWhile p, back, List.append_assoc _ _ _⟩

theorem infix_trim {part text : List Char} (nonempty : part ≠ [])
    (whole : ∀ c ∈ part, isBlank c = false) (inside : part <:+: text) : part <:+: trim text := by
  rw [trim, dropTrailing, ← List.reverse_infix, List.reverse_reverse]
  refine infix_dropWhile (by simpa using nonempty) (by simpa using whole) ?_
  exact List.reverse_infix.mpr (infix_dropWhile nonempty whole inside)

end Text

namespace Words

theorem not_separates_of_isSolid {c : Char} (solid : isSolid c = true) :
    separates c = false ∧ Text.isBlank c = false := by
  rwa [isSolid, Bool.and_eq_true, Bool.not_eq_true', Bool.not_eq_true'] at solid

/-- A run without delimiters and blanks in the lowercase form of a line lies in a token of it. -/
theorem exists_token {line part : String} (nonempty : part.toList ≠ [])
    (solid : ∀ c ∈ part.toList, isSolid c = true)
    (inside : part.toList <:+: Text.lowercase line.toList) :
    ∃ token ∈ split line, occursIn part token = true := by
  obtain ⟨piece, member, inside⟩ :=
    Text.exists_infix_piece (fun c held => (not_separates_of_isSolid (solid c held)).1) inside
  have trimmed := Text.infix_trim nonempty
    (fun c held => (not_separates_of_isSolid (solid c held)).2) inside
  refine ⟨String.ofList (Text.trim piece), List.mem_map_of_mem (List.mem_filter.mpr
    ⟨List.mem_map_of_mem member, ?_⟩), ?_⟩
  · rw [Bool.not_eq_true', List.isEmpty_eq_false_iff]
    rintro empty
    rw [empty, List.infix_nil] at trimmed
    exact nonempty trimmed
  · rw [occursIn_iff, String.toList_ofList]
    exact trimmed

/-- The tokens of a text, of any length. -/
def tokens (text : String) : List String := (lines text).flatMap split

/-- Words are the tokens of three characters and more. -/
theorem mem_distinct_iff {text word : String} :
    word ∈ distinct text ↔ word ∈ tokens text ∧ 3 ≤ word.length := by
  rw [distinct, List.mem_eraseDups, ofText, List.mem_filter, tokens, decide_eq_true_eq]
  rfl

theorem length_le_of_occursIn {part whole : String} (occurs : occursIn part whole = true) :
    part.length ≤ whole.length := by
  rw [← String.length_toList, ← String.length_toList]
  exact (occursIn_iff.mp occurs).length_le

/-- What a word contains is in the lowercase form of some line. -/
theorem exists_line {text word part : String} (member : word ∈ distinct text)
    (occurs : occursIn part word = true) :
    ∃ line ∈ lines text, occursIn part (lowercase line) = true := by
  obtain ⟨line, listed, token⟩ := List.mem_flatMap.mp (mem_distinct_iff.mp member).1
  refine ⟨line, listed, occursIn_iff.mpr ?_⟩
  rw [lowercase, String.toList_ofList]
  exact (occursIn_iff.mp occurs).trans (infix_of_mem_split token)

/-- Words contain a run of three characters or more without delimiters and blanks exactly if the
lowercase form of some line does. -/
theorem exists_word_iff {text part : String} (wide : 3 ≤ part.length)
    (solid : ∀ c ∈ part.toList, isSolid c = true) :
    (∃ word ∈ distinct text, occursIn part word = true) ↔
      ∃ line ∈ lines text, occursIn part (lowercase line) = true := by
  constructor
  · rintro ⟨word, member, occurs⟩
    exact exists_line member occurs
  · rintro ⟨line, listed, occurs⟩
    rw [occursIn_iff, lowercase, String.toList_ofList] at occurs
    have nonempty : part.toList ≠ [] := by
      rw [← List.length_pos_iff, String.length_toList]
      omega
    obtain ⟨token, member, inside⟩ := exists_token nonempty solid occurs
    exact ⟨token, mem_distinct_iff.mpr ⟨List.mem_flatMap.mpr ⟨line, listed, member⟩,
      Nat.le_trans wide (length_le_of_occursIn inside)⟩, inside⟩

theorem length_le_lowercase (text : String) : text.length ≤ (lowercase text).length := by
  rw [lowercase, String.length_ofList, ← String.length_toList]
  exact Text.length_le_lowercaseAfter [] _

/-- Lowercasing a run without delimiters and blanks gives another one. -/
theorem isSolid_lowercase {part : String} (solid : ∀ c ∈ part.toList, isSolid c = true) :
    ∀ c ∈ (lowercase part).toList, isSolid c = true := fun c member => by
  rw [lowercase, String.toList_ofList] at member
  exact Text.isSolid_of_mem_lowercaseAfter solid member

/-- A piece of a line lies in the lowercase form of the line if its sigmas do not change. -/
theorem occursIn_lowercase {line piece : String} {before after : List Char}
    (split : line.toList = before ++ piece.toList ++ after)
    (alike : Text.SigmasAlike before.reverse piece.toList after) :
    occursIn (lowercase piece) (lowercase line) = true := by
  rw [occursIn_iff, lowercase, lowercase, String.toList_ofList, String.toList_ofList, split]
  exact alike.infix_lowercase

end Words
end SourceSearch
