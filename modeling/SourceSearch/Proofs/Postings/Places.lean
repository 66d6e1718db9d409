import Mathlib.Algebra.Ring.Nat
import SourceSearch.Postings.Location
import SourceSearch.Proofs.Json.Written
import SourceSearch.Proofs.Path
import SourceSearch.Proofs.Words

/-!
# Places of postings

The names that lead to a file of a trigram are plain, and no two files share them: the tokens can be
read off the stem, the UTF-16 units off the tokens and the characters off the units.
-/

namespace SourceSearch

/-! ## Units -/

namespace Text

theorem charUnits_ne_nil (c : Char) : charUnits c ≠ [] := by
  rw [charUnits]
  split <;> simp

/-- Neither half of a pair is a character by itself. -/
theorem not_surrogate (c : Char) : c.toNat < 0xD800 ∨ 0xDFFF < c.toNat := by
  rcases c.valid with low | ⟨high, -⟩
  · exact .inl low
  · exact .inr high

theorem toNat_lt (c : Char) : c.toNat < 0x110000 := by
  rcases c.valid with low | ⟨-, high⟩
  · exact Nat.lt_trans low (by decide)
  · exact high

theorem charUnits_append_inj {a b : Char} {as bs : List Nat}
    (same : charUnits a ++ as = charUnits b ++ bs) : a = b ∧ as = bs := by
  have notA := not_surrogate a
  have notB := not_surrogate b
  have lessA := toNat_lt a
  have lessB := toNat_lt b
  have toNat_inj (eq : a.toNat = b.toNat) : a = b := Char.toNat_inj.mp eq
  rw [charUnits, charUnits] at same
  split at same <;> split at same <;>
    simp only [List.cons_append, List.nil_append, List.cons.injEq] at same
  · exact ⟨toNat_inj same.1, same.2⟩
  · omega
  · omega
  · exact ⟨toNat_inj (by omega), same.2.2⟩

theorem units_injective {a b : List Char} (same : units a = units b) : a = b := by
  induction a generalizing b with
  | nil =>
      cases b with
      | nil => rfl
      | cons d b => simp [units, charUnits_ne_nil] at same
  | cons c a ih =>
      cases b with
      | nil => simp [units, charUnits_ne_nil] at same
      | cons d b =>
          rw [units, units, List.flatMap_cons, List.flatMap_cons] at same
          obtain ⟨rfl, rest⟩ := charUnits_append_inj same
          rw [ih rest]

theorem unit_lt {text : List Char} {unit : Nat} (member : unit ∈ units text) : unit < 0x10000 := by
  obtain ⟨c, -, member⟩ := List.mem_flatMap.mp member
  have less := toNat_lt c
  rw [charUnits] at member
  split at member
  · simp at member
    omega
  · simp at member
    omega

theorem length_le_units (text : List Char) : text.length ≤ (units text).length := by
  induction text with
  | nil => simp
  | cons c text ih =>
      have one := List.length_pos_iff.mpr (charUnits_ne_nil c)
      rw [units, List.flatMap_cons, List.length_append, List.length_cons]
      rw [units] at ih
      omega

theorem length_units_le (text : List Char) : (units text).length ≤ 2 * text.length := by
  induction text with
  | nil => simp [units]
  | cons c text ih =>
      have two : (charUnits c).length ≤ 2 := by
        rw [charUnits]
        split <;> simp
      rw [units, List.flatMap_cons, List.length_append, List.length_cons]
      rw [units] at ih
      omega

theorem utf8ByteSize_ofList_cons (c : Char) (letters : List Char) :
    (String.ofList (c :: letters)).utf8ByteSize =
      c.utf8Size + (String.ofList letters).utf8ByteSize := by
  have single : String.ofList (c :: letters) = String.singleton c ++ String.ofList letters := by
    rw [String.singleton_eq_ofList, ← String.ofList_append]
    rfl
  rw [single, String.utf8ByteSize_append, String.utf8ByteSize_singleton]

/-- No character has more than four bytes. -/
theorem utf8ByteSize_le (text : String) : text.utf8ByteSize ≤ 4 * text.length := by
  rw [← text.ofList_toList]
  induction text.toList with
  | nil => decide
  | cons c letters ih =>
      have four := c.utf8Size_le_four
      rw [String.length_ofList] at ih
      rw [String.length_ofList, utf8ByteSize_ofList_cons, List.length_cons]
      omega

/-- Characters of one byte make as many bytes. -/
theorem utf8ByteSize_ofList_of_ascii {letters : List Char}
    (ascii : ∀ c ∈ letters, c.utf8Size = 1) :
    (String.ofList letters).utf8ByteSize = letters.length := by
  induction letters with
  | nil => rfl
  | cons c letters ih =>
      rw [List.forall_mem_cons] at ascii
      rw [utf8ByteSize_ofList_cons, ih ascii.2, ascii.1, List.length_cons, Nat.add_comm]

end Text

namespace Postings

/-! ## Tokens -/

/-- The characters that tokens are made of. -/
def tokenLetters : List Char := "0123456789abcdefu".toList

theorem hexDigit_mem {n : Nat} (bound : n < 16) : Digest.hexDigit n ∈ tokenLetters := by
  have all : ∀ n ∈ List.range 16, Digest.hexDigit n ∈ tokenLetters := by decide
  exact all n (List.mem_range.mpr bound)

theorem hexDigit_injective {m n : Nat} (first : m < 16) (second : n < 16)
    (same : Digest.hexDigit m = Digest.hexDigit n) : m = n := by
  have all : ∀ m ∈ List.range 16, ∀ n ∈ List.range 16,
      Digest.hexDigit m = Digest.hexDigit n → m = n := by decide
  exact all m (List.mem_range.mpr first) n (List.mem_range.mpr second) same

@[simp]
theorem length_hexDigitsOf (count n : Nat) : (hexDigitsOf count n).length = count := by
  induction count generalizing n with
  | zero => rfl
  | succ count ih => simp [hexDigitsOf, ih]

theorem hexDigitsOf_injective (count : Nat) {m n : Nat} (first : m < 16 ^ count)
    (second : n < 16 ^ count) (same : hexDigitsOf count m = hexDigitsOf count n) : m = n := by
  induction count generalizing m n with
  | zero => omega
  | succ count ih =>
      rw [hexDigitsOf, hexDigitsOf] at same
      obtain ⟨front, last⟩ := List.append_inj' same rfl
      have low : m % 16 = n % 16 :=
        hexDigit_injective (Nat.mod_lt _ (by decide)) (Nat.mod_lt _ (by decide))
          (List.cons.inj last).1
      have high : m / 16 = n / 16 := by
        rw [Nat.pow_succ] at first second
        exact ih (Nat.div_lt_of_lt_mul (by omega)) (Nat.div_lt_of_lt_mul (by omega)) front
      omega

theorem mem_hexDigitsOf {count n : Nat} {c : Char} (member : c ∈ hexDigitsOf count n) :
    c ∈ tokenLetters := by
  induction count generalizing n with
  | zero => cases member
  | succ count ih =>
      rcases List.mem_append.mp member with member | member
      · exact ih member
      · rw [List.mem_singleton.mp member]
        exact hexDigit_mem (Nat.mod_lt _ (by decide))

theorem mem_unitToken {unit : Nat} {c : Char} (member : c ∈ unitToken unit) :
    c ∈ tokenLetters := by
  rw [unitToken] at member
  split at member
  · exact mem_hexDigitsOf member
  · rcases List.mem_cons.mp member with rfl | member
    · decide
    · exact mem_hexDigitsOf member

theorem unitToken_injective {m n : Nat} (first : m < 0x10000) (second : n < 0x10000)
    (same : unitToken m = unitToken n) : m = n := by
  rw [unitToken, unitToken] at same
  split at same <;> split at same
  · exact hexDigitsOf_injective 2 (by omega) (by omega) same
  · simpa using congrArg List.length same
  · simpa using congrArg List.length same
  · exact hexDigitsOf_injective 4 (by omega) (by omega) (List.cons.inj same).2

theorem length_unitToken_le (unit : Nat) : (unitToken unit).length ≤ 5 := by
  rw [unitToken]
  split <;> simp

theorem unitToken_ne_nil (unit : Nat) : unitToken unit ≠ [] := by
  rw [unitToken]
  split
  · exact List.ne_nil_of_length_pos (by simp)
  · simp

theorem tokens_injective {a b : String} (same : tokens a = tokens b) : a = b := by
  rw [tokens, tokens] at same
  refine String.toList_inj.mp (Text.units_injective ?_)
  have lists := congrArg (List.map String.toList) same
  simp only [List.map_map, Function.comp_def, String.toList_ofList] at lists
  generalize first : Text.units a.toList = as at lists
  generalize second : Text.units b.toList = bs at lists
  have boundA : ∀ unit ∈ as, unit < 0x10000 := fun unit member => Text.unit_lt (first ▸ member)
  have boundB : ∀ unit ∈ bs, unit < 0x10000 := fun unit member => Text.unit_lt (second ▸ member)
  clear first second same
  induction as generalizing bs with
  | nil => simpa using lists.symm
  | cons x as ih =>
      cases bs with
      | nil => simp at lists
      | cons y bs =>
          rw [List.forall_mem_cons] at boundA boundB
          rw [List.map_cons, List.map_cons, List.cons.injEq] at lists
          rw [unitToken_injective boundA.1 boundB.1 lists.1,
            ih bs lists.2 boundA.2 boundB.2]

theorem isPlain_of_letters {name : String} (nonempty : name ≠ "")
    (letters : ∀ c ∈ name.toList, c = '_' ∨ c ∈ tokenLetters) : IsPlain name where
  notEmpty := nonempty
  notHere := by
    rintro rfl
    exact absurd (letters '.' (by decide)) (by decide)
  notUp := by
    rintro rfl
    exact absurd (letters '.' (by decide)) (by decide)
  noSlash := fun slash => absurd (letters '/' slash) (by decide)

theorem letters_of_mem_tokens {trigram token : String} (member : token ∈ tokens trigram) :
    ∀ c ∈ token.toList, c ∈ tokenLetters := by
  obtain ⟨unit, -, rfl⟩ := List.mem_map.mp member
  intro c inside
  rw [String.toList_ofList] at inside
  exact mem_unitToken inside

theorem isPlain_token {trigram token : String} (member : token ∈ tokens trigram) :
    IsPlain token := by
  refine isPlain_of_letters ?_ fun c inside => .inr (letters_of_mem_tokens member c inside)
  obtain ⟨unit, -, rfl⟩ := List.mem_map.mp member
  intro empty
  exact unitToken_ne_nil unit (by simpa using congrArg String.toList empty)

/-! ## Places -/

/-- The names that lead to the file of a trigram below the folder of its namespace. -/
def placeOf (trigram suffix : String) : List String :=
  (tokens trigram).take 2 ++ ["_".intercalate (tokens trigram) ++ suffix]

theorem three_le_tokens {trigram : String} (wide : 3 ≤ trigram.length) :
    3 ≤ (tokens trigram).length := by
  rw [tokens, List.length_map]
  exact Nat.le_trans wide (Text.length_le_units _)

theorem length_placeOf {trigram : String} (wide : 3 ≤ trigram.length) (suffix : String) :
    (placeOf trigram suffix).length = 3 := by
  have many := three_le_tokens wide
  rw [placeOf, List.length_append, List.length_take, List.length_singleton]
  omega

theorem placeOf_ne_nil (trigram suffix : String) : placeOf trigram suffix ≠ [] := by
  simp [placeOf]

theorem length_intercalate_le (separator : String) {parts : List String} {bound : Nat}
    (short : ∀ part ∈ parts, part.length ≤ bound) :
    (separator.intercalate parts).length ≤ (separator.length + bound) * parts.length := by
  induction parts with
  | nil => simp
  | cons part rest ih =>
      rw [List.forall_mem_cons] at short
      have few := ih short.2
      rw [List.length_cons, Nat.mul_succ]
      by_cases last : rest = []
      · rw [last, String.intercalate_singleton]
        omega
      · rw [String.intercalate_cons_of_ne_nil last, String.length_append, String.length_append]
        omega

theorem mem_stem {trigram : String} {c : Char}
    (member : c ∈ ("_".intercalate (tokens trigram)).toList) : c = '_' ∨ c ∈ tokenLetters := by
  rcases Text.mem_intercalate member with separator | ⟨token, inside, member⟩
  · exact .inl (by simpa using separator)
  · exact .inr (letters_of_mem_tokens inside c member)

theorem isPlain_stem {trigram : String} (nonempty : tokens trigram ≠ []) :
    IsPlain ("_".intercalate (tokens trigram)) := by
  refine isPlain_of_letters ?_ fun c => mem_stem
  obtain ⟨first, rest, split⟩ := List.exists_cons_of_ne_nil nonempty
  have filled : first ≠ "" := (isPlain_token (split ▸ List.mem_cons_self)).notEmpty
  rw [split]
  by_cases last : rest = []
  · rwa [last, String.intercalate_singleton]
  · rw [String.intercalate_cons_of_ne_nil last]
    simp [filled]

theorem stem_eq_empty_iff {trigram : String} :
    "_".intercalate (tokens trigram) = "" ↔ tokens trigram = [] := by
  constructor
  · intro empty
    exact Classical.byContradiction fun nonempty => (isPlain_stem nonempty).notEmpty empty
  · intro none
    rw [none, String.intercalate_nil]

theorem stem_injective {a b : String}
    (same : "_".intercalate (tokens a) = "_".intercalate (tokens b)) : a = b := by
  by_cases nonemptyA : tokens a = []
  · have none := stem_eq_empty_iff.mp (same ▸ stem_eq_empty_iff.mpr nonemptyA)
    exact tokens_injective (nonemptyA.trans none.symm)
  have nonemptyB : tokens b ≠ [] := fun none =>
    nonemptyA (stem_eq_empty_iff.mp (same ▸ stem_eq_empty_iff.mpr none))
  have apart (trigram : String) : ∀ part ∈ (tokens trigram).map String.toList, '_' ∉ part := by
    intro part member score
    obtain ⟨token, inside, rfl⟩ := List.mem_map.mp member
    exact absurd (letters_of_mem_tokens inside '_' score) (by decide)
  have lists := congrArg String.toList same
  rw [String.toList_intercalate, String.toList_intercalate] at lists
  have split := congrArg (List.splitOn '_') lists
  change (['_'].intercalate _).splitOn '_' = (['_'].intercalate _).splitOn '_' at split
  rw [List.splitOn_intercalate _ (apart a) (by simpa using nonemptyA),
    List.splitOn_intercalate _ (apart b) (by simpa using nonemptyB)] at split
  exact tokens_injective (List.map_inj_right (fun _ _ => String.toList_inj.mp) |>.mp split)

theorem isPlain_record {trigram suffix : String} (proper : IsSuffix suffix) :
    IsPlain ("_".intercalate (tokens trigram) ++ suffix) := by
  refine proper.isPlain_append fun slash => ?_
  rcases mem_stem slash with eq | letter
  · exact absurd eq (by decide)
  · exact absurd letter (by decide)

theorem isPlain_placeOf {trigram suffix : String} (proper : IsSuffix suffix) :
    ∀ name ∈ placeOf trigram suffix, IsPlain name := by
  intro name member
  rcases List.mem_append.mp member with member | member
  · exact isPlain_token (List.mem_of_mem_take member)
  · exact List.mem_singleton.mp member ▸ isPlain_record proper

theorem filePath_eq {trigram suffix : String} (proper : IsSuffix suffix) (base : Path) :
    filePath base trigram suffix = base.below (placeOf trigram suffix) := by
  have plain : IsPlain ("_".intercalate (tokens trigram) ++ suffix) := isPlain_record proper
  rw [filePath, stem, placeOf, Path.below_snoc]
  by_cases empty : tokens trigram = []
  · simp only [empty, List.take_nil, List.foldl_nil, Path.below_nil, String.intercalate_nil,
      String.empty_append] at plain ⊢
    exact Path.withSuffix_join_empty _ plain
  · exact Path.withSuffix_join _ (isPlain_stem empty) plain

/-- No two files share their place. -/
theorem placeOf_injective {a b suffix other : String} (first : IsSuffix suffix)
    (second : IsSuffix other) (same : placeOf a suffix = placeOf b other) :
    a = b ∧ suffix = other := by
  have names := (List.append_inj' same rfl).2
  have lists := congrArg String.toList (List.cons.inj names).1
  rw [String.toList_append, String.toList_append] at lists
  have stemOf (trigram suffix : String) (proper : IsSuffix suffix) :
      (("_".intercalate (tokens trigram)).toList ++ suffix.toList).takeWhile (· ≠ '.') =
        ("_".intercalate (tokens trigram)).toList := by
    obtain ⟨rest, dot⟩ := proper.dot
    rw [List.takeWhile_append_of_pos, dot]
    · simp
    · intro c member
      rcases mem_stem member with rfl | letter
      · decide
      · rw [decide_eq_true_eq]
        rintro rfl
        exact absurd letter (by decide)
  have stems := congrArg (List.takeWhile (· ≠ '.')) lists
  rw [stemOf a suffix first, stemOf b other second] at stems
  rw [stems, List.append_cancel_left_eq] at lists
  exact ⟨stem_injective (String.toList_inj.mp stems), String.toList_inj.mp lists⟩

/-! ## Shards and counts -/

/-- What follows the stem in the name of a shard. -/
def shardEnd (generation : Nat) : String := s!".{generation}{shardSuffix}"

theorem toList_shardEnd (generation : Nat) :
    (shardEnd generation).toList =
      '.' :: (Nat.toDigits 10 generation ++ shardSuffix.toList) := by
  have digits : (toString generation).toList = Nat.toDigits 10 generation :=
    String.toList_ofList
  change ("." ++ toString generation ++ shardSuffix).toList = _
  rw [String.toList_append, String.toList_append, digits]
  rfl

/-- The end of the name of a shard file is a dot, digits and the suffix. -/
theorem not_mem_shardEnd {c : Char} (notDot : c ≠ '.') (notDigit : c.isDigit = false)
    (notSuffix : c ∉ shardSuffix.toList) (generation : Nat) :
    c ∉ (shardEnd generation).toList := by
  rw [toList_shardEnd, List.mem_cons, List.mem_append]
  rintro (dot | member | member)
  · exact notDot dot
  · have digit := Nat.isDigit_of_mem_toDigits (by decide) (by decide) member
    rw [notDigit] at digit
    cases digit
  · exact notSuffix member

theorem isSuffix_shardEnd (generation : Nat) : IsSuffix (shardEnd generation) where
  dot := ⟨_, toList_shardEnd generation⟩
  wide := by
    have ten : shardSuffix.toList.length = 10 := by decide
    rw [← String.length_toList, toList_shardEnd, List.length_cons, List.length_append, ten]
    omega
  noSlash := not_mem_shardEnd (by decide) (by decide) (by decide) generation

theorem isSuffix_countSuffix : IsSuffix countSuffix where
  dot := ⟨_, rfl⟩
  wide := by decide
  noSlash := by decide

theorem shardEnd_injective {g h : Nat} (same : shardEnd g = shardEnd h) : g = h := by
  have lists := congrArg String.toList same
  rw [toList_shardEnd, toList_shardEnd, List.cons.injEq] at lists
  have digits := List.append_cancel_right lists.2
  have read {n : Nat} (bound : n ≤ max g h) := Json.naturalOfDigits?_decimal bound
  have first := read (Nat.le_max_left g h)
  have second := read (Nat.le_max_right g h)
  rw [Json.decimal, digits] at first
  rw [Json.decimal, first] at second
  exact Option.some.inj second

theorem shardEnd_ne_countSuffix (generation : Nat) : shardEnd generation ≠ countSuffix := by
  intro same
  have last := congrArg (·.toList.getLast?) same
  have shard : shardSuffix.toList.getLast? = some 'e' := by decide
  have count : countSuffix.toList.getLast? = some 't' := by decide
  simp only [toList_shardEnd] at last
  rw [← List.cons_append, List.getLast?_append, shard, count, Option.some_or]
    at last
  exact absurd last (by decide)

/-- The names that lead to a shard. -/
def shardPlace (trigram : String) (generation : Nat) : List String :=
  placeOf trigram (shardEnd generation)

/-- The names that lead to a count. -/
def countPlace (trigram : String) : List String := placeOf trigram countSuffix

theorem shardFile_eq (base : Path) (trigram : String) (generation : Nat) :
    shardFile base trigram generation = base.below (shardPlace trigram generation) :=
  filePath_eq (isSuffix_shardEnd generation) base

theorem countFile_eq (base : Path) (trigram : String) :
    countFile base trigram = base.below (countPlace trigram) :=
  filePath_eq isSuffix_countSuffix base

theorem shardPlace_injective {a b : String} {g h : Nat}
    (same : shardPlace a g = shardPlace b h) : a = b ∧ g = h :=
  (placeOf_injective (isSuffix_shardEnd g) (isSuffix_shardEnd h) same).imp_right
    shardEnd_injective

theorem countPlace_injective {a b : String} (same : countPlace a = countPlace b) : a = b :=
  (placeOf_injective isSuffix_countSuffix isSuffix_countSuffix same).1

theorem shardPlace_ne_countPlace (a b : String) (generation : Nat) :
    shardPlace a generation ≠ countPlace b := fun same =>
  shardEnd_ne_countSuffix generation
    (placeOf_injective (isSuffix_shardEnd generation) isSuffix_countSuffix same).2

/-! ## Names -/

theorem length_of_mem_tokens {trigram token : String} (member : token ∈ tokens trigram) :
    token.length ≤ 5 := by
  obtain ⟨unit, -, rfl⟩ := List.mem_map.mp member
  rw [String.length_ofList]
  exact length_unitToken_le unit

theorem length_stem_le (trigram : String) :
    ("_".intercalate (tokens trigram)).length ≤ 12 * trigram.length := by
  have separated := length_intercalate_le "_" fun token (member : token ∈ tokens trigram) =>
    length_of_mem_tokens member
  have one : "_".length = 1 := by decide
  have units := Text.length_units_le trigram.toList
  rw [one, tokens, List.length_map] at separated
  rw [String.length_toList] at units
  rw [tokens]
  omega

end Postings
end SourceSearch
