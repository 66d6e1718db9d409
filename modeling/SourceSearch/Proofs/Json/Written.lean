import SourceSearch.Json.Decode

/-!
# Written texts and numbers

What is written for a text or a natural number is read back as that text or number, and the reader
stops where the written form ends.
-/

namespace SourceSearch
namespace Json

/-! ## Texts -/

theorem readQuoted_plain {a : UInt8} (notQuote : a ≠ byte '"') (printable : ¬ a < 0x20)
    (notBackslash : a ≠ byte '\\') (rest : List UInt8) :
    readQuoted (a :: rest) =
      (readQuoted rest).map fun (written, rest) => (a :: written, rest) := by
  rw [readQuoted.eq_def]
  simp [notQuote, printable, notBackslash]

theorem readQuoted_letter {letter : UInt8} (known : (letterEscape? letter).isSome)
    (rest : List UInt8) :
    readQuoted (byte '\\' :: letter :: rest) =
      (readQuoted rest).map fun (written, rest) => (byte '\\' :: letter :: written, rest) := by
  rw [readQuoted.eq_def]
  simp [known, show byte '\\' ≠ byte '"' by decide, show ¬ byte '\\' < 0x20 by decide]

theorem readQuoted_unit {a b c d : UInt8} (ha : isHex a) (hb : isHex b) (hc : isHex c)
    (hd : isHex d) (rest : List UInt8) :
    readQuoted (byte '\\' :: byte 'u' :: a :: b :: c :: d :: rest) =
      (readQuoted rest).map fun (written, rest) =>
        (byte '\\' :: byte 'u' :: a :: b :: c :: d :: written, rest) := by
  rw [readQuoted.eq_def]
  simp [ha, hb, hc, hd, show byte '\\' ≠ byte '"' by decide,
    show ¬ byte '\\' < 0x20 by decide, show letterEscape? (byte 'u') = none by decide]

theorem hexValue?_hexByte : ∀ n < 16, hexValue? (hexByte n) = some n := by decide

theorem isHex_hexByte {n : Nat} (bound : n < 16) : isHex (hexByte n) := by
  simp [isHex, hexValue?_hexByte n bound]

theorem readQuoted_escapeByte (b : UInt8) (rest : List UInt8) :
    readQuoted (escapeByte b ++ rest) =
      (readQuoted rest).map fun (written, rest) => (escapeByte b ++ written, rest) := by
  unfold escapeByte
  split
  · exact readQuoted_letter (by decide) rest
  split
  · exact readQuoted_letter (by decide) rest
  split
  · exact readQuoted_letter (by decide) rest
  split
  · exact readQuoted_letter (by decide) rest
  split
  · exact readQuoted_letter (by decide) rest
  split
  · exact readQuoted_letter (by decide) rest
  split
  · exact readQuoted_letter (by decide) rest
  split
  · rename_i control
    have small : b.toNat < 32 := control
    exact readQuoted_unit (by decide) (by decide) (isHex_hexByte (by omega))
      (isHex_hexByte (by omega)) rest
  · exact readQuoted_plain ‹_› ‹_› ‹_› rest

theorem readQuoted_flatMap_escapeByte (bytes rest : List UInt8) :
    readQuoted (bytes.flatMap escapeByte ++ byte '"' :: rest) =
      some (bytes.flatMap escapeByte, rest) := by
  induction bytes with
  | nil =>
      rw [readQuoted.eq_def]
      simp
  | cons b bytes ih =>
      rw [List.flatMap_cons, List.append_assoc, readQuoted_escapeByte, ih]
      rfl

/-- The reader finds the end of a written text. -/
theorem readQuoted_escape (value : String) (rest : List UInt8) :
    readQuoted (escape value ++ byte '"' :: rest) = some (escape value, rest) :=
  readQuoted_flatMap_escapeByte _ rest

theorem unescape_plain {a : UInt8} (notBackslash : a ≠ byte '\\') (rest : List UInt8) :
    unescape (a :: rest) = (unescape rest).map (a :: ·) := by
  rw [unescape.eq_def]
  simp [notBackslash]

theorem unescape_letter {letter b : UInt8} (known : letterEscape? letter = some b)
    (rest : List UInt8) :
    unescape (byte '\\' :: letter :: rest) = (unescape rest).map (b :: ·) := by
  have notUnit : letter ≠ byte 'u' := by
    rintro rfl
    simp [show letterEscape? (byte 'u') = none by decide] at known
  rw [unescape.eq_def]
  cases tail : unescape rest with
  | none => simp [notUnit, known, tail]
  | some bytes => simp [notUnit, known, tail]

theorem unescape_unit {a b c d : UInt8} {unit : Nat} (value : hexQuad? a b c d = some unit)
    (basic : unit < 0xD800) (rest : List UInt8) :
    unescape (byte '\\' :: byte 'u' :: a :: b :: c :: d :: rest) =
      (unescape rest).map (encodePoint unit ++ ·) := by
  have notTrailing : isTrailing unit = false := by
    simp [isTrailing]
    omega
  have notLeading : isLeading unit = false := by
    simp [isLeading]
    omega
  rw [unescape.eq_def]
  cases tail : unescape rest with
  | none => simp [value, notTrailing, notLeading, tail]
  | some bytes => simp [value, notTrailing, notLeading, tail]

theorem hexQuad?_control : ∀ n < 32,
    hexQuad? (byte '0') (byte '0') (hexByte (n / 16)) (hexByte (n % 16)) = some n := by decide

theorem encodePoint_control : ∀ n < 32, encodePoint n = [UInt8.ofNat n] := by decide

theorem unescape_escapeByte (b : UInt8) (rest : List UInt8) :
    unescape (escapeByte b ++ rest) = (unescape rest).map (b :: ·) := by
  unfold escapeByte
  split
  · subst_vars; exact unescape_letter (by decide) rest
  split
  · subst_vars; exact unescape_letter (by decide) rest
  split
  · subst_vars; exact unescape_letter (by decide) rest
  split
  · subst_vars; exact unescape_letter (by decide) rest
  split
  · subst_vars; exact unescape_letter (by decide) rest
  split
  · subst_vars; exact unescape_letter (by decide) rest
  split
  · subst_vars; exact unescape_letter (by decide) rest
  split
  · rename_i control
    have small : b.toNat < 32 := control
    have step := unescape_unit (hexQuad?_control b.toNat small) (by omega) rest
    rw [encodePoint_control b.toNat small, UInt8.ofNat_toNat] at step
    exact step
  · exact unescape_plain ‹_› rest

theorem unescape_flatMap_escapeByte (bytes : List UInt8) :
    unescape (bytes.flatMap escapeByte) = some bytes := by
  induction bytes with
  | nil => rfl
  | cons b bytes ih =>
      rw [List.flatMap_cons, unescape_escapeByte, ih]
      rfl

theorem ofBytes?_toUTF8 (value : String) :
    Text.ofBytes? value.toUTF8.data.toList = some value := by
  simp [Text.ofBytes?, String.fromUTF8?, String.fromUTF8, value.isValidUTF8]

/-- A written text is read back. -/
@[simp]
theorem readText?_escape (value : String) : readText? (escape value) = some value := by
  rw [readText?, escape, unescape_flatMap_escapeByte]
  exact ofBytes?_toUTF8 value

/-! ## Natural numbers -/

/-- The decimal digits of a number, as bytes. -/
def decimal (n : Nat) : List UInt8 := (Nat.toDigits 10 n).map byte

theorem ofNat_eq (n : Nat) : ofNat n = number (decimal n) := rfl

theorem toNat_byte_of_isDigit {c : Char} (digit : c.isDigit) : (byte c).toNat = c.toNat := by
  have bounds : 48 ≤ c.toNat ∧ c.toNat ≤ 57 := by
    simpa [Char.isDigit, UInt32.le_iff_toNat_le] using digit
  simp only [byte, Char.toUInt8, UInt32.toNat_toUInt8]
  exact Nat.mod_eq_of_lt (by change c.toNat < _; omega)

theorem isDigit_byte {c : Char} (digit : c.isDigit) : isDigit (byte c) := by
  have bounds : 48 ≤ c.toNat ∧ c.toNat ≤ 57 := by
    simpa [Char.isDigit, UInt32.le_iff_toNat_le] using digit
  simp [isDigit, UInt8.le_iff_toNat_le, toNat_byte_of_isDigit digit, bounds]

theorem isDigit_of_mem_decimal {n : Nat} {b : UInt8} (member : b ∈ decimal n) : isDigit b := by
  obtain ⟨c, hc, rfl⟩ := List.mem_map.mp member
  exact isDigit_byte (Nat.isDigit_of_mem_toDigits (by decide) (by decide) hc)

theorem decimal_ne_nil (n : Nat) : decimal n ≠ [] := by
  simp [decimal, Nat.toDigits_ne_nil]

theorem foldl_digit_byte (cs : List Char) (digits : ∀ c ∈ cs, c.isDigit) (start : Nat) :
    (cs.map byte).foldl (fun value digit => 10 * value + (digit.toNat - 0x30)) start =
      Nat.ofDigitChars 10 cs start := by
  induction cs generalizing start with
  | nil => simp
  | cons c cs ih =>
      have first := digits c List.mem_cons_self
      rw [List.map_cons, List.foldl_cons, ih fun c hc => digits c (List.mem_cons_of_mem _ hc),
        Nat.ofDigitChars_cons, toNat_byte_of_isDigit first]
      rfl

theorem valueOfDigits_decimal (n : Nat) : valueOfDigits (decimal n) = n := by
  rw [valueOfDigits, decimal, foldl_digit_byte _ fun c hc =>
    Nat.isDigit_of_mem_toDigits (by decide) (by decide) hc]
  exact Nat.ofDigitChars_ten_toDigits

theorem head?_toDigits_ne_zero {n : Nat} (positive : 0 < n) :
    (Nat.toDigits 10 n).head? ≠ some '0' := by
  induction n using Nat.strongRecOn with
  | _ n ih =>
      by_cases small : n < 10
      · have digit : ∀ m < 10, 0 < m → [m.digitChar].head? ≠ some '0' := by decide
        rw [Nat.toDigits_of_lt_base small]
        exact digit n small positive
      · have front := ih (n / 10) (by omega) (by omega)
        obtain ⟨c, cs, leading⟩ :=
          List.exists_cons_of_ne_nil (Nat.toDigits_ne_nil (n := n / 10) (b := 10))
        rw [Nat.toDigits_of_base_le (by decide) (by omega), leading]
        simpa [leading] using front

theorem byte_eq_zero_iff {c : Char} (digit : c.isDigit) : byte c = byte '0' ↔ c = '0' := by
  constructor
  · intro same
    have values := congrArg UInt8.toNat same
    rw [toNat_byte_of_isDigit digit, toNat_byte_of_isDigit (by decide)] at values
    exact Char.ext (UInt32.toNat_inj.mp values)
  · rintro rfl
    rfl

/-- Only zero is written with a leading zero. -/
theorem not_leading_zero_decimal (n : Nat) :
    ¬ ((decimal n).head? = some (byte '0') ∧ 1 < (decimal n).length) := by
  rintro ⟨zero, long⟩
  have positive : 0 < n := by
    apply Nat.pos_of_ne_zero
    rintro rfl
    simp [decimal, Nat.toDigits_zero] at long
  obtain ⟨c, first, same⟩ : ∃ c, (Nat.toDigits 10 n).head? = some c ∧ byte c = byte '0' := by
    simpa [decimal] using zero
  have digit := Nat.isDigit_of_mem_toDigits (b := 10) (by decide) (by decide)
    (List.mem_of_head? first)
  exact head?_toDigits_ne_zero positive ((byte_eq_zero_iff digit).mp same ▸ first)

/-- A written number within the bound is read back. -/
theorem naturalOfDigits?_decimal {n max : Nat} (bound : n ≤ max) :
    naturalOfDigits? max (decimal n) = some n := by
  have digits : (decimal n).all isDigit = true :=
    List.all_eq_true.mpr fun _ member => isDigit_of_mem_decimal member
  simp [naturalOfDigits?, decimal_ne_nil, digits, not_leading_zero_decimal, valueOfDigits_decimal,
    bound]

/-- A number that stands in front ends there: what follows, if anything, is no part of it. -/
def EndsValue (rest : List UInt8) : Prop :=
  ∀ b ∈ rest.head?, isDigit b = false ∧ b ≠ byte '.' ∧ b ≠ byte 'e' ∧ b ≠ byte 'E'

theorem digits_append {written rest : List UInt8} (nonempty : written ≠ [])
    (all : ∀ b ∈ written, isDigit b) (ends : EndsValue rest) :
    digits (written ++ rest) = some (written, rest) := by
  have stop : rest.takeWhile isDigit = [] ∧ rest.dropWhile isDigit = rest := by
    cases rest with
    | nil => simp
    | cons b rest => simp [(ends b rfl).1]
  simp [digits, List.takeWhile_append_of_pos all, List.dropWhile_append_of_pos all, stop, nonempty]

/-- The reader finds the end of a written number. -/
theorem readNumber_decimal (n : Nat) {rest : List UInt8} (ends : EndsValue rest) :
    readNumber (decimal n ++ rest) = some (decimal n, rest) := by
  have noSign : minus (decimal n ++ rest) = ([], decimal n ++ rest) := by
    obtain ⟨b, bs, written⟩ := List.exists_cons_of_ne_nil (decimal_ne_nil n)
    have digit : isDigit b := isDigit_of_mem_decimal (n := n) (by simp [written])
    have notMinus : b ≠ byte '-' := by
      rintro rfl
      exact absurd digit (by decide)
    simp [written, minus, notMinus]
  have whole : wholePart (decimal n ++ rest) = some (decimal n, rest) := by
    rw [wholePart, digits_append (decimal_ne_nil n) (fun _ => isDigit_of_mem_decimal) ends]
    exact if_neg (not_leading_zero_decimal n)
  have noFraction : fraction rest = some ([], rest) := by
    cases rest with
    | nil => rfl
    | cons b rest => simp [fraction, (ends b rfl).2.1]
  have noExponent : exponent rest = some ([], rest) := by
    cases rest with
    | nil => rfl
    | cons b rest => simp [exponent, (ends b rfl).2.2]
  simp [readNumber, noSign, whole, noFraction, noExponent]

end Json
end SourceSearch
