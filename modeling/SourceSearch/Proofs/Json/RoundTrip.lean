import SourceSearch.Proofs.Json.Layout
import SourceSearch.Proofs.Json.Written

/-!
# Reading what was printed

A document whose texts and numbers are written the way this library writes them is read back from
its printed form in every layout.  The fuel of the reader is a bound on nested calls, so the
induction carries a lower bound on it: two for each byte that is still to be read.
-/

namespace SourceSearch
namespace Json

/-! ## Well-formed documents -/

/-- What is written between quotes is the written form of a text. -/
def Escaped (written : List UInt8) : Prop := ∃ value : String, written = escape value

theorem escaped_escape (value : String) : Escaped (escape value) := ⟨value, rfl⟩

theorem escape_ofList (characters : List Char) :
    escape (String.ofList characters) =
      characters.flatMap fun c => (String.utf8EncodeChar c).flatMap escapeByte := by
  rw [escape, String.toUTF8, String.toByteArray_ofList, List.utf8Encode, List.data_toByteArray,
    List.flatMap_assoc]

theorem escapeByte_of_printable {b : UInt8} (notQuote : b ≠ byte '"')
    (notBackslash : b ≠ byte '\\') (printable : ¬ b < 0x20) : escapeByte b = [b] := by
  have other : ∀ control : UInt8, control < 0x20 → b ≠ control := by
    rintro control small rfl
    exact printable small
  simp [escapeByte, notQuote, notBackslash, printable, other 0x08 (by decide),
    other 0x0C (by decide), other 0x0A (by decide), other 0x0D (by decide), other 0x09 (by decide)]

theorem utf8EncodeChar_of_ascii {c : Char} (ascii : c.toNat < 128) :
    String.utf8EncodeChar c = [byte c] := by
  rw [String.utf8EncodeChar]
  exact if_pos (Nat.le_of_lt_succ ascii)

theorem escapeByte_of_isDigit {b : UInt8} (digit : isDigit b) : escapeByte b = [b] := by
  have other : ∀ sign : UInt8, isDigit sign = false → b ≠ sign := by
    rintro sign notDigit rfl
    rw [digit] at notDigit
    cases notDigit
  refine escapeByte_of_printable (other _ (by decide)) (other _ (by decide)) fun control => ?_
  have lower : 48 ≤ b.toNat := by
    simp only [isDigit, Bool.and_eq_true, decide_eq_true_eq] at digit
    exact digit.1
  have small : b.toNat < 32 := control
  omega

/-- Digits are written as they are. -/
theorem escaped_decimal (n : Nat) : Escaped (decimal n) := by
  refine ⟨String.ofList (Nat.toDigits 10 n), ?_⟩
  have digits : ∀ c ∈ Nat.toDigits 10 n, c.isDigit := fun c member =>
    Nat.isDigit_of_mem_toDigits (by decide) (by decide) member
  have plain : ∀ c : Char, c.isDigit → (String.utf8EncodeChar c).flatMap escapeByte = [byte c] := by
    intro c digit
    have bounds : 48 ≤ c.toNat ∧ c.toNat ≤ 57 := by
      simpa [Char.isDigit, UInt32.le_iff_toNat_le] using digit
    rw [utf8EncodeChar_of_ascii (by omega), List.flatMap_singleton,
      escapeByte_of_isDigit (isDigit_byte digit)]
  rw [escape_ofList, decimal, List.flatMap_def, List.map_congr_left fun c member =>
    plain c (digits c member), ← List.flatMap_def, List.map_eq_flatMap]

/-- The reader finds the end of an escaped text. -/
theorem Escaped.readQuoted {written : List UInt8} (escaped : Escaped written)
    (rest : List UInt8) : readQuoted (written ++ byte '"' :: rest) = some (written, rest) := by
  obtain ⟨value, rfl⟩ := escaped
  exact readQuoted_escape value rest

mutual

/-- Texts and numbers in a document are written the way this library writes them. -/
def WellFormed : Json → Prop
  | null => True
  | bool _ => True
  | number written => ∃ n, written = decimal n
  | text written => Escaped written
  | array items => WellFormedItems items
  | object members => WellFormedMembers members

/-- The same for the items of a list. -/
def WellFormedItems : List Json → Prop
  | [] => True
  | item :: rest => item.WellFormed ∧ WellFormedItems rest

/-- The same for the members of an object and their names. -/
def WellFormedMembers : List (List UInt8 × Json) → Prop
  | [] => True
  | (name, value) :: rest => Escaped name ∧ value.WellFormed ∧ WellFormedMembers rest

end

theorem wellFormedItems_iff {items : List Json} :
    WellFormedItems items ↔ ∀ item ∈ items, item.WellFormed := by
  induction items with
  | nil => simp [WellFormedItems]
  | cons item rest ih => simp [WellFormedItems, ih]

theorem wellFormedMembers_iff {members : List (List UInt8 × Json)} :
    WellFormedMembers members ↔
      ∀ member ∈ members, Escaped member.1 ∧ member.2.WellFormed := by
  induction members with
  | nil => simp [WellFormedMembers]
  | cons member rest ih => simp [WellFormedMembers, ih, and_assoc]

/-! ## Blanks -/

theorem skipBlank_append {gap : List UInt8} (blank : ∀ b ∈ gap, isBlank b)
    (input : List UInt8) : skipBlank (gap ++ input) = skipBlank input :=
  List.dropWhile_append_of_pos blank

theorem skipBlank_cons {b : UInt8} (solid : isBlank b = false) (rest : List UInt8) :
    skipBlank (b :: rest) = b :: rest := by
  simp [skipBlank, solid]

theorem readValue_append {gap : List UInt8} (blank : ∀ b ∈ gap, isBlank b) (fuel : Nat)
    (input : List UInt8) : readValue fuel (gap ++ input) = readValue fuel input := by
  cases fuel with
  | zero => rfl
  | succ fuel => rw [readValue, readValue, skipBlank_append blank]

theorem readName_append {gap : List UInt8} (blank : ∀ b ∈ gap, isBlank b)
    (input : List UInt8) : readName (gap ++ input) = readName input := by
  rw [readName, readName, skipBlank_append blank]

theorem endsValue_append {gap rest : List UInt8} (blank : ∀ b ∈ gap, isBlank b)
    (ends : EndsValue rest) : EndsValue (gap ++ rest) := by
  cases gap with
  | nil => exact ends
  | cons b gap =>
      have space : b = 0x20 ∨ b = 0x0A ∨ b = 0x09 ∨ b = 0x0D := by
        simpa [isBlank, or_assoc] using blank b List.mem_cons_self
      intro c first
      obtain rfl : b = c := by simpa using first
      rcases space with rfl | rfl | rfl | rfl <;> decide

theorem endsValue_cons {b : UInt8}
    (stops : isDigit b = false ∧ b ≠ byte '.' ∧ b ≠ byte 'e' ∧ b ≠ byte 'E')
    (rest : List UInt8) : EndsValue (b :: rest) := by
  intro c first
  obtain rfl : b = c := by simpa using first
  exact stops

/-! ## Reading the parts -/

section Parts

/-- A document starts with a sign of its own: no blank and no closing bracket. -/
theorem printed_eq_cons (layout : Layout) {json : Json} (formed : json.WellFormed) (level : Nat) :
    ∃ b bs, printed layout level json = b :: bs ∧ isBlank b = false ∧ b ≠ byte ']' := by
  cases json with
  | null => exact ⟨byte 'n', bytes "ull", rfl, by decide, by decide⟩
  | bool value =>
      cases value
      · exact ⟨byte 'f', bytes "alse", rfl, by decide, by decide⟩
      · exact ⟨byte 't', bytes "rue", rfl, by decide, by decide⟩
  | number written =>
      obtain ⟨n, rfl⟩ := formed
      obtain ⟨b, bs, written⟩ := List.exists_cons_of_ne_nil (decimal_ne_nil n)
      have digit : isDigit b := isDigit_of_mem_decimal (n := n) (by simp [written])
      refine ⟨b, bs, written, ?_, ?_⟩
      · cases blank : isBlank b with
        | false => rfl
        | true =>
            simp only [isBlank, Bool.or_eq_true, beq_iff_eq] at blank
            rcases blank with ((rfl | rfl) | rfl) | rfl <;> exact absurd digit (by decide)
      · rintro rfl
        exact absurd digit (by decide)
  | text written => exact ⟨byte '"', _, rfl, by decide, by decide⟩
  | array items => cases items <;> exact ⟨byte '[', _, rfl, by decide, by decide⟩
  | object members => cases members <;> exact ⟨byte '\x7b', _, rfl, by decide, by decide⟩

theorem readName_quoted {name : List UInt8} (escaped : Escaped name) (rest : List UInt8) :
    readName (quoted name ++ byte ':' :: rest) = some (name, rest) := by
  have opening : expect [byte '"'] (skipBlank (quoted name ++ byte ':' :: rest)) =
      some (name ++ byte '"' :: byte ':' :: rest) := by
    simp [quoted, skipBlank_cons (show isBlank (byte '"') = false by decide), expect,
      List.append_assoc]
  have colon : expect [byte ':'] (skipBlank (byte ':' :: rest)) = some rest := by
    simp [skipBlank_cons (show isBlank (byte ':') = false by decide), expect]
  simp [readName, opening, escaped.readQuoted (byte ':' :: rest), colon]

theorem readValue_number (n fuel : Nat) {rest : List UInt8} (ends : EndsValue rest) :
    readValue (fuel + 1) (decimal n ++ rest) = some (number (decimal n), rest) := by
  have formed : (number (decimal n)).WellFormed := ⟨n, rfl⟩
  have number := readNumber_decimal n ends
  obtain ⟨b, bs, written, solid, -⟩ := printed_eq_cons .tight formed 0
  rw [printed] at written
  have digit : isDigit b := isDigit_of_mem_decimal (n := n) (by simp [written])
  have other : ∀ c : Char, isDigit (byte c) = false → b ≠ byte c := by
    rintro c notDigit rfl
    simp [notDigit] at digit
  rw [written, List.cons_append] at number ⊢
  rw [readValue, skipBlank_cons solid]
  simp [other '"' (by decide), other '[' (by decide), other '\x7b' (by decide),
    other 'n' (by decide), other 't' (by decide), other 'f' (by decide), number]

theorem readValue_quote (fuel : Nat) (rest : List UInt8) :
    readValue (fuel + 1) (byte '"' :: rest) =
      (readQuoted rest).map fun (written, rest) => (text written, rest) := rfl

theorem readValue_bracket {fuel : Nat} {rest : List UInt8}
    (more : expect [byte ']'] (skipBlank rest) = none) :
    readValue (fuel + 1) (byte '[' :: rest) =
      (readItems fuel rest).map fun (items, rest) => (array items, rest) := by
  rw [readValue, skipBlank_cons (by decide)]
  simp only [show byte '[' ≠ byte '"' by decide, if_false, if_true, more]

theorem readValue_brace {fuel : Nat} {rest : List UInt8}
    (more : expect [byte '\x7d'] (skipBlank rest) = none) :
    readValue (fuel + 1) (byte '\x7b' :: rest) =
      (readMembers fuel rest).map fun (members, rest) => (object members, rest) := by
  rw [readValue, skipBlank_cons (by decide)]
  simp only [show byte '\x7b' ≠ byte '"' by decide, show byte '\x7b' ≠ byte '[' by decide, if_false,
    if_true, more]

theorem readItems_last {fuel : Nat} {item : Json} {input after rest : List UInt8}
    (first : readValue fuel input = some (item, after))
    (sign : skipBlank after = byte ']' :: rest) :
    readItems (fuel + 1) input = some ([item], rest) := by
  rw [readItems, first, Option.bind_eq_bind, Option.bind_some]
  simp only [sign]
  rfl

theorem readItems_comma {fuel : Nat} {item : Json} {items : List Json}
    {input middle rest : List UInt8}
    (first : readValue fuel input = some (item, byte ',' :: middle))
    (others : readItems fuel middle = some (items, rest)) :
    readItems (fuel + 1) input = some (item :: items, rest) := by
  rw [readItems, first]
  change (readItems fuel middle >>= fun (items, rest) => some (item :: items, rest)) = _
  rw [others]
  rfl

theorem readMembers_last {fuel : Nat} {name : List UInt8} {value : Json}
    {input middle after rest : List UInt8} (named : readName input = some (name, middle))
    (first : readValue fuel middle = some (value, after))
    (sign : skipBlank after = byte '\x7d' :: rest) :
    readMembers (fuel + 1) input = some ([(name, value)], rest) := by
  rw [readMembers, named]
  change (readValue fuel middle >>= _) = _
  rw [first, Option.bind_eq_bind, Option.bind_some]
  simp only [sign]
  rfl

theorem readMembers_comma {fuel : Nat} {name : List UInt8} {value : Json}
    {members : List (List UInt8 × Json)} {input middle later rest : List UInt8}
    (named : readName input = some (name, middle))
    (first : readValue fuel middle = some (value, byte ',' :: later))
    (others : readMembers fuel later = some (members, rest)) :
    readMembers (fuel + 1) input = some ((name, value) :: members, rest) := by
  rw [readMembers, named]
  change (readValue fuel middle >>= _) = _
  rw [first]
  change (readMembers fuel later >>= fun (members, rest) =>
    some ((name, value) :: members, rest)) = _
  rw [others]
  rfl

theorem expect_of_ne {sign b : UInt8} (other : b ≠ sign) (rest : List UInt8) :
    expect [sign] (b :: rest) = none := by
  simp [expect, other.symm]

variable {layout : Layout} (blank : layout.IsBlank)

include blank

theorem expect_bracket_items {item : Json} (formed : item.WellFormed) (level : Nat)
    (items : List Json) (rest : List UInt8) :
    expect [byte ']'] (skipBlank (printedItems layout level (item :: items) ++ rest)) = none := by
  obtain ⟨b, bs, shape, solid, other⟩ := printed_eq_cons layout formed level
  cases items <;>
    simp [printedItems, shape, List.append_assoc, skipBlank_append (blank.gap level),
      skipBlank_cons solid, expect_of_ne other]

theorem expect_brace_members (level : Nat) (member : List UInt8 × Json)
    (members : List (List UInt8 × Json)) (rest : List UInt8) :
    expect [byte '\x7d'] (skipBlank (printedMembers layout level (member :: members) ++ rest)) =
      none := by
  have solid : isBlank (byte '"') = false := by decide
  have other : byte '"' ≠ byte '\x7d' := by decide
  cases members <;>
    simp [printedMembers, quoted, List.append_assoc, skipBlank_append (blank.gap level),
      skipBlank_cons solid, expect_of_ne other]

end Parts

/-! ## Reading whole documents -/

mutual

/-- With enough fuel the reader finds the document that was printed in front. -/
theorem readValue_printed {layout : Layout} (blank : layout.IsBlank) (level : Nat) :
    (json : Json) → json.WellFormed → (fuel : Nat) →
    2 * (printed layout level json).length ≤ fuel → (rest : List UInt8) → EndsValue rest →
    readValue fuel (printed layout level json ++ rest) = some (json, rest)
  | json, formed, 0, enough, _, _ => by
      obtain ⟨b, bs, shape, -⟩ := printed_eq_cons layout formed level
      simp [shape] at enough
  | .null, _, fuel + 1, _, rest, _ => rfl
  | .bool value, _, fuel + 1, _, rest, _ => by
      cases value <;> rfl
  | .number written, formed, fuel + 1, _, rest, ends => by
      obtain ⟨n, rfl⟩ := formed
      exact readValue_number n fuel ends
  | .text written, formed, fuel + 1, _, rest, _ => by
      have escaped : Escaped written := formed
      rw [printed, quoted]
      simp only [List.cons_append, List.append_assoc, List.nil_append]
      rw [readValue_quote, escaped.readQuoted rest]
      rfl
  | .array [], _, fuel + 1, _, rest, _ => rfl
  | .array (item :: items), formed, fuel + 1, enough, rest, _ => by
      rw [printed_array_cons] at enough ⊢
      simp only [List.cons_append, List.append_assoc, List.nil_append]
      rw [readValue_bracket (expect_bracket_items blank formed.1 _ items _),
        readItems_printed blank (level + 1) item items formed fuel
          (by simp at enough; omega) (blank.gap level) rest]
      rfl
  | .object [], _, fuel + 1, _, rest, _ => rfl
  | .object (member :: members), formed, fuel + 1, enough, rest, _ => by
      rw [printed_object_cons] at enough ⊢
      simp only [List.cons_append, List.append_assoc, List.nil_append]
      rw [readValue_brace (expect_brace_members blank _ member members _),
        readMembers_printed blank (level + 1) member members formed fuel
          (by simp at enough; omega) (blank.gap level) rest]
      rfl

/-- The same for the items of a list, up to blanks and the closing bracket. -/
theorem readItems_printed {layout : Layout} (blank : layout.IsBlank) (level : Nat) :
    (item : Json) → (items : List Json) → WellFormedItems (item :: items) → (fuel : Nat) →
    2 * (printedItems layout level (item :: items)).length + 1 ≤ fuel → {gap : List UInt8} →
    (∀ b ∈ gap, isBlank b) → (rest : List UInt8) →
    readItems fuel (printedItems layout level (item :: items) ++ (gap ++ byte ']' :: rest)) =
      some (item :: items, rest)
  | _, _, _, 0, enough, _, _, _ => by omega
  | item, [], formed, fuel + 1, enough, gap, empty, rest => by
      rw [printedItems, List.length_append] at enough
      rw [printedItems, List.append_assoc]
      refine readItems_last ((readValue_append (blank.gap level) _ _).trans
        (readValue_printed blank level item formed.1 fuel (by omega) _ ?_)) ?_
      · exact endsValue_append empty (endsValue_cons (by decide) rest)
      · rw [skipBlank_append empty, skipBlank_cons (by decide)]
  | item, next :: items, formed, fuel + 1, enough, gap, empty, rest => by
      rw [printedItems] at enough
      simp only [List.length_append, List.length_cons] at enough
      rw [printedItems]
      simp only [List.append_assoc, List.cons_append]
      exact readItems_comma ((readValue_append (blank.gap level) _ _).trans
        (readValue_printed blank level item formed.1 fuel (by omega) _
          (endsValue_cons (by decide) _)))
        (readItems_printed blank level next items formed.2 fuel (by omega) empty rest)

/-- The same for the members of an object. -/
theorem readMembers_printed {layout : Layout} (blank : layout.IsBlank) (level : Nat) :
    (member : List UInt8 × Json) → (members : List (List UInt8 × Json)) →
    WellFormedMembers (member :: members) → (fuel : Nat) →
    2 * (printedMembers layout level (member :: members)).length + 1 ≤ fuel →
    {gap : List UInt8} → (∀ b ∈ gap, isBlank b) → (rest : List UInt8) →
    readMembers fuel
        (printedMembers layout level (member :: members) ++ (gap ++ byte '\x7d' :: rest)) =
      some (member :: members, rest)
  | _, _, _, 0, enough, _, _, _ => by omega
  | (name, value), [], formed, fuel + 1, enough, gap, empty, rest => by
      rw [printedMembers] at enough
      simp only [List.length_append, List.length_cons] at enough
      rw [printedMembers]
      simp only [List.append_assoc, List.cons_append]
      refine readMembers_last
        ((readName_append (blank.gap level) _).trans (readName_quoted formed.1 _))
        ((readValue_append blank.space _ _).trans
          (readValue_printed blank level value formed.2.1 fuel (by omega) _ ?_)) ?_
      · exact endsValue_append empty (endsValue_cons (by decide) rest)
      · rw [skipBlank_append empty, skipBlank_cons (by decide)]
  | (name, value), next :: members, formed, fuel + 1, enough, gap, empty, rest => by
      rw [printedMembers] at enough
      simp only [List.length_append, List.length_cons] at enough
      rw [printedMembers]
      simp only [List.append_assoc, List.cons_append]
      exact readMembers_comma
        ((readName_append (blank.gap level) _).trans (readName_quoted formed.1 _))
        ((readValue_append blank.space _ _).trans
          (readValue_printed blank level value formed.2.1 fuel (by omega) _
            (endsValue_cons (by decide) _)))
        (readMembers_printed blank level next members formed.2.2 fuel (by omega) empty rest)

end

/-- Reading is inverse to printing on well-formed documents. -/
theorem parse_printed {layout : Layout} (blank : layout.IsBlank) (level : Nat) {json : Json}
    (formed : json.WellFormed) : parse (printed layout level json) = some json := by
  have read := readValue_printed blank level json formed
    (2 * (printed layout level json).length + 2) (by omega) [] (by simp [EndsValue])
  rw [List.append_nil] at read
  simp [parse, read, skipBlank]

/-- A document is read back from one line. -/
theorem parse_compact {json : Json} (formed : json.WellFormed) :
    parse json.compact = some json := by
  rw [compact_eq_printed 0]
  exact parse_printed Layout.isBlank_tight 0 formed

/-- A document is read back from several lines. -/
theorem parse_pretty {json : Json} (formed : json.WellFormed) :
    parse (json.pretty 0) = some json := by
  rw [pretty_eq_printed]
  exact parse_printed Layout.isBlank_wide 0 formed

/-- A record is read back from the file content that holds it. -/
theorem decodeBytes?_toBytes {α : Type} (decode : Json → Option α) {json : Json}
    (formed : json.WellFormed) : decodeBytes? decode json.toBytes = decode json := by
  simp [decodeBytes?, toBytes, parse_compact formed]

end Json
end SourceSearch
