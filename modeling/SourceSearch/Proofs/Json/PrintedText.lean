import SourceSearch.Proofs.Json.RoundTrip

/-!
# Printed documents are texts

Escapes replace ASCII signs by ASCII signs, so what is printed of a well-formed document is
well-formed UTF-8: the text of a document on several lines has the bytes that were printed, and it
is read back like a file.
-/

namespace SourceSearch
namespace Json

/-- The bytes are those of a text. -/
def IsText (written : List UInt8) : Prop :=
  ∃ characters : List Char, written = characters.flatMap String.utf8EncodeChar

theorem isText_nil : IsText [] := ⟨[], rfl⟩

theorem IsText.append {front back : List UInt8} (first : IsText front) (second : IsText back) :
    IsText (front ++ back) := by
  obtain ⟨characters, rfl⟩ := first
  obtain ⟨others, rfl⟩ := second
  exact ⟨characters ++ others, List.flatMap_append.symm⟩

theorem isText_flatMap {α : Type} {f : α → List UInt8} {l : List α}
    (each : ∀ a ∈ l, IsText (f a)) : IsText (l.flatMap f) := by
  induction l with
  | nil => exact isText_nil
  | cons a l ih =>
      rw [List.forall_mem_cons] at each
      rw [List.flatMap_cons]
      exact each.1.append (ih each.2)

/-- The bytes are ASCII signs. -/
def IsAscii (written : List UInt8) : Prop := ∀ b ∈ written, b.toNat < 128

instance (written : List UInt8) : Decidable (IsAscii written) := List.decidableBAll _ written

/-- ASCII signs are a text. -/
theorem isText_of_ascii {written : List UInt8} (ascii : IsAscii written) : IsText written := by
  have single : ∀ n < 128, String.utf8EncodeChar (Char.ofNat n) = [UInt8.ofNat n] := by decide
  rw [← List.flatMap_singleton' written]
  refine isText_flatMap fun b member => ⟨[Char.ofNat b.toNat], ?_⟩
  rw [List.flatMap_singleton, single b.toNat (ascii b member), UInt8.ofNat_toNat]

theorem isText_cons {b : UInt8} {written : List UInt8} (ascii : b.toNat < 128)
    (text : IsText written) : IsText (b :: written) := by
  have sign : IsText [b] := isText_of_ascii (List.forall_mem_singleton.mpr ascii)
  exact sign.append text

theorem isText_bytes (ascii : String) (signs : IsAscii (bytes ascii)) : IsText (bytes ascii) :=
  isText_of_ascii signs

theorem isText_signs {first last : UInt8} (ascii : first.toNat < 128)
    (ascii' : last.toNat < 128) :
    IsText [first, last] := isText_cons ascii (isText_cons ascii' isText_nil)

/-- Every byte of the encoding of another character has its top bit set. -/
theorem le_of_mem_utf8EncodeChar {c : Char} (wide : ¬ c.toNat < 128) {b : UInt8}
    (member : b ∈ String.utf8EncodeChar c) : 128 ≤ b.toNat := by
  have tops {n : Nat} (low : 128 ≤ n) (high : n < 256) : 128 ≤ (UInt8.ofNat n).toNat := by
    rwa [UInt8.toNat_ofNat_of_lt' (by simpa using high)]
  have notAscii : ¬ c.val.toNat ≤ 127 := fun small => wide (Nat.lt_succ_of_le small)
  simp only [String.utf8EncodeChar, notAscii, if_false] at member
  split at member
  · simp only [List.mem_cons, List.not_mem_nil, or_false] at member
    rcases member with rfl | rfl <;> exact tops (by omega) (by omega)
  split at member
  · simp only [List.mem_cons, List.not_mem_nil, or_false] at member
    rcases member with rfl | rfl | rfl <;> exact tops (by omega) (by omega)
  · simp only [List.mem_cons, List.not_mem_nil, or_false] at member
    rcases member with rfl | rfl | rfl | rfl <;> exact tops (by omega) (by omega)

theorem isAscii_escapeByte : ∀ n < 128, IsAscii (escapeByte (UInt8.ofNat n)) := by decide

theorem isText_escape (value : String) : IsText (escape value) := by
  rw [← String.ofList_toList (s := value), escape_ofList]
  refine isText_flatMap fun c _ => ?_
  by_cases ascii : c.toNat < 128
  · rw [utf8EncodeChar_of_ascii ascii, List.flatMap_singleton]
    refine isText_of_ascii ?_
    have same : byte c = UInt8.ofNat c.toNat := rfl
    rw [same]
    exact isAscii_escapeByte c.toNat ascii
  · refine ⟨[c], ?_⟩
    rw [List.flatMap_singleton, ← List.flatMap_singleton' (String.utf8EncodeChar c),
      List.flatMap_assoc]
    have kept : ∀ b ∈ String.utf8EncodeChar c, escapeByte b = [b] := fun b member => by
      have top : 128 ≤ b.toNat := le_of_mem_utf8EncodeChar ascii member
      have other : ∀ sign : UInt8, sign.toNat < 128 → b ≠ sign := by
        rintro sign small rfl
        omega
      refine escapeByte_of_printable (other _ (by decide)) (other _ (by decide)) fun control => ?_
      have small : b.toNat < 32 := control
      omega
    simp only [List.flatMap_singleton]
    rw [List.flatMap_def, List.flatMap_def, List.map_congr_left kept]

theorem isText_decimal (n : Nat) : IsText (decimal n) := by
  obtain ⟨value, written⟩ := escaped_decimal n
  exact written ▸ isText_escape value

theorem isText_quoted {written : List UInt8} (escaped : Escaped written) :
    IsText (quoted written) := by
  obtain ⟨value, rfl⟩ := escaped
  exact isText_cons (by decide) ((isText_escape value).append (isText_of_ascii (by decide)))

theorem isText_blank {gap : List UInt8} (blank : ∀ b ∈ gap, isBlank b) : IsText gap := by
  refine isText_of_ascii fun b member => ?_
  have space : b = 0x20 ∨ b = 0x0A ∨ b = 0x09 ∨ b = 0x0D := by
    simpa [isBlank, or_assoc] using blank b member
  rcases space with rfl | rfl | rfl | rfl <;> decide

theorem isText_member {layout : Layout} (blank : layout.IsBlank) (level : Nat)
    {name value : List UInt8} (escaped : Escaped name) (text : IsText value) :
    IsText (layout.gap level ++ quoted name ++ byte ':' :: layout.space ++ value) :=
  (((isText_blank (blank.gap level)).append (isText_quoted escaped)).append
    (isText_cons (b := byte ':') (by decide) (isText_blank blank.space))).append text

mutual

/-- A well-formed document is printed as a text. -/
theorem isText_printed {layout : Layout} (blank : layout.IsBlank) (level : Nat) : (json : Json) →
    json.WellFormed → IsText (printed layout level json)
  | .null, _ => isText_bytes "null" (by decide)
  | .bool true, _ => isText_bytes "true" (by decide)
  | .bool false, _ => isText_bytes "false" (by decide)
  | .number written, formed => by
      obtain ⟨n, rfl⟩ := formed
      exact isText_decimal n
  | .text written, formed => isText_quoted formed
  | .array [], _ => isText_signs (by decide) (by decide)
  | .array (item :: items), formed => by
      rw [printed_array_cons]
      exact (isText_cons (by decide) ((isText_printedItems blank (level + 1) (item :: items)
        formed).append (isText_blank (blank.gap level)))).append (isText_of_ascii (by decide))
  | .object [], _ => isText_signs (by decide) (by decide)
  | .object (member :: members), formed => by
      rw [printed_object_cons]
      exact (isText_cons (by decide) ((isText_printedMembers blank (level + 1) (member :: members)
        formed).append (isText_blank (blank.gap level)))).append (isText_of_ascii (by decide))

/-- The same for the items of a list. -/
theorem isText_printedItems {layout : Layout} (blank : layout.IsBlank) (level : Nat) :
    (items : List Json) → WellFormedItems items → IsText (printedItems layout level items)
  | [], _ => isText_nil
  | [item], formed =>
      (isText_blank (blank.gap level)).append (isText_printed blank level item formed.1)
  | item :: next :: rest, formed => by
      rw [printedItems]
      exact ((isText_blank (blank.gap level)).append
        (isText_printed blank level item formed.1)).append
          (isText_cons (b := byte ',') (by decide)
            (isText_printedItems blank level (next :: rest) formed.2))

/-- The same for the members of an object. -/
theorem isText_printedMembers {layout : Layout} (blank : layout.IsBlank) (level : Nat) :
    (members : List (List UInt8 × Json)) → WellFormedMembers members →
    IsText (printedMembers layout level members)
  | [], _ => isText_nil
  | [(name, value)], formed =>
      isText_member blank level formed.1 (isText_printed blank level value formed.2.1)
  | (name, value) :: next :: rest, formed => by
      rw [printedMembers]
      exact (isText_member blank level formed.1
        (isText_printed blank level value formed.2.1)).append
          (isText_cons (b := byte ',') (by decide)
            (isText_printedMembers blank level (next :: rest) formed.2.2))

end

/-- The text of a well-formed document has the bytes that were printed. -/
theorem data_toUTF8_prettyText {json : Json} (formed : json.WellFormed) :
    json.prettyText.toUTF8.data.toList = json.pretty 0 := by
  obtain ⟨characters, printed⟩ := isText_printed Layout.isBlank_wide 0 json formed
  have bytes : json.pretty 0 = (String.ofList characters).toUTF8.data.toList := by
    rw [pretty_eq_printed, printed, String.toUTF8, String.toByteArray_ofList, List.utf8Encode,
      List.data_toByteArray]
  rw [prettyText, bytes, ofBytes?_toUTF8, Option.getD_some]

/-- A document is read back from its text. -/
theorem decodeBytes?_prettyText {α : Type} (decode : Json → Option α) {json : Json}
    (formed : json.WellFormed) : decodeBytes? decode json.prettyText.toUTF8 = decode json := by
  rw [decodeBytes?, data_toUTF8_prettyText formed, parse_pretty formed]
  rfl

end Json
end SourceSearch
