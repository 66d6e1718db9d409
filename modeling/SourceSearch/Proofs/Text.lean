import SourceSearch.Text.Utf8
import SourceSearch.Words

/-!
# Sizes of texts

A text has no more characters than bytes, and no more lines than characters.
-/

namespace SourceSearch

namespace Text

theorem length_decodeLossy_le (bytes : List UInt8) : (decodeLossy bytes).length ≤ bytes.length := by
  fun_induction decodeLossy bytes <;> simp_all only [List.length_cons, List.length_nil] <;> omega

theorem length_endLines_cons (piece : List Char) {pieces : List (List Char)}
    (more : pieces ≠ []) : (endLines (piece :: pieces)).length = (endLines pieces).length + 1 := by
  cases pieces with
  | nil => exact absurd rfl more
  | cons next rest => rfl

theorem length_endLines_splitOnP_le (p : Char → Bool) (text : List Char) :
    (endLines (text.splitOnP p)).length ≤ text.length := by
  induction text with
  | nil => exact Nat.le_refl 0
  | cons c text ih =>
      rw [List.splitOnP_cons_eq_if_modifyHead, List.length_cons]
      split
      · rw [length_endLines_cons _ (List.splitOnP_ne_nil p text)]
        exact Nat.succ_le_succ ih
      · -- The first piece grows by a character; only if it is the last one may it become a line.
        cases split : text.splitOnP p with
        | nil => exact absurd split (List.splitOnP_ne_nil p text)
        | cons piece pieces =>
            rw [split] at ih
            rw [List.modifyHead_cons]
            cases pieces with
            | nil =>
                change 1 ≤ _
                omega
            | cons next rest =>
                rw [length_endLines_cons _ (by simp)] at ih ⊢
                omega

theorem length_lines_le (text : List Char) : (lines text).length ≤ text.length :=
  length_endLines_splitOnP_le _ text

end Text

theorem length_lines_ofBytesLossy_le (content : ByteArray) :
    (lines (Text.ofBytesLossy content)).length ≤ content.size := by
  rw [lines, List.length_map, Text.ofBytesLossy, String.toList_ofList]
  calc (Text.lines (Text.decodeLossy content.data.toList)).length
      ≤ (Text.decodeLossy content.data.toList).length := Text.length_lines_le _
    _ ≤ content.data.toList.length := Text.length_decodeLossy_le _
    _ = content.size := Array.length_toList

end SourceSearch
