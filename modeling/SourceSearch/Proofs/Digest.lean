import SourceSearch.Proofs.Store.Records

/-!
# Digests as keys

The hexadecimal text of a digest is a key that every store admits, so a record under such a key is
never refused.
-/

namespace SourceSearch
namespace Digest

/-! ## Hexadecimal texts -/

/-- The character is a lowercase hexadecimal digit. -/
def IsHexDigit (c : Char) : Prop := c ∈ "0123456789abcdef".toList

theorem isHexDigit_hexDigit {n : Nat} (bound : n < 16) : IsHexDigit (hexDigit n) := by
  have each : ∀ n : Fin 16, hexDigit n ∈ "0123456789abcdef".toList := by decide
  exact each ⟨n, bound⟩

theorem isHexDigit_of_mem {bytes : List UInt8} {c : Char} (member : c ∈ hexDigits bytes) :
    IsHexDigit c := by
  obtain ⟨byte, -, digit⟩ := List.mem_flatMap.mp member
  have bound := byte.toNat_lt
  simp only [List.mem_cons, List.not_mem_nil, or_false] at digit
  rcases digit with rfl | rfl
  · exact isHexDigit_hexDigit (by omega)
  · exact isHexDigit_hexDigit (by omega)

theorem length_hexDigits (bytes : List UInt8) : (hexDigits bytes).length = 2 * bytes.length := by
  induction bytes with
  | nil => rfl
  | cons byte bytes ih =>
      rw [hexDigits, List.flatMap_cons, List.length_append, ← hexDigits, ih]
      simp only [List.length_cons, List.length_nil]
      omega

@[simp]
theorem length_bytesOfWord (word : UInt32) : (bytesOfWord word).length = 4 := by
  simp [bytesOfWord]

theorem length_md5 (message : List UInt8) : (Md5.digest message).length = 16 := by
  simp only [Md5.digest, List.flatMap_cons, List.flatMap_nil, List.length_append,
    length_bytesOfWord, List.length_nil]

namespace IsHexDigit

variable {c : Char}

theorem utf8Size (digit : IsHexDigit c) : c.utf8Size = 1 := by
  have each : ∀ c ∈ "0123456789abcdef".toList, c.utf8Size = 1 := by
    simp [Char.utf8Size]
  exact each c digit

theorem ne (digit : IsHexDigit c) {other : Char}
    (outside : other ∉ "0123456789abcdef".toList) : c ≠ other :=
  fun same => outside (same ▸ digit)

end IsHexDigit

/-- A text of hexadecimal digits that is long enough for a shard and short enough for a name. -/
structure IsHexKey (key : String) : Prop where
  /-- There are digits only. -/
  digits : ∀ c ∈ key.toList, IsHexDigit c
  /-- Two of them name the shard. -/
  wide : 2 ≤ key.length
  /-- A suffix fits beside them. -/
  short : key.length ≤ 32

theorem length_hex_md5 (message : List UInt8) : (hex (Md5.digest message)).length = 32 := by
  rw [hex, String.length_ofList, length_hexDigits, length_md5]

theorem isHexKey_md5 (message : List UInt8) : IsHexKey (hex (Md5.digest message)) where
  digits c member := by
    rw [hex, String.toList_ofList] at member
    exact isHexDigit_of_mem member
  wide := by simp [length_hex_md5]
  short := Nat.le_of_eq (length_hex_md5 message)

theorem isHexKey_cacheKey (query : String) : IsHexKey (cacheKey query) := isHexKey_md5 _

/-! ## Hexadecimal texts as keys -/

theorem utf8ByteSize_ofList {letters : List Char} (digits : ∀ c ∈ letters, IsHexDigit c) :
    (String.ofList letters).utf8ByteSize = letters.length := by
  induction letters with
  | nil => rfl
  | cons c letters ih =>
      rw [List.forall_mem_cons] at digits
      have single : String.ofList (c :: letters) = String.singleton c ++ String.ofList letters := by
        rw [String.singleton_eq_ofList, ← String.ofList_append]
        rfl
      rw [single, String.utf8ByteSize_append, String.utf8ByteSize_singleton, digits.1.utf8Size,
        ih digits.2, List.length_cons, Nat.add_comm]

theorem IsHexKey.folder? {key : String} (hex : IsHexKey key) :
    ∃ a b rest, key.toList = a :: b :: rest ∧
      Store.folder? key = some (String.ofList [a, b]) := by
  have wide := hex.wide
  have digits := hex.digits
  have slash : '/' ∉ key.toList := fun member => (digits _ member).ne (by decide) rfl
  have backslash : '\\' ∉ key.toList := fun member => (digits _ member).ne (by decide) rfl
  rw [← String.length_toList] at wide
  rw [Store.folder?, Store.shard?]
  rcases letters : key.toList with _ | ⟨a, _ | ⟨b, rest⟩⟩
  · simp [letters] at wide
  · simp [letters] at wide
  · rw [letters, List.forall_mem_cons, List.forall_mem_cons] at digits
    obtain ⟨digitA, digitB, -⟩ := digits
    have dot : '.' ∉ [a, b] := by
      simp only [List.mem_cons, List.not_mem_nil, or_false, not_or]
      exact ⟨(digitA.ne (by decide)).symm, (digitB.ne (by decide)).symm⟩
    rw [letters] at slash backslash
    refine ⟨a, b, rest, rfl, ?_⟩
    simp only [digitA.utf8Size, digitB.utf8Size, show (1 : Nat) ≠ 2 by decide, if_false,
      and_self, if_true, String.toList_ofList, dot, slash, backslash, or_self]

/-- A suffix that fits beside a digest in the name of a file. -/
structure IsShortSuffix (suffix : String) : Prop extends IsSuffix suffix where
  /-- The character that ends names is not part of it. -/
  noNul : '\x00' ∉ suffix.toList
  /-- The name is not too long. -/
  short : suffix.utf8ByteSize ≤ 200

/-- A record under the text of a digest has a place with proper names. -/
theorem IsHexKey.place? {key suffix : String} (hex : IsHexKey key) (proper : IsShortSuffix suffix) :
    ∃ names, Store.place? key suffix = some names ∧ ∀ name ∈ names, IsName name := by
  obtain ⟨a, b, rest, letters, admitted⟩ := hex.folder?
  have placed : Store.place? key suffix = some [String.ofList [a, b], key ++ suffix] := by
    rw [Store.place?, admitted]
    rfl
  have plain := Store.isPlain_place proper.toIsSuffix placed
  refine ⟨_, placed, fun name member => ?_⟩
  simp only [List.mem_cons, List.not_mem_nil, or_false] at member
  rcases member with rfl | rfl
  · have inside : ∀ c ∈ [a, b], IsHexDigit c := fun c member =>
      hex.digits c (letters ▸ List.mem_append_left rest member)
    refine ⟨plain _ (by simp), fun nul => ?_, ?_⟩
    · rw [String.toList_ofList] at nul
      exact (inside _ nul).ne (by decide) rfl
    · rw [utf8ByteSize_ofList inside, maxNameBytes]
      exact Nat.le_of_ble_eq_true rfl
  · refine ⟨plain _ (by simp), fun nul => ?_, ?_⟩
    · rw [String.toList_append] at nul
      rcases List.mem_append.mp nul with nul | nul
      · exact (hex.digits _ nul).ne (by decide) rfl
      · exact proper.noNul nul
    · have size : key.utf8ByteSize = key.length := by
        rw [← key.ofList_toList, utf8ByteSize_ofList hex.digits, String.length_ofList]
      rw [String.utf8ByteSize_append, size]
      have few := hex.short
      have short := proper.short
      rw [maxNameBytes]
      omega

end Digest
end SourceSearch
