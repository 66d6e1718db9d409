import SourceSearch.Json.Basic
import SourceSearch.Json.Parser

/-!
# Layouts of documents

A document is printed on one line or over several.  Both are cases of one printed form that differ
in their blanks only, so what is proved of every layout holds of each of them.
-/

namespace SourceSearch
namespace Json

/-- Where a printed form has blanks. -/
structure Layout where
  /-- What stands before an item, and before the closing bracket, at a level. -/
  gap : Nat → List UInt8
  /-- What stands between a name with its colon and the value. -/
  space : List UInt8

/-- No blanks at all. -/
def Layout.tight : Layout := ⟨fun _ => [], []⟩

/-- Each item on a line of its own. -/
def Layout.wide : Layout := ⟨newLine, [byte ' ']⟩

/-- A layout puts nothing but blanks between the signs of a document. -/
structure Layout.IsBlank (layout : Layout) : Prop where
  /-- Gaps are blank. -/
  gap : ∀ level, ∀ b ∈ layout.gap level, Json.isBlank b
  /-- So is what follows a colon. -/
  space : ∀ b ∈ layout.space, Json.isBlank b

theorem Layout.isBlank_tight : tight.IsBlank := ⟨by simp [tight], by simp [tight]⟩

theorem Layout.isBlank_wide : wide.IsBlank where
  gap level b member := by
    rcases List.mem_cons.mp member with rfl | member
    · decide
    · obtain rfl := List.eq_of_mem_replicate member
      decide
  space b member := by
    obtain rfl := List.mem_singleton.mp member
    decide

mutual

/-- A document in a layout. -/
def printed (layout : Layout) (level : Nat) : Json → List UInt8
  | null => bytes "null"
  | bool value => bytes (if value then "true" else "false")
  | number written => written
  | text written => quoted written
  | array [] => [byte '[', byte ']']
  | array items =>
      byte '[' :: printedItems layout (level + 1) items ++ layout.gap level ++ [byte ']']
  | object [] => [byte '\x7b', byte '\x7d']
  | object members =>
      byte '\x7b' :: printedMembers layout (level + 1) members ++ layout.gap level ++
        [byte '\x7d']

/-- The items of a list in a layout. -/
def printedItems (layout : Layout) (level : Nat) : List Json → List UInt8
  | [] => []
  | [item] => layout.gap level ++ printed layout level item
  | item :: next :: rest =>
      layout.gap level ++ printed layout level item ++
        byte ',' :: printedItems layout level (next :: rest)

/-- The members of an object in a layout. -/
def printedMembers (layout : Layout) (level : Nat) : List (List UInt8 × Json) → List UInt8
  | [] => []
  | [(name, value)] =>
      layout.gap level ++ quoted name ++ byte ':' :: layout.space ++ printed layout level value
  | (name, value) :: next :: rest =>
      layout.gap level ++ quoted name ++ byte ':' :: layout.space ++ printed layout level value ++
        byte ',' :: printedMembers layout level (next :: rest)

end

theorem printed_array_cons (layout : Layout) (level : Nat) (item : Json) (items : List Json) :
    printed layout level (array (item :: items)) =
      byte '[' :: printedItems layout (level + 1) (item :: items) ++ layout.gap level ++
        [byte ']'] := by
  rw [printed]
  simp

theorem printed_object_cons (layout : Layout) (level : Nat) (member : List UInt8 × Json)
    (members : List (List UInt8 × Json)) :
    printed layout level (object (member :: members)) =
      byte '\x7b' :: printedMembers layout (level + 1) (member :: members) ++ layout.gap level ++
        [byte '\x7d'] := by
  rw [printed]
  simp

mutual

/-- A document on one line is printed without blanks. -/
theorem compact_eq_printed (level : Nat) : (json : Json) → json.compact = printed .tight level json
  | .null => rfl
  | .bool _ => rfl
  | .number _ => rfl
  | .text _ => rfl
  | .array [] => rfl
  | .array (item :: items) => by
      rw [compact, printed_array_cons, compactItems_eq_printed (level + 1) (item :: items)]
      simp [Layout.tight]
  | .object [] => rfl
  | .object (member :: members) => by
      rw [compact, printed_object_cons, compactMembers_eq_printed (level + 1) (member :: members)]
      simp [Layout.tight]

/-- The same for the items of a list. -/
theorem compactItems_eq_printed (level : Nat) : (items : List Json) →
    compactItems items = printedItems .tight level items
  | [] => rfl
  | [item] => by
      rw [compactItems, printedItems, compact_eq_printed level item]
      rfl
  | item :: next :: rest => by
      rw [compactItems, printedItems, compact_eq_printed level item,
        compactItems_eq_printed level (next :: rest)]
      rfl

/-- The same for the members of an object. -/
theorem compactMembers_eq_printed (level : Nat) : (members : List (List UInt8 × Json)) →
    compactMembers members = printedMembers .tight level members
  | [] => rfl
  | [(name, value)] => by
      rw [compactMembers, printedMembers, compact_eq_printed level value]
      simp [Layout.tight]
  | (name, value) :: next :: rest => by
      rw [compactMembers, printedMembers, compact_eq_printed level value,
        compactMembers_eq_printed level (next :: rest)]
      simp [Layout.tight]

end

mutual

/-- A document over several lines is printed in the wide layout. -/
theorem pretty_eq_printed (level : Nat) : (json : Json) →
    json.pretty level = printed .wide level json
  | .null => rfl
  | .bool _ => rfl
  | .number _ => rfl
  | .text _ => rfl
  | .array [] => rfl
  | .array (item :: items) => by
      rw [printed_array_cons, ← prettyItems_eq_printed (level + 1) (item :: items), pretty]
      · rfl
      · simp
  | .object [] => rfl
  | .object (member :: members) => by
      rw [printed_object_cons, ← prettyMembers_eq_printed (level + 1) (member :: members), pretty]
      · rfl
      · simp

/-- The same for the items of a list. -/
theorem prettyItems_eq_printed (level : Nat) : (items : List Json) →
    prettyItems level items = printedItems .wide level items
  | [] => rfl
  | [item] => by
      rw [prettyItems, printedItems, pretty_eq_printed level item]
      rfl
  | item :: next :: rest => by
      rw [prettyItems, printedItems, pretty_eq_printed level item,
        prettyItems_eq_printed level (next :: rest)]
      rfl

/-- The same for the members of an object. -/
theorem prettyMembers_eq_printed (level : Nat) : (members : List (List UInt8 × Json)) →
    prettyMembers level members = printedMembers .wide level members
  | [] => rfl
  | [(name, value)] => by
      rw [prettyMembers, printedMembers, pretty_eq_printed level value]
      simp [Layout.wide, bytes]
  | (name, value) :: next :: rest => by
      rw [prettyMembers, printedMembers, pretty_eq_printed level value,
        prettyMembers_eq_printed level (next :: rest)]
      simp [Layout.wide, bytes]

end

end Json
end SourceSearch
