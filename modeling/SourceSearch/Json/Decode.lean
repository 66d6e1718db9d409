import SourceSearch.Json.Parser
import SourceSearch.Sorted.Map
import SourceSearch.Sorted.Set

/-!
# Decoding JSON

What texts, numbers, lists, maps and records stand for.  A record is an object with its fields by
name, where fields of other names are passed over and a field may not come twice, or a list of the
fields in their order.
-/

namespace SourceSearch
namespace Json

/-- The greatest number of a field of sixty-four bits. -/
def max64 : Nat := 18446744073709551615

/-- The greatest number of a field of thirty-two bits. -/
def max32 : Nat := 4294967295

/-- The number that a list of decimal digits denotes. -/
def valueOfDigits (written : List UInt8) : Nat :=
  written.foldl (fun value digit => 10 * value + (digit.toNat - 0x30)) 0

/-- A natural number written in digits only, without a leading zero. -/
def naturalOfDigits? (max : Nat) (written : List UInt8) : Option Nat :=
  if written.isEmpty || !written.all isDigit then none
  else if written.head? = some (byte '0') ∧ 1 < written.length then none
  else if valueOfDigits written ≤ max then some (valueOfDigits written) else none

/-- A text. -/
def toText? : Json → Option String
  | text written => readText? written
  | _ => none

/-- A natural number up to `max`. -/
def toNat? (max : Nat) : Json → Option Nat
  | number written => naturalOfDigits? max written
  | _ => none

/-- A truth value. -/
def toBool? : Json → Option Bool
  | bool value => some value
  | _ => none

/-- A list of values of one kind. -/
def toList? {α : Type} (decode : Json → Option α) : Json → Option (List α)
  | array items => items.mapM decode
  | _ => none

/-- A list of texts. -/
def toTexts? : Json → Option (List String) := toList? toText?

/-- A set of texts, listed in any order and with repetitions. -/
def toTextSet? (json : Json) : Option (SortedSet String) := (toTexts? json).map .ofList

/-- A map; of several members of one name the last counts. -/
def toMap? {κ β : Type} [LT κ] [DecidableLT κ] [SortOrder κ] (key : List UInt8 → Option κ)
    (decode : Json → Option β) : Json → Option (SortedMap κ β)
  | object members => do
      let entries ← members.mapM fun (name, value) => do
        let name ← key name
        let value ← decode value
        return (name, value)
      return .ofList entries
  | _ => none

/-- The fields of a record, in the order of their names. -/
inductive Fields where
  /-- Fields given by name; `none` for one that is not given. -/
  | named (values : List (Option Json))
  /-- Fields given as the items of a list, which may be too few. -/
  | listed (values : List Json)

/-- The values of the members called `name`. -/
def membersNamed (name : String) (members : List (String × Json)) : List Json :=
  (members.filter (·.1 = name)).map Prod.snd

/-- Take a record apart into its fields. -/
def fields? (names : List String) : Json → Option Fields
  | object members => do
      let members ← members.mapM fun (name, value) => (readText? name).map (·, value)
      let values := names.map fun name => membersNamed name members
      if values.any (1 < ·.length) then none else some (.named (values.map List.head?))
  | array items => if items.length ≤ names.length then some (.listed items) else none
  | _ => none

namespace Fields

/-- The field at a place. -/
def at? : Fields → Nat → Option Json
  | named values, place => (values[place]?).join
  | listed values, place => values[place]?

/-- A field that has to be there. -/
def required {α : Type} (fields : Fields) (place : Nat) (decode : Json → Option α) : Option α :=
  fields.at? place >>= decode

/-- A field with a default. -/
def withDefault {α : Type} (fields : Fields) (place : Nat) (decode : Json → Option α)
    (default : α) : Option α :=
  match fields.at? place with
  | some json => decode json
  | none => some default

/-- A field that may be `null`, or be absent if fields are given by name. -/
def nullable {α : Type} (fields : Fields) (place : Nat) (decode : Json → Option α) :
    Option (Option α) :=
  match fields.at? place, fields with
  | some null, _ => some none
  | some json, _ => (decode json).map some
  | none, named _ => some none
  | none, listed _ => none

end Fields

/-- Decode the record that a file holds. -/
def decodeBytes? {α : Type} (decode : Json → Option α) (content : ByteArray) : Option α :=
  parse content.data.toList >>= decode

/-- A map with texts as its keys. -/
def ofMap {β : Type} (encode : β → Json) (m : SortedMap String β) : Json :=
  object (m.toList.map fun (name, value) => (escape name, encode value))

/-- A map with natural numbers as its keys. -/
def ofNatMap {β : Type} (encode : β → Json) (m : SortedMap Nat β) : Json :=
  object (m.toList.map fun (n, value) => ((Nat.toDigits 10 n).map byte, encode value))

/-- A map with texts as its keys. -/
def toTextMap? {β : Type} (decode : Json → Option β) : Json → Option (SortedMap String β) :=
  toMap? readText? decode

/-- A map with natural numbers as its keys, written without escapes. -/
def toNatMap? {β : Type} (decode : Json → Option β) : Json → Option (SortedMap Nat β) :=
  toMap? (naturalOfDigits? max64) decode

end Json
end SourceSearch
