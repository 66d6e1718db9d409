import SourceSearch.Json.Decode

/-!
# Documents of any form

A document read without a record in mind: texts have to be readable, numbers have to be in range,
the nesting is bounded, and the members of an object are sorted by name.
-/

namespace SourceSearch
namespace Json

/-- How deep lists and objects may be nested. -/
def maxDepth : Nat := 127

/-- The value of a written exponent. -/
def exponentValue (written : List UInt8) : Int :=
  match written with
  | [] => 0
  | sign :: digits =>
      if sign = byte '-' then -(valueOfDigits digits : Int)
      else if sign = byte '+' then valueOfDigits digits
      else valueOfDigits written

/-- The digits of a number without its sign and point, and the power of ten that scales them. -/
def scaled (written : List UInt8) : List UInt8 × Int :=
  let isMark (b : UInt8) : Bool := b == byte 'e' || b == byte 'E'
  let mantissa := (written.takeWhile (!isMark ·)).filter (· ≠ byte '-')
  let exponent := (written.dropWhile (!isMark ·)).drop 1
  let whole := mantissa.takeWhile (· ≠ byte '.')
  let decimals := (mantissa.dropWhile (· ≠ byte '.')).drop 1
  (whole ++ decimals, exponentValue exponent - decimals.length)

/-- The number is too large for a binary number of double precision.  Numbers of very many or very
few digits before the point are told apart without computing powers. -/
def isTooLarge (written : List UInt8) : Bool :=
  let (digits, power) := scaled written
  let significant := digits.dropWhile (· = byte '0')
  let magnitude := significant.length + power
  let bound := Nat.pow 2 1024 - Nat.pow 2 970
  if significant.isEmpty || magnitude ≤ 308 then false
  else if 308 < power || 310 < magnitude then true
  else if 0 ≤ power then bound ≤ valueOfDigits significant * Nat.pow 10 power.toNat
  else bound * Nat.pow 10 (-power).toNat ≤ valueOfDigits significant

mutual

/-- The document with its texts spelled anew and its objects sorted, if it is admitted; `depth` more
levels may be opened. -/
def normal? (depth : Nat) : Json → Option Json
  | null => some null
  | bool value => some (bool value)
  | number written => if isTooLarge written then none else some (number written)
  | text written => (readText? written).map ofText
  | array items => if depth = 0 then none else (normalItems? (depth - 1) items).map array
  | object members =>
      if depth = 0 then none
      else (normalMembers? (depth - 1) members).map fun members =>
        ofMap id (SortedMap.ofList members)

/-- The items of a list. -/
def normalItems? (depth : Nat) : List Json → Option (List Json)
  | [] => some []
  | item :: rest => do
      let item ← normal? depth item
      let rest ← normalItems? depth rest
      return item :: rest

/-- The members of an object with their names read. -/
def normalMembers? (depth : Nat) : List (List UInt8 × Json) → Option (List (String × Json))
  | [] => some []
  | (name, value) :: rest => do
      let name ← readText? name
      let value ← normal? depth value
      let rest ← normalMembers? depth rest
      return (name, value) :: rest

end

/-- A document of any form. -/
def toValue? : Json → Option Json := normal? maxDepth

end Json
end SourceSearch
