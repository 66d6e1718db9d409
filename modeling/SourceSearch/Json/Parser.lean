import SourceSearch.Json.Basic

/-!
# Reading JSON

A document is read by recursive descent.  The reader settles the form only: texts are delimited
and their escapes have the right shape, numbers follow the grammar; which texts and numbers are
admitted is left to the decoders.
-/

namespace SourceSearch
namespace Json

/-- Blanks between the signs of a document. -/
def isBlank (b : UInt8) : Bool := b == 0x20 || b == 0x0A || b == 0x09 || b == 0x0D

/-- The input after its leading blanks. -/
def skipBlank (input : List UInt8) : List UInt8 := input.dropWhile isBlank

/-- The input after `word`, if it begins with it. -/
def expect (word : List UInt8) (input : List UInt8) : Option (List UInt8) :=
  if word.isPrefixOf input then some (input.drop word.length) else none

/-- A decimal digit. -/
def isDigit (b : UInt8) : Bool := 0x30 ≤ b && b ≤ 0x39

/-- The digits at the front, of which there has to be one, and the rest. -/
def digits (input : List UInt8) : Option (List UInt8 × List UInt8) :=
  let found := input.takeWhile isDigit
  if found.isEmpty then none else some (found, input.dropWhile isDigit)

/-- The whole part of a number: zero alone, or digits without a leading zero. -/
def wholePart (input : List UInt8) : Option (List UInt8 × List UInt8) := do
  let (found, rest) ← digits input
  if found.head? = some (byte '0') ∧ 1 < found.length then none else some (found, rest)

/-- The fraction of a number, if a point follows. -/
def fraction (input : List UInt8) : Option (List UInt8 × List UInt8) :=
  match input with
  | b :: rest =>
      if b = byte '.' then (digits rest).map fun (found, rest) => (b :: found, rest)
      else some ([], input)
  | [] => some ([], [])

/-- The exponent of a number, if its letter follows. -/
def exponent (input : List UInt8) : Option (List UInt8 × List UInt8) :=
  match input with
  | [] => some ([], [])
  | letter :: rest =>
      if letter = byte 'e' ∨ letter = byte 'E' then
        match rest with
        | [] => none
        | sign :: afterSign =>
            if sign = byte '+' ∨ sign = byte '-' then
              (digits afterSign).map fun (found, rest) => (letter :: sign :: found, rest)
            else (digits rest).map fun (found, rest) => (letter :: found, rest)
      else some ([], input)

/-- The sign of a number. -/
def minus (input : List UInt8) : List UInt8 × List UInt8 :=
  match input with
  | b :: rest => if b = byte '-' then ([b], rest) else ([], input)
  | [] => ([], [])

/-- The number at the front, as written. -/
def readNumber (input : List UInt8) : Option (List UInt8 × List UInt8) := do
  let (sign, input) := minus input
  let (whole, input) ← wholePart input
  let (fraction, input) ← fraction input
  let (exponent, input) ← exponent input
  return (sign ++ whole ++ fraction ++ exponent, input)

/-- A hexadecimal digit. -/
def isHex (b : UInt8) : Bool := (hexValue? b).isSome

/-- The written text up to its closing quote; the opening quote has been read. -/
def readQuoted : List UInt8 → Option (List UInt8 × List UInt8)
  | [] => none
  | a :: rest =>
      if a = byte '"' then some ([], rest)
      else if a < 0x20 then none
      else if a ≠ byte '\\' then
        (readQuoted rest).map fun (written, rest) => (a :: written, rest)
      else match rest with
        | [] => none
        | letter :: rest =>
            if (letterEscape? letter).isSome then
              (readQuoted rest).map fun (written, rest) => (a :: letter :: written, rest)
            else if letter = byte 'u' then
              match rest with
              | h₁ :: h₂ :: h₃ :: h₄ :: rest =>
                  if isHex h₁ && isHex h₂ && isHex h₃ && isHex h₄ then
                    (readQuoted rest).map fun (written, rest) =>
                      (a :: letter :: h₁ :: h₂ :: h₃ :: h₄ :: written, rest)
                  else none
              | _ => none
            else none

/-- The name of a member with the colon after it. -/
def readName (input : List UInt8) : Option (List UInt8 × List UInt8) := do
  let input ← expect [byte '"'] (skipBlank input)
  let (name, input) ← readQuoted input
  let input ← expect [byte ':'] (skipBlank input)
  return (name, input)

mutual

/-- The document at the front of the input, blanks before it skipped. -/
def readValue : Nat → List UInt8 → Option (Json × List UInt8)
  | 0, _ => none
  | fuel + 1, input =>
      match skipBlank input with
      | [] => none
      | first :: rest =>
          if first = byte '"' then
            (readQuoted rest).map fun (written, rest) => (text written, rest)
          else if first = byte '[' then
            match expect [byte ']'] (skipBlank rest) with
            | some rest => some (array [], rest)
            | none => (readItems fuel rest).map fun (items, rest) => (array items, rest)
          else if first = byte '\x7b' then
            match expect [byte '\x7d'] (skipBlank rest) with
            | some rest => some (object [], rest)
            | none => (readMembers fuel rest).map fun (members, rest) => (object members, rest)
          else if first = byte 'n' then
            (expect (bytes "ull") rest).map fun rest => (null, rest)
          else if first = byte 't' then
            (expect (bytes "rue") rest).map fun rest => (bool true, rest)
          else if first = byte 'f' then
            (expect (bytes "alse") rest).map fun rest => (bool false, rest)
          else (readNumber (first :: rest)).map fun (written, rest) => (number written, rest)

/-- The items of a list up to its closing bracket. -/
def readItems : Nat → List UInt8 → Option (List Json × List UInt8)
  | 0, _ => none
  | fuel + 1, input => do
      let (item, input) ← readValue fuel input
      match skipBlank input with
      | [] => none
      | sign :: rest =>
          if sign = byte ']' then some ([item], rest)
          else if sign = byte ',' then
            let (items, rest) ← readItems fuel rest
            return (item :: items, rest)
          else none

/-- The members of an object up to its closing brace. -/
def readMembers : Nat → List UInt8 → Option (List (List UInt8 × Json) × List UInt8)
  | 0, _ => none
  | fuel + 1, input => do
      let (name, input) ← readName input
      let (value, input) ← readValue fuel input
      match skipBlank input with
      | [] => none
      | sign :: rest =>
          if sign = byte '\x7d' then some ([(name, value)], rest)
          else if sign = byte ',' then
            let (members, rest) ← readMembers fuel rest
            return ((name, value) :: members, rest)
          else none

end

/-- The document that the input consists of, blanks around it apart.  Two calls at most are nested
for each byte of the input. -/
def parse (input : List UInt8) : Option Json := do
  let (json, rest) ← readValue (2 * input.length + 2) input
  if (skipBlank rest).isEmpty then some json else none

end Json
end SourceSearch
