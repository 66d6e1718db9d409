import SourceSearch.Json.Value
import SourceSearch.Toml.Basic

/-!
# Reading TOML

A document is a sequence of lines: comments, headers of tables, and keys with values.  Every reader
takes the rest of the input and gives what it read together with what is left.
-/

namespace SourceSearch
namespace Toml

/-- What a reader gives: a value and the rest of the input. -/
abbrev Reader (α : Type) := List Char → Option (α × List Char)

/-- Blanks within a line. -/
def isBlank (c : Char) : Bool := c == ' ' || c == '\t'

/-- The input after blanks. -/
def skipBlank (input : List Char) : List Char := input.dropWhile isBlank

/-- A character of a comment. -/
def isCommentChar (c : Char) : Bool :=
  c == '\t' || (0x20 ≤ c.toNat && c.toNat ≤ 0x7E) || 0x80 ≤ c.toNat

/-- The input after a line break. -/
def newLine? : List Char → Option (List Char)
  | '\n' :: rest => some rest
  | '\r' :: '\n' :: rest => some rest
  | _ => none

/-- The input after a comment, if there is one. -/
def skipComment : List Char → List Char
  | '#' :: rest => rest.dropWhile isCommentChar
  | input => input

/-- The input after the end of a line: blanks, a comment, and a break or the end of the input. -/
def endOfLine? (input : List Char) : Option (List Char) :=
  match skipComment (skipBlank input) with
  | [] => some []
  | rest => newLine? rest

/-- The value of a hexadecimal digit. -/
def hexValue? (c : Char) : Option Nat :=
  if '0' ≤ c ∧ c ≤ '9' then some (c.toNat - '0'.toNat)
  else if 'a' ≤ c ∧ c ≤ 'f' then some (c.toNat - 'a'.toNat + 10)
  else if 'A' ≤ c ∧ c ≤ 'F' then some (c.toNat - 'A'.toNat + 10)
  else none

/-- The character with a code point given in hexadecimal, if there is one. -/
def charOfHex? (digits : List Char) : Option Char := do
  let values ← digits.mapM hexValue?
  let point := values.foldl (fun value digit => 16 * value + digit) 0
  if h : point.isValidChar then some (Char.ofNatAux point h) else none

/-- The character of a one-letter escape. -/
def letterEscape? : Char → Option Char
  | 'b' => some '\x08'
  | 't' => some '\t'
  | 'n' => some '\n'
  | 'f' => some '\x0C'
  | 'r' => some '\r'
  | '"' => some '"'
  | '\\' => some '\\'
  | _ => none

/-- Put a character in front of what a reader gave. -/
def before (c : Char) (result : Option (List Char × List Char)) :
    Option (List Char × List Char) :=
  result.map fun (read, rest) => (c :: read, rest)

/-- The rest of a text between double quotes.  In a long text, between three of them, line breaks
are admitted and a backslash at the end of a line drops the blanks and breaks after it, which is
what `skip` stands for. -/
def readBasic (long : Bool) (skip : Bool) : Reader (List Char)
  | [] => none
  | '"' :: rest =>
      if !long then some ([], rest)
      else match rest with
        | '"' :: '"' :: '"' :: '"' :: rest => some (['"', '"'], rest)
        | '"' :: '"' :: '"' :: rest => some (['"'], rest)
        | '"' :: '"' :: rest => some ([], rest)
        | rest => before '"' (readBasic long false rest)
  | '\\' :: rest =>
      if long && (newLine? (skipBlank rest)).isSome then readBasic long true rest
      else match rest with
        | 'u' :: a :: b :: c :: d :: rest => do
            let char ← charOfHex? [a, b, c, d]
            before char (readBasic long false rest)
        | 'U' :: a :: b :: c :: d :: e :: f :: g :: h :: rest => do
            let char ← charOfHex? [a, b, c, d, e, f, g, h]
            before char (readBasic long false rest)
        | letter :: rest => do
            let char ← letterEscape? letter
            before char (readBasic long false rest)
        | [] => none
  | '\r' :: rest =>
      match rest with
      | '\n' :: rest =>
          if !long then none
          else if skip then readBasic long skip rest
          else before '\r' (before '\n' (readBasic long false rest))
      | _ => none
  | c :: rest =>
      if skip && (isBlank c || c == '\n') then readBasic long skip rest
      else if isCommentChar c || (long && c == '\n') then before c (readBasic long false rest)
      else none

/-- The rest of a text between single quotes, or between three of them. -/
def readLiteral (long : Bool) : Reader (List Char)
  | [] => none
  | '\'' :: rest =>
      if !long then some ([], rest)
      else match rest with
        | '\'' :: '\'' :: '\'' :: '\'' :: rest => some (['\'', '\''], rest)
        | '\'' :: '\'' :: '\'' :: rest => some (['\''], rest)
        | '\'' :: '\'' :: rest => some ([], rest)
        | rest => before '\'' (readLiteral long rest)
  | '\r' :: rest =>
      match rest with
      | '\n' :: rest =>
          if long then before '\r' (before '\n' (readLiteral long rest)) else none
      | _ => none
  | c :: rest =>
      if isCommentChar c || (long && c == '\n') then before c (readLiteral long rest) else none

/-- A line break at the start of a long text does not belong to it. -/
def skipNewLine (input : List Char) : List Char := (newLine? input).getD input

/-- A text value, of any of its four forms. -/
def readText : Reader String
  | '"' :: '"' :: '"' :: rest =>
      (readBasic true false (skipNewLine rest)).map fun (read, rest) => (String.ofList read, rest)
  | '"' :: rest =>
      (readBasic false false rest).map fun (read, rest) => (String.ofList read, rest)
  | '\'' :: '\'' :: '\'' :: rest =>
      (readLiteral true (skipNewLine rest)).map fun (read, rest) => (String.ofList read, rest)
  | '\'' :: rest => (readLiteral false rest).map fun (read, rest) => (String.ofList read, rest)
  | _ => none

/-- A character of a bare key. -/
def isKeyChar (c : Char) : Bool :=
  ('a' ≤ c && c ≤ 'z') || ('A' ≤ c && c ≤ 'Z') || ('0' ≤ c && c ≤ '9') || c == '-' || c == '_'

/-- One part of a key: bare, or a text on one line. -/
def readKeyPart : Reader String
  | '"' :: rest =>
      (readBasic false false rest).map fun (read, rest) => (String.ofList read, rest)
  | '\'' :: rest => (readLiteral false rest).map fun (read, rest) => (String.ofList read, rest)
  | input =>
      let key := input.takeWhile isKeyChar
      if key.isEmpty then none else some (String.ofList key, input.dropWhile isKeyChar)

/-- A key: parts joined by dots, with blanks around them. -/
def readKeyWithin : Nat → Reader (List String)
  | 0, _ => none
  | fuel + 1, input => do
      let (part, rest) ← readKeyPart (skipBlank input)
      match skipBlank rest with
      | '.' :: rest =>
          let (parts, rest) ← readKeyWithin fuel rest
          return (part :: parts, rest)
      | rest => return ([part], rest)

/-- How deep values and keys may be nested. -/
def maxDepth : Nat := 80

/-- A key of admitted length. -/
def readKey (input : List Char) : Option (List String × List Char) := do
  let (parts, rest) ← readKeyWithin input.length input
  if parts.length < maxDepth then some (parts, rest) else none

/-- A decimal digit. -/
def isDigit (c : Char) : Bool := '0' ≤ c && c ≤ '9'

/-- Digits that satisfy `p`, with single underscores between them.  An underscore elsewhere is
refused; `first` says that no digit has been read yet. -/
def readDigits (p : Char → Bool) (first : Bool) : Reader (List Char)
  | [] => if first then none else some ([], [])
  | c :: rest =>
      if p c then before c (readDigits p false rest)
      else if first then none
      else if c = '_' then
        match rest with
        | d :: rest => if p d then before d (readDigits p false rest) else none
        | [] => none
      else some ([], c :: rest)

/-- The sign of a number, if it has one. -/
def readSign : List Char → List Char × List Char
  | '+' :: rest => ([], rest)
  | '-' :: rest => (['-'], rest)
  | input => ([], input)

/-- A decimal number without fraction: zero, or digits that do not begin with zero. -/
def readDecimal : Reader (List Char)
  | '0' :: rest => some (['0'], rest)
  | input => readDigits isDigit true input

/-- The number of a list of digits. -/
def valueOfDigits (base : Nat) (digits : List Char) : Nat :=
  digits.foldl (fun value digit => base * value + (hexValue? digit).getD 0) 0

/-- An integer in the range of sixty-four bits. -/
def integer? (value : Int) : Option Toml :=
  if -9223372036854775808 ≤ value ∧ value ≤ 9223372036854775807 then some (.integer value) else none

/-- An integer in another base than ten. -/
def readBased (base : Nat) (input : List Char) : Option (Toml × List Char) := do
  let isBaseDigit (c : Char) : Bool := (hexValue? c).any (· < base)
  let (digits, rest) ← readDigits isBaseDigit true input
  let value ← integer? (valueOfDigits base digits)
  return (value, rest)

/-- The fraction of a number, if a point follows. -/
def readFraction : Reader (List Char)
  | '.' :: rest => before '.' (readDigits isDigit true rest)
  | input => some ([], input)

/-- The exponent of a number, if its letter follows. -/
def readExponent : Reader (List Char)
  | c :: rest =>
      if c = 'e' ∨ c = 'E' then
        let (sign, rest) := readSign rest
        (readDigits isDigit true rest).map fun (digits, rest) => (c :: sign ++ digits, rest)
      else some ([], c :: rest)
  | [] => some ([], [])

/-- A decimal number, or one of the special ones. -/
def readNumber (input : List Char) : Option (Toml × List Char) := do
  let (sign, input) := readSign input
  match input with
  | 'i' :: 'n' :: 'f' :: rest => return (.float, rest)
  | 'n' :: 'a' :: 'n' :: rest => return (.float, rest)
  | _ =>
      let (whole, input) ← readDecimal input
      let (fraction, input) ← readFraction input
      let (exponent, input) ← readExponent input
      let written := sign ++ whole ++ fraction ++ exponent
      if fraction.isEmpty && exponent.isEmpty then
        let magnitude : Int := valueOfDigits 10 whole
        let value ← integer? (if sign.isEmpty then magnitude else -magnitude)
        return (value, input)
      else if sign.isEmpty && Json.isTooLarge (written.map Json.byte) then none
      else return (.float, input)

/-- A number of `count` digits between `low` and `high`. -/
def readFixed (count low high : Nat) (input : List Char) : Option (Nat × List Char) :=
  let digits := input.take count
  let value := valueOfDigits 10 digits
  if digits.length = count ∧ digits.all isDigit ∧ low ≤ value ∧ value ≤ high then
    some (value, input.drop count)
  else none

/-- The input after a given character. -/
def expect (c : Char) : List Char → Option (List Char)
  | d :: rest => if c = d then some rest else none
  | [] => none

/-- The number of days of a month. -/
def daysOf (year month : Nat) : Nat :=
  if month = 2 then
    if year % 4 = 0 ∧ (year % 100 ≠ 0 ∨ year % 400 = 0) then 29 else 28
  else if month ∈ [4, 6, 9, 11] then 30 else 31

/-- The input after a date. -/
def readDate (input : List Char) : Option (List Char) := do
  let (year, rest) ← readFixed 4 0 9999 input
  let rest ← expect '-' rest
  let (month, rest) ← readFixed 2 1 12 rest
  let rest ← expect '-' rest
  let (_, rest) ← readFixed 2 1 (daysOf year month) rest
  return rest

/-- The input after a time of day, which may have a fraction of a second. -/
def readTime (input : List Char) : Option (List Char) := do
  let (_, rest) ← readFixed 2 0 23 input
  let rest ← expect ':' rest
  let (_, rest) ← readFixed 2 0 59 rest
  let rest ← expect ':' rest
  let (_, rest) ← readFixed 2 0 60 rest
  match rest with
  | '.' :: d :: digits => if isDigit d then some (digits.dropWhile isDigit) else some rest
  | _ => some rest

/-- The input after the offset of a time from the world's, if there is one. -/
def readOffset (input : List Char) : Option (List Char) :=
  match input with
  | c :: rest =>
      if c = 'Z' ∨ c = 'z' then some rest
      else if c = '+' ∨ c = '-' then do
        let (_, rest) ← readFixed 2 0 23 rest
        let rest ← expect ':' rest
        let (_, rest) ← readFixed 2 0 59 rest
        return rest
      else some input
  | [] => some []

/-- The input after a date with or without a time, or a time alone. -/
def readMoment (input : List Char) : Option (List Char) :=
  match readDate input with
  | none => readTime input
  | some (c :: rest) =>
      if c = 'T' ∨ c = 't' ∨ c = ' ' then
        match readTime rest with
        | some rest => readOffset rest
        | none => some (c :: rest)
      else some (c :: rest)
  | some [] => some []

/-- A number, a date or a time. -/
def readScalar (input : List Char) : Option (Toml × List Char) :=
  match readMoment input with
  | some rest => some (.moment, rest)
  | none =>
      match input with
      | '0' :: 'x' :: rest => readBased 16 rest
      | '0' :: 'o' :: rest => readBased 8 rest
      | '0' :: 'b' :: rest => readBased 2 rest
      | _ => readNumber input

/-- The input after blanks, comments and line breaks, as they may stand in a list. -/
def skipLines : Nat → List Char → List Char
  | 0, input => input
  | fuel + 1, input =>
      let rest := skipComment (skipBlank input)
      match newLine? rest with
      | some rest => skipLines fuel rest
      | none => if (skipBlank input).head? = some '#' then skipBlank input else rest

mutual

/-- A value; `depth` more lists and tables may be opened in it. -/
def readValue : (fuel depth : Nat) → Reader Toml
  | 0, _, _ => none
  | fuel + 1, depth, input =>
      match input with
      | '"' :: _ => (readText input).map fun (value, rest) => (.text value, rest)
      | '\'' :: _ => (readText input).map fun (value, rest) => (.text value, rest)
      | 't' :: 'r' :: 'u' :: 'e' :: rest => some (.boolean true, rest)
      | 'f' :: 'a' :: 'l' :: 's' :: 'e' :: rest => some (.boolean false, rest)
      | '[' :: rest =>
          if depth = 0 then none
          else (readItems fuel (depth - 1) rest).map fun (items, rest) => (.array items, rest)
      | '\x7b' :: rest =>
          if depth = 0 then none
          else match skipBlank rest with
            | '\x7d' :: rest => some (.inline false [], rest)
            | rest =>
                (readMembers fuel (depth - 1) [] rest).map fun (entries, rest) =>
                  (.inline false entries, rest)
      | _ => readScalar input

/-- The items of a list up to its closing bracket; a comma may follow the last one. -/
def readItems : (fuel depth : Nat) → Reader (List Toml)
  | 0, _, _ => none
  | fuel + 1, depth, input =>
      match skipLines input.length input with
      | ']' :: rest => some ([], rest)
      | start => do
          let (item, rest) ← readValue fuel depth start
          match skipLines rest.length rest with
          | ']' :: rest => return ([item], rest)
          | ',' :: rest =>
              let (items, rest) ← readItems fuel depth rest
              return (item :: items, rest)
          | _ => none

/-- The members of a table within a line up to its closing brace, added to those before them. -/
def readMembers : (fuel depth : Nat) → Entries → Reader Entries
  | 0, _, _, _ => none
  | fuel + 1, depth, entries, input => do
      let (key, rest) ← readKey input
      let rest ← expect '=' rest
      let (value, rest) ← readValue fuel depth (skipBlank rest)
      let entries ← addInline value (key.getLast?.getD "") key.dropLast entries
      match skipBlank rest with
      | '\x7d' :: rest => return (entries, rest)
      | ',' :: rest => readMembers fuel depth entries rest
      | _ => none

end

/-- A line that begins with a bracket: the header of a table. -/
def readHeader (draft : Draft) (input : List Char) : Option (Draft × List Char) :=
  match input with
  | '[' :: rest => do
      let (key, rest) ← readKey rest
      let rest ← expect ']' rest
      let rest ← expect ']' rest
      let rest ← endOfLine? rest
      let draft ← draft.openRepeated key
      return (draft, rest)
  | _ => do
      let (key, rest) ← readKey input
      let rest ← expect ']' rest
      let rest ← endOfLine? rest
      let draft ← draft.openTable key
      return (draft, rest)

/-- A line with a key and its value. -/
def readEntry (draft : Draft) (input : List Char) : Option (Draft × List Char) := do
  let (key, rest) ← readKey input
  let rest ← expect '=' rest
  let (value, rest) ← readValue (2 * input.length) (maxDepth - 1) (skipBlank rest)
  let rest ← endOfLine? rest
  let draft ← draft.addValue key.dropLast (key.getLast?.getD "") value
  return (draft, rest)

/-- The lines of a document. -/
def readLines : Nat → Draft → List Char → Option Draft
  | 0, _, _ => none
  | fuel + 1, draft, input =>
      match skipBlank input with
      | [] => some draft
      | '[' :: rest => do
          let (draft, rest) ← readHeader draft rest
          readLines fuel draft rest
      | c :: rest =>
          if c = '#' ∨ c = '\n' ∨ c = '\r' then do
            let rest ← endOfLine? (c :: rest)
            readLines fuel draft rest
          else do
            let (draft, rest) ← readEntry draft (c :: rest)
            readLines fuel draft rest

/-- The entries of the document that a text spells.  A byte order mark in front is passed over. -/
def parse (text : String) : Option Entries := do
  let input := match text.toList with
    | '\uFEFF' :: rest => rest
    | input => input
  let draft ← readLines (input.length + 1) .start input
  draft.finish

end Toml
end SourceSearch
