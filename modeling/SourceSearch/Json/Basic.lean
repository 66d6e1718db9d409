import SourceSearch.Json.Text

/-!
# JSON documents

A document is kept as it was written: texts and numbers are their written bytes.  Reading and
printing are then inverse to each other, and what a text or number stands for is decided only
where it is used.
-/

namespace SourceSearch

/-- A JSON document. -/
inductive Json where
  /-- The word `null`. -/
  | null
  /-- The words `true` and `false`. -/
  | bool (value : Bool)
  /-- A number as written. -/
  | number (written : List UInt8)
  /-- A text as written between its quotes. -/
  | text (written : List UInt8)
  /-- A list of documents. -/
  | array (items : List Json)
  /-- A list of named documents. -/
  | object (members : List (List UInt8 × Json))
  deriving Inhabited

namespace Json

/-- The bytes of ASCII characters. -/
def bytes (ascii : String) : List UInt8 := ascii.toList.map byte

/-- A text. -/
def ofText (value : String) : Json := text (escape value)

/-- A natural number in decimal. -/
def ofNat (n : Nat) : Json := number ((Nat.toDigits 10 n).map byte)

/-- A list of texts. -/
def ofTexts (values : List String) : Json := array (values.map ofText)

/-- A record: named members in a fixed order. -/
def record (members : List (String × Json)) : Json :=
  object (members.map fun (name, value) => (escape name, value))

/-- A text between quotes. -/
def quoted (written : List UInt8) : List UInt8 := byte '"' :: written ++ [byte '"']

mutual

/-- A document on one line without blanks. -/
def compact : Json → List UInt8
  | null => bytes "null"
  | bool value => bytes (if value then "true" else "false")
  | number written => written
  | text written => quoted written
  | array items => byte '[' :: compactItems items ++ [byte ']']
  | object members => byte '\x7b' :: compactMembers members ++ [byte '\x7d']

/-- The items of a list, separated by commas. -/
def compactItems : List Json → List UInt8
  | [] => []
  | [item] => compact item
  | item :: next :: rest => compact item ++ byte ',' :: compactItems (next :: rest)

/-- The members of an object, separated by commas. -/
def compactMembers : List (List UInt8 × Json) → List UInt8
  | [] => []
  | [(name, value)] => quoted name ++ byte ':' :: compact value
  | (name, value) :: next :: rest =>
      quoted name ++ byte ':' :: compact value ++ byte ',' :: compactMembers (next :: rest)

end

/-- A line break followed by two blanks for each level. -/
def newLine (level : Nat) : List UInt8 := 0x0A :: List.replicate (2 * level) 0x20

mutual

/-- A document over several lines, indented by two blanks for each level. -/
def pretty (level : Nat) : Json → List UInt8
  | null => bytes "null"
  | bool value => bytes (if value then "true" else "false")
  | number written => written
  | text written => quoted written
  | array [] => bytes "[]"
  | array items =>
      byte '[' :: prettyItems (level + 1) items ++ newLine level ++ [byte ']']
  | object [] => [byte '\x7b', byte '\x7d']
  | object members =>
      byte '\x7b' :: prettyMembers (level + 1) members ++ newLine level ++ [byte '\x7d']

/-- The items of a list, each on a line of its own. -/
def prettyItems (level : Nat) : List Json → List UInt8
  | [] => []
  | [item] => newLine level ++ pretty level item
  | item :: next :: rest =>
      newLine level ++ pretty level item ++ byte ',' :: prettyItems level (next :: rest)

/-- The members of an object, each on a line of its own. -/
def prettyMembers (level : Nat) : List (List UInt8 × Json) → List UInt8
  | [] => []
  | [(name, value)] => newLine level ++ quoted name ++ bytes ": " ++ pretty level value
  | (name, value) :: next :: rest =>
      newLine level ++ quoted name ++ bytes ": " ++ pretty level value ++
        byte ',' :: prettyMembers level (next :: rest)

end

/-- The file content that holds a document on one line. -/
def toBytes (json : Json) : ByteArray := ⟨json.compact.toArray⟩

/-- The indented text of a document. -/
def prettyText (json : Json) : String :=
  (Text.ofBytes? (json.pretty 0)).getD ""

end Json
end SourceSearch
