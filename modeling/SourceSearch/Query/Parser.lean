import SourceSearch.Query.Basic

/-!
# Reading queries

A query text is a sequence of terms, all of which have to hold; terms joined by `OR` form one
alternative.  A term is a quoted phrase, a word, or a class tag `key:value`, with `-` or `+` in
front to exclude or include it.  Every text is a query: an open quote ends at the end of the text,
and an `OR` that joins nothing is passed over.
-/

namespace SourceSearch
namespace Query

/-- A piece of a query text. -/
inductive Token where
  /-- A run of characters that are not blank; a prefixed phrase may hold blanks. -/
  | word (text : List Char)
  /-- The trimmed text between two quotes. -/
  | phrase (text : List Char)
  /-- The word `OR`. -/
  | or
  deriving DecidableEq

/-- What the scanner is in the middle of; what it has read comes last character first. -/
inductive Scan where
  /-- Between tokens. -/
  | between
  /-- In a phrase. -/
  | phrase (read : List Char)
  /-- In a word. -/
  | word (read : List Char)
  /-- In a phrase after `-` or `+`. -/
  | prefixed (read : List Char)

/-- The token of a word. -/
def wordToken (read : List Char) : Token :=
  if read = ['R', 'O'] then .or else .word read.reverse

/-- The token of a phrase; a blank phrase is none. -/
def phraseToken (read : List Char) : List Token :=
  let text := Text.trim read.reverse
  if text.isEmpty then [] else [.phrase text]

/-- The tokens of the rest of a query text. -/
def scan : Scan → List Char → List Token
  | .between, [] => []
  | .between, c :: rest =>
      if Text.isBlank c then scan .between rest
      else if c = '"' then scan (.phrase []) rest
      else scan (.word [c]) rest
  | .phrase read, [] => phraseToken read
  | .phrase read, c :: rest =>
      if c = '"' then phraseToken read ++ scan .between rest
      else scan (.phrase (c :: read)) rest
  | .word read, [] => [wordToken read]
  | .word read, c :: rest =>
      if Text.isBlank c then wordToken read :: scan .between rest
      else if c = '"' ∧ (read = ['-'] ∨ read = ['+']) then scan (.prefixed (c :: read)) rest
      else scan (.word (c :: read)) rest
  | .prefixed read, [] => [.word read.reverse]
  | .prefixed read, c :: rest =>
      if c = '"' then .word read.reverse :: scan .between rest
      else scan (.prefixed (c :: read)) rest

/-- The tokens of a query text. -/
def tokensOf (input : List Char) : List Token := scan .between input

/-- A word, phrase or class tag without a sign in front. -/
def atomOf : List Char → Query
  | '"' :: rest => phrase (String.ofList (Text.dropTrailing (· == '"') rest))
  | word =>
      let key := word.takeWhile (· ≠ ':')
      let value := (word.dropWhile (· ≠ ':')).drop 1
      if key.isEmpty || value.isEmpty then text (String.ofList word)
      else tag (String.ofList key) (String.ofList value)

/-- A word with an optional sign in front; a sign alone is a word. -/
def termOf : List Char → Query
  | '-' :: c :: rest => excluding (atomOf (c :: rest))
  | '+' :: c :: rest => including (atomOf (c :: rest))
  | word => atomOf word

/-- The alternatives that the tokens spell, each as the list of its terms. -/
def groups : List Token → List (List Query)
  | [] => []
  | .or :: rest => groups rest
  | .word word :: rest => place (termOf word) rest (groups rest)
  | .phrase words :: rest => place (phrase (String.ofList words)) rest (groups rest)
where
  /-- Put a term in front of the groups of the tokens after it; an `OR` joins it to the first. -/
  place (term : Query) (rest : List Token) (later : List (List Query)) : List (List Query) :=
    match rest, later with
    | .or :: _, first :: others => (term :: first) :: others
    | _, later => [term] :: later

/-- A single item stands for itself, several are combined. -/
def combine (many : List Query → Query) : List Query → Query
  | [item] => item
  | items => many items

/-- The query that a text spells. -/
def parse (input : String) : Query :=
  match (groups (tokensOf input.toList)).map (combine any) with
  | [] => empty
  | items => combine all items

end Query
end SourceSearch
