/-!
# File name patterns

A pattern is matched against the bytes of a whole name.  `?` stands for one byte, `*` for any
number of them, `[a-z]` and `[!a-z]` for one byte of a class, and `{a,b}` for one of several
patterns; a backslash takes away the meaning of the next sign.  `**` between slashes stands for any
number of folders.
-/

namespace SourceSearch

/-- A part of a pattern. -/
inductive Glob where
  /-- The bytes of one character. -/
  | literal (bytes : List UInt8)
  /-- Any one byte. -/
  | anyByte
  /-- Any number of bytes. -/
  | star
  /-- Nothing, or folders at the front. -/
  | foldersBefore
  /-- A slash and anything after it. -/
  | foldersAfter
  /-- A slash, or folders between slashes. -/
  | foldersBetween
  /-- One byte within, or outside, closed ranges of characters. -/
  | byteClass (negated : Bool) (ranges : List (Char × Char))
  /-- One of several patterns. -/
  | oneOf (branches : List (List Glob))
  deriving Inhabited

namespace Glob

/-! ## Reading patterns -/

/-- The UTF-8 bytes of a character. -/
def charBytes (c : Char) : List UInt8 := String.utf8EncodeChar c

/-- What the reader is in the middle of. -/
inductive Mode where
  /-- Between parts. -/
  | plain
  /-- After a backslash. -/
  | escaped
  /-- After one star, which follows the character `before`. -/
  | star (before : Option Char)
  /-- After two stars, which follow the character `before`. -/
  | stars (before : Option Char)
  /-- After the bracket that opens a class. -/
  | opening
  /-- In a class: the ranges so far, last one first; `first` before the first character, `range`
  after a hyphen that may open a range. -/
  | within (negated first range : Bool) (ranges : List (Char × Char))

/-- The parts read so far: one list for each alternative that is open, innermost first, the parts
of each in reverse; and for each open brace the number of lists outside of it. -/
structure Draft where
  /-- The parts of the alternatives. -/
  branches : List (List Glob)
  /-- The open braces. -/
  braces : List Nat

namespace Draft

/-- Nothing read yet. -/
def start : Draft := ⟨[[]], []⟩

/-- Add a part to the innermost alternative. -/
def push (draft : Draft) (part : Glob) : Draft :=
  match draft.branches with
  | branch :: outer => { draft with branches := (part :: branch) :: outer }
  | [] => draft

/-- The parts of the innermost alternative, last one first. -/
def innermost (draft : Draft) : List Glob := draft.branches.headD []

/-- Replace the last part of the innermost alternative. -/
def replaceLast (draft : Draft) (change : Glob → Glob) : Draft :=
  match draft.branches with
  | (part :: branch) :: outer => { draft with branches := (change part :: branch) :: outer }
  | _ => draft

/-- Open a brace with its first alternative. -/
def openBrace (draft : Draft) : Draft :=
  ⟨[] :: draft.branches, draft.branches.length :: draft.braces⟩

/-- Close the innermost brace, if one is open. -/
def closeBrace (draft : Draft) : Option Draft :=
  match draft.braces with
  | [] => none
  | outside :: braces =>
      let inner := draft.branches.take (draft.branches.length - outside)
      let branches := (inner.map List.reverse).reverse
      some ((⟨draft.branches.drop (draft.branches.length - outside), braces⟩ : Draft).push
        (.oneOf branches))

/-- A comma: the next alternative within braces, itself elsewhere. -/
def comma (draft : Draft) : Draft :=
  if draft.braces.isEmpty then draft.push (.literal (charBytes ','))
  else { draft with branches := [] :: draft.branches }

/-- The parts of a complete pattern: every brace has to be closed. -/
def finish (draft : Draft) : Option (List Glob) :=
  match draft.branches with
  | [branch] => some branch.reverse
  | _ => none

/-- Two stars that are no folders of their own. -/
def pushStars (draft : Draft) : Draft := (draft.push .star).push .star

end Draft

/-- Close a range with its last character, unless that is below the first. -/
def closeRange? (last : Char) : List (Char × Char) → Option (List (Char × Char))
  | (low, _) :: rest => if last < low then none else some ((low, last) :: rest)
  | [] => none

/-- The reader of patterns. -/
structure Reader where
  /-- What it is in the middle of. -/
  mode : Mode := .plain
  /-- The character before. -/
  previous : Option Char := none
  /-- What it has read. -/
  draft : Draft := .start

namespace Draft

/-- Stars after the character `before` stand where a part of a path can begin. -/
def beginsPart (draft : Draft) (before : Option Char) : Bool :=
  before == some '/' ||
    (1 < draft.branches.length && (before == some ',' || before == some '\x7b'))

/-- Two stars at the end of a pattern or alternative that stand for folders: the slash before them
is a part of what they stand for. -/
def pushFoldersAfter (draft : Draft) : Draft :=
  draft.replaceLast fun
    | .foldersBefore => .foldersBefore
    | _ => .foldersAfter

/-- Two stars between slashes. -/
def pushFoldersBetween (draft : Draft) : Draft :=
  draft.replaceLast fun
    | .foldersBefore => .foldersBefore
    | .foldersAfter => .foldersAfter
    | _ => .foldersBetween

end Draft

/-- Read a character between parts. -/
def readPlain (draft : Draft) (before : Option Char) (c : Char) : Option Reader :=
  let next (mode : Mode) (draft : Draft) : Option Reader := some ⟨mode, some c, draft⟩
  match c with
  | '?' => next .plain (draft.push .anyByte)
  | '*' => next (.star before) draft
  | '[' => next .opening draft
  | '\x7b' => next .plain draft.openBrace
  | '\x7d' => draft.closeBrace.bind (next .plain)
  | ',' => next .plain draft.comma
  | '\\' => next .escaped draft
  | c => next .plain (draft.push (.literal (charBytes c)))

/-- Read a character after two stars.  They stand for folders only where a part of a path begins
and ends; the slash after them is then a part of what they stand for. -/
def readStars (draft : Draft) (before : Option Char) (c : Char) : Option Reader :=
  if draft.innermost.isEmpty ∧ c = '/' then
    some ⟨.plain, some c, draft.push .foldersBefore⟩
  else if draft.innermost.isEmpty ∨ ¬ draft.beginsPart before then
    readPlain draft.pushStars (some '*') c
  else if c = '/' then some ⟨.plain, some c, draft.pushFoldersBetween⟩
  else if 1 < draft.branches.length ∧ (c = ',' ∨ c = '\x7d') then
    readPlain draft.pushFoldersAfter (some '*') c
  else readPlain draft.pushStars (some '*') c

/-- Read a character of a class.  A bracket or hyphen at its front stands for itself. -/
def readWithin (draft : Draft) (negated first range : Bool) (ranges : List (Char × Char))
    (c : Char) : Option Reader :=
  let continued (range : Bool) (ranges : List (Char × Char)) : Option Reader :=
    some ⟨.within negated false range ranges, some c, draft⟩
  if c = ']' ∧ ¬ first then
    let ranges := if range then ('-', '-') :: ranges else ranges
    some ⟨.plain, some c, draft.push (.byteClass negated ranges.reverse)⟩
  else if c = '-' ∧ ¬ first ∧ ¬ range then continued true ranges
  else if range then (closeRange? c ranges).bind (continued false)
  else continued false ((c, c) :: ranges)

namespace Reader

/-- Read one character. -/
def step (reader : Reader) (c : Char) : Option Reader :=
  let draft := reader.draft
  match reader.mode with
  | .plain => readPlain draft reader.previous c
  | .escaped => some ⟨.plain, some c, draft.push (.literal (charBytes c))⟩
  | .star before =>
      if c = '*' then some ⟨.stars before, some c, draft⟩
      else readPlain (draft.push .star) (some '*') c
  | .stars before => readStars draft before c
  | .opening =>
      if c = '!' ∨ c = '^' then some ⟨.within true true false [], some c, draft⟩
      else readWithin draft false true false [] c
  | .within negated first range ranges => readWithin draft negated first range ranges c

/-- The parts of a pattern that ends here: nothing may be left open. -/
def finish (reader : Reader) : Option (List Glob) :=
  let draft := reader.draft
  match reader.mode with
  | .plain => draft.finish
  | .star _ => (draft.push .star).finish
  | .stars before =>
      if draft.innermost.isEmpty then (draft.push .foldersBefore).finish
      else if draft.beginsPart before then draft.pushFoldersAfter.finish
      else draft.pushStars.finish
  | _ => none

end Reader

/-- Parse a pattern, if it is well formed. -/
def parse (pattern : String) : Option (List Glob) :=
  (pattern.toList.foldlM Reader.step {}).bind Reader.finish

/-! ## Matching -/

/-- The bytes that a range of characters admits, as closed ranges.  Characters of several bytes
count byte by byte, and a range runs from the last byte of its first character to the first byte of
its last. -/
def byteRanges : Char × Char → List (UInt8 × UInt8)
  | (low, high) =>
      let single (b : UInt8) : UInt8 × UInt8 := (b, b)
      if low = high then (charBytes low).map single
      else
        (charBytes low).dropLast.map single ++
          [((charBytes low).getLast?.getD 0, (charBytes high).headD 0)] ++
          (charBytes high).tail.map single

/-- The byte lies in one of the ranges. -/
def inClass (ranges : List (Char × Char)) (byte : UInt8) : Bool :=
  (ranges.flatMap byteRanges).any fun (low, high) => low ≤ byte && byte ≤ high

/-- Every way to drop bytes from the front, the input itself included. -/
def suffixes : List UInt8 → List (List UInt8)
  | [] => [[]]
  | whole@(_ :: rest) => whole :: suffixes rest

/-- What follows each slash of the input. -/
def afterSlashes : List UInt8 → List (List UInt8)
  | [] => []
  | byte :: rest => (if byte = 0x2F then [rest] else []) ++ afterSlashes rest

/-- What follows a slash at the front. -/
def afterSlash : List UInt8 → List (List UInt8)
  | byte :: rest => if byte = 0x2F then [rest] else []
  | [] => []

mutual

/-- The part stands for no signs at all: a choice without alternatives that have any. -/
def isVoid : Glob → Bool
  | oneOf branches => areVoid branches
  | _ => false

/-- All parts of a pattern stand for no signs. -/
def isVoidPattern : List Glob → Bool
  | [] => true
  | part :: rest => isVoid part && isVoidPattern rest

/-- All patterns stand for no signs. -/
def areVoid : List (List Glob) → Bool
  | [] => true
  | branch :: rest => isVoidPattern branch && areVoid rest

end

mutual

/-- What can be left of the input after a part has taken its share from the front. -/
def remainders : Glob → List UInt8 → List (List UInt8)
  | literal bytes, input =>
      if bytes.isPrefixOf input then [input.drop bytes.length] else []
  | anyByte, input => if input.isEmpty then [] else [input.tail]
  | star, input => suffixes input
  | foldersBefore, input => input :: afterSlash input ++ afterSlashes input
  | foldersAfter, input => (afterSlash input).flatMap suffixes
  | foldersBetween, input => afterSlash input ++ (afterSlash input).flatMap afterSlashes
  | byteClass negated ranges, input =>
      match input with
      | byte :: rest => if inClass ranges byte != negated then [rest] else []
      | [] => []
  | oneOf branches, input =>
      if areVoid branches then [input] else remaindersOfAny branches input

/-- What can be left after all parts of a pattern. -/
def remaindersOf : List Glob → List UInt8 → List (List UInt8)
  | [], input => [input]
  | part :: rest, input => ((remainders part input).eraseDups.flatMap (remaindersOf rest)).eraseDups

/-- What can be left after one of several patterns; alternatives without signs do not count. -/
def remaindersOfAny : List (List Glob) → List UInt8 → List (List UInt8)
  | [], _ => []
  | branch :: rest, input =>
      (if isVoidPattern branch then [] else remaindersOf branch input) ++
        remaindersOfAny rest input

end

/-- The pattern matches the whole name.  Folders alone match every name. -/
def admits (pattern : List Glob) (name : String) : Bool :=
  match pattern with
  | [.foldersBefore] => true
  | pattern => (remaindersOf pattern name.toUTF8.data.toList).any List.isEmpty

end Glob
end SourceSearch
