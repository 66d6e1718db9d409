import SourceSearch.Text.Case

/-!
# Lowercasing

The full lowercase mapping of Unicode, without locale rules.  Each character is mapped on its
own, with two exceptions: capital I with a dot becomes two characters, and a capital sigma becomes
the final small sigma at the end of a word.
-/

namespace SourceSearch
namespace Text

/-- The run of `caseRuns` that holds the character. -/
def CaseRun.holds (run : CaseRun) (c : Char) : Bool :=
  run.first ≤ c.toNat && c.toNat ≤ run.last && (c.toNat - run.first) % run.step == 0

/-- The lowercase form of a character that maps to a single character. -/
def lowerChar (c : Char) : Char :=
  if c.toNat < 0x80 then c.toLower
  else match caseRuns.find? (·.holds c) with
    | some run => Char.ofNat (c.toNat + run.offset).toNat
    | none => c

/-- The first character that is not case-ignorable is a cased letter. -/
def meetsCased (text : List Char) : Bool :=
  match text.dropWhile isCaseIgnorable with
  | c :: _ => isCased c
  | [] => false

/-- Lowercase `text`, which follows the characters `before` (nearest first). -/
def lowercaseAfter : List Char → List Char → List Char
  | _, [] => []
  | before, c :: rest =>
      let lowered :=
        if c = 'Σ' then
          [if meetsCased before && !meetsCased rest then 'ς' else 'σ']
        else if c = 'İ' then ['i', '\u0307']
        else [lowerChar c]
      lowered ++ lowercaseAfter (c :: before) rest

/-- The lowercase form of a text. -/
def lowercase (text : List Char) : List Char := lowercaseAfter [] text

end Text
end SourceSearch
