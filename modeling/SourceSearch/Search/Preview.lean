import SourceSearch.Search.Details

/-!
# Previews
-/

namespace SourceSearch
namespace Preview

/-- The greatest number of lines in a preview. -/
def maxLines : Nat := 3

/-- A line contains a lowercased term, whatever the case. -/
def isHit (term line : String) : Bool := occursIn term (lowercase line)

/-- The first lines of a text that contain a term, trimmed, by their numbers from one on. -/
def ofText (text term : String) : Preview :=
  let numbered := (lines text).zipIdx 1
  let hits := (numbered.filter fun entry => isHit (lowercase term) entry.1).take maxLines
  .ofList (hits.map fun (line, number) => (number, trim line))

end Preview
end SourceSearch
