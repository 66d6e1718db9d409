/-!
# Colours on a terminal
-/

namespace SourceSearch
namespace Style

/-- A text between the codes that switch a style on and off. -/
def coded (on off : Nat) (text : String) : String := s!"\x1b[{on}m{text}\x1b[{off}m"

/-- Bold text. -/
def bold : String → String := coded 1 0
/-- Faint text. -/
def faint : String → String := coded 2 0
/-- Red text. -/
def red : String → String := coded 31 39
/-- Green text. -/
def green : String → String := coded 32 39
/-- Yellow text. -/
def yellow : String → String := coded 33 39
/-- Bright cyan text. -/
def brightCyan : String → String := coded 96 39

/-- Blanks that fill a text up to a width, counted in characters. -/
def filling (width : Nat) (text : String) : String :=
  String.ofList (List.replicate (width - text.length) ' ')

/-- The text at the left of a field. -/
def padRight (width : Nat) (text : String) : String := text ++ filling width text

/-- The text at the right of a field. -/
def padLeft (width : Nat) (text : String) : String := filling width text ++ text

end Style
end SourceSearch
