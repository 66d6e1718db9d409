import SourceSearch.Digest.Bytes
import SourceSearch.Path
import SourceSearch.Text.Utf16

/-!
# Where postings lie

Every trigram has a place of its own below the folder of its namespace.  Each UTF-16 unit becomes a
token, two hexadecimal digits for ASCII and `u` with four for the rest.  The first two tokens are
nested folders and all of them joined by `_` are the stem of the file names.
-/

namespace SourceSearch
namespace Postings

/-- The last `count` hexadecimal digits of a number. -/
def hexDigitsOf : (count : Nat) → Nat → List Char
  | 0, _ => []
  | count + 1, n => hexDigitsOf count (n / 16) ++ [Digest.hexDigit (n % 16)]

/-- The token of a UTF-16 unit. -/
def unitToken (unit : Nat) : List Char :=
  if unit ≤ 0x7F then hexDigitsOf 2 unit else 'u' :: hexDigitsOf 4 unit

/-- The tokens of a trigram. -/
def tokens (trigram : String) : List String :=
  (Text.units trigram.toList).map fun unit => String.ofList (unitToken unit)

/-- The path of a trigram's files without their suffix. -/
def stem (base : Path) (trigram : String) : Path :=
  let tokens := tokens trigram
  (tokens.take 2).foldl Path.join base / "_".intercalate tokens

/-- The path of a trigram's file with a given suffix. -/
def filePath (base : Path) (trigram suffix : String) : Path :=
  (stem base trigram).withSuffix suffix

/-- The suffix of shard files, after the generation. -/
def shardSuffix : String := ".reference"

/-- The suffix of count files. -/
def countSuffix : String := ".reference_count"

/-- The file of one shard. -/
def shardFile (base : Path) (trigram : String) (generation : Nat) : Path :=
  filePath base trigram s!".{generation}{shardSuffix}"

/-- The file with the declared number of postings. -/
def countFile (base : Path) (trigram : String) : Path := filePath base trigram countSuffix

end Postings
end SourceSearch
