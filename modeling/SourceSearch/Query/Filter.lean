import SourceSearch.Failure
import SourceSearch.Query.Basic
import SourceSearch.Trigram

/-!
# Trigram filters

A query is reduced to trigrams that every match contains.  The filter admits more than the query,
so what passes it is verified afterwards; alternatives have no filter.
-/

namespace SourceSearch

/-- The trigrams that every match of a query contains. -/
inductive TrigramFilter where
  /-- No trigram is required. -/
  | unrestricted
  /-- Trigrams of the text and of the class tags. -/
  | trigrams (content metadata : SortedSet Trigram)
  deriving DecidableEq

namespace TrigramFilter

/-- The trigrams required of the text. -/
def content : TrigramFilter → SortedSet Trigram
  | unrestricted => .empty
  | trigrams content _ => content

/-- The trigrams required of the class tags. -/
def metadata : TrigramFilter → SortedSet Trigram
  | unrestricted => .empty
  | trigrams _ metadata => metadata

/-- The filter requires nothing. -/
def isEmpty (filter : TrigramFilter) : Bool := filter.content.isEmpty && filter.metadata.isEmpty

/-- The filter that requires what both require. -/
def both (a b : TrigramFilter) : TrigramFilter :=
  trigrams (a.content.union b.content) (a.metadata.union b.metadata)

end TrigramFilter

namespace Query

/-- Why alternatives cannot be filtered. -/
def alternativeReason : String := "OR queries cannot be compiled into a trigram filter"

/-- Why a construct cannot be filtered. -/
def unsupportedReason (kind : String) : String := s!"node type '{kind}' is not supported"

mutual

/-- Reduce a query to the trigrams of its matches. -/
def filter : Query → Except Failure TrigramFilter
  | empty => .ok .unrestricted
  | text word => .ok (.trigrams (Trigram.ofWord (lowercase word)) .empty)
  | phrase words => .ok (.trigrams (Trigram.ofWord (lowercase words)) .empty)
  | tag _ value => .ok (.trigrams .empty (Trigram.ofWord (lowercase value)))
  | all parts => filterAll parts (.trigrams .empty .empty)
  | any _ => .error (.unsupportedQuery alternativeReason)
  | excluding _ => .ok .unrestricted
  | including part => filter part
  | unsupported kind => .error (.unsupportedQuery (unsupportedReason kind))

/-- Reduce all parts of a query, in addition to a filter found before; the first part that has no
filter decides the failure. -/
def filterAll : List Query → TrigramFilter → Except Failure TrigramFilter
  | [], found => .ok found
  | part :: rest, found =>
      match filter part with
      | .ok compiled => filterAll rest (found.both compiled)
      | .error failure => .error failure

end

end Query
end SourceSearch
