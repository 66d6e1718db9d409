import SourceSearch.Words

/-!
# Queries

A query is a tree over words, phrases and class tags.  The leaves that every match has to satisfy,
and those that no match may satisfy, are the ones reached without passing an alternative; what is
nested in an exclusion beyond one level constrains nothing.
-/

namespace SourceSearch

/-- A query. -/
inductive Query where
  /-- No constraint. -/
  | empty
  /-- Some word contains the text. -/
  | text (word : String)
  /-- Some word contains the quoted text. -/
  | phrase (words : String)
  /-- A class tag contains the value. -/
  | tag (key value : String)
  /-- Every part holds. -/
  | all (parts : List Query)
  /-- Some part holds. -/
  | any (parts : List Query)
  /-- The part holds. -/
  | including (part : Query)
  /-- The part does not hold. -/
  | excluding (part : Query)
  /-- A construct that cannot be evaluated. -/
  | unsupported (kind : String)
  deriving Inhabited

namespace Query

/-- The direct parts of a query. -/
def parts : Query → List Query
  | all parts => parts
  | any parts => parts
  | including part => [part]
  | excluding part => [part]
  | _ => []

/-- The printed form of a list of parts under a heading. -/
def renderParts (heading : String) (printed : List String) : String :=
  s!"[ '{heading}'" ++ String.join (printed.map (", " ++ ·)) ++ " ]"

mutual

/-- The printed form of a query, which also names it in the query cache. -/
def render : Query → String
  | empty => "[ 'EMPTY' ]"
  | text word => s!"[ 'TEXT', '{word}' ]"
  | phrase words => s!"[ 'EXACT', '{words}' ]"
  | tag key value => s!"[ 'METADATA', '{key}':'{value}' ]"
  | all parts => renderParts "AND" (renderAll parts)
  | any parts => renderParts "OR" (renderAll parts)
  | including part => s!"[ 'INCLUDING', {render part} ]"
  | excluding part => s!"[ 'EXCLUDING', {render part} ]"
  | unsupported kind => s!"[ 'UNSUPPORTED', '{kind}' ]"

/-- The printed forms of the parts of a query. -/
def renderAll : List Query → List String
  | [] => []
  | part :: rest => render part :: renderAll rest

end

mutual

/-- The leaves that hold of every match. -/
def requiredLeaves : Query → List Query
  | text word => [text word]
  | phrase words => [phrase words]
  | tag key value => [tag key value]
  | all parts => requiredLeavesOf parts
  | including part => requiredLeaves part
  | _ => []

/-- The leaves that hold of every match of all parts. -/
def requiredLeavesOf : List Query → List Query
  | [] => []
  | part :: rest => requiredLeaves part ++ requiredLeavesOf rest

end

mutual

/-- The leaves that hold of no match. -/
def excludedLeaves : Query → List Query
  | all parts => excludedLeavesOf parts
  | including part => excludedLeaves part
  | excluding part => requiredLeaves part
  | _ => []

/-- The leaves that hold of no match of all parts. -/
def excludedLeavesOf : List Query → List Query
  | [] => []
  | part :: rest => excludedLeaves part ++ excludedLeavesOf rest

end

/-- The lowercased word of a leaf. -/
def leafWord? : Query → Option String
  | text word => some (lowercase word)
  | phrase words => some (lowercase words)
  | _ => none

/-- The class tag of a leaf with its lowercased value. -/
def leafTag? : Query → Option (String × String)
  | tag key value => some (key, lowercase value)
  | _ => none

/-- The lowercased words that every match contains. -/
def requiredWords (query : Query) : List String := query.requiredLeaves.filterMap leafWord?

/-- The lowercased words that no match contains. -/
def excludedWords (query : Query) : List String := query.excludedLeaves.filterMap leafWord?

/-- The class tags that every match carries. -/
def requiredTags (query : Query) : List (String × String) :=
  query.requiredLeaves.filterMap leafTag?

/-- The class tags that no match carries. -/
def excludedTags (query : Query) : List (String × String) :=
  query.excludedLeaves.filterMap leafTag?

mutual

/-- A class tag occurs anywhere in the query. -/
def mentionsTag : Query → Bool
  | tag _ _ => true
  | all parts => anyMentionsTag parts
  | any parts => anyMentionsTag parts
  | including part => mentionsTag part
  | excluding part => mentionsTag part
  | _ => false

/-- A class tag occurs in one of the parts. -/
def anyMentionsTag : List Query → Bool
  | [] => false
  | part :: rest => mentionsTag part || anyMentionsTag rest

end

end Query
end SourceSearch
