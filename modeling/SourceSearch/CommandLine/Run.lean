import SourceSearch.CommandLine.Arguments
import SourceSearch.CommandLine.Report
import SourceSearch.Index.Build
import SourceSearch.Query.Parser
import SourceSearch.Search.Searcher

/-!
# Running commands

A command prints something, changes the file tree, and may fail.  What was printed before a failure
stays printed.
-/

namespace SourceSearch

/-- What came of a command. -/
structure Outcome where
  /-- What was printed, in order. -/
  printed : List Printed
  /-- The failure that ended the command. -/
  failure : Option Failure := none

namespace Outcome

/-- The exit code of the program. -/
def exitCode (outcome : Outcome) : UInt32 := if outcome.failure.isSome then 1 else 0

/-- All that is printed, the message of a failure last. -/
def output (outcome : Outcome) : List Printed :=
  outcome.printed ++ outcome.failure.toList.map Report.failure

end Outcome

namespace CommandLine

/-- A folder has to be there. -/
def requireFolder (tree : FileTree) (path : Path) (role : String) : Except Failure Unit :=
  if tree.isFolder path then .ok ()
  else .error (.refused s!"{role} folder {path} does not exist or is not a directory")

/-- Open the index in a folder. -/
def openFolder (tree : FileTree) (path : Path) : Except Failure Index :=
  (Index.openAt tree path).mapError (.during s!"Failed to open index at {path}")

/-- The warning about an index of another layout. -/
def formatWarning : Printed :=
  Report.warning ("The index was written by a different version of triscan; " ++
    "rebuild it with 'triscan index'.")

/-- The warning about a query without a trigram filter. -/
def filterWarning : Printed :=
  Report.warning ("The query cannot be narrowed by trigrams (OR is not supported); " ++
    "split it into separate queries.")

/-- Open the index in a folder and do something with it, after a warning if its layout is not the
present one. -/
def withIndex (path : Path) (act : Index → DiskM Outcome) : DiskM Outcome := do
  let tree ← get
  match requireFolder tree path "Index" >>= fun _ => openFolder tree path with
  | .error failure => return { printed := [], failure }
  | .ok index =>
      let outcome ← act index
      if index.hasFormat tree then return outcome
      else return { outcome with printed := formatWarning :: outcome.printed }

/-- Rebuild an index and report on it. -/
def build (crawl path : Path) : TaskM BuildSummary := do
  TaskM.examine fun tree => requireFolder tree crawl "Crawl"
  TaskM.examine fun tree => requireFolder tree path "Index"
  let index ← TaskM.examine fun tree => openFolder tree path
  index.build .md5 .standard crawl

/-- The results of a search in the form that was asked for. -/
def showResults (json : Bool) (results : List Hit) : List Printed :=
  if json then Report.hitsJson results else Report.hits results

/-- Search for a term. -/
def search (index : Index) (term : String) (json explain : Bool) : DiskM Outcome := do
  let (results, searcher) ← Searcher.search { index } term
  let explanation :=
    if explain then
      Report.details "content" searcher.content ++
        Report.ranking (Ranking.rank searcher.content.usage [lowercase term])
    else []
  return { printed := showResults json results ++ explanation }

/-- Evaluate a query. -/
def query (index : Index) (text : String) (json explain : Bool) : DiskM Outcome := do
  let query := Query.parse text
  match ← Searcher.query { index } query with
  | (.error failure, _) =>
      return {
        printed := if failure.isQueryFailure then [filterWarning] else []
        failure := some (.during s!"Failed to evaluate query '{text}'" failure) }
  | (.ok results, searcher) =>
      let explanation :=
        if explain then
          Report.details "content" searcher.content ++
            Report.details "metadata" searcher.tags ++
            Report.ranking (Ranking.rank searcher.content.usage query.requiredWords)
        else []
      return { printed := showResults json results ++ explanation }

/-- Compare the sizes of postings lists. -/
def check (index : Index) (tree : FileTree) (trigrams : List String) (metadata : Bool) :
    Outcome :=
  let reader := if metadata then index.tagReader else index.textReader
  let reports := trigrams.map (reader.check tree)
  let inconsistent := reports.countP (!·.agrees)
  { printed := reports.map Report.consistency
    failure :=
      if inconsistent = 0 then none
      else some (.refused s!"{inconsistent} of {trigrams.length} trigrams are inconsistent") }

/-- Run a command. -/
def run : Command → DiskM Outcome
  | .build crawl path quiet => do
      match ← (build crawl path).run with
      | .error failure => return { printed := [], failure }
      | .ok summary => return { printed := if quiet then [] else Report.summary summary }
  | .search path term json explain => withIndex path fun index => search index term json explain
  | .query path text json explain => withIndex path fun index => query index text json explain
  | .check path trigrams metadata =>
      withIndex path fun index => return check index (← get) trigrams metadata

/-- The folders that a command works on. -/
def folders : Command → List Path
  | .build crawl index _ => [crawl, index]
  | .search index _ _ _ => [index]
  | .query index _ _ _ => [index]
  | .check index _ _ => [index]

/-- The name and version of the program. -/
def versionLine : String := "triscan 0.1.0"

/-- How the program is used. -/
def helpText : String :=
  "Offline trigram search engine for source code\n\n" ++
  "Usage: triscan [OPTIONS] <COMMAND>\n\n" ++
  "Commands:\n" ++
  "  index <CRAWL> <INDEX>        Rebuild the index of a source tree\n" ++
  "  search <INDEX> <TERM>        Find documents with a word containing TERM\n" ++
  "  query <INDEX> <QUERY>        Evaluate a query string\n" ++
  "  check <INDEX> <TRIGRAMS>...  Compare declared and stored postings sizes of trigrams\n" ++
  "  help                         Print this message\n\n" ++
  "Options:\n" ++
  "  -v, --verbose  Enable verbose logging\n" ++
  "  -q, --quiet    Suppress all output (index)\n" ++
  "      --json     Output format as JSON (search, query)\n" ++
  "      --explain  Show trigram statistics and the word-order scores (search, query)\n" ++
  "      --metadata Check the metadata index (check)\n" ++
  "  -h, --help     Print help\n" ++
  "  -V, --version  Print version\n"

end CommandLine
end SourceSearch
