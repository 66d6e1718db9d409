import SourceSearch.CommandLine.Style
import SourceSearch.Index.Summary
import SourceSearch.Postings.Reader
import SourceSearch.Search.Ranking

/-!
# Reports

What the program prints.  Results go to the standard output, messages for people to the standard
error output.  The time that a build took is left open, to be filled in when it is printed.
-/

namespace SourceSearch

/-- A piece of what the program prints. -/
inductive Printed where
  /-- A line of the standard output. -/
  | result (line : String)
  /-- A line of the standard error output. -/
  | notice (line : String)
  /-- A line of the standard output that ends in the time since the start. -/
  | elapsed (label : String)
  deriving DecidableEq

namespace Report

/-- A number of hundredths with two decimals. -/
def hundredths (n : Nat) : String :=
  let decimals := n % 100
  let zero := if decimals < 10 then "0" else ""
  s!"{n / 100}.{zero}{decimals}"

/-- A time in the largest unit that it fills, rounded to two decimals. -/
def duration (nanoseconds : Nat) : String :=
  let inUnit (size : Nat) : String := hundredths ((100 * nanoseconds + size / 2) / size)
  if 1000000000 ≤ nanoseconds then inUnit 1000000000 ++ "s"
  else if 1000000 ≤ nanoseconds then inUnit 1000000 ++ "ms"
  else if 1000 ≤ nanoseconds then inUnit 1000 ++ "µs"
  else inUnit 1 ++ "ns"

/-- A message with an empty line on either side. -/
def message (text : String) : Printed := .notice s!"\n{text}\n"

/-- A warning. -/
def warning (text : String) : Printed := message (Style.yellow text)

/-- The message of a failure. -/
def failure (failure : Failure) : Printed := message (Style.red s!"Error: {failure.report}")

/-- The class tags of a record on one line, if there are any. -/
def tags (record : Metadata) : List Printed :=
  let tags := record.classes.toList.map fun (name, value) => s!"{name}:{value}"
  if tags.isEmpty then [] else [.result ("  " ++ Style.faint (" ".intercalate tags))]

/-- A line of a preview. -/
def previewLine (number : Nat) (text : String) : Printed :=
  let number := Style.yellow (Style.padLeft 5 (toString number))
  let rule := Style.faint "│"
  .result s!"  {number} {rule} {text}"

/-- A result: its path or else its key, its class tags, and its preview. -/
def hit (found : Hit) : List Printed :=
  let name := found.relativePath?.getD found.documentKey
  [.result (Style.bold (Style.brightCyan name))] ++
    found.metadata.toList.flatMap tags ++
    found.preview.toList.map fun (number, text) => previewLine number text

/-- The results of a search. -/
def hits (results : List Hit) : List Printed :=
  if results.isEmpty then [message "No matches."]
  else results.flatMap hit ++ [message s!"{results.length} documents"]

/-- The results of a search as one document. -/
def hitsJson (results : List Hit) : List Printed :=
  [.result (Json.array (results.map Hit.toJson)).prettyText]

/-- The state of a trigram in its colour. -/
def state (state : UsageState) : String :=
  match state with
  | .success => Style.green state.name
  | .failed => Style.red state.name
  | .unknown => Style.faint state.name

/-- What a trigram did. -/
def usage (usage : Usage) : Printed :=
  let trigram := Style.padRight 8 usage.trigram
  let count := Style.padLeft 8 (toString usage.count)
  let state := state usage.state
  .notice s!"  {trigram} {count}  {state}"

/-- The diagnostics of a search of one namespace. -/
def details (label : String) (details : Details) : List Printed :=
  let heading := Style.bold "Trigram statistics:"
  [.notice s!"{heading} {label}"] ++
    if details.occurrences.isEmpty then
      [.notice "  no lookups (empty query or cached result)"]
    else
      details.usage.map usage ++
        if details.wasAborted then
          [.notice ("  aborted early, skipped: " ++ Style.faint (", ".intercalate details.skipped))]
        else []

/-- The scores of words. -/
def ranking (ranked : List RankedWord) : List Printed :=
  if ranked.isEmpty then []
  else
    .notice (Style.bold "Word order:") ::
      ranked.map fun entry =>
        let score := Style.padLeft 4 (toString entry.score)
        .notice s!"  {score}  {entry.word}"

/-- The comparison of the declared and the stored size of a postings list. -/
def consistency (report : SizeComparison) : Printed :=
  let verdict :=
    if report.agrees then Style.green "ok" else Style.bold (Style.red "MISMATCH")
  let trigram := Style.padRight 8 report.trigram
  let declared := Style.padLeft 8 ((report.declared.map toString).getD "-")
  let stored := Style.padLeft 8 (toString report.actual)
  .result s!"{verdict} {trigram} declared {declared}  stored {stored}  shards {report.shards}"

/-- The summary of a build. -/
def summary (summary : BuildSummary) : List Printed :=
  [.result "Indexing complete!",
    .result s!"  Documents indexed:  {summary.indexedDocuments}",
    .result s!"  Content trigrams:   {summary.contentTrigrams}",
    .result s!"  Tagged documents:   {summary.metadataDocuments}",
    .result s!"  Metadata trigrams:  {summary.metadataTrigrams}",
    .elapsed "  Duration:           "] ++
    if summary.failed.isEmpty then []
    else
      warning s!"{summary.failed.length} files could not be indexed (run with -v for details):" ::
        summary.failed.map fun path => .notice s!"  {path}"

end Report
end SourceSearch
