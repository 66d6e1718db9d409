import SourceSearch.Config.Basic
import SourceSearch.FileTree.Task
import SourceSearch.Toml.Parser

/-!
# The file of settings

An index may hold a file of settings in its root.  A new index gets one that spells out the
defaults.
-/

namespace SourceSearch
namespace Config

/-- The name of the file in the index root. -/
def fileName : String := "config.toml"

/-- A number setting up to `max`; one that is left out keeps its value. -/
def number? (entries : Toml.Entries) (max : Nat) (name : String) (fallback : Nat) : Option Nat :=
  match entries.lookup name with
  | none => some fallback
  | some (.integer value) => if 0 ≤ value ∧ value ≤ max then some value.toNat else none
  | some _ => none

/-- A setting that is on or off; one that is left out keeps its value. -/
def switch? (entries : Toml.Entries) (name : String) (fallback : Bool) : Option Bool :=
  match entries.lookup name with
  | none => some fallback
  | some (.boolean value) => some value
  | some _ => none

/-- The settings that a document spells; entries of other names are passed over. -/
def ofToml? (entries : Toml.Entries) : Option Config := do
  let default : Config := {}
  let number := number? entries Json.max64
  let flushThreshold ← number "flush_threshold" default.flushThreshold
  let contentAbortRatio ← number "content_abort_ratio" default.contentAbortRatio
  let metadataAbortRatio ← number "metadata_abort_ratio" default.metadataAbortRatio
  let maxShardGenerations ←
    number? entries Json.max32 "max_shard_generations" default.maxShardGenerations
  let parallelThreads ← number "parallel_threads" default.parallelThreads
  let flushWorkers ← number "flush_workers" default.flushWorkers
  let maxFileSize ← number "max_file_size" default.maxFileSize
  let followSymlinks ← switch? entries "follow_symlinks" default.followSymlinks
  let useQueryCache ← switch? entries "use_query_cache" default.useQueryCache
  return { flushThreshold, contentAbortRatio, metadataAbortRatio, maxShardGenerations,
           parallelThreads, flushWorkers, maxFileSize, followSymlinks, useQueryCache }

/-- The settings that a text spells. -/
def ofText? (text : String) : Option Config := Toml.parse text >>= ofToml?

/-- The settings of the index at `root`: the defaults, if there is no file of settings. -/
def load (tree : FileTree) (root : Path) : Except Failure Config :=
  let path := root / fileName
  if !tree.pathExists path then .ok {}
  else match tree.readText path with
    | .error fault => .error (.during s!"Failed to read {path}" (.system fault))
    | .ok text =>
        match ofText? text with
        | none =>
            .error (.during s!"Failed to parse {path}" (.refused "not a document of settings"))
        | some config => config.validate.map fun _ => config

/-- The file of settings of a new index. -/
def initialText : String :=
  "# Postings per generation shard\n" ++
  "flush_threshold = 3072\n" ++
  "# Stop intersecting once a trigram is this many times larger than the result\n" ++
  "content_abort_ratio = 48\n" ++
  "metadata_abort_ratio = 128\n" ++
  "max_shard_generations = 4096\n" ++
  "parallel_threads = 0  # 0 = auto (80% of CPU cores)\n" ++
  "flush_workers = 2\n" ++
  "max_file_size = 10485760  # 10 MB\n" ++
  "follow_symlinks = false\n" ++
  "use_query_cache = true\n"

/-- Write the file of settings, unless something is there. -/
def writeInitial (root : Path) : TaskM Unit := do
  let path := root / fileName
  if ← TaskM.observe (·.pathExists path) then return
  TaskM.change (fun fault => .during s!"Failed to write {path}" (.system fault))
    (·.write path initialText.toUTF8)

end Config
end SourceSearch
