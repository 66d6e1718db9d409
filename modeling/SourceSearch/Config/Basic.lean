import SourceSearch.Failure
import SourceSearch.Json.Decode

/-!
# Settings of an index

The settings tune the size of shards, the order of reading and the amount of parallel work.  Each
has a default, so a file of settings may leave out any of them.
-/

namespace SourceSearch

/-- The settings of an index. -/
structure Config where
  /-- The number of pending postings that makes a shard. -/
  flushThreshold : Nat := 3072
  /-- How many times larger than the result a content trigram may be before the rest is skipped. -/
  contentAbortRatio : Nat := 48
  /-- The same for trigrams of class tags. -/
  metadataAbortRatio : Nat := 128
  /-- The greatest number of shards read for one trigram. -/
  maxShardGenerations : Nat := 4096
  /-- The number of threads that index files; zero leaves the choice to the program. -/
  parallelThreads : Nat := 0
  /-- The number of threads that write shards. -/
  flushWorkers : Nat := 2
  /-- The size in bytes of the largest file that is indexed. -/
  maxFileSize : Nat := 10 * 1024 * 1024
  /-- Links are followed while crawling. -/
  followSymlinks : Bool := false
  /-- Repeated queries are answered from the query cache. -/
  useQueryCache : Bool := true
  deriving DecidableEq, Inhabited

namespace Config

/-- The names of the settings in order. -/
def names : List String := [
  "flush_threshold", "content_abort_ratio", "metadata_abort_ratio", "max_shard_generations",
  "parallel_threads", "flush_workers", "max_file_size", "follow_symlinks", "use_query_cache"]

/-- The written form of the settings. -/
def toJson (config : Config) : Json :=
  .record [
    ("flush_threshold", .ofNat config.flushThreshold),
    ("content_abort_ratio", .ofNat config.contentAbortRatio),
    ("metadata_abort_ratio", .ofNat config.metadataAbortRatio),
    ("max_shard_generations", .ofNat config.maxShardGenerations),
    ("parallel_threads", .ofNat config.parallelThreads),
    ("flush_workers", .ofNat config.flushWorkers),
    ("max_file_size", .ofNat config.maxFileSize),
    ("follow_symlinks", .bool config.followSymlinks),
    ("use_query_cache", .bool config.useQueryCache)]

/-- Read the written form; settings that are left out have their defaults. -/
def ofJson? (json : Json) : Option Config := do
  let default : Config := {}
  let fields ← json.fields? names
  let number place fallback := fields.withDefault place (Json.toNat? Json.max64) fallback
  let flushThreshold ← number 0 default.flushThreshold
  let contentAbortRatio ← number 1 default.contentAbortRatio
  let metadataAbortRatio ← number 2 default.metadataAbortRatio
  let maxShardGenerations ←
    fields.withDefault 3 (Json.toNat? Json.max32) default.maxShardGenerations
  let parallelThreads ← number 4 default.parallelThreads
  let flushWorkers ← number 5 default.flushWorkers
  let maxFileSize ← number 6 default.maxFileSize
  let followSymlinks ← fields.withDefault 7 Json.toBool? default.followSymlinks
  let useQueryCache ← fields.withDefault 8 Json.toBool? default.useQueryCache
  return { flushThreshold, contentAbortRatio, metadataAbortRatio, maxShardGenerations,
           parallelThreads, flushWorkers, maxFileSize, followSymlinks, useQueryCache }

/-- The number of threads that index files, if the settings fix it. -/
def threads? (config : Config) : Option Nat :=
  if config.parallelThreads = 0 then none else some config.parallelThreads

/-- The number of threads that write the shards of a writer. -/
def workers (config : Config) : Nat := max config.flushWorkers 1

/-- Refuse settings that no index can work with. -/
def validate (config : Config) : Except Failure Unit :=
  if config.flushThreshold = 0 then
    .error (.refused "flush_threshold must be greater than zero")
  else if config.flushWorkers = 0 then
    .error (.refused "flush_workers must be greater than zero")
  else .ok ()

end Config
end SourceSearch
