import SourceSearch.CommandLine.Arguments
import SourceSearch.CommandLine.Report
import SourceSearch.CommandLine.Run
import SourceSearch.CommandLine.Style
import SourceSearch.Config.Basic
import SourceSearch.Config.File
import SourceSearch.Crawl.Crawler
import SourceSearch.Crawl.Glob
import SourceSearch.Digest.Blake3
import SourceSearch.Digest.Bytes
import SourceSearch.Digest.Md5
import SourceSearch.Document.Classifier
import SourceSearch.Document.Key
import SourceSearch.Document.Metadata
import SourceSearch.Failure
import SourceSearch.FileTree.Basic
import SourceSearch.FileTree.Descent
import SourceSearch.FileTree.Operations
import SourceSearch.FileTree.Resolve
import SourceSearch.FileTree.Task
import SourceSearch.Index.Basic
import SourceSearch.Index.Build
import SourceSearch.Index.Summary
import SourceSearch.Json.Basic
import SourceSearch.Json.Decode
import SourceSearch.Json.Parser
import SourceSearch.Json.Text
import SourceSearch.Json.Value
import SourceSearch.Main
import SourceSearch.Path
import SourceSearch.Postings.Location
import SourceSearch.Postings.Reader
import SourceSearch.Postings.Record
import SourceSearch.Postings.Writer
import SourceSearch.Proofs.Crawl.Alike
import SourceSearch.Proofs.Crawl.Complete
import SourceSearch.Proofs.Crawl.Listed
import SourceSearch.Proofs.Crawl.Parts
import SourceSearch.Proofs.Crawl.Paths
import SourceSearch.Proofs.Digest
import SourceSearch.Proofs.FileTree.Altered
import SourceSearch.Proofs.FileTree.Found
import SourceSearch.Proofs.FileTree.Made
import SourceSearch.Proofs.FileTree.Names
import SourceSearch.Proofs.FileTree.Nodes
import SourceSearch.Proofs.FileTree.Records
import SourceSearch.Proofs.FileTree.Unchanged
import SourceSearch.Proofs.FileTree.Walks
import SourceSearch.Proofs.FileTree.Writes
import SourceSearch.Proofs.Frequencies
import SourceSearch.Proofs.Index.AtWork
import SourceSearch.Proofs.Index.Buildable
import SourceSearch.Proofs.Index.Built
import SourceSearch.Proofs.Index.Collector
import SourceSearch.Proofs.Index.Completeness
import SourceSearch.Proofs.Index.Consistency
import SourceSearch.Proofs.Index.Crew
import SourceSearch.Proofs.Index.Documents
import SourceSearch.Proofs.Index.Failures
import SourceSearch.Proofs.Index.Files
import SourceSearch.Proofs.Index.Kept
import SourceSearch.Proofs.Index.Mirror
import SourceSearch.Proofs.Index.OneThread
import SourceSearch.Proofs.Index.OwnCrawl
import SourceSearch.Proofs.Index.Rebuild
import SourceSearch.Proofs.Index.Retagged
import SourceSearch.Proofs.Index.SharedBuild
import SourceSearch.Proofs.Index.Stands
import SourceSearch.Proofs.Index.Tags
import SourceSearch.Proofs.Json.Kinds
import SourceSearch.Proofs.Json.Layout
import SourceSearch.Proofs.Json.PrintedText
import SourceSearch.Proofs.Json.Records
import SourceSearch.Proofs.Json.RoundTrip
import SourceSearch.Proofs.Json.Written
import SourceSearch.Proofs.Lines
import SourceSearch.Proofs.Path
import SourceSearch.Proofs.Postings.Apart
import SourceSearch.Proofs.Postings.Collection
import SourceSearch.Proofs.Postings.Concurrency
import SourceSearch.Proofs.Postings.Consistency
import SourceSearch.Proofs.Postings.Contents
import SourceSearch.Proofs.Postings.Delivery
import SourceSearch.Proofs.Postings.Events
import SourceSearch.Proofs.Postings.FirstFailure
import SourceSearch.Proofs.Postings.FlushBooks
import SourceSearch.Proofs.Postings.FlushPool
import SourceSearch.Proofs.Postings.Flushes
import SourceSearch.Proofs.Postings.Handover
import SourceSearch.Proofs.Postings.LastSave
import SourceSearch.Proofs.Postings.Ledger
import SourceSearch.Proofs.Postings.OneThread
import SourceSearch.Proofs.Postings.Places
import SourceSearch.Proofs.Postings.Reading
import SourceSearch.Proofs.Postings.Runs
import SourceSearch.Proofs.Postings.Schedules
import SourceSearch.Proofs.Postings.SharedWriter
import SourceSearch.Proofs.Postings.Shuffled
import SourceSearch.Proofs.Postings.Trouble
import SourceSearch.Proofs.Postings.Writable
import SourceSearch.Proofs.Postings.Writing
import SourceSearch.Proofs.Query.Filter
import SourceSearch.Proofs.Query.Grammar
import SourceSearch.Proofs.Query.Meaning
import SourceSearch.Proofs.Query.NormalForm
import SourceSearch.Proofs.Query.Reduction
import SourceSearch.Proofs.Query.Rewriting
import SourceSearch.Proofs.Query.Scanning
import SourceSearch.Proofs.RelativePaths
import SourceSearch.Proofs.Search.Calls
import SourceSearch.Proofs.Search.Candidates
import SourceSearch.Proofs.Search.Counts
import SourceSearch.Proofs.Search.DamagedEntry
import SourceSearch.Proofs.Search.Intersection
import SourceSearch.Proofs.Search.Lookups
import SourceSearch.Proofs.Search.LostRecords
import SourceSearch.Proofs.Search.LostShards
import SourceSearch.Proofs.Search.Memory
import SourceSearch.Proofs.Search.Pieces
import SourceSearch.Proofs.Search.Previews
import SourceSearch.Proofs.Search.Queries
import SourceSearch.Proofs.Search.Ranking
import SourceSearch.Proofs.Search.Reach
import SourceSearch.Proofs.Search.Recall
import SourceSearch.Proofs.Search.Repeated
import SourceSearch.Proofs.Search.Retagged
import SourceSearch.Proofs.Search.Rewritten
import SourceSearch.Proofs.Search.Served
import SourceSearch.Proofs.Search.Soundness
import SourceSearch.Proofs.Search.Terms
import SourceSearch.Proofs.Search.Threads
import SourceSearch.Proofs.Search.Tokens
import SourceSearch.Proofs.Search.Transparency
import SourceSearch.Proofs.Search.Tuning
import SourceSearch.Proofs.Search.Unchanged
import SourceSearch.Proofs.Store.Keys
import SourceSearch.Proofs.Store.Listing
import SourceSearch.Proofs.Store.Records
import SourceSearch.Proofs.Store.Writes
import SourceSearch.Proofs.Text
import SourceSearch.Proofs.Trigram
import SourceSearch.Proofs.Wordlists
import SourceSearch.Proofs.Words
import SourceSearch.Query.Basic
import SourceSearch.Query.Filter
import SourceSearch.Query.Parser
import SourceSearch.Search.Details
import SourceSearch.Search.Intersection
import SourceSearch.Search.Preview
import SourceSearch.Search.Ranking
import SourceSearch.Search.Searcher
import SourceSearch.Sorted.Map
import SourceSearch.Sorted.Order
import SourceSearch.Sorted.Set
import SourceSearch.Store.Basic
import SourceSearch.Store.Documents
import SourceSearch.Text.Basic
import SourceSearch.Text.Case
import SourceSearch.Text.Lowercase
import SourceSearch.Text.Utf16
import SourceSearch.Text.Utf8
import SourceSearch.Toml.Basic
import SourceSearch.Toml.Parser
import SourceSearch.Trigram
import SourceSearch.Words
