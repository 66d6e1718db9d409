import SourceSearch.FileTree.Basic

/-!
# Failures

What can go wrong, by cause, and the one place where causes become words.
-/

namespace SourceSearch

/-- Why an operation of the index failed. -/
inductive Failure where
  /-- A path is not below the root that it should be named from. -/
  | outside (path root : Path)
  /-- The file system refused an operation on a path. -/
  | file (path : Path) (fault : Fault)
  /-- The file at a path does not hold the record that was expected. -/
  | record (path : Path)
  /-- A query has no trigram filter. -/
  | unsupportedQuery (reason : String)
  /-- The declared size of a postings list differs from what its shards hold. -/
  | inconsistent (trigram : String) (declared actual : Nat)
  /-- A key cannot name a record of a store. -/
  | invalidKey (key : String)
  /-- The file system refused an operation; the message around it names the path. -/
  | system (fault : Fault)
  /-- A setting or argument is not admitted. -/
  | refused (reason : String)
  /-- A step of a larger task failed. -/
  | during (task : String) (cause : Failure)
  deriving DecidableEq

namespace Failure

/-- The outermost message of a failure. -/
def message : Failure → String
  | outside path root => s!"Path error: {path} is not located below {root}"
  | file path fault => s!"I/O error on {path}: {fault.message}"
  | record path => s!"Serialization error on {path}: not the expected record"
  | unsupportedQuery reason => s!"Unsupported query: {reason}"
  | inconsistent trigram declared actual =>
      s!"Consistency error for trigram '{trigram}': declared {declared}, found {actual}"
  | invalidKey key => s!"Invalid cache key: '{key}'"
  | system fault => fault.message
  | refused reason => reason
  | during task _ => task

/-- The messages of a failure from the outermost task to the first cause. -/
def chain : Failure → List String
  | during task cause => task :: cause.chain
  | file path fault => [(file path fault).message, fault.message]
  | failure => [failure.message]

/-- All messages of a failure on one line. -/
def report (failure : Failure) : String := ": ".intercalate failure.chain

/-- The failure concerns a single query, not the index. -/
def isQueryFailure : Failure → Bool
  | unsupportedQuery _ => true
  | _ => false

/-- The failure without the tasks around it. -/
def cause : Failure → Failure
  | during _ failure => failure.cause
  | failure => failure

end Failure
end SourceSearch
