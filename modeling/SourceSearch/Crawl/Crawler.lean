import SourceSearch.Config.Basic
import SourceSearch.Crawl.Glob
import SourceSearch.FileTree.Descent
import SourceSearch.FileTree.Operations

/-!
# Crawling

A crawler lists the files below a root that are worth indexing: those whose names match a source
pattern, that are no archives and not too large.  Hidden files count like all others.
-/

namespace SourceSearch

/-- Finds the files to index below a root. -/
structure Crawler where
  /-- Where the crawl starts. -/
  root : Path
  /-- Patterns of which a file name has to match one. -/
  sources : List (List Glob)
  /-- Patterns of which a file name may match none. -/
  archives : List (List Glob)
  /-- Links are followed. -/
  followSymlinks : Bool
  /-- The size in bytes of the largest file that is listed. -/
  maxFileSize : Nat
  /-- Paths that are not entered. -/
  excluded : List Path := []

namespace Crawler

/-- The names of files that are indexed. -/
def sourcePatterns : List String := [
  "*.java", "*.\x7bc,cpp,h,hpp\x7d", "*.\x7bxtend,xtext\x7d", "*.py", "*.MF",
  "*.\x7bproperties,ini,persistence\x7d", "*.json", "*.\x7btxt,text,MD,md\x7d",
  "*.\x7bxml,pom\x7d", "*.\x7bhtm,html\x7d"]

/-- The names of archives, which are recognised but not opened. -/
def archivePatterns : List String := ["*.\x7bzip,jar\x7d"]

/-- Parse patterns; the first one that is malformed decides the failure. -/
def parsePatterns (patterns : List String) : Except Failure (List (List Glob)) :=
  patterns.mapM fun pattern =>
    match Glob.parse pattern with
    | some parts => .ok parts
    | none => .error (.during s!"Invalid glob pattern: {pattern}" (.refused "malformed pattern"))

/-- A crawler for files whose names match one of the patterns. -/
def matching (root : Path) (patterns : List String) (config : Config) :
    Except Failure Crawler := do
  let sources ← parsePatterns patterns
  let archives ← parsePatterns archivePatterns
  return { root, sources, archives,
           followSymlinks := config.followSymlinks, maxFileSize := config.maxFileSize }

/-- A crawler for source files. -/
def new (root : Path) (config : Config) : Except Failure Crawler :=
  matching root sourcePatterns config

/-- Never enter a path. -/
def avoid (crawler : Crawler) (path : Path) : Crawler :=
  { crawler with excluded := path :: crawler.excluded }

/-- The file name is that of a source file and of no archive. -/
def admitsName (crawler : Crawler) (name : String) : Bool :=
  !crawler.archives.any (Glob.admits · name) && crawler.sources.any (Glob.admits · name)

/-- The file at the path is not too large; one whose size is not seen passes. -/
def admitsSize (crawler : Crawler) (tree : FileTree) (path : Path) : Bool :=
  match tree.size? path with
  | some size => size ≤ crawler.maxFileSize
  | none => true

/-- The file at a path is worth indexing. -/
def admits (crawler : Crawler) (tree : FileTree) (path : Path) : Bool :=
  match path.fileName? with
  | some name => crawler.admitsName name && crawler.admitsSize tree path
  | none => false

/-- The files worth indexing, in any order. -/
def files (crawler : Crawler) (tree : FileTree) : List Path :=
  (tree.filesBelow crawler.followSymlinks crawler.excluded crawler.root).filter
    (crawler.admits tree)

/-- The files worth indexing in the order of their paths. -/
def crawl (crawler : Crawler) (tree : FileTree) : List Path :=
  (crawler.files tree).mergeSort Path.le

end Crawler
end SourceSearch
