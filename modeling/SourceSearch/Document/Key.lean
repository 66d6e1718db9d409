import SourceSearch.Digest.Blake3
import SourceSearch.Digest.Md5
import SourceSearch.Failure

/-!
# Document keys

A document is named by a digest of its path below the crawl root.  The digested text joins the
names by backslashes; the path that is shown joins them by slashes.
-/

namespace SourceSearch

/-- The name of a document in every record and postings list. -/
abbrev DocumentKey := String

/-- The text that is digested for a path. -/
def digestedText (relativePath : String) : String :=
  String.ofList (relativePath.toList.map fun c => if c = '/' then '\\' else c)

/-- A way to name documents by their paths. -/
structure KeyScheme where
  /-- The key of the document at a path below the crawl root. -/
  key : String → DocumentKey

namespace KeyScheme

/-- Keys are MD5 digests in hexadecimal. -/
def md5 : KeyScheme where
  key relativePath := Digest.hex (Digest.Md5.digest (digestedText relativePath).toUTF8.data.toList)

/-- The purpose that keyed digests are bound to. -/
def keyedContext : String := "triscan 2024 document key"

/-- Keys are the first halves of BLAKE3 digests under a key derived from a secret. -/
def keyed (secret : List UInt8) : KeyScheme :=
  let key := Digest.Blake3.deriveKey keyedContext secret
  { key := fun relativePath =>
      let text := (digestedText relativePath).toUTF8.data.toList
      Digest.hex ((Digest.Blake3.keyedDigest key text).take 16) }

end KeyScheme

/-- The path of a file below the crawl root, its names joined by slashes. -/
def pathBelow (file root : Path) : Except Failure String :=
  match file.namesBelow? root with
  | some names => .ok ("/".intercalate names)
  | none => .error (.outside file root)

/-- A document's key together with the path it was made from. -/
structure DocumentIdentity where
  /-- The key. -/
  key : DocumentKey
  /-- The path below the crawl root. -/
  relativePath : String
  deriving DecidableEq

namespace DocumentIdentity

/-- The identity of the document at a path below the crawl root. -/
def ofRelativePath (relativePath : String) (scheme : KeyScheme) : DocumentIdentity :=
  ⟨scheme.key relativePath, relativePath⟩

/-- The identity of a file below a crawl root. -/
def ofPath (file root : Path) (scheme : KeyScheme) : Except Failure DocumentIdentity :=
  (pathBelow file root).map (ofRelativePath · scheme)

end DocumentIdentity
end SourceSearch
