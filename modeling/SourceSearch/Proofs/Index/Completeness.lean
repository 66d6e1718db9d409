import Mathlib.Data.List.Pairwise
import SourceSearch.Proofs.Crawl.Paths
import SourceSearch.Proofs.Digest
import SourceSearch.Proofs.Index.Kept
import SourceSearch.Proofs.Search.Terms

/-!
# No file is lost

Files that a crawl lists have different relative paths.  A key is made from the path with
backslashes for slashes, so files share a key if their paths differ in the kind of slashes only, and
then the one that is stored last takes the place of the others.  Apart from that every file that has
not failed has a record of its own.
-/

namespace SourceSearch

/-! ## Classifiers that tag -/

/-- A classifier changes nothing of a record but its classes. -/
structure Classifier.TagsOnly (classifier : Classifier) : Prop where
  /-- A path gives classes only. -/
  byPath : ∀ path record, ∃ classes, classifier.byPath path record = { record with classes }
  /-- Words give classes only. -/
  byWords : ∀ words record, ∃ classes, classifier.byWords words record = { record with classes }

namespace Classifier

variable {classifier : Classifier}

theorem TagsOnly.keepsKeys (tags : classifier.TagsOnly) : classifier.KeepsKeys where
  keyByPath path record := by
    obtain ⟨classes, is⟩ := tags.byPath path record
    rw [is]
  keyByWords words record := by
    obtain ⟨classes, is⟩ := tags.byWords words record
    rw [is]
  fitsByPath path record fits := by
    obtain ⟨classes, is⟩ := tags.byPath path record
    rw [is]
    exact ⟨fits.1, fits.2⟩
  fitsByWords words record fits := by
    obtain ⟨classes, is⟩ := tags.byWords words record
    rw [is]
    exact ⟨fits.1, fits.2⟩

end Classifier

/-! ## Paths that are digested alike -/

namespace Index

variable {index : Index} {location : Location} {tree built : FileTree} {classifier : Classifier}
  {crawlRoot : Path}

section Stored

variable {start : FileTree} {files : List Path}

/-- The listed keys are those of the documents that were stored last. -/
theorem Kept.exists_keys {deposits : Deposits} (kept : index.Kept location deposits built) :
    ∃ keys, index.metadata.keys built = .ok keys ∧ keys.Perm deposits.survivors.keys := by
  obtain ⟨keys, listing⟩ : ∃ keys, index.metadata.keys built = .ok keys :=
    Store.exists_keys kept.stands.named kept.stands.hosted.hosts
      (kept.stands.layered metadataFolder (by decide)) (isName_of_mem (by decide)) rfl
  obtain ⟨ascending, same⟩ := kept.keeps.keys_eq_ok kept.stands listing
  refine ⟨keys, listing, (List.perm_ext_iff_of_nodup (nodup_of_ascending ascending)
    Deposits.nodup_keys_survivors).mpr fun key => ?_⟩
  rw [same, List.map_map]
  rfl

end Stored

end Index
end SourceSearch
