import Mathlib.Data.List.Sort
import SourceSearch.Proofs.Index.Kept
import SourceSearch.Proofs.Search.Calls

/-!
# Answers of the documents

An index serves documents if its postings find them and their words, records and copies are read.
Then the answer to a call depends on the documents alone: wherever an intersection begins or ends,
verification leaves the same keys.
-/

namespace SourceSearch

variable {documents : List IndexedDocument}

/-- Whatever candidates cover the documents that pass, verifying them leaves the same keys. -/
theorem Covers.filter_eq {found more : SortedSet DocumentKey}
    {judge judge' : DocumentKey → Option Bool} {verdict : IndexedDocument → Bool}
    (covers : Covers documents (fun document => verdict document = true) found)
    (covers' : Covers documents (fun document => verdict document = true) more)
    (judges : ∀ document ∈ documents, judge document.key = some (verdict document))
    (judges' : ∀ document ∈ documents, judge' document.key = some (verdict document)) :
    more.toList.filter (fun key => judge' key = some true) =
      found.toList.filter (fun key => judge key = some true) :=
  (more.ascending.sublist List.filter_sublist).eq_of_mem_iff
    (found.ascending.sublist List.filter_sublist) fun _ =>
      (covers'.mem_filter_iff judges').trans (covers.mem_filter_iff judges).symm

namespace Index

variable {index other : Index} {location : Location} {tree otherTree : FileTree} {call : Call}

/-- An index answers from documents: it finds them by their trigrams and reads all that is kept of
them. -/
structure Serves (index : Index) (documents : List IndexedDocument) (tree : FileTree) : Prop
    extends index.Recalls documents tree where
  /-- Texts are found. -/
  texts : index.textReader.Finds tree IndexedDocument.trigrams documents
  /-- Class tags are found. -/
  tags : index.tagReader.Finds tree (fun document => document.record.tagTrigrams) documents
  /-- Copies are read. -/
  copies : ∀ document ∈ documents,
    index.documents.load tree document.key = .ok (some document.text)

namespace Serves

/-- Both indexes present a document in the same way. -/
theorem hit_eq (serves : index.Serves documents tree) (serves' : other.Serves documents otherTree)
    {document : IndexedDocument} (member : document ∈ documents) (term : Option String) :
    other.hit otherTree term document.key = index.hit tree term document.key := by
  have records := (serves'.records document member).trans (serves.records document member).symm
  have previews (term : String) :
      other.preview otherTree term document.key = index.preview tree term document.key := by
    rw [preview, preview, serves'.copies document member, serves.copies document member]
  simp only [hit, records, previews]

/-- Whatever candidates cover the documents that pass, both present what is left of them in the same
way. -/
theorem hits_eq (serves : index.Serves documents tree)
    (serves' : other.Serves documents otherTree) {found more : SortedSet DocumentKey}
    {verdict : IndexedDocument → Bool}
    (covers : Covers documents (fun document => verdict document = true) found)
    (covers' : Covers documents (fun document => verdict document = true) more)
    (judges : ∀ document ∈ documents,
      index.judge tree call document.key = some (verdict document))
    (judges' : ∀ document ∈ documents,
      other.judge otherTree call document.key = some (verdict document)) :
    (other.passing otherTree call more).map (other.hit otherTree call.shown?) =
      (index.passing tree call found).map (index.hit tree call.shown?) := by
  rw [passing, passing, covers.filter_eq covers' judges judges']
  refine List.map_congr_left fun key passed => ?_
  obtain ⟨document, member, rfl, -⟩ := (covers.mem_filter_iff judges).mp passed
  exact serves.hit_eq serves' member call.shown?

/-- The candidates for a term cover the documents that have it, if it has three characters. -/
theorem covers_candidates (serves : index.Serves documents tree) {term : String}
    (wide : 3 ≤ (lowercase term).length) :
    Covers documents (fun document => document.hasText (lowercase term) = true)
      (Searcher.candidates { index } tree term).1 :=
  covers_text serves.texts wide

/-- The candidates for a query cover the documents that satisfy it, if its filter requires a
trigram. -/
theorem covers_filtered (serves : index.Serves documents tree) {query : Query}
    {filter : TrigramFilter} (compiled : query.filter = .ok filter)
    (nonempty : filter.isEmpty = false) :
    Covers documents (fun document => document.satisfies query = true)
      (Searcher.filtered { index } tree filter query.mentionsTag).1 :=
  Index.covers_filtered serves.texts serves.tags compiled nonempty

/-- **Same documents, same answers.**  Indexes that serve the same documents give each call the same
answer. -/
theorem fresh_eq (serves : index.Serves documents tree)
    (serves' : other.Serves documents otherTree) (call : Call) :
    other.fresh otherTree call = index.fresh tree call := by
  rw [Index.fresh_eq, Index.fresh_eq]
  cases call with
  | ofTerm term =>
      rw [candidates?, candidates?, Except.map, Except.map]
      by_cases wide : 3 ≤ (lowercase term).length
      · exact congrArg Except.ok (serves.hits_eq serves' (serves.covers_candidates wide)
          (serves'.covers_candidates wide) (serves.judge_ofTerm term) (serves'.judge_ofTerm term))
      · rw [candidates_of_short _ tree wide, candidates_of_short _ otherTree wide, passing_empty,
          passing_empty, List.map_nil, List.map_nil]
  | ofQuery query =>
      rw [candidates?, candidates?]
      cases compiled : query.filter with
      | error failure => rw [Except.map, Except.map, Except.map, Except.map]
      | ok filter =>
          rw [Except.map, Except.map, Except.map, Except.map]
          cases empty : filter.isEmpty with
          | true =>
              rw [filtered_of_isEmpty _ tree empty, filtered_of_isEmpty _ otherTree empty,
                passing_empty, passing_empty, List.map_nil, List.map_nil]
          | false =>
              exact congrArg Except.ok (serves.hits_eq serves'
                (serves.covers_filtered compiled empty) (serves'.covers_filtered compiled empty)
                (fun document member => serves.satisfies?_eq member)
                (fun document member => serves'.satisfies?_eq member))

end Serves

/-! ## Built indexes -/

section Built

variable {scheme : KeyScheme} {classifier : Classifier} {crawlRoot : Path}
  {summary : BuildSummary} {built : FileTree}

/-- The texts of what is stored are those of the files. -/
theorem text_of_stored {files : List Path} {start : FileTree}
    {entry : IndexedDocument × ByteArray}
    (member : entry ∈ files.filterMap (stored? scheme classifier crawlRoot start)) :
    entry.1.text = Text.ofBytesLossy entry.2 := by
  obtain ⟨file, -, is⟩ := List.mem_filterMap.mp member
  obtain ⟨id, -, -, -, made⟩ := stored?_eq_some_iff.mp is
  rw [made]
  rfl

section Deposits

variable {deposits : Deposits} (holds : index.HoldsShuffledDeposits location deposits built)
  (sound : AreSound deposits) (distinct : deposits.keys.Nodup)
  (texts : ∀ entry ∈ deposits, entry.1.text = Text.ofBytesLossy entry.2)

include holds sound distinct texts

/-- An index keeps the text of each document that was deposited. -/
theorem HoldsShuffledDeposits.load_eq {entry : IndexedDocument × ByteArray}
    (member : entry ∈ deposits) :
    index.documents.load built entry.1.key = .ok (some entry.1.text) := by
  refine holds.stands.load_eq_some_iff.mpr ⟨entry.2, ?_, texts entry member⟩
  rw [FileTree.copy?, holds.files.record?_eq sound.accepted Deposits.isKind_copy (by decide),
    Deposits.latest?_of_mem distinct member]
  rfl

/-- It serves the documents, as long as no trigram is in more of them than the shards hold that are
read. -/
theorem HoldsShuffledDeposits.serves (fits : index.config.maxShardGenerations ≤ Json.max32)
    (within : index.WithinShards IndexedDocument.trigrams (deposits.map Prod.fst))
    (within' : index.WithinShards (fun document => document.record.tagTrigrams)
      (deposits.map Prod.fst)) : index.Serves (deposits.map Prod.fst) built := by
  have tags := holds.tags
  have keeps := holds.files.keepsDocuments sound.accepted
  rw [Deposits.survivors_eq_self distinct] at tags keeps
  have numbers : ∀ document ∈ deposits.map Prod.fst, document.record.Fits :=
    List.forall_mem_map.mpr sound.fits
  exact {
    words := fun _ member => keeps.words_eq holds.stands member
    records := fun document member => keeps.load? holds.stands member (numbers document member)
    texts := by
      refine holds.stands.finds (by decide) ?_ fits within
      rw [List.map_map]
      exact holds.texts
    tags := holds.stands.finds (by decide) tags fits within'
    copies := List.forall_mem_map.mpr fun _ member => holds.load_eq sound distinct texts member }

end Deposits

/-- A build that succeeds keeps the text of each document. -/
theorem Builds.load_eq
    (builds : index.Builds scheme classifier crawlRoot location tree summary built)
    {document : IndexedDocument}
    (member : document ∈
      index.indexedDocuments scheme classifier crawlRoot tree summary.failed) :
    index.documents.load built document.key = .ok (some document.text) := by
  obtain ⟨holds, sound, -⟩ := holdsDeposits_of_build builds.hosted builds.named builds.keepsKeys
    builds.sizes builds.succeeds
  rw [← builds.map_deposited] at member
  obtain ⟨entry, stored, rfl⟩ := List.mem_map.mp member
  exact holds.shuffled.load_eq sound builds.nodup_keys (fun _ => text_of_stored) stored

/-- A build that succeeds makes the index serve the documents of the files that have not failed, as
long as no trigram is in more of them than the shards hold that are read. -/
theorem Builds.serves
    (builds : index.Builds scheme classifier crawlRoot location tree summary built)
    (texts : index.WithinShards IndexedDocument.trigrams
      (index.indexedDocuments scheme classifier crawlRoot tree summary.failed))
    (tags : index.WithinShards (fun document => document.record.tagTrigrams)
      (index.indexedDocuments scheme classifier crawlRoot tree summary.failed)) :
    index.Serves (index.indexedDocuments scheme classifier crawlRoot tree summary.failed)
      built := by
  obtain ⟨holds, sound, -⟩ := holdsDeposits_of_build builds.hosted builds.named builds.keepsKeys
    builds.sizes builds.succeeds
  rw [← builds.map_deposited] at texts tags ⊢
  exact holds.shuffled.serves sound builds.nodup_keys (fun _ => text_of_stored) builds.generations
    texts tags

end Built

end Index
end SourceSearch
