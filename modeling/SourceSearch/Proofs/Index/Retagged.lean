import SourceSearch.Proofs.Index.Kept

/-!
# Rebuilding class tags

The postings of class tags are made from records that are there already.  So they can be cleared and
rebuilt at any time, and whenever they are there they have the same contents.
-/

namespace SourceSearch
namespace Index

variable {index : Index} {location : Location} {tree before after built now : FileTree}
  {documents : List IndexedDocument} {tagged : Bool}

/-! ## Tags that are there, or are not -/

/-- What class tags are rebuilt from, and what comes of it.  A document whose place another one has
taken is still in the postings of texts. -/
structure Taggable (index : Index) (location : Location) (documents : List IndexedDocument)
    (built : FileTree) : Prop where
  /-- The index stands. -/
  stands : index.Stands location built
  /-- Keys are different. -/
  distinct : (documents.map IndexedDocument.key).Nodup
  /-- Numbers of records fit. -/
  fits : ∀ document ∈ documents, document.record.Fits
  /-- Words and records are there. -/
  keeps : KeepsDocuments location documents built
  /-- The postings of class tags are there. -/
  tags : HoldsTags location index.threshold documents built
  /-- The postings of texts are there, under the same keys. -/
  texts : ∃ all : List IndexedDocument,
    (∀ document ∈ all, ∃ other ∈ documents, other.key = document.key) ∧
      HoldsPostings location textFolder index.threshold (all.map IndexedDocument.textEntry) built

theorem HoldsDeposits.taggable {deposits : Deposits}
    (holds : index.HoldsDeposits location deposits built) (sound : AreSound deposits) :
    index.Taggable location (deposits.survivors.map Prod.fst) built where
  stands := holds.stands
  distinct := Deposits.nodup_key_survivors
  fits := Deposits.fits_survivors sound.fits
  keeps := holds.files.keepsDocuments sound.accepted
  tags := holds.tags
  texts := by
    refine ⟨deposits.map Prod.fst, fun document member => ?_, ?_⟩
    · obtain ⟨entry, stored, rfl⟩ := List.mem_map.mp member
      obtain ⟨last, survives, same⟩ := Deposits.mem_keys_iff.mp
        (Deposits.mem_keys_survivors_iff.mpr (Deposits.mem_keys_iff.mpr ⟨entry, stored, rfl⟩))
      exact ⟨last.1, List.mem_map_of_mem survives, same⟩
    · rw [List.map_map]
      exact holds.texts

/-- A build leaves what class tags are rebuilt from, and an empty query cache. -/
theorem taggable_of_build {scheme : KeyScheme} {classifier : Classifier} {crawlRoot : Path}
    {summary : BuildSummary} (hosted : index.IsHosted location tree) (named : tree.WellNamed)
    (keeps : classifier.KeepsKeys) (small : index.config.maxFileSize ≤ Json.max64)
    (run : (index.build scheme classifier crawlRoot).runOn tree = (.ok summary, built)) :
    (∃ documents, index.Taggable location documents built) ∧
      built.kind? (location ++ [queriesFolder]) = none := by
  obtain ⟨holds, sound, -⟩ := holdsDeposits_of_build hosted named keeps small run
  exact ⟨⟨_, holds.taggable sound⟩, holds.noResults⟩

/-- An index whose class tags may have been cleared or rebuilt, and whose query cache may have been
written to. -/
structure Tends (index : Index) (location : Location) (documents : List IndexedDocument)
    (built : FileTree) (tagged : Bool) (now : FileTree) : Prop where
  /-- The index stands. -/
  stands : index.Stands location now
  /-- All else is as it was built. -/
  agrees : built.AgreesOutside location [tagFolder, queriesFolder] now
  /-- The postings of class tags are there. -/
  held : tagged = true → HoldsTags location index.threshold documents now
  /-- They are not there. -/
  gone : tagged = false → now.kind? (location ++ [tagFolder]) = none

namespace Tends

theorem of_built (taggable : index.Taggable location documents built) :
    index.Tends location documents built true built where
  stands := taggable.stands
  agrees := .refl _ _ _
  held _ := taggable.tags
  gone := nofun

/-- The query cache does not matter. -/
theorem of_queries (tends : index.Tends location documents built tagged now)
    (stands : index.Stands location after)
    (agrees : now.AgreesOutside location [queriesFolder] after) :
    index.Tends location documents built tagged after where
  stands := stands
  agrees := tends.agrees.trans (agrees.mono (by simp))
  held is := (tends.held is).of_agrees agrees (by decide)
  gone is := (agrees.kind?_below (by decide) []).trans (tends.gone is)

/-- Class tags can always be cleared. -/
theorem clear (tends : index.Tends location documents built tagged now) :
    ∃ after, index.clearTags.runOn now = (.ok (), after) ∧
      index.Tends location documents built false after ∧
      now.AgreesOutside location [tagFolder] after := by
  have proper : IsName tagFolder := isName_of_mem (by decide)
  obtain ⟨after, run⟩ := FileTree.exists_removed tends.stands.hosted.hosts proper
    (tends.stands.notFile (by decide))
  obtain ⟨agrees, named, gone⟩ := FileTree.removeFolder_hosted tends.stands.hosted.hosts proper run
  refine ⟨after, run, ?_, agrees⟩
  exact {
    stands := tends.stands.step (by decide)
      ⟨agrees, fun _ => FileTree.layered_of_none gone, named⟩
    agrees := tends.agrees.trans (agrees.mono (by simp))
    held := nofun
    gone := fun _ => gone }

/-- Class tags can always be rebuilt, as they could be written before. -/
theorem rebuild (tends : index.Tends location documents built tagged now)
    (taggable : index.Taggable location documents built) (summary : BuildSummary) :
    ∃ result after, (index.buildTags summary).runOn now = (.ok result, after) ∧
      index.Tends location documents built true after ∧
      now.AgreesOutside location [tagFolder] after := by
  have keeps := taggable.keeps.of_agrees tends.agrees (by decide)
  obtain ⟨result, after, run⟩ := tends.stands.exists_buildTags keeps taggable.distinct taggable.fits
    (fun _ => taggable.tags.areWritable taggable.stands.named) summary
  obtain ⟨stands, agrees, -, tags⟩ :=
    tends.stands.buildTags keeps taggable.distinct taggable.fits run
  refine ⟨result, after, run, ?_, agrees⟩
  exact {
    stands
    agrees := tends.agrees.trans (agrees.mono (by simp))
    held := fun _ => tags
    gone := nofun }

end Tends

end Index
end SourceSearch
