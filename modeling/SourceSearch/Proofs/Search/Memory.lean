import SourceSearch.Proofs.Digest
import SourceSearch.Proofs.Index.Tags
import SourceSearch.Proofs.Search.Unchanged

/-!
# What the query cache remembers

Results that are remembered under a key come back as they were, previews included, and the results
under other keys stay.
-/

namespace SourceSearch

namespace SortedMap

variable {κ β : Type} [LT κ] [DecidableEq κ] [DecidableLT κ] [SortOrder κ]

omit [DecidableLT κ] in
theorem find?_filterKeys (p : κ → Bool) (m : SortedMap κ β) (k : κ) :
    (m.filterKeys p).find? k = if p k then m.find? k else none := by
  refine Option.ext fun v => ?_
  rw [find?_eq_some_iff, filterKeys, List.mem_filter]
  split
  · rename_i holds
    rw [find?_eq_some_iff]
    exact and_iff_left holds
  · rename_i fails
    simp [fails]

/-- An entry counts if no other entry of its key differs from it. -/
theorem find?_ofList_of_mem {entries : List (κ × β)} {k : κ} {v : β} (member : (k, v) ∈ entries)
    (agree : ∀ entry ∈ entries, entry.1 = k → entry.2 = v) :
    (ofList entries).find? k = some v := by
  rw [find?_ofList]
  cases found : entries.reverse.find? fun entry => entry.1 = k with
  | none => simpa using List.find?_eq_none.mp found _ (List.mem_reverse.mpr member)
  | some entry =>
      have listed := List.mem_reverse.mp (List.mem_of_find?_eq_some found)
      have key : entry.1 = k := by simpa using List.find?_some found
      rw [Option.map_some, agree entry listed key]

theorem find?_ofList_of_not_mem {entries : List (κ × β)} {k : κ}
    (absent : k ∉ entries.map Prod.fst) : (ofList entries).find? k = none := by
  rw [find?_ofList, List.find?_eq_none.mpr, Option.map_none]
  intro entry member same
  exact absent (List.mem_map.mpr ⟨entry, List.mem_reverse.mp member, by simpa using same⟩)

theorem mem_of_mem_ofList {entries : List (κ × β)} {entry : κ × β}
    (member : entry ∈ (ofList entries).toList) : entry ∈ entries := by
  have found := find?_eq_some_iff.mpr member
  rw [find?_ofList] at found
  obtain ⟨other, held, value⟩ := Option.map_eq_some_iff.mp found
  have key : other.1 = entry.1 := by simpa using List.find?_some held
  have same : other = entry := Prod.ext key value
  exact same ▸ List.mem_reverse.mp (List.mem_of_find?_eq_some held)

end SortedMap

/-! ## Previews -/

namespace Preview

/-- A preview numbers lines of its text. -/
theorem le_of_mem_ofText {text term : String} {line : Nat × String}
    (member : line ∈ (Preview.ofText text term).toList) : line.1 ≤ (lines text).length := by
  have listed := SortedMap.mem_of_mem_ofList member
  obtain ⟨⟨found, number⟩, held, rfl⟩ := List.mem_map.mp listed
  have numbered := (List.mem_filter.mp (List.mem_of_mem_take held)).1
  obtain ⟨-, bound, -⟩ := List.mem_zipIdx numbered
  change number ≤ _
  omega

theorem eq_empty_of_isEmpty {preview : Preview} (empty : preview.isEmpty = true) :
    preview = .empty := SortedMap.ext (List.isEmpty_iff.mp empty)

end Preview

/-! ## Results from memory -/

namespace Index

variable {index : Index} {location : Location} {tree before after : FileTree}
  {term : Option String}

/-- The previews that are remembered beside results. -/
def previewsOf (results : List Hit) : Previews :=
  .ofList ((results.filter (!·.preview.isEmpty)).map fun result =>
    (result.documentKey, result.preview))

theorem getD_find?_previewsOf {keys : List DocumentKey} {key : DocumentKey} (member : key ∈ keys) :
    ((previewsOf (keys.map (index.hit tree term))).find? key).getD .empty =
      (index.hit tree term key).preview := by
  have entries {entry : DocumentKey × Preview}
      (listed : entry ∈ ((keys.map (index.hit tree term)).filter (!·.preview.isEmpty)).map
        fun result => (result.documentKey, result.preview)) :
      (index.hit tree term entry.1).preview = entry.2 ∧ entry.2.isEmpty = false := by
    obtain ⟨result, held, rfl⟩ := List.mem_map.mp listed
    obtain ⟨held, shown⟩ := List.mem_filter.mp held
    obtain ⟨other, -, rfl⟩ := List.mem_map.mp held
    exact ⟨rfl, by simpa using shown⟩
  cases shown : (index.hit tree term key).preview.isEmpty with
  | true =>
      rw [previewsOf, SortedMap.find?_ofList_of_not_mem, Option.getD_none,
        Preview.eq_empty_of_isEmpty shown]
      intro listed
      obtain ⟨entry, held, rfl⟩ := List.mem_map.mp listed
      obtain ⟨same, nonempty⟩ := entries held
      rw [same, nonempty] at shown
      cases shown
  | false =>
      rw [previewsOf, SortedMap.find?_ofList_of_mem (v := (index.hit tree term key).preview),
        Option.getD_some]
      · refine List.mem_map.mpr ⟨_, List.mem_filter.mpr ⟨List.mem_map_of_mem member, ?_⟩, rfl⟩
        simpa using shown
      · rintro entry listed rfl
        exact (entries listed).1.symm

/-- Remembered previews give the results back. -/
theorem rememberedResults_eq {previews : Previews} {keys : List DocumentKey}
    (distinct : keys.Nodup)
    (shows : ∀ key ∈ keys, (previews.find? key).getD .empty = (index.hit tree term key).preview) :
    index.rememberedResults tree previews keys = keys.map (index.hit tree term) := by
  induction keys generalizing previews with
  | nil => rfl
  | cons key rest ih =>
      rw [List.nodup_cons] at distinct
      rw [List.forall_mem_cons] at shows
      rw [rememberedResults, List.map_cons, shows.1, ih distinct.2 fun other member => ?_]
      · rfl
      · have different : other ≠ key := fun same => distinct.1 (same ▸ member)
        rw [SortedMap.find?_filterKeys, if_pos (decide_eq_true different)]
        exact shows.2 other member

/-- The text of a document is read if there is a copy. -/
theorem Stands.load_eq_some_iff (stands : index.Stands location tree) {key : DocumentKey}
    {text : String} : index.documents.load tree key = .ok (some text) ↔
      ∃ content, tree.copy? location key = some content ∧ text = Text.ofBytesLossy content := by
  have reads := stands.reads documentsFolder contentSuffix (by decide) (by decide)
    (isSuffix_stored (by simp)) key
  have lies : index.documents.root = index.root / documentsFolder := rfl
  have copied (content : ByteArray) :
      index.documents.get tree key contentSuffix = .ok (some content) ↔
        tree.copy? location key = some content := Store.get_eq_some_iff lies reads
  rw [DocumentStore.load]
  constructor
  · intro loaded
    cases got : index.documents.get tree key contentSuffix with
    | error failure =>
        rw [got] at loaded
        cases loaded
    | ok found =>
        rw [got, Except.map, Except.ok.injEq, Option.map_eq_some_iff] at loaded
        obtain ⟨content, rfl, same⟩ := loaded
        exact ⟨content, (copied content).mp got, same.symm⟩
  · rintro ⟨content, held, rfl⟩
    rw [(copied content).mpr held]
    rfl

/-- The lines of texts can be numbered in a record. -/
def HasNumberedTexts (index : Index) (tree : FileTree) : Prop :=
  ∀ key text, index.documents.load tree key = .ok (some text) → (lines text).length ≤ Json.max64

theorem Stands.hasNumberedTexts (stands : index.Stands location tree)
    (copies : HasNumberedCopies location tree) : index.HasNumberedTexts tree := by
  intro key text loaded
  obtain ⟨content, copied, rfl⟩ := stands.load_eq_some_iff.mp loaded
  exact copies key content copied

/-- Line numbers of previews can be written. -/
theorem HasNumberedTexts.le_of_mem_hit (numbered : index.HasNumberedTexts tree)
    {key : DocumentKey} {line : Nat × String}
    (member : line ∈ (index.hit tree term key).preview.toList) : line.1 ≤ Json.max64 := by
  rw [hit] at member
  cases term with
  | none => cases member
  | some term =>
      rw [Option.map_some, Option.getD_some, preview] at member
      split at member
      · rename_i text loaded
        exact Nat.le_trans (Preview.le_of_mem_ofText member) (numbered key text loaded)
      · cases member

/-- The previews of results are read back from what is written of them. -/
theorem HasNumberedTexts.decodePreviews?_previewsOf (numbered : index.HasNumberedTexts tree)
    (keys : List DocumentKey) :
    QueryStore.decodePreviews?
        (QueryStore.encodePreviews (previewsOf (keys.map (index.hit tree term)))) =
      some (previewsOf (keys.map (index.hit tree term))) := by
  refine QueryStore.decodePreviews?_encodePreviews fun entry member line inside => ?_
  have listed := SortedMap.mem_of_mem_ofList member
  obtain ⟨result, held, rfl⟩ := List.mem_map.mp listed
  obtain ⟨key, -, rfl⟩ := List.mem_map.mp (List.mem_filter.mp held).1
  exact numbered.le_of_mem_hit inside

/-! ## Reading the cache -/

theorem isShortSuffix_remembered {suffix : String}
    (member : suffix ∈ [resultSuffix, previewSuffix]) : Digest.IsShortSuffix suffix := by
  simp only [List.mem_cons, List.not_mem_nil, or_false] at member
  rcases member with rfl | rfl <;>
    exact ⟨⟨⟨_, rfl⟩, by decide, by decide⟩, by decide, by decide⟩

/-- A record of the query cache, decoded. -/
def cached? {α : Type} (location : Location) (tree : FileTree) (decode : Json → Option α)
    (key suffix : String) : Option α :=
  (tree.record? location queriesFolder key suffix).bind (Json.decodeBytes? decode)

theorem getRecord_queries_iff {α : Type} {decode : Json → Option α} {key suffix : String}
    (reads : Store.Reads tree index.root location queriesFolder key suffix) {value : α} :
    index.queries.getRecord tree decode key suffix = .ok (some value) ↔
      cached? location tree decode key suffix = some value := by
  rw [cached?, Option.bind_eq_some_iff]
  exact Store.getRecord_eq_some_iff rfl reads

theorem result?_eq_of_reads {key : String}
    (reads : Store.Reads tree index.root location queriesFolder key resultSuffix) :
    index.queries.result? tree key = cached? location tree Json.toTexts? key resultSuffix := by
  refine Option.ext fun documents => ?_
  rw [← getRecord_queries_iff reads, QueryStore.result?]
  cases index.queries.getRecord tree Json.toTexts? key resultSuffix <;> simp

theorem previews?_eq_of_reads {key : String}
    (reads : Store.Reads tree index.root location queriesFolder key previewSuffix) :
    index.queries.previews? tree key =
      cached? location tree QueryStore.decodePreviews? key previewSuffix := by
  refine Option.ext fun previews => ?_
  rw [← getRecord_queries_iff reads, QueryStore.previews?]
  cases index.queries.getRecord tree QueryStore.decodePreviews? key previewSuffix <;> simp

theorem Stands.readsQuery (stands : index.Stands location tree) {suffix : String}
    (member : suffix ∈ [resultSuffix, previewSuffix]) (key : String) :
    Store.Reads tree index.root location queriesFolder key suffix :=
  stands.reads queriesFolder suffix (by decide) (by decide)
    (isShortSuffix_remembered member).toIsSuffix key

theorem Stands.result?_eq (stands : index.Stands location tree) (key : String) :
    index.queries.result? tree key = cached? location tree Json.toTexts? key resultSuffix :=
  result?_eq_of_reads (stands.readsQuery (by simp) key)

/-- Results are in a folder of their own. -/
theorem Stands.result?_of_agrees (stands : index.Stands location before)
    (stands' : index.Stands location after) {own : List String}
    (agrees : before.AgreesOutside location own after) (other : queriesFolder ∉ own)
    (key : String) : index.queries.result? after key = index.queries.result? before key := by
  rw [stands'.result?_eq, stands.result?_eq, cached?, cached?, agrees.record? other]

/-- Without the folder of results there are none. -/
theorem Stands.result?_eq_none (stands : index.Stands location tree)
    (missing : tree.kind? (location ++ [queriesFolder]) = none) (key : String) :
    index.queries.result? tree key = none := by
  rw [stands.result?_eq, cached?, FileTree.record?_of_none missing, Option.bind_none]

theorem Stands.previews?_eq (stands : index.Stands location tree) (key : String) :
    index.queries.previews? tree key =
      cached? location tree QueryStore.decodePreviews? key previewSuffix :=
  previews?_eq_of_reads (stands.readsQuery (by simp) key)

/-- What is remembered of a query comes from the cache, its records from beside it. -/
theorem Unchanged.remembered?_eq (unchanged : index.Unchanged location tree after)
    (stands : index.Stands location after) (caches : index.config.useQueryCache = true)
    (key : String) :
    index.remembered? after key =
      (cached? location after Json.toTexts? key resultSuffix).map
        (index.rememberedResults tree
          ((cached? location after QueryStore.decodePreviews? key previewSuffix).getD .empty)) := by
  rw [remembered?, if_pos caches, stands.result?_eq, stands.previews?_eq]
  exact congrArg (Option.map · _) (funext (rememberedResults_congr unchanged.keepsRecords.load? _))

/-! ## Writing the cache -/

theorem suffixesApart_remembered :
    Store.SuffixesApart resultSuffix previewSuffix ∧
      Store.SuffixesApart previewSuffix resultSuffix :=
  ⟨⟨by decide, by decide⟩, by decide, by decide⟩

/-- A record of the query cache is never refused. -/
theorem Stands.putQuery (stands : index.Stands location before) (query suffix : String)
    (member : suffix ∈ [resultSuffix, previewSuffix]) (record : Json) :
    ∃ after,
      (index.queries.putRecord (cacheKey query) suffix record).runOn before = (.ok (), after) ∧
      index.Stands location after ∧
      Store.PutsRecord location queriesFolder (cacheKey query) suffix record.toBytes before after
        true := by
  have proper := isShortSuffix_remembered member
  rcases run : (index.queries.putRecord (cacheKey query) suffix record).runOn before
    with ⟨outcome, after⟩
  obtain ⟨stands', puts⟩ := stands.put queriesFolder (by decide) (by decide) rfl
    proper.toIsSuffix run
  obtain ⟨names, placed, properNames⟩ := (Digest.isHexKey_cacheKey query).place? proper
  have succeeded := puts.succeeds names placed
    (List.forall_mem_cons.mpr ⟨isName_of_mem (by decide), properNames⟩)
  cases outcome with
  | error failure => cases succeeded
  | ok => exact ⟨after, rfl, stands', puts⟩

/-- Results are on record under a key, and other keys are as before. -/
structure Recorded (location : Location) (key : String) (results : List Hit)
    (before after : FileTree) : Prop where
  /-- Nothing else has changed. -/
  agrees : before.AgreesOutside location [queriesFolder] after
  /-- The documents are recorded. -/
  result : after.record? location queriesFolder key resultSuffix =
    some (Json.ofTexts (results.map Hit.documentKey)).toBytes
  /-- The previews are recorded. -/
  previews : after.record? location queriesFolder key previewSuffix =
    some (QueryStore.encodePreviews (previewsOf results)).toBytes
  /-- Other keys are not touched. -/
  others : ∀ other ≠ key, ∀ suffix ∈ [resultSuffix, previewSuffix],
    after.record? location queriesFolder other suffix =
      before.record? location queriesFolder other suffix

/-- Two writes record results. -/
theorem recorded_of_sets {key : String} {results : List Hit} {between : FileTree}
    (agrees : before.AgreesOutside location [queriesFolder] after)
    (first : Store.SetsRecord location queriesFolder key resultSuffix
      (Json.ofTexts (results.map Hit.documentKey)).toBytes before between true)
    (second : Store.SetsRecord location queriesFolder key previewSuffix
      (QueryStore.encodePreviews (previewsOf results)).toBytes between after true) :
    Recorded location key results before after where
  agrees := agrees
  result := (second.record?_of_apart suffixesApart_remembered.2 _).trans first.record?_self
  previews := second.record?_self
  others other different suffix member := by
    simp only [List.mem_cons, List.not_mem_nil, or_false] at member
    rcases member with rfl | rfl
    · exact (second.record?_of_apart suffixesApart_remembered.2 _).trans
        (first.record?_of_ne different)
    · exact (second.record?_of_ne different).trans
        (first.record?_of_apart suffixesApart_remembered.1 _)

/-- The two writes of remembered results. -/
def rememberTask (index : Index) (key : String) (results : List Hit) : TaskM Unit := do
  index.queries.saveResult key (results.map Hit.documentKey)
  index.queries.savePreviews key (previewsOf results)

theorem remember_eq (index : Index) (key : String) (results : List Hit) (tree : FileTree) :
    index.remember key results tree = ((), ((index.rememberTask key results).runOn tree).2) := rfl

/-- The writes succeed and record the results. -/
theorem Stands.runOn_rememberTask (stands : index.Stands location before) (query : String)
    (results : List Hit) :
    ∃ after, (index.rememberTask (cacheKey query) results).runOn before = (.ok (), after) ∧
      index.Stands location after ∧ Recorded location (cacheKey query) results before after := by
  obtain ⟨between, first, stands', puts⟩ := stands.putQuery query resultSuffix (by simp)
    (.ofTexts (results.map Hit.documentKey))
  obtain ⟨after, second, stands'', puts'⟩ := stands'.putQuery query previewSuffix
    (by simp) (QueryStore.encodePreviews (previewsOf results))
  have run : (index.rememberTask (cacheKey query) results).runOn before = (.ok (), after) :=
    TaskM.bind_ok_iff.mpr ⟨(), between, first, second⟩
  exact ⟨after, run, stands'', recorded_of_sets (puts.stays.agrees.trans puts'.stays.agrees)
    puts.toSetsRecord puts'.toSetsRecord⟩

/-- Remembering results records them. -/
theorem Stands.remember (stands : index.Stands location before) (query : String)
    (results : List Hit) :
    ∃ after, index.remember (cacheKey query) results before = ((), after) ∧
      index.Stands location after ∧ Recorded location (cacheKey query) results before after := by
  obtain ⟨after, run, stands', recorded⟩ := stands.runOn_rememberTask query results
  exact ⟨after, by rw [remember_eq, run], stands', recorded⟩

theorem map_documentKey_hit (keys : List DocumentKey) :
    (keys.map (index.hit tree term)).map Hit.documentKey = keys := by
  rw [List.map_map]
  exact List.map_id keys

/-- Previews that can be numbered are read back. -/
theorem Recorded.cached?_previews {keys : List DocumentKey} {key : String}
    (recorded : Recorded location key (keys.map (index.hit tree term)) before after)
    (numbered : index.HasNumberedTexts tree) :
    cached? location after QueryStore.decodePreviews? key previewSuffix =
      some (previewsOf (keys.map (index.hit tree term))) := by
  rw [cached?, recorded.previews, Option.bind_some,
    Json.decodeBytes?_toBytes _ (QueryStore.wellFormed_encodePreviews _),
    numbered.decodePreviews?_previewsOf]

/-- The documents of recorded results are read back. -/
theorem Recorded.cached?_result {key : String} {results : List Hit}
    (recorded : Recorded location key results before after) :
    cached? location after Json.toTexts? key resultSuffix =
      some (results.map Hit.documentKey) := by
  rw [cached?, recorded.result, Option.bind_some,
    Json.decodeBytes?_toBytes _ (Json.wellFormed_ofTexts _), Json.toTexts?_ofTexts]

/-- What is remembered after results have been recorded: they come back under their key, and other
keys give what they gave. -/
theorem Recorded.remembered?_eq {keys : List DocumentKey} {key : String}
    (recorded : Recorded location key (keys.map (index.hit tree term)) before after)
    (unchanged : index.Unchanged location tree before) (stands : index.Stands location before)
    (stands' : index.Stands location after) (copies : HasNumberedCopies location tree)
    (caches : index.config.useQueryCache = true) (distinct : keys.Nodup) (other : String) :
    index.remembered? after other =
      if other = key then some (keys.map (index.hit tree term))
      else index.remembered? before other := by
  have later : index.Unchanged location tree after :=
    ⟨unchanged.stands, unchanged.agrees.trans recorded.agrees⟩
  rw [later.remembered?_eq stands' caches, unchanged.remembered?_eq stands caches]
  split
  · rename_i same
    subst same
    rw [recorded.cached?_result,
      recorded.cached?_previews (unchanged.stands.hasNumberedTexts copies), Option.map_some,
      Option.getD_some, map_documentKey_hit,
      rememberedResults_eq distinct fun key member => getD_find?_previewsOf member]
  · rename_i different
    rw [cached?, cached?, cached?, cached?, recorded.others other different _ (by simp),
      recorded.others other different _ (by simp)]

end Index
end SourceSearch
