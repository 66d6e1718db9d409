import SourceSearch.Config.Basic
import SourceSearch.Index.Summary
import SourceSearch.Proofs.Json.PrintedText
import SourceSearch.Proofs.Json.Records

/-!
# All kinds of records are read back

Every record that is kept in a file or printed has a written form of its own kind.  Whatever the
texts in a value are, and whatever its numbers are within the ranges of their fields, the value is
read back from what is written of it: from one line as files have it, and from several lines as
results are printed.
-/

namespace SourceSearch

/-! ## Codecs of results -/

namespace Occurrence

theorem wellFormed_toJson (occurrence : Occurrence) : occurrence.toJson.WellFormed :=
  Json.wellFormed_record (by simp)

theorem ofJson?_toJson {occurrence : Occurrence} (bound : occurrence.count ≤ Json.max64) :
    ofJson? occurrence.toJson = some occurrence := by
  rw [ofJson?, toJson, Json.fields?_record _ (by simp)]
  simp [List.lookup_cons, Json.Fields.required, Json.Fields.at?, Json.toNat?_ofNat bound]

end Occurrence

namespace UsageState

theorem ofName?_name (state : UsageState) : ofName? state.name = some state := by
  cases state <;> decide

theorem ofJson?_toJson (state : UsageState) : ofJson? state.toJson = some state := by
  rw [toJson, Json.ofText, ofJson?, Json.readText?_escape]
  exact ofName?_name state

end UsageState

namespace Usage

theorem wellFormed_toJson (usage : Usage) : usage.toJson.WellFormed :=
  Json.wellFormed_record (by simp [UsageState.toJson])

theorem ofJson?_toJson {usage : Usage} (bound : usage.count ≤ Json.max64) :
    ofJson? usage.toJson = some usage := by
  rw [ofJson?, toJson, Json.fields?_record _ (by simp)]
  simp [List.lookup_cons, Json.Fields.required, Json.Fields.at?, Json.toNat?_ofNat bound,
    UsageState.ofJson?_toJson]

end Usage

namespace Details

/-- The sizes in the diagnostics fit their fields. -/
def Fits (details : Details) : Prop :=
  (∀ usage ∈ details.usage, usage.count ≤ Json.max64) ∧
    ∀ occurrence ∈ details.occurrences, occurrence.count ≤ Json.max64

theorem wellFormed_toJson (details : Details) : details.toJson.WellFormed := by
  refine Json.wellFormed_record ?_
  simp only [List.forall_mem_cons, List.not_mem_nil, false_implies, implies_true, and_true]
  exact ⟨Json.wellFormed_ofTexts _,
    Json.wellFormed_array (List.forall_mem_map.mpr fun usage _ => usage.wellFormed_toJson),
    Json.wellFormed_array (List.forall_mem_map.mpr fun entry _ => entry.wellFormed_toJson)⟩

theorem ofJson?_toJson {details : Details} (fits : details.Fits) :
    ofJson? details.toJson = some details := by
  have usage := Json.toList?_array fun usage member => Usage.ofJson?_toJson (fits.1 usage member)
  have occurrences := Json.toList?_array fun occurrence member =>
    Occurrence.ofJson?_toJson (fits.2 occurrence member)
  rw [ofJson?, toJson, Json.fields?_record _ (by simp)]
  simp [List.lookup_cons, Json.Fields.required, Json.Fields.at?, usage, occurrences]

end Details

namespace Hit

/-- The numbers of the document's record and those of the lines fit their fields. -/
def Fits (hit : Hit) : Prop :=
  (∀ record ∈ hit.metadata, record.Fits) ∧ ∀ line ∈ hit.preview.toList, line.1 ≤ Json.max64

/-- The members that are written: a record that is absent and an empty preview have none. -/
def members (hit : Hit) : List (String × Json) :=
  [("document_key", .ofText hit.documentKey)] ++
    (hit.metadata.toList.map fun record => ("metadata", record.toJson)) ++
    (if hit.preview.isEmpty then [] else [("preview", .ofNatMap .ofText hit.preview)])

theorem toJson_eq (hit : Hit) : hit.toJson = .record hit.members := rfl

theorem fst_members (hit : Hit) : hit.members.map Prod.fst =
    ["document_key"] ++ (if hit.metadata.isSome then ["metadata"] else []) ++
      (if hit.preview.isEmpty then [] else ["preview"]) := by
  cases known : hit.metadata <;> cases shown : hit.preview.isEmpty <;> simp [members, known, shown]

theorem lookup_members (hit : Hit) :
    ["document_key", "metadata", "preview"].map (hit.members.lookup ·) =
      [some (.ofText hit.documentKey), hit.metadata.map Metadata.toJson,
        if hit.preview.isEmpty then none else some (.ofNatMap .ofText hit.preview)] := by
  cases known : hit.metadata <;> cases shown : hit.preview.isEmpty <;>
    simp [members, known, shown, List.lookup_cons]

theorem wellFormed_toJson (hit : Hit) : hit.toJson.WellFormed := by
  refine Json.wellFormed_record fun member written => ?_
  rw [List.mem_append, List.mem_append, List.mem_singleton, List.mem_map] at written
  obtain (rfl | ⟨record, -, rfl⟩) | shown := written
  · exact Json.wellFormed_ofText _
  · exact record.wellFormed_toJson
  · split at shown
    · exact absurd shown List.not_mem_nil
    · rw [List.mem_singleton.mp shown]
      exact Json.wellFormed_ofNatMap Json.wellFormed_ofText _

/-- A result is read back, whichever of its members are left out. -/
theorem ofJson?_toJson {hit : Hit} (fits : hit.Fits) : ofJson? hit.toJson = some hit := by
  obtain ⟨key, metadata, preview⟩ := hit
  have distinct : ((members ⟨key, metadata, preview⟩).map Prod.fst).Nodup := by
    rw [fst_members]
    cases metadata.isSome <;> cases preview.isEmpty <;> decide
  have record (first last : Option Json) :
      (Json.Fields.named [first, metadata.map Metadata.toJson, last]).nullable 1
        Metadata.ofJson? = some metadata := by
    cases metadata with
    | none => rfl
    | some record => exact congrArg (Option.map some) (Metadata.ofJson?_toJson (fits.1 record rfl))
  have lines (first second : Option Json) :
      (Json.Fields.named [first, second,
        if preview.isEmpty then none else some (.ofNatMap .ofText preview)]).withDefault 2
          (Json.toNatMap? Json.toText?) .empty = some preview := by
    split
    · exact congrArg some (SortedMap.ext (List.isEmpty_iff.mp ‹_›)).symm
    · exact Json.toNatMap?_ofNatMap (fun line _ => Json.toText?_ofText line.2) fits.2
  rw [ofJson?, toJson_eq, Json.fields?_record _ distinct, lookup_members]
  simp [Json.Fields.required, Json.Fields.at?, record, lines]

end Hit

/-! ## Codecs of summaries and settings -/

namespace BuildSummary

/-- The numbers of a summary fit their fields. -/
def Fits (summary : BuildSummary) : Prop :=
  summary.indexedDocuments ≤ Json.max64 ∧ summary.metadataDocuments ≤ Json.max64 ∧
    summary.contentTrigrams ≤ Json.max64 ∧ summary.metadataTrigrams ≤ Json.max64

theorem wellFormed_toJson (summary : BuildSummary) : summary.toJson.WellFormed :=
  Json.wellFormed_record (by simp)

theorem ofJson?_toJson {summary : BuildSummary} (fits : summary.Fits) :
    ofJson? summary.toJson = some summary := by
  obtain ⟨indexed, tagged, content, tags⟩ := fits
  rw [ofJson?, toJson, Json.fields?_record _ (by simp)]
  simp [List.lookup_cons, Json.Fields.required, Json.Fields.at?, Json.toNat?_ofNat indexed,
    Json.toNat?_ofNat tagged, Json.toNat?_ofNat content, Json.toNat?_ofNat tags,
    Function.comp_def]

end BuildSummary

namespace Config

/-- The numbers of the settings fit their fields. -/
structure Fits (config : Config) : Prop where
  flushThreshold : config.flushThreshold ≤ Json.max64
  contentAbortRatio : config.contentAbortRatio ≤ Json.max64
  metadataAbortRatio : config.metadataAbortRatio ≤ Json.max64
  maxShardGenerations : config.maxShardGenerations ≤ Json.max32
  parallelThreads : config.parallelThreads ≤ Json.max64
  flushWorkers : config.flushWorkers ≤ Json.max64
  maxFileSize : config.maxFileSize ≤ Json.max64

theorem wellFormed_toJson (config : Config) : config.toJson.WellFormed :=
  Json.wellFormed_record (by simp [Json.WellFormed])

theorem ofJson?_toJson {config : Config} (fits : config.Fits) :
    ofJson? config.toJson = some config := by
  rw [ofJson?, toJson, names, Json.fields?_record _ (by simp)]
  simp [List.lookup_cons, Json.Fields.withDefault, Json.Fields.at?, Json.toBool?,
    Json.toNat?_ofNat fits.flushThreshold, Json.toNat?_ofNat fits.contentAbortRatio,
    Json.toNat?_ofNat fits.metadataAbortRatio, Json.toNat?_ofNat fits.maxShardGenerations,
    Json.toNat?_ofNat fits.parallelThreads, Json.toNat?_ofNat fits.flushWorkers,
    Json.toNat?_ofNat fits.maxFileSize]

end Config

/-! ## Kinds of records -/

/-- A kind of records that are kept in files or printed. -/
inductive RecordKind where
  /-- The words of a document. -/
  | words
  /-- The trigrams of a document. -/
  | trigrams
  /-- How often each trigram of a document occurs. -/
  | frequencies
  /-- The documents of a result. -/
  | documents
  /-- The previews of a result. -/
  | previews
  /-- A document's record. -/
  | metadata
  /-- A shard of a postings list. -/
  | shard
  /-- The declared size of a postings list. -/
  | count
  /-- A trigram with the assumed size of its postings list. -/
  | occurrence
  /-- What a trigram did in a search. -/
  | usage
  /-- The diagnostics of a search. -/
  | details
  /-- A document that was found. -/
  | hit
  /-- All that was found. -/
  | hits
  /-- The summary of a build. -/
  | summary
  /-- The settings of an index. -/
  | config
  deriving DecidableEq

namespace RecordKind

/-- The values of a kind. -/
abbrev Value : RecordKind → Type
  | words => List String
  | trigrams => SortedSet Trigram
  | frequencies => SortedMap Trigram Nat
  | documents => List DocumentKey
  | previews => Previews
  | metadata => Metadata
  | shard => StoredShard
  | count => StoredCount
  | occurrence => Occurrence
  | usage => Usage
  | details => Details
  | hit => Hit
  | hits => List Hit
  | summary => BuildSummary
  | config => Config

/-- The written form of a value. -/
def toJson : (kind : RecordKind) → kind.Value → Json
  | words, value => .ofTexts value
  | trigrams, value => .ofTexts value.toList
  | frequencies, value => .ofMap .ofNat value
  | documents, value => .ofTexts value
  | previews, value => QueryStore.encodePreviews value
  | metadata, value => value.toJson
  | shard, value => value.toJson
  | count, value => value.toJson
  | occurrence, value => value.toJson
  | usage, value => value.toJson
  | details, value => value.toJson
  | hit, value => value.toJson
  | hits, value => .array (value.map Hit.toJson)
  | summary, value => value.toJson
  | config, value => value.toJson

/-- Read the written form of a value. -/
def ofJson? : (kind : RecordKind) → Json → Option kind.Value
  | words => Json.toTexts?
  | trigrams => Json.toTextSet?
  | frequencies => WordlistStore.decodeFrequencies?
  | documents => Json.toTexts?
  | previews => QueryStore.decodePreviews?
  | metadata => Metadata.ofJson?
  | shard => StoredShard.ofJson?
  | count => StoredCount.ofJson?
  | occurrence => Occurrence.ofJson?
  | usage => Usage.ofJson?
  | details => Details.ofJson?
  | hit => Hit.ofJson?
  | hits => Json.toList? Hit.ofJson?
  | summary => BuildSummary.ofJson?
  | config => Config.ofJson?

/-- The numbers of a value fit their fields. -/
def Fits : (kind : RecordKind) → kind.Value → Prop
  | words, _ | trigrams, _ | documents, _ => True
  | frequencies, value => ∀ entry ∈ value.toList, entry.2 ≤ Json.max64
  | previews, value => ∀ entry ∈ value.toList, ∀ line ∈ entry.2.toList, line.1 ≤ Json.max64
  | metadata, value => value.Fits
  | shard, value => value.generation ≤ Json.max32
  | count, value => value.count ≤ Json.max64
  | occurrence, value => value.count ≤ Json.max64
  | usage, value => value.count ≤ Json.max64
  | details, value => value.Fits
  | hit, value => value.Fits
  | hits, value => ∀ hit ∈ value, hit.Fits
  | summary, value => value.Fits
  | config, value => value.Fits

/-- What is written of a value can be printed. -/
theorem wellFormed_toJson : (kind : RecordKind) → (value : kind.Value) →
    (kind.toJson value).WellFormed
  | words, value => Json.wellFormed_ofTexts value
  | trigrams, value => Json.wellFormed_ofTexts value.toList
  | frequencies, value => Json.wellFormed_ofMap Json.wellFormed_ofNat value
  | documents, value => Json.wellFormed_ofTexts value
  | previews, value => QueryStore.wellFormed_encodePreviews value
  | metadata, value => value.wellFormed_toJson
  | shard, value => value.wellFormed_toJson
  | count, value => value.wellFormed_toJson
  | occurrence, value => value.wellFormed_toJson
  | usage, value => value.wellFormed_toJson
  | details, value => value.wellFormed_toJson
  | hit, value => value.wellFormed_toJson
  | hits, _ => Json.wellFormed_array (List.forall_mem_map.mpr fun hit _ => hit.wellFormed_toJson)
  | summary, value => value.wellFormed_toJson
  | config, value => value.wellFormed_toJson

/-- Decoding the written form of a value gives the value. -/
theorem ofJson?_toJson : (kind : RecordKind) → {value : kind.Value} → kind.Fits value →
    kind.ofJson? (kind.toJson value) = some value
  | words, value, _ => Json.toTexts?_ofTexts value
  | trigrams, value, _ => Json.toTextSet?_ofTexts value
  | frequencies, _, fits => Json.toTextMap?_ofMap fun entry member =>
      Json.toNat?_ofNat (fits entry member)
  | documents, value, _ => Json.toTexts?_ofTexts value
  | previews, _, fits => QueryStore.decodePreviews?_encodePreviews fits
  | metadata, _, fits => Metadata.ofJson?_toJson fits
  | shard, _, fits => StoredShard.ofJson?_toJson fits
  | count, _, fits => StoredCount.ofJson?_toJson fits
  | occurrence, _, fits => Occurrence.ofJson?_toJson fits
  | usage, _, fits => Usage.ofJson?_toJson fits
  | details, _, fits => Details.ofJson?_toJson fits
  | hit, _, fits => Hit.ofJson?_toJson fits
  | hits, _, fits => Json.toList?_array fun hit member => Hit.ofJson?_toJson (fits hit member)
  | summary, _, fits => BuildSummary.ofJson?_toJson fits
  | config, _, fits => Config.ofJson?_toJson fits

/-- Whatever texts and numbers a value of any kind holds, it is read back from the file that is
written for it and from the text that is printed of it.  Of a result the record and the preview are
written exactly if there are any. -/
theorem read_written :
    (∀ (kind : RecordKind) (value : kind.Value), kind.Fits value →
      Json.decodeBytes? kind.ofJson? (kind.toJson value).toBytes = some value ∧
      Json.decodeBytes? kind.ofJson? (kind.toJson value).prettyText.toUTF8 = some value) ∧
    ∀ found : Hit, ∃ members : List (String × Json), hit.toJson found = .record members ∧
      members.map Prod.fst = ["document_key"] ++
        (if found.metadata.isSome then ["metadata"] else []) ++
          (if found.preview.isEmpty then [] else ["preview"]) := by
  refine ⟨fun kind value fits => ?_, fun found => ⟨found.members, rfl, found.fst_members⟩⟩
  have formed : (kind.toJson value).WellFormed := wellFormed_toJson kind value
  constructor
  · rw [Json.decodeBytes?_toBytes _ formed]
    exact ofJson?_toJson kind fits
  · rw [Json.decodeBytes?_prettyText _ formed]
    exact ofJson?_toJson kind fits

/-- A result with a record and a line, whose texts have control characters, quotation marks and
characters beyond sixteen bits and whose numbers are as great as can be, and one with neither. -/
def sampleHits : List Hit := [
  { documentKey := "a\"\\\u0000\u001f\n𝄞",
    metadata := some {
      documentKey := "a\"\\\u0000\u001f\n𝄞"
      relativePath := "𐀀/ü\u007f.txt"
      fileName := "ü\u007f.txt"
      fileSize := Json.max64
      lineCount := Json.max64
      classes := .ofList [("file\ttype", "\u2028💾"), ("", "\"")] }
    preview := .ofList [(1, "\\u0041 \u0008\u000c\r"), (Json.max64, "")] },
  { documentKey := "", metadata := none, preview := .empty }]

theorem fits_sampleHits : hits.Fits sampleHits := by
  change ∀ hit ∈ sampleHits, hit.Fits
  rw [sampleHits, List.forall_mem_cons, List.forall_mem_singleton]
  refine ⟨⟨?_, ?_⟩, ?_, ?_⟩
  · rintro record ⟨⟩
    exact ⟨Nat.le_refl _, Nat.le_refl _⟩
  · decide
  · rintro record ⟨⟩
  · decide

theorem read_written_sampleHits :
    hits.Fits sampleHits ∧
      Json.decodeBytes? hits.ofJson? (hits.toJson sampleHits).toBytes = some sampleHits ∧
      Json.decodeBytes? hits.ofJson? (hits.toJson sampleHits).prettyText.toUTF8 =
        some sampleHits ∧
      ∃ members : List (String × Json), hit.toJson sampleHits[1] = .record members ∧
        members.map Prod.fst = ["document_key"] := by
  obtain ⟨file, printed⟩ := read_written.1 hits sampleHits fits_sampleHits
  exact ⟨fits_sampleHits, file, printed, read_written.2 sampleHits[1]⟩

end RecordKind
end SourceSearch
