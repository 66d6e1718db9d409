import SourceSearch.Proofs.Index.Retagged
import SourceSearch.Proofs.Search.Lookups
import SourceSearch.Proofs.Search.Transparency

/-!
# Class tags and the query cache

The postings of class tags can be cleared and rebuilt by themselves, but results of queries stay
when that happens.  So in a run of such operations a call is answered as it was when it was asked
for the first time.  If that was while the class tags were cleared, a call that looks for class tags
finds nothing from then on.
-/

namespace SourceSearch

namespace Call

/-- The call searches the postings of class tags. -/
def looksForTags (call : Call) : Bool :=
  call.lookups.any fun lookup => lookup.folder = Index.tagFolder

end Call

/-- The keys of the documents of an answer. -/
def documentKeys (answer : Except Failure (List Hit)) : Except Failure (List DocumentKey) :=
  answer.map (List.map Hit.documentKey)

/-- What is done to a built index: its class tags are cleared or rebuilt, or a call is asked. -/
inductive Operation where
  /-- Clear the postings of class tags. -/
  | clearTags
  /-- Rebuild the postings of class tags. -/
  | buildTags
  /-- Ask the call. -/
  | ask
  deriving DecidableEq

namespace Operation

/-- Class tags are there after an operation. -/
def leaves (tagged : Bool) : Operation → Bool
  | clearTags => false
  | buildTags => true
  | ask => tagged

/-- Class tags are there after operations. -/
def leavesAll (tagged : Bool) (steps : List Operation) : Bool := steps.foldl leaves tagged

/-- Whether class tags are there when the call is asked for the first time. -/
def firstAsk? (tagged : Bool) : List Operation → Option Bool
  | [] => none
  | clearTags :: rest => firstAsk? false rest
  | buildTags :: rest => firstAsk? true rest
  | ask :: _ => some tagged

theorem firstAsk?_cons (tagged : Bool) (step : Operation) (rest : List Operation) :
    firstAsk? tagged (step :: rest) =
      (firstAsk? tagged [step]).or (firstAsk? (step.leaves tagged) rest) := by
  cases step <;> rfl

end Operation

namespace Searcher

/-- Perform an operation, where the answer to the call does not matter. -/
def perform (call : Call) (searcher : Searcher) : Operation → TaskM Searcher
  | .clearTags => do
      searcher.index.clearTags
      return searcher
  | .buildTags => do
      let _ ← searcher.index.buildTags {}
      return searcher
  | .ask => do
      let (_, later) ← searcher.answer call
      return later

/-- Perform operations one after another. -/
def performAll (call : Call) (searcher : Searcher) (steps : List Operation) : TaskM Searcher :=
  steps.foldlM (perform call) searcher

end Searcher

namespace Index

variable {index : Index} {location : Location} {tree built now : FileTree}
  {documents : List IndexedDocument} {tagged : Bool} {call : Call}

/-! ## What is found in either state -/

/-- Without the query cache the keys of an answer are those of the candidates that pass. -/
theorem documentKeys_fresh : documentKeys (index.fresh tree call) =
    (index.candidates? tree call).map (index.passing tree call) := by
  rw [fresh_eq, documentKeys]
  cases index.candidates? tree call with
  | error failure => rw [Except.map, Except.map, Except.map]
  | ok found => rw [Except.map, Except.map, Except.map, map_documentKey_hit]

/-- The keys that a call finds without the query cache, with class tags or without. -/
def keysFound (index : Index) (built : FileTree) (call : Call) (tagged : Bool) :
    Except Failure (List DocumentKey) :=
  if call.looksForTags && !tagged then .ok [] else documentKeys (index.fresh built call)

/-- A call that looks for class tags does not fail. -/
theorem compiles_of_looksForTags (looks : call.looksForTags = true) : call.compiles = true := by
  cases call with
  | ofTerm term => rfl
  | ofQuery query =>
      cases compiled : query.filter with
      | ok filter =>
          rw [Call.compiles, compiled]
          rfl
      | error failure =>
          rw [Call.looksForTags, Call.lookups, compiled] at looks
          cases looks

theorem exists_keysFound (compiles : call.compiles = true) (index : Index) (built : FileTree)
    (tagged : Bool) : ∃ keys, index.keysFound built call tagged = .ok keys := by
  rw [keysFound]
  split
  · exact ⟨_, rfl⟩
  · obtain ⟨found, finds⟩ := exists_candidates compiles index built
    rw [documentKeys_fresh, finds]
    exact ⟨_, rfl⟩

theorem keysFound_eq_error (fails : call.compiles = false) {failure : Failure}
    (error : index.candidates? built call = .error failure) (tagged : Bool) :
    index.keysFound built call tagged = .error failure := by
  have looks : call.looksForTags ≠ true := fun looks =>
    Bool.false_ne_true (fails.symm.trans (compiles_of_looksForTags looks))
  rw [keysFound, if_neg (by simp [looks]), documentKeys_fresh, error, Except.map]

namespace Tends

theorem keepsRecords (tends : index.Tends location documents built tagged now)
    (taggable : index.Taggable location documents built) : index.KeepsRecords built now :=
  taggable.stands.unlinked.keepsRecords tends.agrees (by decide) (by decide)

theorem recalls (tends : index.Tends location documents built tagged now)
    (taggable : index.Taggable location documents built) : index.Recalls documents now where
  words _ member := by
    have keeps := taggable.keeps.of_agrees tends.agrees (by decide)
    exact keeps.words_eq tends.stands member
  records document member := by
    have keeps := taggable.keeps.of_agrees tends.agrees (by decide)
    exact keeps.load? tends.stands member (taggable.fits document member)

/-- While class tags are cleared there are no postings of them. -/
theorem documents_eq_empty (tends : index.Tends location documents built false now)
    (trigram : Trigram) : (index.reader tagFolder).documents now trigram = .empty := by
  refine PostingsReader.documents_eq_empty ?_
  rw [FileTree.toOption_readRecord, tends.stands.read_shard (by decide) (by decide),
    FileTree.fileAt?_of_none (tends.gone rfl)]
  rfl

/-- The postings of either namespace are keys of documents. -/
theorem keysOf_documents (tends : index.Tends location documents built tagged now)
    (taggable : index.Taggable location documents built)
    (fits : index.config.maxShardGenerations ≤ Json.max32) {folder : String}
    (member : folder ∈ [textFolder, tagFolder]) (trigram : Trigram) :
    KeysOf documents ((index.reader folder).documents now trigram) := by
  intro key held
  rcases List.mem_pair.mp member with rfl | rfl
  · obtain ⟨all, known, holds⟩ := taggable.texts
    obtain ⟨document, listed, rfl⟩ := tends.stands.keysOf_documents (by decide)
      (holds.of_agrees tends.agrees (by decide)) fits trigram key held
    exact known document listed
  · cases tagged with
    | true =>
        obtain ⟨ordered, perm, -, holds⟩ := tends.held rfl
        obtain ⟨document, listed, same⟩ :=
          tends.stands.keysOf_documents (by decide) holds fits trigram key held
        exact ⟨document, perm.mem_iff.mp listed, same⟩
    | false =>
        rw [tends.documents_eq_empty] at held
        exact absurd held SortedSet.not_mem_empty

/-- Every call that does not fail leaves its answer in the query cache. -/
theorem settles (tends : index.Tends location documents built tagged now)
    (taggable : index.Taggable location documents built)
    (fits : index.config.maxShardGenerations ≤ Json.max32) (compiles : call.compiles = true) :
    index.settles now call = true := by
  obtain ⟨found, finds⟩ := exists_candidates compiles index now
  refine (tends.recalls taggable).settles finds fun key member => ?_
  obtain ⟨some, all⟩ := (mem_candidates_iff finds).mp member
  obtain ⟨lookup, listed⟩ := List.exists_mem_of_ne_nil _ some
  obtain ⟨trigram, -, held⟩ := PostingsReader.exists_of_mem_search (all lookup listed)
  exact tends.keysOf_documents taggable fits (folder_of_mem_lookups listed) trigram key held

/-- Rebuilt class tags are searched like those that were built. -/
theorem search_tags (tends : index.Tends location documents built true now)
    (taggable : index.Taggable location documents built) {trigrams : SortedSet Trigram}
    (three : ∀ trigram ∈ trigrams, trigram.length = 3) (abortRatio : Nat) :
    index.tagReader.search abortRatio now trigrams =
      index.tagReader.search abortRatio built trigrams := by
  have files := taggable.tags.fileAt?_eq (tends.held rfl)
  refine PostingsReader.search_congr (fun trigram _ => ?_) (fun trigram inside => ?_) abortRatio
  · refine congrArg Prod.fst (PostingsReader.load_congr fun generation => ?_)
    have read := tends.stands.read_shard (by decide : tagFolder ∈ clearedFolders) (by decide)
      trigram generation
    have read' := taggable.stands.read_shard (by decide : tagFolder ∈ clearedFolders) (by decide)
      trigram generation
    exact read.trans (((files trigram).1 generation).trans read'.symm)
  · -- A count that was never written is told from a damaged one, so more than its content counts.
    have read := tends.stands.read_countFile (by decide : tagFolder ∈ clearedFolders) (by decide)
      (three trigram inside)
    have read' := taggable.stands.read_countFile (by decide : tagFolder ∈ clearedFolders)
      (by decide) (three trigram inside)
    rw [(files trigram).2, ← read'] at read
    exact PostingsReader.occurrence_congr read

/-- A search finds what it finds in the built index, as long as what it searches is there. -/
theorem lookUp_eq (tends : index.Tends location documents built tagged now)
    (taggable : index.Taggable location documents built) {lookup : Lookup}
    (listed : lookup ∈ call.lookups) (there : lookup.folder = tagFolder → tagged = true) :
    index.lookUp now lookup = index.lookUp built lookup := by
  have three : ∀ trigram ∈ lookup.trigrams, trigram.length = 3 := fun _ =>
    length_of_mem_lookups listed
  have member := folder_of_mem_lookups listed
  obtain ⟨folder, trigrams⟩ := lookup
  rcases List.mem_pair.mp member with rfl | rfl
  · exact taggable.stands.unlinked.search_of_agrees tends.agrees (by decide)
      (by decide : textFolder ∈ clearedFolders) (by decide) _ _
  · obtain rfl := there rfl
    exact tends.search_tags taggable three _

/-- Without the query cache a call is answered as after the build, if the class tags are there that
it looks for. -/
theorem fresh_eq (tends : index.Tends location documents built tagged now)
    (taggable : index.Taggable location documents built)
    (there : call.looksForTags = true → tagged = true) :
    index.fresh now call = index.fresh built call := by
  have keeps := tends.keepsRecords taggable
  have finds : index.candidates? now call = index.candidates? built call :=
    candidates?_eq_of_lookUp fun lookup listed => tends.lookUp_eq taggable listed fun folder =>
      there (List.any_eq_true.mpr ⟨lookup, listed, decide_eq_true folder⟩)
  rw [Index.fresh_eq, Index.fresh_eq, finds, keeps.passing, keeps.hit]

/-- A call that looks for class tags finds nothing without them. -/
theorem documentKeys_fresh_of_looksForTags
    (tends : index.Tends location documents built false now) (looks : call.looksForTags = true) :
    documentKeys (index.fresh now call) = .ok [] := by
  obtain ⟨found, finds⟩ := exists_candidates (compiles_of_looksForTags looks) index now
  obtain ⟨lookup, listed, folder⟩ := List.any_eq_true.mp looks
  have nothing : found = .empty := SortedSet.ext_mem fun key => by
    refine iff_of_false (fun member => ?_) SortedSet.not_mem_empty
    have searched := ((mem_candidates_iff finds).mp member).2 lookup listed
    rw [lookUp, of_decide_eq_true folder] at searched
    obtain ⟨trigram, -, held⟩ := PostingsReader.exists_of_mem_search searched
    rw [tends.documents_eq_empty] at held
    exact SortedSet.not_mem_empty held
  rw [documentKeys_fresh, finds, nothing, Except.map, passing_empty]

/-- What a call finds depends on whether class tags are there, and on nothing else. -/
theorem documentKeys_fresh_eq (tends : index.Tends location documents built tagged now)
    (taggable : index.Taggable location documents built) :
    documentKeys (index.fresh now call) = index.keysFound built call tagged := by
  rw [keysFound]
  split
  · rename_i without
    rw [Bool.and_eq_true, Bool.not_eq_true'] at without
    obtain ⟨looks, rfl⟩ := without
    exact tends.documentKeys_fresh_of_looksForTags looks
  · rename_i there
    rw [tends.fresh_eq taggable fun looks => by simpa [looks] using there]

end Tends

/-! ## Runs -/

/-- A run so far: if the call has been asked, what it found then is in the query cache. -/
structure Asked (index : Index) (location : Location) (documents : List IndexedDocument)
    (built : FileTree) (call : Call) (tagged : Bool) (first : Option Bool) (now : FileTree) : Prop
    extends index.Tends location documents built tagged now where
  /-- What it found. -/
  entry : index.queries.result? now call.key =
    first.bind fun tagged => (index.keysFound built call tagged).toOption

namespace Asked

variable {searcher : Searcher} {first : Option Bool}

/-- A call is answered as it was when it was asked for the first time. -/
theorem answer (asked : index.Asked location documents built call tagged first now)
    (taggable : index.Taggable location documents built)
    (fits : index.config.maxShardGenerations ≤ Json.max32)
    (caches : index.config.useQueryCache = true) (same : searcher.index = index) :
    ∃ result later after, searcher.answer call now = ((result, later), after) ∧
      later.index = index ∧
      documentKeys result = index.keysFound built call (first.getD tagged) ∧
      index.Asked location documents built call tagged (first.or (some tagged)) after := by
  cases compiles : call.compiles with
  | false =>
      -- A call that fails finds no entry and leaves none.
      obtain ⟨failure, errors⟩ := exists_error compiles
      have error := keysFound_eq_error compiles (errors index built)
      have entry := asked.entry
      simp only [error, Except.toOption, Option.bind_fun_none] at entry
      refine ⟨_, searcher, now, answer_of_error searcher (errors _ now) now, same,
        (error _).symm, asked.toTends, ?_⟩
      simp only [entry, error, Except.toOption, Option.bind_fun_none]
  | true =>
      cases first with
      | none =>
          obtain ⟨found, finds⟩ := exists_candidates compiles index now
          obtain ⟨later, after, kept, answers, stands, agrees, stored⟩ :=
            asked.stands.answer_of_no_result same finds asked.entry
          have keys : documentKeys (index.fresh now call) = index.keysFound built call tagged :=
            asked.documentKeys_fresh_eq taggable
          rw [documentKeys_fresh, finds, Except.map] at keys
          rw [caches, asked.settles taggable fits compiles, Bool.and_self, if_pos rfl] at stored
          refine ⟨_, later, after, answers, kept, ?_, asked.toTends.of_queries stands agrees, ?_⟩
          · rw [documentKeys, Except.map, map_documentKey_hit]
            exact keys
          · rw [stored, Option.none_or, Option.bind_some, ← keys]
            rfl
      | some before =>
          obtain ⟨keys, found⟩ := exists_keysFound compiles index built before
          have entry := asked.entry
          rw [Option.bind_some, found] at entry
          obtain ⟨hits, answers, listed⟩ := answer_of_result same caches compiles entry
          refine ⟨_, searcher, now, answers, same, ?_, asked.toTends, asked.entry⟩
          rw [Option.getD_some, found, documentKeys, Except.map, listed]

/-- Every operation succeeds and goes on with the run. -/
theorem perform (asked : index.Asked location documents built call tagged first now)
    (taggable : index.Taggable location documents built)
    (fits : index.config.maxShardGenerations ≤ Json.max32)
    (caches : index.config.useQueryCache = true) (same : searcher.index = index)
    (step : Operation) :
    ∃ later after, (searcher.perform call step).runOn now = (.ok later, after) ∧
      later.index = index ∧
      index.Asked location documents built call (step.leaves tagged)
        (first.or (Operation.firstAsk? tagged [step])) after := by
  subst same
  cases step with
  | clearTags =>
      obtain ⟨after, run, tends, agrees⟩ := asked.clear
      refine ⟨searcher, after, TaskM.bind_ok_iff.mpr ⟨(), after, run, rfl⟩, rfl, tends, ?_⟩
      rw [Operation.firstAsk?, Operation.firstAsk?, Option.or_none, ← asked.entry]
      exact asked.stands.result?_of_agrees tends.stands agrees (by decide) call.key
  | buildTags =>
      obtain ⟨summary, after, run, tends, agrees⟩ := asked.rebuild taggable {}
      refine ⟨searcher, after, TaskM.bind_ok_iff.mpr ⟨summary, after, run, rfl⟩, rfl, tends, ?_⟩
      rw [Operation.firstAsk?, Operation.firstAsk?, Option.or_none, ← asked.entry]
      exact asked.stands.result?_of_agrees tends.stands agrees (by decide) call.key
  | ask =>
      obtain ⟨result, later, after, answers, kept, -, asked⟩ :=
        asked.answer taggable fits caches rfl
      refine ⟨later, after, TaskM.bind_ok_iff.mpr ⟨(result, later), after, ?_, rfl⟩, kept, asked⟩
      rw [TaskM.runOn_lift, answers]

/-- Every run of operations succeeds. -/
theorem performAll (asked : index.Asked location documents built call tagged first now)
    (taggable : index.Taggable location documents built)
    (fits : index.config.maxShardGenerations ≤ Json.max32)
    (caches : index.config.useQueryCache = true) (same : searcher.index = index)
    (steps : List Operation) :
    ∃ later after, (searcher.performAll call steps).runOn now = (.ok later, after) ∧
      later.index = index ∧
      index.Asked location documents built call (Operation.leavesAll tagged steps)
        (first.or (Operation.firstAsk? tagged steps)) after := by
  induction steps generalizing searcher tagged first now with
  | nil => exact ⟨searcher, now, rfl, same, by rwa [Operation.firstAsk?, Option.or_none]⟩
  | cons step rest ih =>
      obtain ⟨between, middle, run, kept, asked⟩ := asked.perform taggable fits caches same step
      obtain ⟨later, after, run', kept', asked⟩ := ih asked kept
      refine ⟨later, after, ?_, kept', ?_⟩
      · rw [Searcher.performAll, List.foldlM_cons]
        exact TaskM.bind_ok_iff.mpr ⟨between, middle, run, run'⟩
      · rw [Option.or_assoc, ← Operation.firstAsk?_cons] at asked
        exact asked

end Asked

/-- **The first time a call is asked decides.**  After a build that succeeds class tags are cleared
and rebuilt and a call is asked, any number of times and in any order.  All of that succeeds, and
whenever class tags are there, without the query cache the call is answered as after the build.
With the query cache it has the same keys, unless it looks for class tags and was asked for the
first time while they were cleared: then it has none. -/
theorem answer_of_operations {scheme : KeyScheme} {classifier : Classifier} {crawlRoot : Path}
    {summary : BuildSummary} (hosted : index.IsHosted location tree) (named : tree.WellNamed)
    (keeps : classifier.KeepsKeys) (sizes : index.config.maxFileSize ≤ Json.max64)
    (generations : index.config.maxShardGenerations ≤ Json.max32)
    (run : (index.build scheme classifier crawlRoot).runOn tree = (.ok summary, built))
    (caches : index.config.useQueryCache = true) {searcher : Searcher}
    (same : searcher.index = index) (call : Call) {steps : List Operation}
    (tagged : Operation.leavesAll true steps = true) :
    ∃ later now, (searcher.performAll call steps).runOn built = (.ok later, now) ∧
      index.fresh now call = index.fresh built call ∧
      documentKeys (later.answer call now).1.1 =
        if call.looksForTags ∧ Operation.firstAsk? true steps = some false then .ok []
        else documentKeys (index.fresh now call) := by
  obtain ⟨⟨documents, taggable⟩, empty⟩ := taggable_of_build hosted named keeps sizes run
  have start : index.Asked location documents built call true none built :=
    ⟨.of_built taggable, taggable.stands.result?_eq_none empty call.key⟩
  obtain ⟨later, now, performs, kept, asked⟩ :=
    start.performAll taggable generations caches same steps
  rw [tagged, Option.none_or] at asked
  obtain ⟨result, _, _, answers, -, found, -⟩ := asked.answer taggable generations caches kept
  have fresh := asked.fresh_eq taggable fun _ : call.looksForTags = true => rfl
  refine ⟨later, now, performs, fresh, ?_⟩
  rw [answers, found, fresh, keysFound]
  cases Operation.firstAsk? true steps with
  | none => simp
  | some tagged => simp

/-- In the sample a query for a file type is asked while class tags are cleared, and after they have
been rebuilt it still finds nothing. -/
theorem answer_of_operations_sample : ∃ summary built later now,
    cachingIndex.Builds sampleScheme .standard ⟨"/src"⟩ ["index"] sampleTree summary built ∧
      (Searcher.performAll (.ofQuery (.tag Classifier.fileType "java")) { index := cachingIndex }
        [.clearTags, .ask, .buildTags]).runOn built = (.ok later, now) ∧
      documentKeys (later.answer (.ofQuery (.tag Classifier.fileType "java")) now).1.1 = .ok [] ∧
      documentKeys (cachingIndex.fresh now (.ofQuery (.tag Classifier.fileType "java"))) ≠
        .ok [] := by
  obtain ⟨summary, built, failed, builds⟩ := builds_cachingIndex
  have represents := builds.represents.1
  rw [indexedDocuments_cachingIndex failed] at represents
  have same : ({ index := cachingIndex } : Searcher).index = cachingIndex := rfl
  have tagged : Operation.leavesAll true [.clearTags, .ask, .buildTags] = true := by decide
  obtain ⟨later, now, performs, fresh, answers⟩ := answer_of_operations builds.hosted builds.named
    builds.keepsKeys builds.sizes builds.generations builds.succeeds rfl same
    (.ofQuery (.tag Classifier.fileType "java")) tagged
  rw [if_pos ⟨by decide, rfl⟩] at answers
  refine ⟨summary, built, later, now, builds, performs, answers, ?_⟩
  rw [fresh]
  have compiled : Query.filter (.tag Classifier.fileType "java") = .ok _ := rfl
  obtain ⟨hits, bare, lists⟩ := represents.lists_fresh_ofQuery (by decide)
    (withinShards_sample _) (withinShards_sample _) compiled (by decide)
  obtain ⟨document, member⟩ := exists_mem_sampleDocuments
  have satisfied : document.satisfies (.tag Classifier.fileType "java") = true := by
    have single : document.satisfies (.tag Classifier.fileType "java") =
        ((true && !false) &&
          ((carries document.record (Classifier.fileType, lowercase "java") && true) && !false)) :=
      rfl
    rw [single, carries, type_of_mem_sampleDocuments member]
    decide
  rw [bare, documentKeys, Except.map]
  exact fun nothing => lists.ne_nil member (IndexedDocument.satisfies_iff.mp satisfied)
    (List.map_eq_nil_iff.mp (Except.ok.inj nothing))

end Index
end SourceSearch
