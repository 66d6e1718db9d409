import SourceSearch.Proofs.Search.Calls

/-!
# What a run remembers

From an empty query cache on, the cache holds the answers of those calls that came first under
their keys and left an answer.  One call keeps this so, and by induction a whole run does.
-/

namespace SourceSearch
namespace Index

variable {index : Index} {location : Location} {tree now : FileTree} {searcher : Searcher}
  {earlier : List Call} {call : Call}

/-- An index that stands, with the query cache on and no result in it. -/
structure IsReady (index : Index) (location : Location) (tree : FileTree) : Prop where
  /-- The index stands. -/
  stands : index.Stands location tree
  /-- Answers are remembered. -/
  caches : index.config.useQueryCache = true
  /-- There are none yet. -/
  empty : ∀ key, tree.record? location queriesFolder key resultSuffix = none
  /-- The lines of copies can be numbered in a record. -/
  copies : HasNumberedCopies location tree

/-- An index of documents is one without the query cache as well. -/
theorem represents_uncached {documents : List IndexedDocument} :
    index.uncached.Represents location documents tree ↔
      index.Represents location documents tree := by
  constructor
  · rintro ⟨⟨⟨hosts, noLinks⟩, named, layered⟩, distinct, fits, keeps, copies, results, texts, tags⟩
    exact ⟨⟨⟨hosts, noLinks⟩, named, layered⟩, distinct, fits, keeps, copies, results, texts, tags⟩
  · rintro ⟨⟨⟨hosts, noLinks⟩, named, layered⟩, distinct, fits, keeps, copies, results, texts, tags⟩
    exact ⟨⟨⟨hosts, noLinks⟩, named, layered⟩, distinct, fits, keeps, copies, results, texts, tags⟩

/-- A build does not ask whether there is a query cache. -/
theorem builds_uncached {scheme : KeyScheme} {classifier : Classifier} {crawlRoot : Path}
    {summary : BuildSummary} {built : FileTree} :
    index.uncached.Builds scheme classifier crawlRoot location tree summary built ↔
      index.Builds scheme classifier crawlRoot location tree summary built := by
  constructor
  · rintro ⟨⟨hosts, noLinks⟩, named, keeps, sizes, generations, distinct, run⟩
    exact ⟨⟨hosts, noLinks⟩, named, keeps, sizes, generations, distinct, run⟩
  · rintro ⟨⟨hosts, noLinks⟩, named, keeps, sizes, generations, distinct, run⟩
    exact ⟨⟨hosts, noLinks⟩, named, keeps, sizes, generations, distinct, run⟩

theorem indexedDocuments_uncached (index : Index) (scheme : KeyScheme) (classifier : Classifier)
    (crawlRoot : Path) (tree : FileTree) (failed : List Path) :
    index.uncached.indexedDocuments scheme classifier crawlRoot tree failed =
      index.indexedDocuments scheme classifier crawlRoot tree failed := rfl

/-- A build leaves an empty query cache. -/
theorem Represents.isReady {documents : List IndexedDocument}
    (represents : index.Represents location documents tree)
    (caches : index.config.useQueryCache = true) : index.IsReady location tree where
  stands := represents.stands
  caches := caches
  empty key := FileTree.record?_of_none represents.noResults key _
  copies := represents.copies

/-- The call whose answer is remembered under a key. -/
def rememberedCall (index : Index) (tree : FileTree) (earlier : List Call) (key : String) :
    Option Call :=
  earlier.find? fun call => call.key = key && index.settles tree call

/-- The call whose answer is given to a call after earlier ones. -/
def source (index : Index) (tree : FileTree) (earlier : List Call) (call : Call) : Call :=
  match index.candidates? tree call with
  | .ok _ => (index.rememberedCall tree earlier call.key).getD call
  | .error _ => call

theorem settles_of_rememberedCall {key : String} {first : Call}
    (recalled : index.rememberedCall tree earlier key = some first) :
    first ∈ earlier ∧ first.key = key ∧ index.settles tree first = true := by
  have passed := List.find?_some recalled
  rw [Bool.and_eq_true, decide_eq_true_eq] at passed
  exact ⟨List.mem_of_find?_eq_some recalled, passed⟩

theorem rememberedCall_concat (key : String) :
    index.rememberedCall tree (earlier ++ [call]) key =
      (index.rememberedCall tree earlier key).or
        (if call.key = key && index.settles tree call then some call else none) := by
  rw [rememberedCall, List.find?_append, rememberedCall, List.find?_singleton]

/-- After earlier calls the query cache holds what they left, and all else is as at the start. -/
structure Remembers (index : Index) (location : Location) (tree : FileTree) (earlier : List Call)
    (now : FileTree) : Prop where
  /-- Only results have been added. -/
  unchanged : index.Unchanged location tree now
  /-- The index stands. -/
  stands : index.Stands location now
  /-- Under each key the first answer is remembered. -/
  answers : ∀ key, index.remembered? now key =
    (index.rememberedCall tree earlier key).bind fun call => (index.fresh tree call).toOption

theorem IsReady.remembers (ready : index.IsReady location tree) :
    index.Remembers location tree [] tree where
  unchanged := ⟨ready.stands, .refl _ _ _⟩
  stands := ready.stands
  answers key := by
    have unchanged : index.Unchanged location tree tree := ⟨ready.stands, .refl _ _ _⟩
    have nothing : cached? location tree Json.toTexts? key resultSuffix = none := by
      rw [cached?, ready.empty, Option.bind_none]
    rw [unchanged.remembered?_eq ready.stands ready.caches, nothing]
    rfl

namespace Remembers

/-- A call that leaves nothing new keeps what is remembered. -/
theorem keep (remembers : index.Remembers location tree earlier now)
    (nothing : index.settles tree call = true →
      (index.rememberedCall tree earlier call.key).isSome) :
    index.Remembers location tree (earlier ++ [call]) now where
  unchanged := remembers.unchanged
  stands := remembers.stands
  answers key := by
    rw [remembers.answers, rememberedCall_concat]
    cases recalled : index.rememberedCall tree earlier key with
    | some first => rfl
    | none =>
        rw [Option.none_or, if_neg]
        rw [Bool.and_eq_true, decide_eq_true_eq]
        rintro ⟨rfl, settles⟩
        have known := nothing settles
        rw [recalled] at known
        cases known

/-- The first answer under a key is remembered. -/
theorem remember (remembers : index.Remembers location tree earlier now)
    (ready : index.IsReady location tree) (settles : index.settles tree call = true)
    (new : index.rememberedCall tree earlier call.key = none) {found : SortedSet DocumentKey}
    (finds : index.candidates? tree call = .ok found) :
    ∃ after, index.remember call.key
        ((index.passing tree call found).map (index.hit tree call.shown?)) now = ((), after) ∧
      index.Remembers location tree (earlier ++ [call]) after := by
  obtain ⟨after, run, stands, recorded⟩ := remembers.stands.remember call.text
    ((index.passing tree call found).map (index.hit tree call.shown?))
  refine ⟨after, run, ⟨ready.stands, remembers.unchanged.agrees.trans recorded.agrees⟩, stands,
    fun key => ?_⟩
  have distinct : (index.passing tree call found).Nodup := found.nodup.sublist List.filter_sublist
  have key_eq : cacheKey call.text = call.key := rfl
  rw [recorded.remembered?_eq remembers.unchanged remembers.stands stands ready.copies ready.caches
    distinct, remembers.answers, rememberedCall_concat, key_eq]
  by_cases same : key = call.key
  · rw [if_pos same, same, new, Option.none_or, if_pos (by simp [settles]), Option.bind_some,
      fresh_eq, finds]
    rfl
  · rw [if_neg same, if_neg (by simp [Ne.symm same]), Option.or_none]

/-- **One call.**  It is answered as its source is without the cache, and the cache goes on to hold
what the calls left. -/
theorem answer (remembers : index.Remembers location tree earlier now)
    (ready : index.IsReady location tree) (same : searcher.index = index) (call : Call) :
    ∃ later after, searcher.answer call now =
        ((index.fresh tree (index.source tree earlier call), later), after) ∧
      later.index = index ∧ index.Remembers location tree (earlier ++ [call]) after := by
  subst same
  have unchanged := remembers.unchanged
  cases finds : searcher.index.candidates? tree call with
  | error failure =>
      have unsettled : searcher.index.settles tree call = false := by
        rw [Index.settles, finds]
      refine ⟨searcher, now, ?_, rfl, remembers.keep fun settles => ?_⟩
      · rw [answer_of_error searcher finds, source, finds, fresh_eq, finds, Except.map]
      · rw [unsettled] at settles
        cases settles
  | ok found =>
      have answers := remembers.answers call.key
      rw [source, finds]
      cases recalled : searcher.index.rememberedCall tree earlier call.key with
      | some first =>
          obtain ⟨-, -, settles⟩ := settles_of_rememberedCall recalled
          obtain ⟨hits, fresh⟩ := isOk_fresh_of_settles settles
          rw [recalled, Option.bind_some, fresh] at answers
          refine ⟨searcher, now, ?_, rfl, remembers.keep fun _ => ?_⟩
          · rw [answer_of_remembered finds answers, Option.getD_some, fresh]
          · rw [recalled, Option.isSome_some]
      | none =>
          rw [recalled, Option.bind_none] at answers
          obtain ⟨later, kept, run⟩ :=
            answer_of_forgotten searcher ((unchanged.candidates? call).trans finds) answers
          rw [unchanged.passing, unchanged.hit, unchanged.settles, ready.caches, Bool.true_and]
            at run
          rw [Option.getD_none, fresh_eq, finds, Except.map]
          cases settles : searcher.index.settles tree call with
          | false =>
              rw [settles, if_neg Bool.false_ne_true] at run
              refine ⟨later, now, run, kept, remembers.keep fun settled => ?_⟩
              rw [settles] at settled
              cases settled
          | true =>
              obtain ⟨after, written, remembers'⟩ :=
                remembers.remember ready settles recalled finds
              rw [settles, if_pos rfl, written] at run
              exact ⟨later, after, run, kept, remembers'⟩

/-- After a run the cache holds what its calls left. -/
theorem serve (remembers : index.Remembers location tree earlier now)
    (ready : index.IsReady location tree) (same : searcher.index = index) (calls : List Call) :
    ∃ later after, searcher.serve calls now = (later, after) ∧ later.index = index ∧
      index.Remembers location tree (earlier ++ calls) after := by
  induction calls generalizing searcher earlier now with
  | nil => exact ⟨searcher, now, rfl, same, by rwa [List.append_nil]⟩
  | cons call rest ih =>
      obtain ⟨later, after, run, kept, remembers'⟩ := remembers.answer ready same call
      obtain ⟨last, final, runs, kept', remembers''⟩ := ih remembers' kept
      refine ⟨last, final, ?_, kept', by rwa [List.append_cons]⟩
      change (later.serve rest) after = _ at runs
      change ((searcher.answer call now).1.2.serve rest) (searcher.answer call now).2 = _
      rw [run, runs]

end Remembers

/-- **A run.**  From an empty query cache on, every call is answered as its source is without the
cache. -/
theorem IsReady.answerAfter_eq (ready : index.IsReady location tree)
    (same : searcher.index = index) (earlier : List Call) (call : Call) :
    (searcher.answerAfter earlier call tree).1 =
      index.fresh tree (index.source tree earlier call) := by
  obtain ⟨later, now, runs, kept, remembers⟩ := ready.remembers.serve ready same earlier
  obtain ⟨last, after, run, -, -⟩ := remembers.answer ready kept call
  change ((searcher.serve earlier tree).1.answer call (searcher.serve earlier tree).2).1.1 = _
  rw [runs, run, List.nil_append]

theorem source_nil (index : Index) (tree : FileTree) (call : Call) :
    index.source tree [] call = call := by
  rw [source]
  cases index.candidates? tree call <;> rfl

/-- The first call is answered as without the cache. -/
theorem IsReady.answer_eq (ready : index.IsReady location tree) (same : searcher.index = index)
    (call : Call) : (searcher.answer call tree).1.1 = index.fresh tree call := by
  have first := ready.answerAfter_eq same [] call
  rwa [source_nil] at first

end Index
end SourceSearch
