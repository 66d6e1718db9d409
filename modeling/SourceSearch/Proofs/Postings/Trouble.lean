import Mathlib.Data.Nat.Find
import SourceSearch.Proofs.Postings.Handover

/-!
# Writing with failures

Between two calls of a writer anything may happen to the disk, so that writes fail for some time and
then go through again.  A writer forgets the keys that it has handed over, whether their shards were
written or not, and a save tells of the failures since the save before it only.  So a save that
succeeds vouches for the shards of its own time, and shards that were lost before are lost for good.
-/

namespace SourceSearch

variable {root : Path} {own : List String} {location : Location} {folder : String}
  {tree before between after disturbed : FileTree} {trigram : Trigram} {generation : Nat}

/-! ## Shards that can be read -/

/-- The keys of a shard, if it can be read. -/
def FileTree.storedKeys? (tree : FileTree) (base : Path) (trigram : Trigram) (generation : Nat) :
    Option (SortedSet DocumentKey) :=
  (tree.readRecord StoredShard.ofJson? (Postings.shardFile base trigram generation)).toOption.map
    StoredShard.documents

/-- The folder of a namespace in a tree that hosts it, where anything but links may stand. -/
structure LooseNamespace (root : Path) (own : List String) (location : Location) (folder : String)
    (tree : FileTree) : Prop where
  /-- The path to the folder around it holds good. -/
  hosts : tree.Hosts root own location
  /-- The namespace is one of the folders that may change. -/
  member : folder ∈ own
  /-- Its name is plain. -/
  plain : IsPlain folder
  /-- There are no links in it. -/
  linkless : tree.Linkless location folder
  /-- Names are proper. -/
  named : tree.WellNamed

theorem Namespace.loose (site : Namespace root own location folder tree) (named : tree.WellNamed) :
    LooseNamespace root own location folder tree :=
  ⟨site.hosts, site.member, site.plain, site.layered.linkless, named⟩

namespace LooseNamespace

/-- The keys of a shard are those of the file at its place. -/
theorem storedKeys?_eq (site : LooseNamespace root own location folder tree) (trigram : Trigram)
    (generation : Nat) :
    tree.storedKeys? (root / folder) trigram generation =
      ((tree.fileAt? (location ++ folder :: Postings.shardPlace trigram generation)).bind
        (Json.decodeBytes? StoredShard.ofJson?)).map StoredShard.documents := by
  obtain ⟨entries, found⟩ := site.hosts.find
  rw [FileTree.storedKeys?, FileTree.toOption_readRecord,
    FileTree.read_shard site.named found site.linkless site.plain]

/-- A step in the namespace that puts a file leaves a namespace. -/
theorem step (site : LooseNamespace root own location folder before) {front : List String}
    {last : String} {content : ByteArray} {succeeded : Bool}
    (puts : FileTree.PutsFile location folder front last content before after succeeded) :
    LooseNamespace root own location folder after where
  hosts := site.hosts.of_agrees (puts.agrees.mono (by simpa using site.member))
  member := site.member
  plain := site.plain
  linkless := puts.linkless site.linkless
  named := puts.named site.named

/-- Writing a file of a trigram puts it at its place, or leaves all files as they are. -/
theorem writeRecord (site : LooseNamespace root own location folder before) {suffix : String}
    (proper : IsSuffix suffix) {record : Json} {outcome : Except Failure Unit}
    (run : (TaskM.writeRecord ((root / folder).below (Postings.placeOf trigram suffix))
      record).runOn before = (outcome, after)) :
    LooseNamespace root own location folder after ∧
      ∀ place, after.fileAt? place =
        if outcome.isOk = true ∧ place = location ++ folder :: Postings.placeOf trigram suffix then
          some record.toBytes
        else before.fileAt? place := by
  obtain ⟨front, last, split⟩ : ∃ front last, Postings.placeOf trigram suffix = front ++ [last] :=
    ⟨_, _, (List.dropLast_concat_getLast (Postings.placeOf_ne_nil _ _)).symm⟩
  have plain : ∀ name ∈ folder :: front ++ [last], IsPlain name := by
    rw [List.cons_append, ← split]
    exact List.forall_mem_cons.mpr ⟨site.plain, Postings.isPlain_placeOf proper⟩
  rw [← Path.below_cons, split, TaskM.writeRecord] at run
  have puts := FileTree.writeFile_puts site.hosts site.member site.linkless plain run
  rw [split]
  exact ⟨site.step puts, puts.fileAt?_eq⟩

/-- Writing the file of a shard changes no other shard. -/
theorem writeShard (site : LooseNamespace root own location folder before) {ready : ReadyShard}
    {outcome : Except Failure Unit}
    (run : (TaskM.writeRecord (Postings.shardFile (root / folder) ready.trigram ready.generation)
      (StoredShard.toJson ⟨ready.keys, ready.generation, ready.trigram⟩)).runOn before =
        (outcome, after)) :
    LooseNamespace root own location folder after ∧ ∀ trigram generation,
      after.fileAt? (location ++ folder :: Postings.shardPlace trigram generation) =
        if outcome.isOk = true ∧ trigram = ready.trigram ∧ generation = ready.generation then
          some (shardBytes ready.trigram ready.generation ready.keys)
        else before.fileAt? (location ++ folder :: Postings.shardPlace trigram generation) := by
  rw [Postings.shardFile_eq] at run
  obtain ⟨site', files⟩ := site.writeRecord (Postings.isSuffix_shardEnd ready.generation) run
  refine ⟨site', fun trigram generation => (files _).trans (if_congr (and_congr_right' ?_) rfl rfl)⟩
  rw [List.append_cancel_left_eq, List.cons.injEq, eq_self, true_and]
  exact ⟨Postings.shardPlace_injective, fun ⟨one, other⟩ => one ▸ other ▸ rfl⟩

/-- Writing a count changes no shard. -/
theorem writeCount (site : LooseNamespace root own location folder before) (count : StoredCount)
    {outcome : Except Failure Unit}
    (run : (TaskM.writeRecord (Postings.countFile (root / folder) count.trigram)
      count.toJson).runOn before = (outcome, after)) :
    LooseNamespace root own location folder after ∧ ∀ trigram generation,
      after.fileAt? (location ++ folder :: Postings.shardPlace trigram generation) =
        before.fileAt? (location ++ folder :: Postings.shardPlace trigram generation) := by
  rw [Postings.countFile_eq] at run
  obtain ⟨site', files⟩ := site.writeRecord Postings.isSuffix_countSuffix run
  refine ⟨site', fun trigram generation => (files _).trans (if_neg ?_)⟩
  rintro ⟨-, same⟩
  rw [List.append_cancel_left_eq, List.cons.injEq] at same
  exact Postings.shardPlace_ne_countPlace trigram count.trigram generation same.2

end LooseNamespace

/-! ## Shards that are handed over -/

/-- What becomes of the shards of a namespace where others are handed over: whatever can be read
afterwards could be read before or is one of those, and what could be read before still can. -/
structure Progresses (root : Path) (own : List String) (location : Location) (folder : String)
    (jobs : List ReadyShard) (before after : FileTree) : Prop where
  /-- The namespace is still there. -/
  site : LooseNamespace root own location folder after
  /-- Nothing else appears. -/
  only : ∀ trigram, ∀ generation ≤ Json.max32, ∀ keys,
    after.storedKeys? (root / folder) trigram generation = some keys →
      before.storedKeys? (root / folder) trigram generation = some keys ∨
        ∃ ready ∈ jobs, ready.trigram = trigram ∧ ready.generation = generation ∧ ready.keys = keys
  /-- Nothing disappears. -/
  stays : ∀ trigram, ∀ generation ≤ Json.max32,
    (before.storedKeys? (root / folder) trigram generation).isSome →
      (after.storedKeys? (root / folder) trigram generation).isSome

namespace Progresses

variable {jobs more : List ReadyShard}

theorem refl (site : LooseNamespace root own location folder tree) :
    Progresses root own location folder [] tree tree :=
  ⟨site, fun _ _ _ _ held => .inl held, fun _ _ _ held => held⟩

theorem trans (first : Progresses root own location folder jobs before between)
    (second : Progresses root own location folder more between after) :
    Progresses root own location folder (jobs ++ more) before after where
  site := second.site
  only trigram generation fits keys held := by
    rcases second.only trigram generation fits keys held with held | ⟨ready, member, is⟩
    · rcases first.only trigram generation fits keys held with held | ⟨ready, member, is⟩
      · exact .inl held
      · exact .inr ⟨ready, List.mem_append_left _ member, is⟩
    · exact .inr ⟨ready, List.mem_append_right _ member, is⟩
  stays trigram generation fits held :=
    second.stays trigram generation fits (first.stays trigram generation fits held)

/-- The file of a shard is written or no shard changes. -/
theorem of_files {ready : ReadyShard} {wrote : Bool}
    (site : LooseNamespace root own location folder before)
    (site' : LooseNamespace root own location folder after)
    (files : ∀ trigram generation,
      after.fileAt? (location ++ folder :: Postings.shardPlace trigram generation) =
        if wrote = true ∧ trigram = ready.trigram ∧ generation = ready.generation then
          some (shardBytes ready.trigram ready.generation ready.keys)
        else before.fileAt? (location ++ folder :: Postings.shardPlace trigram generation)) :
    Progresses root own location folder [ready] before after ∧
      (wrote = true → ready.generation ≤ Json.max32 →
        (after.storedKeys? (root / folder) ready.trigram ready.generation).isSome) := by
  have stored (fits : ready.generation ≤ Json.max32) (done : wrote = true) :
      after.storedKeys? (root / folder) ready.trigram ready.generation = some ready.keys := by
    rw [site'.storedKeys?_eq, files, if_pos ⟨done, rfl, rfl⟩, Option.bind_some,
      decodeBytes?_shardBytes fits]
    rfl
  have other {trigram : Trigram} {generation : Nat}
      (apart : ¬ (wrote = true ∧ trigram = ready.trigram ∧ generation = ready.generation)) :
      after.storedKeys? (root / folder) trigram generation =
        before.storedKeys? (root / folder) trigram generation := by
    rw [site'.storedKeys?_eq, files, if_neg apart, site.storedKeys?_eq]
  refine ⟨⟨site', fun trigram generation fits keys held => ?_,
    fun trigram generation fits held => ?_⟩,
    fun done fits => Option.isSome_of_eq_some (stored fits done)⟩
  · by_cases here : wrote = true ∧ trigram = ready.trigram ∧ generation = ready.generation
    · obtain ⟨done, rfl, rfl⟩ := here
      rw [stored fits done] at held
      exact .inr ⟨ready, List.mem_singleton_self _, rfl, rfl, Option.some.inj held⟩
    · exact .inl (other here ▸ held)
  · by_cases here : wrote = true ∧ trigram = ready.trigram ∧ generation = ready.generation
    · obtain ⟨done, rfl, rfl⟩ := here
      exact Option.isSome_of_eq_some (stored fits done)
    · rwa [other here]

/-- A sink that takes a shard and has no failure afterwards had none before, and wrote it. -/
theorem accept (site : LooseNamespace root own location folder before) {ready : ReadyShard}
    {sink later : ShardSink} (base : sink.base = root / folder)
    (run : sink.accept ready before = (later, after)) :
    Progresses root own location folder [ready] before after ∧ later.base = root / folder ∧
      (later.failure = none → sink.failure = none ∧ (ready.generation ≤ Json.max32 →
        (after.storedKeys? (root / folder) ready.trigram ready.generation).isSome)) := by
  rw [ShardSink.accept_eq, base, ReadyShard.write, TaskM.runOn_bind] at run
  rcases first : (TaskM.writeRecord
      (Postings.shardFile (root / folder) ready.trigram ready.generation)
      (StoredShard.toJson ⟨ready.keys, ready.generation, ready.trigram⟩)).runOn before
    with ⟨outcome, between⟩
  obtain ⟨site', shards⟩ := site.writeShard first
  rw [first] at run
  cases outcome with
  | error failure =>
      cases run
      refine ⟨(of_files site site' shards).1, rfl, fun clean => ?_⟩
      simp at clean
  | ok =>
      rcases second : (TaskM.writeRecord (Postings.countFile (root / folder) ready.trigram)
          (StoredCount.toJson ⟨ready.trigram, ready.total⟩)).runOn between with ⟨outcome, last⟩
      obtain ⟨site'', unchanged⟩ := site'.writeCount ⟨ready.trigram, ready.total⟩ second
      obtain ⟨progresses, stored⟩ := of_files site site'' fun trigram generation =>
        (unchanged trigram generation).trans (shards trigram generation)
      simp only [second] at run
      cases outcome with
      | error failure =>
          cases run
          refine ⟨progresses, rfl, fun clean => ?_⟩
          simp at clean
      | ok =>
          cases run
          exact ⟨progresses, base, fun clean => ⟨clean, stored rfl⟩⟩

/-- A sink that takes shards and has no failure afterwards had none before, and wrote all of
them. -/
theorem acceptAll (site : LooseNamespace root own location folder before) {sink later : ShardSink}
    (base : sink.base = root / folder)
    (run : ShardSink.acceptAll jobs sink before = (later, after)) :
    Progresses root own location folder jobs before after ∧ later.base = root / folder ∧
      (later.failure = none → sink.failure = none ∧ ∀ ready ∈ jobs,
        ready.generation ≤ Json.max32 →
          (after.storedKeys? (root / folder) ready.trigram ready.generation).isSome) := by
  induction jobs generalizing sink before with
  | nil =>
      cases run
      exact ⟨.refl site, base, fun clean => ⟨clean, by simp⟩⟩
  | cons ready rest ih =>
      rw [ShardSink.acceptAll_cons] at run
      rcases step : sink.accept ready before with ⟨next, between⟩
      rw [step] at run
      obtain ⟨first, base', here⟩ := accept site base step
      obtain ⟨others, base'', there⟩ := ih first.site base' run
      refine ⟨first.trans others, base'', fun clean => ?_⟩
      obtain ⟨clean', stored⟩ := there clean
      obtain ⟨clean'', stored'⟩ := here clean'
      rw [List.forall_mem_cons]
      exact ⟨clean'', fun fits => others.stays _ _ fits (stored' fits), stored⟩

end Progresses

/-! ## Runs -/

/-- What may happen to the disk between two calls: the namespace stays one without links, and the
same shards can be read.  Anything may be put where a file is still to be written, and be taken away
again. -/
structure Disturbs (root : Path) (own : List String) (location : Location) (folder : String)
    (before after : FileTree) : Prop where
  /-- The namespace is still there. -/
  site : LooseNamespace root own location folder after
  /-- Shards are not touched. -/
  same : ∀ trigram generation, after.storedKeys? (root / folder) trigram generation =
    before.storedKeys? (root / folder) trigram generation

theorem Disturbs.refl (site : LooseNamespace root own location folder tree) :
    Disturbs root own location folder tree tree := ⟨site, fun _ _ => rfl⟩

/-- Folders may be made where files are still to be written. -/
theorem LooseNamespace.obstructed (site : LooseNamespace root own location folder tree)
    {names : List String} (plain : ∀ name ∈ folder :: names, IsPlain name)
    (clean : ∀ name ∈ folder :: names, '\x00' ∉ name.toList) :
    Disturbs root own location folder tree (tree.makeFoldersFrom location (folder :: names)).1 := by
  rcases made : tree.makeFoldersFrom location (folder :: names) with ⟨after, fault⟩
  obtain ⟨makes, -, -⟩ := FileTree.makeFoldersFrom_spec (List.nil_append (folder :: names))
    site.linkless (by simpa using site.hosts.kind?) plain clean (by simpa using made)
  have site' : LooseNamespace root own location folder after :=
    ⟨site.hosts.of_agrees (makes.agrees.mono (by simpa using site.member)), site.member,
      site.plain, makes.linkless site.linkless, makes.named site.named⟩
  refine ⟨site', fun trigram generation => ?_⟩
  rw [site'.storedKeys?_eq, makes.fileAt?_eq, site.storedKeys?_eq]

/-- A call with its outcome. -/
abbrev MadeCall : Type := WriterCall × Except Failure Unit

/-- The calls without their outcomes. -/
def MadeCall.calls (made : List MadeCall) : List WriterCall := made.map Prod.fst

theorem MadeCall.calls_append (front rest : List MadeCall) :
    calls (front ++ rest) = calls front ++ calls rest := List.map_append

/-- Calls are made one after another, each on a disk that has been disturbed after the one before
it, and whatever their outcome is. -/
inductive TroubledRun (root : Path) (own : List String) (location : Location) (folder : String) :
    PostingsWriter → FileTree → List MadeCall → PostingsWriter → FileTree → Prop where
  /-- No call is made. -/
  | done {writer tree} : TroubledRun root own location folder writer tree [] writer tree
  /-- One call is made and then others. -/
  | call {writer tree disturbed call outcome next between calls last after}
      (disturbs : Disturbs root own location folder tree disturbed)
      (made : WriterCall.run writer call disturbed = ((outcome, next), between))
      (rest : TroubledRun root own location folder next between calls last after) :
      TroubledRun root own location folder writer tree ((call, outcome) :: calls) last after

variable {threshold : Nat} {ledgers : Ledgers} {secured : Trigram → Nat}
  {writer next last : PostingsWriter} {calls front rest : List MadeCall}

theorem TroubledRun.append_iff :
    TroubledRun root own location folder writer tree (front ++ rest) last after ↔
      ∃ next between, TroubledRun root own location folder writer tree front next between ∧
        TroubledRun root own location folder next between rest last after := by
  constructor
  · intro run
    induction front generalizing writer tree with
    | nil => exact ⟨writer, tree, .done, run⟩
    | cons made front ih =>
        cases run with
        | call disturbs step more =>
            obtain ⟨next, between, first, later⟩ := ih more
            exact ⟨next, between, .call disturbs step first, later⟩
  · rintro ⟨next, between, first, later⟩
    induction first with
    | done => exact later
    | call disturbs step _ ih => exact .call disturbs step (ih later)

/-- A writer whose writes may have failed: the shards that can be read are those of the ledgers, and
as long as the sink has no failure, all shards from a number of each trigram on are among them. -/
structure Tracks (root : Path) (own : List String) (location : Location) (folder : String)
    (threshold : Nat) (secured : Trigram → Nat) (ledgers : Ledgers) (writer : PostingsWriter)
    (tree : FileTree) : Prop where
  /-- It writes into the namespace. -/
  base : writer.sink.base = root / folder
  /-- Shards have this size. -/
  threshold_eq : writer.threshold = threshold
  /-- What is pending waits. -/
  follows : writer.Follows ledgers
  /-- No other shards can be read. -/
  only : ∀ trigram, ∀ generation ≤ Json.max32, ∀ keys,
    tree.storedKeys? (root / folder) trigram generation = some keys →
      (ledgers trigram).shards[generation]? = some keys
  /-- Shards are there unless a write has failed. -/
  written : writer.sink.failure = none → ∀ trigram generation, secured trigram ≤ generation →
    generation < (ledgers trigram).shards.length → generation ≤ Json.max32 →
      (tree.storedKeys? (root / folder) trigram generation).isSome

namespace Tracks

/-- A new writer for a namespace without shards starts from empty ledgers. -/
theorem new (fresh : ∀ trigram generation,
      tree.storedKeys? (root / folder) trigram generation = none) (threshold : Nat) :
    Tracks root own location folder (max threshold 1) (fun _ => 0) (fun _ => {})
      (.new (root / folder) threshold) tree where
  base := rfl
  threshold_eq := rfl
  follows := PostingsWriter.follows_new _ _
  only trigram generation _ keys held := by
    rw [fresh] at held
    cases held
  written _ _ _ _ inside := nomatch inside

/-- One may start to count from the present. -/
theorem forget (tracks : Tracks root own location folder threshold secured ledgers writer tree) :
    Tracks root own location folder threshold (fun trigram => (ledgers trigram).shards.length)
      ledgers writer tree :=
  { tracks with written := fun _ _ _ past inside => absurd inside (Nat.not_lt.mpr past) }

/-- Shards that are handed over on a disturbed disk are written unless the sink has a failure. -/
theorem submit (tracks : Tracks root own location folder threshold secured ledgers writer tree)
    (disturbs : Disturbs root own location folder tree disturbed) {later : Ledgers}
    {jobs : List ReadyShard}
    (submits : PostingsWriter.Submits ledgers later jobs writer disturbed next after) :
    Progresses root own location folder jobs disturbed after ∧
      Tracks root own location folder threshold secured later next after := by
  obtain ⟨progresses, base, stored⟩ :=
    Progresses.acceptAll disturbs.site tracks.base submits.accepts
  refine ⟨progresses, base, submits.threshold_eq.trans tracks.threshold_eq, submits.follows,
    fun trigram generation fits keys held => ?_,
    fun clean trigram generation past inside fits => ?_⟩
  · rcases progresses.only trigram generation fits keys held with held | ⟨ready, member, is⟩
    · rw [disturbs.same] at held
      exact submits.handsOver.shard (tracks.only trigram generation fits keys held)
    · obtain ⟨rfl, rfl, rfl⟩ := is
      exact submits.handsOver.listed ready member
  · obtain ⟨clean, stored⟩ := stored clean
    by_cases old : generation < (ledgers trigram).shards.length
    · refine progresses.stays trigram generation fits ?_
      rw [disturbs.same]
      exact tracks.written clean trigram generation past old fits
    · obtain ⟨ready, member, rfl, rfl⟩ := submits.handsOver.complete trigram generation _
        (Nat.not_lt.mp old) (List.getElem?_eq_getElem inside)
      exact stored ready member fits

/-- A call is one step of every ledger, whatever its outcome is.  If it succeeds, what was secured
remains so. -/
theorem call (tracks : Tracks root own location folder threshold secured ledgers writer tree)
    (disturbs : Disturbs root own location folder tree disturbed) {call : WriterCall}
    {outcome : Except Failure Unit}
    (made : call.run writer disturbed = ((outcome, next), after)) :
    (∃ jobs, Progresses root own location folder jobs disturbed after) ∧
      Tracks root own location folder threshold
        (if outcome.isOk then secured else fun trigram =>
          ((ledgers trigram).call threshold trigram call).shards.length)
        (fun trigram => (ledgers trigram).call threshold trigram call) next after ∧
      (call = .save → next.sink.failure = none) := by
  obtain ⟨jobs, flushed, submits, closed⟩ := tracks.follows.call made
  rw [tracks.threshold_eq] at submits
  obtain ⟨progresses, tracks'⟩ := tracks.submit disturbs submits
  refine ⟨⟨jobs, progresses⟩, ?_⟩
  cases call with
  | add trigram key =>
      cases closed
      exact ⟨tracks', fun same => nomatch same⟩
  | save =>
      rw [WriterCall.close, ShardSink.settle] at closed
      cases failure : flushed.sink.failure with
      | none =>
          rw [failure] at closed
          cases closed
          exact ⟨tracks', fun _ => failure⟩
      | some failure' =>
          rw [failure] at closed
          cases closed
          exact ⟨{ tracks'.forget with
            written := fun _ _ _ past inside => absurd inside (Nat.not_lt.mpr past) }, fun _ => rfl⟩

end Tracks

/-- After calls the shards that can be read are those of their ledgers, nothing that could be read
before is lost, and what was secured before remains so if all calls have succeeded. -/
theorem TroubledRun.tracks (run : TroubledRun root own location folder writer tree calls last after)
    (tracks : Tracks root own location folder threshold secured ledgers writer tree) :
    (∃ later : Trigram → Nat, ((∀ made ∈ calls, made.2.isOk = true) → later = secured) ∧
      Tracks root own location folder threshold later
        (fun trigram => (ledgers trigram).after threshold trigram (MadeCall.calls calls)) last
        after) ∧
      ∀ trigram, ∀ generation ≤ Json.max32,
        (tree.storedKeys? (root / folder) trigram generation).isSome →
          (after.storedKeys? (root / folder) trigram generation).isSome := by
  induction run generalizing ledgers secured with
  | done => exact ⟨⟨secured, fun _ => rfl, tracks⟩, fun _ _ _ held => held⟩
  | @call writer tree disturbed call outcome next between calls last after disturbs made _ ih =>
      obtain ⟨⟨jobs, progresses⟩, tracks', -⟩ := tracks.call disturbs made
      obtain ⟨⟨later, same, tracked⟩, stays⟩ := ih tracks'
      refine ⟨⟨later, fun succeeded => ?_, tracked⟩, fun trigram generation fits held => ?_⟩
      · rw [List.forall_mem_cons] at succeeded
        rw [same succeeded.2, if_pos succeeded.1]
      · refine stays trigram generation fits (progresses.stays trigram generation fits ?_)
        rwa [disturbs.same]

/-- A save leaves no failure behind. -/
theorem TroubledRun.failure_eq_none {outcome : Except Failure Unit}
    (run : TroubledRun root own location folder writer tree [(.save, outcome)] last after)
    (tracks : Tracks root own location folder threshold secured ledgers writer tree) :
    last.sink.failure = none := by
  cases run with
  | call disturbs made rest =>
      cases rest
      exact (tracks.call disturbs made).2.2 rfl

/-! ## What a reader finds -/

section Readers

variable {reader : PostingsReader} {shards : List (SortedSet DocumentKey)}

/-- If only some shards can be read, a reader reads those before the first one that cannot. -/
theorem PostingsReader.readsShards_of_only (fits : reader.maxGenerations ≤ Json.max32)
    (only : ∀ generation ≤ Json.max32, ∀ keys,
      tree.storedKeys? reader.base trigram generation = some keys →
        shards[generation]? = some keys) :
    ∃ first, reader.ReadsShards tree trigram (shards.take first) ∧
      ∀ generation < reader.maxGenerations, generation < first ↔
        ∀ earlier ≤ generation, (tree.storedKeys? reader.base trigram earlier).isSome := by
  have ends : ∃ generation, tree.storedKeys? reader.base trigram generation = none ∨
      reader.maxGenerations ≤ generation := ⟨_, .inr (Nat.le_refl _)⟩
  -- The generation where reading stops.
  obtain ⟨first, stops, least⟩ : ∃ first,
      (tree.storedKeys? reader.base trigram first = none ∨ reader.maxGenerations ≤ first) ∧
        ∀ generation < first, ∃ keys, generation < reader.maxGenerations ∧
          tree.storedKeys? reader.base trigram generation = some keys := by
    refine ⟨Nat.find ends, Nat.find_spec ends, fun generation before => ?_⟩
    have goes := Nat.find_min ends before
    rw [not_or, Nat.not_le] at goes
    obtain ⟨keys, held⟩ := Option.ne_none_iff_exists'.mp goes.1
    exact ⟨keys, goes.2, held⟩
  refine ⟨first, fun generation whole within => ?_, fun generation within => ⟨?_, fun stored => ?_⟩⟩
  · rw [List.length_take] at whole
    change tree.storedKeys? reader.base trigram generation = _
    rcases Nat.lt_or_eq_of_le (Nat.le_trans whole (Nat.min_le_left _ _)) with before | rfl
    · obtain ⟨keys, -, held⟩ := least generation before
      rw [List.getElem?_take_of_lt before, held,
        only generation (Nat.le_of_lt (Nat.lt_of_lt_of_le within fits)) keys held]
    · rw [stops.resolve_right (Nat.not_le.mpr within), List.getElem?_take_eq_none (Nat.le_refl _)]
  · intro before earlier upTo
    obtain ⟨keys, -, held⟩ := least earlier (Nat.lt_of_le_of_lt upTo before)
    exact Option.isSome_of_eq_some held
  · refine Nat.lt_of_not_le fun past => ?_
    rcases stops with none | bound
    · have some := stored first past
      rw [none] at some
      cases some
    · exact Nat.not_lt.mpr (bound.trans past) within

/-- So it finds the keys of the shards before the first one that cannot be read. -/
theorem PostingsReader.mem_documents_of_only (fits : reader.maxGenerations ≤ Json.max32)
    (only : ∀ generation ≤ Json.max32, ∀ keys,
      tree.storedKeys? reader.base trigram generation = some keys →
        shards[generation]? = some keys) {key : DocumentKey} :
    key ∈ reader.documents tree trigram ↔
      ∃ generation < reader.maxGenerations, ∃ keys, shards[generation]? = some keys ∧
        key ∈ keys ∧ ∀ earlier ≤ generation,
          (tree.storedKeys? reader.base trigram earlier).isSome := by
  obtain ⟨first, reads, before_iff⟩ := readsShards_of_only fits only
  rw [reads.load_spec.2]
  constructor
  · rintro ⟨keys, member, inside⟩
    obtain ⟨generation, held⟩ := List.mem_iff_getElem?.mp member
    have bound := (List.getElem?_eq_some_iff.mp held).1
    rw [List.length_take, List.length_take] at bound
    rw [List.getElem?_take_of_lt (by omega), List.getElem?_take_of_lt (by omega)] at held
    have within : generation < reader.maxGenerations := by omega
    exact ⟨generation, within, keys, held, inside, (before_iff generation within).mp (by omega)⟩
  · rintro ⟨generation, within, keys, held, inside, stored⟩
    have before : generation < first := (before_iff generation within).mpr stored
    refine ⟨keys, List.mem_iff_getElem?.mpr ⟨generation, ?_⟩, inside⟩
    rw [List.getElem?_take_of_lt within, List.getElem?_take_of_lt before, held]

end Readers

/-- The shards that calls hand over for a trigram. -/
def shardsOf (threshold : Nat) (calls : List MadeCall) (trigram : Trigram) :
    List (SortedSet DocumentKey) :=
  (Ledger.ofCalls threshold (MadeCall.calls calls) trigram).shards

/-- After a save every key that was added is in a shard. -/
theorem exists_mem_shardsOf_iff (threshold : Nat) {outcome : Except Failure Unit}
    {key : DocumentKey} :
    (∃ keys ∈ shardsOf threshold (calls ++ [(.save, outcome)]) trigram, key ∈ keys) ↔
      key ∈ WriterCall.keysFor (MadeCall.calls (calls ++ [(.save, outcome)])) trigram := by
  have flushed : Ledger.ofCalls threshold (MadeCall.calls (calls ++ [(.save, outcome)])) trigram =
      (Ledger.ofCalls threshold (MadeCall.calls calls) trigram).flush := by
    rw [MadeCall.calls_append, Ledger.ofCalls, Ledger.after, List.foldl_append]
    rfl
  have holds : (Ledger.ofCalls threshold (MadeCall.calls (calls ++ [(.save, outcome)]))
      trigram).Holds key ↔ _ := Ledger.holds_ofCalls
  rw [← holds, shardsOf, flushed, Ledger.holds_flush, Ledger.holds_flush_iff]

/-- What calls on a disk with failures have left when a save has just succeeded. -/
structure SavedInTrouble (base : Path) (threshold : Nat) (calls : List MadeCall) (tree : FileTree) :
    Prop where
  /-- Readers find the keys of all shards before the first one that has been lost. -/
  documents : ∀ reader : PostingsReader, reader.base = base →
    reader.maxGenerations ≤ Json.max32 → ∀ trigram key, key ∈ reader.documents tree trigram ↔
      ∃ generation < reader.maxGenerations, ∃ keys,
        (shardsOf threshold calls trigram)[generation]? = some keys ∧ key ∈ keys ∧
          ∀ earlier ≤ generation, (tree.storedKeys? base trigram earlier).isSome
  /-- A save that has succeeded vouches for the shards that it has handed over, and for those of the
  calls before it as far as they have succeeded. -/
  secured : ∀ front made rest, calls = front ++ (made ++ [(.save, .ok ())]) ++ rest →
    (∀ entry ∈ made, entry.2.isOk = true) → ∀ trigram generation,
      (shardsOf threshold front trigram).length ≤ generation →
        generation < (shardsOf threshold (front ++ (made ++ [(.save, .ok ())])) trigram).length →
          generation ≤ Json.max32 → (tree.storedKeys? base trigram generation).isSome
  /-- If no save has failed, readers that admit all shards find the keys that were added. -/
  complete : (∀ entry ∈ calls, entry.2.isOk = true) → ∀ reader : PostingsReader,
    reader.base = base → reader.maxGenerations ≤ Json.max32 → ∀ trigram,
      (shardsOf threshold calls trigram).length ≤ reader.maxGenerations →
        reader.documents tree trigram =
          .ofList (WriterCall.keysFor (MadeCall.calls calls) trigram)

/-- A shard is there if a save that has handed it over, or one after it, has succeeded and no save
in between has failed. -/
theorem TroubledRun.isSome_storedKeys? {made : List MadeCall}
    (fresh : ∀ trigram generation,
      tree.storedKeys? (root / folder) trigram generation = none)
    (run : TroubledRun root own location folder (.new (root / folder) threshold) tree
      (front ++ (made ++ [(.save, .ok ())]) ++ rest) last after)
    (succeeded : ∀ entry ∈ made, entry.2.isOk = true) {trigram : Trigram} {generation : Nat}
    (past : (shardsOf threshold front trigram).length ≤ generation)
    (inside : generation <
      (shardsOf threshold (front ++ (made ++ [(.save, .ok ())])) trigram).length)
    (fits : generation ≤ Json.max32) :
    (after.storedKeys? (root / folder) trigram generation).isSome := by
  obtain ⟨next, between, run, remaining⟩ := TroubledRun.append_iff.mp run
  obtain ⟨begun, start, first, run⟩ := TroubledRun.append_iff.mp run
  obtain ⟨settling, before, calls, save⟩ := TroubledRun.append_iff.mp run
  obtain ⟨⟨_, -, tracks⟩, -⟩ := first.tracks (.new fresh threshold)
  -- From here on all calls succeed, so whatever they hand over is secured.
  obtain ⟨⟨later, same, tracks'⟩, -⟩ := run.tracks tracks.forget
  obtain ⟨⟨_, -, tracks''⟩, -⟩ := calls.tracks tracks
  have clean := save.failure_eq_none tracks''
  refine (remaining.tracks tracks').2 trigram generation fits
    (tracks'.written clean trigram generation ?_ ?_ fits)
  · rw [same]
    · exact past
    · rw [List.forall_mem_append, List.forall_mem_singleton]
      exact ⟨succeeded, rfl⟩
  · rw [shardsOf, Ledger.ofCalls, MadeCall.calls_append, Ledger.after, List.foldl_append] at inside
    exact inside

/-- **A save that succeeds tells of the failures since the last save only.**  Start in a namespace
without shards, add keys and save in any order, and let anything happen to the disk between the
calls that leaves the shards alone, so that some writes fail.  When a save succeeds, the shards are
there that were handed over since the last save that failed, and so are those that an earlier save
has vouched for; readers find the keys of all shards before the first one that is not there. -/
theorem PostingsWriter.saved_in_trouble
    (fresh : ∀ trigram generation,
      tree.storedKeys? (root / folder) trigram generation = none)
    (run : TroubledRun root own location folder (.new (root / folder) threshold) tree
      (calls ++ [(.save, .ok ())]) last after) :
    SavedInTrouble (root / folder) threshold (calls ++ [(.save, .ok ())]) after := by
  obtain ⟨⟨_, -, tracks⟩, -⟩ := run.tracks (.new fresh threshold)
  have secured : ∀ front made rest,
      calls ++ [(.save, .ok ())] = front ++ (made ++ [(.save, .ok ())]) ++ rest →
      (∀ entry ∈ made, entry.2.isOk = true) → ∀ trigram generation,
        (shardsOf threshold front trigram).length ≤ generation →
          generation < (shardsOf threshold (front ++ (made ++ [(.save, .ok ())])) trigram).length →
            generation ≤ Json.max32 →
              (after.storedKeys? (root / folder) trigram generation).isSome := by
    intro front made rest whole succeeded trigram generation past inside fits
    exact (whole ▸ run).isSome_storedKeys? fresh succeeded past inside fits
  have documents : ∀ reader : PostingsReader, reader.base = root / folder →
      reader.maxGenerations ≤ Json.max32 → ∀ trigram key, key ∈ reader.documents after trigram ↔
        ∃ generation < reader.maxGenerations, ∃ keys,
          (shardsOf threshold (calls ++ [(.save, .ok ())]) trigram)[generation]? = some keys ∧
            key ∈ keys ∧ ∀ earlier ≤ generation,
              (after.storedKeys? (root / folder) trigram earlier).isSome := by
    intro reader base fits trigram key
    rw [← base]
    exact reader.mem_documents_of_only fits (base ▸ tracks.only trigram)
  refine ⟨documents, secured, fun succeeded reader base fits trigram enough => ?_⟩
  refine SortedSet.ext_mem fun key => ?_
  rw [documents reader base fits, SortedSet.mem_ofList, ← exists_mem_shardsOf_iff threshold]
  constructor
  · rintro ⟨generation, -, keys, held, inside, -⟩
    exact ⟨keys, List.mem_of_getElem? held, inside⟩
  · rintro ⟨keys, member, inside⟩
    obtain ⟨generation, held⟩ := List.mem_iff_getElem?.mp member
    have bound := (List.getElem?_eq_some_iff.mp held).1
    refine ⟨generation, Nat.lt_of_lt_of_le bound enough, keys, held, inside, ?_⟩
    intro earlier before
    have within : earlier < (shardsOf threshold (calls ++ [(.save, .ok ())]) trigram).length :=
      Nat.lt_of_le_of_lt before bound
    refine secured [] calls [] (by simp) (fun entry member => ?_) trigram earlier (Nat.zero_le _)
      (by simpa using within) (by omega)
    exact succeeded entry (List.mem_append_left _ member)

/-! ## A key that is lost -/

/-- The sample with a folder at the place of a shard. -/
def blockedTree : FileTree :=
  (emptyIndexTree.makeFoldersFrom ["index"] ["postings", "61", "62", "61_62_63.0.reference"]).1

/-- A writer with one key, whose shard cannot be written. -/
def blockedWriter : PostingsWriter :=
  (PostingsWriter.add (.new (emptyIndexRoot / "postings") 2) "abc" "1" emptyIndexTree).1

/-- It saves, which fails, and then it saves again. -/
def savedAgain : (Except Failure Unit × PostingsWriter) × FileTree :=
  (blockedWriter.save blockedTree).1.2.save (blockedWriter.save blockedTree).2

theorem loose_emptyIndexTree :
    LooseNamespace emptyIndexRoot ["postings"] ["index"] "postings" emptyIndexTree :=
  namespace_emptyIndexTree.loose wellNamed_emptyIndexTree

theorem storedKeys?_emptyIndexTree (trigram : Trigram) (generation : Nat) :
    emptyIndexTree.storedKeys? (emptyIndexRoot / "postings") trigram generation = none := by
  rw [loose_emptyIndexTree.storedKeys?_eq, FileTree.fileAt?_of_none rfl]
  rfl

theorem disturbs_blockedTree :
    Disturbs emptyIndexRoot ["postings"] ["index"] "postings" emptyIndexTree blockedTree := by
  refine loose_emptyIndexTree.obstructed ?_ ?_
  · simp only [List.forall_mem_cons, List.not_mem_nil, false_implies, implies_true, and_true]
    refine ⟨?_, ?_, ?_, ?_⟩ <;> exact ⟨by decide, by decide, by decide, by decide⟩
  · simp only [List.forall_mem_cons, List.not_mem_nil, false_implies, implies_true, and_true]
    decide

/-- The first save fails, the second one succeeds, and the key is in no postings list. -/
theorem PostingsWriter.saved_in_trouble_lost : ∃ failure last after,
    TroubledRun emptyIndexRoot ["postings"] ["index"] "postings"
        (.new (emptyIndexRoot / "postings") 2) emptyIndexTree
        ([(.add "abc" "1", .ok ()), (.save, .error failure)] ++ [(.save, .ok ())]) last after ∧
      SavedInTrouble (emptyIndexRoot / "postings") 2
        ([(.add "abc" "1", .ok ()), (.save, .error failure)] ++ [(.save, .ok ())]) after ∧
      ∀ reader : PostingsReader, reader.base = emptyIndexRoot / "postings" →
        reader.documents after "abc" = .empty := by
  have add : WriterCall.run (.new (emptyIndexRoot / "postings") 2) (.add "abc" "1")
      emptyIndexTree = ((.ok (), blockedWriter), emptyIndexTree) := rfl
  obtain ⟨failure, fails⟩ : ∃ failure, (blockedWriter.save blockedTree).1.1 = .error failure := by
    cases outcome : (blockedWriter.save blockedTree).1.1 with
    | error failure => exact ⟨failure, rfl⟩
    | ok =>
        have none : (blockedWriter.save blockedTree).1.1.toOption = none := by decide +kernel
        rw [outcome] at none
        cases none
  have succeeds : savedAgain.1.1 = .ok () := by
    have done : savedAgain.1.1.toOption = some () := by decide +kernel
    cases outcome : savedAgain.1.1 with
    | ok => rfl
    | error failure =>
        rw [outcome] at done
        cases done
  have save : WriterCall.run blockedWriter .save blockedTree = ((.error failure, _), _) :=
    Prod.ext (Prod.ext fails rfl) rfl
  have again : WriterCall.run _ .save _ = ((.ok (), savedAgain.1.2), savedAgain.2) :=
    Prod.ext (Prod.ext succeeds rfl) rfl
  -- The namespace is still there after the first save.
  have tracks : Tracks emptyIndexRoot ["postings"] ["index"] "postings" 2 _ _ _ emptyIndexTree :=
    .new storedKeys?_emptyIndexTree 2
  obtain ⟨-, tracks, -⟩ := tracks.call (.refl loose_emptyIndexTree) add
  obtain ⟨⟨_, progresses⟩, -, -⟩ := tracks.call disturbs_blockedTree save
  have run : TroubledRun emptyIndexRoot ["postings"] ["index"] "postings"
      (.new (emptyIndexRoot / "postings") 2) emptyIndexTree
      ([(.add "abc" "1", .ok ()), (.save, .error failure)] ++ [(.save, .ok ())])
      savedAgain.1.2 savedAgain.2 :=
    .call (.refl loose_emptyIndexTree) add (.call disturbs_blockedTree save
      (.call (.refl progresses.site) again .done))
  have lost : (savedAgain.2.storedKeys? (emptyIndexRoot / "postings") "abc" 0).isNone = true := by
    decide +kernel
  refine ⟨failure, _, _, run, saved_in_trouble storedKeys?_emptyIndexTree run, ?_⟩
  intro reader base
  refine PostingsReader.documents_eq_empty ?_
  rw [base]
  exact Option.map_eq_none_iff.mp (Option.isNone_iff_eq_none.mp lost)

end SourceSearch
