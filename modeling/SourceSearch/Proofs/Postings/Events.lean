import Mathlib.Data.List.FinRange
import Mathlib.Data.List.Perm.Basic
import SourceSearch.Proofs.Postings.Concurrency

/-!
# What is told of a shared writer

Events tell which keys threads have inserted, which trigrams have been flushed and which shards have
come into a queue.  From them follow the ledger of every trigram and the order in which all adds
were made.
-/

namespace SourceSearch

/-! ## Shards as they are handed over -/

/-- Shards as they are handed over, the first of them with a generation and after a number of
keys. -/
def handedFrom (trigram : Trigram) : (generation total : Nat) → List (SortedSet DocumentKey) →
    List ReadyShard
  | _, _, [] => []
  | generation, total, keys :: rest =>
      ⟨trigram, generation, keys, total + keys.size⟩ ::
        handedFrom trigram (generation + 1) (total + keys.size) rest

section Handed

variable {trigram : Trigram} {generation total : Nat} {shards : List (SortedSet DocumentKey)}

theorem handedFrom_append (front rest : List (SortedSet DocumentKey)) :
    handedFrom trigram generation total (front ++ rest) =
      handedFrom trigram generation total front ++
        handedFrom trigram (generation + front.length)
          (total + (front.map SortedSet.size).sum) rest := by
  induction front generalizing generation total with
  | nil => rfl
  | cons keys front ih =>
      rw [List.cons_append, handedFrom, ih, handedFrom, List.cons_append, List.length_cons,
        List.map_cons, List.sum_cons, Nat.add_assoc, Nat.add_assoc, Nat.add_comm 1]

@[simp]
theorem keys_handedFrom :
    (handedFrom trigram generation total shards).map ReadyShard.keys = shards := by
  induction shards generalizing generation total with
  | nil => rfl
  | cons keys rest ih => rw [handedFrom, List.map_cons, ih]

@[simp]
theorem length_handedFrom :
    (handedFrom trigram generation total shards).length = shards.length := by
  rw [← List.length_map (f := ReadyShard.keys), keys_handedFrom]

theorem trigram_of_mem_handedFrom {ready : ReadyShard}
    (member : ready ∈ handedFrom trigram generation total shards) : ready.trigram = trigram := by
  induction shards generalizing generation total with
  | nil => cases member
  | cons keys rest ih =>
      rcases List.mem_cons.mp member with rfl | member
      · rfl
      · exact ih member

theorem take_handedFrom (count : Nat) :
    (handedFrom trigram generation total shards).take count =
      handedFrom trigram generation total (shards.take count) := by
  induction shards generalizing generation total count with
  | nil => simp [handedFrom]
  | cons keys rest ih =>
      cases count with
      | zero => rfl
      | succ count => rw [handedFrom, List.take_succ_cons, ih, List.take_succ_cons, handedFrom]

theorem getElem?_handedFrom (place : Nat) :
    (handedFrom trigram generation total shards)[place]? = shards[place]?.map fun keys =>
      ⟨trigram, generation + place, keys,
        total + ((shards.take (place + 1)).map SortedSet.size).sum⟩ := by
  induction shards generalizing generation total place with
  | nil => simp [handedFrom]
  | cons keys rest ih =>
      cases place with
      | zero => simp [handedFrom]
      | succ place =>
          rw [handedFrom, List.getElem?_cons_succ, ih, List.getElem?_cons_succ, List.take_succ_cons,
            List.map_cons, List.sum_cons, Nat.add_assoc, Nat.add_comm 1, Nat.add_assoc]

end Handed

namespace Ledger

/-- The shards of a ledger as they are handed over. -/
def handed (ledger : Ledger) (trigram : Trigram) : List ReadyShard :=
  handedFrom trigram 0 0 ledger.shards

/-- Add a key, if there is one, or flush. -/
def change (threshold : Nat) (ledger : Ledger) : Option DocumentKey → Ledger
  | some key => ledger.add threshold key
  | none => ledger.flush

theorem handed_flush (ledger : Ledger) (trigram : Trigram) :
    ledger.flush.handed trigram = ledger.handed trigram ++
      (if ledger.waiting.isEmpty then none else some (ledger.ready trigram)).toList := by
  cases empty : ledger.waiting.isEmpty with
  | true => simp [flush_of_isEmpty empty]
  | false =>
      rw [flush_of_some empty, handed, handedFrom_append, Nat.zero_add, Nat.zero_add]
      rfl

/-- An accumulator goes through the states of a ledger. -/
theorem take_pending (threshold : Nat) (ledger : Ledger) (trigram : Trigram)
    (key? : Option DocumentKey) :
    ∃ ready?, ledger.pending.take threshold trigram key? =
        (ready?, (ledger.change threshold key?).pending) ∧
      (ledger.change threshold key?).handed trigram = ledger.handed trigram ++ ready?.toList := by
  have flushes (ledger : Ledger) : ∃ ready?, ledger.pending.nextShard trigram =
        (ready?, ledger.flush.pending) ∧
      ledger.flush.handed trigram = ledger.handed trigram ++ ready?.toList :=
    ⟨_, ledger.nextShard_pending trigram, ledger.handed_flush trigram⟩
  cases key? with
  | none => exact flushes ledger
  | some key =>
      let grown : Ledger := { ledger with waiting := ledger.waiting.insert key }
      have takes : ledger.pending.take threshold trigram (some key) =
          if grown.waiting.size < threshold then (none, grown.pending)
          else grown.pending.nextShard trigram := rfl
      have adds : ledger.change threshold (some key) =
          if grown.waiting.size < threshold then grown else grown.flush := rfl
      rw [takes, adds]
      split
      · exact ⟨none, rfl, by rw [Option.toList_none, List.append_nil]; rfl⟩
      · exact flushes grown

end Ledger

/-! ## What events tell -/

namespace WriterEvent

variable {threads : Nat}

/-- The key that a thread has inserted by an event, with its trigram. -/
def additionOf? (thread : Fin threads) : WriterEvent threads → Option (Trigram × DocumentKey)
  | added one trigram key => if one = thread then some (trigram, key) else none
  | _ => none

/-- The shard of a trigram that came into a queue. -/
def shardOf? (trigram : Trigram) : WriterEvent threads → Option ReadyShard
  | submitted ready => if ready.trigram = trigram then some ready else none
  | _ => none

/-- The ledger of a trigram after an event. -/
def observe (threshold : Nat) (trigram : Trigram) (ledger : Ledger) : WriterEvent threads → Ledger
  | added _ other key => if other = trigram then ledger.add threshold key else ledger
  | flushed other => if other = trigram then ledger.flush else ledger
  | submitted _ => ledger

variable {threshold : Nat} {events : List (WriterEvent threads)}

/-- What a thread has inserted, in order. -/
def additionsOf (events : List (WriterEvent threads)) (thread : Fin threads) :
    List (Trigram × DocumentKey) :=
  events.filterMap (additionOf? thread)

/-- The shards of a trigram that have been submitted, in order. -/
def shardsOf (events : List (WriterEvent threads)) (trigram : Trigram) : List ReadyShard :=
  events.filterMap (shardOf? trigram)

/-- The ledger of a trigram after events. -/
def ledger (threshold : Nat) (events : List (WriterEvent threads)) (trigram : Trigram) : Ledger :=
  events.foldl (observe threshold trigram) {}

theorem additionsOf_append_change (thread one : Fin threads) (trigram : Trigram)
    (key? : Option DocumentKey) :
    additionsOf (events ++ [.ofChange thread trigram key?]) one =
      additionsOf events one ++
        if one = thread then (key?.map fun key => (trigram, key)).toList else [] := by
  rw [additionsOf, List.filterMap_append, ← additionsOf]
  cases key? with
  | none => simp [ofChange, additionOf?]
  | some key =>
      by_cases same : one = thread
      · simp [ofChange, additionOf?, same]
      · simp [ofChange, additionOf?, same, Ne.symm same]

theorem additionsOf_append_submitted (one : Fin threads) (ready : ReadyShard) :
    additionsOf (events ++ [.submitted ready]) one = additionsOf events one := by
  simp [additionsOf, List.filterMap_append, additionOf?]

theorem shardsOf_append_change (thread : Fin threads) (trigram other : Trigram)
    (key? : Option DocumentKey) :
    shardsOf (events ++ [.ofChange thread trigram key?]) other = shardsOf events other := by
  cases key? <;> simp [shardsOf, List.filterMap_append, ofChange, shardOf?]

theorem shardsOf_append_submitted (other : Trigram) (ready : ReadyShard) :
    shardsOf (events ++ [.submitted ready]) other =
      shardsOf events other ++ if ready.trigram = other then [ready] else [] := by
  rw [shardsOf, List.filterMap_append, ← shardsOf]
  by_cases same : ready.trigram = other <;> simp [shardOf?, same]

theorem ledger_append_change (thread : Fin threads) (trigram other : Trigram)
    (key? : Option DocumentKey) :
    ledger threshold (events ++ [.ofChange thread trigram key?]) other =
      if other = trigram then (ledger threshold events other).change threshold key?
      else ledger threshold events other := by
  rw [ledger, List.foldl_append, ← ledger, List.foldl_cons, List.foldl_nil]
  by_cases same : other = trigram
  · cases key? <;> simp [ofChange, observe, Ledger.change, same]
  · cases key? <;> simp [ofChange, observe, same, Ne.symm same]

theorem ledger_append_submitted (trigram : Trigram) (ready : ReadyShard) :
    ledger threshold (events ++ [.submitted ready]) trigram = ledger threshold events trigram := by
  rw [ledger, List.foldl_append, ← ledger]
  rfl

/-! ### The order of the adds -/

/-- The call whose key a thread has inserted. -/
def call? : WriterEvent threads → Option WriterCall
  | added _ trigram key => some (.add trigram key)
  | _ => none

/-- The calls whose keys have been inserted, in order. -/
def callsOf (events : List (WriterEvent threads)) : List WriterCall := events.filterMap call?

/-- Until something is flushed, ledgers are those of the calls. -/
theorem ledger_eq_after (unflushed : ∀ trigram, flushed trigram ∉ events) (trigram : Trigram) :
    ledger threshold events trigram = Ledger.after threshold trigram {} (callsOf events) := by
  rw [ledger, Ledger.after, callsOf]
  generalize ({} : Ledger) = before
  induction events generalizing before with
  | nil => rfl
  | cons event rest ih =>
      have later := ih fun trigram member => unflushed trigram (List.mem_cons_of_mem _ member)
      cases event with
      | added thread other key => exact later _
      | flushed other => exact absurd List.mem_cons_self (unflushed other)
      | submitted ready => exact later _

theorem flatMap_finRange_single {α : Type} (thread : Fin threads) (value : α) :
    ((List.finRange threads).flatMap fun one => if one = thread then [value] else []).Perm
      [value] := by
  refine ((List.perm_cons_erase (List.mem_finRange thread)).flatMap_right _).trans ?_
  have others : (((List.finRange threads).erase thread).flatMap fun one =>
      if one = thread then [value] else []) = [] :=
    List.flatMap_eq_nil_iff.mpr fun one member =>
      if_neg ((List.nodup_finRange threads).mem_erase_iff.mp member).1
  rw [List.flatMap_cons, others, if_pos rfl, List.append_nil]

/-- The calls are those of all threads. -/
theorem callsOf_perm (events : List (WriterEvent threads)) :
    (callsOf events).Perm ((List.finRange threads).flatMap fun thread =>
      (additionsOf events thread).map fun addition => .add addition.1 addition.2) := by
  induction events with
  | nil => simp [callsOf, additionsOf]
  | cons event rest ih =>
      cases event with
      | added thread trigram key =>
          have heads (one : Fin threads) : additionsOf (added thread trigram key :: rest) one =
              (if one = thread then [(trigram, key)] else []) ++ additionsOf rest one := by
            by_cases same : one = thread
            · simp [additionsOf, additionOf?, same]
            · simp [additionsOf, additionOf?, same, Ne.symm same]
          have first := flatMap_finRange_single thread (WriterCall.add trigram key)
          refine (first.symm.append ih).trans ((List.flatMap_append_perm _ _ _).trans ?_)
          refine .of_eq (List.flatMap_congr fun one _ => ?_)
          rw [heads, List.map_append]
          split <;> rfl
      | flushed trigram => exact ih
      | submitted ready => exact ih

end WriterEvent
end SourceSearch
