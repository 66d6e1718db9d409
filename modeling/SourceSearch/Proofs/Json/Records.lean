import SourceSearch.Proofs.Json.RoundTrip
import SourceSearch.Store.Documents
import SourceSearch.Postings.Record

/-!
# Records are read back

The codecs of lists, sets, maps and records: what is written is well formed, and decoding gives
back the value.  Numbers are read back if they fit the field they are written to.
-/

namespace SourceSearch
namespace Json

/-! ## Values -/

@[simp]
theorem wellFormed_ofText (value : String) : (ofText value).WellFormed := by
  rw [ofText, WellFormed]
  exact escaped_escape value

@[simp]
theorem wellFormed_ofNat (n : Nat) : (ofNat n).WellFormed := by
  rw [ofNat_eq, WellFormed]
  exact ⟨n, rfl⟩

theorem wellFormed_array {items : List Json} (formed : ∀ item ∈ items, item.WellFormed) :
    (array items).WellFormed := by
  rw [WellFormed]
  exact wellFormedItems_iff.mpr formed

@[simp]
theorem wellFormed_ofTexts (values : List String) : (ofTexts values).WellFormed := by
  refine wellFormed_array fun item member => ?_
  obtain ⟨value, -, rfl⟩ := List.mem_map.mp member
  exact wellFormed_ofText value

theorem wellFormed_object {members : List (List UInt8 × Json)}
    (formed : ∀ member ∈ members, Escaped member.1 ∧ member.2.WellFormed) :
    (object members).WellFormed := by
  rw [WellFormed]
  exact wellFormedMembers_iff.mpr formed

theorem wellFormed_record {members : List (String × Json)}
    (formed : ∀ member ∈ members, member.2.WellFormed) : (record members).WellFormed := by
  refine wellFormed_object fun entry member => ?_
  obtain ⟨named, found, rfl⟩ := List.mem_map.mp member
  exact ⟨escaped_escape named.1, formed named found⟩

theorem wellFormed_ofMap {β : Type} {encode : β → Json}
    (formed : ∀ value, (encode value).WellFormed) (m : SortedMap String β) :
    (ofMap encode m).WellFormed := by
  refine wellFormed_object fun entry member => ?_
  obtain ⟨entry, -, rfl⟩ := List.mem_map.mp member
  exact ⟨escaped_escape entry.1, formed entry.2⟩

theorem wellFormed_ofNatMap {β : Type} {encode : β → Json}
    (formed : ∀ value, (encode value).WellFormed) (m : SortedMap Nat β) :
    (ofNatMap encode m).WellFormed := by
  refine wellFormed_object fun entry member => ?_
  obtain ⟨entry, -, rfl⟩ := List.mem_map.mp member
  exact ⟨escaped_decimal entry.1, formed entry.2⟩

@[simp]
theorem toText?_ofText (value : String) : toText? (ofText value) = some value :=
  readText?_escape value

theorem toNat?_ofNat {n max : Nat} (bound : n ≤ max) : toNat? max (ofNat n) = some n :=
  naturalOfDigits?_decimal bound

theorem mapM_map_eq_some {α β γ : Type} {f : β → Option γ} {g : α → β} {h : α → γ} {l : List α}
    (each : ∀ a ∈ l, f (g a) = some (h a)) : (l.map g).mapM f = some (l.map h) := by
  induction l with
  | nil => rfl
  | cons a l ih =>
      rw [List.map_cons, List.mapM_cons, each a List.mem_cons_self,
        ih fun a member => each a (List.mem_cons_of_mem _ member)]
      rfl

/-- A list is read back if its items are. -/
theorem toList?_array {α : Type} {encode : α → Json} {decode : Json → Option α} {values : List α}
    (each : ∀ value ∈ values, decode (encode value) = some value) :
    toList? decode (array (values.map encode)) = some values := by
  have items := mapM_map_eq_some (f := decode) (g := encode) (h := id) each
  rwa [List.map_id] at items

@[simp]
theorem toTexts?_ofTexts (values : List String) : toTexts? (ofTexts values) = some values :=
  toList?_array fun value _ => toText?_ofText value

@[simp]
theorem toTextSet?_ofTexts (values : SortedSet String) :
    toTextSet? (ofTexts values.toList) = some values := by
  simp [toTextSet?, SortedSet.ofList_toList]

theorem toTextMap?_ofMap {β : Type} {encode : β → Json} {decode : Json → Option β}
    {m : SortedMap String β} (each : ∀ entry ∈ m.toList, decode (encode entry.2) = some entry.2) :
    toTextMap? decode (ofMap encode m) = some m := by
  have entries := mapM_map_eq_some (l := m.toList) (h := id)
    (g := fun entry => (escape entry.1, encode entry.2))
    (f := fun entry => do
      let name ← readText? entry.1
      let value ← decode entry.2
      return (name, value))
    fun entry member => by simp [each entry member]
  rw [List.map_id] at entries
  rw [ofMap, toTextMap?, toMap?]
  exact (congrArg (· >>= fun entries => some (SortedMap.ofList entries)) entries).trans
    (congrArg some (SortedMap.ofList_toList m))

theorem toNatMap?_ofNatMap {β : Type} {encode : β → Json} {decode : Json → Option β}
    {m : SortedMap Nat β} (each : ∀ entry ∈ m.toList, decode (encode entry.2) = some entry.2)
    (bound : ∀ entry ∈ m.toList, entry.1 ≤ max64) :
    toNatMap? decode (ofNatMap encode m) = some m := by
  have entries := mapM_map_eq_some (l := m.toList) (h := id)
    (g := fun entry => (decimal entry.1, encode entry.2))
    (f := fun entry => do
      let name ← naturalOfDigits? max64 entry.1
      let value ← decode entry.2
      return (name, value))
    fun entry member => by
      simp [each entry member, naturalOfDigits?_decimal (bound entry member)]
  rw [List.map_id] at entries
  rw [ofNatMap, toNatMap?, toMap?]
  exact (congrArg (· >>= fun entries => some (SortedMap.ofList entries)) entries).trans
    (congrArg some (SortedMap.ofList_toList m))

/-! ## Records -/

theorem membersNamed_eq {members : List (String × Json)}
    (distinct : (members.map Prod.fst).Nodup) (name : String) :
    membersNamed name members = (members.lookup name).toList := by
  induction members with
  | nil => rfl
  | cons first rest ih =>
      rw [List.map_cons, List.nodup_cons] at distinct
      rw [membersNamed, List.filter_cons, List.lookup_cons]
      by_cases same : first.1 = name
      · subst same
        have none_later : rest.filter (fun entry => decide (entry.1 = first.1)) = [] := by
          refine List.filter_eq_nil_iff.mpr fun entry later => ?_
          rw [decide_eq_true_eq]
          exact fun again => distinct.1 (again ▸ List.mem_map_of_mem later)
        simp [none_later]
      · have other : (name == first.1) = false := by simpa using Ne.symm same
        rw [if_neg (by simpa using same), other]
        exact ih distinct.2

/-- A record whose members have different names has the fields that were written, and no others. -/
theorem fields?_record (members : List (String × Json))
    (distinct : (members.map Prod.fst).Nodup) (names : List String) :
    (record members).fields? names = some (.named (names.map (members.lookup ·))) := by
  have read := mapM_map_eq_some (l := members) (h := id)
    (f := fun member => (readText? member.1).map (·, member.2))
    (g := fun member => (escape member.1, member.2)) fun member _ => by simp
  rw [List.map_id] at read
  have values : names.map (fun name => membersNamed name members) =
      names.map fun name => (members.lookup name).toList :=
    List.map_congr_left fun name _ => membersNamed_eq distinct name
  have single : ¬ (names.map fun name => (members.lookup name).toList).any (1 < ·.length) := by
    rw [List.any_eq_true]
    rintro ⟨found, member, more⟩
    obtain ⟨name, -, rfl⟩ := List.mem_map.mp member
    cases held : members.lookup name <;> simp [held] at more
  rw [record, fields?]
  refine (congrArg (· >>= _) read).trans ?_
  change (if (names.map fun name => membersNamed name members).any
      (1 < ·.length) then none else _) = _
  rw [values, if_neg single, List.map_map]
  refine congrArg (fun fields => some (Fields.named fields)) (List.map_congr_left fun name _ => ?_)
  cases held : members.lookup name <;> simp [held]

end Json

namespace StoredShard

theorem wellFormed_toJson (shard : StoredShard) : shard.toJson.WellFormed :=
  Json.wellFormed_record (by simp)

/-- A shard whose number fits its field is read back. -/
theorem ofJson?_toJson {shard : StoredShard} (bound : shard.generation ≤ Json.max32) :
    ofJson? shard.toJson = some shard := by
  rw [ofJson?, toJson, Json.fields?_record _ (by simp)]
  simp [List.lookup_cons, Json.Fields.required, Json.Fields.at?, Json.toNat?_ofNat bound]

end StoredShard

namespace StoredCount

theorem wellFormed_toJson (count : StoredCount) : count.toJson.WellFormed :=
  Json.wellFormed_record (by simp)

/-- A count that fits its field is read back. -/
theorem ofJson?_toJson {count : StoredCount} (bound : count.count ≤ Json.max64) :
    ofJson? count.toJson = some count := by
  rw [ofJson?, toJson, Json.fields?_record _ (by simp)]
  simp [List.lookup_cons, Json.Fields.required, Json.Fields.at?, Json.toNat?_ofNat bound]

end StoredCount

namespace Metadata

/-- The numbers of a record fit their fields. -/
def Fits (record : Metadata) : Prop :=
  record.fileSize ≤ Json.max64 ∧ record.lineCount ≤ Json.max64

theorem wellFormed_toJson (record : Metadata) : record.toJson.WellFormed :=
  Json.wellFormed_record (by simp [Json.wellFormed_ofMap])

/-- A document's record is read back if its numbers fit. -/
theorem ofJson?_toJson {record : Metadata} (fits : record.Fits) :
    ofJson? record.toJson = some record := by
  have classes : Json.toTextMap? Json.toText? (.ofMap .ofText record.classes) =
      some record.classes := Json.toTextMap?_ofMap fun entry _ => Json.toText?_ofText entry.2
  rw [ofJson?, toJson, Json.fields?_record _ (by simp)]
  simp [List.lookup_cons, Json.Fields.required, Json.Fields.withDefault, Json.Fields.at?,
    Json.toNat?_ofNat fits.1, Json.toNat?_ofNat fits.2, classes]

end Metadata

namespace QueryStore

theorem wellFormed_encodePreviews (previews : Previews) : (encodePreviews previews).WellFormed :=
  Json.wellFormed_ofMap (Json.wellFormed_ofNatMap Json.wellFormed_ofText) previews

/-- Previews are read back if their line numbers fit. -/
theorem decodePreviews?_encodePreviews {previews : Previews}
    (fits : ∀ entry ∈ previews.toList, ∀ line ∈ entry.2.toList, line.1 ≤ Json.max64) :
    decodePreviews? (encodePreviews previews) = some previews :=
  Json.toTextMap?_ofMap fun entry member =>
    Json.toNatMap?_ofNatMap (fun line _ => Json.toText?_ofText line.2) (fits entry member)

end QueryStore
end SourceSearch
