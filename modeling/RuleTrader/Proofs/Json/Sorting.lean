import RuleTrader.Proofs.Json.Reading

/-!
# Sorted records

Sorting the fields of every record changes where a field stands, and not what is found under its name
(`get?_sortRecord`). The text with sorted records is therefore read back as the sorted value
(`read_sorted`).
-/

namespace RuleTrader

namespace Json

/-! ## Fields -/

theorem insertField_perm (f : String × Value) (fields : List (String × Value)) :
    (insertField f fields).Perm (f :: fields) := by
  induction fields with
  | nil => exact .refl _
  | cons g rest ih =>
      unfold insertField
      split
      · exact .refl _
      · exact (ih.cons g).trans (.swap f g rest)

/-- Sorting a record moves its fields. -/
theorem sortRecord_perm (fields : List (String × Value)) :
    (sortRecord fields).Perm (Table.mapValues sortFields fields) := by
  induction fields with
  | nil => exact .refl _
  | cons e rest ih => exact (insertField_perm _ _).trans (ih.cons _)

theorem sortItems_eq_map (items : List Value) : sortItems items = items.map sortFields := by
  induction items with
  | nil => rfl
  | cons v vs ih => rw [sortItems, ih, List.map_cons]

theorem keys_sortRecord (fields : List (String × Value)) :
    (Table.keys (sortRecord fields)).Perm (Table.keys fields) := by
  rw [← Table.keys_mapValues sortFields fields]
  exact (sortRecord_perm fields).map _

/-- Where the names are apart, a field is found in a sorted record as in the record. -/
theorem get?_sortRecord {fields : List (String × Value)} (apart : (Table.keys fields).Nodup)
    (name : String) :
    Table.get? (sortRecord fields) name = (Table.get? fields name).map sortFields := by
  have hsorted : (Table.keys (sortRecord fields)).Nodup := (keys_sortRecord fields).nodup_iff.2 apart
  have hapart : (Table.keys (Table.mapValues sortFields fields)).Nodup := by
    rwa [Table.keys_mapValues]
  rw [← Table.get?_mapValues]
  cases hget : Table.get? (Table.mapValues sortFields fields) name with
  | none =>
      rw [Table.get?_eq_none_iff, Table.keys_mapValues] at hget
      rw [Table.get?_eq_none_iff]
      exact fun hmem => hget ((keys_sortRecord fields).mem_iff.1 hmem)
  | some v =>
      exact Table.get?_of_mem hsorted ((sortRecord_perm fields).mem_iff.2 (Table.mem_of_get? hget))

/-! ## The text -/

/-- Sorting opens no container and changes no text, so JSON text gives the sorted value back, too. -/
theorem Readable.sortFields {depth : Nat} {v : Value} (h : Readable depth v) :
    Readable depth (sortFields v) := by
  induction h with
  | null => exact .null
  | bool b => exact .bool b
  | number plain => exact .number plain
  | text unpaired => exact .text unpaired
  | @list depth items parts ih =>
      refine .list ?_
      rw [sortItems_eq_map]
      exact List.forall_mem_map.2 ih
  | @record depth fields apart names parts ih =>
      have hmem {e : String × Value} (he : e ∈ sortRecord fields) :
          ∃ e' ∈ fields, (e'.1, Json.sortFields e'.2) = e :=
        List.mem_map.1 ((sortRecord_perm fields).mem_iff.1 he)
      refine .record ((keys_sortRecord fields).nodup_iff.2 apart) ?_ ?_
      · intro e he
        rcases hmem he with ⟨e', he', rfl⟩
        exact names e' he'
      · intro e he
        rcases hmem he with ⟨e', he', rfl⟩
        exact ih e' he'

/-- The text with sorted records is that of the sorted value, and it is not empty. -/
theorem read_sorted {v : Value} (h : Readable depthLimit v) {text : String}
    (hwrite : writeSorted v = .ok text) : read text = .ok (sortFields v) ∧ text ≠ "" := by
  refine ⟨read_written h.sortFields hwrite, ?_⟩
  rintro rfl
  rcases hvalue : writeValue (Json.sortFields v) with fault | cs
  · simp [writeSorted, write, hvalue, Functor.map, Except.map] at hwrite
  · have hempty : cs = [] := by
      simpa [writeSorted, write, hvalue, Functor.map, Except.map] using hwrite
    exact (opens_write h.sortFields hvalue).ne_nil hempty

end Json

end RuleTrader
