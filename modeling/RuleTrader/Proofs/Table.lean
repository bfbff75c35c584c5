import Mathlib.Data.List.Induction
import Mathlib.Data.List.Nodup
import RuleTrader.Proofs.Outcome
import RuleTrader.Table

/-!
# Laws of tables

What a table holds after its entries were put in one after the other. It has no other entries, and a
list of entries with distinct keys is its own table.
-/

namespace RuleTrader

namespace Table

variable {κ α : Type} [DecidableEq κ]

/-! ## Entries and keys -/

theorem mem_of_get? {t : Table κ α} {k : κ} {v : α} (h : t.get? k = some v) : (k, v) ∈ t := by
  induction t with
  | nil => simp at h
  | cons e rest ih =>
      rcases e with ⟨k', v'⟩
      by_cases hk : k' = k
      · have hv : v' = v := by simpa [get?, hk] using h
        simp [hk, hv]
      · have hrest : get? rest k = some v := by simpa [get?, hk] using h
        exact List.mem_cons_of_mem _ (ih hrest)

theorem get?_of_mem {t : Table κ α} (nodup : t.keys.Nodup) {k : κ} {v : α} (h : (k, v) ∈ t) :
    t.get? k = some v := by
  induction t with
  | nil => simp at h
  | cons e rest ih =>
      rw [keys_cons, List.nodup_cons] at nodup
      rcases List.mem_cons.1 h with rfl | hmem
      · simp [get?]
      · have hk : e.1 ≠ k := by
          intro he
          exact nodup.1 (he ▸ List.mem_map_of_mem hmem)
        simpa [get?, hk] using ih nodup.2 hmem

theorem has_iff_mem_keys {t : Table κ α} {k : κ} : t.has k = true ↔ k ∈ t.keys := by
  induction t with
  | nil => simp [has]
  | cons e rest ih =>
      by_cases hk : e.1 = k
      · simp [has, get?, hk]
      · have hk' : k ≠ e.1 := fun he => hk he.symm
        simpa [has, get?, hk, hk'] using ih

/-- Putting a value in adds no other entry. -/
theorem mem_put {t : Table κ α} {k : κ} {v : α} {e : κ × α} (h : e ∈ t.put k v) :
    e = (k, v) ∨ e ∈ t := by
  induction t with
  | nil => simpa [put] using h
  | cons e' rest ih =>
      by_cases hk : e'.1 = k
      · have : e = (k, v) ∨ e ∈ rest := by simpa [put, hk] using h
        exact this.imp_right (List.mem_cons_of_mem _)
      · have : e = e' ∨ e ∈ put rest k v := by simpa [put, hk] using h
        rcases this with rfl | hrest
        · exact Or.inr (List.mem_cons_self ..)
        · exact (ih hrest).imp_right (List.mem_cons_of_mem _)

theorem nodup_keys_put {t : Table κ α} (nodup : t.keys.Nodup) (k : κ) (v : α) :
    (t.put k v).keys.Nodup := by
  by_cases h : k ∈ t.keys
  · rw [keys_put_of_mem t v h]
    exact nodup
  · rw [keys_put_of_not_mem t v h]
    exact List.nodup_append.2 ⟨nodup, by simp, by
      intro a ha b hb hab
      exact h (List.mem_singleton.1 hb ▸ hab ▸ ha)⟩

theorem keys_put_congr {β : Type} {t : Table κ α} {u : Table κ β} (h : t.keys = u.keys) (k : κ) (v : α)
    (w : β) : (t.put k v).keys = (u.put k w).keys := by
  by_cases hk : k ∈ t.keys
  · rw [keys_put_of_mem t v hk, keys_put_of_mem u w (h ▸ hk), h]
  · rw [keys_put_of_not_mem t v hk, keys_put_of_not_mem u w (h ▸ hk), h]

/-! ## Several entries -/

theorem put_of_not_mem {t : Table κ α} {k : κ} (v : α) (h : k ∉ t.keys) :
    t.put k v = t ++ [(k, v)] := by
  induction t with
  | nil => rfl
  | cons e rest ih =>
      rw [keys_cons, List.mem_cons, not_or] at h
      have hk : e.1 ≠ k := fun he => h.1 he.symm
      simp [put, hk, ih h.2]

theorem putAll_of_nodup {t entries : Table κ α} (nodup : (t.keys ++ keys entries).Nodup) :
    t.putAll entries = t ++ entries := by
  induction entries generalizing t with
  | nil => simp [putAll]
  | cons e rest ih =>
      have hnot : e.1 ∉ t.keys := by
        intro he
        exact (List.nodup_append.1 nodup).2.2 _ he _ (by simp) rfl
      have hkeys : (keys (t ++ [e]) ++ keys rest).Nodup := by
        simpa [keys] using nodup
      calc
        t.putAll (e :: rest) = (t.put e.1 e.2).putAll rest := rfl
        _ = putAll (t ++ [e]) rest := by rw [put_of_not_mem e.2 hnot]
        _ = t ++ e :: rest := by simp [ih hkeys]

theorem mem_putAll {t entries : Table κ α} {e : κ × α} (h : e ∈ t.putAll entries) :
    e ∈ t ∨ e ∈ entries := by
  induction entries generalizing t with
  | nil => exact Or.inl h
  | cons x xs ih =>
      have hput : e ∈ putAll (t.put x.1 x.2) xs := h
      rcases ih hput with hput | hxs
      · rcases mem_put hput with rfl | ht
        · exact Or.inr (List.mem_cons_self ..)
        · exact Or.inl ht
      · exact Or.inr (List.mem_cons_of_mem _ hxs)

/-- A table has only entries that were put in. -/
theorem mem_ofList {entries : Table κ α} {e : κ × α} (h : e ∈ ofList entries) : e ∈ entries :=
  (mem_putAll h).resolve_left (by simp)

/-- Entries with distinct keys are their own table. -/
theorem ofList_of_nodup {entries : Table κ α} (nodup : entries.keys.Nodup) :
    ofList entries = entries := by
  have hempty : (keys ([] : Table κ α) ++ entries.keys).Nodup := by simpa using nodup
  simpa [ofList] using putAll_of_nodup hempty

/-! ## Looking up among several entries -/

theorem get?_append (t u : Table κ α) (k : κ) : get? (t ++ u) k = (t.get? k).or (u.get? k) := by
  induction t with
  | nil => rfl
  | cons e rest ih =>
      by_cases hk : e.1 = k
      · simp [get?, hk]
      · simpa [get?, hk] using ih

theorem get?_eq_none_iff {t : Table κ α} {k : κ} : t.get? k = none ↔ k ∉ t.keys := by
  rw [← has_iff_mem_keys, has]
  cases t.get? k <;> simp

/-- Of several entries under one key the last one counts. -/
theorem get?_putAll (t entries : Table κ α) (k : κ) :
    (t.putAll entries).get? k = (get? entries.reverse k).or (t.get? k) := by
  induction entries generalizing t with
  | nil => rfl
  | cons e rest ih =>
      have hrest : (t.putAll (e :: rest)).get? k = (get? rest.reverse k).or ((t.put e.1 e.2).get? k) :=
        ih (t.put e.1 e.2)
      rw [hrest, List.reverse_cons, get?_append, Option.or_assoc]
      congr 1
      by_cases hk : e.1 = k
      · simp [get?, hk]
      · simp [get?, hk, get?_put_of_ne]

theorem get?_eq_head? (t : Table κ α) (k : κ) :
    t.get? k = (t.filter fun e => e.1 = k).head?.map (·.2) := by
  induction t with
  | nil => rfl
  | cons e rest ih =>
      by_cases hk : e.1 = k
      · simp [get?, hk]
      · simp [get?, hk, ih]

theorem get?_ofList (entries : Table κ α) (k : κ) :
    (ofList entries).get? k = (entries.filter fun e => e.1 = k).getLast?.map (·.2) := by
  rw [ofList, get?_putAll, get?_eq_head?, List.filter_reverse, List.head?_reverse]
  exact Option.or_none

theorem get?_putAll_of_not_mem {t entries : Table κ α} {k : κ} (h : k ∉ entries.keys) :
    (t.putAll entries).get? k = t.get? k := by
  have hnone : get? entries.reverse k = none := by
    rw [get?_eq_none_iff]
    simpa [keys] using h
  rw [get?_putAll, hnone, Option.none_or]

theorem get?_putAll_of_nodup {t entries : Table κ α} (nodup : entries.keys.Nodup) (k : κ) :
    (t.putAll entries).get? k = (entries.get? k).or (t.get? k) := by
  cases hget : entries.get? k with
  | none =>
      rw [get?_eq_none_iff] at hget
      rw [get?_putAll_of_not_mem hget, Option.none_or]
  | some v =>
      have hreverse : keys entries.reverse = entries.keys.reverse := List.map_reverse
      have hmem : (k, v) ∈ entries.reverse := List.mem_reverse.2 (mem_of_get? hget)
      rw [get?_putAll, get?_of_mem (hreverse ▸ List.nodup_reverse.2 nodup) hmem, Option.some_or]

theorem putAll_append (t first second : Table κ α) :
    t.putAll (first ++ second) = (t.putAll first).putAll second :=
  List.foldl_append

theorem ofList_concat (entries : Table κ α) (e : κ × α) :
    ofList (entries ++ [e]) = (ofList entries).put e.1 e.2 :=
  putAll_append [] entries [e]

/-- The keys stand in the order in which they first came, each once. -/
theorem keys_ofList (entries : Table κ α) : (ofList entries).keys = entries.keys.eraseDups := by
  induction entries using List.reverseRecOn with
  | nil => rfl
  | append_singleton entries e ih =>
      have hkeys : keys (entries ++ [e]) = keys entries ++ [e.1] := List.map_append
      have hmem : e.1 ∈ (ofList entries).keys ↔ e.1 ∈ keys entries := by rw [ih, List.mem_eraseDups]
      rw [ofList_concat, hkeys, List.eraseDups_append, ← ih]
      by_cases h : e.1 ∈ keys entries
      · rw [keys_put_of_mem _ e.2 (hmem.2 h)]
        simp [List.removeAll, h]
      · rw [keys_put_of_not_mem _ e.2 (mt hmem.1 h)]
        simp [List.removeAll, h, List.eraseDups_cons]

/-! ## Last values -/

/-- The value of the last entry under a key. -/
def last? (entries : List (κ × α)) (k : κ) : Option α :=
  (entries.filter fun e => e.1 = k).getLast?.map (·.2)

/-- The keys in the order in which they first come, each with its last value. -/
def lasts (entries : List (κ × α)) : List (κ × α) :=
  (keys entries).eraseDups.filterMap fun k => (last? entries k).map (k, ·)

theorem last?_append (first second : List (κ × α)) (k : κ) :
    last? (first ++ second) k = (last? second k).or (last? first k) := by
  rw [last?, List.filter_append, List.getLast?_append]
  cases h : (second.filter fun e => e.1 = k).getLast? with
  | none => simp [last?, h]
  | some e => simp [last?, h]

/-- Of the results under one key the last counts, and it is that of the last entry under the key. -/
theorem last?_of_mapM {ε ι : Type} {f : ι → Except ε (κ × α)} {keyOf : ι → κ}
    (hkey : ∀ x e, f x = .ok e → e.1 = keyOf x) {xs : List ι} {es : List (κ × α)}
    (h : xs.mapM f = .ok es) (k : κ) :
    Option.Rel (fun x v => f x = .ok (k, v)) (xs.filter fun x => keyOf x = k).getLast? (last? es k) := by
  have hpick : ∀ x e, f x = .ok e → decide (keyOf x = k) = decide (e.1 = k) :=
    fun x e he => by rw [hkey x e he]
  have hpicked := mapM_ok_iff.1 (mapM_filter hpick h)
  rw [last?, List.getLast?_eq_head?_reverse, List.getLast?_eq_head?_reverse]
  have hunder : ∀ e ∈ (es.filter fun e => e.1 = k).reverse, e.1 = k := by simp
  rw [← List.forall₂_reverse_iff] at hpicked
  generalize (xs.filter fun x => keyOf x = k).reverse = entries,
    (es.filter fun e => e.1 = k).reverse = results at hpicked hunder
  cases hpicked with
  | nil => exact .none
  | @cons x e entries results he _ =>
      obtain rfl : e.1 = k := hunder e (List.mem_cons_self ..)
      exact .some he

theorem get?_putAll_eq (t : Table κ α) (entries : List (κ × α)) (k : κ) :
    (t.putAll entries).get? k = (last? entries k).or (t.get? k) := by
  rw [get?_putAll, get?_eq_head?, last?, List.filter_reverse, List.head?_reverse]

/-- A table lists its keys, each with what it holds under it. -/
theorem eq_filterMap_keys {t : Table κ α} (nodup : t.keys.Nodup) :
    t = t.keys.filterMap fun k => (t.get? k).map (k, ·) := by
  have hself : ∀ e ∈ t, ((fun k => (t.get? k).map (k, ·)) ∘ Prod.fst) e = some e := by
    intro e he
    simp [get?_of_mem nodup he]
  calc
    t = t.filterMap some := List.filterMap_some.symm
    _ = t.filterMap ((fun k => (t.get? k).map (k, ·)) ∘ Prod.fst) :=
      List.filterMap_congr fun e he => (hself e he).symm
    _ = t.keys.filterMap fun k => (t.get? k).map (k, ·) := List.filterMap_map.symm

theorem nodup_keys_ofList (entries : List (κ × α)) : (ofList entries).keys.Nodup := by
  induction entries using List.reverseRecOn with
  | nil => exact .nil
  | append_singleton entries e ih =>
      rw [ofList_concat]
      exact nodup_keys_put ih e.1 e.2

/-- A table holds the last value under each key, in the order in which the keys first came. -/
theorem ofList_eq_lasts (entries : List (κ × α)) : ofList entries = lasts entries := by
  rw [eq_filterMap_keys (nodup_keys_ofList entries), keys_ofList, lasts]
  exact List.filterMap_congr fun k _ => by rw [get?_ofList, last?]

/-! ## Values one by one -/

/-- The table with every value changed. -/
def mapValues {β : Type} (f : α → β) (t : Table κ α) : Table κ β := t.map fun e => (e.1, f e.2)

theorem get?_mapValues {β : Type} (f : α → β) (t : Table κ α) (k : κ) :
    (t.mapValues f).get? k = (t.get? k).map f := by
  induction t with
  | nil => rfl
  | cons e rest ih =>
      have hcons : mapValues f (e :: rest) = (e.1, f e.2) :: mapValues f rest := rfl
      rw [hcons]
      by_cases hk : e.1 = k
      · simp [get?, hk]
      · simpa [get?, hk] using ih

omit [DecidableEq κ] in
theorem keys_mapValues {β : Type} (f : α → β) (t : Table κ α) : (t.mapValues f).keys = t.keys := by
  simp [mapValues, keys]

omit [DecidableEq κ] in
theorem values_mapValues {β : Type} (f : α → β) (t : Table κ α) :
    (t.mapValues f).values = t.values.map f := by
  simp [mapValues, values]

theorem put_mapValues {β : Type} (f : α → β) (t : Table κ α) (k : κ) (v : α) :
    (t.mapValues f).put k (f v) = (t.put k v).mapValues f := by
  induction t with
  | nil => rfl
  | cons e rest ih =>
      have hcons (e : κ × α) (t : Table κ α) : mapValues f (e :: t) = (e.1, f e.2) :: mapValues f t :=
        rfl
      by_cases hk : e.1 = k
      · simp [hcons, put, hk]
      · simp [hcons, put, hk, ih]

/-! ## Some of the keys -/

section Filter

variable {p : κ → Bool} {t : Table κ α} {k : κ}

theorem get?_filter (t : Table κ α) (h : p k = true) : get? (t.filter fun e => p e.1) k = t.get? k := by
  induction t with
  | nil => rfl
  | cons e rest ih =>
      by_cases hk : e.1 = k
      · simp [get?, hk, h]
      · cases he : p e.1 with
        | true => simpa [get?, hk, he] using ih
        | false => simpa [get?, hk, he] using ih

theorem filter_put (t : Table κ α) (v : α) (h : p k = true) :
    (t.put k v).filter (fun e => p e.1) = put (t.filter fun e => p e.1) k v := by
  induction t with
  | nil => simp [put, h]
  | cons e rest ih =>
      by_cases hk : e.1 = k
      · simp [put, hk, h]
      · cases he : p e.1 with
        | true => simpa [put, hk, he] using ih
        | false => simpa [put, hk, he] using ih

theorem filter_put_of_not (t : Table κ α) (v : α) (h : p k = false) :
    (t.put k v).filter (fun e => p e.1) = t.filter fun e => p e.1 := by
  induction t with
  | nil => simp [put, h]
  | cons e rest ih =>
      by_cases hk : e.1 = k
      · simp [put, hk, h]
      · cases he : p e.1 with
        | true => simpa [put, hk, he] using ih
        | false => simpa [put, hk, he] using ih

theorem has_put {k' : κ} (v : α) (h : t.has k' = true) : (t.put k v).has k' = true := by
  by_cases hk : k = k'
  · subst hk
    simp [has]
  · simpa [has, get?_put_of_ne t v hk] using h

end Filter

/-! ## Filing -/

/-- A table whose entries each stand under their own name. -/
structure Filed (name : α → κ) (t : Table κ α) : Prop where
  nodup : t.keys.Nodup
  named : ∀ e ∈ t, name e.2 = e.1

namespace Filed

variable {name : α → κ} {t : Table κ α}

theorem put (h : Filed name t) (v : α) : Filed name (t.put (name v) v) where
  nodup := nodup_keys_put h.nodup _ _
  named := by
    intro e he
    rcases mem_put he with rfl | he
    · rfl
    · exact h.named e he

omit [DecidableEq κ] in
theorem map_values (h : Filed name t) : t.values.map name = t.keys := by
  simp only [values, keys, List.map_map]
  exact List.map_congr_left h.named

/-- After a value was put in, it stands there, and the others under other names. -/
theorem mem_values_put (h : Filed name t) {v w : α} (hw : w ∈ (t.put (name v) v).values) :
    w = v ∨ w ∈ t.values ∧ name w ≠ name v := by
  have hput := h.put v
  rcases List.mem_map.1 hw with ⟨⟨k, w'⟩, he, rfl⟩
  obtain rfl : name w' = k := hput.named _ he
  have hget := get?_of_mem hput.nodup he
  by_cases hname : name w' = name v
  · rw [hname, get?_put_self] at hget
    exact Or.inl (Option.some.inj hget).symm
  · rw [get?_put_of_ne t v (Ne.symm hname)] at hget
    exact Or.inr ⟨List.mem_map.2 ⟨_, mem_of_get? hget, rfl⟩, hname⟩

theorem has_of_mem (h : Filed name t) {v : α} (hv : v ∈ t.values) : t.has (name v) = true := by
  rw [has_iff_mem_keys, ← h.map_values]
  exact List.mem_map_of_mem hv

end Filed

end Table

end RuleTrader
