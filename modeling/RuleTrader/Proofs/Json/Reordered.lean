import RuleTrader.Proofs.Json.Sorting

/-!
# Records in another order

Two values that differ at most in how the fields of their records are listed, at any depth
(`Value.Reordered`). Nothing that is found under a name tells them apart. A value is such a reordering of
itself with sorted records (`Json.reordered_sortFields`), so that it is what the text with sorted
records gives back, up to the order of the fields.
-/

namespace RuleTrader

namespace Value

/-- A value that is no container. -/
def scalar? : Value → Option Value
  | .list _ | .row _ | .record _ => none
  | v => some v

/-- The items of a list. -/
def items? : Value → Option (List Value)
  | .list items => some items
  | _ => none

/-- The same value, but for the order in which the fields of its records are listed. -/
inductive Reordered : Value → Value → Prop
  | refl (v : Value) : Reordered v v
  | list {vs ws : List Value} (length : vs.length = ws.length)
      (items : ∀ p ∈ vs.zip ws, Reordered p.1 p.2) : Reordered (.list vs) (.list ws)
  | row {vs ws : List Value} (length : vs.length = ws.length)
      (items : ∀ p ∈ vs.zip ws, Reordered p.1 p.2) : Reordered (.row vs) (.row ws)
  /-- The same names are there, with the same values but for the order of their fields. -/
  | record {fs gs : List (String × Value)} (names : ∀ name, Table.has fs name = Table.has gs name)
      (parts : ∀ name v w, Table.get? fs name = some v → Table.get? gs name = some w → Reordered v w) :
      Reordered (.record fs) (.record gs)

namespace Reordered

variable {v w : Value}

/-- Fields that are moved, where no name comes twice. -/
theorem of_perm {fs gs : List (String × Value)} (apart : (Table.keys fs).Nodup) (h : fs.Perm gs) :
    Reordered (.record fs) (.record gs) := by
  have apart' : (Table.keys gs).Nodup := (h.map Prod.fst).nodup_iff.1 apart
  refine .record (fun name => ?_) fun name v w hv hw => ?_
  · rw [Bool.eq_iff_iff, Table.has_iff_mem_keys, Table.has_iff_mem_keys]
    exact (h.map Prod.fst).mem_iff
  · have hsame := Table.get?_of_mem apart' (h.mem_iff.1 (Table.mem_of_get? hv))
    obtain rfl : v = w := Option.some.inj (hsame.symm.trans hw)
    exact .refl v

theorem scalar? (h : v.Reordered w) : v.scalar? = w.scalar? := by
  cases h <;> rfl

theorem items? (h : v.Reordered w) : Option.Rel (List.Forall₂ Reordered) v.items? w.items? := by
  cases h with
  | refl =>
      cases v.items? with
      | none => exact .none
      | some items => exact .some (List.forall₂_same.2 fun x _ => .refl x)
  | list length items => exact .some (List.forall₂_iff_zip.2 ⟨length, fun hmem => items _ hmem⟩)
  | row => exact .none
  | record => exact .none

/-- Under every name there is the same value again, but for the order of its fields. -/
theorem field? (h : v.Reordered w) (name : String) :
    Option.Rel Reordered (v.field? name) (w.field? name) := by
  cases h with
  | refl =>
      cases v.field? name with
      | none => exact .none
      | some x => exact .some (.refl x)
  | list => exact .none
  | row => exact .none
  | @record fs gs names parts =>
      have hnames := names name
      have hparts := parts name
      change Option.Rel Reordered (Table.get? fs name) (Table.get? gs name)
      unfold Table.has at hnames
      generalize Table.get? fs name = x?, Table.get? gs name = y? at hnames hparts
      cases x? with
      | none =>
          obtain rfl : y? = none := by simpa using hnames
          exact .none
      | some x =>
          obtain ⟨y, rfl⟩ : ∃ y, y? = some y := Option.isSome_iff_exists.1 hnames.symm
          exact .some (hparts x y rfl rfl)

theorem field (h : v.Reordered w) (name : String) : (v.field name).Reordered (w.field name) := by
  have hfield := h.field? name
  unfold Value.field
  generalize v.field? name = x?, w.field? name = y? at hfield
  cases hfield with
  | none => exact .refl _
  | some related => exact related

theorem isSome_field? (h : v.Reordered w) (name : String) :
    (v.field? name).isSome = (w.field? name).isSome := by
  have hfield := h.field? name
  generalize v.field? name = x?, w.field? name = y? at hfield
  cases hfield <;> rfl

theorem isEmpty (h : v.Reordered w) : v.isEmpty = w.isEmpty := by
  have hitems {xs ys : List Value} (length : xs.length = ys.length) : xs.isEmpty = ys.isEmpty := by
    cases xs <;> cases ys <;> simp_all
  have hfound {fs : List (String × Value)} (f : String × Value) :
      Table.has (f :: fs) f.1 = true := by simp [Table.has_iff_mem_keys]
  have hnone (name : String) : Table.has ([] : List (String × Value)) name = false := rfl
  cases h with
  | refl => rfl
  | list length => exact hitems length
  | row length => exact hitems length
  | @record fs gs names parts =>
      cases fs with
      | nil =>
          cases gs with
          | nil => rfl
          | cons g gs => cases (hnone g.1).symm.trans ((names g.1).trans (hfound g))
      | cons f fs =>
          cases gs with
          | nil => cases (hnone f.1).symm.trans ((names f.1).symm.trans (hfound f))
          | cons g gs => rfl

end Reordered

end Value

namespace Json

/-- Sorting only lists the fields of records in another order. -/
theorem reordered_sortFields {v : Value} (h : v.Plain) : v.Reordered (sortFields v) := by
  induction h with
  | null => exact .refl _
  | bool b => exact .refl _
  | number plain => exact .refl _
  | text s => exact .refl _
  | @list items parts ih =>
      rw [sortFields, sortItems_eq_map]
      have hitems : List.Forall₂ Value.Reordered items (items.map sortFields) :=
        List.forall₂_map_right_iff.2 (List.forall₂_same.2 ih)
      rcases List.forall₂_iff_zip.1 hitems with ⟨length, hzip⟩
      exact .list length fun _ hp => hzip hp
  | @record fields apart parts ih =>
      rw [sortFields]
      refine .record (fun name => ?_) fun name x y hx hy => ?_
      · rw [Table.has, Table.has, get?_sortRecord apart, Option.isSome_map]
      · rw [get?_sortRecord apart, hx] at hy
        obtain rfl := Option.some.inj hy
        exact ih _ (Table.mem_of_get? hx)

/-! ## Values that were written -/

/-- A value built of what JSON text holds, within so many open containers; an integer may be too long to be
written. -/
inductive Built : Nat → Value → Prop
  | null {depth : Nat} : Built depth .null
  | bool {depth : Nat} (b : Bool) : Built depth (.bool b)
  | number {depth : Nat} {x : Number} (defined : ∀ y, x = .float y → Binary64.read y ≠ .undefined) :
      Built depth (.number x)
  | text {depth : Nat} {s : String} (unpaired : Unpaired s.toList) : Built depth (.text s)
  | list {depth : Nat} {items : List Value} (parts : ∀ v ∈ items, Built depth v) :
      Built (depth + 1) (.list items)
  | record {depth : Nat} {fields : List (String × Value)} (apart : (Table.keys fields).Nodup)
      (names : ∀ e ∈ fields, Unpaired e.1.toList) (parts : ∀ e ∈ fields, Built depth e.2) :
      Built (depth + 1) (.record fields)

/-- What was written with sorted records is read back. -/
theorem Built.readable {depth : Nat} {v : Value} (h : Built depth v)
    (written : ∃ cs, writeValue (sortFields v) = .ok cs) : Readable depth v := by
  induction h with
  | null => exact .null
  | bool b => exact .bool b
  | number defined =>
      rcases written with ⟨cs, hcs⟩
      simp only [sortFields, writeValue] at hcs
      exact .number (plain_of_writeNumber hcs defined)
  | text unpaired => exact .text unpaired
  | @list depth items parts ih =>
      rcases written with ⟨cs, hcs⟩
      rw [sortFields, sortItems_eq_map, writeValue] at hcs
      refine .list fun v hv => ih v hv ?_
      exact written_of_writeItems hcs (sortFields v) (List.mem_map_of_mem hv)
  | @record depth fields apart names parts ih =>
      rcases written with ⟨cs, hcs⟩
      rw [sortFields, writeValue] at hcs
      refine .record apart names fun e he => ih e he ?_
      exact written_of_writeFields hcs (e.1, sortFields e.2)
        ((sortRecord_perm fields).mem_iff.2 (List.mem_map.2 ⟨e, he, rfl⟩))

end Json

end RuleTrader
