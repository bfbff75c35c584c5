/-!
# Tables

A table holds one value for each of its keys, in the order in which the keys were first put in.
Putting a value under a key that is there replaces the value and keeps the place. The small laws
at the end say what `put` does to a look-up and to the keys.
-/

namespace RuleTrader

/-- Values by key, in the order of the first entry of each key. -/
abbrev Table (κ α : Type) := List (κ × α)

namespace Table

variable {κ α β : Type} [DecidableEq κ]

/-- The value under a key. -/
def get? (t : Table κ α) (k : κ) : Option α :=
  match t with
  | [] => none
  | (k', v) :: rest => if k' = k then some v else get? rest k

def put (t : Table κ α) (k : κ) (v : α) : Table κ α :=
  match t with
  | [] => [(k, v)]
  | (k', v') :: rest => if k' = k then (k, v) :: rest else (k', v') :: put rest k v

/-- Put every entry of a list, from the front. -/
def putAll (t : Table κ α) (entries : List (κ × α)) : Table κ α :=
  entries.foldl (fun t e => t.put e.1 e.2) t

def ofList (entries : List (κ × α)) : Table κ α :=
  putAll [] entries

def keys (t : Table κ α) : List κ := t.map (·.1)

def values (t : Table κ α) : List α := t.map (·.2)

/-- Whether a key is in the table. -/
def has (t : Table κ α) (k : κ) : Bool := (t.get? k).isSome

@[simp] theorem get?_nil (k : κ) : get? ([] : Table κ α) k = none := rfl

@[simp] theorem get?_put_self (t : Table κ α) (k : κ) (v : α) : (t.put k v).get? k = some v := by
  induction t with
  | nil => simp [put, get?]
  | cons e rest ih =>
    by_cases h : e.1 = k
    · simp [put, get?, h]
    · simp [put, get?, h, ih]

theorem get?_put_of_ne (t : Table κ α) {k k' : κ} (v : α) (h : k ≠ k') :
    (t.put k v).get? k' = t.get? k' := by
  induction t with
  | nil => simp [put, get?, h]
  | cons e rest ih =>
    by_cases hk : e.1 = k
    · subst hk
      simp [put, get?, h]
    · simp [put, get?, hk, ih]

omit [DecidableEq κ] in
@[simp] theorem keys_nil : keys ([] : Table κ α) = [] := rfl

omit [DecidableEq κ] in
@[simp] theorem keys_cons (e : κ × α) (t : Table κ α) : keys (e :: t) = e.1 :: keys t := rfl

theorem keys_put_of_mem (t : Table κ α) {k : κ} (v : α) (h : k ∈ t.keys) :
    (t.put k v).keys = t.keys := by
  induction t with
  | nil => simp at h
  | cons e rest ih =>
    by_cases hk : e.1 = k
    · simp [put, hk]
    · rw [keys_cons, List.mem_cons] at h
      have hr : k ∈ keys rest := h.resolve_left fun he => hk he.symm
      simp [put, hk, ih hr]

theorem keys_put_of_not_mem (t : Table κ α) {k : κ} (v : α) (h : k ∉ t.keys) :
    (t.put k v).keys = t.keys ++ [k] := by
  induction t with
  | nil => simp [put]
  | cons e rest ih =>
    simp only [keys_cons, List.mem_cons, not_or] at h
    have hk : e.1 ≠ k := fun he => h.1 he.symm
    simp [put, hk, ih h.2]

end Table

end RuleTrader
