import RuleTrader.Proofs.Store.OrderLife

/-!
# The names of orders

An order that is put into a store in memory by hand may bring its own name along. Every other order is
given one by a counter, which counts up and looks at no name that is there. The names of a run of calls are
therefore those that were there, those that were put in, and an ascending part of the sequence of the
counter (`StoreCall.names_run`, `StoreCall.given_eq`).

If every name that is put in is new where it is put in, one thing is left that makes two orders share a
name: the counter comes to a name that was put in before. As long as it does not (`NeverGiven`), a name
reaches one order, and filling or cancelling by it closes that order and no other one.
-/

namespace RuleTrader

/-- The name that an entry brings along; an empty one is none. -/
def OrderEntry.ownName? (e : OrderEntry) : Option String := e.id?.filter (· ≠ "")

/-- A call of a store in memory. -/
inductive StoreCall where
  /-- A change by hand, which may put an order in. -/
  | seed (x : Seed)
  | fill (id : String)
  | fetch
  | apply (b : Batch Value) (now : Micros)

namespace MemoryStore

/-- The names of the orders of a store. -/
def names (s : MemoryStore) : List String := s.orders.map (·.id)

theorem orderName_injective : Function.Injective orderName := by
  intro m n h
  exact Nat.repr_injective ((String.append_right_inj _).1 h)

theorem cancelled_ids (ids : List String) (orders : List (Order Value)) :
    (cancelled ids orders).map (·.id) = orders.map (·.id) := by
  have htags := congrArg (List.map (·.1)) (cancelled_tags ids orders)
  simpa [tag, Function.comp_def] using htags

/-- Inserted orders are named in turn. -/
theorem stored_names (now : Micros) (named : Nat) (os : List (NewOrder Value)) :
    (stored now named os).map (·.id) = (List.range' (named + 1) os.length).map orderName := by
  induction os generalizing named with
  | nil => rfl
  | cons o os ih =>
      rw [stored, List.map_cons, ih, List.length_cons, List.range'_succ, List.map_cons]
      rfl

/-- What an entry does to the names: it is put in under its own name or under the next one, or it is
refused. -/
theorem addOrder_names (s : MemoryStore) (e : OrderEntry) (now : Micros) :
    (s.addOrder e now).2.names =
        s.names ++ (entryOrder? e now (s.entryName e).1).toList.map (·.id) ∧
      s.named ≤ (s.addOrder e now).2.named ∧
      (e.ownName? = none → (entryOrder? e now (s.entryName e).1).isSome →
        s.named + 1 ≤ (s.addOrder e now).2.named) := by
  have hname : s.named ≤ (s.entryName e).2.named ∧
      (e.ownName? = none → (s.entryName e).2.named = s.named + 1) := by
    unfold entryName OrderEntry.ownName?
    cases e.id?.filter (· ≠ "") with
    | some id => exact ⟨Nat.le_refl _, fun h => absurd h (Option.some_ne_none id)⟩
    | none => exact ⟨Nat.le_succ s.named, fun _ => rfl⟩
  refine ⟨?_, ?_⟩
  · rcases s.addOrder_store e now with ⟨named, hstore⟩
    rw [hstore, names, List.map_append]
    rfl
  · unfold addOrder entryOrder?
    cases Side.read e.side with
    -- A side that is refused is refused before a name is given out.
    | error fault => exact ⟨Nat.le_refl _, fun _ h => absurd h Bool.false_ne_true⟩
    | ok side =>
        simp only [addOrderOf]
        cases readEntry e side (s.entryName e).1 now with
        | error fault => exact ⟨hname.1, fun _ h => absurd h Bool.false_ne_true⟩
        | ok o => exact ⟨hname.1, fun hown _ => Nat.le_of_eq (hname.2 hown).symm⟩

end MemoryStore

namespace StoreCall

open MemoryStore

variable {s : MemoryStore} {c : StoreCall}

/-- The store after a call. -/
def run : StoreCall → MemoryStore → MemoryStore
  | .seed x, s => x.plant s
  | .fill id, s => s.fill id
  | .fetch, s => s.fetch.2
  | .apply b now, s => (s.apply b now).2

/-- The name that a call puts in by hand, if its entry is not refused. -/
def put : StoreCall → List String
  | .seed (.order e now) =>
    match e.ownName? with
    | some id => (entryOrder? e now id).toList.map (·.id)
    | none => []
  | _ => []

/-- The names that the counter gives to the orders that a call adds. -/
def given : StoreCall → MemoryStore → List String
  | .seed (.order e now), s =>
    match e.ownName? with
    | some _ => []
    | none => (entryOrder? e now (orderName (s.named + 1))).toList.map (·.id)
  | .apply b now, s =>
    match s.applyFailure? with
    | some _ => []
    | none => (stored now s.named b.newOrders).map (·.id)
  | _, _ => []

/-! ## One call -/

theorem put_of_plain {x : Seed} (hplain : x.isOrder = false) : (StoreCall.seed x).put = [] := by
  cases x with
  | order e now => cases hplain
  | _ => rfl

theorem given_of_plain {x : Seed} (hplain : x.isOrder = false) (s : MemoryStore) :
    (StoreCall.seed x).given s = [] := by
  cases x with
  | order e now => cases hplain
  | _ => rfl

/-- A call adds the names that it puts in and the names that it is given, and takes none away. -/
theorem names_run (c : StoreCall) (s : MemoryStore) :
    (c.run s).names = s.names ++ c.put ++ c.given s := by
  cases c with
  | seed x =>
      cases hplain : x.isOrder with
      | false =>
          rw [put_of_plain hplain, given_of_plain hplain, run, names, (Seed.plant_plain hplain s).1]
          simp [names]
      | true =>
          cases x with
          | order e now =>
              -- An order comes under its own name, or is given the next one of the counter.
              have hnames := (s.addOrder_names e now).1
              rw [run, Seed.plant, hnames, put, given, entryName, OrderEntry.ownName?]
              cases e.id?.filter (· ≠ "") <;> simp [nameOrder]
          | _ => cases hplain
  | fill id =>
      rw [run, names, MemoryStore.fill, closeOrder_ids]
      simp [put, given, names]
  | fetch =>
      rw [run, fetch_snd]
      simp [put, given, names]
  | apply b now =>
      cases hfailure : s.applyFailure? with
      | some reason =>
          rw [run, apply_refused hfailure]
          simp [put, given, hfailure]
      | none =>
          rw [run, names, apply_orders hfailure, midway, foldl_insert_eq, List.map_append, cancelled_ids]
          simp [put, given, hfailure, names]

/-- The names that a call is given are the next ones of the counter, which is then beyond them. -/
theorem given_eq (c : StoreCall) (s : MemoryStore) :
    ∃ k, c.given s = (List.range' (s.named + 1) k).map orderName ∧ s.named + k ≤ (c.run s).named := by
  cases c with
  | seed x =>
      cases hplain : x.isOrder with
      | false => exact ⟨0, given_of_plain hplain s, Nat.le_of_eq (Seed.plant_plain hplain s).2.symm⟩
      | true =>
          cases x with
          | order e now =>
              rcases s.addOrder_names e now with ⟨-, hle, hnext⟩
              cases hown : e.ownName? with
              | some id => exact ⟨0, by simp [given, hown], hle⟩
              | none =>
                  have hname : (s.entryName e).1 = orderName (s.named + 1) := by
                    rw [entryName, show e.id?.filter (· ≠ "") = none from hown]
                    rfl
                  rw [hname] at hnext
                  cases hentry : entryOrder? e now (orderName (s.named + 1)) with
                  -- The name of an entry that is refused is lost.
                  | none => exact ⟨0, by simp [given, hown, hentry], hle⟩
                  | some o =>
                      have hid := (entryOrder?_some hentry).1
                      exact ⟨1, by simp [given, hown, hentry, hid], hnext hown (by simp [hentry])⟩
          | _ => cases hplain
  | fill id => exact ⟨0, rfl, Nat.le_refl _⟩
  | fetch =>
      exact ⟨0, rfl, by rw [run, fetch_snd]; exact Nat.le_refl _⟩
  | apply b now =>
      cases hfailure : s.applyFailure? with
      | some reason => exact ⟨0, by simp [given, hfailure], by simp [run, apply_refused hfailure]⟩
      | none =>
          have hnamed : (s.apply b now).2.named = s.named + b.newOrders.length := by
            rw [apply_ok hfailure]
            exact foldl_insert_named b.newOrders
          exact ⟨b.newOrders.length, by rw [given, hfailure, ← stored_names now], Nat.le_of_eq hnamed.symm⟩

theorem named_le_run (c : StoreCall) (s : MemoryStore) : s.named ≤ (c.run s).named := by
  rcases c.given_eq s with ⟨k, -, hle⟩
  omega

theorem nodup_given (c : StoreCall) (s : MemoryStore) : (c.given s).Nodup := by
  rcases c.given_eq s with ⟨k, hgiven, -⟩
  rw [hgiven]
  exact List.Nodup.map orderName_injective List.nodup_range'

theorem mem_given {id : String} (h : id ∈ c.given s) :
    ∃ n, s.named < n ∧ n ≤ (c.run s).named ∧ id = orderName n := by
  rcases c.given_eq s with ⟨k, hgiven, hle⟩
  rw [hgiven] at h
  rcases List.mem_map.1 h with ⟨n, hn, rfl⟩
  rw [List.mem_range'_1] at hn
  exact ⟨n, by omega, by omega, rfl⟩

/-- A call that puts a name in is given none. -/
theorem put_eq_nil_or_given_eq_nil (c : StoreCall) (s : MemoryStore) : c.put = [] ∨ c.given s = [] := by
  cases c with
  | seed x =>
      cases x with
      | order e now =>
          rw [put, given]
          cases e.ownName? with
          | some id => exact Or.inr rfl
          | none => exact Or.inl rfl
      | _ => exact Or.inl rfl
  | _ => exact Or.inl rfl

theorem nodup_put (c : StoreCall) : c.put.Nodup := by
  cases c with
  | seed x =>
      cases x with
      | order e now =>
          rw [put]
          cases e.ownName? with
          | none => exact List.nodup_nil
          | some id =>
              dsimp only
              cases entryOrder? e now id <;> simp
      | _ => exact List.nodup_nil
  | _ => exact List.nodup_nil

/-- After a call the names are apart if they were before, and if what is added is new. -/
theorem apart_run_iff (hput : ∀ id ∈ c.put, id ∉ s.names) :
    (c.run s).Apart ↔ s.Apart ∧ ∀ id ∈ c.given s, id ∉ s.names := by
  have happend : (c.run s).Apart ↔ (s.names ++ c.put ++ c.given s).Nodup := by
    rw [← names_run]
    exact Iff.rfl
  have hdisjoint : s.names.Disjoint c.put := fun id hid hmem => hput id hmem hid
  rw [happend]
  rcases c.put_eq_nil_or_given_eq_nil s with hnone | hnone
  · rw [hnone, List.append_nil, List.nodup_append']
    refine ⟨fun h => ⟨h.1, fun id hgiven hid => h.2.2 hid hgiven⟩, fun h => ⟨h.1, c.nodup_given s, ?_⟩⟩
    exact fun id hid hgiven => h.2 id hgiven hid
  · rw [hnone, List.append_nil, List.nodup_append']
    exact ⟨fun h => ⟨h.1, fun id h => nomatch h⟩, fun h => ⟨h.1, c.nodup_put, hdisjoint⟩⟩

end StoreCall

namespace MemoryStore

/-! ## Runs of calls -/

variable {s : MemoryStore} {calls : List StoreCall} {hand : List String}

/-- The store after a run of calls. -/
def after (s : MemoryStore) (calls : List StoreCall) : MemoryStore := calls.foldl (fun s c => c.run s) s

/-- Every name that is put in by hand is new where it is put in. -/
def Fresh : MemoryStore → List StoreCall → Prop
  | _, [] => True
  | s, c :: cs => (∀ id ∈ c.put, id ∉ s.names) ∧ Fresh (c.run s) cs

/-- The counter never comes to a name that some calls found there or that was put in by hand before. -/
def NeverGiven : MemoryStore → List String → List StoreCall → Prop
  | _, _, [] => True
  | s, hand, c :: cs => (∀ id ∈ c.given s, id ∉ hand) ∧ NeverGiven (c.run s) (hand ++ c.put) cs

/-- Every name of a store is by hand, or one that the counter is beyond. -/
structure Accounted (s : MemoryStore) (hand : List String) : Prop where
  there : ∀ id ∈ hand, id ∈ s.names
  counted : ∀ id ∈ s.names, id ∈ hand ∨ ∃ n ≤ s.named, id = orderName n

/-- The counter gives out a name that is there only if that was put in by hand. -/
theorem Accounted.new_iff (h : s.Accounted hand) (c : StoreCall) :
    (∀ id ∈ c.given s, id ∉ s.names) ↔ ∀ id ∈ c.given s, id ∉ hand := by
  refine ⟨fun hnew id hid hhand => hnew id hid (h.there id hhand), fun hnew id hid hthere => ?_⟩
  rcases h.counted id hthere with hhand | ⟨n, hn, hname⟩
  · exact hnew id hid hhand
  · -- The names of the counter are given out in ascending order, so none of them comes twice.
    rcases StoreCall.mem_given hid with ⟨m, hm, -, hgiven⟩
    have heq : n = m := orderName_injective (hname.symm.trans hgiven)
    omega

theorem Accounted.run (h : s.Accounted hand) (c : StoreCall) : (c.run s).Accounted (hand ++ c.put) where
  there := by
    intro id hid
    rw [StoreCall.names_run]
    rcases List.mem_append.1 hid with hid | hid
    · exact List.mem_append_left _ (List.mem_append_left _ (h.there id hid))
    · exact List.mem_append_left _ (List.mem_append_right _ hid)
  counted := by
    intro id hid
    rw [StoreCall.names_run, List.mem_append, List.mem_append] at hid
    rcases hid with (hid | hid) | hid
    · rcases h.counted id hid with hhand | ⟨n, hn, hname⟩
      · exact Or.inl (List.mem_append_left _ hhand)
      · exact Or.inr ⟨n, Nat.le_trans hn (c.named_le_run s), hname⟩
    · exact Or.inl (List.mem_append_right _ hid)
    · rcases StoreCall.mem_given hid with ⟨n, -, hn, hname⟩
      exact Or.inr ⟨n, hn, hname⟩

theorem apart_of_apart_after (h : (s.after calls).Apart) : s.Apart := by
  induction calls generalizing s with
  | nil => exact h
  | cons c cs ih =>
      have hrun : (c.run s).Apart := ih h
      have hnames : (c.run s).names.Nodup := hrun
      rw [StoreCall.names_run, List.append_assoc] at hnames
      exact hnames.of_append_left

/-- At the end of a run the names are apart if and only if none of those put in by hand was given out. -/
theorem apart_after_iff (apart : s.Apart) (accounted : s.Accounted hand) (fresh : s.Fresh calls) :
    (s.after calls).Apart ↔ s.NeverGiven hand calls := by
  -- Along the run, the store and the names by hand change together, and what accounts for the names is kept.
  induction calls generalizing s hand with
  | nil => exact iff_of_true apart trivial
  | cons c cs ih =>
      have hstep : (c.run s).Apart ↔ ∀ id ∈ c.given s, id ∉ hand := by
        rw [StoreCall.apart_run_iff fresh.1, accounted.new_iff c]
        exact and_iff_right apart
      constructor
      · intro h
        have hrun : (c.run s).Apart := apart_of_apart_after h
        exact ⟨hstep.1 hrun, (ih hrun (accounted.run c) fresh.2).1 h⟩
      · intro h
        exact (ih (hstep.2 h.1) (accounted.run c) fresh.2).2 h.2

/-! ## What a name reaches -/

/-- The names of a store reach one order each: no two orders share a name, a fill closes the open order of
its name and no other one, and so does every cancellation of a batch. -/
structure Pinpoints (s : MemoryStore) : Prop where
  apart : s.Apart
  fill : ∀ id, (s.fill id).orders = s.orders.map (·.closeIfNamed id .filled)
  apply : ∀ b now, s.AppliesExactly b now

theorem Apart.pinpoints (apart : s.Apart) : s.Pinpoints where
  apart := apart
  fill id := closeOrder_eq_map apart id .filled
  apply := appliesExactly apart

/-- Calls that put in new names only, on a store whose names are apart: all along, a name reaches one
order, if and only if the counter never gives out a name that was there at the start or was put in by
hand. -/
theorem names_reach_one_order_iff (apart : s.Apart) (fresh : s.Fresh calls) :
    (∀ done, done <+: calls → (s.after done).Pinpoints) ↔ s.NeverGiven s.names calls := by
  have accounted : s.Accounted s.names := ⟨fun _ h => h, fun _ h => Or.inl h⟩
  constructor
  · intro h
    exact (apart_after_iff apart accounted fresh).1 (h calls (List.prefix_refl calls)).apart
  · rintro hnever done ⟨rest, rfl⟩
    have hend : (s.after (done ++ rest)).Apart := (apart_after_iff apart accounted fresh).2 hnever
    rw [after, List.foldl_append] at hend
    -- Names that are apart at the end were apart all the time.
    exact (apart_of_apart_after hend).pinpoints

/-- An entry of an order to buy two shares. -/
def buyTwo (id? : Option String) : OrderEntry where
  id? := id?
  instrumentId := "s1"
  botId := "b1"
  side := .text "BUY"
  limitPrice := .int 10
  quantity := .int 2

/-- A batch with one order to buy three shares. -/
def buyThree (cancelIds : List String) : Batch Value where
  cancelIds := cancelIds
  newOrders := [{ instrumentId := "s1", botId := "b1", side := .buy, limitPrice := .int 9, quantity := 3 }]

/-- A name of another kind than those of the counter is never given out. -/
theorem names_reach_one_order_iff_ownFirst :
    let calls : List StoreCall := [.seed (.order (buyTwo (some "o1")) 1), .seed (.order (buyTwo none) 2),
      .fill "sim-1", .apply (buyThree ["o1"]) 3]
    (∀ done, done <+: calls → (({} : MemoryStore).after done).Pinpoints) ∧
      (({} : MemoryStore).after calls).names = ["o1", "sim-1", "sim-2"] := by
  intro calls
  have apart : ({} : MemoryStore).Apart := List.nodup_nil
  have fresh : ({} : MemoryStore).Fresh calls := by
    simp only [calls, Fresh]
    decide +kernel
  have hnever : ({} : MemoryStore).NeverGiven [] calls := by
    simp only [calls, NeverGiven]
    decide +kernel
  exact ⟨(names_reach_one_order_iff apart fresh).2 hnever, by decide +kernel⟩

/-- The counter gives a new order the name that an order was put in under, and the second fill by that name
reaches the new order. -/
theorem chosen_name_given_again :
    let calls : List StoreCall := [.seed (.order (buyTwo (some "sim-1")) 1), .apply (buyThree []) 2]
    let s := ({} : MemoryStore).after calls
    ({} : MemoryStore).Fresh calls ∧ s.names = ["sim-1", "sim-1"] ∧ ¬ s.Pinpoints ∧
      (s.fill "sim-1").orders.map (·.status) = [.filled, .opened] ∧
      ((s.fill "sim-1").fill "sim-1").orders.map (·.status) = [.filled, .filled] := by
  intro calls s
  have hnames : s.names = ["sim-1", "sim-1"] := by decide +kernel
  have hfresh : ({} : MemoryStore).Fresh calls := by
    simp only [calls, Fresh]
    decide +kernel
  refine ⟨hfresh, hnames, fun h => ?_, by decide +kernel, by decide +kernel⟩
  have hnodup : s.names.Nodup := h.apart
  rw [hnames] at hnodup
  exact absurd hnodup (by decide)

end MemoryStore

end RuleTrader
