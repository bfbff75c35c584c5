import Mathlib.Data.Nat.Digits.Defs
import RuleTrader.Json.Writer
import RuleTrader.Proofs.Outcome
import RuleTrader.Proofs.Rule.Grammar

/-!
# What can be written as JSON text

`Value.Plain` says what JSON text holds: no bytes and no rows, numbers that are defined and not too long,
and records with distinct names. Every such value has a text (`Json.write_plain`). A finite number is
plain, as an integer that is near to a binary64 number has far fewer digits than the limit.
-/

namespace RuleTrader

/-- A number that JSON text holds: an integer with few enough digits, or a float that is defined. -/
inductive Number.Plain : Number → Prop
  | int {n : Int} (short : (Nat.toDigits 10 n.natAbs).length ≤ digitLimit) : Plain (.int n)
  | float {x : Float} (defined : Binary64.read x ≠ .undefined) : Plain (.float x)

/-- A value that JSON text holds. -/
inductive Value.Plain : Value → Prop
  | null : Plain .null
  | bool (b : Bool) : Plain (.bool b)
  | number {x : Number} (plain : x.Plain) : Plain (.number x)
  | text (s : String) : Plain (.text s)
  | list {items : List Value} (parts : ∀ v ∈ items, Plain v) : Plain (.list items)
  | record {fields : List (String × Value)} (apart : (Table.keys fields).Nodup)
      (parts : ∀ e ∈ fields, Plain e.2) : Plain (.record fields)

/-! ## Finite numbers -/

namespace Binary64

/-- The last place of an integer is that of its leading bit, as far as the fraction goes. -/
theorem lastPlace_one {n : Nat} (hn : n ≠ 0) :
    lastPlace n 1 = max ((n.log2 : Int) - fractionBits) leastExponent := by
  have hle : twoTo n.log2 ≤ n := Nat.log2_self_le hn
  have hbelow : decide (n < 1 * twoTo n.log2) = false := by
    rw [Nat.one_mul]
    exact decide_eq_false (Nat.not_lt.2 hle)
  have hguess : (n.log2 : Int) - (Nat.log2 1 : Nat) = n.log2 := Int.sub_zero _
  simp only [lastPlace, hguess, Int.natCast_nonneg, if_true, Int.toNat_natCast, hbelow,
    Bool.false_eq_true, if_false]

/-- An integer with a nearest binary64 number is not large. -/
theorem log2_lt_of_nearestBits {n : Nat} (hn : n ≠ 0) (h : nearestBits n 1 < infinityBits) :
    n.log2 < 1200 := by
  have hbits : (lastPlace n 1 - leastExponent).toNat * twoTo fractionBits < infinityBits := by
    refine Nat.lt_of_le_of_lt ?_ h
    simp only [nearestBits, if_neg hn]
    exact Nat.le_add_right _ _
  have htwo : twoTo fractionBits = 4503599627370496 := rfl
  have hinfinity : infinityBits = 9218868437227405312 := rfl
  have hfraction : (fractionBits : Int) = 52 := rfl
  have hleast : leastExponent = -1074 := rfl
  rw [lastPlace_one hn, htwo, hinfinity] at hbits
  omega

end Binary64

theorem Number.Finite.plain {x : Number} (h : x.Finite) : x.Plain := by
  cases x with
  | int n =>
      have hbits : Binary64.nearestBits n.natAbs 1 < Binary64.infinityBits := by
        by_contra hlarge
        simp [Number.Finite, Number.isFinite, Number.floatOfInt, Binary64.ofInt?, Binary64.nearest?,
          hlarge, Functor.map, Except.map] at h
      have hsmall : n.natAbs < 10 ^ digitLimit := by
        by_cases hzero : n.natAbs = 0
        · rw [hzero]
          exact Nat.pow_pos (by decide)
        · have hlog := Binary64.log2_lt_of_nearestBits hzero hbits
          have hlimit : (1200 : Nat) ≤ digitLimit := by decide
          calc
            n.natAbs < 2 ^ (n.natAbs.log2 + 1) := Nat.lt_log2_self
            _ ≤ 2 ^ digitLimit := Nat.pow_le_pow_right (by decide) (by omega)
            _ ≤ 10 ^ digitLimit := Nat.pow_le_pow_left (by decide) digitLimit
      exact .int (Nat.toDigits_length 10 n.natAbs digitLimit (by decide) hsmall)
  | float x =>
      refine .float fun hundefined => ?_
      simp [Number.Finite, Number.isFinite, Binary64.isFinite, hundefined] at h

/-! ## Writing -/

namespace Json

theorem writeNumber_plain {x : Number} (h : x.Plain) : ∃ cs, writeNumber x = .ok cs := by
  cases h with
  | int short =>
      simp only [writeNumber, Number.writeInt, if_neg (Nat.not_lt.2 short)]
      exact ⟨_, rfl⟩
  | float defined => exact ⟨_, rfl⟩

theorem writeItems_ok {items : List Value} (h : ∀ v ∈ items, ∃ cs, writeValue v = .ok cs)
    (none lead : List Char) : ∃ cs, writeItems none lead items = .ok cs := by
  induction items generalizing none lead with
  | nil => exact ⟨none, rfl⟩
  | cons v vs ih =>
      rcases h v (List.mem_cons_self ..) with ⟨here, hhere⟩
      rcases ih (fun w hw => h w (List.mem_cons_of_mem _ hw)) "]".toList ", ".toList with ⟨rest, hrest⟩
      exact ⟨lead ++ here ++ rest, by rw [writeItems, hhere, hrest]; rfl⟩

theorem writeFields_ok {fields : List (String × Value)}
    (h : ∀ e ∈ fields, ∃ cs, writeValue e.2 = .ok cs) (none lead : List Char) :
    ∃ cs, writeFields none lead fields = .ok cs := by
  induction fields generalizing none lead with
  | nil => exact ⟨none, rfl⟩
  | cons e fields ih =>
      rcases e with ⟨name, v⟩
      rcases h (name, v) (List.mem_cons_self ..) with ⟨here, hhere⟩
      rcases ih (fun w hw => h w (List.mem_cons_of_mem _ hw)) "\x7d".toList ", ".toList with
        ⟨rest, hrest⟩
      exact ⟨lead ++ writeText name ++ ": ".toList ++ here ++ rest, by
        rw [writeFields, hhere, hrest]; rfl⟩

/-- Every value that JSON text holds has a text. -/
theorem write_plain {v : Value} (h : v.Plain) : ∃ text, write v = .ok text := by
  have hvalue : ∃ cs, writeValue v = .ok cs := by
    induction h with
    | null => exact ⟨_, rfl⟩
    | bool b => exact ⟨_, rfl⟩
    | number plain => exact writeNumber_plain plain
    | text s => exact ⟨_, rfl⟩
    | list parts ih => exact writeItems_ok ih _ _
    | record apart parts ih => exact writeFields_ok ih _ _
  rcases hvalue with ⟨cs, hcs⟩
  exact ⟨String.ofList cs, by rw [write, hcs]; rfl⟩

/-! ## What was written -/

/-- An integer that was written has few enough digits. -/
theorem plain_of_writeNumber {x : Number} {cs : List Char} (h : writeNumber x = .ok cs)
    (defined : ∀ y, x = .float y → Binary64.read y ≠ .undefined) : x.Plain := by
  cases x with
  | int n =>
      refine .int (Nat.not_lt.1 fun hlong => ?_)
      simp [writeNumber, Number.writeInt, if_pos hlong] at h
  | float y => exact .float (defined y rfl)

theorem written_of_writeItems {items : List Value} {none lead cs : List Char}
    (h : writeItems none lead items = .ok cs) : ∀ v ∈ items, ∃ cs, writeValue v = .ok cs := by
  induction items generalizing none lead cs with
  | nil => simp
  | cons v vs ih =>
      rw [writeItems] at h
      rcases bind_ok h with ⟨here, hhere, h⟩
      rcases bind_ok h with ⟨rest, hrest, -⟩
      exact List.forall_mem_cons.2 ⟨⟨here, hhere⟩, ih hrest⟩

theorem written_of_writeFields {fields : List (String × Value)} {none lead cs : List Char}
    (h : writeFields none lead fields = .ok cs) : ∀ e ∈ fields, ∃ cs, writeValue e.2 = .ok cs := by
  induction fields generalizing none lead cs with
  | nil => simp
  | cons e fields ih =>
      rw [writeFields] at h
      rcases bind_ok h with ⟨here, hhere, h⟩
      rcases bind_ok h with ⟨rest, hrest, -⟩
      exact List.forall_mem_cons.2 ⟨⟨here, hhere⟩, ih hrest⟩

end Json

end RuleTrader
