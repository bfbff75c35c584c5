import Mathlib.Data.List.Chain
import Mathlib.Data.Nat.Digits.Defs
import RuleTrader.Json.Reader
import RuleTrader.Json.Writer

/-!
# Texts in JSON text

A character is written as it is, after a backslash, or by its code units. Each of the three is read back
on its own, up to one exception that the format has: two halves of a pair that stand side by side, the
leading one first, are read as one character. A text without such a place is `Unpaired`, and it is read
as it was written (`readText_write`).
-/

namespace RuleTrader

/-! ## Code units in hexadecimal -/

namespace Text

theorem hexDigits_succ {width : Nat} (hwidth : 0 < width) (n : Nat) :
    hexDigits (width + 1) n = hexDigits width (n / 16) ++ [Nat.digitChar (n % 16)] := by
  unfold hexDigits
  dsimp only
  by_cases hsmall : n < 16
  · -- One digit after zeros.
    have hzero : Nat.toDigits 16 0 = ['0'] := rfl
    rw [Nat.toDigits_of_lt_base hsmall, Nat.div_eq_of_lt hsmall, Nat.mod_eq_of_lt hsmall, hzero]
    obtain ⟨k, rfl⟩ : ∃ k, width = k + 1 := ⟨width - 1, by omega⟩
    simp [List.replicate_succ']
  · rw [Nat.toDigits_of_base_le (by decide) (Nat.le_of_not_lt hsmall), List.length_append,
      List.length_singleton, Nat.add_sub_add_right, List.append_assoc]

end Text

namespace Json

theorem hexValue?_digitChar {k : Nat} (h : k < 16) : hexValue? (Nat.digitChar k) = some k := by
  have hall : ∀ k : Fin 16, hexValue? (Nat.digitChar k) = some k.val := by decide
  exact hall ⟨k, h⟩

/-- Four hexadecimal digits write a code unit. -/
theorem exists_codeUnit? {u : Nat} (h : u < 0x10000) :
    ∃ a b c d, Text.hexDigits 4 u = [a, b, c, d] ∧ codeUnit? a b c d = some u := by
  have hlast : Text.hexDigits 1 (u / 16 / 16 / 16) = [Nat.digitChar (u / 16 / 16 / 16)] := by
    unfold Text.hexDigits
    rw [Nat.toDigits_of_lt_base (by omega)]
    rfl
  refine ⟨Nat.digitChar (u / 16 / 16 / 16), Nat.digitChar (u / 16 / 16 % 16),
    Nat.digitChar (u / 16 % 16), Nat.digitChar (u % 16), ?_, ?_⟩
  · rw [Text.hexDigits_succ (by decide), Text.hexDigits_succ (by decide), Text.hexDigits_succ (by decide),
      hlast]
    rfl
  · simp only [codeUnit?, hexValue?_digitChar (show u / 16 / 16 / 16 < 16 by omega),
      hexValue?_digitChar (Nat.mod_lt _ (show 0 < 16 by decide)), Option.bind_eq_bind, Option.bind_some,
      Option.pure_def]
    congr 1
    omega

/-! ## The code units of a character -/

/-- A character that keeps the first half of a pair. -/
def leads (c : Char) : Bool := (Text.half? c).any isLeading

/-- A character that keeps the second half of a pair. -/
def trails (c : Char) : Bool := (Text.half? c).any isTrailing

/-- One code unit of its own, or the two of a pair. -/
theorem codeUnits_cases (c : Char) :
    (∃ u, Text.codeUnits c = [u] ∧ u < 0x10000 ∧ unitChar u = c ∧ isLeading u = leads c ∧
        isTrailing u = trails c) ∨
      ∃ u v, Text.codeUnits c = [u, v] ∧ u < 0x10000 ∧ v < 0x10000 ∧ isLeading u = true ∧
        isTrailing u = false ∧ isTrailing v = true ∧ joinPair u v = c := by
  have hvalid : c.toNat.isValidChar := c.valid
  unfold Text.codeUnits
  dsimp only
  cases hhalf : Text.half? c with
  | some u =>
      -- The character stands for a half.
      have hu : Text.halfPlane ≤ c.toNat ∧ Text.isHalf u = true ∧ c.toNat = Text.halfPlane + u := by
        unfold Text.half? at hhalf
        split at hhalf
        · rename_i hkept
          have hu : c.toNat - Text.halfPlane = u := Option.some.inj hhalf
          simp only [Bool.and_eq_true, decide_eq_true_eq, hu] at hkept
          exact ⟨hkept.1, hkept.2, by omega⟩
        · cases hhalf
      have hbounds : 0xD800 ≤ u ∧ u ≤ 0xDFFF := by simpa [Text.isHalf] using hu.2.1
      refine Or.inl ⟨u, rfl, by omega, ?_, by simp [leads, hhalf], by simp [trails, hhalf]⟩
      rw [unitChar, if_pos hu.2.1, Text.keepHalf, ← hu.2.2, Char.ofNat_toNat]
  | none =>
      dsimp only
      split
      · -- A character of its own code unit is no half, as no character is.
        rename_i hsmall
        have hno : Text.isHalf c.toNat = false ∧ isLeading c.toNat = false ∧ isTrailing c.toNat = false := by
          unfold Nat.isValidChar at hvalid
          simp only [Text.isHalf, isLeading, isTrailing, Bool.and_eq_false_iff, decide_eq_false_iff_not]
          omega
        refine Or.inl ⟨c.toNat, rfl, hsmall, ?_, by simp [leads, hhalf, hno], by simp [trails, hhalf, hno]⟩
        rw [unitChar, hno.1, if_neg (by simp), Char.ofNat_toNat]
      · -- A pair: ten bits each, above the first code points.
        rename_i hlarge
        have hgreatest : c.toNat < 0x110000 := by
          unfold Nat.isValidChar at hvalid
          omega
        refine Or.inr ⟨_, _, rfl, by omega, by omega, ?_, ?_, ?_, ?_⟩
        · simp only [isLeading, Bool.and_eq_true, decide_eq_true_eq]
          omega
        · simp only [isTrailing, Bool.and_eq_false_iff, decide_eq_false_iff_not]
          omega
        · simp only [isTrailing, Bool.and_eq_true, decide_eq_true_eq]
          omega
        · have hsum : 0x10000 + (0xD800 + (c.toNat - 0x10000) / 0x400 - 0xD800) * 0x400 +
              (0xDC00 + (c.toNat - 0x10000) % 0x400 - 0xDC00) = c.toNat := by omega
          rw [joinPair, hsum, Char.ofNat_toNat]

/-! ## Reading one character -/

/-- What follows a code unit does not make a pair of it. -/
def Unjoined (u : Nat) (tail : List Char) : Prop :=
  tail ≠ [] ∧ (isLeading u = true → ∀ e f g h after, tail = '\\' :: 'u' :: e :: f :: g :: h :: after →
    ∃ v, codeUnit? e f g h = some v ∧ isTrailing v = false)

theorem readText_unit {u : Nat} (hu : u < 0x10000) {tail : List Char} (htail : Unjoined u tail) :
    readText (writeUnit u ++ tail) = consText (unitChar u) (readText tail) := by
  rcases exists_codeUnit? hu with ⟨a, b, c, d, hdigits, hvalue⟩
  rcases htail with ⟨hne, hapart⟩
  rw [writeUnit, hdigits]
  -- Another code unit may follow, or anything else.
  by_cases hpair : ∃ e f g h x after, tail = '\\' :: 'u' :: e :: f :: g :: h :: x :: after
  · rcases hpair with ⟨e, f, g, h, x, after, rfl⟩
    simp only [List.cons_append, List.nil_append, readText, hvalue]
    by_cases hlead : isLeading u = true
    · rcases hapart hlead e f g h (x :: after) rfl with ⟨v, hv, htrail⟩
      simp only [hlead, if_true, hv, htrail, Bool.false_eq_true, if_false]
    · rw [if_neg hlead]
  · cases tail with
    | nil => exact absurd rfl hne
    | cons x after =>
        simp only [List.cons_append, List.nil_append]
        rw [readText]
        · simp only [hvalue]
        · rintro e f g h y later rfl
          rintro rfl
          exact hpair ⟨e, f, g, h, y, later, rfl⟩

theorem readText_pair {u v : Nat} (hu : u < 0x10000) (hv : v < 0x10000) (hlead : isLeading u = true)
    (htrail : isTrailing v = true) {tail : List Char} (htail : tail ≠ []) :
    readText (writeUnit u ++ (writeUnit v ++ tail)) = consText (joinPair u v) (readText tail) := by
  rcases exists_codeUnit? hu with ⟨a, b, c, d, hdigits, hvalue⟩
  rcases exists_codeUnit? hv with ⟨e, f, g, h, hdigits', hvalue'⟩
  cases tail with
  | nil => exact absurd rfl htail
  | cons x after =>
      simp only [writeUnit, hdigits, hdigits', List.cons_append, List.nil_append, readText, hvalue, hlead,
        if_true, hvalue', htrail]

/-- A character after a backslash, a character as it is, or its code units. -/
theorem writeChar_cases (c : Char) :
    (∃ e, writeChar c = ['\\', e] ∧ e ≠ 'u' ∧ escaped? e = some c) ∨
      (writeChar c = [c] ∧ c ≠ '"' ∧ c ≠ '\\' ∧ 0x20 ≤ c.toNat) ∨
      writeChar c = (Text.codeUnits c).flatMap writeUnit := by
  have hback {n : Nat} (h : c.toNat = n) : Char.ofNat n = c := by rw [← h, Char.ofNat_toNat]
  unfold writeChar
  split
  · exact Or.inl ⟨'"', rfl, by decide, rfl⟩
  · exact Or.inl ⟨'\\', rfl, by decide, rfl⟩
  · exact Or.inl ⟨'n', rfl, by decide, rfl⟩
  · exact Or.inl ⟨'r', rfl, by decide, rfl⟩
  · exact Or.inl ⟨'t', rfl, by decide, rfl⟩
  · rename_i hquote hslash _ _ _
    dsimp only
    split
    · rename_i h
      exact Or.inl ⟨'b', rfl, by decide, congrArg some (hback h)⟩
    · split
      · rename_i h
        exact Or.inl ⟨'f', rfl, by decide, congrArg some (hback h)⟩
      · split
        · rename_i hprintable
          exact Or.inr (Or.inl ⟨rfl, hquote, hslash, hprintable.1⟩)
        · exact Or.inr (Or.inr rfl)

theorem readText_escape {e c : Char} (hu : e ≠ 'u') (h : escaped? e = some c) (tail : List Char) :
    readText ('\\' :: e :: tail) = consText c (readText tail) := by
  rw [readText]
  · rw [h]
  all_goals
    intros
    contradiction

theorem readText_plain {c : Char} (hquote : c ≠ '"') (hslash : c ≠ '\\') (h : 0x20 ≤ c.toNat)
    (tail : List Char) : readText (c :: tail) = consText c (readText tail) := by
  rw [readText]
  · rw [if_neg (Nat.not_lt.2 h)]
  all_goals
    intros
    contradiction

theorem readText_writeChar {c : Char} {tail : List Char}
    (h : ∀ u, isLeading u = leads c → Unjoined u tail) (hne : tail ≠ []) :
    readText (writeChar c ++ tail) = consText c (readText tail) := by
  rcases writeChar_cases c with ⟨e, hwrite, hu, hescaped⟩ | ⟨hwrite, hquote, hslash, hprintable⟩ | hwrite
  · rw [hwrite]
    exact readText_escape hu hescaped tail
  · rw [hwrite]
    exact readText_plain hquote hslash hprintable tail
  · rw [hwrite]
    rcases codeUnits_cases c with ⟨u, hunits, hu, hchar, hlead, -⟩ | ⟨u, v, hunits, hu, hv, hlead, -, htrail, hchar⟩
    · have hunit := readText_unit hu (h u hlead)
      rw [hunits, List.flatMap_cons, List.flatMap_nil, List.append_nil, hunit, hchar]
    · have hpair := readText_pair hu hv hlead htrail hne
      rw [hunits, List.flatMap_cons, List.flatMap_cons, List.flatMap_nil, List.append_nil, List.append_assoc,
        hpair, hchar]

/-! ## Reading a text -/

/-- No leading half is followed by a trailing one. -/
def Unpaired (cs : List Char) : Prop := cs.IsChain fun c d => leads c = true → trails d = false

instance (cs : List Char) : Decidable (Unpaired cs) :=
  inferInstanceAs (Decidable (cs.IsChain fun c d => leads c = true → trails d = false))

/-- A text that does not start with a trailing half does not join the code unit before it. -/
theorem unjoined_write {cs : List Char} (h : ∀ d, cs.head? = some d → trails d = false) (u : Nat)
    (rest : List Char) : Unjoined u (cs.flatMap writeChar ++ '"' :: rest) := by
  refine ⟨by simp, fun _ e f g i after heq => ?_⟩
  cases cs with
  | nil => cases heq
  | cons d cs =>
      rw [List.flatMap_cons, List.append_assoc] at heq
      rcases writeChar_cases d with ⟨x, hwrite, hu, -⟩ | ⟨hwrite, -, hslash, -⟩ | hwrite
      · rw [hwrite] at heq
        exact absurd (List.cons.inj (List.cons.inj heq).2).1 hu
      · rw [hwrite] at heq
        exact absurd (List.cons.inj heq).1 hslash
      · -- The first code unit of the character is what follows.
        have hfirst : ∃ v later, writeChar d = writeUnit v ++ later ∧ v < 0x10000 ∧ isTrailing v = false := by
          rcases codeUnits_cases d with ⟨v, hunits, hv, -, -, htrail⟩ | ⟨v, w, hunits, hv, -, -, htrail, -⟩
          · exact ⟨v, [], by rw [hwrite, hunits]; rfl, hv, htrail.trans (h d rfl)⟩
          · exact ⟨v, writeUnit w ++ [], by rw [hwrite, hunits]; rfl, hv, htrail⟩
        rcases hfirst with ⟨v, later, hunit, hv, htrail⟩
        rcases exists_codeUnit? hv with ⟨a, b, c, k, hdigits, hvalue⟩
        rw [hunit, writeUnit, hdigits] at heq
        cases heq
        exact ⟨v, hvalue, htrail⟩

/-- A text without two halves that make a pair is read as it was written. -/
theorem readText_write {cs : List Char} (h : Unpaired cs) (rest : List Char) :
    readText (cs.flatMap writeChar ++ '"' :: rest) = .ok (cs, rest) := by
  induction cs with
  | nil =>
      change readText ('"' :: rest) = _
      rw [readText]
  | cons c cs ih =>
      rcases List.isChain_cons.1 h with ⟨hnext, hchain⟩
      have hjoin : ∀ u, isLeading u = leads c → Unjoined u (cs.flatMap writeChar ++ '"' :: rest) := by
        intro u hu
        -- Only a leading half can be joined, and what comes next is no trailing one.
        by_cases hlead : leads c = true
        · exact unjoined_write (fun d hd => hnext d hd hlead) u rest
        · exact ⟨by simp, fun hu' => absurd (hu.symm.trans hu') hlead⟩
      rw [List.flatMap_cons, List.append_assoc, readText_writeChar hjoin (by simp), ih hchain]
      rfl

end Json

end RuleTrader
