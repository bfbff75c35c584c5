import RuleTrader.Rule.Vocabulary

/-!
# The characters of indicator keys

A key is the name of an indicator, digits of any script and the marks between them. None of these is half
of a pair of code units, so a name that rules may read can be written as JSON text and read again.
-/

namespace RuleTrader

namespace Text

/-- No character keeps half of a pair. -/
def Whole (cs : List Char) : Prop := ∀ c ∈ cs, half? c = none

theorem Whole.append {cs ds : List Char} (hcs : Whole cs) (hds : Whole ds) : Whole (cs ++ ds) := by
  intro c hc
  rcases List.mem_append.1 hc with hc | hc
  · exact hcs c hc
  · exact hds c hc

theorem Whole.cons {c : Char} (hc : half? c = none) {cs : List Char} (hcs : Whole cs) : Whole (c :: cs) := by
  intro d hd
  rcases List.mem_cons.1 hd with rfl | hd
  · exact hc
  · exact hcs d hd

theorem half?_of_lt {c : Char} (h : c.toNat < halfPlane) : half? c = none := by
  unfold half?
  rw [decide_eq_false (Nat.not_le.2 h), Bool.false_and, if_neg Bool.false_ne_true]

/-- The digits of all scripts come before the characters that keep halves. -/
theorem half?_of_isDigit {c : Char} (h : isDigit c = true) : half? c = none := by
  have hzeros : ∀ first ∈ digitZeros, first + 10 ≤ halfPlane := by decide
  unfold isDigit digitValue? at h
  rw [Option.isSome_map, Option.isSome_iff_exists] at h
  rcases h with ⟨first, hfirst⟩
  have hmem := hzeros first (List.mem_of_find?_eq_some hfirst)
  have hrun := List.find?_some hfirst
  simp only [Bool.and_eq_true, decide_eq_true_eq] at hrun
  exact half?_of_lt (by omega)

theorem whole_of_all {cs : List Char} (h : cs.all isDigit = true) : Whole cs :=
  fun c hc => half?_of_isDigit (List.all_eq_true.1 h c hc)

end Text

namespace IndicatorKey

open Text (Whole)

theorem splitColon?_eq {cs name rest : List Char} (h : splitColon? cs = some (name, rest)) :
    cs = name ++ ':' :: rest := by
  have hwhole := List.takeWhile_append_dropWhile (p := (· ≠ ':')) (l := cs)
  unfold splitColon? at h
  split at h
  · rename_i after hdrop
    cases h
    rw [hdrop] at hwhole
    exact hwhole.symm
  · cases h

theorem whole_of_dropLineFeed {cs : List Char} (h : Whole (dropLineFeed cs)) : Whole cs := by
  unfold dropLineFeed at h
  split at h
  · -- The line feed that was dropped is no half either.
    rename_i hlast
    rcases List.getLast?_eq_some_iff.1 hlast with ⟨front, rfl⟩
    rw [List.dropLast_concat] at h
    exact h.append (Whole.cons (by decide) fun _ hc => nomatch hc)
  · exact h

theorem whole_of_isDigits {cs : List Char} (h : isDigits cs = true) : Whole cs := by
  unfold isDigits at h
  rw [Bool.and_eq_true] at h
  exact Text.whole_of_all h.2

theorem whole_of_multiplier? {cs : List Char} {x : Float} (h : multiplier? cs = some x) : Whole cs := by
  have hsplit := List.takeWhile_append_dropWhile (p := Text.isDigit) (l := cs)
  have hfront : Whole (cs.takeWhile Text.isDigit) := Text.whole_of_all List.all_takeWhile
  unfold multiplier? at h
  dsimp only at h
  split at h
  · cases h
  · rw [← hsplit]
    split at h
    · rename_i hnone
      rw [hnone, List.append_nil]
      exact hfront
    · rename_i fraction hpoint
      split at h
      · rename_i hdigits
        rw [hpoint]
        exact hfront.append (Whole.cons (by decide) (whole_of_isDigits hdigits))
      · cases h
    · cases h

theorem whole_of_readParameters {kind : Indicator} {cs : List Char} {spec : IndicatorSpec}
    (h : readParameters kind cs = .ok (some spec)) : Whole cs := by
  unfold readParameters at h
  split at h
  · -- A period, a colon and a multiplier.
    split at h
    · cases h
    · rename_i period rest hcolon
      split at h
      · cases h
      · rename_i multiplier hmultiplier
        split at h
        · rename_i hperiod
          rw [splitColon?_eq hcolon]
          exact (whole_of_isDigits hperiod).append (Whole.cons (by decide) (whole_of_multiplier? hmultiplier))
        · cases h
  · split at h
    · rename_i hdigits
      exact whole_of_isDigits hdigits
    · cases h

theorem whole_name (kind : Indicator) : Whole kind.name.toList := by
  have hplain : (kind.name.toList.all fun c => c.toNat < Text.halfPlane) = true := by cases kind <;> rfl
  exact fun c hc => Text.half?_of_lt (of_decide_eq_true (List.all_eq_true.1 hplain c hc))

theorem name_of_ofName? {s : String} {kind : Indicator} (h : Indicator.ofName? s = some kind) :
    kind.name = s := by
  have hfound := List.find?_some h
  simpa using hfound

/-- A key has no half of a pair. -/
theorem whole_of_read {key : String} {spec : IndicatorSpec} (h : read key = .ok (some spec)) :
    Whole key.toList := by
  unfold read at h
  split at h
  · cases h
  · rename_i name rest hcolon
    split at h
    · cases h
    · rename_i kind hkind
      refine whole_of_dropLineFeed ?_
      have hname : kind.name.toList = name := by
        rw [name_of_ofName? hkind, String.toList_ofList]
      rw [splitColon?_eq hcolon, ← hname]
      exact (whole_name kind).append (Whole.cons (by decide) (whole_of_readParameters h))

end IndicatorKey

/-- A name that rules may read has no half of a pair. -/
theorem Fact.whole_of_isAllowed {name : String} (h : Fact.isAllowed name = .ok true) :
    Text.Whole name.toList := by
  have hplain : (Fact.plainNames.all fun s => s.toList.all fun c => c.toNat < Text.halfPlane) = true := rfl
  unfold isAllowed at h
  split at h
  · rename_i hmem
    have hchars := List.all_eq_true.1 hplain name hmem
    exact fun c hc => Text.half?_of_lt (of_decide_eq_true (List.all_eq_true.1 hchars c hc))
  · unfold IndicatorKey.isFact at h
    split at h
    · -- The name of an indicator by itself.
      rename_i hkind
      rcases Option.isSome_iff_exists.1 hkind with ⟨kind, hkind⟩
      rw [← IndicatorKey.name_of_ofName? hkind]
      exact IndicatorKey.whole_name kind
    · unfold IndicatorKey.isKey at h
      cases hread : IndicatorKey.read name with
      | error fault =>
          rw [hread] at h
          cases h
      | ok spec? =>
          rw [hread] at h
          cases spec? with
          | none => cases h
          | some spec => exact IndicatorKey.whole_of_read hread

end RuleTrader
