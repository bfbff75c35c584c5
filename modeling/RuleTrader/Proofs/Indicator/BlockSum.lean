import Mathlib.Algebra.BigOperators.Group.List.Basic
import Mathlib.Algebra.Group.PUnit
import Mathlib.Algebra.Group.Prod
import Mathlib.Data.List.Forall2
import RuleTrader.Indicator.Window
import RuleTrader.Proofs.Number.Sum

/-!
# Sums in blocks

Floats are summed up in blocks, so that each addition is rounded in an order of its own. What adding two
floats keeps, their sum keeps all the same: where floats are related to elements of a commutative monoid, and
adding keeps the relation, the sum of the floats is related to the sum of the elements, none left out and none
taken twice (`blockSum_related`).

With a monoid of one element this is an induction on sums (`blockSum_induction`). With the integers it says
that whole numbers are summed up exactly, as long as their sizes add up to no more than a float can count
(`denotes_blockSum`).
-/

namespace RuleTrader

section

variable {M : Type} [AddCommMonoid M] {R : Float → M → Prop}
  (add : ∀ x y a b, R x a → R y b → R (x + y) (a + b))
include add

theorem foldl_add_related {xs : List Float} {as : List M} (hxs : List.Forall₂ R xs as) {x : Float} {a : M}
    (hx : R x a) : R (xs.foldl (· + ·) x) (a + as.sum) := by
  induction hxs generalizing x a with
  | nil => rwa [List.sum_nil, add_zero]
  | cons hhead _ ih =>
      rw [List.sum_cons, ← add_assoc]
      exact ih (add _ _ _ _ hx hhead)

theorem zipWith_add_related {xs ys : List Float} {as bs : List M} (hxs : List.Forall₂ R xs as)
    (hys : List.Forall₂ R ys bs) :
    List.Forall₂ R (List.zipWith (· + ·) xs ys) (List.zipWith (· + ·) as bs) := by
  induction hxs generalizing ys bs with
  | nil => exact .nil
  | cons hx _ ih =>
      cases hys with
      | nil => exact .nil
      | cons hy hys => exact .cons (add _ _ _ _ hx hy) (ih hys)

namespace BlockSum

/-- The blocks are added to as many running sums as there are numbers in a block, so no number is lost. -/
theorem addBlocks_related {sums xs : List Float} {as bs : List M} (hsums : List.Forall₂ R sums as)
    (hxs : List.Forall₂ R xs bs) (hlanes : lanes ≤ xs.length → sums.length = lanes) :
    ∃ as' bs', List.Forall₂ R (addBlocks sums xs).1 as' ∧ List.Forall₂ R (addBlocks sums xs).2 bs' ∧
      as'.sum + bs'.sum = as.sum + bs.sum := by
  -- The recursion takes eight numbers at a time, and each of them is added to one running sum.
  induction sums, xs using addBlocks.induct generalizing as bs with
  | case1 sums a b c d e f g h rest ih =>
      have hblock := List.forall₂_take lanes hxs
      have hfull : sums.length = lanes := hlanes (Nat.le_add_left _ _)
      have hlength : as.length = (bs.take lanes).length := by
        rw [← hsums.length_eq, ← hblock.length_eq]
        exact hfull
      have hfull' : (List.zipWith (· + ·) sums [a, b, c, d, e, f, g, h]).length = lanes := by
        rw [List.length_zipWith, hfull]
        rfl
      rw [addBlocks]
      obtain ⟨as', bs', hsums', hrest, hsum⟩ := ih (zipWith_add_related add hsums hblock)
        (List.forall₂_drop lanes hxs) fun _ => hfull'
      refine ⟨as', bs', hsums', hrest, ?_⟩
      calc
        as'.sum + bs'.sum = (List.zipWith (· + ·) as (bs.take lanes)).sum + (bs.drop lanes).sum := hsum
        _ = as.sum + (bs.take lanes).sum + (bs.drop lanes).sum := by
            rw [List.sum_add_sum_eq_sum_zipWith_of_length_eq _ _ hlength]
        _ = as.sum + bs.sum := by rw [add_assoc, List.sum_take_add_sum_drop]
  | case2 sums xs hshort =>
      rw [addBlocks.eq_2 sums xs hshort]
      exact ⟨as, bs, hsums, hxs, rfl⟩

variable (zero : R 0 0)
include zero

theorem plain_related {xs : List Float} {as : List M} (hxs : List.Forall₂ R xs as) :
    R (plain xs) as.sum := by
  cases hxs with
  | nil => exact zero
  | cons hx hxs =>
      rw [List.sum_cons]
      exact foldl_add_related add hxs hx

theorem combine_related {sums : List Float} {as : List M} (hsums : List.Forall₂ R sums as) :
    R (combine sums) as.sum := by
  unfold combine
  split
  · obtain _ | ⟨ha, _ | ⟨hb, _ | ⟨hc, _ | ⟨hd, _ | ⟨he, _ | ⟨hf, _ | ⟨hg, _ | ⟨hh, ⟨⟩⟩⟩⟩⟩⟩⟩⟩⟩ := hsums
    have hleft := add _ _ _ _ (add _ _ _ _ ha hb) (add _ _ _ _ hc hd)
    have hright := add _ _ _ _ (add _ _ _ _ he hf) (add _ _ _ _ hg hh)
    simpa only [List.sum_cons, List.sum_nil, add_zero, add_assoc] using add _ _ _ _ hleft hright
  · exact plain_related add zero hsums

theorem block_related {xs : List Float} {as : List M} (hxs : List.Forall₂ R xs as) :
    R (block xs) as.sum := by
  have hlanes : lanes ≤ (xs.drop lanes).length → (xs.take lanes).length = lanes := by
    rw [List.length_drop, List.length_take]
    unfold lanes
    omega
  obtain ⟨sums, rest, hsums, hrest, hsum⟩ :=
    addBlocks_related add (List.forall₂_take lanes hxs) (List.forall₂_drop lanes hxs) hlanes
  rw [← List.sum_take_add_sum_drop as lanes, ← hsum]
  exact foldl_add_related add hrest (combine_related add zero hsums)

theorem split_related (fuel : Nat) {xs : List Float} {as : List M} (hxs : List.Forall₂ R xs as) :
    R (split fuel xs) as.sum := by
  induction fuel generalizing xs as with
  | zero => exact block_related add zero hxs
  | succ fuel ih =>
      -- Short lists are summed up at once, long ones in two parts.
      unfold split
      split
      · exact plain_related add zero hxs
      · split
        · exact block_related add zero hxs
        · rw [← List.sum_take_add_sum_drop as _]
          exact add _ _ _ _ (ih (List.forall₂_take _ hxs)) (ih (List.forall₂_drop _ hxs))

end BlockSum

/-- The sum of floats is related to the sum of what they are related to, if adding keeps the relation. -/
theorem blockSum_related (zero : R 0 0) {xs : List Float} {as : List M} (hxs : List.Forall₂ R xs as) :
    R (blockSum xs) as.sum := by
  have hsum := add _ _ _ _ zero (BlockSum.split_related add zero xs.length hxs)
  rwa [zero_add] at hsum

end

/-- A sum has every property that zero has and that is kept by adding, if all that is summed up has it. -/
theorem blockSum_induction {P : Float → Prop} (add : ∀ x y, P x → P y → P (x + y)) (zero : P 0)
    {xs : List Float} (hxs : ∀ x ∈ xs, P x) : P (blockSum xs) := by
  have hrelated : List.Forall₂ (fun x (_ : PUnit) => P x) xs (xs.map fun _ => ()) :=
    List.forall₂_map_right_iff.2 (List.forall₂_same.2 hxs)
  exact blockSum_related (fun x y _ _ => add x y) zero hrelated

/-! ## Whole numbers -/

namespace Binary64

/-- `x` is the first number of a pair, unless the sizes that the second one adds up reach too far. -/
def Whole (x : Float) (k : ℤ × ℕ) : Prop := k.2 ≤ 2 ^ 53 → Denotes x k.1 ∧ |k.1| ≤ k.2

theorem Whole.add {x y : Float} {j k : ℤ × ℕ} (hx : Whole x j) (hy : Whole y k) : Whole (x + y) (j + k) := by
  intro small
  rw [Prod.snd_add] at small
  obtain ⟨hx, hj⟩ := hx (by omega)
  obtain ⟨hy, hk⟩ := hy (by omega)
  have hsize : |j.1 + k.1| ≤ ((j.2 + k.2 : ℕ) : ℤ) :=
    calc
      |j.1 + k.1| ≤ |j.1| + |k.1| := abs_add_le _ _
      _ ≤ (j.2 : ℤ) + k.2 := add_le_add hj hk
      _ = ((j.2 + k.2 : ℕ) : ℤ) := (Nat.cast_add _ _).symm
  have hnearest := hx.add_nearest hy
  rw [← Int.cast_add] at hnearest
  exact ⟨hnearest.denotes_intCast (hsize.trans (by exact_mod_cast small)), hsize⟩

/-- Whole numbers are summed up exactly, if their sizes add up to no more than `2 ^ 53`. -/
theorem denotes_blockSum {xs : List Float} {ks : List ℤ}
    (hxs : List.Forall₂ (fun x (k : ℤ) => Denotes x k) xs ks)
    (small : (ks.map Int.natAbs).sum ≤ 2 ^ 53) : Denotes (blockSum xs) (ks.sum : ℤ) := by
  have hzero : Whole 0 0 := fun _ => ⟨denotes_zero, le_refl _⟩
  have hwhole : List.Forall₂ Whole xs (ks.map fun k => (k, k.natAbs)) := by
    rw [List.forall₂_map_right_iff]
    refine hxs.imp fun x k hx _ => ⟨hx, ?_⟩
    exact (Int.natCast_natAbs k).ge
  have hsum := blockSum_related (fun _ _ _ _ => Whole.add) hzero hwhole
  have hfst : (ks.map fun k => (k, k.natAbs)).sum.1 = ks.sum := by
    rw [← AddMonoidHom.coe_fst, map_list_sum, List.map_map]
    exact congrArg List.sum (List.map_id ks)
  have hsnd : (ks.map fun k => (k, k.natAbs)).sum.2 = (ks.map Int.natAbs).sum := by
    rw [← AddMonoidHom.coe_snd, map_list_sum, List.map_map]
    rfl
  have hdenotes := (hsum (hsnd.symm ▸ small)).1
  rwa [hfst] at hdenotes

end Binary64

end RuleTrader
