import Mathlib.Algebra.Order.Field.Rat
import Mathlib.Tactic.FieldSimp
import Mathlib.Tactic.Positivity
import Matchmaker.Client.TokenBucket

/-!
# Token buckets without rounding

A bucket in exact arithmetic keeps time.  What it holds is some number of nanoseconds, its credit: a
token costs as many of them as it takes to refill one, and the bucket is full with the price of all
its tokens (`exact`).  Refilling adds the time that went by, taking a token pays its price, and what
is missing is how long to sleep.
-/

namespace Matchmaker.Client

namespace Quantity

theorem nearest_one (n : Nat) : nearest n 1 = n := by
  unfold nearest
  rw [Nat.div_one, Nat.mod_one]
  rfl

/-- Of whole nanoseconds nothing is rounded. -/
theorem nanos_div (n : Nat) : Quantity.nanos ((n : Rat) / 1000000000) = n := by
  show nearest ((n : Rat) / 1000000000 * 1000000000).num.toNat
    ((n : Rat) / 1000000000 * 1000000000).den = n
  rw [div_mul_cancel₀ (n : Rat) (by norm_num)]
  exact nearest_one n

end Quantity

namespace TokenBucket
open Quantity

/-- a bucket of `capacity` tokens at this price, with so much credit -/
def exact (capacity price credit last : Nat) : TokenBucket Rat where
  capacity := capacity
  tokens := credit / price
  rate := 1 / (price / 1000000000)
  last := last

variable {capacity price credit last now : Nat}

theorem full?_exact (hcapacity : capacity ≠ 0) (hprice : price ≠ 0) (now : Nat) :
    full? capacity price now = some (exact capacity price (capacity * price) now) := by
  have hsome : (capacity == 0 || price == 0) = false := by
    rw [beq_false_of_ne hcapacity, beq_false_of_ne hprice, Bool.or_self]
  have htokens : ((capacity * price : Nat) : Rat) / price = capacity := by
    rw [Nat.cast_mul, mul_div_cancel_right₀ _ (Nat.cast_ne_zero.2 hprice)]
  unfold full? exact
  rw [hsome, if_neg Bool.false_ne_true, htokens]
  show some (TokenBucket.mk _ _ (((1 : Nat) : Rat) / _) _) = _
  rw [Nat.cast_one]
  rfl

/-- Refilling adds the time that went by, up to the price of all tokens. -/
theorem refill_exact (hprice : price ≠ 0) (hcredit : credit ≤ capacity * price) :
    (exact capacity price credit last).refill now =
      exact capacity price (min (credit + (now - last)) (capacity * price)) (max last now) := by
  have hpos : (0 : Rat) < price := Nat.cast_pos.2 (Nat.pos_of_ne_zero hprice)
  unfold refill
  split
  · rename_i hlater
    change last < now at hlater
    have hsum : (credit : Rat) / price + ((now - last : Nat) : Rat) / 1000000000 *
        (1 / (price / 1000000000)) = ((credit + (now - last) : Nat) : Rat) / price := by
      rw [Nat.cast_add]
      field_simp
    have hleast : least ((credit : Rat) / price + ((now - last : Nat) : Rat) / 1000000000 *
        (1 / (price / 1000000000))) (capacity : Rat) =
        ((min (credit + (now - last)) (capacity * price) : Nat) : Rat) / price := by
      rw [hsum]
      show (if decide ((capacity : Rat) ≤ _) then (capacity : Rat) else _) = _
      by_cases hfull : capacity * price ≤ credit + (now - last)
      · have hle : (capacity : Rat) ≤ ((credit + (now - last) : Nat) : Rat) / price := by
          rw [le_div_iff₀ hpos]
          exact_mod_cast hfull
        rw [decide_eq_true hle, if_pos rfl, Nat.min_eq_right hfull, Nat.cast_mul,
          mul_div_cancel_right₀ _ hpos.ne']
      · have hle : ¬ (capacity : Rat) ≤ ((credit + (now - last) : Nat) : Rat) / price := by
          rw [le_div_iff₀ hpos]
          exact_mod_cast hfull
        rw [decide_eq_false hle, if_neg Bool.false_ne_true, Nat.min_eq_left (by omega)]
    show TokenBucket.mk _ (least _ _) _ _ = TokenBucket.mk _ _ _ _
    rw [Nat.max_eq_right hlater.le]
    congr 1
  · rename_i hlater
    change ¬ last < now at hlater
    rw [Nat.sub_eq_zero_of_le (Nat.le_of_not_lt hlater), Nat.add_zero, Nat.min_eq_left hcredit,
      Nat.max_eq_left (Nat.le_of_not_lt hlater)]

/-- A token is there if its price is. -/
theorem tryAcquire_exact (hprice : price ≠ 0) (hcredit : credit ≤ capacity * price)
    (last now : Nat) :
    let saved := min (credit + (now - last)) (capacity * price)
    (exact capacity price credit last).tryAcquire now =
      if price ≤ saved then (exact capacity price (saved - price) (max last now), true)
      else (exact capacity price saved (max last now), false) := by
  intro saved
  have hpos : (0 : Rat) < price := Nat.cast_pos.2 (Nat.pos_of_ne_zero hprice)
  have henough : Quantity.atLeast ((saved : Rat) / price) (Quantity.ofNat 1) =
      decide (price ≤ saved) := by
    show decide (((1 : Nat) : Rat) ≤ _) = _
    rw [decide_eq_decide, Nat.cast_one, le_div_iff₀ hpos, one_mul, Nat.cast_le]
  unfold tryAcquire
  rw [refill_exact hprice hcredit]
  show (if Quantity.atLeast ((saved : Rat) / price) (Quantity.ofNat 1) = true then _ else _) = _
  rw [henough]
  by_cases htoken : price ≤ saved
  · rw [decide_eq_true htoken, if_pos rfl, if_pos htoken]
    have hpaid : (saved : Rat) / price - ((1 : Nat) : Rat) = ((saved - price : Nat) : Rat) / price := by
      rw [Nat.cast_sub htoken, sub_div, div_self hpos.ne', Nat.cast_one]
    show (TokenBucket.mk _ ((saved : Rat) / price - ((1 : Nat) : Rat)) _ _, true) = _
    rw [hpaid]
    rfl
  · rw [decide_eq_false htoken, if_neg Bool.false_ne_true, if_neg htoken]

/-- A sleep lasts for what is missing, and for no less than the shortest one. -/
theorem shortage_exact (hprice : price ≠ 0) (hmissing : credit ≤ price) :
    (exact capacity price credit last).shortage = max (price - credit) minSleep := by
  have hpos : (0 : Rat) < price := Nat.cast_pos.2 (Nat.pos_of_ne_zero hprice)
  have hsleep : (((1 : Nat) : Rat) - credit / price) / (1 / (price / 1000000000)) =
      ((price - credit : Nat) : Rat) / 1000000000 := by
    rw [Nat.cast_sub hmissing, Nat.cast_one]
    field_simp
  show max (Quantity.nanos ((((1 : Nat) : Rat) - credit / price) / (1 / (price / 1000000000)))) _ = _
  rw [hsleep, Quantity.nanos_div]

end TokenBucket

end Matchmaker.Client
