import Mathlib.Algebra.Order.Floor.Semiring
import Mathlib.Data.Rat.Floor
import Matchmaker.Proofs.Client.Tokens
import Matchmaker.Proofs.Time.Clock

/-!
# How many tokens are granted, and when

A bucket in exact arithmetic is asked again and again, as time goes by (`Asked`).  Its credit and the
prices of what it granted balance (`Ledger`): what was paid from any instant on came in since then or was
there before, and no more than a full bucket was ever there.  So a window of time sees no more than one
burst and what is refilled meanwhile.

Refilling twice adds the same as refilling once (`refill_refill`).  For that reason a refused call costs
nobody anything, and who waits sleeps once, until the level is at one token.
-/

namespace Matchmaker.Client.TokenBucket

variable {clock : Clock} {b b' : TokenBucket Rat} {capacity price credit start now t u : Nat}
  {granted : List Nat}

/-- how many tokens the bucket holds at an instant -/
def level (b : TokenBucket Rat) (t : Nat) : Rat := (b.refill t).tokens

/-- What has been asked of a bucket so far, the bucket that is left, when the last call was over, and the
instants at which tokens were granted.  A wait that is given up is a refused call. -/
inductive Asked (clock : Clock) (first : TokenBucket Rat) (start : Nat) :
    TokenBucket Rat → Nat → List Nat → Prop where
  | nothing : Asked clock first start first start []
  | tried {b : TokenBucket Rat} {now t : Nat} {granted : List Nat}
      (before : Asked clock first start b now granted) (later : now ≤ t) :
      Asked clock first start (b.tryAcquire t).1 t
        (granted ++ if (b.tryAcquire t).2 then [t] else [])
  | acquired {b b' : TokenBucket Rat} {now t u rounds : Nat} {granted : List Nat}
      (before : Asked clock first start b now granted) (later : now ≤ t)
      (took : b.acquire clock rounds t = some (b', u)) :
      Asked clock first start b' u (granted ++ [u])

/-! ## the balance -/

/-- how the credit of a bucket and the tokens that it granted balance -/
structure Ledger (capacity price credit now : Nat) (granted : List Nat) : Prop where
  credit_le : credit ≤ capacity * price
  le_now : ∀ g ∈ granted, g ≤ now
  paid_le : ∀ s, granted.countP (s ≤ ·) * price + credit ≤ capacity * price + (now - s)
  window_le : ∀ s t,
    granted.countP (fun g => s ≤ g ∧ g ≤ t) * price ≤ capacity * price + (t - s)

namespace Ledger

/-- Nothing is granted by a bucket that was just made. -/
theorem full (capacity price now : Nat) : Ledger capacity price (capacity * price) now [] where
  credit_le := Nat.le_refl _
  le_now := nofun
  paid_le s := by
    rw [List.countP_nil]
    omega
  window_le s t := by
    rw [List.countP_nil]
    omega

/-- Time is credited, up to a full bucket. -/
theorem pass (h : Ledger capacity price credit now granted) (ht : now ≤ t) :
    Ledger capacity price (min (credit + (t - now)) (capacity * price)) t granted where
  credit_le := Nat.min_le_right _ _
  le_now g hg := (h.le_now g hg).trans ht
  paid_le s := by
    by_cases hs : s ≤ now
    · have hpaid := h.paid_le s
      omega
    · have hnone : granted.countP (s ≤ ·) = 0 :=
        List.countP_eq_zero.2 fun g hg hsg =>
          hs ((of_decide_eq_true hsg).trans (h.le_now g hg))
      rw [hnone]
      omega
  window_le := h.window_le

/-- A token that is granted is paid for. -/
theorem grant (h : Ledger capacity price credit now granted) (hprice : price ≤ credit) :
    Ledger capacity price (credit - price) now (granted ++ [now]) := by
  have hpast : ∀ g ∈ granted ++ [now], g ≤ now := by
    intro g hg
    rcases List.mem_append.1 hg with hg | hg
    · exact h.le_now g hg
    · exact (List.mem_singleton.1 hg).le
  have hpaid : ∀ s, (granted ++ [now]).countP (s ≤ ·) * price + (credit - price) ≤
      capacity * price + (now - s) := by
    intro s
    have hbefore := h.paid_le s
    rw [List.countP_append, List.countP_singleton, Nat.add_mul]
    split <;> omega
  refine ⟨(Nat.sub_le _ _).trans h.credit_le, hpast, hpaid, fun s t => ?_⟩
  by_cases hin : s ≤ now ∧ now ≤ t
  · -- nothing is granted after this token, so the window may as well be open at its end
    have hopen : (granted ++ [now]).countP (fun g => s ≤ g ∧ g ≤ t) =
        (granted ++ [now]).countP (s ≤ ·) :=
      List.countP_congr fun g hg => by
        rw [decide_eq_true_iff, decide_eq_true_iff]
        exact and_iff_left ((hpast g hg).trans hin.2)
    have hsince := hpaid s
    rw [hopen]
    omega
  · rw [List.countP_append, List.countP_singleton, decide_eq_false hin]
    exact h.window_le s t

/-- What is granted in a window, whatever its ends, is one burst and what is refilled meanwhile. -/
theorem granted_le (h : Ledger capacity price credit now granted) (hprice : 0 < price) {s t : Rat}
    (hst : s ≤ t) :
    (granted.countP (fun g : Nat => s ≤ g ∧ g ≤ t) : Rat) ≤ capacity + (t - s) / price := by
  have hpos : (0 : Rat) < price := Nat.cast_pos.2 hprice
  have hwhole : granted.countP (fun g : Nat => s ≤ g ∧ g ≤ t) ≤
      granted.countP (fun g => ⌈s⌉₊ ≤ g ∧ g ≤ ⌊t⌋₊) := by
    refine List.countP_mono_left fun g _ hg => decide_eq_true ?_
    obtain ⟨hsg, hgt⟩ := of_decide_eq_true hg
    exact ⟨Nat.ceil_le.2 hsg, Nat.le_floor hgt⟩
  have hlength : ((⌊t⌋₊ - ⌈s⌉₊ : Nat) : Rat) ≤ t - s := by
    rcases lt_or_ge ⌈s⌉₊ ⌊t⌋₊ with hlt | hge
    · rw [Nat.cast_sub hlt.le]
      have ht : 0 < t := Nat.pos_of_floor_pos (Nat.zero_lt_of_lt hlt)
      exact sub_le_sub (Nat.floor_le ht.le) (Nat.le_ceil s)
    · rw [Nat.sub_eq_zero_of_le hge, Nat.cast_zero]
      exact sub_nonneg.2 hst
  have hpaid : (granted.countP (fun g : Nat => s ≤ g ∧ g ≤ t) : Rat) * price ≤
      capacity * price + (t - s) := by
    calc
      _ ≤ ((capacity * price + (⌊t⌋₊ - ⌈s⌉₊) : Nat) : Rat) :=
        mod_cast (Nat.mul_le_mul_right price hwhole).trans (h.window_le _ _)
      _ ≤ _ := by
        rw [Nat.cast_add, Nat.cast_mul]
        exact add_le_add_right hlength _
  rw [← le_div_iff₀ hpos] at hpaid
  rwa [add_div, mul_div_cancel_right₀ _ hpos.ne'] at hpaid

end Ledger

/-- the bucket at the end of the last call, with a ledger that balances -/
def Balanced (capacity price : Nat) (b : TokenBucket Rat) (now : Nat) (granted : List Nat) : Prop :=
  ∃ credit, b = exact capacity price credit now ∧ Ledger capacity price credit now granted

/-! ## calls -/

section
variable (hprice : price ≠ 0)
include hprice

theorem Balanced.tried (h : Balanced capacity price b now granted) (ht : now ≤ t) :
    Balanced capacity price (b.tryAcquire t).1 t
      (granted ++ if (b.tryAcquire t).2 then [t] else []) := by
  obtain ⟨credit, rfl, hledger⟩ := h
  have htried := tryAcquire_exact hprice hledger.credit_le now t
  rw [Nat.max_eq_right ht] at htried
  rw [htried]
  split
  · rename_i hpaid
    exact ⟨_, rfl, (hledger.pass ht).grant hpaid⟩
  · refine ⟨_, rfl, ?_⟩
    rw [if_neg Bool.false_ne_true, List.append_nil]
    exact hledger.pass ht

/-- However often it sleeps, a wait is a number of refused calls before the one that is granted. -/
theorem Balanced.acquired (hclock : clock.Lawful) {rounds : Nat}
    (h : Balanced capacity price b now granted) (ht : now ≤ t)
    (took : b.acquire clock rounds t = some (b', u)) :
    Balanced capacity price b' u (granted ++ [u]) := by
  induction rounds generalizing b now t with
  | zero => cases took
  | succ rounds ih =>
    have htried := h.tried hprice ht
    unfold acquire at took
    split at took
    · rename_i left htry
      cases took
      rw [htry] at htried
      exact htried
    · rename_i left htry
      rw [htry, if_neg Bool.false_ne_true, List.append_nil] at htried
      exact ih htried (hclock.le_wake t (t + left.shortage)) took

/-- The balance lasts through any calls. -/
theorem Balanced.asked (hclock : clock.Lawful) {first : TokenBucket Rat}
    (h : Balanced capacity price first start []) (hasked : Asked clock first start b now granted) :
    Balanced capacity price b now granted := by
  induction hasked with
  | nothing => exact h
  | tried _ later ih => exact ih.tried hprice later
  | acquired _ later took ih => exact ih.acquired hprice hclock later took

end

/-! ## the level -/

section
variable (hprice : price ≠ 0) (hcredit : credit ≤ capacity * price)
include hprice hcredit

theorem level_exact (t : Nat) : (exact capacity price credit now).level t =
    ((min (credit + (t - now)) (capacity * price) : Nat) : Rat) / price := by
  unfold level
  rw [refill_exact hprice hcredit]
  rfl

theorem level_bounds (t : Nat) : 0 ≤ (exact capacity price credit now).level t ∧
    (exact capacity price credit now).level t ≤ capacity := by
  have hpos : (0 : Rat) < price := Nat.cast_pos.2 (Nat.pos_of_ne_zero hprice)
  rw [level_exact hprice hcredit, div_le_iff₀ hpos]
  exact ⟨div_nonneg (Nat.cast_nonneg _) hpos.le, mod_cast Nat.min_le_right _ _⟩

/-- the moment at which the level reaches one token -/
theorem one_le_level_iff (hcapacity : 1 ≤ capacity) (ht : now ≤ t) :
    1 ≤ (exact capacity price credit now).level t ↔ now + (price - credit) ≤ t := by
  have hpos : (0 : Rat) < price := Nat.cast_pos.2 (Nat.pos_of_ne_zero hprice)
  have hroom : price ≤ capacity * price := Nat.le_mul_of_pos_left price hcapacity
  rw [level_exact hprice hcredit, le_div_iff₀ hpos, one_mul, Nat.cast_le]
  omega

theorem refill_now : (exact capacity price credit now).refill now =
    exact capacity price credit now := by
  rw [refill_exact hprice hcredit, Nat.sub_self, Nat.add_zero, Nat.min_eq_left hcredit, Nat.max_self]

/-- Refilling now and again later adds what refilling later does. -/
theorem refill_refill (hu : t ≤ u) :
    ((exact capacity price credit now).refill t).refill u =
      (exact capacity price credit now).refill u := by
  rw [refill_exact hprice hcredit, refill_exact hprice hcredit,
    refill_exact hprice (Nat.min_le_right _ _)]
  congr 1 <;> omega

end

/-! ## refused calls -/

/-- A refused call leaves what refilling leaves. -/
theorem tryAcquire_of_refused (h : (b.tryAcquire t).2 = false) : (b.tryAcquire t).1 = b.refill t := by
  unfold tryAcquire at h ⊢
  dsimp only at h ⊢
  split at h
  · cases h
  · rename_i hnone
    rw [if_neg hnone]

/-- So do any number of them. -/
theorem refill_of_refused (hprice : price ≠ 0) (hcredit : credit ≤ capacity * price)
    (hasked : Asked clock (exact capacity price credit now) now b t []) :
    b = (exact capacity price credit now).refill t := by
  generalize hnobody : ([] : List Nat) = granted at hasked
  induction hasked with
  | nothing => exact (refill_now hprice hcredit).symm
  | @tried b t u granted before later ih =>
    obtain ⟨hgranted, hlast⟩ := List.append_eq_nil_iff.1 hnobody.symm
    have hrefused : (b.tryAcquire u).2 = false := by
      by_contra htook
      rw [Bool.not_eq_false] at htook
      rw [if_pos htook] at hlast
      cases hlast
    rw [tryAcquire_of_refused hrefused, ih hgranted.symm]
    exact refill_refill hprice hcredit later
  | acquired => exact absurd hnobody.symm (List.concat_ne_nil _ _)

/-- A call looks at what refilling leaves. -/
theorem tryAcquire_congr (h : b'.refill t = b.refill t) : b'.tryAcquire t = b.tryAcquire t := by
  unfold tryAcquire
  rw [h]

theorem acquire_congr (h : b'.refill t = b.refill t) (clock : Clock) (rounds : Nat) :
    b'.acquire clock rounds t = b.acquire clock rounds t := by
  cases rounds with
  | zero => rfl
  | succ rounds =>
    unfold acquire
    rw [tryAcquire_congr h]

/-! ## waiting -/

section
variable (hprice : price ≠ 0) (hcredit : credit ≤ capacity * price) (hcapacity : 1 ≤ capacity)
  (ht : now ≤ t)
include hprice hcredit hcapacity ht

/-- Once the level is at one token there is one. -/
theorem exists_tryAcquire (hready : now + (price - credit) ≤ t) :
    ∃ left, (exact capacity price credit now).tryAcquire t = (left, true) := by
  have hroom : price ≤ capacity * price := Nat.le_mul_of_pos_left price hcapacity
  have hpaid : price ≤ min (credit + (t - now)) (capacity * price) := by omega
  exact ⟨_, (tryAcquire_exact hprice hcredit now t).trans (if_pos hpaid)⟩

/-- Before that there is none, and all the time that went by is credited. -/
theorem tryAcquire_early (hearly : t < now + (price - credit)) :
    (exact capacity price credit now).tryAcquire t =
      (exact capacity price (credit + (t - now)) t, false) := by
  have hroom : price ≤ capacity * price := Nat.le_mul_of_pos_left price hcapacity
  have hsaved : min (credit + (t - now)) (capacity * price) = credit + (t - now) :=
    Nat.min_eq_left (by omega)
  have hshort : ¬ price ≤ credit + (t - now) := by omega
  rw [tryAcquire_exact hprice hcredit, hsaved, if_neg hshort, Nat.max_eq_right ht]

/-- A wait ends after one sleep at most, as soon as the clock lets it. -/
theorem exists_acquire (hclock : clock.Lawful) (hoffers : clock.Offers t) :
    ∃ left u, (∀ rounds, (exact capacity price credit now).acquire clock (rounds + 2) t =
        some (left, u)) ∧
      IsLeast { v | clock.Offers v ∧ t ≤ v ∧ now + (price - credit) ≤ v ∧
        (t < now + (price - credit) → t + minSleep ≤ v) } u := by
  rcases Nat.lt_or_ge t (now + (price - credit)) with hearly | hready
  · have hroom : price ≤ capacity * price := Nat.le_mul_of_pos_left price hcapacity
    have htried := tryAcquire_early hprice hcredit hcapacity ht hearly
    have hsleep := hclock.isLeast_wake hoffers (t + max (price - (credit + (t - now))) minSleep)
    generalize hu : clock.wake t _ = u at hsleep
    obtain ⟨⟨huoffers, hdeadline, hstart⟩, hfirst⟩ := hsleep
    have hsaved : credit + (t - now) ≤ capacity * price := by omega
    obtain ⟨left, htook⟩ := exists_tryAcquire hprice hsaved hcapacity hstart (by omega)
    refine ⟨left, u, fun rounds => ?_, ⟨huoffers, hstart, by omega, fun _ => by omega⟩, ?_⟩
    · unfold acquire
      rw [htried]
      dsimp only
      rw [shortage_exact hprice (by omega), hu]
      unfold acquire
      rw [htook]
    · rintro v ⟨hvoffers, hlater, hmoment, hslept⟩
      have hlong := hslept hearly
      exact hfirst ⟨hvoffers, by omega, hlater⟩
  · obtain ⟨left, htook⟩ := exists_tryAcquire hprice hcredit hcapacity ht hready
    refine ⟨left, t, fun rounds => ?_, ⟨hoffers, Nat.le_refl t, hready, ?_⟩, fun v hv => hv.2.1⟩
    · unfold acquire
      rw [htook]
    · exact fun hearly => absurd hready (Nat.not_le.2 hearly)

end

/-- **Tokens are rationed exactly.**  Whoever asks a bucket, and whenever: in any window of time it grants
no more than its capacity and one for each interval of the window.  Its level stays between nothing and
its capacity.  Refused calls, however many, change neither the level later on nor what any later call
does.  A wait ends after one sleep at most, at the first instant that the clock offers at or after the
moment at which the level reaches one, and if there had to be a sleep, that the shortest one reaches. -/
theorem rationed (hclock : clock.Lawful) (hcapacity : 1 ≤ capacity) (hprice : 0 < price) (start : Nat) :
    ∃ first, full? capacity price start = some first ∧
      ∀ {b : TokenBucket Rat} {now : Nat} {granted : List Nat},
        Asked clock first start b now granted →
        (∀ s t : Rat, s ≤ t →
          (granted.countP (fun g : Nat => s ≤ g ∧ g ≤ t) : Rat) ≤ capacity + (t - s) / price) ∧
        (∀ t, 0 ≤ b.level t ∧ b.level t ≤ capacity) ∧
        (∀ {left : TokenBucket Rat} {last : Nat}, Asked clock b now left last [] → ∀ t, last ≤ t →
          left.level t = b.level t ∧ left.tryAcquire t = b.tryAcquire t ∧
            ∀ rounds, left.acquire clock rounds t = b.acquire clock rounds t) ∧
        ∀ t, now ≤ t → clock.Offers t → ∃ moment left u,
          (∀ v, now ≤ v → (1 ≤ b.level v ↔ moment ≤ v)) ∧
          (∀ rounds, b.acquire clock (rounds + 2) t = some (left, u)) ∧
          IsLeast { v | clock.Offers v ∧ t ≤ v ∧ moment ≤ v ∧ (t < moment → t + minSleep ≤ v) } u := by
  have hprice' : price ≠ 0 := Nat.ne_of_gt hprice
  refine ⟨_, full?_exact (Nat.ne_of_gt hcapacity) hprice' start, fun {_ now _} hasked => ?_⟩
  have hfull : Balanced capacity price (exact capacity price (capacity * price) start) start [] :=
    ⟨_, rfl, .full capacity price start⟩
  obtain ⟨credit, rfl, hledger⟩ := hfull.asked hprice' hclock hasked
  refine ⟨fun s t hst => hledger.granted_le hprice hst, level_bounds hprice' hledger.credit_le, ?_, ?_⟩
  · intro left last hrefused t ht
    have hleft : left.refill t = (exact capacity price credit now).refill t := by
      rw [refill_of_refused hprice' hledger.credit_le hrefused]
      exact refill_refill hprice' hledger.credit_le ht
    exact ⟨congrArg TokenBucket.tokens hleft, tryAcquire_congr hleft, acquire_congr hleft clock⟩
  · intro t ht hoffers
    obtain ⟨left, u, htook, hfirst⟩ :=
      exists_acquire hprice' hledger.credit_le hcapacity ht hclock hoffers
    exact ⟨_, left, u, fun v => one_le_level_iff hprice' hledger.credit_le hcapacity, htook, hfirst⟩

/-- One token every five seconds: who takes one, is refused after four seconds and then waits gets the
next one after five. -/
theorem rationed_sample :
    ∃ first b left : TokenBucket Rat, full? 1 5000000000 0 = some first ∧
      Asked Clock.millis first 0 b 4000000000 [0] ∧
      b.acquire Clock.millis 2 4000000000 = some (left, 5000000000) := by
  obtain ⟨first, hfirst, hrationed⟩ :=
    rationed Clock.lawful_millis (Nat.le_refl 1) (by decide : 0 < 5000000000) 0
  obtain rfl : exact 1 5000000000 5000000000 0 = first :=
    Option.some.inj ((full?_exact (by decide) (by decide) 0).symm.trans hfirst)
  have hprice : (5000000000 : Nat) ≠ 0 := by decide
  have htook : (exact 1 5000000000 5000000000 0).tryAcquire 0 = (exact 1 5000000000 0 0, true) :=
    tryAcquire_exact hprice (by decide) 0 0
  have hrefused : (exact 1 5000000000 0 0).tryAcquire 4000000000 =
      (exact 1 5000000000 4000000000 4000000000, false) :=
    tryAcquire_exact hprice (by decide) 0 4000000000
  have hasked : Asked Clock.millis (exact 1 5000000000 5000000000 0) 0
      (exact 1 5000000000 4000000000 4000000000) 4000000000 [0] := by
    have hnothing : Asked Clock.millis (exact 1 5000000000 5000000000 0) 0
        (exact 1 5000000000 5000000000 0) 0 [] := .nothing
    have honce := hnothing.tried (Nat.le_refl 0)
    rw [htook] at honce
    have htwice := honce.tried (Nat.zero_le 4000000000)
    rw [hrefused] at htwice
    exact htwice
  obtain ⟨moment, left, u, hlevel, hwaited, ⟨-, -, hready, -⟩, hsoonest⟩ :=
    (hrationed hasked).2.2.2 4000000000 (Nat.le_refl _) (Clock.millis_mul 4000)
  have hmoment : ∀ v, 4000000000 ≤ v → (moment ≤ v ↔ 5000000000 ≤ v) := fun v hv =>
    (hlevel v hv).symm.trans (one_le_level_iff hprice (by decide) (Nat.le_refl 1) hv)
  have hle : moment ≤ 5000000000 := (hmoment _ (by decide)).2 (Nat.le_refl _)
  have hge := (hmoment _ (Nat.le_max_right moment 4000000000)).1 (Nat.le_max_left _ _)
  have hu : u = 5000000000 :=
    Nat.le_antisymm (hsoonest ⟨Clock.millis_mul 5000, by decide, hle, fun _ => by decide⟩) (by omega)
  rw [hu] at hwaited
  exact ⟨_, _, left, hfirst, hasked, hwaited 0⟩

end Matchmaker.Client.TokenBucket
