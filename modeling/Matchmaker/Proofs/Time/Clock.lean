import Mathlib.Order.Bounds.Basic
import Matchmaker.Time.Clock

/-!
# Clocks that offer instants

A clock is given by the first instant at or after each deadline.  Which instants it offers can be
read off that map (`Offers`), and `Lawful` says that it is such a map.  A clock may be fine or
coarse, and instants at which nobody gets to run are instants that it does not offer, so whatever
holds on all lawful clocks holds with every lateness.
-/

namespace Matchmaker.Clock

def Offers (clock : Clock) (t : Nat) : Prop := clock t = t

/-- leads from every deadline to the first instant offered at or after it -/
structure Lawful (clock : Clock) : Prop where
  le : ∀ t, t ≤ clock t
  offers : ∀ t, clock.Offers (clock t)
  first : ∀ t u, clock.Offers u → t ≤ u → clock t ≤ u

/-- a sleep of this length is over within the limit, whenever it starts -/
def Within (clock : Clock) (length limit : Nat) : Prop :=
  ∀ t, clock.Offers t → clock (t + length) ≤ t + limit

theorem offers_millis_iff {t : Nat} : millis.Offers t ↔ ∃ n, n * nanosPerMilli = t := by
  constructor
  · exact fun h => ⟨_, h⟩
  · rintro ⟨n, rfl⟩
    exact millis_mul n

theorem lawful_millis : Lawful millis where
  le := le_millis
  offers t := offers_millis_iff.2 ⟨_, rfl⟩
  first t u hu htu := by
    obtain ⟨n, rfl⟩ := offers_millis_iff.1 hu
    exact millis_le htu

theorem offers_min {clock : Clock} {t u : Nat} (ht : clock.Offers t) (hu : clock.Offers u) :
    clock.Offers (min t u) := by
  rw [Nat.min_def]
  split
  · exact ht
  · exact hu

/-- whoever sleeps until an instant that is offered wakes right then -/
theorem wake_of_offers {clock : Clock} {now t : Nat} (ht : clock.Offers t) (hle : now ≤ t) :
    clock.wake now t = t := by
  unfold wake
  split
  · exact Nat.le_antisymm hle ‹t ≤ now›
  · exact ht

namespace Lawful
variable {clock : Clock} (h : clock.Lawful)
include h

theorem le_wake (now deadline : Nat) : now ≤ clock.wake now deadline := by
  unfold wake
  split
  · exact Nat.le_refl _
  · rename_i hlate
    exact (Nat.le_of_not_le hlate).trans (h.le deadline)

theorem offers_wake {now : Nat} (hnow : clock.Offers now) (deadline : Nat) :
    clock.Offers (clock.wake now deadline) := by
  unfold wake
  split
  · exact hnow
  · exact h.offers deadline

/-- A sleep is over at the first instant offered that is neither before its deadline nor before its
start. -/
theorem isLeast_wake {now : Nat} (hnow : clock.Offers now) (deadline : Nat) :
    IsLeast { t | clock.Offers t ∧ deadline ≤ t ∧ now ≤ t } (clock.wake now deadline) := by
  refine ⟨⟨h.offers_wake hnow deadline, ?_, h.le_wake now deadline⟩, ?_⟩
  · unfold wake
    split
    · assumption
    · exact h.le deadline
  · rintro t ⟨hoffers, hdeadline, hstart⟩
    unfold wake
    split
    · exact hstart
    · exact h.first deadline t hoffers hdeadline

/-- A shorter sleep is over within the limit too. -/
theorem wake_le_of_within {length short limit now : Nat} (hwithin : clock.Within length limit)
    (hnow : clock.Offers now) (hshort : short ≤ length) :
    clock.wake now (now + short) ≤ now + limit := by
  refine le_trans ((h.isLeast_wake hnow _).2 ⟨h.offers (now + length), ?_, ?_⟩) (hwithin now hnow)
  · exact (Nat.add_le_add_left hshort now).trans (h.le _)
  · exact (Nat.le_add_right now length).trans (h.le _)

/-- Where such sleeps are never late, their length is what counts. -/
theorem within_iff {length limit : Nat} (hlength : ∀ t, clock.Offers t → clock.Offers (t + length)) :
    clock.Within length limit ↔ length ≤ limit := by
  constructor
  · intro hwithin
    have hfirst := hwithin (clock 0) (h.offers 0)
    rw [hlength (clock 0) (h.offers 0)] at hfirst
    omega
  · intro hle t ht
    rw [hlength t ht]
    omega

end Lawful

end Matchmaker.Clock
