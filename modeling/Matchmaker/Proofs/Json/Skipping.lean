import Matchmaker.Json.Skip
import Matchmaker.Proofs.Json.Spelling

/-!
# What is passed over comes to an end

A value that nobody asks for is passed over symbol by symbol, and what is left is never more than there
was (`length_skip_le`).
-/

namespace Matchmaker.Json

theorem length_word_le {w : List Char} {s r : Input} (h : word w s = .ok r) : r.length ≤ s.length := by
  rw [word_eq_ok.1 h, List.length_append]
  omega

theorem length_skipText_le {n : Nat} {s r : Input} (h : skipText n s = .ok r) :
    r.length ≤ s.length := by
  induction s generalizing n with
  | nil => cases n <;> cases h
  | cons c s ih =>
    refine Nat.le_succ_of_le ?_
    unfold skipText at h
    split at h
    · rename_i heq
      cases heq
    · rename_i heq
      cases heq
      exact ih h
    · rename_i heq
      cases heq
      cases h
      exact Nat.le_refl _
    · rename_i heq
      cases heq
      obtain ⟨k, -, hskip⟩ := bind_eq_ok.1 h
      exact ih hskip
    · rename_i heq
      cases heq
      split at h
      · cases h
      · exact ih h

theorem length_skipNumber_le {s r : Input} (h : skipNumber s = .ok r) : r.length ≤ s.length := by
  have hliteral : ∀ {negative : Bool} {l : Literal} {t : Input},
      literal negative t = .ok (l, r) → r.length ≤ t.length := by
    intro negative l t hread
    obtain ⟨-, u, v, hwhole, hfraction, hexponent⟩ := literal_eq_ok.1 hread
    have := hwhole.digits.length_add
    have := hfraction.length_le
    have := hexponent.length_le
    omega
  unfold skipNumber at h
  split at h
  · rename_i hread
    cases h
    split at hread
    · exact Nat.le_succ_of_le (hliteral hread)
    · exact hliteral hread
  · cases h

theorem length_skipScalar_le {s r : Input} (h : skipScalar s = .ok r) : r.length ≤ s.length := by
  unfold skipScalar at h
  split at h
  · cases h
  · exact Nat.le_succ_of_le (length_word_le h)
  · exact Nat.le_succ_of_le (length_word_le h)
  · exact Nat.le_succ_of_le (length_word_le h)
  · exact Nat.le_succ_of_le (length_skipText_le h)
  · split at h
    · exact length_skipNumber_le h
    · cases h
  · cases h

theorem length_skipName_le {s r : Input} (h : skipName s = .ok r) : r.length ≤ s.length := by
  unfold skipName at h
  split at h
  · cases h
  · rename_i t ht
    obtain ⟨u, hskip, hcolon⟩ := bind_eq_ok.1 h
    have := length_lt_of_token ht
    have := length_skipText_le hskip
    have := length_lt_of_token (colon_eq_ok.1 hcolon)
    omega
  · cases h

theorem length_skipLoop_le {n : Nat} {seek : Seek} {opened : List Bracket} {s r : Input}
    (h : skipLoop n seek opened s = .ok r) : r.length ≤ s.length := by
  induction n generalizing seek opened s with
  | zero => cases h
  | succ n ih =>
    cases seek with
    | value =>
      rw [skipLoop] at h
      split at h
      · cases h
      · rename_i t ht
        exact Nat.le_trans (ih h) (Nat.le_of_lt (length_lt_of_token ht))
      · rename_i t ht
        exact Nat.le_trans (ih h) (Nat.le_of_lt (length_lt_of_token ht))
      · obtain ⟨t, hscalar, hrest⟩ := bind_eq_ok.1 h
        have hle := Nat.le_trans (length_skipScalar_le hscalar) (length_token_le s)
        split at hrest
        · cases hrest
          exact hle
        · exact Nat.le_trans (ih hrest) hle
    | item first =>
      cases opened with
      | nil =>
        cases h
        exact Nat.le_refl _
      | cons b outer =>
        rw [skipLoop] at h
        split at h
        · cases h
        · rename_i c t ht
          have hlt := length_lt_of_token ht
          have hnext : (if first then c :: t else t).length ≤ s.length := by
            split
            · exact hlt
            · exact Nat.le_of_lt hlt
          split at h
          · split at h
            · cases h
              exact Nat.le_of_lt hlt
            · exact Nat.le_trans (ih h) (Nat.le_of_lt hlt)
          · split at h
            · cases b with
              | list => exact Nat.le_trans (ih h) hnext
              | object =>
                obtain ⟨u, hname, hrest⟩ := bind_eq_ok.1 h
                exact Nat.le_trans (ih hrest) (Nat.le_trans (length_skipName_le hname) hnext)
            · cases h

/-- What is passed over does not make the rest longer. -/
theorem length_skip_le {s r : Input} (h : skip s = .ok r) : r.length ≤ s.length :=
  length_skipLoop_le h

end Matchmaker.Json
