import Matchmaker.Proofs.Time.Calendar
import Matchmaker.Time.Timestamp

/-!
# Timestamps that are written are read back

A timestamp of a year that is written with four digits, and outside of leap seconds, is read back from
its text.  Each part of the text is a number with a fixed count of digits, and reading takes that
many (`digitsUpTo_append`); only the digits of the fraction end because a letter follows.
-/

namespace Matchmaker

/-! ## numbers with zeros in front -/

namespace Decimal

/-- the digits of `padded` -/
def paddedDigits (width n : Nat) : List Nat :=
  List.replicate (width - (toDigits n).length) 0 ++ toDigits n

theorem padded_eq (width n : Nat) : padded width n = (paddedDigits width n).map digitChar := by
  rw [paddedDigits, List.map_append, List.map_replicate, padded, write, List.length_map]
  rfl

theorem length_paddedDigits {n width : Nat} (hwidth : 0 < width) (h : n < Nat.pow 10 width) :
    (paddedDigits width n).length = width := by
  have := length_toDigits_le hwidth h
  rw [paddedDigits, List.length_append, List.length_replicate]
  omega

theorem paddedDigits_lt (width n : Nat) : ∀ d ∈ paddedDigits width n, d < 10 := by
  intro d hd
  rcases List.mem_append.1 hd with hd | hd
  · rw [List.eq_of_mem_replicate hd]
    decide
  · exact toDigits_lt n d hd

theorem ofDigits_paddedDigits (width n : Nat) : ofDigits (paddedDigits width n) = n := by
  have hzeros : ∀ k, (List.replicate k 0).foldl (fun n d => 10 * n + d) 0 = 0 := fun k => by
    induction k with
    | zero => rfl
    | succ k ih => exact ih
  rw [paddedDigits, ofDigits, List.foldl_append, hzeros]
  exact ofDigits_toDigits n

theorem paddedDigits_ne_nil (width n : Nat) : paddedDigits width n ≠ [] := fun h =>
  toDigits_ne_nil n (List.append_eq_nil_iff.1 h).2

theorem isDigit_of_digit? {c : Char} (h : digit? c = none) : isDigit c = false := by
  unfold digit? at h
  split at h
  · cases h
  · rename_i hrange
    rw [isDigit, ← Bool.decide_and]
    exact decide_eq_false hrange

end Decimal

namespace Timestamp

open Decimal

theorem digitsUpTo_append {ds : List Nat} {width : Nat} {r : List Char} (hds : ∀ d ∈ ds, d < 10)
    (hlength : ds.length ≤ width)
    (hend : ds.length = width ∨ ∀ c ∈ r.head?, digit? c = none) :
    digitsUpTo width (ds.map digitChar ++ r) = (ds, r) := by
  induction ds generalizing width with
  | nil =>
    cases width with
    | zero => rfl
    | succ width =>
      rcases hend with hzero | hend
      · cases hzero
      · cases r with
        | nil => rfl
        | cons c r =>
          show digitsUpTo (width + 1) (c :: r) = _
          rw [digitsUpTo, hend c rfl]
  | cons d ds ih =>
    obtain ⟨hd, hds⟩ := List.forall_mem_cons.1 hds
    obtain ⟨width, rfl⟩ : ∃ w, width = w + 1 :=
      ⟨width - 1, by rw [List.length_cons] at hlength; omega⟩
    have hrest := ih hds (Nat.le_of_succ_le_succ hlength) (hend.imp_left Nat.succ.inj)
    show digitsUpTo (width + 1) (digitChar d :: (ds.map digitChar ++ r)) = _
    rw [digitsUpTo, digit?_digitChar hd]
    dsimp only
    rw [hrest]

theorem number?_padded {width n : Nat} (hwidth : 0 < width) (h : n < Nat.pow 10 width)
    (r : List Char) :
    number? width (padded width n ++ r) = some (n, r) := by
  have hlength := length_paddedDigits hwidth h
  have hne := paddedDigits_ne_nil width n
  have hvalue := ofDigits_paddedDigits width n
  unfold number?
  rw [padded_eq, digitsUpTo_append (paddedDigits_lt width n) (Nat.le_of_eq hlength) (.inl hlength)]
  cases hds : paddedDigits width n with
  | nil => exact absurd hds hne
  | cons d ds =>
    rw [hds] at hvalue
    show some (ofDigits (d :: ds), r) = _
    rw [hvalue]

/-! ## parts of a text -/

theorem trimStart_cons {c : Char} (h : Text.isBlank c = false) (s : List Char) :
    Text.trimStart (c :: s) = c :: s := by
  rw [Text.trimStart, List.dropWhile_cons, if_neg (by rw [h]; exact Bool.false_ne_true)]

theorem digitChar_plain {d : Nat} (h : d < 10) :
    Text.isBlank (digitChar d) = false ∧ digitChar d ≠ '-' ∧ digitChar d ≠ '+' := by
  have : ∀ d < 10, Text.isBlank (digitChar d) = false ∧ digitChar d ≠ '-' ∧ digitChar d ≠ '+' := by
    decide
  exact this d h

/-- what a number starts with -/
theorem exists_head_of_padded (width n : Nat) (r : List Char) :
    ∃ d s, d < 10 ∧ padded width n ++ r = digitChar d :: s := by
  rw [padded_eq]
  cases hds : paddedDigits width n with
  | nil => exact absurd hds (paddedDigits_ne_nil width n)
  | cons d ds =>
    exact ⟨d, _, paddedDigits_lt width n d (by rw [hds]; exact List.mem_cons_self), rfl⟩

theorem trimStart_padded (width n : Nat) (r : List Char) :
    Text.trimStart (padded width n ++ r) = padded width n ++ r := by
  obtain ⟨d, s, hd, hpadded⟩ := exists_head_of_padded width n r
  rw [hpadded, trimStart_cons (digitChar_plain hd).1]

theorem field?_padded {hi n : Nat} (h : n ≤ hi) (hhi : hi < 100) (r : List Char) :
    field? hi (padded 2 n ++ r) = some (n, r) := by
  have hlt : n < Nat.pow 10 2 := Nat.lt_of_le_of_lt h hhi
  unfold field?
  rw [trimStart_padded, number?_padded (by decide) hlt]
  exact if_pos h

theorem year?_padded {n : Nat} (h : n < 10000) (r : List Char) :
    year? (padded 4 n ++ r) = some ((n : Int), r) := by
  have hnumber : number? 4 (padded 4 n ++ r) = some (n, r) := number?_padded (by decide) h r
  have htrim := trimStart_padded 4 n r
  obtain ⟨d, s, hd, hpadded⟩ := exists_head_of_padded 4 n r
  obtain ⟨-, hminus, hplus⟩ := digitChar_plain hd
  unfold year?
  rw [htrim]
  rw [hpadded] at hnumber ⊢
  split
  · rename_i heq
    exact absurd (List.cons.inj heq).1 hminus
  · rename_i heq
    exact absurd (List.cons.inj heq).1 hplus
  · rw [hnumber]
    rfl

theorem mark?_cons {c : Char} (h : Text.isBlank c = false) (r : List Char) :
    mark? c (c :: r) = some r := by
  unfold mark?
  rw [trimStart_cons h]
  exact if_pos (beq_self_eq_true c)

theorem date?_writeDate {d : Date} (h : d.IsValid) (hyear : 0 ≤ d.year ∧ d.year ≤ 9999)
    (r : List Char) : date? (writeDate d ++ r) = some (d, r) := by
  have hmonth : d.month ≤ 12 := h.2.2.2.1
  have hday : d.day ≤ 31 := Nat.le_trans h.2.2.2.2.2 (Date.monthLength_le d.year d.month)
  have htoNat : (d.year.toNat : Int) = d.year := Int.toNat_of_nonneg hyear.1
  have hfour : d.year.toNat < 10000 := by omega
  have hwritten : writeDate d ++ r = padded 4 d.year.toNat ++
      '-' :: (padded 2 d.month ++ '-' :: (padded 2 d.day ++ r)) := by
    simp [writeDate, writeYear, hyear]
  simp only [date?, hwritten, year?_padded hfour, mark?_cons (c := '-') (by decide),
    field?_padded hmonth (by decide), field?_padded hday (by decide), htoNat,
    Option.bind_eq_bind, Option.bind_some]
  exact if_pos h

theorem fraction?_digits {width n : Nat} (hwidth : 0 < width ∧ width ≤ 9) (h : n < Nat.pow 10 width)
    {r : List Char} (hend : ∀ c ∈ r.head?, digit? c = none) :
    fraction? ('.' :: padded width n ++ r) = some (n * Nat.pow 10 (9 - width), r) := by
  have hlength := length_paddedDigits hwidth.1 h
  have hdigits : digitsUpTo 9 ((paddedDigits width n).map digitChar ++ r) =
      (paddedDigits width n, r) :=
    digitsUpTo_append (paddedDigits_lt width n) (by rw [hlength]; exact hwidth.2) (.inr hend)
  have hrest : r.dropWhile isDigit = r := by
    cases r with
    | nil => rfl
    | cons c r =>
      rw [List.dropWhile_cons, isDigit_of_digit? (hend c rfl), if_neg Bool.false_ne_true]
  rw [padded_eq]
  show fraction? ('.' :: ((paddedDigits width n).map digitChar ++ r)) = _
  rw [fraction?, hdigits]
  cases hds : paddedDigits width n with
  | nil => exact absurd hds (paddedDigits_ne_nil width n)
  | cons d ds =>
    show some (ofDigits (d :: ds) * Nat.pow 10 (9 - (d :: ds).length), r.dropWhile isDigit) = _
    rw [← hds, hlength, hrest, ofDigits_paddedDigits]

theorem fraction?_writeFraction {nano : Nat} (h : nano < 1000000000) (r : List Char) :
    fraction? (writeFraction nano ++ 'Z' :: r) = some (nano, 'Z' :: r) := by
  have hend : ∀ c ∈ ('Z' :: r).head?, digit? c = none := by
    rintro c ⟨⟩
    decide
  unfold writeFraction
  split
  · rename_i hzero
    rw [eq_of_beq hzero]
    rfl
  split
  · rename_i hmillis
    have hlt : nano / 1000000 < 1000 := by omega
    have hvalue : nano / 1000000 * 1000000 = nano :=
      Nat.div_mul_cancel (Nat.dvd_of_mod_eq_zero (eq_of_beq hmillis))
    exact (fraction?_digits (by decide) hlt hend).trans (congrArg (fun n => some (n, _)) hvalue)
  split
  · rename_i hmicros
    have hlt : nano / 1000 < 1000000 := by omega
    have hvalue : nano / 1000 * 1000 = nano :=
      Nat.div_mul_cancel (Nat.dvd_of_mod_eq_zero (eq_of_beq hmicros))
    exact (fraction?_digits (by decide) hlt hend).trans (congrArg (fun n => some (n, _)) hvalue)
  · have hvalue : nano * 1 = nano := Nat.mul_one nano
    exact (fraction?_digits (by decide) h hend).trans (congrArg (fun n => some (n, _)) hvalue)

theorem time?_writeTime {second nano : Nat} (hsecond : second < 86400) (hnano : nano < 1000000000)
    (r : List Char) :
    time? (writeTime second nano ++ 'Z' :: r) = some ((second, nano), 'Z' :: r) := by
  have hhour : second / 3600 ≤ 23 := by omega
  have hminute : second / 60 % 60 ≤ 59 := by omega
  have hlast : second % 60 ≤ 60 := by omega
  have hleap : (second % 60 == 60) = false := by rw [beq_eq_false_iff_ne]; omega
  have hsum : second / 3600 * 3600 + second / 60 % 60 * 60 + second % 60 = second := by omega
  have hwritten : writeTime second nano ++ 'Z' :: r = padded 2 (second / 3600) ++
      ':' :: (padded 2 (second / 60 % 60) ++
        ':' :: (padded 2 (second % 60) ++ (writeFraction nano ++ 'Z' :: r))) := by
    simp [writeTime, Nat.div_eq_of_lt hnano, Nat.mod_eq_of_lt hnano]
  simp only [time?, hwritten, mark?_cons (c := ':') (by decide), field?_padded hhour (by decide),
    field?_padded hminute (by decide), field?_padded hlast (by decide),
    fraction?_writeFraction hnano, hleap, Option.bind_eq_bind, Option.bind_some,
    Bool.false_eq_true, if_false, Nat.sub_zero, Nat.zero_mul, Nat.add_zero, hsum]

/-! ## a timestamp -/

/-- A timestamp of the years 0 to 9999 and outside of leap seconds is read back from its text. -/
theorem read?_write {t : Timestamp} (hnano : t.nano < 1000000000)
    (hyear : 0 ≤ (Date.ofDay t.day).year ∧ (Date.ofDay t.day).year ≤ 9999) :
    read? t.write = some t := by
  have hmin : Date.minYear ≤ (Date.ofDay t.day).year := Int.le_trans (by decide) hyear.1
  have hmax : (Date.ofDay t.day).year ≤ Date.maxYear := Int.le_trans hyear.2 (by decide)
  have hwritten : t.write.toList = writeDate (Date.ofDay t.day) ++
      'T' :: (writeTime t.second t.nano ++ ['Z']) := by
    simp [write]
  have hdate := date?_writeDate (Date.ofDay_valid hmin hmax) hyear
    ('T' :: (writeTime t.second t.nano ++ ['Z']))
  have hoffset : offset? (Text.trimStart ['Z']) = some (0, []) := by decide
  have hseconds : ofSeconds? t.day ((t.second : Int) - 0 * 60) t.nano = some t := by
    obtain ⟨day, second, nano, hsecond, hlt⟩ := t
    have hquotient : ((second : Int) - 0 * 60) / 86400 = 0 := by omega
    have hremainder : (((second : Int) - 0 * 60) % 86400).toNat = second := by omega
    simp only [ofSeconds?, hquotient, Int.add_zero, hremainder]
    rw [dif_pos hlt, if_pos ⟨hmin, hmax⟩]
  have hread : readFrom? t.write.toList = some (t, []) := by
    simp only [readFrom?, hwritten, hdate, time?_writeTime t.second_lt hnano, hoffset,
      Date.dayNumber_ofDay, hseconds, Option.bind_eq_bind, Option.bind_some]
    rfl
  rw [read?, hread]
  rfl

end Timestamp

end Matchmaker
