import Matchmaker.Json.Number
import Matchmaker.Proofs.Json.Steps

/-!
# How numbers are spelled

A number has a sign, whole digits without a zero in front, a fraction and an exponent, of which only
the whole digits have to be there (`Numeral`).  Every run of digits goes on as far as there are digits.
Reading finds the number that such a literal stands for (`readNumber_eq_ok`).

An integer of 64 bits, signed if it is negative and unsigned if not, is written without a fraction or
an exponent and without a zero in front, so the literal is one of an integer again.  What stands behind
it must not go on with it: `Ends` holds of a comma, a closing bracket and the end of the text.
-/

namespace Matchmaker

theorem Decimal.digit?_eq_some {c : Char} {d : Nat} :
    digit? c = some d ↔ d < 10 ∧ c = digitChar d := by
  constructor
  · intro h
    unfold digit? at h
    split at h
    · rename_i hc
      have hlo : 48 ≤ c.toNat := hc.1
      have hhi : c.toNat ≤ 57 := hc.2
      have hd : c.toNat - 48 = d := Option.some.inj h
      have hcode : 48 + d = c.toNat := by omega
      exact ⟨by omega, by rw [digitChar, hcode, Char.ofNat_toNat]⟩
    · cases h
  · rintro ⟨hd, rfl⟩
    exact digit?_digitChar hd

namespace Json

/-- these are the digits at the front, all of them -/
structure Digits (ds : List Nat) (s r : Input) : Prop where
  lt : ∀ d ∈ ds, d < 10
  eq : s = Input.ofText (ds.map Decimal.digitChar) ++ r
  stops : ∀ c ∈ r.head?, c.bind Decimal.digit? = none

/-- the digits in front of the point: there are some, and a zero stands alone -/
structure Whole (ds : List Nat) (s r : Input) : Prop where
  digits : Digits ds s r
  ne_nil : ds ≠ []
  plain : ∀ d es, ds ≠ 0 :: d :: es

inductive Fraction : List Nat → Input → Input → Prop where
  | absent {s : Input} (h : ∀ t, s ≠ some '.' :: t) : Fraction [] s s
  | point {ds : List Nat} {s r : Input} (h : Digits ds s r) (hne : ds ≠ []) :
      Fraction ds (some '.' :: s) r

/-- the sign of an exponent, which may be left out -/
inductive Sign : Bool → Input → Input → Prop where
  | absent (s : Input) : Sign false s s
  | plus (s : Input) : Sign false (some '+' :: s) s
  | minus (s : Input) : Sign true (some '-' :: s) s

inductive Exponent : Option (Bool × List Nat) → Input → Input → Prop where
  | absent {s : Input} (h : ∀ t, s ≠ some 'e' :: t ∧ s ≠ some 'E' :: t) : Exponent none s s
  | letter {c : Char} {negative : Bool} {ds : List Nat} {s t r : Input} (hc : c = 'e' ∨ c = 'E')
      (hsign : Sign negative s t) (h : Digits ds t r) (hne : ds ≠ []) :
      Exponent (some (negative, ds)) (some c :: s) r

/-- the literal stands here -/
def Numeral (l : Literal) (s r : Input) : Prop :=
  ∃ t u v, s = (if l.negative then some '-' :: t else t) ∧ Whole l.whole t u ∧
    Fraction l.fraction u v ∧ Exponent l.exponent v r

section
variable {s r : Input} {ds : List Nat}

theorem digits_eq : digits s = (ds, r) ↔ Digits ds s r := by
  constructor
  · intro h
    induction s generalizing ds with
    | nil =>
      cases h
      exact ⟨nofun, rfl, nofun⟩
    | cons c s ih =>
      rw [digits] at h
      split at h
      · rename_i d hd
        cases h
        obtain ⟨a, rfl, ha⟩ := Option.bind_eq_some_iff.1 hd
        obtain ⟨hlt, rfl⟩ := Decimal.digit?_eq_some.1 ha
        obtain ⟨hlts, hs, hover⟩ := ih rfl
        refine ⟨List.forall_mem_cons.2 ⟨hlt, hlts⟩, ?_, hover⟩
        rw [List.map_cons, Input.ofText_cons, List.cons_append, ← hs]
      · rename_i hnone
        cases h
        refine ⟨nofun, rfl, fun d hd => ?_⟩
        cases hd
        exact hnone
  · rintro ⟨hlt, rfl, hover⟩
    induction ds with
    | nil =>
      cases r with
      | nil => rfl
      | cons c r =>
        show digits (c :: r) = _
        rw [digits, hover c rfl]
    | cons d ds ih =>
      obtain ⟨hd, hds⟩ := List.forall_mem_cons.1 hlt
      rw [List.map_cons, Input.ofText_cons, List.cons_append, digits, Option.bind_some,
        Decimal.digit?_digitChar hd]
      dsimp only
      rw [ih hds]

theorem digits1_eq_ok : digits1 s = .ok (ds, r) ↔ Digits ds s r ∧ ds ≠ [] := by
  rw [← digits_eq]
  unfold digits1
  constructor
  · intro h
    split at h
    · cases h
    · cases h
    · rename_i heq
      cases h
      exact ⟨heq, List.cons_ne_nil _ _⟩
  · rintro ⟨hdigits, hne⟩
    rw [hdigits]
    cases ds with
    | nil => exact absurd rfl hne
    | cons d ds => rfl

theorem wholeDigits_eq_ok : wholeDigits s = .ok (ds, r) ↔ Whole ds s r := by
  unfold wholeDigits
  constructor
  · intro h
    split at h
    · cases h
    · rename_i hplain
      obtain ⟨hdigits, hne⟩ := digits1_eq_ok.1 h
      exact ⟨hdigits, hne, fun d es hds => hplain d es r (by rw [h, hds])⟩
  · rintro ⟨hdigits, hne, hplain⟩
    have hread := digits1_eq_ok.2 ⟨hdigits, hne⟩
    rw [hread]
    split
    · rename_i heq
      cases heq
      exact absurd rfl (hplain _ _)
    · rfl

theorem fractionDigits_eq_ok : fractionDigits s = .ok (ds, r) ↔ Fraction ds s r := by
  constructor
  · intro h
    unfold fractionDigits at h
    split at h
    · obtain ⟨hdigits, hne⟩ := digits1_eq_ok.1 h
      exact .point hdigits hne
    · rename_i hpoint
      cases h
      exact .absent hpoint
  · rintro (hpoint | ⟨hdigits, hne⟩)
    · unfold fractionDigits
      split
      · exact absurd rfl (hpoint _)
      · rfl
    · exact digits1_eq_ok.2 ⟨hdigits, hne⟩

end

theorem head_of_digits {ds : List Nat} {s r : Input} (h : Digits ds s r) (hne : ds ≠ []) :
    ∃ d t, d < 10 ∧ s = some (Decimal.digitChar d) :: t := by
  obtain ⟨hlt, rfl, -⟩ := h
  cases ds with
  | nil => exact absurd rfl hne
  | cons d ds => exact ⟨d, _, hlt d List.mem_cons_self, rfl⟩

/-- A digit is what a number starts with and nothing else does. -/
theorem digitChar_starts {d : Nat} (h : d < 10) :
    isGap (some (Decimal.digitChar d)) = false ∧ Decimal.isDigit (Decimal.digitChar d) = true ∧
      ∀ c, Decimal.isDigit c = false → Decimal.digitChar d ≠ c := by
  have hdigits : ∀ d < 10, isGap (some (Decimal.digitChar d)) = false ∧
      Decimal.isDigit (Decimal.digitChar d) = true := by decide
  obtain ⟨hgap, hdigit⟩ := hdigits d h
  refine ⟨hgap, hdigit, fun c hc hsame => ?_⟩
  rw [hsame, hc] at hdigit
  cases hdigit

theorem exponent_of_exponentDigits {s r : Input} {e : Option (Bool × List Nat)}
    (h : exponentDigits s = .ok (e, r)) : Exponent e s r := by
  unfold exponentDigits at h
  split at h
  · rename_i c s
    split at h
    · rename_i hc
      have hletter : c = 'e' ∨ c = 'E' := by simpa using hc
      obtain ⟨⟨ds, t⟩, hdigits, hfound⟩ := bind_eq_ok.1 h
      obtain ⟨hdigits, hne⟩ := digits1_eq_ok.1 hdigits
      cases hfound
      split at hdigits
      · exact .letter hletter (.plus _) hdigits hne
      · exact .letter hletter (.minus _) hdigits hne
      · exact .letter hletter (.absent _) hdigits hne
    · rename_i hc
      cases h
      refine .absent fun t => ⟨?_, ?_⟩
      · intro heq
        cases heq
        exact hc rfl
      · intro heq
        cases heq
        exact hc rfl
  · rename_i hsome
    cases h
    exact .absent fun t => ⟨hsome _ _, hsome _ _⟩

theorem exponentDigits_absent {s : Input} (h : ∀ t, s ≠ some 'e' :: t ∧ s ≠ some 'E' :: t) :
    exponentDigits s = .ok (none, s) := by
  unfold exponentDigits
  split
  · rename_i c t
    have hc : (c == 'e' || c == 'E') = false := by
      rw [Bool.or_eq_false_iff, beq_eq_false_iff_ne, beq_eq_false_iff_ne]
      exact ⟨fun hc => (h t).1 (by rw [hc]), fun hc => (h t).2 (by rw [hc])⟩
    rw [hc]
    rfl
  · rfl

theorem exponentDigits_letter {c : Char} {negative : Bool} {ds : List Nat} {s t r : Input}
    (hc : c = 'e' ∨ c = 'E') (hsign : Sign negative s t) (h : Digits ds t r) (hne : ds ≠ []) :
    exponentDigits (some c :: s) = .ok (some (negative, ds), r) := by
  have hread := digits1_eq_ok.2 ⟨h, hne⟩
  have hletter : (c == 'e' || c == 'E') = true := by simpa using hc
  unfold exponentDigits
  dsimp only
  rw [if_pos hletter]
  cases hsign with
  | plus =>
    show (digits1 t >>= _) = _
    rw [hread]
    rfl
  | minus =>
    show (digits1 t >>= _) = _
    rw [hread]
    rfl
  | absent =>
    -- the digit that comes first is no sign
    obtain ⟨d, u, hd, rfl⟩ := head_of_digits h hne
    obtain ⟨-, -, hstart⟩ := digitChar_starts hd
    split
    · rename_i heq
      exact absurd (Option.some.inj (List.cons.inj heq).1) (hstart _ rfl)
    · rename_i heq
      exact absurd (Option.some.inj (List.cons.inj heq).1) (hstart _ rfl)
    · rw [hread]
      rfl

theorem exponentDigits_eq_ok {s r : Input} {e : Option (Bool × List Nat)} :
    exponentDigits s = .ok (e, r) ↔ Exponent e s r := by
  refine ⟨exponent_of_exponentDigits, ?_⟩
  intro h
  cases h with
  | absent h => exact exponentDigits_absent h
  | letter hc hsign h hne => exact exponentDigits_letter hc hsign h hne

theorem literal_eq_ok {negative : Bool} {l : Literal} {s r : Input} :
    literal negative s = .ok (l, r) ↔ l.negative = negative ∧
      ∃ u v, Whole l.whole s u ∧ Fraction l.fraction u v ∧ Exponent l.exponent v r := by
  unfold literal
  rw [bind_eq_ok]
  constructor
  · rintro ⟨⟨whole, u⟩, hwhole, hrest⟩
    obtain ⟨⟨fraction, v⟩, hfraction, hrest'⟩ := bind_eq_ok.1 hrest
    obtain ⟨⟨exponent, w⟩, hexponent, hfound⟩ := bind_eq_ok.1 hrest'
    cases hfound
    exact ⟨rfl, u, v, wholeDigits_eq_ok.1 hwhole, fractionDigits_eq_ok.1 hfraction,
      exponentDigits_eq_ok.1 hexponent⟩
  · rintro ⟨rfl, u, v, hwhole, hfraction, hexponent⟩
    refine ⟨_, wholeDigits_eq_ok.2 hwhole, ?_⟩
    refine bind_eq_ok.2 ⟨_, fractionDigits_eq_ok.2 hfraction, ?_⟩
    exact bind_eq_ok.2 ⟨_, exponentDigits_eq_ok.2 hexponent, rfl⟩

/-! ## whole literals -/

/-- what a literal starts with -/
theorem Numeral.head {l : Literal} {s r : Input} (h : Numeral l s r) :
    ∃ c t, s = some c :: t ∧ (c = '-' ∨ ∃ d < 10, c = Decimal.digitChar d) := by
  obtain ⟨t, u, v, rfl, hwhole, -⟩ := h
  split
  · exact ⟨'-', t, rfl, .inl rfl⟩
  · obtain ⟨d, t', hd, rfl⟩ := head_of_digits hwhole.digits hwhole.ne_nil
    exact ⟨_, t', rfl, .inr ⟨d, hd, rfl⟩⟩

theorem number_of_literal_eq_ok {x : Except Fault (Literal × Input)} {n : Number} {r : Input} :
    (x >>= fun (l, r) => match l.number? with
      | some n => Except.ok (n, r)
      | none => Except.error Fault.malformed) = .ok (n, r) ↔
    ∃ l, x = .ok (l, r) ∧ l.number? = some n := by
  rw [bind_eq_ok]
  constructor
  · rintro ⟨⟨l, t⟩, hx, hfound⟩
    dsimp only at hfound
    split at hfound
    · rename_i hl
      cases hfound
      exact ⟨l, hx, hl⟩
    · cases hfound
  · rintro ⟨l, hx, hl⟩
    refine ⟨(l, r), hx, ?_⟩
    dsimp only
    rw [hl]

/-- A literal with a minus sign is one without, behind the sign. -/
theorem numeral_minus {l : Literal} {t r : Input} :
    Numeral l (some '-' :: t) r ↔ literal true t = .ok (l, r) := by
  rw [literal_eq_ok]
  constructor
  · rintro ⟨t', u, v, hs, hwhole, hrest⟩
    split at hs
    · rename_i hnegative
      cases hs
      exact ⟨hnegative, u, v, hwhole, hrest⟩
    · subst hs
      obtain ⟨d, t', hd, hhead⟩ := head_of_digits hwhole.digits hwhole.ne_nil
      obtain ⟨-, -, hstart⟩ := digitChar_starts hd
      exact absurd (Option.some.inj (List.cons.inj hhead).1).symm (hstart _ rfl)
  · rintro ⟨hnegative, u, v, hparts⟩
    exact ⟨t, u, v, by rw [if_pos hnegative], hparts⟩

theorem numeral_plain {l : Literal} {s r : Input} (hs : ∀ t, s ≠ some '-' :: t) :
    Numeral l s r ↔ literal false s = .ok (l, r) := by
  rw [literal_eq_ok]
  constructor
  · rintro ⟨t, u, v, rfl, hparts⟩
    split at hs
    · exact absurd rfl (hs t)
    · rename_i hnegative
      rw [if_neg hnegative]
      exact ⟨Bool.eq_false_iff.2 hnegative, u, v, hparts⟩
  · rintro ⟨hnegative, u, v, hparts⟩
    exact ⟨s, u, v, by rw [hnegative]; rfl, hparts⟩

/-- **A number is read as what its literal stands for.** -/
theorem readNumber_eq_ok {s r : Input} {n : Number} :
    readNumber s = .ok (n, r) ↔ ∃ l, Numeral l s r ∧ l.number? = some n := by
  unfold readNumber
  split
  · refine number_of_literal_eq_ok.trans ?_
    simp only [numeral_minus]
  · rename_i hs
    refine number_of_literal_eq_ok.trans ?_
    simp only [numeral_plain hs]

section
variable {s r : Input}

theorem Digits.length_add {ds : List Nat} (h : Digits ds s r) : ds.length + r.length = s.length := by
  rw [h.eq, List.length_append, Input.ofText, List.length_map, List.length_map]

theorem Fraction.length_le {ds : List Nat} (h : Fraction ds s r) : r.length ≤ s.length := by
  cases h with
  | absent => exact Nat.le_refl _
  | point h =>
    have := h.length_add
    rw [List.length_cons]
    omega

theorem Exponent.length_le {e : Option (Bool × List Nat)} (h : Exponent e s r) :
    r.length ≤ s.length := by
  cases h with
  | absent => exact Nat.le_refl _
  | letter hc hsign h =>
    have := h.length_add
    cases hsign <;> simp only [List.length_cons] <;> omega

theorem Numeral.length_lt {l : Literal} (h : Numeral l s r) : r.length < s.length := by
  obtain ⟨t, u, v, rfl, hwhole, hfraction, hexponent⟩ := h
  have hpos := List.length_pos_iff.2 hwhole.ne_nil
  have := hwhole.digits.length_add
  have := hfraction.length_le
  have := hexponent.length_le
  split
  · rw [List.length_cons]
    omega
  · omega

end

/-! ## integers that are written -/

/-- a value ends in front of this -/
def Ends (r : Input) : Prop :=
  ∀ c ∈ r.head?, c = some ',' ∨ c = some ']' ∨ c = some '}'

theorem ends_cons {c : Char} (h : c = ',' ∨ c = ']' ∨ c = '}') (r : Input) :
    Ends (some c :: r) := by
  intro d hd
  obtain rfl : some c = d := Option.some.inj hd
  simpa using h

section
variable {r : Input}

theorem Ends.stops (h : Ends r) : ∀ c ∈ r.head?, c.bind Decimal.digit? = none := by
  intro c hc
  rcases h c hc with rfl | rfl | rfl <;> rfl

theorem Ends.fraction (h : Ends r) : Fraction [] r r := by
  refine .absent fun t ht => ?_
  rcases h (some '.') (by rw [ht]; rfl) with h | h | h <;> cases h

theorem Ends.exponent (h : Ends r) : Exponent none r r := by
  refine .absent fun t => ⟨fun ht => ?_, fun ht => ?_⟩
  · rcases h (some 'e') (by rw [ht]; rfl) with h | h | h <;> cases h
  · rcases h (some 'E') (by rw [ht]; rfl) with h | h | h <;> cases h

/-- The digits of a number are whole digits. -/
theorem whole_write (n : Nat) (h : Ends r) :
    Whole (Decimal.toDigits n) (Input.ofText (Decimal.write n) ++ r) r where
  digits := ⟨Decimal.toDigits_lt n, rfl, h.stops⟩
  ne_nil := Decimal.toDigits_ne_nil n
  plain := fun _ _ hds => List.cons_ne_nil _ _ (Decimal.toDigits_zero_cons hds)

theorem number?_toDigits {n : Nat} (h : n < UInt64.size) :
    Literal.number? ⟨false, Decimal.toDigits n, [], none⟩ = some (.int n) := by
  unfold Literal.number? Literal.int?
  dsimp only
  rw [Decimal.ofDigits_toDigits, if_pos h]
  rfl

theorem number?_toDigits_neg {n : Nat} (hpos : 0 < n) (h : Word.minInt64 ≤ -(n : Int)) :
    Literal.number? ⟨true, Decimal.toDigits n, [], none⟩ = some (.int (-n)) := by
  unfold Literal.number? Literal.int?
  dsimp only
  rw [Decimal.ofDigits_toDigits, if_pos (And.intro hpos h)]
  rfl

/-- An integer of 64 bits is written as a literal that stands for it. -/
theorem exists_numeral_writeInt {n : Int} (hlo : Word.minInt64 ≤ n) (hhi : n < UInt64.size)
    (h : Ends r) :
    ∃ l, Numeral l (Input.ofText (Decimal.writeInt n) ++ r) r ∧ l.number? = some (.int n) := by
  cases n with
  | ofNat n =>
    exact ⟨_, ⟨_, r, r, rfl, whole_write n h, h.fraction, h.exponent⟩,
      number?_toDigits (Int.ofNat_lt.1 hhi)⟩
  | negSucc n =>
    exact ⟨_, ⟨_, r, r, rfl, whole_write (n + 1) h, h.fraction, h.exponent⟩,
      number?_toDigits_neg n.succ_pos hlo⟩

end

end Json

end Matchmaker
