import Matchmaker.Json.Text
import Matchmaker.Proofs.Json.Steps

/-!
# How strings are spelled

A character stands in a string as it is, as a letter behind a backslash, as four hexadecimal digits or
as the two codes of a surrogate pair (`Stands`), and a string may mix these as it likes (`Quoted`).
Reading finds the characters of every such string, and no others (`readText_eq_ok`).

What is written for a character is one of the ways in which it may stand (`stands_writeChar`).
-/

namespace Matchmaker.Json

/-! ## one character -/

/-- the letter that may stand behind a backslash, and the character that the two stand for -/
def letters : List (Char × Char) :=
  [('"', '"'), ('\\', '\\'), ('/', '/'), ('b', '\x08'), ('f', '\x0c'), ('n', '\n'), ('r', '\r'),
    ('t', '\t')]

/-- four hexadecimal digits, of either case, stand for the number -/
inductive IsCode : Nat → List Char → Prop where
  | digits {a b c d : Char} {i j k l : Nat} (ha : hexDigit? a = some i) (hb : hexDigit? b = some j)
      (hc : hexDigit? c = some k) (hd : hexDigit? d = some l) :
      IsCode (((i * 16 + j) * 16 + k) * 16 + l) [a, b, c, d]

/-- what may stand for a character in a string -/
inductive Stands : Char → List Char → Prop where
  | plain {c : Char} (hquote : c ≠ '"') (hbackslash : c ≠ '\\') (hcontrol : ¬ c < ' ') : Stands c [c]
  | letter {l c : Char} (h : (l, c) ∈ letters) : Stands c ['\\', l]
  | code {n : Nat} {e : List Char} (h : IsCode n e) (hlow : isLowSurrogate n = false)
      (hhigh : isHighSurrogate n = false) : Stands (Char.ofNat n) ('\\' :: 'u' :: e)
  | pair {n m : Nat} {e f : List Char} (h : IsCode n e) (hm : IsCode m f)
      (hhigh : isHighSurrogate n = true) (hlow : isLowSurrogate m = true) :
      Stands (pairChar n m) ('\\' :: 'u' :: (e ++ '\\' :: 'u' :: f))

section
variable {s r : Input} {n k : Nat} {c : Char} {e : List Char}

theorem IsCode.length_eq (h : IsCode n e) : e.length = 4 := by
  cases h
  rfl

theorem hexCode_eq_ok : hexCode s = .ok n ↔ ∃ e r, s = Input.ofText e ++ r ∧ IsCode n e := by
  constructor
  · intro h
    unfold hexCode at h
    split at h
    · rename_i a b c d r
      split at h
      · rename_i i j k l ha hb hc hd
        cases h
        exact ⟨[a, b, c, d], r, rfl, .digits ha hb hc hd⟩
      · cases h
    · split at h <;> cases h
  · rintro ⟨_, r, rfl, ⟨ha, hb, hc, hd⟩⟩
    simp [hexCode, ha, hb, hc, hd]

theorem lowSurrogate_eq_ok :
    lowSurrogate s = .ok n ↔
      ∃ e r, s = Input.ofText ('\\' :: 'u' :: e) ++ r ∧ IsCode n e ∧ isLowSurrogate n = true := by
  unfold lowSurrogate
  rw [bind_eq_ok]
  constructor
  · rintro ⟨t, hword, hread⟩
    obtain ⟨m, hcode, hlow⟩ := bind_eq_ok.1 hread
    obtain ⟨e, r, rfl, hm⟩ := hexCode_eq_ok.1 hcode
    split at hlow
    · rename_i hlow'
      cases hlow
      have hs : s = Input.ofText ['\\', 'u'] ++ (Input.ofText e ++ r) := word_eq_ok.1 hword
      exact ⟨e, r, hs, hm, hlow'⟩
    · cases hlow
  · rintro ⟨e, r, hs, hn, hlow⟩
    have hcode : hexCode (Input.ofText e ++ r) = .ok n := hexCode_eq_ok.2 ⟨e, r, rfl, hn⟩
    refine ⟨Input.ofText e ++ r, word_eq_ok.2 hs, bind_eq_ok.2 ⟨n, hcode, ?_⟩⟩
    rw [if_pos hlow]

/-- The two surrogates are apart. -/
theorem isLowSurrogate_of_high (h : isHighSurrogate n = true) : isLowSurrogate n = false := by
  simp only [isHighSurrogate, isLowSurrogate, Bool.and_eq_true, decide_eq_true_eq,
    Bool.and_eq_false_iff, decide_eq_false_iff_not] at *
  omega

theorem stands_of_escape_code (h : escape (some 'u' :: r) = .ok (c, k)) :
    ∃ e t, r = Input.ofText e ++ t ∧ k = e.length + 1 ∧ Stands c ('\\' :: 'u' :: e) := by
  obtain ⟨n, hcode, hread⟩ := bind_eq_ok.1 h
  obtain ⟨e, t, rfl, hn⟩ := hexCode_eq_ok.1 hcode
  split at hread
  · cases hread
  · rename_i hlow
    split at hread
    · rename_i hhigh
      obtain ⟨m, hpair, hfound⟩ := bind_eq_ok.1 hread
      have hdrop : (Input.ofText e ++ t).drop 4 = t :=
        List.drop_left' (by rw [Input.ofText, List.length_map, hn.length_eq])
      rw [hdrop] at hpair
      obtain ⟨f, u, rfl, hm, hlow'⟩ := lowSurrogate_eq_ok.1 hpair
      obtain ⟨rfl, rfl⟩ := Prod.mk.inj (Except.ok.inj hfound)
      have hlength : (e ++ '\\' :: 'u' :: f).length = 10 := by
        rw [List.length_append, hn.length_eq, List.length_cons, List.length_cons, hm.length_eq]
      have hstands : Stands (pairChar n m) ('\\' :: 'u' :: (e ++ '\\' :: 'u' :: f)) :=
        .pair hn hm hhigh hlow'
      refine ⟨e ++ '\\' :: 'u' :: f, u, ?_, by rw [hlength], hstands⟩
      rw [Input.ofText_append, List.append_assoc]
    · rename_i hhigh
      cases hread
      refine ⟨e, t, rfl, by rw [hn.length_eq], .code hn ?_ ?_⟩
      · exact Bool.eq_false_iff.2 hlow
      · exact Bool.eq_false_iff.2 hhigh

/-- An escape is a letter, a code or the codes of a pair. -/
theorem stands_of_escape (h : escape s = .ok (c, k)) :
    ∃ e t, s = Input.ofText e ++ t ∧ k = e.length ∧ Stands c ('\\' :: e) := by
  unfold escape at h
  split at h
  case h_10 r =>
    obtain ⟨e, t, rfl, rfl, hstands⟩ := stands_of_escape_code h
    exact ⟨'u' :: e, t, rfl, rfl, hstands⟩
  case h_1 => cases h
  case h_11 => cases h
  all_goals
    cases h
    exact ⟨[_], _, rfl, rfl, .letter (by decide)⟩

theorem escape_of_stands (h : Stands c ('\\' :: e)) (r : Input) :
    escape (Input.ofText e ++ r) = .ok (c, e.length) := by
  cases h with
  | plain hquote hbackslash hcontrol => exact absurd rfl hbackslash
  | letter h =>
    simp only [letters, List.mem_cons, Prod.mk.injEq, List.not_mem_nil, or_false] at h
    rcases h with ⟨rfl, rfl⟩ | ⟨rfl, rfl⟩ | ⟨rfl, rfl⟩ | ⟨rfl, rfl⟩ | ⟨rfl, rfl⟩ | ⟨rfl, rfl⟩ |
      ⟨rfl, rfl⟩ | ⟨rfl, rfl⟩ <;> rfl
  | @code n e hn hlow hhigh =>
    have hcode : hexCode (Input.ofText e ++ r) = .ok n := hexCode_eq_ok.2 ⟨e, r, rfl, hn⟩
    show (hexCode (Input.ofText e ++ r) >>= _) = _
    rw [hcode, List.length_cons, hn.length_eq]
    dsimp only [bind, Except.bind]
    rw [hlow, hhigh]
    rfl
  | @pair n m e f hn hm hhigh hlow =>
    let t : Input := Input.ofText ('\\' :: 'u' :: f) ++ r
    have hsplit : Input.ofText (e ++ '\\' :: 'u' :: f) ++ r = Input.ofText e ++ t := by simp [t]
    have hcode : hexCode (Input.ofText e ++ t) = .ok n := hexCode_eq_ok.2 ⟨e, t, rfl, hn⟩
    have hdrop : (Input.ofText e ++ t).drop 4 = t :=
      List.drop_left' (by rw [Input.ofText, List.length_map, hn.length_eq])
    have hpair : lowSurrogate t = .ok m := lowSurrogate_eq_ok.2 ⟨f, r, rfl, hm, hlow⟩
    have hlength : ('u' :: (e ++ '\\' :: 'u' :: f)).length = 11 := by
      rw [List.length_cons, List.length_append, hn.length_eq, List.length_cons, List.length_cons,
        hm.length_eq]
    rw [hlength, Input.ofText_cons, List.cons_append, hsplit]
    show (hexCode (Input.ofText e ++ t) >>= _) = _
    rw [hcode]
    dsimp only [bind, Except.bind]
    rw [isLowSurrogate_of_high hhigh, hhigh, hdrop, hpair]
    rfl

end

/-! ## whole strings -/

/-- the rest of a string with these characters, up to its closing quote -/
def Quoted : List Char → Input → Input → Prop
  | [], s, r => s = some '"' :: r
  | c :: cs, s, r => ∃ e t, Stands c e ∧ s = Input.ofText e ++ t ∧ Quoted cs t r

theorem scan_skip (s r : Input) : scan s.length (s ++ r) = scan 0 r := by
  induction s with
  | nil => rfl
  | cons c s ih => exact ih

theorem scan_plain {c : Option Char} (hquote : c ≠ some '"') (hbackslash : c ≠ some '\\')
    (s : Input) :
    scan 0 (c :: s) = if c.any (· < ' ') then .error .malformed
      else scan 0 s >>= fun (t, r) => .ok (c :: t, r) := by
  rw [scan]
  · exact hquote
  · exact hbackslash

theorem scan_stands {c : Char} {e : List Char} (h : Stands c e) (r : Input) :
    scan 0 (Input.ofText e ++ r) = scan 0 r >>= fun (t, r) => .ok (some c :: t, r) := by
  have hbackslash : ∀ e', Stands c ('\\' :: e') → scan 0 (Input.ofText ('\\' :: e') ++ r) =
      scan 0 r >>= fun (t, r) => .ok (some c :: t, r) := by
    intro e' h
    have hlength : e'.length = (Input.ofText e').length := (List.length_map some).symm
    show (escape (Input.ofText e' ++ r) >>= _) = _
    rw [escape_of_stands h]
    show (scan e'.length (Input.ofText e' ++ r) >>= _) = _
    rw [hlength, scan_skip]
  cases h with
  | plain hquote hbackslash hcontrol =>
    show scan 0 (some c :: r) = _
    rw [scan_plain (by simpa using hquote) (by simpa using hbackslash)]
    simp [hcontrol]
  | letter h => exact hbackslash _ (.letter h)
  | code h hlow hhigh => exact hbackslash _ (.code h hlow hhigh)
  | pair h hm hhigh hlow => exact hbackslash _ (.pair h hm hhigh hlow)

theorem scan_of_quoted {cs : List Char} {s r : Input} (h : Quoted cs s r) :
    scan 0 s = .ok (Input.ofText cs, r) := by
  induction cs generalizing s with
  | nil =>
    obtain rfl : s = some '"' :: r := h
    rfl
  | cons c cs ih =>
    obtain ⟨e, t, hstands, rfl, hrest⟩ := h
    rw [scan_stands hstands, ih hrest]
    rfl

theorem mapM_ofText (s : List Char) : (Input.ofText s).mapM id = some s := by
  induction s with
  | nil => rfl
  | cons c s ih => rw [Input.ofText_cons, List.mapM_cons, ih]; rfl

theorem cons_of_mapM {c : Option Char} {t : Input} {cs : List Char}
    (h : (c :: t).mapM id = some cs) : ∃ d ds, c = some d ∧ t.mapM id = some ds ∧ cs = d :: ds := by
  rw [List.mapM_cons] at h
  obtain ⟨d, hd, h⟩ := Option.bind_eq_some_iff.1 h
  obtain ⟨ds, hds, h⟩ := Option.bind_eq_some_iff.1 h
  exact ⟨d, ds, hd, hds, (Option.some.inj h).symm⟩

theorem quoted_of_scan {s r t : Input} {cs : List Char} (hscan : scan 0 s = .ok (t, r))
    (hcs : t.mapM id = some cs) : Quoted cs s r := by
  induction hlength : s.length using Nat.strongRecOn generalizing s t cs with
  | ind n ih =>
    cases s with
    | nil => cases hscan
    | cons c s =>
      rw [List.length_cons] at hlength
      have hrest : ∀ {u t : Input} {ds : List Char}, u.length ≤ s.length → scan 0 u = .ok (t, r) →
          t.mapM id = some ds → Quoted ds u r :=
        fun hle h hds => ih _ (by omega) h hds rfl
      by_cases hquote : c = some '"'
      · subst hquote
        cases hscan
        cases hcs
        rfl
      · by_cases hbackslash : c = some '\\'
        · subst hbackslash
          obtain ⟨⟨d, k⟩, hescape, hscan⟩ := bind_eq_ok.1 hscan
          obtain ⟨⟨t', r'⟩, hscan, h⟩ := bind_eq_ok.1 hscan
          cases h
          obtain ⟨e, u, rfl, rfl, hstands⟩ := stands_of_escape hescape
          obtain ⟨d', ds, hd, hds, rfl⟩ := cons_of_mapM hcs
          cases hd
          have hskip : e.length = (Input.ofText e).length := (List.length_map some).symm
          rw [hskip, scan_skip] at hscan
          refine ⟨_, u, hstands, rfl, hrest ?_ hscan hds⟩
          rw [List.length_append]
          omega
        · rw [scan_plain hquote hbackslash] at hscan
          split at hscan
          · cases hscan
          · rename_i hcontrol
            obtain ⟨⟨t', r'⟩, hscanned, h⟩ := bind_eq_ok.1 hscan
            cases h
            obtain ⟨d, ds, rfl, hds, rfl⟩ := cons_of_mapM hcs
            refine ⟨[d], s, .plain ?_ ?_ ?_, rfl, hrest (Nat.le_refl _) hscanned hds⟩
            · simpa using hquote
            · simpa using hbackslash
            · simpa using hcontrol

theorem Quoted.length_lt {cs : List Char} {s r : Input} (h : Quoted cs s r) : r.length < s.length := by
  induction cs generalizing s with
  | nil =>
    obtain rfl := h
    exact Nat.lt_succ_self _
  | cons c cs ih =>
    obtain ⟨e, t, -, rfl, hrest⟩ := h
    have := ih hrest
    rw [List.length_append]
    omega

/-- **A string is read as the characters that it spells**, from behind its opening quote. -/
theorem readText_eq_ok {s r : Input} {x : String} :
    readText s = .ok (x, r) ↔ Quoted x.toList s r := by
  unfold readText
  rw [bind_eq_ok]
  constructor
  · rintro ⟨⟨t, r'⟩, hscan, h⟩
    dsimp only at h
    split at h
    · rename_i cs hcs
      cases h
      rw [String.toList_ofList]
      exact quoted_of_scan hscan hcs
    · cases h
  · intro h
    refine ⟨(Input.ofText x.toList, r), scan_of_quoted h, ?_⟩
    dsimp only
    rw [mapM_ofText]
    exact congrArg (fun t => Except.ok (t, r)) String.ofList_toList

/-! ## strings that are written -/

theorem hexDigit?_lowerHex {n : Nat} (h : n < 16) : hexDigit? (lowerHex n) = some n := by
  have : ∀ n < 16, hexDigit? (lowerHex n) = some n := by decide
  exact this n h

/-- A control character that has no letter stands as its code. -/
theorem stands_control {c : Char} (h : c < ' ') :
    Stands c ['\\', 'u', '0', '0', lowerHex (c.toNat / 16), lowerHex (c.toNat % 16)] := by
  have hc : c.toNat < 32 := h
  have hzero : hexDigit? '0' = some 0 := rfl
  have hhigh := hexDigit?_lowerHex (show c.toNat / 16 < 16 by omega)
  have hlow := hexDigit?_lowerHex (show c.toNat % 16 < 16 by omega)
  have hcode := IsCode.digits hzero hzero hhigh hlow
  have hvalue : ((0 * 16 + 0) * 16 + c.toNat / 16) * 16 + c.toNat % 16 = c.toNat := by omega
  rw [hvalue] at hcode
  have hstands := Stands.code hcode (by simp [isLowSurrogate]; omega) (by simp [isHighSurrogate]; omega)
  rwa [Char.ofNat_toNat] at hstands

/-- A character stands where it is written. -/
theorem stands_writeChar (c : Char) : Stands c (writeChar c) := by
  unfold writeChar
  split
  case h_8 c hquote hbackslash _ _ _ _ _ =>
    split
    · rename_i hcontrol
      exact stands_control hcontrol
    · rename_i hplain
      exact .plain hquote hbackslash hplain
  all_goals exact .letter (by decide)

theorem quoted_flatMap (cs : List Char) (r : Input) :
    Quoted cs (Input.ofText (cs.flatMap writeChar) ++ some '"' :: r) r := by
  induction cs with
  | nil => rfl
  | cons c cs ih =>
    refine ⟨writeChar c, _, stands_writeChar c, ?_, ih⟩
    rw [List.flatMap_cons, Input.ofText_append, List.append_assoc]

/-- The quote in front of a string that was written is followed by the string. -/
theorem exists_quoted_writeText (x : String) (r : Input) :
    ∃ t, Input.ofText (writeText x) ++ r = some '"' :: t ∧ Quoted x.toList t r := by
  refine ⟨_, ?_, quoted_flatMap x.toList r⟩
  simp [writeText]

end Matchmaker.Json
