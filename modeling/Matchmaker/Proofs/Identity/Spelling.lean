import Matchmaker.Proofs.Json.Values
import Matchmaker.Proofs.Protocol.Payloads
import Matchmaker.Proofs.Text.Encoding
import Matchmaker.Proofs.Text.Trimming
import Matchmaker.Protocol.Error

/-!
# How the identity of a player is spelled

A player's number may be typed with blanks around it, a plus sign in front and any zeros before its
digits (`Typed`), and a text is taken for a number in no other case.  The digits may be as many as one
likes: what has to fit into 64 bits is the number that they stand for.

In a message the number is the text of its shortest digits, and a plain number is taken for the same
identity (`read_render`).  Identities are in the order of their numbers.
-/

namespace Matchmaker

namespace Decimal

variable {s r : List Char} {ds : List Nat} {n : Nat}

/-- The digits at the front are all of them. -/
theorem spanDigits_eq_iff : spanDigits s = (ds, r) ↔
    (∀ d ∈ ds, d < 10) ∧ s = ds.map digitChar ++ r ∧ ∀ c ∈ r.head?, digit? c = none := by
  constructor
  · intro h
    induction s generalizing ds with
    | nil =>
      cases h
      exact ⟨nofun, rfl, nofun⟩
    | cons c s ih =>
      rw [spanDigits] at h
      split at h
      · rename_i d hd
        cases h
        obtain ⟨hlt, rfl⟩ := digit?_eq_some.1 hd
        obtain ⟨hlts, hs, hend⟩ := ih rfl
        refine ⟨List.forall_mem_cons.2 ⟨hlt, hlts⟩, ?_, hend⟩
        rw [List.map_cons, List.cons_append, ← hs]
      · rename_i hnone
        cases h
        refine ⟨nofun, rfl, fun d hd => ?_⟩
        cases hd
        exact hnone
  · rintro ⟨hlt, rfl, hend⟩
    exact spanDigits_append hlt hend

/-- A number is read from digits and from nothing else. -/
theorem read?_eq_some_iff : read? s = some n ↔
    ∃ ds, ds ≠ [] ∧ (∀ d ∈ ds, d < 10) ∧ s = ds.map digitChar ∧ ofDigits ds = n := by
  unfold read?
  constructor
  · intro h
    split at h
    · rename_i d ds hspan
      obtain ⟨hlt, hs, -⟩ := spanDigits_eq_iff.1 hspan
      rw [List.append_nil] at hs
      exact ⟨d :: ds, List.cons_ne_nil d ds, hlt, hs, Option.some.inj h⟩
    · cases h
  · rintro ⟨ds, hne, hlt, rfl, rfl⟩
    have hspan : spanDigits (ds.map digitChar) = (ds, []) :=
      spanDigits_eq_iff.2 ⟨hlt, (List.append_nil _).symm, nofun⟩
    rw [hspan]
    cases ds with
    | nil => exact absurd rfl hne
    | cons d ds => rfl

/-- A number is written as it is usually shown. -/
theorem write_eq_toDigits (n : Nat) : write n = Nat.toDigits 10 n := by
  have hchars : ∀ d < 10, digitChar d = d.digitChar := by decide
  fun_induction toDigits n with
  | case1 n hn =>
    rw [write, toDigits, if_pos hn, Nat.toDigits_of_lt_base hn, ← hchars n hn]
    rfl
  | case2 n hn ih =>
    rw [write, toDigits, if_neg hn, Nat.toDigits_of_base_le (by decide) (by omega), List.map_append,
      ← hchars (n % 10) (by omega)]
    exact congrArg (· ++ _) ih

end Decimal

namespace SteamId

variable {s : List Char} {n : Nat} {p : SteamId}

/-! ## typed numbers -/

/-- digits of a number, and perhaps a plus sign in front of them -/
def Numeral (s : List Char) (n : Nat) : Prop :=
  ∃ sign ds, (sign = [] ∨ sign = ['+']) ∧ ds ≠ [] ∧ (∀ d ∈ ds, d < 10) ∧
    s = sign ++ ds.map Decimal.digitChar ∧ Decimal.ofDigits ds = n

/-- such a numeral between blanks -/
def Typed (s : List Char) (n : Nat) : Prop :=
  ∃ before middle after, (∀ c ∈ before, Text.isBlank c = true) ∧ Numeral middle n ∧
    (∀ c ∈ after, Text.isBlank c = true) ∧ s = before ++ middle ++ after

/-- A numeral neither begins nor ends with a blank. -/
theorem Numeral.bare (h : Numeral s n) : Text.Bare Text.isBlank s := by
  obtain ⟨sign, ds, hsign, -, hlt, rfl, -⟩ := h
  have hplain : ∀ c ∈ sign ++ ds.map Decimal.digitChar, Text.isBlank c = false := by
    intro c hc
    rcases List.mem_append.1 hc with hc | hc
    · rcases hsign with rfl | rfl
      · cases hc
      · rw [List.mem_singleton.1 hc]
        decide
    · obtain ⟨d, hd, rfl⟩ := List.mem_map.1 hc
      exact (Timestamp.digitChar_plain (hlt d hd)).1
  exact ⟨fun c hc => hplain c (List.mem_of_mem_head? hc),
    fun c hc => hplain c (List.mem_of_mem_getLast? hc)⟩

/-- What is typed is the numeral that is left when the blanks are trimmed off. -/
theorem typed_iff : Typed s n ↔ Numeral (Text.trim s) n := by
  constructor
  · rintro ⟨before, middle, after, hbefore, hnumeral, hafter, rfl⟩
    rwa [Text.trim_eq_strip, Text.strip_of_parts hbefore hnumeral.bare hafter]
  · intro h
    obtain ⟨before, after, hbefore, hafter, hs⟩ := Text.exists_strip Text.isBlank s
    exact ⟨before, Text.trim s, after, hbefore, h, hafter, hs⟩

/-! ## reading -/

theorem digitChar_ne_plus {d : Nat} (h : d < 10) : Decimal.digitChar d ≠ '+' :=
  (Timestamp.digitChar_plain h).2.2

/-- the digits behind the sign -/
theorem numeral_iff : Numeral s n ↔
    Decimal.read? (match s with | '+' :: r => r | r => r) = some n := by
  rw [Decimal.read?_eq_some_iff]
  constructor
  · rintro ⟨sign, ds, rfl | rfl, hne, hlt, rfl, hn⟩
    · refine ⟨ds, hne, hlt, ?_, hn⟩
      split
      · rename_i r hplus
        obtain ⟨d, hd, hchar⟩ := List.mem_map.1 (hplus ▸ List.mem_cons_self : '+' ∈ ds.map _)
        exact absurd hchar (digitChar_ne_plus (hlt d hd))
      · rfl
    · exact ⟨ds, hne, hlt, rfl, hn⟩
  · rintro ⟨ds, hne, hlt, hs, hn⟩
    split at hs
    · exact ⟨['+'], ds, .inr rfl, hne, hlt, congrArg _ hs, hn⟩
    · exact ⟨[], ds, .inl rfl, hne, hlt, hs, hn⟩

theorem ofDigits?_eq_some_iff : ofDigits? s = some p ↔ Numeral s p.toNat := by
  rw [numeral_iff]
  unfold ofDigits?
  dsimp only
  generalize Decimal.read? _ = found
  cases found with
  | none => exact ⟨nofun, nofun⟩
  | some m =>
    show (if m < UInt64.size then some (ofNat m) else none) = some p ↔ some m = some p.toNat
    by_cases hm : m < UInt64.size
    · rw [if_pos hm, Option.some.injEq, Option.some.injEq]
      constructor
      · rintro rfl
        exact (toNat_ofNat hm).symm
      · rintro rfl
        exact ext_toNat (toNat_ofNat hm)
    · rw [if_neg hm]
      refine iff_of_false nofun fun hp => hm ?_
      rw [Option.some.inj hp]
      exact p.val.toNat_lt

theorem ofText?_eq_some_iff {s : String} : ofText? s = some p ↔ Typed s.toList p.toNat := by
  rw [typed_iff, ← ofDigits?_eq_some_iff]
  rfl

theorem parse_eq_ok_iff {s : String} : parse s = .ok p ↔ ofText? s = some p := by
  unfold parse
  cases ofText? s with
  | none => exact ⟨nofun, nofun⟩
  | some q => rw [Except.ok.injEq, Option.some.injEq]

/-! ## in messages -/

/-- the identity that the bytes of a message hold -/
def decode (bytes : ByteArray) : Except Json.Fault SteamId := Json.whole read (Text.chars bytes)

/-- What is written for a value is read as the identity that the value stands for. -/
theorem decode_render {v : Json.Value} (hfits : v.Fits Json.maxDepth)
    (h : ofValue? v.settled = some p) : decode v.render.toUTF8 = .ok p := by
  have hread := Json.readValue_write hfits (r := []) nofun
  rw [List.append_nil] at hread
  have hchars : Text.chars v.render.toUTF8 = Json.Input.ofText v.write := by
    rw [Text.chars_toUTF8, Json.Value.render, String.toList_ofList, Json.Input.ofText]
  refine Json.bind_eq_ok.2 ⟨(p, []), Json.bind_eq_ok.2 ⟨(v.settled, []), ?_, ?_⟩, rfl⟩
  · rw [hchars]
    exact hread
  · unfold Json.shaped
    dsimp only
    rw [h]

theorem fits_nat (p : SteamId) : (Json.Value.nat p.toNat).Fits Json.maxDepth := by
  have hlow : Word.minInt64 ≤ (p.toNat : Int) := Int.le_trans (by decide) (Int.natCast_nonneg _)
  exact ⟨hlow, Int.ofNat_lt.2 p.val.toNat_lt⟩

theorem ofValue?_nat (p : SteamId) : ofValue? (.nat p.toNat) = some p := by
  have hlt : p.toNat < UInt64.size := p.val.toNat_lt
  show (if (0 : Int) ≤ p.toNat ∧ (p.toNat : Int) < UInt64.size
    then some (p.toNat : Int).toNat else none).map ofNat = some p
  rw [if_pos ⟨Int.natCast_nonneg _, Int.ofNat_lt.2 hlt⟩, Int.toNat_natCast]
  exact congrArg some (ext_toNat (toNat_ofNat hlt))

/-- The text of a number has nothing in it that is escaped. -/
theorem render_toValue (p : SteamId) : p.toValue.render = "\"" ++ p.text ++ "\"" := by
  have hplain : ∀ c ∈ Decimal.write p.toNat, Json.writeChar c = [c] := by
    intro c hc
    obtain ⟨d, hd, rfl⟩ := List.mem_map.1 hc
    have hdigits : ∀ d < 10, Json.writeChar (Decimal.digitChar d) = [Decimal.digitChar d] := by
      decide
    exact hdigits d (Decimal.toDigits_lt _ d hd)
  have hwritten : (Decimal.write p.toNat).flatMap Json.writeChar = Decimal.write p.toNat := by
    rw [List.flatMap_congr hplain, List.flatMap_singleton']
  apply String.toList_injective
  show (String.ofList (Json.writeText p.text)).toList = _
  have htext : p.text.toList = Decimal.write p.toNat := String.toList_ofList
  rw [String.toList_ofList, Json.writeText, htext, hwritten, String.toList_append,
    String.toList_append, htext]
  rfl

theorem render_nat (p : SteamId) : (Json.Value.nat p.toNat).render = p.text := rfl

theorem text_eq_toString (p : SteamId) : p.text = toString p.toNat := by
  rw [text, Decimal.write_eq_toDigits, Nat.toString_eq_ofList_toDigits]

theorem decode_quoted (p : SteamId) : decode ("\"" ++ p.text ++ "\"").toUTF8 = .ok p := by
  rw [← render_toValue]
  exact decode_render (Json.fits_text _) p.ofText?_text

theorem decode_plain (p : SteamId) : decode p.text.toUTF8 = .ok p := by
  rw [← render_nat]
  exact decode_render p.fits_nat p.ofValue?_nat

/-! ## order -/

theorem compare_eq (p q : SteamId) : compare p q = compare p.toNat q.toNat := by
  obtain ⟨m⟩ := p
  obtain ⟨n⟩ := q
  show (compare m n).then .eq = compare m.toNat n.toNat
  rw [Ordering.then_eq]
  show compareOfLessAndEq m n = compareOfLessAndEq m.toNat n.toNat
  unfold compareOfLessAndEq
  simp only [UInt64.lt_iff_toNat_lt, ← UInt64.toNat_inj]

/-- **A player's number is spelled in one way and read in many.**  A text is read as a number if and
only if it is blanks, perhaps a plus sign, digits of a number below `2^64` with any zeros in front, and
blanks, and is refused as a bad message otherwise.  The number is shown by its shortest digits; these
are read back, and so are they in a message, with quotes and without, where they are sent with quotes.
Identities are in the order of their numbers. -/
theorem spelled_exactly :
    (∀ (s : String) (n : Nat), (∃ p, parse s = .ok p ∧ p.toNat = n) ↔
        Typed s.toList n ∧ n < UInt64.size) ∧
      (∀ s : String, (¬ ∃ n, Typed s.toList n ∧ n < UInt64.size) →
        parse s = .error (.invalidMessage ("invalid steam id " ++ Text.quoted s))) ∧
      (∀ n : UInt64, let p : SteamId := ⟨n⟩
        p.text = toString n.toNat ∧ parse p.text = .ok p ∧
          decode ("\"" ++ p.text ++ "\"").toUTF8 = .ok p ∧ decode p.text.toUTF8 = .ok p ∧
          p.toValue.render = "\"" ++ p.text ++ "\"") ∧
      ∀ m n : UInt64, compare (SteamId.mk m) ⟨n⟩ = compare m.toNat n.toNat := by
  have hexact : ∀ (s : String) (n : Nat), (∃ p, parse s = .ok p ∧ p.toNat = n) ↔
      Typed s.toList n ∧ n < UInt64.size := by
    intro s n
    constructor
    · rintro ⟨p, hp, rfl⟩
      exact ⟨ofText?_eq_some_iff.1 (parse_eq_ok_iff.1 hp), p.val.toNat_lt⟩
    · rintro ⟨htyped, hlt⟩
      have hn : (ofNat n).toNat = n := toNat_ofNat hlt
      refine ⟨ofNat n, parse_eq_ok_iff.2 (ofText?_eq_some_iff.2 ?_), hn⟩
      rwa [hn]
  refine ⟨hexact, ?_, ?_, fun m n => compare_eq ⟨m⟩ ⟨n⟩⟩
  · intro s hnone
    cases hfound : ofText? s with
    | none =>
      unfold parse
      rw [hfound]
      rfl
    | some p =>
      exact absurd ⟨p.toNat, (hexact s p.toNat).1 ⟨p, parse_eq_ok_iff.2 hfound, rfl⟩⟩ hnone
  · intro n p
    exact ⟨p.text_eq_toString, parse_eq_ok_iff.2 p.ofText?_text, p.decode_quoted, p.decode_plain,
      p.render_toValue⟩

/-- The largest number, with a sign and zeros, between a line end and a no-break space, and the number
that follows it. -/
theorem spelled_exactly_sample :
    (∃ p, parse "\n+0018446744073709551615\u00a0" = .ok p ∧ p.toNat = 18446744073709551615) ∧
      parse "18446744073709551616" =
        .error (.invalidMessage ("invalid steam id " ++ Text.quoted "18446744073709551616")) := by
  obtain ⟨hread, hrefused, -⟩ := spelled_exactly
  have hlargest : Typed "\n+0018446744073709551615\u00a0".toList 18446744073709551615 :=
    typed_iff.2 (numeral_iff.2 (by decide))
  refine ⟨(hread _ _).2 ⟨hlargest, by decide⟩, hrefused _ ?_⟩
  rintro ⟨n, htyped, hlt⟩
  have hnext : Decimal.read? "18446744073709551616".toList = some UInt64.size := by decide
  have hn : Decimal.read? "18446744073709551616".toList = some n :=
    numeral_iff.1 (typed_iff.1 htyped)
  rw [hnext, Option.some.injEq] at hn
  exact absurd hlt (Nat.not_lt.2 hn.le)

end SteamId

end Matchmaker
