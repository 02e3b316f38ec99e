import Matchmaker.Net.Address

/-!
# Addresses that are written are read back

An address is read back from its text, with whatever follows it left over, as long as that does not
go on with it (`Stops`).

Octets are numbers without a zero in front.  Groups are hexadecimal numbers of at most four digits,
and each is read up to the colon behind it; it is not taken for the first of four octets, since no
point follows its digits.  The run of zeros that is left out need not be the longest one for this: it
is enough that there are zeros (`isZeros_longestZeros`), and as many as are put back.
-/

namespace Matchmaker.Address

/-- an address ends in front of this -/
def Stops (r : List Char) : Prop := ∀ c ∈ r.head?, Json.hexDigit? c = none ∧ c ≠ '.'

theorem stops_nil : Stops [] := by simp [Stops]

theorem stops_cons {c : Char} (h : Json.hexDigit? c = none ∧ c ≠ '.') (r : List Char) :
    Stops (c :: r) := by
  simpa [Stops] using h

theorem stops_colon (r : List Char) : Stops (':' :: r) := stops_cons (by decide) r

/-- A decimal digit is a hexadecimal one. -/
theorem digit?_of_hexDigit? {c : Char} (h : Json.hexDigit? c = none) : Decimal.digit? c = none := by
  unfold Json.hexDigit? at h
  unfold Decimal.digit?
  split at h
  · cases h
  · rw [if_neg ‹_›]

theorem Stops.digit? {r : List Char} (h : Stops r) : ∀ c ∈ r.head?, Decimal.digit? c = none :=
  fun c hc => digit?_of_hexDigit? (h c hc).1

/-! ## octets -/

section
variable {r : List Char}

theorem octet?_write (a : UInt8) (hr : ∀ c ∈ r.head?, Decimal.digit? c = none) :
    octet? (Decimal.write a.toNat ++ r) = some (a, r) := by
  have ha : a.toNat < 256 := a.toNat_lt
  have hspan := Decimal.spanDigits_append (Decimal.toDigits_lt a.toNat) hr
  have hvalue := Decimal.ofDigits_toDigits a.toNat
  have hlength : (Decimal.toDigits a.toNat).length ≤ 3 :=
    Decimal.length_toDigits_le (by decide) (Nat.lt_trans ha (by decide))
  have hzero := @Decimal.toDigits_zero_cons a.toNat
  have hne := Decimal.toDigits_ne_nil a.toNat
  unfold octet? Decimal.write
  rw [hspan]
  generalize Decimal.toDigits a.toNat = ds at hvalue hlength hzero hne
  split
  · rename_i heq
    cases heq
    exact absurd rfl hne
  · rename_i heq
    cases heq
    cases hzero rfl
  · rename_i heq
    cases heq
    rw [hvalue, if_pos ⟨hlength, ha⟩, UInt8.ofNat_toNat]

theorem octets?_writeOctets (a b c d : UInt8) (hr : Stops r) :
    octets? (writeOctets a b c d ++ r) = some ((a, b, c, d), r) := by
  have hpoint : ∀ s : List Char, ∀ x ∈ ('.' :: s).head?, Decimal.digit? x = none := by
    intro s x hx
    cases hx
    rfl
  have hread : ∀ (x : UInt8) (s : List Char),
      octet? (Decimal.write x.toNat ++ '.' :: s) = some (x, '.' :: s) :=
    fun x s => octet?_write x (hpoint s)
  have hmark : ∀ s : List Char, mark? '.' ('.' :: s) = some s := fun s => rfl
  unfold octets? writeOctets
  simp only [List.append_assoc, List.cons_append, hread, octet?_write d hr.digit?, hmark,
    Option.bind_eq_bind, Option.bind_some]

/-- What follows some digits is no point. -/
theorem not_point_of_spanDigits {h : List Char} (hh : '.' ∉ h) (hr : Stops r) :
    ∀ s, (Decimal.spanDigits (h ++ r)).2 ≠ '.' :: s := by
  induction h with
  | nil =>
    intro s
    cases r with
    | nil => simp [Decimal.spanDigits]
    | cons c r =>
      have hc := hr.digit? c rfl
      simp only [List.nil_append, Decimal.spanDigits, hc]
      intro heq
      exact (hr c rfl).2 (List.cons.inj heq).1
  | cons c h ih =>
    intro s
    rw [List.mem_cons, not_or] at hh
    rw [List.cons_append, Decimal.spanDigits]
    cases Decimal.digit? c with
    | some d => exact ih hh.2 s
    | none =>
      intro heq
      exact hh.1 (List.cons.inj heq).1.symm

theorem octet?_rest {s t : List Char} {a : UInt8} (h : octet? s = some (a, t)) :
    t = (Decimal.spanDigits s).2 := by
  unfold octet? at h
  split at h
  · cases h
  · cases h
  · rename_i ds u _ hspan
    split at h
    · cases h
      rw [hspan]
    · cases h

/-- Without a point behind the first number there are no octets. -/
theorem octets?_eq_none {h : List Char} (hh : '.' ∉ h) (hr : Stops r) : octets? (h ++ r) = none := by
  unfold octets?
  cases hfirst : octet? (h ++ r) with
  | none => rfl
  | some x =>
    obtain ⟨a, t⟩ := x
    have hpoint : mark? '.' t = none := by
      have hne := not_point_of_spanDigits hh hr
      rw [← octet?_rest hfirst] at hne
      cases t with
      | nil => rfl
      | cons c t =>
        have hc : c ≠ '.' := fun hc => hne t (by rw [hc])
        simp [mark?, Ne.symm hc]
    simp [hpoint]

/-! ## groups -/

/-- the digits of a group -/
def hex (g : UInt16) : List Char := Nat.toDigits 16 g.toNat

/-- The hexadecimal digits of a number stand for it. -/
theorem exists_hexDigits (n : Nat) :
    ∃ ds : List Nat, Nat.toDigits 16 n = ds.map Nat.digitChar ∧ (∀ d ∈ ds, d < 16) ∧
      ds.foldl (fun n d => 16 * n + d) 0 = n := by
  induction n using Nat.strongRecOn with
  | ind n ih =>
    rw [Nat.toDigits_eq_if (by decide)]
    split
    · rename_i hn
      exact ⟨[n], rfl, by simpa using hn, by simp⟩
    · rename_i hn
      obtain ⟨ds, hds, hlt, hvalue⟩ := ih (n / 16) (by omega)
      refine ⟨ds ++ [n % 16], by simp [hds], ?_, ?_⟩
      · intro d hd
        rcases List.mem_append.1 hd with hd | hd
        · exact hlt d hd
        · rw [List.mem_singleton.1 hd]
          omega
      · rw [List.foldl_append, hvalue]
        simp only [List.foldl_cons, List.foldl_nil]
        omega

theorem hexDigit?_digitChar {d : Nat} (h : d < 16) : Json.hexDigit? (Nat.digitChar d) = some d := by
  have hall : ∀ d < 16, Json.hexDigit? (Nat.digitChar d) = some d := by decide
  exact hall d h

theorem spanHex_append {ds : List Nat} (hds : ∀ d ∈ ds, d < 16)
    (hr : ∀ c ∈ r.head?, Json.hexDigit? c = none) :
    spanHex (ds.map Nat.digitChar ++ r) = (ds, r) := by
  induction ds with
  | nil =>
    cases r with
    | nil => rfl
    | cons c r => simp [spanHex, hr c rfl]
  | cons d ds ih =>
    obtain ⟨hd, hds⟩ := List.forall_mem_cons.1 hds
    rw [List.map_cons, List.cons_append, spanHex, hexDigit?_digitChar hd]
    dsimp only
    rw [ih hds]

theorem group?_hex (g : UInt16) (hr : Stops r) : group? (hex g ++ r) = some (g, r) := by
  have hg : g.toNat < 16 ^ 4 := g.toNat_lt
  have hlength : (hex g).length ≤ 4 :=
    (Nat.length_toDigits_le_iff (by decide) (by decide)).2 hg
  obtain ⟨ds, hds, hlt, hvalue⟩ := exists_hexDigits g.toNat
  have hne : ds ≠ [] := by
    intro hnil
    rw [hnil] at hds
    exact Nat.toDigits_ne_nil hds
  have hspan := spanHex_append hlt fun c hc => (hr c hc).1
  unfold group?
  unfold hex at hlength ⊢
  rw [hds, List.length_map] at hlength
  rw [hds, hspan]
  cases ds with
  | nil => exact absurd rfl hne
  | cons d ds =>
    dsimp only
    rw [if_pos hlength, hvalue, UInt16.ofNat_toNat]

theorem hexDigit?_of_mem_hex {g : UInt16} {c : Char} (h : c ∈ hex g) : Json.hexDigit? c ≠ none := by
  obtain ⟨ds, hds, hlt, -⟩ := exists_hexDigits g.toNat
  rw [hex, hds] at h
  obtain ⟨d, hd, rfl⟩ := List.mem_map.1 h
  rw [hexDigit?_digitChar (hlt d hd)]
  exact Option.some_ne_none d

theorem point_not_mem_hex (g : UInt16) : '.' ∉ hex g :=
  fun h => hexDigit?_of_mem_hex h (by decide)

/-- groups, each behind a colon -/
def colonGroups (gs : List UInt16) : List Char := gs.flatMap fun g => ':' :: hex g

theorem writeGroups_cons (g : UInt16) (gs : List UInt16) :
    writeGroups (g :: gs) = hex g ++ colonGroups gs := by
  induction gs generalizing g with
  | nil => simp [writeGroups, colonGroups, hex]
  | cons h gs ih =>
    rw [writeGroups, ih]
    rfl

theorem stops_colonGroups (gs : List UInt16) (hr : Stops r) : Stops (colonGroups gs ++ r) := by
  cases gs with
  | nil => exact hr
  | cons g gs => exact stops_colon _

/-- No further group is found here. -/
def Over (first : Bool) (r : List Char) : Prop :=
  separated first octets? r = none ∧ separated first group? r = none

theorem groups_of_over {first : Bool} (h : Over first r) (limit : Nat) :
    groups limit first r = ([], false, r) := by
  cases limit with
  | zero => rfl
  | succ limit =>
    rw [groups, h.1, ite_self, h.2]

theorem groups_hex (limit : Nat) (first : Bool) (g : UInt16) (hr : Stops r) {s : List Char}
    (hs : s = if first then hex g ++ r else ':' :: (hex g ++ r)) :
    groups (limit + 1) first s =
      (g :: (groups limit false r).1, (groups limit false r).2.1, (groups limit false r).2.2) := by
  have hgroup : separated first group? s = some (g, r) := by
    cases first with
    | true =>
      rw [hs]
      exact group?_hex g hr
    | false =>
      rw [hs]
      exact group?_hex g hr
  have hoctets : separated first octets? s = none := by
    have hnone := octets?_eq_none (point_not_mem_hex g) hr
    cases first with
    | true =>
      rw [hs]
      exact hnone
    | false =>
      rw [hs]
      exact hnone
  rw [groups, hoctets, ite_self, hgroup]

/-- Groups behind colons are read up to what follows them. -/
theorem groups_colonGroups {gs : List UInt16} {limit : Nat} (hlimit : gs.length ≤ limit)
    (hr : Stops r) (hover : gs.length = limit ∨ Over false r) :
    groups limit false (colonGroups gs ++ r) = (gs, false, r) := by
  induction gs generalizing limit with
  | nil =>
    rcases hover with rfl | hover
    · rfl
    · exact groups_of_over hover limit
  | cons g gs ih =>
    obtain ⟨limit, rfl⟩ : ∃ n, limit = n + 1 := ⟨limit - 1, by simp at hlimit; omega⟩
    have hrest := ih (Nat.le_of_succ_le_succ hlimit)
      (hover.imp_left Nat.succ.inj)
    have hwritten : colonGroups (g :: gs) ++ r = ':' :: (hex g ++ (colonGroups gs ++ r)) := by
      simp [colonGroups]
    rw [groups_hex limit false g (stops_colonGroups gs hr) hwritten, hrest]

/-- Groups are read up to what follows them. -/
theorem groups_writeGroups (gs : List UInt16) {limit : Nat} (hlimit : gs.length ≤ limit)
    (hr : Stops r) (hover : gs.length = limit ∨ Over gs.isEmpty r) :
    groups limit true (writeGroups gs ++ r) = (gs, false, r) := by
  cases gs with
  | nil =>
    rcases hover with rfl | hover
    · rfl
    · exact groups_of_over hover limit
  | cons g gs =>
    obtain ⟨limit, rfl⟩ : ∃ n, limit = n + 1 := ⟨limit - 1, by simp at hlimit; omega⟩
    have hrest := groups_colonGroups (Nat.le_of_succ_le_succ hlimit) hr
      (hover.imp_left Nat.succ.inj)
    have hfirst := groups_hex (s := hex g ++ (colonGroups gs ++ r)) limit true g
      (stops_colonGroups gs hr) rfl
    rw [writeGroups_cons, List.append_assoc, hfirst, hrest]

theorem over_of_stops {first : Bool} (hr : Stops r) (hcolon : ∀ s, r ≠ ':' :: s) : Over first r := by
  have hoctets := octets?_eq_none (h := []) (by simp) hr
  have hgroup : group? r = none := by
    cases r with
    | nil => rfl
    | cons c r => simp [group?, spanHex, (hr c rfl).1]
  have hmark : mark? ':' r = none := by
    cases r with
    | nil => rfl
    | cons c r =>
      have hc : c ≠ ':' := fun hc => hcolon r (by rw [hc])
      simp [mark?, Ne.symm hc]
  cases first with
  | true => exact ⟨hoctets, hgroup⟩
  | false =>
    unfold Over separated
    simp [hmark]

/-- Two colons end the groups in front of them. -/
theorem over_colons (first : Bool) (r : List Char) : Over first (':' :: ':' :: r) := by
  cases first <;> exact ⟨rfl, rfl⟩

end

/-! ## zeros that are left out -/

/-- there are zeros all along the run -/
def IsZeros (gs : List UInt16) (run : Run) : Prop :=
  ∀ j, run.start ≤ j → j < run.start + run.length → gs[j]? = some 0

theorem isZeros_of_length {gs : List UInt16} {run : Run} (h : run.length = 0) : IsZeros gs run := by
  intro j hlo hhi
  omega

/-- Wherever the search has come to, the run that it gives is one of zeros. -/
theorem isZeros_longestZeros {all : List UInt16} (gs : List UInt16) {i : Nat} {now best : Run}
    (hall : all.drop i = gs) (hnow : IsZeros all now) (hbest : IsZeros all best)
    (hreach : now.length ≠ 0 → now.start + now.length = i) :
    IsZeros all (longestZeros i now best gs) := by
  induction gs generalizing i now best with
  | nil => exact hbest
  | cons g gs ih =>
    have hg : all[i]? = some g := by
      rw [← List.head?_drop, hall]
      rfl
    have hrest : all.drop (i + 1) = gs := by
      rw [← List.drop_drop, hall]
      rfl
    rw [longestZeros]
    split
    · rename_i hzero
      have hg : all[i]? = some 0 := by rw [hg, eq_of_beq hzero]
      -- the run that reaches up to here is begun or goes on
      have hlonger : IsZeros all (if now.length == 0 then ⟨i, 1⟩
            else ⟨now.start, now.length + 1⟩) ∧
          (if now.length == 0 then (⟨i, 1⟩ : Run) else ⟨now.start, now.length + 1⟩).start +
            (if now.length == 0 then (⟨i, 1⟩ : Run) else ⟨now.start, now.length + 1⟩).length =
              i + 1 := by
        split
        · refine ⟨?_, rfl⟩
          intro j hlo hhi
          have : j = i := by dsimp only at hlo hhi; omega
          rw [this, hg]
        · rename_i hlength
          have hreach := hreach (by simpa using hlength)
          refine ⟨?_, by dsimp only; omega⟩
          intro j hlo hhi
          dsimp only at hlo hhi
          by_cases hj : j = i
          · rw [hj, hg]
          · exact hnow j hlo (by omega)
      dsimp only
      generalize (if now.length == 0 then (⟨i, 1⟩ : Run) else ⟨now.start, now.length + 1⟩) = next
        at hlonger
      obtain ⟨hnext, hend⟩ := hlonger
      have hbetter : IsZeros all (if best.length < next.length then next else best) := by
        split
        · exact hnext
        · exact hbest
      exact ih hrest hnext hbetter fun _ => hend
    · exact ih hrest (isZeros_of_length rfl) hbest fun h => absurd rfl h

/-- A run of zeros is put back between what stands in front of it and what stands behind. -/
theorem replicate_of_isZeros {gs : List UInt16} {run : Run} (h : IsZeros gs run) :
    gs.take run.start ++ (List.replicate run.length 0 ++ gs.drop (run.start + run.length)) = gs := by
  have hzeros : (gs.drop run.start).take run.length = List.replicate run.length 0 := by
    apply List.ext_getElem?
    intro j
    rw [List.getElem?_take, List.getElem?_drop, List.getElem?_replicate]
    split
    · exact h _ (by omega) (by omega)
    · rfl
  rw [← hzeros, ← List.drop_drop, List.take_append_drop, List.take_append_drop]

theorem le_length_of_isZeros {gs : List UInt16} {run : Run} (h : IsZeros gs run)
    (hlength : 0 < run.length) : run.start + run.length ≤ gs.length := by
  have hlast := h (run.start + run.length - 1) (by omega) (by omega)
  obtain ⟨hlt, -⟩ := List.getElem?_eq_some_iff.1 hlast
  omega

/-! ## eight groups -/

theorem ofGroups_toList (gs : Vector UInt16 8) : ofGroups gs.toList = v6 gs := by
  unfold ofGroups
  congr 1
  apply Vector.ext
  intro i hi
  simp

section
variable {r : List Char}

/-- All eight groups are there. -/
theorem v6?_writeGroups {gs : List UInt16} (h : gs.length = 8) (hr : Stops r) :
    v6? (writeGroups gs ++ r) = some (ofGroups gs, r) := by
  have hgroups := groups_writeGroups gs (Nat.le_of_eq h) hr (.inl h)
  unfold v6?
  rw [hgroups]
  simp [h]

/-- Some groups are left out between these. -/
theorem v6?_colons (head tail : List UInt16) {s : List Char} {last : Bool}
    (hlength : head.length + tail.length < 8)
    (htail : groups (7 - head.length) true s = (tail, last, r)) :
    v6? (writeGroups head ++ ':' :: ':' :: s) =
      some (ofGroups (head ++ (List.replicate (8 - head.length - tail.length) 0 ++ tail)), r) := by
  have hle : head.length ≤ 8 := by omega
  have hhead := groups_writeGroups head hle (stops_colon (':' :: s)) (.inr (over_colons _ s))
  have hmarks : (mark? ':' (':' :: ':' :: s) >>= mark? ':') = some s := rfl
  have hne : (head.length == 8) = false := by
    rw [beq_eq_false_iff_ne]
    omega
  unfold v6?
  rw [hhead]
  simp only [hne, Bool.false_eq_true, if_false, hmarks, Option.bind_eq_bind, Option.bind_some, htail,
    List.append_assoc]

theorem join_octets (g : UInt16) : join (g >>> 8).toUInt8 g.toUInt8 = g := by
  have hg : g.toNat < 2 ^ 16 := g.toNat_lt
  apply UInt16.toNat_inj.1
  unfold join
  simp only [UInt16.toNat_ofNat', UInt16.toNat_toUInt8, UInt16.toNat_shiftRight]
  simp [Nat.shiftRight_eq_div_pow]
  omega

/-- An address of the first kind that is mapped into the second. -/
theorem v6?_mapped (g h : UInt16) (hr : Stops r) :
    v6? (writeV6 [0, 0, 0, 0, 0, 0xffff, g, h] ++ r) =
      some (ofGroups [0, 0, 0, 0, 0, 0xffff, g, h], r) := by
  generalize hocts : writeOctets (g >>> 8).toUInt8 g.toUInt8 (h >>> 8).toUInt8 h.toUInt8 = octets
  have hwritten : writeV6 [0, 0, 0, 0, 0, 0xffff, g, h] ++ r =
      writeGroups [] ++ ':' :: ':' :: (hex 0xffff ++ ':' :: (octets ++ r)) := by
    have hmask : hex 0xffff = ['f', 'f', 'f', 'f'] := by decide +kernel
    rw [← hocts, hmask]
    rfl
  have hread : separated false octets? (':' :: (octets ++ r)) =
      some (((g >>> 8).toUInt8, g.toUInt8, (h >>> 8).toUInt8, h.toUInt8), r) := by
    rw [← hocts]
    exact octets?_writeOctets _ _ _ _ hr
  have hpair : groups 6 false (':' :: (octets ++ r)) = ([g, h], true, r) := by
    rw [groups, if_neg (by decide), hread]
    simp only [join_octets]
  have htail : groups 7 true (hex 0xffff ++ ':' :: (octets ++ r)) = ([0xffff, g, h], true, r) := by
    have hfirst := groups_hex (s := hex 0xffff ++ ':' :: (octets ++ r)) 6 true 0xffff
      (stops_colon (octets ++ r)) rfl
    rw [hfirst, hpair]
  rw [hwritten, v6?_colons [] [0xffff, g, h] (Nat.lt_of_sub_eq_succ rfl) htail]
  rfl

/-- **The text of an address of eight groups is read back.** -/
theorem v6?_writeV6 (gs : Vector UInt16 8) (hr : Stops r) (hcolon : ∀ s, r ≠ ':' :: s) :
    v6? (writeV6 gs.toList ++ r) = some (v6 gs, r) := by
  have hlength : gs.toList.length = 8 := by simp
  rw [← ofGroups_toList]
  generalize gs.toList = all at hlength
  unfold writeV6
  split
  · exact v6?_mapped _ _ hr
  · rename_i hplain
    let run := longestZeros 0 ⟨0, 0⟩ ⟨0, 0⟩ all
    have hzeros : IsZeros all run :=
      isZeros_longestZeros all rfl (isZeros_of_length rfl) (isZeros_of_length rfl)
        fun h => absurd rfl h
    show v6? ((if 1 < run.length then _ else _) ++ r) = _
    split
    · rename_i hlong
      have hle := le_length_of_isZeros hzeros (by omega)
      have htakes : (all.take run.start).length = run.start := by
        rw [List.length_take]
        omega
      have hdrops : (all.drop (run.start + run.length)).length = 8 - run.start - run.length := by
        rw [List.length_drop]
        omega
      have hroom : (all.drop (run.start + run.length)).length ≤
          7 - (all.take run.start).length := by omega
      have htail := groups_writeGroups _ hroom hr (.inr (over_of_stops hr hcolon))
      have hread := v6?_colons _ _ (by omega) htail
      have hcount : 8 - (all.take run.start).length -
          (all.drop (run.start + run.length)).length = run.length := by omega
      rw [hcount, replicate_of_isZeros hzeros] at hread
      simpa using hread
    · exact v6?_writeGroups hlength hr

end

end Matchmaker.Address
