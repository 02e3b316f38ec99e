/-!
# Decimal digits of natural numbers

A digit string is a list of numbers below ten.  `ofDigits` reads one from the left, `toDigits`
writes the shortest one of a number, and the two are inverse to each other
(`ofDigits_toDigits`).  `Int` is written with a minus sign in front where it is negative.
-/

namespace Matchmaker.Decimal

/-- the value of an ASCII digit -/
def digit? (c : Char) : Option Nat :=
  if '0' ≤ c ∧ c ≤ '9' then some (c.toNat - 48) else none

def isDigit (c : Char) : Bool := '0' ≤ c && c ≤ '9'

def digitChar (d : Nat) : Char := Char.ofNat (48 + d)

/-- the number that a digit string stands for -/
def ofDigits (ds : List Nat) : Nat := ds.foldl (fun n d => 10 * n + d) 0

/-- the digits of a number, most significant first and no leading zero -/
def toDigits (n : Nat) : List Nat :=
  if n < 10 then [n] else toDigits (n / 10) ++ [n % 10]

/-- a number as text -/
def write (n : Nat) : List Char := (toDigits n).map digitChar

/-- an integer as text -/
def writeInt : Int → List Char
  | .ofNat n => write n
  | .negSucc n => '-' :: write (n + 1)

/-- the digits at the front of a text, and what follows them -/
def spanDigits : List Char → List Nat × List Char
  | [] => ([], [])
  | c :: s =>
    match digit? c with
    | some d => let (ds, r) := spanDigits s; (d :: ds, r)
    | none => ([], c :: s)

/-- the number that a text of ASCII digits, and nothing else, stands for -/
def read? (s : List Char) : Option Nat :=
  match spanDigits s with
  | (d :: ds, []) => some (ofDigits (d :: ds))
  | _ => none

/-- a number in at least `width` digits, with zeros in front -/
def padded (width n : Nat) : List Char :=
  let ds := write n
  List.replicate (width - ds.length) '0' ++ ds

theorem ofDigits_append_singleton (ds : List Nat) (d : Nat) :
    ofDigits (ds ++ [d]) = 10 * ofDigits ds + d := by simp [ofDigits]

theorem ofDigits_toDigits (n : Nat) : ofDigits (toDigits n) = n := by
  fun_induction toDigits n with
  | case1 n h => simp [ofDigits]
  | case2 n h ih => rw [ofDigits_append_singleton, ih]; omega

theorem toDigits_lt (n : Nat) : ∀ d ∈ toDigits n, d < 10 := by
  fun_induction toDigits n with
  | case1 n h => simpa using h
  | case2 n h ih =>
    intro d hd
    rcases List.mem_append.1 hd with hd | hd
    · exact ih d hd
    · have : d = n % 10 := by simpa using hd
      omega

theorem toDigits_ne_nil (n : Nat) : toDigits n ≠ [] := by
  rw [toDigits]; split <;> simp

/-- Only zero is written with a zero in front. -/
theorem toDigits_zero_cons {n : Nat} {ds : List Nat} (h : toDigits n = 0 :: ds) : ds = [] := by
  fun_induction toDigits n generalizing ds with
  | case1 n hn =>
    cases h
    rfl
  | case2 n hn ih =>
    cases hfirst : toDigits (n / 10) with
    | nil => exact absurd hfirst (toDigits_ne_nil _)
    | cons d es =>
      rw [hfirst] at h
      obtain ⟨rfl, -⟩ := List.cons.inj h
      have hzero := ofDigits_toDigits (n / 10)
      rw [hfirst, ih hfirst] at hzero
      have : n / 10 = 0 := hzero.symm
      omega

theorem length_toDigits_le {n width : Nat} (hwidth : 0 < width) (h : n < Nat.pow 10 width) :
    (toDigits n).length ≤ width := by
  fun_induction toDigits n generalizing width with
  | case1 n hn => exact hwidth
  | case2 n hn ih =>
    obtain ⟨width, rfl⟩ : ∃ w, width = w + 1 := ⟨width - 1, by omega⟩
    have hsplit : n < Nat.pow 10 width * 10 := h
    have hpos : 0 < width := by
      rcases Nat.eq_zero_or_pos width with rfl | hpos
      · exact absurd (show n < 10 from h) hn
      · exact hpos
    have := ih hpos (by omega)
    rw [List.length_append, List.length_singleton]
    omega

theorem digit?_digitChar {d : Nat} (h : d < 10) : digit? (digitChar d) = some d := by
  have : ∀ d < 10, digit? (digitChar d) = some d := by decide
  exact this d h

/-- Digits are read up to what is no digit. -/
theorem spanDigits_append {ds : List Nat} (h : ∀ d ∈ ds, d < 10) {r : List Char}
    (hr : ∀ c ∈ r.head?, digit? c = none) : spanDigits (ds.map digitChar ++ r) = (ds, r) := by
  induction ds with
  | nil =>
    cases r with
    | nil => rfl
    | cons c r =>
      show (match digit? c with
        | some d => let (ds, r) := spanDigits r; (d :: ds, r)
        | none => ([], c :: r)) = _
      rw [hr c rfl]
  | cons d ds ih =>
    rw [List.map_cons, List.cons_append, spanDigits, digit?_digitChar (h d List.mem_cons_self),
      ih fun e he => h e (List.mem_cons_of_mem d he)]

/-- What is written is read back. -/
theorem read?_write (n : Nat) : read? (write n) = some n := by
  have hspan := spanDigits_append (r := []) (toDigits_lt n) (by simp)
  rw [List.append_nil] at hspan
  unfold read? write
  rw [hspan]
  cases hds : toDigits n with
  | nil => exact absurd hds (toDigits_ne_nil n)
  | cons d ds =>
    show some (ofDigits (d :: ds)) = some n
    rw [← hds, ofDigits_toDigits]

theorem write_injective {m n : Nat} (h : write m = write n) : m = n := by
  have hread : some m = some n := by rw [← read?_write m, h, read?_write]
  exact Option.some.inj hread

theorem digit?_of_mem_write {n : Nat} {c : Char} (h : c ∈ write n) : digit? c ≠ none := by
  obtain ⟨d, hd, rfl⟩ := List.mem_map.1 h
  rw [digit?_digitChar (toDigits_lt n d hd)]
  exact Option.some_ne_none d

end Matchmaker.Decimal
