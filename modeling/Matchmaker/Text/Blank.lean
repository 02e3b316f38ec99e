/-!
# Blank and control characters

The two character classes that input is cleaned with, and trimming by the first of them.  `blank`
is the Unicode property White_Space (25 characters), `isControl` the general category Cc.  Trimming
works on character lists: `trim` drops the blanks at both ends and keeps all that lies between
(`trim_eq_self`).
-/

namespace Matchmaker.Text

/-- has the property White_Space -/
def isBlank (c : Char) : Bool :=
  let n := c.toNat
  (9 ≤ n && n ≤ 13) || n == 0x20 || n == 0x85 || n == 0xa0 || n == 0x1680 ||
    (0x2000 ≤ n && n ≤ 0x200a) || n == 0x2028 || n == 0x2029 || n == 0x202f || n == 0x205f ||
    n == 0x3000

/-- has the general category Cc -/
def isControl (c : Char) : Bool :=
  let n := c.toNat
  n ≤ 0x1f || (0x7f ≤ n && n ≤ 0x9f)

/-- the text from its first character that is not blank -/
def trimStart (s : List Char) : List Char := s.dropWhile isBlank

/-- the text up to its last character that is not blank -/
def trimEnd (s : List Char) : List Char := (s.reverse.dropWhile isBlank).reverse

/-- the text without the blanks at its two ends -/
def trim (s : List Char) : List Char := trimEnd (trimStart s)

@[simp] theorem trimStart_nil : trimStart [] = [] := rfl
@[simp] theorem trimEnd_nil : trimEnd [] = [] := rfl
@[simp] theorem trim_nil : trim [] = [] := rfl

theorem head?_dropWhile {α : Type} (p : α → Bool) (s : List α) {a : α}
    (h : (s.dropWhile p).head? = some a) : p a = false := by
  induction s with
  | nil => simp at h
  | cons c s ih =>
    rw [List.dropWhile_cons] at h
    split at h
    · exact ih h
    · simp only [List.head?_cons, Option.some.injEq] at h
      subst h
      simpa using ‹¬ p c = true›

theorem dropWhile_eq_self {α : Type} (p : α → Bool) (s : List α)
    (h : ∀ a, s.head? = some a → p a = false) : s.dropWhile p = s := by
  cases s with
  | nil => rfl
  | cons c s => simp [h c rfl]

/-- a text that neither starts nor ends with a blank is left alone -/
theorem trim_eq_self {s : List Char} (hs : ∀ c, s.head? = some c → isBlank c = false)
    (he : ∀ c, s.getLast? = some c → isBlank c = false) : trim s = s := by
  have h1 : trimStart s = s := dropWhile_eq_self _ _ hs
  have h2 : s.reverse.dropWhile isBlank = s.reverse :=
    dropWhile_eq_self _ _ fun c hc => he c (by simpa using hc)
  simp [trim, h1, trimEnd, h2]

end Matchmaker.Text
