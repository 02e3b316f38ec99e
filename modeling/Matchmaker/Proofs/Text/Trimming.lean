import Mathlib.Data.List.DropRight
import Matchmaker.Text.Blank

/-!
# Trimming by any class of characters

To strip a text is to drop the characters of a class at its two ends; trimming is stripping by
blanks.  What is left neither starts nor ends with such a character (`bare_strip`), and a text is
parted into an end of the class, a bare middle and another end of the class in one way only
(`strip_of_parts`).  So it does not matter what more of the class comes around a text
(`strip_append`), nor what the class is apart from the characters of the text (`strip_congr`).
-/

namespace Matchmaker.Text

/-- Neither the first nor the last character is of the class. -/
structure Bare (p : Char → Bool) (s : List Char) : Prop where
  head : ∀ c, s.head? = some c → p c = false
  last : ∀ c, s.getLast? = some c → p c = false

/-- the text without the characters of a class at its two ends -/
def strip (p : Char → Bool) (s : List Char) : List Char := (s.dropWhile p).rdropWhile p

theorem trim_eq_strip (s : List Char) : trim s = strip isBlank s := rfl

variable {p q : Char → Bool} {a s b : List Char}

theorem mem_of_mem_strip {c : Char} (h : c ∈ strip p s) : c ∈ s := by
  have hstart : c ∈ s.dropWhile p := (List.rdropWhile_prefix p _).subset h
  exact (List.dropWhile_suffix p).subset hstart

/-- The middle is all that is left. -/
theorem strip_of_parts (ha : ∀ c ∈ a, p c = true) (hs : Bare p s) (hb : ∀ c ∈ b, p c = true) :
    strip p (a ++ s ++ b) = s := by
  unfold strip
  rw [List.append_assoc, List.dropWhile_append_of_pos ha]
  cases s with
  | nil => rw [List.nil_append, List.dropWhile_eq_nil_iff.2 hb, List.rdropWhile_nil]
  | cons c s =>
    have hstart : (c :: s ++ b).dropWhile p = c :: s ++ b := by
      refine dropWhile_eq_self p _ fun d hd => hs.head d ?_
      rwa [List.cons_append] at hd
    have hend : (c :: s).reverse.dropWhile p = (c :: s).reverse := by
      refine dropWhile_eq_self p _ fun d hd => hs.last d ?_
      rwa [List.head?_reverse] at hd
    have hb' : ∀ d ∈ b.reverse, p d = true := fun d hd => hb d (List.mem_reverse.1 hd)
    rw [hstart, List.rdropWhile, List.reverse_append, List.dropWhile_append_of_pos hb', hend,
      List.reverse_reverse]

theorem bare_strip (p : Char → Bool) (s : List Char) : Bare p (strip p s) := by
  constructor
  · intro c hc
    -- what is left starts as the text does without its beginning
    obtain ⟨rest, hrest⟩ := List.rdropWhile_prefix p (s.dropWhile p)
    refine head?_dropWhile p s ?_
    rw [← hrest, List.head?_append, show (List.rdropWhile p (s.dropWhile p)).head? = some c from hc]
    rfl
  · intro c hc
    refine head?_dropWhile p (s.dropWhile p).reverse ?_
    rwa [strip, List.rdropWhile, List.getLast?_reverse] at hc

theorem exists_strip (p : Char → Bool) (s : List Char) :
    ∃ a b, (∀ c ∈ a, p c = true) ∧ (∀ c ∈ b, p c = true) ∧ s = a ++ strip p s ++ b := by
  refine ⟨s.takeWhile p, (s.dropWhile p).rtakeWhile p, fun c hc => ?_, fun c hc => ?_, ?_⟩
  · exact List.mem_takeWhile_imp hc
  · exact List.mem_rtakeWhile_imp hc
  · rw [strip, List.append_assoc, List.rdropWhile_append_rtakeWhile,
      List.takeWhile_append_dropWhile]

theorem strip_append (ha : ∀ c ∈ a, p c = true) (hb : ∀ c ∈ b, p c = true) :
    strip p (a ++ s ++ b) = strip p s := by
  obtain ⟨x, y, hx, hy, hs⟩ := exists_strip p s
  have hparts : a ++ s ++ b = (a ++ x) ++ strip p s ++ (y ++ b) := by
    conv_lhs => rw [hs]
    simp only [List.append_assoc]
  rw [hparts]
  refine strip_of_parts (fun c hc => ?_) (bare_strip p s) fun c hc => ?_
  · exact (List.mem_append.1 hc).elim (ha c) (hx c)
  · exact (List.mem_append.1 hc).elim (hy c) (hb c)

theorem strip_congr (h : ∀ c ∈ s, p c = q c) : strip p s = strip q s := by
  obtain ⟨a, b, ha, hb, hs⟩ := exists_strip p s
  have hmem : ∀ c, c ∈ a ∨ c ∈ strip p s ∨ c ∈ b → p c = q c := by
    intro c hc
    refine h c ?_
    rw [hs, List.append_assoc, List.mem_append, List.mem_append]
    exact hc
  have hbare : Bare q (strip p s) := by
    constructor
    · intro c hc
      rw [← hmem c (.inr (.inl (List.mem_of_mem_head? hc)))]
      exact (bare_strip p s).head c hc
    · intro c hc
      rw [← hmem c (.inr (.inl (List.mem_of_mem_getLast? hc)))]
      exact (bare_strip p s).last c hc
  conv_rhs => rw [hs]
  refine (strip_of_parts (fun c hc => ?_) hbare fun c hc => ?_).symm
  · rw [← hmem c (.inl hc)]
    exact ha c hc
  · rw [← hmem c (.inr (.inr hc))]
    exact hb c hc

end Matchmaker.Text
