import Matchmaker.Chat.Body
import Matchmaker.Proofs.Text.Trimming

/-!
# What becomes of a body

A body is trimmed, filtered and trimmed again.  What the first trim drops is either dropped by the
filter as well or left at the ends, where the second trim drops it (`visible_eq_trim`); and of the
characters that the filter lets through only the space is blank, so the second trim strips spaces
(`trim_filter_eq_core`).  So a body is accepted or refused by its `core`, and an accepted one is
stored as its core with the brackets written as entities (`sanitize_exact`).
-/

namespace Matchmaker.Chat

open Text (Bare strip strip_append strip_congr bare_strip exists_strip isBlank isControl)

variable {s : List Char} {c d : Char}

/-! ## the core of a body -/

/-- the characters that are a plain space or neither control characters nor blank, without the
spaces at the two ends -/
def core (s : List Char) : List Char :=
  strip (· == ' ') (s.filter fun c => c == ' ' || (!isControl c && !isBlank c))

theorem isPrintable_eq :
    isPrintable = fun c => c == ' ' || (!isControl c && !isBlank c) := by
  funext c
  rw [isPrintable, Bool.not_or]

/-- Of the characters that are let through only the space is blank, and none is a control
character. -/
theorem of_printable (h : isPrintable c = true) :
    isControl c = false ∧ isBlank c = (c == ' ') := by
  cases hspace : c == ' ' with
  | true =>
    rw [beq_iff_eq.1 hspace]
    decide
  | false => simpa [isPrintable, hspace] using h

theorem trim_filter_eq_core (s : List Char) : Text.trim (s.filter isPrintable) = core s := by
  rw [Text.trim_eq_strip, core, ← isPrintable_eq]
  exact strip_congr fun c hc => (of_printable (List.mem_filter.1 hc).2).2

/-- The first trim makes no difference. -/
theorem visible_eq_trim (s : List Char) : visible s = Text.trim (s.filter isPrintable) := by
  obtain ⟨a, b, ha, hb, hs⟩ := exists_strip isBlank s
  have hfilter : s.filter isPrintable = a.filter isPrintable ++
      (Text.trim s).filter isPrintable ++ b.filter isPrintable := by
    rw [← List.filter_append, ← List.filter_append]
    exact congrArg (List.filter isPrintable) hs
  rw [hfilter]
  refine (strip_append (fun c hc => ?_) fun c hc => ?_).symm
  · exact ha c (List.mem_of_mem_filter hc)
  · exact hb c (List.mem_of_mem_filter hc)

theorem visible_eq_core (s : List Char) : visible s = core s :=
  (visible_eq_trim s).trans (trim_filter_eq_core s)

theorem bare_core (s : List Char) : Bare (· == ' ') (core s) := bare_strip _ _

theorem mem_core (h : c ∈ core s) : isPrintable c = true := by
  rw [core, ← isPrintable_eq] at h
  exact (List.mem_filter.1 (Text.mem_of_mem_strip h)).2

/-! ## the brackets -/

theorem escape_eq (c : Char) :
    escape c = if c = '<' then "&lt;".toList else if c = '>' then "&gt;".toList else [c] := by
  unfold escape
  split
  · rfl
  · rfl
  · rename_i hlt hgt
    rw [if_neg hlt, if_neg hgt]

theorem escape_ne_nil (c : Char) : escape c ≠ [] := by
  unfold escape
  split <;> exact List.cons_ne_nil _ _

/-- What is written for a character is printable, and the brackets are gone. -/
theorem mem_escape (hc : isPrintable c = true) (h : d ∈ escape c) :
    isPrintable d = true ∧ d ≠ '<' ∧ d ≠ '>' := by
  unfold escape at h
  split at h
  · simp only [List.mem_cons, List.not_mem_nil, or_false] at h
    rcases h with rfl | rfl | rfl | rfl <;> decide
  · simp only [List.mem_cons, List.not_mem_nil, or_false] at h
    rcases h with rfl | rfl | rfl | rfl <;> decide
  · rename_i hlt hgt
    obtain rfl := List.mem_singleton.1 h
    exact ⟨hc, hlt, hgt⟩

/-- No space comes of another character. -/
theorem escape_space (hc : (c == ' ') = false) : (' ' : Char) ∉ escape c := by
  unfold escape
  split
  · decide
  · decide
  · intro h
    rw [← List.mem_singleton.1 h] at hc
    exact absurd hc (by decide)

/-- neither empty nor with a bracket, with a control character, with a blank that is not a space or
with a space at one of the ends -/
structure Clean (s : List Char) : Prop where
  nonempty : s ≠ []
  brackets : '<' ∉ s ∧ '>' ∉ s
  printable : ∀ c ∈ s, isControl c = false ∧ (isBlank c = true → c = ' ')
  head : s.head? ≠ some ' '
  last : s.getLast? ≠ some ' '

theorem clean_escape (h : core s ≠ []) : Clean ((core s).flatMap escape) := by
  have hmem : ∀ d ∈ (core s).flatMap escape, isPrintable d = true ∧ d ≠ '<' ∧ d ≠ '>' := by
    intro d hd
    obtain ⟨c, hc, hd⟩ := List.mem_flatMap.1 hd
    exact mem_escape (mem_core hc) hd
  refine ⟨?_, ⟨fun hlt => (hmem _ hlt).2.1 rfl, fun hgt => (hmem _ hgt).2.2 rfl⟩, ?_, ?_, ?_⟩
  · intro hnil
    obtain ⟨c, hc⟩ := List.exists_mem_of_ne_nil _ h
    exact escape_ne_nil c (List.flatMap_eq_nil_iff.1 hnil c hc)
  · intro d hd
    obtain ⟨hcontrol, hblank⟩ := of_printable (hmem d hd).1
    rw [hblank, beq_iff_eq]
    exact ⟨hcontrol, id⟩
  · intro hhead
    obtain ⟨c, rest, hs⟩ := List.exists_cons_of_ne_nil h
    have hspace := (bare_core s).head c (by rw [hs, List.head?_cons])
    rw [hs, List.flatMap_cons, List.head?_append_of_ne_nil _ (escape_ne_nil c)] at hhead
    exact escape_space hspace (List.mem_of_mem_head? hhead)
  · intro hlast
    obtain ⟨rest, c, hs⟩ := (List.eq_nil_or_concat _).resolve_left h
    rw [List.concat_eq_append] at hs
    have hspace := (bare_core s).last c (by rw [hs, List.getLast?_concat])
    rw [hs, List.flatMap_append, List.flatMap_singleton,
      List.getLast?_append_of_ne_nil _ (escape_ne_nil c)] at hlast
    exact escape_space hspace (List.mem_of_mem_getLast? hlast)

/-! ## the whole of it -/

theorem write_maxLength : String.ofList (Decimal.write maxLength) = "1000" := by
  have hdigits : Decimal.toDigits maxLength = [1, 0, 0, 0] := by simp [maxLength, Decimal.toDigits]
  rw [Decimal.write, hdigits]
  decide

theorem sanitize_eq (body : String) :
    sanitize body =
      if core body.toList = [] then .error (.badInput "empty message")
      else if 1000 < (core body.toList).length then
        .error (.badInput ("message is " ++
          String.ofList (Decimal.write (core body.toList).length) ++ " characters, limit is 1000"))
      else .ok (String.ofList ((core body.toList).flatMap escape)) := by
  have hsuffix : " characters, limit is " ++ "1000" = " characters, limit is 1000" := by decide
  simp only [sanitize, visible_eq_core, write_maxLength, List.isEmpty_iff, String.append_assoc,
    hsuffix]
  rfl

theorem sanitize_eq_ok {body t : String} : sanitize body = .ok t ↔
    (1 ≤ (core body.toList).length ∧ (core body.toList).length ≤ 1000) ∧
      t = String.ofList ((core body.toList).flatMap escape) := by
  rw [sanitize_eq]
  split
  · rename_i hnil
    have hlen := List.length_eq_zero_iff.2 hnil
    refine ⟨fun h => (nomatch h), fun h => ?_⟩
    omega
  · rename_i hne
    have hlen := List.length_pos_iff.2 hne
    split
    · rename_i hlong
      exact ⟨fun h => (nomatch h), fun h => absurd h.1.2 (Nat.not_le.2 hlong)⟩
    · rename_i hfits
      refine ⟨fun h => ⟨⟨hlen, Nat.not_lt.1 hfits⟩, ?_⟩, fun h => by rw [h.2]⟩
      exact (Except.ok.inj h).symm

/-- **A body becomes its core, with the brackets written as entities.**  It is accepted exactly if
its core has from one to a thousand characters, and is refused as bad input otherwise, with a
message that says which bound is broken.  Trimming it beforehand makes no difference, and what is
stored is clean. -/
theorem sanitize_exact (body : String) :
    (∀ t, sanitize body = .ok t ↔
      (1 ≤ (core body.toList).length ∧ (core body.toList).length ≤ 1000) ∧
        t = String.ofList ((core body.toList).flatMap fun c =>
          if c = '<' then "&lt;".toList else if c = '>' then "&gt;".toList else [c])) ∧
      ((core body.toList).length < 1 → sanitize body = .error (.badInput "empty message")) ∧
      (1000 < (core body.toList).length → sanitize body = .error (.badInput
        ("message is " ++ String.ofList (Decimal.write (core body.toList).length) ++
          " characters, limit is 1000"))) ∧
      visible body.toList = Text.trim (body.toList.filter isPrintable) ∧
      ∀ t, sanitize body = .ok t → Clean t.toList := by
  have hescape : escape = fun c =>
      if c = '<' then "&lt;".toList else if c = '>' then "&gt;".toList else [c] :=
    funext escape_eq
  rw [← hescape]
  refine ⟨fun t => sanitize_eq_ok, fun hshort => ?_, fun hlong => ?_, visible_eq_trim body.toList,
    fun t ht => ?_⟩
  · rw [sanitize_eq, if_pos (List.length_eq_zero_iff.1 (Nat.lt_one_iff.1 hshort))]
  · have hne : core body.toList ≠ [] := List.length_pos_iff.1 (Nat.lt_trans (by decide) hlong)
    rw [sanitize_eq, if_neg hne, if_pos hlong]
  · obtain ⟨⟨hlen, -⟩, rfl⟩ := sanitize_eq_ok.1 ht
    rw [String.toList_ofList]
    exact clean_escape (List.length_pos_iff.1 hlen)

/-- A control character keeps the first trim from a space; the second trim finds it, behind a
bracket nothing is dropped, and what is blank at the end goes. -/
theorem sanitize_exact_sample :
    sanitize "\u0085 \x07 <a\t b> \u200a" = .ok "&lt;a b&gt;" ∧
      Clean "&lt;a b&gt;".toList ∧
      sanitize " \x07 \t\x7f " = .error (.badInput "empty message") := by
  have h : sanitize "\u0085 \x07 <a\t b> \u200a" = .ok "&lt;a b&gt;" :=
    ((sanitize_exact _).1 _).2 (by decide +kernel)
  exact ⟨h, (sanitize_exact _).2.2.2.2 _ h, (sanitize_exact _).2.1 (by decide +kernel)⟩

end Matchmaker.Chat
