import Matchmaker.Proofs.Chat.Body

/-!
# Bodies that come a second time

What is stored for a body is clean, and to clean it once more changes nothing: it has no end to
trim, nothing to drop and no bracket to replace (`Clean.core_eq`, `Clean.flatMap_escape`).  So it is
up to its length alone whether it is accepted again.

The length is checked before the brackets are replaced, and every bracket becomes four characters
(`length_flatMap_escape`).  Therefore a stored body may be longer than the limit, and one that is
would not be accepted as a body itself (`accepted_again_iff`).
-/

namespace Matchmaker.Chat

open Text (Bare strip strip_of_parts isBlank isControl)

variable {s : List Char} {c : Char}

/-! ## cleaning what is clean -/

theorem Clean.isPrintable (h : Clean s) (hc : c ∈ s) : isPrintable c = true := by
  obtain ⟨hcontrol, hblank⟩ := h.printable c hc
  unfold Chat.isPrintable
  cases hb : isBlank c with
  | true => simp [hblank hb]
  | false => simp [hcontrol]

theorem Clean.bare (h : Clean s) : Bare (· == ' ') s := by
  constructor
  · intro c hc
    rw [beq_eq_false_iff_ne]
    intro hspace
    apply h.head
    rw [hc, hspace]
  · intro c hc
    rw [beq_eq_false_iff_ne]
    intro hspace
    apply h.last
    rw [hc, hspace]

theorem Clean.core_eq (h : Clean s) : core s = s := by
  have hfilter : s.filter Chat.isPrintable = s := by
    rw [List.filter_eq_self]
    intro c hc
    exact h.isPrintable hc
  rw [core, ← isPrintable_eq, hfilter]
  have hparts := strip_of_parts (p := (· == ' ')) (a := []) (b := []) (by simp) h.bare (by simp)
  simpa using hparts

/-! ## how much longer a body becomes -/

def isBracket (c : Char) : Bool := c == '<' || c == '>'

theorem escape_of_bracket (h : isBracket c = true) : (escape c).length = 4 := by
  rcases Bool.or_eq_true_iff.1 h with hlt | hgt
  · rw [beq_iff_eq.1 hlt]
    rfl
  · rw [beq_iff_eq.1 hgt]
    rfl

theorem escape_of_not_bracket (h : isBracket c = false) : escape c = [c] := by
  simp only [isBracket, Bool.or_eq_false_iff, beq_eq_false_iff_ne] at h
  rw [escape_eq, if_neg h.1, if_neg h.2]

theorem Clean.flatMap_escape (h : Clean s) : s.flatMap escape = s := by
  have hescape : ∀ c ∈ s, escape c = [c] := by
    intro c hc
    apply escape_of_not_bracket
    simp only [isBracket, Bool.or_eq_false_iff, beq_eq_false_iff_ne]
    constructor
    · rintro rfl
      exact h.brackets.1 hc
    · rintro rfl
      exact h.brackets.2 hc
  rw [List.flatMap_congr hescape]
  exact List.flatMap_singleton' s

/-- A bracket counts once where the limit is checked, and for four characters when it is stored. -/
theorem length_flatMap_escape (s : List Char) :
    (s.flatMap escape).length = s.length + 3 * s.countP isBracket := by
  induction s with
  | nil => rfl
  | cons c s ih =>
    rw [List.flatMap_cons, List.length_append, ih, List.length_cons, List.countP_cons]
    cases hc : isBracket c with
    | true =>
      rw [escape_of_bracket hc, if_pos rfl]
      omega
    | false =>
      rw [escape_of_not_bracket hc, List.length_singleton, if_neg Bool.false_ne_true]
      omega

/-- how many characters are stored for a body -/
def storedLength (body : String) : Nat :=
  (core body.toList).length + 3 * (core body.toList).countP isBracket

theorem storedLength_le (body : String) : storedLength body ≤ 4 * (core body.toList).length := by
  have hcount := (core body.toList).countP_le_length (p := isBracket)
  unfold storedLength
  omega

/-! ## the second time -/

/-- Of clean text only the length matters. -/
theorem Clean.sanitize_eq {t : String} (h : Clean t.toList) :
    sanitize t = if t.length ≤ maxLength then .ok t else .error (.badInput
      ("message is " ++ String.ofList (Decimal.write t.length) ++ " characters, limit is 1000")) := by
  rw [Chat.sanitize_eq, h.core_eq, h.flatMap_escape, String.ofList_toList, String.length_toList,
    if_neg h.nonempty]
  unfold maxLength
  by_cases hfits : t.length ≤ 1000
  · rw [if_pos hfits, if_neg (Nat.not_lt.2 hfits)]
  · rw [if_neg hfits, if_pos (Nat.not_le.1 hfits)]

/-- **A stored body is accepted again if it is within the limit.**  An accepted body has as many
characters as its core and three more for every bracket.  It is within the limit, and accepted again
and left as it is, exactly if this is at most a thousand; if it is more, which can be up to four
thousand, the stored body is refused as too long. -/
theorem accepted_again_iff (body t : String) (h : sanitize body = .ok t) :
    t.length = storedLength body ∧
      (t.length ≤ maxLength ∧ sanitize t = .ok t ↔ storedLength body ≤ maxLength) ∧
      (maxLength < storedLength body → sanitize t = .error (.badInput ("message is " ++
        String.ofList (Decimal.write (storedLength body)) ++ " characters, limit is 1000"))) ∧
      storedLength body ≤ 4 * maxLength := by
  obtain ⟨⟨hlow, hhigh⟩, rfl⟩ := sanitize_eq_ok.1 h
  have hclean : Clean ((core body.toList).flatMap escape) := by
    apply clean_escape
    exact List.length_pos_iff.1 hlow
  have hlength : (String.ofList ((core body.toList).flatMap escape)).length = storedLength body := by
    rw [String.length_ofList, length_flatMap_escape]
    rfl
  have hagain := Clean.sanitize_eq (t := String.ofList ((core body.toList).flatMap escape))
    (by rwa [String.toList_ofList])
  rw [hlength] at hagain ⊢
  refine ⟨rfl, ?_, ?_, ?_⟩
  · constructor
    · intro hboth
      exact hboth.1
    · intro hfits
      rw [if_pos hfits] at hagain
      exact ⟨hfits, hagain⟩
  · intro hlong
    rwa [if_neg (Nat.not_le.2 hlong)] at hagain
  · have hfour := storedLength_le body
    unfold maxLength
    omega

theorem accepted_again_iff_sample :
    sanitize " <b>gg</b> " = .ok "&lt;b&gt;gg&lt;/b&gt;" ∧
      sanitize "&lt;b&gt;gg&lt;/b&gt;" = .ok "&lt;b&gt;gg&lt;/b&gt;" := by
  have h : sanitize " <b>gg</b> " = .ok "&lt;b&gt;gg&lt;/b&gt;" := by decide +kernel
  obtain ⟨-, hagain, -⟩ := accepted_again_iff _ _ h
  exact ⟨h, (hagain.2 (by decide +kernel)).2⟩

theorem write_1004 : String.ofList (Decimal.write 1004) = "1004" := by
  have hdigits : Decimal.toDigits 1004 = [1, 0, 0, 4] := by simp [Decimal.toDigits]
  rw [Decimal.write, hdigits]
  decide

/-- Brackets alone are accepted up to a thousand, and what is stored for 251 of them is too long. -/
theorem brackets_outgrow_limit :
    let body := String.ofList (List.replicate 251 '<')
    let t := String.ofList (List.replicate 251 "&lt;".toList).flatten
    sanitize body = .ok t ∧ ¬ t.length ≤ maxLength ∧
      sanitize t = .error (.badInput "message is 1004 characters, limit is 1000") := by
  intro body t
  have hcore : core body.toList = List.replicate 251 '<' := by
    rw [String.toList_ofList]
    decide +kernel
  have hstored : (core body.toList).flatMap escape = (List.replicate 251 "&lt;".toList).flatten := by
    rw [hcore, List.flatMap_def, List.map_replicate]
    rfl
  have hlength : t.length = 1004 := by
    rw [String.length_ofList]
    decide +kernel
  have hclean : Clean t.toList := by
    rw [String.toList_ofList, ← hstored]
    apply clean_escape
    rw [hcore]
    exact List.cons_ne_nil _ _
  refine ⟨?_, ?_, ?_⟩
  · rw [sanitize_eq_ok, hstored, hcore, List.length_replicate]
    exact ⟨by omega, rfl⟩
  · simp [hlength, maxLength]
  · rw [hclean.sanitize_eq, hlength, write_1004]
    rfl

end Matchmaker.Chat
