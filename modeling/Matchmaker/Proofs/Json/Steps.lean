import Matchmaker.Json.Input
import Matchmaker.Text.Blank

/-!
# What one step of reading finds

Each step is told by what stands where it reads: a word, a colon, the end of a bracket or a further item
of it.  An item stands behind a comma, unless it is the first one (`Starts`).
-/

namespace Matchmaker.Json

theorem bind_eq_ok {α β : Type} {x : Except Fault α} {f : α → Except Fault β} {b : β} :
    x >>= f = .ok b ↔ ∃ a, x = .ok a ∧ f a = .ok b := by
  cases x with
  | error e => exact ⟨nofun, fun ⟨_, h, _⟩ => nomatch h⟩
  | ok a => exact ⟨fun h => ⟨a, rfl, h⟩, fun ⟨_, ha, h⟩ => Except.ok.inj ha ▸ h⟩

theorem map_eq_ok {α β : Type} {x : Except Fault α} {f : α → β} {b : β} :
    x.map f = .ok b ↔ ∃ a, x = .ok a ∧ f a = b := by
  cases x with
  | error e => exact ⟨nofun, fun ⟨_, h, _⟩ => nomatch h⟩
  | ok a =>
    constructor
    · intro h
      exact ⟨a, rfl, Except.ok.inj h⟩
    · rintro ⟨_, ⟨⟩, rfl⟩
      rfl

theorem word_eq_ok {w : List Char} {s r : Input} : word w s = .ok r ↔ s = Input.ofText w ++ r := by
  constructor
  · intro h
    induction w generalizing s with
    | nil =>
      cases h
      rfl
    | cons c w ih =>
      cases s with
      | nil => cases h
      | cons d s =>
        unfold word at h
        split at h
        · rename_i hd
          rw [ih h, eq_of_beq hd]
          rfl
        · cases h
  · rintro rfl
    exact word_append w r

/-! ## tokens -/

theorem token_token (s : Input) : token (token s) = token s :=
  Text.dropWhile_eq_self isGap _ fun _ h => Text.head?_dropWhile isGap s h

theorem length_token_le (s : Input) : (token s).length ≤ s.length :=
  (List.dropWhile_sublist isGap).length_le

theorem length_lt_of_token {c : Option Char} {s t : Input} (h : token s = c :: t) :
    t.length < s.length := by
  have hle := length_token_le s
  rwa [h, List.length_cons] at hle

/-! ## between brackets -/

/-- an item begins there: behind a comma, unless it is the first one -/
def Starts (first : Bool) (s t : Input) : Prop := if first then t = s else token s = some ',' :: t

section
variable {closing : Char} {first : Bool} {s r t : Input}

theorem Starts.length_le (h : Starts first s t) : t.length ≤ s.length := by
  cases first with
  | true => exact Nat.le_of_eq (congrArg List.length (show t = s from h))
  | false => exact Nat.le_of_lt (length_lt_of_token h)

theorem nextItem_eq_close :
    nextItem closing first s = .ok (.close r) ↔ token s = some closing :: r := by
  constructor
  · intro h
    unfold nextItem at h
    split at h
    · cases h
    · rename_i c t htoken
      split at h
      · rename_i hc
        cases h
        rw [htoken, eq_of_beq hc]
      · split at h
        · cases h
        · split at h
          · split at h
            · cases h
            · split at h <;> cases h
          · cases h
  · intro h
    unfold nextItem
    rw [h]
    exact if_pos (beq_self_eq_true _)

theorem starts_of_nextItem {x : Input} (h : nextItem closing first s = .ok (.item x)) :
    ∃ t, Starts first s t ∧ x = token t ∧ ∃ c u, token t = c :: u ∧ c ≠ some closing := by
  unfold nextItem at h
  split at h
  · cases h
  · rename_i c t htoken
    split at h
    · cases h
    · rename_i hc
      split at h
      · rename_i hfirst
        cases h
        refine ⟨s, ?_, htoken.symm, c, t, htoken, fun heq => hc (beq_iff_eq.2 heq)⟩
        rw [Starts, if_pos hfirst]
      · rename_i hfirst
        split at h
        · rename_i hcomma
          rw [eq_of_beq hcomma] at htoken
          split at h
          · cases h
          · rename_i d u hitem
            split at h
            · cases h
            · rename_i hd
              cases h
              refine ⟨t, ?_, hitem.symm, d, u, hitem, fun heq => hd (beq_iff_eq.2 heq)⟩
              rw [Starts, if_neg hfirst]
              exact htoken
        · cases h

theorem nextItem_of_starts (hclosing : closing ≠ ',') (hstarts : Starts first s t)
    {c : Option Char} {u : Input} (htoken : token t = c :: u) (hc : c ≠ some closing) :
    nextItem closing first s = .ok (.item (token t)) := by
  have hother : (c == some closing) = false := beq_eq_false_iff_ne.2 hc
  unfold nextItem
  cases first with
  | true =>
    obtain rfl : t = s := hstarts
    rw [htoken]
    dsimp only
    rw [hother]
    rfl
  | false =>
    have hcomma : (some ',' == some closing) = false := by
      simpa using Ne.symm hclosing
    rw [show token s = some ',' :: t from hstarts]
    dsimp only
    rw [hcomma, htoken]
    dsimp only
    rw [hother]
    rfl

theorem nextItem_eq_item (hclosing : closing ≠ ',') {x : Input} :
    nextItem closing first s = .ok (.item x) ↔
      ∃ t, Starts first s t ∧ x = token t ∧ ∃ c u, token t = c :: u ∧ c ≠ some closing := by
  refine ⟨starts_of_nextItem, ?_⟩
  rintro ⟨t, hstarts, rfl, c, u, htoken, hc⟩
  exact nextItem_of_starts hclosing hstarts htoken hc

theorem colon_eq_ok : colon s = .ok r ↔ token s = some ':' :: r := by
  unfold colon
  constructor
  · intro h
    split at h
    · cases h
    · rename_i c t htoken
      split at h
      · rename_i hc
        cases h
        rw [htoken, eq_of_beq hc]
      · cases h
  · intro h
    rw [h]
    rfl

theorem finish_eq_ok : finish s = .ok () ↔ token s = [] := by
  unfold finish
  cases token s with
  | nil => exact ⟨fun _ => rfl, fun _ => rfl⟩
  | cons c t => exact ⟨nofun, nofun⟩

end

end Matchmaker.Json
