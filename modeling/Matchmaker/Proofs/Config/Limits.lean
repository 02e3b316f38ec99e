import Mathlib.Data.UInt
import Matchmaker.Config

/-!
# What a checked configuration keeps to

Six settings are raised to one if they are zero, and the queue of a client is raised to what a replay
of the history takes, with some to spare.  How much that is depends on the size of the history after
it was raised itself, and it has to be a word (`validated_eq_ok_iff`).  Close to the largest word it
is none, and then checking fails, whatever the other settings are (`validated_completes_iff`).
-/

namespace Matchmaker

/-! ## sums of words -/

namespace Word
variable {x y z : UInt64}

theorem sum_of_lt (h : x.toNat + y.toNat < 2 ^ 64) : sum x y = .ok (x + y) := if_pos h

theorem sum_of_le (h : 2 ^ 64 ≤ x.toNat + y.toNat) : sum x y = .error .add :=
  if_neg (Nat.not_lt.2 h)

/-- A sum that there is, is the sum of the numbers. -/
theorem sum_eq_ok_iff : sum x y = .ok z ↔ z.toNat = x.toNat + y.toNat := by
  by_cases h : x.toNat + y.toNat < 2 ^ 64
  · rw [sum_of_lt h, Except.ok.injEq, ← UInt64.toNat_inj, UInt64.toNat_add, Nat.mod_eq_of_lt h]
    exact eq_comm
  · rw [sum_of_le (Nat.not_lt.1 h)]
    have hbelow := z.toNat_lt
    exact iff_of_false nofun (by omega)

end Word

/-! ## checked configurations -/

namespace Config

variable {c v : Config} {f : Config → UInt64}

/-- the settings that are at least one in a checked configuration -/
def positive : List (Config → UInt64) :=
  [reconcileSecs, evictionSecs, idleTimeoutSecs, keepaliveSecs, chatHistorySize, minQueueSize]

theorem toNat_history (c : Config) :
    (max c.chatHistorySize 1).toNat = max c.chatHistorySize.toNat 1 :=
  UInt64.toNat_max _ _

/-- A checked configuration is the one there was, with settings raised. -/
theorem validated_eq_ok_iff : c.validated = .ok v ↔
    ∃ replay : UInt64, replay.toNat = max c.chatHistorySize.toNat 1 + 16 ∧
      v = { c with
        reconcileSecs := max c.reconcileSecs 1
        evictionSecs := max c.evictionSecs 1
        idleTimeoutSecs := max c.idleTimeoutSecs 1
        keepaliveSecs := max c.keepaliveSecs 1
        chatHistorySize := max c.chatHistorySize 1
        minQueueSize := max c.minQueueSize 1
        outboundQueueSize := max c.outboundQueueSize replay } := by
  have hsum : ∀ replay, Word.sum (max c.chatHistorySize 1) outboundSpare = .ok replay ↔
      replay.toNat = max c.chatHistorySize.toNat 1 + 16 := fun replay => by
    rw [Word.sum_eq_ok_iff, toNat_history]
    rfl
  unfold validated
  simp only [← hsum]
  cases Word.sum (max c.chatHistorySize 1) outboundSpare with
  | error e => exact iff_of_false nofun (by rintro ⟨-, ⟨⟩, -⟩)
  | ok replay =>
    constructor
    · intro h
      exact ⟨replay, rfl, (Except.ok.inj h).symm⟩
    · rintro ⟨_, hreplay, rfl⟩
      cases hreplay
      rfl

/-- Checking needs no more than a word for the history and sixteen more. -/
theorem exists_validated_iff :
    (∃ v, c.validated = .ok v) ↔ c.chatHistorySize.toNat + 16 < 2 ^ 64 := by
  constructor
  · rintro ⟨v, h⟩
    obtain ⟨replay, hreplay, -⟩ := validated_eq_ok_iff.1 h
    have hbelow := replay.toNat_lt
    omega
  · intro h
    refine ⟨_, validated_eq_ok_iff.2 ⟨UInt64.ofNat (max c.chatHistorySize.toNat 1 + 16), ?_, rfl⟩⟩
    exact UInt64.toNat_ofNat_of_lt' (show _ < 2 ^ 64 by omega)

theorem validated_eq_error_iff :
    c.validated = .error .add ↔ 2 ^ 64 ≤ c.chatHistorySize.toNat + 16 := by
  rw [← Nat.not_lt, ← exists_validated_iff]
  cases c.validated with
  | ok v => exact iff_of_false nofun fun h => h ⟨v, rfl⟩
  | error e =>
    cases e
    exact iff_of_true rfl nofun

theorem validated_positive (h : c.validated = .ok v) (hf : f ∈ positive) : f v = max (f c) 1 := by
  obtain ⟨replay, -, rfl⟩ := validated_eq_ok_iff.1 h
  simp only [positive, List.mem_cons, List.not_mem_nil, or_false] at hf
  rcases hf with rfl | rfl | rfl | rfl | rfl | rfl <;> rfl

theorem toNat_positive (h : c.validated = .ok v) (hf : f ∈ positive) :
    (f v).toNat = max (f c).toNat 1 := by
  rw [validated_positive h hf, UInt64.toNat_max]
  rfl

theorem validated_positive_of_le (h : c.validated = .ok v) (hf : f ∈ positive)
    (hone : 1 ≤ (f c).toNat) : f v = f c := by
  apply UInt64.toNat_inj.1
  rw [toNat_positive h hf]
  omega

/-- The queue of a client holds the whole history and sixteen more. -/
theorem toNat_outboundQueueSize (h : c.validated = .ok v) :
    v.outboundQueueSize.toNat =
      max c.outboundQueueSize.toNat (v.chatHistorySize.toNat + 16) := by
  obtain ⟨replay, hreplay, rfl⟩ := validated_eq_ok_iff.1 h
  show (max c.outboundQueueSize replay).toNat = max _ ((max c.chatHistorySize 1).toNat + 16)
  rw [UInt64.toNat_max, toNat_history, hreplay]

/-- A setting that was raised is not raised again. -/
theorem raise_raise (x least : UInt64) : max (max x least) least = max x least := by
  apply UInt64.toNat_inj.1
  rw [UInt64.toNat_max, UInt64.toNat_max]
  omega

theorem validated_of_validated (h : c.validated = .ok v) : v.validated = .ok v := by
  obtain ⟨replay, hreplay, rfl⟩ := validated_eq_ok_iff.1 h
  refine validated_eq_ok_iff.2 ⟨replay, ?_, ?_⟩
  · rw [hreplay, toNat_history]
    omega
  · simp only [raise_raise]

/-- **Checking completes unless the sum overflows.**  There is a checked configuration exactly if
the history and sixteen more are less than the number of words.  Six settings are at least one in it,
and the queue of a client holds the whole history and sixteen more.  Whatever was within its bound is
left as it is, and so is all that has none; and to check it once more changes nothing. -/
theorem validated_completes_iff (c : Config) :
    ((∃ v, c.validated = .ok v) ↔ c.chatHistorySize.toNat + 16 < 2 ^ 64) ∧
      (c.validated = .error .add ↔ 2 ^ 64 ≤ c.chatHistorySize.toNat + 16) ∧
      ∀ v, c.validated = .ok v →
        (∀ f ∈ positive, 1 ≤ (f v).toNat ∧ (1 ≤ (f c).toNat → f v = f c)) ∧
        v.chatHistorySize.toNat + 16 ≤ v.outboundQueueSize.toNat ∧
        (v.chatHistorySize.toNat + 16 ≤ c.outboundQueueSize.toNat →
          v.outboundQueueSize = c.outboundQueueSize) ∧
        v = { c with
          reconcileSecs := v.reconcileSecs
          evictionSecs := v.evictionSecs
          idleTimeoutSecs := v.idleTimeoutSecs
          keepaliveSecs := v.keepaliveSecs
          chatHistorySize := v.chatHistorySize
          minQueueSize := v.minQueueSize
          outboundQueueSize := v.outboundQueueSize } ∧
        v.validated = .ok v := by
  refine ⟨exists_validated_iff, validated_eq_error_iff, fun v h => ?_⟩
  have houtbound : v.outboundQueueSize.toNat =
      max c.outboundQueueSize.toNat (v.chatHistorySize.toNat + 16) := toNat_outboundQueueSize h
  refine ⟨fun f hf => ⟨?_, validated_positive_of_le h hf⟩, ?_, fun hroom => ?_, ?_,
    validated_of_validated h⟩
  · rw [toNat_positive h hf]
    exact Nat.le_max_right _ _
  · rw [houtbound]
    exact Nat.le_max_right _ _
  · apply UInt64.toNat_inj.1
    rw [houtbound]
    exact Nat.max_eq_left hroom
  · obtain ⟨replay, -, rfl⟩ := validated_eq_ok_iff.1 h
    rfl

theorem validated_completes_iff_sample :
    let c : Config := { idleTimeoutSecs := 7, minQueueSize := 0, chatHistorySize := 300 }
    ∃ v, c.validated = .ok v ∧ 1 ≤ v.minQueueSize.toNat ∧ v.idleTimeoutSecs = 7 ∧
      v.chatHistorySize = 300 ∧ 316 ≤ v.outboundQueueSize.toNat := by
  intro c
  obtain ⟨hcompletes, -, hlimits⟩ := validated_completes_iff c
  obtain ⟨v, hv⟩ := hcompletes.2 (by decide)
  obtain ⟨hpositive, hroom, -⟩ := hlimits v hv
  have hhistory : v.chatHistorySize = 300 :=
    (hpositive chatHistorySize (by simp [positive])).2 (by decide)
  rw [hhistory] at hroom
  refine ⟨v, hv, (hpositive minQueueSize ?_).1, (hpositive idleTimeoutSecs ?_).2 (by decide),
    hhistory, hroom⟩
  · simp [positive]
  · simp [positive]

/-- The largest history there can be is not checked to the end. -/
theorem largest_history_overflows :
    let c : Config := { chatHistorySize := 18446744073709551615 }
    c.validated = .error .add ∧ ¬ ∃ v, c.validated = .ok v := by
  intro c
  have h : c.validated = .error .add := rfl
  refine ⟨h, ?_⟩
  rintro ⟨v, hv⟩
  rw [h] at hv
  cases hv

end Config

end Matchmaker
