import Matchmaker.Chat.Log
import Matchmaker.Coordinator.Basic
import Matchmaker.Proofs.Chat.History

/-!
# The chat without its times

When a message was written depends on how long its way was, and nothing else should.  `undated` takes
the time out of a message and of all that messages are kept in, so two things that are the same but
for times have the same `undated`.

Of a store that is not known more closely, it has to be said that times are kept and not looked at
(`DateBlind`).
-/

namespace Matchmaker

open Protocol (Response)

/-- the message without the time at which it was written -/
def ChatEntry.undated (e : ChatEntry) : ChatEntry :=
  { e with
    createdOn := {
      day := 0
      second := 0
      nano := 0
      second_lt := Nat.zero_lt_of_lt e.createdOn.second_lt
      nano_lt := Nat.zero_lt_of_lt e.createdOn.nano_lt } }

def Protocol.Response.undated : Response → Response
  | .message e => .message e.undated
  | r => r

def Effect.undated : Effect → Effect
  | .deliver n r => .deliver n r.undated
  | a => a

namespace Chat

/-! ## the recent chat -/

namespace History

theorem ext {g h : History} (hcapacity : g.capacity = h.capacity)
    (hentries : g.entries = h.entries) : g = h := by
  cases g
  cases h
  cases hcapacity
  cases hentries
  rfl

def undated (h : History) : History where
  capacity := h.capacity
  entries := h.entries.map ChatEntry.undated
  capacity_pos := h.capacity_pos
  length_le := by
    rw [List.length_map]
    exact h.length_le

theorem undated_push (h : History) (e : ChatEntry) :
    (h.push e).1.undated = (h.undated.push e.undated).1 := by
  refine ext ?_ ?_
  · rw [capacity_push]
    exact capacity_push h e
  · rw [entries_push]
    show (h.push e).1.entries.map _ = (h.entries.map _ ++ [e.undated]).drop
      ((h.entries.map _).length + 1 - h.capacity)
    rw [entries_push, List.map_drop, List.map_append, List.length_map]
    rfl

end History

/-! ## what is stored -/

/-- A store to which the time of a message is something to keep and nothing more. -/
class DateBlind (σ : Type) [ChatStore σ] where
  /-- the store without the times of its messages -/
  undated : σ → σ
  save_undated : ∀ (s : σ) (e : ChatEntry),
    ChatStore.save (undated s) e.undated =
      (ChatStore.save s e).map fun saved => (saved.1.undated, undated saved.2)

instance : DateBlind Log where
  undated log := ⟨log.entries.map ChatEntry.undated⟩
  save_undated log e := by
    show Except.ok (Log.save _ e.undated) = .ok _
    simp [Log.save, ChatEntry.undated]

instance {σ : Type} [ChatStore σ] [DateBlind σ] : DateBlind (WithOutages σ) where
  undated s := { s with service := DateBlind.undated s.service }
  save_undated s e := by
    show (if Call.save ∈ s.down then _ else _) =
      (if Call.save ∈ s.down then _ else _ : Called _ _).map _
    split
    · rfl
    · dsimp only
      rw [DateBlind.save_undated]
      cases ChatStore.save s.service e <;> rfl

end Chat

end Matchmaker
