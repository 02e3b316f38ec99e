import Matchmaker.Proofs.Chat.History
import Matchmaker.Proofs.Coordinator.Registration

/-!
# What each operation does to the recent chat

Only filling the history, a message and a removal touch it.  Sessions that come and go, queues,
matches and changes of a chat status leave it alone.
-/

namespace Matchmaker.Coordinator

theorem chat_seed (c : Coordinator) (entries : List ChatEntry) :
    (c.seed entries).chat = c.chat.pushAll entries := rfl

theorem chat_message (c : Coordinator) (e : ChatEntry) :
    (c.message e).state.chat = (c.chat.push e).1 := rfl

theorem entries_purge (c : Coordinator) (ids : List Int) :
    (c.purge ids).1.state.chat.entries =
      c.chat.entries.filter fun e => !ids.contains e.messageId := by
  unfold purge
  cases ids with
  | nil =>
    symm
    exact List.filter_eq_self.2 fun e _ => rfl
  | cons id ids => exact Chat.History.entries_remove c.chat (id :: ids)

theorem capacity_purge (c : Coordinator) (ids : List Int) :
    (c.purge ids).1.state.chat.capacity = c.chat.capacity := by
  unfold purge
  split <;> rfl

theorem chat_updateChatStatus (c : Coordinator) (p : SteamId) (status : ChatStatus)
    (reason : String) : (c.updateChatStatus p status reason).1.state.chat = c.chat := by
  unfold updateChatStatus
  cases c.client? p <;> rfl

theorem chat_remove (c : Coordinator) (p : SteamId) : (c.remove p).chat = c.chat := by
  unfold remove
  cases c.client? p <;> rfl

theorem chat_removeEach (c : Coordinator) (sessions : List Session) :
    (c.removeEach sessions).chat = c.chat := by
  induction sessions generalizing c with
  | nil => rfl
  | cons e sessions ih => rw [removeEach_cons, ih, chat_remove]

end Matchmaker.Coordinator
