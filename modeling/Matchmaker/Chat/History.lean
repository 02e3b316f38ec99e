import Matchmaker.Chat.Entry

/-!
# The recent chat

The last messages in the order in which they came, at most `capacity` of them.  A message that finds
the history full takes the place of the oldest one.  The bound is part of the type, and so is that
there is room for one message.
-/

namespace Matchmaker.Chat

structure History where
  capacity : Nat
  /-- the oldest first -/
  entries : List ChatEntry
  capacity_pos : 0 < capacity
  length_le : entries.length ≤ capacity

namespace History

/-- an empty history; there is always room for one message -/
def empty (capacity : Nat) : History := ⟨max capacity 1, [], by omega, Nat.zero_le _⟩

def length (h : History) : Nat := h.entries.length

theorem length_append_le {l : List ChatEntry} {n : Nat} (h : l.length < n) (e : ChatEntry) :
    (l ++ [e]).length ≤ n := by
  rw [List.length_append]
  exact h

theorem length_tail_append_le {l : List ChatEntry} {n : Nat} (h : l.length ≤ n) (hn : 0 < n)
    (e : ChatEntry) : (l.tail ++ [e]).length ≤ n := by
  rw [List.length_append, List.length_tail]
  show l.length - 1 + 1 ≤ n
  omega

/-- appends a message; if the history is full, the oldest one is dropped and returned -/
def push (h : History) (e : ChatEntry) : History × Option ChatEntry :=
  if hl : h.entries.length < h.capacity then
    (⟨h.capacity, h.entries ++ [e], h.capacity_pos, length_append_le hl e⟩, none)
  else
    (⟨h.capacity, h.entries.tail ++ [e], h.capacity_pos,
      length_tail_append_le h.length_le h.capacity_pos e⟩, h.entries.head?)

/-- drops all messages with the given numbers; the numbers of those that were there -/
def remove (h : History) (ids : List Int) : History × List Int :=
  (⟨h.capacity, h.entries.filter fun e => !ids.contains e.messageId, h.capacity_pos,
      Nat.le_trans (List.length_filter_le _ _) h.length_le⟩,
    (h.entries.filter fun e => ids.contains e.messageId).map ChatEntry.messageId)

def get? (h : History) (id : Int) : Option ChatEntry :=
  h.entries.find? fun e => e.messageId == id

/-- at most `limit` messages of one author, the newest first -/
def findByAuthor (h : History) (author : SteamId) (limit : Nat) : List ChatEntry :=
  (h.entries.reverse.filter fun e => e.author == author).take limit

/-- the newest `limit` messages, the oldest of them first -/
def recent (h : History) (limit : Nat) : List ChatEntry :=
  h.entries.drop (h.entries.length - limit)

end History

end Matchmaker.Chat
