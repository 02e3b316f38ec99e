import Mathlib.Data.List.Infix
import Matchmaker.Chat.History

/-!
# Laws of the recent chat

A history never holds anything but the end of what has been pushed: a push appends and then forgets
what does not fit any more (`entries_push`), and a removal keeps the order of what stays
(`entries_remove`).  What is asked of it as its newest messages is its end (`recent_of_suffix`).
-/

namespace Matchmaker.Chat.History

theorem capacity_push (h : History) (e : ChatEntry) : (h.push e).1.capacity = h.capacity := by
  unfold push
  split <;> rfl

/-- A message comes to the end, and the oldest one goes if there is no room for it. -/
theorem entries_push (h : History) (e : ChatEntry) :
    (h.push e).1.entries =
      (h.entries ++ [e]).drop (h.entries.length + 1 - h.capacity) := by
  have hle := h.length_le
  unfold push
  split
  · rename_i hroom
    rw [Nat.sub_eq_zero_of_le hroom]
    rfl
  · rename_i hfull
    have hone : h.entries.length + 1 - h.capacity = 1 := by omega
    have hpos := h.capacity_pos
    rw [hone, List.drop_append_of_le_length (by omega), List.drop_one]

theorem entries_push_suffix (h : History) (e : ChatEntry) :
    (h.push e).1.entries <:+ h.entries ++ [e] := by
  rw [entries_push]
  exact List.drop_suffix _ _

theorem mem_of_mem_push {h : History} {e d : ChatEntry} (hd : d ∈ (h.push e).1.entries) :
    d = e ∨ d ∈ h.entries := by
  have hmem := (entries_push_suffix h e).subset hd
  simpa [or_comm] using hmem

theorem push_of_room {h : History} (hroom : h.length < h.capacity) (e : ChatEntry) :
    (h.push e).1.entries = h.entries ++ [e] ∧ (h.push e).2 = none := by
  have hroom : h.entries.length < h.capacity := hroom
  rw [push, dif_pos hroom]
  exact ⟨rfl, rfl⟩

theorem push_of_full {h : History} (hfull : ¬ h.length < h.capacity) (e : ChatEntry) :
    (h.push e).1.entries = h.entries.tail ++ [e] ∧ (h.push e).2 = h.entries.head? := by
  have hfull : ¬ h.entries.length < h.capacity := hfull
  rw [push, dif_neg hfull]
  exact ⟨rfl, rfl⟩

theorem entries_remove (h : History) (ids : List Int) :
    (h.remove ids).1.entries = h.entries.filter fun e => !ids.contains e.messageId := rfl

/-- pushes these messages, the first of them first -/
def pushAll (h : History) (es : List ChatEntry) : History := es.foldl (fun h e => (h.push e).1) h

theorem pushAll_cons (h : History) (e : ChatEntry) (es : List ChatEntry) :
    h.pushAll (e :: es) = (h.push e).1.pushAll es := rfl

theorem capacity_pushAll (h : History) (es : List ChatEntry) :
    (h.pushAll es).capacity = h.capacity := by
  induction es generalizing h with
  | nil => rfl
  | cons e es ih => rw [pushAll_cons, ih, capacity_push]

theorem entries_pushAll_suffix (h : History) (es : List ChatEntry) :
    (h.pushAll es).entries <:+ h.entries ++ es := by
  induction es generalizing h with
  | nil =>
    rw [List.append_nil]
    exact List.suffix_rfl
  | cons e es ih =>
    refine (ih (h.push e).1).trans ?_
    rw [List.append_cons]
    exact (List.suffix_append_inj_of_length_eq rfl).2 ⟨entries_push_suffix h e, rfl⟩

theorem length_pushAll (h : History) (es : List ChatEntry) :
    (h.pushAll es).entries.length = min (h.entries.length + es.length) h.capacity := by
  induction es generalizing h with
  | nil =>
    have hle := h.length_le
    show h.entries.length = min (h.entries.length + 0) h.capacity
    omega
  | cons e es ih =>
    have hle := h.length_le
    rw [pushAll_cons, ih, capacity_push, entries_push, List.length_drop, List.length_append,
      List.length_singleton, List.length_cons]
    omega

/-- If a history is the end of a list, its newest messages are the end of the list. -/
theorem recent_of_suffix {h : History} {l : List ChatEntry} (hl : h.entries <:+ l) {n : Nat}
    (hn : n ≤ h.entries.length) : h.recent n = l.drop (l.length - n) := by
  obtain ⟨forgotten, rfl⟩ := hl
  have hlength : (forgotten ++ h.entries).length - n =
      forgotten.length + (h.entries.length - n) := by
    rw [List.length_append]
    omega
  rw [recent, hlength, List.drop_length_add_append]

theorem recent_suffix (h : History) (n : Nat) :
    h.recent n <:+ h.entries ∧ (h.recent n).length = min n h.length := by
  refine ⟨List.drop_suffix _ _, ?_⟩
  rw [recent, List.length_drop]
  unfold length
  omega

theorem findByAuthor_suffix (h : History) (p : SteamId) (n : Nat) :
    (h.findByAuthor p n).reverse <:+ h.entries.filter (·.author == p) ∧
      (h.findByAuthor p n).length = min n (h.entries.countP (·.author == p)) := by
  unfold findByAuthor
  rw [List.filter_reverse]
  constructor
  · rw [List.reverse_take, List.reverse_reverse]
    exact List.drop_suffix _ _
  · rw [List.length_take, List.length_reverse, List.countP_eq_length_filter]

end Matchmaker.Chat.History
