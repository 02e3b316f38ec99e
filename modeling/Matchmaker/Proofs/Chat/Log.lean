import Mathlib.Data.List.Nodup
import Matchmaker.Chat.Log

/-!
# Laws of the log of messages

What is in a log has come there by saving, and may have been marked since (`Log.written`).  So its
messages are numbered from one without gaps (`Numbered`), their numbers ascend, and a number is
found in one place.  Marking is for good: once a number is in the log, all that can change for it is
that it gets marked (`IsDeleted`).

The messages that are not deleted grow at their end when a message is saved, and lose those that are
marked (`current_save`, `current_delete`).
-/

namespace Matchmaker.Chat.Log

/-- what can be done to a log -/
inductive Write where
  | save (e : ChatEntry)
  | delete (ids : List Int)

def Write.apply (log : Log) : Write → Log
  | save e => (log.save e).2
  | delete ids => log.delete ids

/-- a log after these writes -/
def after (log : Log) (ws : List Write) : Log := ws.foldl Write.apply log

/-- all that a store can ever hold -/
def written (ws : List Write) : Log := empty.after ws

/-! ## numbers -/

/-- The number of a message is its place, counted from one. -/
def Numbered (log : Log) : Prop :=
  log.entries.map ChatEntry.messageId =
    (List.range log.entries.length).map fun i : Nat => (i + 1 : Int)

theorem messageId_save (log : Log) (e : ChatEntry) :
    (log.save e).1.messageId = log.entries.length + 1 := rfl

theorem entries_save (log : Log) (e : ChatEntry) :
    (log.save e).2.entries = log.entries ++ [(log.save e).1] := rfl

theorem messageId_map_delete (log : Log) (ids : List Int) :
    (log.delete ids).entries.map ChatEntry.messageId = log.entries.map ChatEntry.messageId := by
  rw [delete, List.map_map]
  refine List.map_congr_left fun e _ => ?_
  simp only [Function.comp_apply]
  split <;> rfl

theorem length_delete (log : Log) (ids : List Int) :
    (log.delete ids).entries.length = log.entries.length := List.length_map _

theorem numbered_empty : empty.Numbered := rfl

theorem Numbered.save {log : Log} (h : log.Numbered) (e : ChatEntry) :
    (log.save e).2.Numbered := by
  unfold Numbered
  rw [entries_save, List.map_append, h, List.length_append, List.length_singleton,
    List.range_succ, List.map_append]
  rfl

theorem Numbered.delete {log : Log} (h : log.Numbered) (ids : List Int) :
    (log.delete ids).Numbered := by
  unfold Numbered
  rw [messageId_map_delete, length_delete]
  exact h

theorem Numbered.after {log : Log} (h : log.Numbered) (ws : List Write) :
    (log.after ws).Numbered := by
  induction ws generalizing log with
  | nil => exact h
  | cons w ws ih =>
    cases w with
    | save e => exact ih (h.save e)
    | delete ids => exact ih (h.delete ids)

theorem numbered_written (ws : List Write) : (written ws).Numbered := numbered_empty.after ws

theorem Numbered.ascending {log : Log} (h : log.Numbered) :
    log.entries.Pairwise fun a b => a.messageId < b.messageId := by
  rw [← List.pairwise_map (f := ChatEntry.messageId) (R := fun a b : Int => a < b), h,
    List.pairwise_map]
  refine List.pairwise_lt_range.imp ?_
  intro i j hlt
  omega

theorem Numbered.messageId_le {log : Log} (h : log.Numbered) {e : ChatEntry}
    (he : e ∈ log.entries) : e.messageId ≤ log.entries.length := by
  have hid : e.messageId ∈ log.entries.map ChatEntry.messageId := List.mem_map_of_mem he
  rw [h] at hid
  obtain ⟨i, hi, hie⟩ := List.mem_map.1 hid
  have := List.mem_range.1 hi
  omega

theorem Numbered.eq_of_messageId {log : Log} (h : log.Numbered) {d e : ChatEntry}
    (hd : d ∈ log.entries) (he : e ∈ log.entries) (hid : d.messageId = e.messageId) : d = e := by
  have hnodup : (log.entries.map ChatEntry.messageId).Nodup := by
    rw [List.Nodup, List.pairwise_map]
    exact h.ascending.imp fun hlt => Int.ne_of_lt hlt
  exact List.inj_on_of_nodup_map hnodup hd he hid

/-! ## messages that are not deleted -/

theorem current_save (log : Log) (e : ChatEntry) :
    (log.save e).2.current = log.current ++ if e.deleted then [] else [(log.save e).1] := by
  unfold current
  rw [entries_save, List.filter_append]
  congr 1
  cases h : e.deleted <;> simp [Log.save, h]

theorem current_delete (log : Log) (ids : List Int) :
    (log.delete ids).current = log.current.filter fun e => !ids.contains e.messageId := by
  unfold current delete
  induction log.entries with
  | nil => rfl
  | cons e es ih =>
    rw [List.map_cons]
    by_cases hid : ids.contains e.messageId = true <;> cases hd : e.deleted <;>
      simp_all

theorem current_subset {log : Log} {e : ChatEntry} (he : e ∈ log.current) :
    e ∈ log.entries ∧ e.deleted = false := by
  obtain ⟨he, hd⟩ := List.mem_filter.1 he
  exact ⟨he, by simpa using hd⟩

/-- The newest messages are the end of the list. -/
theorem recent_eq_drop (log : Log) (limit : Nat) :
    log.recent limit = log.current.drop (log.current.length - limit) := by
  rw [recent, List.take_reverse, List.reverse_reverse]

/-! ## marks -/

/-- the log has a message with this number, and it is marked -/
def IsDeleted (log : Log) (id : Int) : Prop := ∃ e, log.get? id = some e ∧ e.deleted = true

theorem get?_save (log : Log) (e : ChatEntry) (id : Int) :
    (log.save e).2.get? id =
      (log.get? id).or (if (log.save e).1.messageId = id then some (log.save e).1 else none) := by
  unfold get?
  rw [entries_save, List.find?_append]
  congr 1
  by_cases h : (log.save e).1.messageId = id <;> simp [h]

theorem get?_delete (log : Log) (ids : List Int) (id : Int) :
    (log.delete ids).get? id = (log.get? id).map fun e =>
      if ids.contains e.messageId then { e with deleted := true } else e := by
  unfold get? delete
  rw [List.find?_map]
  congr 2
  funext e
  simp only [Function.comp_apply]
  split <;> rfl

theorem Numbered.get?_of_mem {log : Log} (h : log.Numbered) {e : ChatEntry}
    (he : e ∈ log.entries) : log.get? e.messageId = some e := by
  cases hfound : log.get? e.messageId with
  | none =>
    have := List.find?_eq_none.1 hfound e he
    simp at this
  | some d =>
    have hid : d.messageId = e.messageId := by simpa using List.find?_some hfound
    rw [h.eq_of_messageId (List.mem_of_find?_eq_some hfound) he hid]

/-- No number is used before its time. -/
theorem Numbered.le_of_get? {log : Log} (h : log.Numbered) {id : Int} {e : ChatEntry}
    (he : log.get? id = some e) : id ≤ log.entries.length := by
  have hid : e.messageId = id := by simpa using List.find?_some he
  rw [← hid]
  exact h.messageId_le (List.mem_of_find?_eq_some he)

theorem Numbered.not_isDeleted_of_current {log : Log} (h : log.Numbered) {e : ChatEntry}
    (he : e ∈ log.current) : ¬ log.IsDeleted e.messageId := by
  obtain ⟨hmem, hlive⟩ := current_subset he
  rintro ⟨d, hd, hdeleted⟩
  rw [h.get?_of_mem hmem] at hd
  cases hd
  rw [hlive] at hdeleted
  cases hdeleted

/-- Saving a message that is not deleted marks nothing. -/
theorem isDeleted_save {log : Log} {e : ChatEntry} (h : e.deleted = false) {id : Int} :
    (log.save e).2.IsDeleted id ↔ log.IsDeleted id := by
  unfold IsDeleted
  rw [get?_save]
  cases log.get? id with
  | some d => rfl
  | none =>
    refine iff_of_false ?_ (by simp)
    rintro ⟨d, hd, hdeleted⟩
    rw [Option.none_or] at hd
    split at hd
    · cases hd
      rw [show (log.save e).1.deleted = e.deleted from rfl, h] at hdeleted
      cases hdeleted
    · cases hd

theorem isDeleted_delete {log : Log} {ids : List Int} {id : Int} :
    (log.delete ids).IsDeleted id ↔
      log.IsDeleted id ∨ id ∈ ids ∧ (log.get? id).isSome = true := by
  unfold IsDeleted
  rw [get?_delete]
  cases hfound : log.get? id with
  | none => simp
  | some d =>
    have hid : d.messageId = id := by simpa using List.find?_some hfound
    by_cases hmem : id ∈ ids <;> simp [hid, hmem]

end Matchmaker.Chat.Log
