import Matchmaker.Proofs.Chat.Log

/-!
# What a store keeps

A store of messages in memory is known by what was done to it.  Every message that was ever saved is
kept under the number of its save, as it was saved, and is marked if it was saved so or if one of the
writes after its save names that number (`keptFrom`).  So the log after any writes can be read off the
writes from left to right (`entries_written`), and each answer of the store is an answer about that
list.

Numbers are whole numbers without a bound here: a log that does not fit into memory is never reached.
-/

namespace Matchmaker.Chat.Log

/-! ## what was saved -/

/-- the message that a write saves -/
def Write.entry? : Write → Option ChatEntry
  | save e => some e
  | delete _ => none

/-- asks for the mark on this number -/
def Write.names (id : Int) : Write → Bool
  | save _ => false
  | delete ids => ids.contains id

/-- all that is saved, the oldest first -/
def saves (ws : List Write) : List ChatEntry := ws.filterMap Write.entry?

variable {ws before after : List Write}

theorem saves_append (before after : List Write) :
    saves (before ++ after) = saves before ++ saves after := List.filterMap_append

theorem saves_cons_save (e : ChatEntry) (ws : List Write) : saves (.save e :: ws) = e :: saves ws := rfl

theorem saves_cons_delete (ids : List Int) (ws : List Write) : saves (.delete ids :: ws) = saves ws := rfl

/-! ## what is kept of it -/

/-- marked if one of these writes names it -/
def marked (ws : List Write) (e : ChatEntry) : ChatEntry :=
  { e with deleted := e.deleted || ws.any (Write.names e.messageId) }

/-- What is kept of the messages that are saved after the first `n`: the number of its save, and a
mark if it was saved with one or if a write after its save names it. -/
def keptFrom : Nat → List Write → List ChatEntry
  | _, [] => []
  | n, .save e :: after => marked after { e with messageId := n + 1 } :: keptFrom (n + 1) after
  | n, .delete _ :: after => keptFrom n after

theorem marked_nil (e : ChatEntry) : marked [] e = e := by
  unfold marked
  rw [List.any_nil, Bool.or_false]

theorem marked_cons_save (d : ChatEntry) (ws : List Write) (e : ChatEntry) :
    marked (.save d :: ws) e = marked ws e := rfl

/-- The mark that one removal sets is one more mark. -/
theorem marked_cons_delete (ids : List Int) (ws : List Write) (e : ChatEntry) :
    marked ws (if ids.contains e.messageId then { e with deleted := true } else e) =
      marked (.delete ids :: ws) e := by
  show _ = { e with
    deleted := e.deleted || (ids.contains e.messageId || ws.any (Write.names e.messageId)) }
  cases ids.contains e.messageId with
  | true =>
    rw [if_pos rfl, Bool.true_or, Bool.or_true]
    rfl
  | false =>
    rw [if_neg Bool.false_ne_true, Bool.false_or]
    rfl

theorem length_keptFrom (n : Nat) (ws : List Write) :
    (keptFrom n ws).length = (saves ws).length := by
  induction ws generalizing n with
  | nil => rfl
  | cons w ws ih =>
    cases w with
    | save e =>
      rw [saves_cons_save, List.length_cons, ← ih (n + 1)]
      rfl
    | delete ids => exact ih n

theorem keptFrom_append (n : Nat) (before : List Write) (e : ChatEntry) (after : List Write) :
    ∃ older, older.length = (saves before).length ∧
      keptFrom n (before ++ .save e :: after) = older ++
        marked after { e with messageId := (n + (saves before).length : Nat) + 1 } ::
          keptFrom (n + (saves before).length + 1) after := by
  induction before generalizing n with
  | nil => exact ⟨[], rfl, rfl⟩
  | cons w before ih =>
    cases w with
    | save d =>
      obtain ⟨older, hlength, hkept⟩ := ih (n + 1)
      refine ⟨marked (before ++ .save e :: after) { d with messageId := n + 1 } :: older, ?_, ?_⟩
      · rw [saves_cons_save, List.length_cons, List.length_cons, hlength]
      · show _ :: keptFrom (n + 1) (before ++ .save e :: after) = _
        rw [hkept, saves_cons_save, List.length_cons, Nat.add_right_comm n 1, Nat.add_assoc n]
        rfl
    | delete ids => exact ih n

/-- The writes to a log mark what is in it and add what they save. -/
theorem entries_after (log : Log) (ws : List Write) :
    (log.after ws).entries = log.entries.map (marked ws) ++ keptFrom log.entries.length ws := by
  induction ws generalizing log with
  | nil =>
    rw [List.map_congr_left fun e _ => marked_nil e, List.map_id']
    exact (List.append_nil _).symm
  | cons w ws ih =>
    cases w with
    | save e =>
      show ((log.save e).2.after ws).entries = _
      rw [ih, entries_save, List.map_append, List.length_append, List.append_assoc]
      rfl
    | delete ids =>
      show ((log.delete ids).after ws).entries = _
      rw [ih, length_delete, delete, List.map_map]
      congr 1
      exact List.map_congr_left fun e _ => marked_cons_delete ids ws e

theorem entries_written (ws : List Write) : (written ws).entries = keptFrom 0 ws :=
  entries_after empty ws

theorem length_written (ws : List Write) : (written ws).entries.length = (saves ws).length := by
  rw [entries_written, length_keptFrom]

theorem written_append (before after : List Write) :
    written (before ++ after) = (written before).after after := List.foldl_append

/-! ## what is found -/

/-- Every number from one to the number of messages is found, and no other one. -/
theorem Numbered.isSome_get?_iff {log : Log} (h : log.Numbered) (id : Int) :
    (log.get? id).isSome = true ↔ 1 ≤ id ∧ id ≤ log.entries.length := by
  rw [get?, List.find?_isSome]
  have hnumbers : (∃ e ∈ log.entries, (e.messageId == id) = true) ↔
      id ∈ log.entries.map ChatEntry.messageId := by
    simp only [List.mem_map, beq_iff_eq]
  rw [hnumbers, h, List.mem_map]
  constructor
  · rintro ⟨i, hi, rfl⟩
    have := List.mem_range.1 hi
    omega
  · rintro ⟨hlow, hhigh⟩
    exact ⟨(id - 1).toNat, List.mem_range.2 (by omega), by omega⟩

/-- The message of one save is found as it was saved, with the marks that were set since. -/
theorem get?_written (before : List Write) (e : ChatEntry) (after : List Write) :
    (written (before ++ .save e :: after)).get? ((saves before).length + 1) =
      some (marked after { e with messageId := (saves before).length + 1 }) := by
  obtain ⟨older, -, hkept⟩ := keptFrom_append 0 before e after
  rw [Nat.zero_add] at hkept
  have hmem : marked after { e with messageId := (saves before).length + 1 } ∈
      (written (before ++ .save e :: after)).entries := by
    rw [entries_written, hkept]
    exact List.mem_append_right _ List.mem_cons_self
  exact (numbered_written _).get?_of_mem hmem

theorem get?_delete_of_notMem {log : Log} {ids : List Int} {id : Int} (h : id ∉ ids) :
    (log.delete ids).get? id = log.get? id := by
  rw [get?_delete]
  cases hfound : log.get? id with
  | none => rfl
  | some e =>
    have hid : e.messageId = id := by simpa using List.find?_some hfound
    rw [Option.map_some, hid, if_neg (by simpa using h)]

theorem delete_delete (log : Log) (ids : List Int) : (log.delete ids).delete ids = log.delete ids := by
  unfold delete
  rw [List.map_map]
  congr 1
  refine List.map_congr_left fun e _ => ?_
  rw [Function.comp_apply]
  by_cases hnamed : ids.contains e.messageId = true
  · rw [if_pos hnamed]
    exact if_pos hnamed
  · rw [if_neg hnamed]
    exact if_neg hnamed

/-! ## the answers of the store -/

theorem save_written (ws : List Write) (e : ChatEntry) : ChatStore.save (written ws) e =
    .ok ({ e with messageId := (saves ws).length + 1 }, written (ws ++ [.save e])) := by
  rw [written_append, ← length_written]
  rfl

/-- Of two saves the later one gets the higher number. -/
theorem messageId_lt_of_saves {before between : List Write} {d e x y : ChatEntry} {log log' : Log}
    (hx : ChatStore.save (written before) d = .ok (x, log))
    (hy : ChatStore.save (written (before ++ .save d :: between)) e = .ok (y, log')) :
    x.messageId < y.messageId := by
  rw [save_written, Except.ok.injEq, Prod.mk.injEq] at hx hy
  obtain ⟨rfl, -⟩ := hx
  obtain ⟨rfl, -⟩ := hy
  show ((saves before).length + 1 : Int) < (saves (before ++ .save d :: between)).length + 1
  rw [saves_append, saves_cons_save, List.length_append, List.length_cons]
  omega

theorem message_eq_ok_iff {log : Log} {id : Int} {r : ChatEntry × Log} :
    ChatStore.message log id = .ok r ↔ log.get? id = some r.1 ∧ r.2 = log := by
  unfold ChatStore.message instChatStore
  dsimp only
  cases log.get? id with
  | none => exact ⟨nofun, nofun⟩
  | some e =>
    rw [Except.ok.injEq, Prod.ext_iff, Option.some.injEq]
    exact and_congr_right fun _ => eq_comm

theorem recent_suffix (log : Log) (limit : Nat) :
    log.recent limit <:+ log.current ∧
      (log.recent limit).length = min limit log.current.length := by
  rw [recent_eq_drop]
  refine ⟨List.drop_suffix _ _, ?_⟩
  rw [List.length_drop]
  omega

/-- **The store is a faithful log.**  After any writes the next save gets the next number, counted from
one, and no write fails.  The numbers that are found are those of the saves so far, and under each is
what was saved, marked if it was saved so or if a later removal names it.  The newest messages are the
end of those that are not marked, in ascending order.  Removing twice is removing once, and leaves
alone what it does not name; of two saves the later one has the higher number. -/
theorem saved_for_good (ws : List Write) :
    let log := written ws
    let kept := keptFrom 0 ws
    (∀ e, ChatStore.save log e =
        .ok ({ e with messageId := (saves ws).length + 1 }, written (ws ++ [.save e]))) ∧
      (∀ ids, ChatStore.delete log ids = .ok ((), written (ws ++ [.delete ids]))) ∧
      (∀ id, (∃ e, ChatStore.message log id = .ok (e, log)) ↔
        1 ≤ id ∧ id ≤ (saves ws).length) ∧
      (∀ before e after, ws = before ++ .save e :: after →
        let id : Int := (saves before).length + 1
        ChatStore.message log id = .ok ({ e with
          messageId := id
          deleted := e.deleted || after.any (Write.names id) }, log)) ∧
      ((∀ e, e ∈ kept ↔ ChatStore.message log e.messageId = .ok (e, log)) ∧
        kept.Pairwise fun d e => d.messageId < e.messageId) ∧
      (∀ limit, ∃ newest, ChatStore.recent log limit = .ok (newest, log) ∧
        newest <:+ kept.filter (fun e => !e.deleted) ∧
        newest.length = min limit (kept.filter fun e => !e.deleted).length) ∧
      (∀ ids, written (ws ++ [.delete ids, .delete ids]) = written (ws ++ [.delete ids]) ∧
        ∀ id, id ∉ ids → ∀ e, ChatStore.message (written (ws ++ [.delete ids])) id =
          .ok (e, written (ws ++ [.delete ids])) ↔ ChatStore.message log id = .ok (e, log)) ∧
      ∀ before d between e after, ws = before ++ .save d :: between ++ .save e :: after →
        ∀ x y log₁ log₂, ChatStore.save (written before) d = .ok (x, log₁) →
          ChatStore.save (written (before ++ .save d :: between)) e = .ok (y, log₂) →
          x.messageId < y.messageId := by
  intro log kept
  have hkept : log.entries = kept := entries_written ws
  have hnumbered : log.Numbered := numbered_written ws
  have hmessage : ∀ id e, ChatStore.message log id = .ok (e, log) ↔ log.get? id = some e := by
    intro id e
    rw [message_eq_ok_iff, and_iff_left rfl]
  refine ⟨save_written ws, ?_, ?_, ?_, ⟨?_, ?_⟩, ?_, ?_, ?_⟩
  · intro ids
    rw [written_append]
    rfl
  · intro id
    rw [← length_written, ← hnumbered.isSome_get?_iff, Option.isSome_iff_exists]
    exact exists_congr (hmessage id)
  · rintro before e after rfl
    exact (hmessage _ _).2 (get?_written before e after)
  · intro e
    rw [hmessage, ← hkept]
    exact ⟨hnumbered.get?_of_mem, List.mem_of_find?_eq_some⟩
  · rw [← hkept]
    exact hnumbered.ascending
  · intro limit
    rw [← hkept]
    exact ⟨log.recent limit, rfl, log.recent_suffix limit⟩
  · intro ids
    have hdelete : written (ws ++ [.delete ids]) = log.delete ids := written_append ws _
    refine ⟨?_, fun id hid e => ?_⟩
    · rw [hdelete, ← delete_delete]
      exact written_append ws _
    · rw [hmessage, hdelete, message_eq_ok_iff, and_iff_left rfl, get?_delete_of_notMem hid]
  · exact fun _ _ _ _ _ _ _ _ _ _ => messageId_lt_of_saves

end Matchmaker.Chat.Log

/-! ## numbers that are asked for again

One message comes with a number of its own and another one with a mark.  The first is removed twice,
next to numbers of nothing, and the number two is named before there is a message of it. -/

namespace Matchmaker.Sample

def remark (id : Int) (body : String) (deleted : Bool) : ChatEntry where
  messageId := id
  author := .ofNat 1
  createdOn := { day := 19844, second := 43200, nano := 5 }
  personaname := ""
  avatarhash := ""
  permissionLevel := 0
  body := body
  deleted := deleted

def writes : List Chat.Log.Write :=
  [.save (remark 9 "a" false), .delete [1, 2, -3], .save (remark 1 "b" false), .delete [1, 1],
    .save (remark 0 "c" true)]

end Matchmaker.Sample

namespace Matchmaker.Chat.Log

theorem saved_for_good_sample :
    ChatStore.message (written Sample.writes) 1 =
        .ok (Sample.remark 1 "a" true, written Sample.writes) ∧
      ChatStore.message (written Sample.writes) 2 =
        .ok (Sample.remark 2 "b" false, written Sample.writes) ∧
      ChatStore.message (written Sample.writes) 3 =
        .ok (Sample.remark 3 "c" true, written Sample.writes) ∧
      ¬ (∃ e, ChatStore.message (written Sample.writes) 4 = .ok (e, written Sample.writes)) ∧
      (written Sample.writes).recent 5 = [Sample.remark 2 "b" false] := by
  obtain ⟨-, -, hfound, hkept, -⟩ := saved_for_good Sample.writes
  refine ⟨hkept [] _ _ rfl, hkept (Sample.writes.take 2) _ _ rfl, ?_, ?_, by decide⟩
  · exact hkept (Sample.writes.take 4) _ _ rfl
  · rw [hfound]
    decide

end Matchmaker.Chat.Log
