import Matchmaker.Proofs.Chat.Fates

/-!
# Nothing is lost in the recent chat

The fates of the messages that were pushed account for all that a history holds and answers, so each
of them is held, was evicted once or was dropped once (`Account.explains`).  A number that was removed
does not come back by itself (`lacks_after_remove`).  What is shown of a history is the end of what it
holds, and without removals this is the end of what was pushed (`entries_pushAll_empty`).
-/

namespace Matchmaker.Chat.History

variable {h : History} {calls : List Call} {x : Nat × ChatEntry} {capacity : Nat}
  {fate : Nat × ChatEntry → Fate}

/-! ## where a message is -/

/-- The message is where this fate says: it is held, or the call that is named has returned it or was
to drop its number. -/
def Explains (capacity : Nat) (calls : List Call) (x : Nat × ChatEntry) : Fate → Prop
  | .held => x.2 ∈ ((empty capacity).run calls).entries
  | .evicted n => ∃ e, calls[n]? = some (.push e) ∧ x.1 < n ∧
      (((empty capacity).run (calls.take n)).push e).2 = some x.2
  | .dropped n => ∃ ids, calls[n]? = some (.remove ids) ∧ x.1 < n ∧ x.2.messageId ∈ ids

theorem Account.explains (h : Account capacity calls fate) (hx : x ∈ pushed calls) :
    Explains capacity calls x (fate x) := by
  -- a message that leaves is among those that leave by that call
  have hleft : ∀ n, (fate x).leaves? = some n → x.1 < n ∧
      ∃ before c, before.length = n ∧ before = calls.take n ∧ calls[n]? = some c ∧
        Agrees capacity fate before c ∧ x ∈ meeting fate (fate x) before := by
    intro n hn
    obtain ⟨hlt, hlength⟩ := h.later _ n hn
    have hsplit : calls.take n ++ [calls[n]] <+: calls := by
      rw [List.take_append_getElem hlength]
      exact List.take_prefix _ _
    refine ⟨hlt, calls.take n, calls[n], by simp; omega, rfl, List.getElem?_eq_getElem hlength,
      h.answers _ _ hsplit, List.mem_filter.2 ⟨?_, beq_self_eq_true _⟩⟩
    obtain ⟨c, hc, he⟩ := mem_pushed.1 hx
    refine mem_pushed.2 ⟨c, ?_, he⟩
    rwa [List.getElem?_take_of_lt hlt]
  cases hfate : fate x with
  | held =>
    show x.2 ∈ ((empty capacity).run calls).entries
    rw [h.entries calls List.prefix_rfl]
    apply List.mem_map_of_mem
    refine List.mem_filter.2 ⟨hx, ?_⟩
    rw [hfate]
    rfl
  | evicted n =>
    obtain ⟨hlt, before, c, rfl, hbefore, hc, hagrees, hmem⟩ := hleft n (by rw [hfate]; rfl)
    rw [hfate] at hmem
    cases c with
    | push e =>
      obtain ⟨-, -, hanswer⟩ := hagrees
      refine ⟨e, hc, hlt, ?_⟩
      rw [← hbefore, ← Option.mem_toList, hanswer]
      exact List.mem_map_of_mem hmem
    | remove ids =>
      obtain ⟨hnone, -⟩ := hagrees
      rw [hnone] at hmem
      cases hmem
  | dropped n =>
    obtain ⟨hlt, before, c, rfl, hbefore, hc, hagrees, hmem⟩ := hleft n (by rw [hfate]; rfl)
    rw [hfate] at hmem
    cases c with
    | push e =>
      obtain ⟨hnone, -⟩ := hagrees
      rw [hnone] at hmem
      cases hmem
    | remove ids =>
      obtain ⟨-, hgone, -⟩ := hagrees
      refine ⟨ids, hc, hlt, ?_⟩
      rw [hgone] at hmem
      simpa using (List.mem_filter.1 hmem).2

/-! ## numbers that are gone -/

/-- No message of this number is shown. -/
structure Lacks (h : History) (id : Int) : Prop where
  entries : ∀ e ∈ h.entries, e.messageId ≠ id
  get : h.get? id = none
  recent : ∀ n, ∀ e ∈ h.recent n, e.messageId ≠ id
  findByAuthor : ∀ p n, ∀ e ∈ h.findByAuthor p n, e.messageId ≠ id

theorem lacks_of_entries {id : Int} (h : History) (hnone : ∀ e ∈ h.entries, e.messageId ≠ id) :
    h.Lacks id where
  entries := hnone
  get := by
    apply List.find?_eq_none.2
    intro e he
    simpa using hnone e he
  recent n e he := hnone e (List.mem_of_mem_drop he)
  findByAuthor p n e he := by
    have hmem := List.mem_of_mem_filter (List.mem_of_mem_take he)
    exact hnone e (List.mem_reverse.1 hmem)

theorem mem_of_mem_run {e : ChatEntry} (he : e ∈ (h.run calls).entries) :
    e ∈ h.entries ∨ .push e ∈ calls := by
  induction calls using List.reverseRecOn with
  | nil => exact .inl he
  | append_singleton calls c ih =>
    rw [run_concat] at he
    cases c with
    | push d =>
      rcases mem_of_mem_push he with rfl | he
      · exact .inr (by simp)
      · exact (ih he).imp id (List.mem_append_left _)
    | remove ids => exact (ih (List.mem_of_mem_filter he)).imp id (List.mem_append_left _)

/-- What a removal names is gone until it is pushed again. -/
theorem lacks_after_remove (h : History) {ids : List Int} {id : Int} (hid : id ∈ ids)
    {after : List Call} (hafter : ∀ e, .push e ∈ after → e.messageId ≠ id) :
    (h.run (.remove ids :: after)).Lacks id := by
  apply lacks_of_entries
  intro e he
  rcases mem_of_mem_run (h := (h.remove ids).1) he with hstays | hpushed
  · rintro rfl
    have hnot := (List.mem_filter.1 hstays).2
    simp [hid] at hnot
  · exact hafter e hpushed

/-! ## pushes alone -/

theorem run_pushes (h : History) (es : List ChatEntry) :
    h.run (es.map .push) = h.pushAll es := by
  rw [run, List.foldl_map]
  rfl

theorem entries_pushAll_empty (capacity : Nat) (es : List ChatEntry) :
    ((empty capacity).pushAll es).entries = es.drop (es.length - max 1 capacity) := by
  have hsuffix := entries_pushAll_suffix (empty capacity) es
  have hlength := length_pushAll (empty capacity) es
  change ((empty capacity).pushAll es).entries <:+ es at hsuffix
  change _ = min (0 + es.length) (max capacity 1) at hlength
  rw [List.suffix_iff_eq_drop.1 hsuffix, hlength]
  congr 1
  omega

/-! ## the whole of it -/

/-- **Nothing is lost, and nothing comes twice.**  A history never has more messages than it has room
for.  Every message that was pushed is held, was returned by one later push, or was dropped by one
later removal of its number, and the history and all answers are as these fates say.  What a removal
names is not shown again until it is pushed again.  Of pushes alone the last ones are held, and
the newest messages, of everyone or of one player, are the end of what is held. -/
theorem nothing_lost (capacity : Nat) (calls : List Call) :
    let h := (empty capacity).run calls
    h.length ≤ max 1 capacity ∧
      (∃ fate, Account capacity calls fate ∧
        ∀ x ∈ pushed calls, Explains capacity calls x (fate x)) ∧
      (∀ before ids after, calls = before ++ .remove ids :: after → ∀ id ∈ ids,
        (∀ e, .push e ∈ after → e.messageId ≠ id) → h.Lacks id) ∧
      (∀ es : List ChatEntry, calls = es.map .push → h.entries = es.drop (es.length - max 1 capacity)) ∧
      (∀ n, h.recent n <:+ h.entries ∧ (h.recent n).length = min n h.length) ∧
      ∀ p n, (h.findByAuthor p n).reverse <:+ h.entries.filter (·.author == p) ∧
        (h.findByAuthor p n).length = min n (h.entries.countP (·.author == p)) := by
  intro h
  refine ⟨length_run_empty_le capacity calls, ?_, ?_, ?_, recent_suffix h, findByAuthor_suffix h⟩
  · obtain ⟨fate, haccount⟩ := exists_account capacity calls
    exact ⟨fate, haccount, fun x hx => haccount.explains hx⟩
  · intro before ids after hcalls id hid hafter
    have hrun : h = ((empty capacity).run before).run (.remove ids :: after) := by
      rw [← run_append, ← hcalls]
    rw [hrun]
    exact lacks_after_remove _ hid hafter
  · intro es hcalls
    have hrun : h = (empty capacity).pushAll es := by
      rw [← run_pushes, ← hcalls]
    rw [hrun, entries_pushAll_empty]

end Matchmaker.Chat.History

/-! ## two messages of one number

One of them is evicted and the other one is removed. -/

namespace Matchmaker.Sample

def line (id : Int) : ChatEntry where
  messageId := id
  author := .ofNat 1
  createdOn := { day := 1, second := 3600, nano := 1 }
  personaname := ""
  avatarhash := ""
  permissionLevel := 0
  body := ""
  deleted := false

def calls : List Chat.History.Call :=
  [.push (line 7), .push (line 7), .push (line 8), .remove [7, 7, 9], .push (line 9)]

end Matchmaker.Sample

namespace Matchmaker.Chat.History

theorem nothing_lost_sample :
    ((empty 2).run Sample.calls).Lacks 7 ∧
      ((empty 2).run Sample.calls).entries = [Sample.line 8, Sample.line 9] ∧
      (((empty 2).run (Sample.calls.take 2)).push (Sample.line 8)).2 = some (Sample.line 7) := by
  obtain ⟨-, -, hgone, -⟩ := nothing_lost 2 Sample.calls
  refine ⟨?_, by decide, by decide⟩
  apply hgone (Sample.calls.take 3) [7, 7, 9] [.push (Sample.line 9)] rfl 7 (by decide)
  intro e he
  obtain rfl : e = Sample.line 9 := by simpa using he
  decide

end Matchmaker.Chat.History
