import Matchmaker.Proofs.Chat.History

/-!
# What becomes of a message

Every message that is pushed is held until it leaves, and it leaves once: it is evicted by a push
that finds the history full, or it is dropped by a removal that names its number.  Messages may be
alike, numbers included, so an account of them goes by the calls that pushed them: a `Fate` for each
of these calls says which of the three it is, and an `Account` that the history and all its answers
agree with it.

A call that is made after the others settles the fates of those who leave by it, and of nobody else
(`settle`).  So there is an account of every run (`exists_account`).
-/

namespace Matchmaker.Chat.History

/-! ## runs -/

/-- what is asked of a history -/
inductive Call where
  | push (e : ChatEntry)
  | remove (ids : List Int)

def next (h : History) : Call → History
  | .push e => (h.push e).1
  | .remove ids => (h.remove ids).1

def run (h : History) (calls : List Call) : History := calls.foldl next h

variable {h : History} {calls before : List Call} {c : Call} {x y : Nat × ChatEntry}

theorem run_append (h : History) (before after : List Call) :
    h.run (before ++ after) = (h.run before).run after := List.foldl_append

theorem run_concat (h : History) (calls : List Call) (c : Call) :
    h.run (calls ++ [c]) = (h.run calls).next c := run_append h calls [c]

theorem capacity_run (h : History) (calls : List Call) : (h.run calls).capacity = h.capacity := by
  induction calls generalizing h with
  | nil => rfl
  | cons c calls ih =>
    show ((h.next c).run calls).capacity = _
    rw [ih]
    cases c with
    | push e => exact capacity_push h e
    | remove ids => rfl

/-! ## pushes by the number of their call -/

/-- the message that a call pushes -/
def Call.entry? : Call → Option ChatEntry
  | push e => some e
  | remove _ => none

/-- the messages that are pushed, each with the number of its call -/
def pushed (calls : List Call) : List (Nat × ChatEntry) :=
  calls.zipIdx.filterMap fun (c, n) => c.entry?.map fun e => (n, e)

theorem pushed_concat (calls : List Call) (c : Call) :
    pushed (calls ++ [c]) = pushed calls ++ (c.entry?.map fun e => (calls.length, e)).toList := by
  unfold pushed
  rw [List.zipIdx_append, List.filterMap_append]
  cases c <;> simp [Call.entry?]

theorem mem_pushed : x ∈ pushed calls ↔ ∃ c, calls[x.1]? = some c ∧ c.entry? = some x.2 := by
  unfold pushed
  rw [List.mem_filterMap]
  constructor
  · rintro ⟨⟨c, n⟩, hmem, hx⟩
    obtain ⟨e, he, rfl⟩ := Option.map_eq_some_iff.1 hx
    exact ⟨c, List.mem_zipIdx_iff_getElem?.1 hmem, he⟩
  · rintro ⟨c, hc, he⟩
    refine ⟨(c, x.1), List.mem_zipIdx_iff_getElem?.2 hc, ?_⟩
    simp [he]

theorem lt_of_mem_pushed (h : x ∈ pushed calls) : x.1 < calls.length := by
  obtain ⟨c, hc, -⟩ := mem_pushed.1 h
  exact (List.getElem?_eq_some_iff.1 hc).1

theorem pushed_ascending (calls : List Call) : (pushed calls).Pairwise fun x y => x.1 < y.1 := by
  induction calls using List.reverseRecOn with
  | nil => exact List.Pairwise.nil
  | append_singleton calls c ih =>
    rw [pushed_concat, List.pairwise_append]
    refine ⟨ih, ?_, ?_⟩
    · cases c <;> simp [Call.entry?]
    · intro x hx y hy
      have hlt := lt_of_mem_pushed hx
      cases c <;> simp_all [Call.entry?]

/-! ## fates -/

/-- what becomes of a message -/
inductive Fate where
  | held
  /-- returned by the push of this number, for want of room -/
  | evicted (call : Nat)
  /-- dropped by the removal of this number -/
  | dropped (call : Nat)
  deriving DecidableEq

/-- the number of the call by which a message leaves -/
def Fate.leaves? : Fate → Option Nat
  | held => none
  | evicted n => some n
  | dropped n => some n

/-- has not left before the call of this number -/
def Fate.lasts (f : Fate) (call : Nat) : Bool := f.leaves?.all fun n => decide (call ≤ n)

theorem Fate.lasts_of_leaves {f : Fate} {n : Nat} (h : f.leaves? = some n) (call : Nat) :
    f.lasts call = decide (call ≤ n) := by
  rw [lasts, h, Option.all_some]

theorem Fate.lasts_of_none {f : Fate} (h : f.leaves? = none) (call : Nat) :
    f.lasts call = true := by
  rw [lasts, h, Option.all_none]

/-- the messages that have not left by the end of these calls -/
def held (fate : Nat × ChatEntry → Fate) (calls : List Call) : List (Nat × ChatEntry) :=
  (pushed calls).filter fun x => (fate x).lasts calls.length

/-- the messages to which this happens -/
def meeting (fate : Nat × ChatEntry → Fate) (f : Fate) (calls : List Call) : List (Nat × ChatEntry) :=
  (pushed calls).filter fun x => fate x == f

theorem held_ascending (fate : Nat × ChatEntry → Fate) (calls : List Call) :
    (held fate calls).Pairwise fun x y => x.1 < y.1 := (pushed_ascending calls).filter _

/-- The first message is told from the others by the number of its call. -/
theorem filter_first {x : Nat × ChatEntry} {rest : List (Nat × ChatEntry)}
    (h : (x :: rest).Pairwise fun x y => x.1 < y.1) :
    (x :: rest).filter (fun y => y.1 == x.1) = [x] ∧
      (x :: rest).filter (fun y => !(y.1 == x.1)) = rest := by
  have hother : ∀ y ∈ rest, (y.1 == x.1) = false := by
    intro y hy
    have hlt := (List.pairwise_cons.1 h).1 y hy
    exact beq_eq_false_iff_ne.2 (Nat.ne_of_gt hlt)
  constructor
  · rw [List.filter_cons_of_pos (by simp), List.filter_eq_nil_iff.2]
    intro y hy
    simp [hother y hy]
  · rw [List.filter_cons_of_neg (by simp), List.filter_eq_self]
    intro y hy
    simp [hother y hy]

/-- A call that comes after these lets those leave whom it should, and says so.  A push lets the
oldest message leave if the history is full, and a removal all that are held under its numbers. -/
def Agrees (capacity : Nat) (fate : Nat × ChatEntry → Fate) (before : List Call) : Call → Prop
  | .push e =>
    meeting fate (.dropped before.length) before = [] ∧
      meeting fate (.evicted before.length) before =
        (if ((empty capacity).run before).length = max 1 capacity then
          (held fate before).take 1 else []) ∧
      (((empty capacity).run before).push e).2.toList =
        (meeting fate (.evicted before.length) before).map Prod.snd
  | .remove ids =>
    meeting fate (.evicted before.length) before = [] ∧
      meeting fate (.dropped before.length) before =
        ((held fate before).filter fun x => ids.contains x.2.messageId) ∧
      (((empty capacity).run before).remove ids).2 =
        (meeting fate (.dropped before.length) before).map fun x => x.2.messageId

/-- The history and all its answers are as these fates say. -/
structure Account (capacity : Nat) (calls : List Call) (fate : Nat × ChatEntry → Fate) : Prop where
  /-- a message leaves after it has come -/
  later : ∀ x n, (fate x).leaves? = some n → x.1 < n ∧ n < calls.length
  /-- what is held at any moment, in the order of the pushes -/
  entries : ∀ before, before <+: calls →
    ((empty capacity).run before).entries = (held fate before).map Prod.snd
  answers : ∀ before c, before ++ [c] <+: calls → Agrees capacity fate before c

variable {capacity : Nat} {fate : Nat × ChatEntry → Fate} {f g : Fate} {q : Nat × ChatEntry → Bool}

theorem length_run_empty_le (capacity : Nat) (calls : List Call) :
    ((empty capacity).run calls).length ≤ max 1 capacity := by
  have hle := ((empty capacity).run calls).length_le
  rw [capacity_run] at hle
  rwa [Nat.max_comm]

theorem account_nil (capacity : Nat) : Account capacity [] fun _ => .held where
  later x n h := nomatch h
  entries before h := by
    rw [List.prefix_nil.1 h]
    rfl
  answers before c h := by simp at h

/-! ## a call that settles fates -/

/-- These messages have left now. -/
def settle (fate : Nat × ChatEntry → Fate) (going : List (Nat × ChatEntry)) (f : Fate)
    (x : Nat × ChatEntry) : Fate :=
  if x ∈ going then f else fate x

namespace Account

/-- No fate that was known before names the call that comes now. -/
theorem leaves_ne (h : Account capacity calls fate) (x : Nat × ChatEntry) :
    (fate x).leaves? ≠ some calls.length := by
  intro hleaves
  have hlater := h.later x _ hleaves
  omega

theorem leaves_of_held (h : Account capacity calls fate) (hx : x ∈ held fate calls) :
    (fate x).leaves? = none := by
  have hlasts := (List.mem_filter.1 hx).2
  cases hleaves : (fate x).leaves? with
  | none => rfl
  | some n =>
    have hlater := h.later _ _ hleaves
    rw [Fate.lasts_of_leaves hleaves, decide_eq_true_eq] at hlasts
    omega

/-- What has been held until now was held before. -/
theorem held_settle (h : Account capacity calls fate) (hf : f.leaves? = some calls.length)
    (hbefore : before <+: calls) :
    held (settle fate ((held fate calls).filter q) f) before = held fate before := by
  apply List.filter_congr
  intro x hx
  unfold settle
  split
  · rename_i hgoing
    have hnone := h.leaves_of_held (List.mem_of_mem_filter hgoing)
    rw [Fate.lasts_of_leaves hf, Fate.lasts_of_none hnone, decide_eq_true_eq]
    exact hbefore.length_le
  · rfl

/-- Who left before left then. -/
theorem meeting_settle (h : Account capacity calls fate) (hf : f.leaves? = some calls.length)
    (before : List Call) {n : Nat} (hg : g.leaves? = some n) (hn : n < calls.length) :
    meeting (settle fate ((held fate calls).filter q) f) g before = meeting fate g before := by
  apply List.filter_congr
  intro x hx
  unfold settle
  split
  · rename_i hgoing
    have hnone := h.leaves_of_held (List.mem_of_mem_filter hgoing)
    have hfg : f ≠ g := by
      rintro rfl
      rw [hf, Option.some.injEq] at hg
      omega
    have hfate : fate x ≠ g := by
      intro hsame
      rw [hsame, hg] at hnone
      cases hnone
    rw [beq_eq_false_iff_ne.2 hfg, beq_eq_false_iff_ne.2 hfate]
  · rfl

theorem lt_of_going (hx : x ∈ (held fate calls).filter q) : x.1 < calls.length :=
  lt_of_mem_pushed (List.mem_of_mem_filter (List.mem_of_mem_filter hx))

theorem mem_going (hx : x ∈ pushed calls) :
    x ∈ (held fate calls).filter q ↔ ((fate x).lasts calls.length && q x) = true := by
  unfold held
  rw [List.filter_filter, List.mem_filter, Bool.and_comm]
  exact and_iff_right hx

/-- By this call those leave that are said to. -/
theorem meeting_settle_self (h : Account capacity calls fate)
    (hf : f.leaves? = some calls.length) :
    meeting (settle fate ((held fate calls).filter q) f) f calls = (held fate calls).filter q := by
  have hpick : ∀ x ∈ pushed calls,
      (settle fate ((held fate calls).filter q) f x == f) =
        (q x && (fate x).lasts calls.length) := by
    intro x hx
    unfold settle
    split
    · rename_i hgoing
      rw [beq_self_eq_true, Bool.and_comm, (mem_going hx).1 hgoing]
    · rename_i hnot
      have hfate : fate x ≠ f := by
        intro hsame
        apply h.leaves_ne x
        rw [hsame, hf]
      rw [beq_eq_false_iff_ne.2 hfate, Bool.and_comm]
      exact (Bool.eq_false_iff.2 (mt (mem_going hx).2 hnot)).symm
  rw [meeting, List.filter_congr hpick, held, List.filter_filter]

theorem meeting_settle_of_ne (h : Account capacity calls fate) (hg : g.leaves? = some calls.length)
    (hne : f ≠ g) : meeting (settle fate ((held fate calls).filter q) f) g calls = [] := by
  apply List.filter_eq_nil_iff.2
  intro x hx
  unfold settle
  split
  · simpa using hne
  · intro hsame
    apply h.leaves_ne x
    rw [beq_iff_eq.1 hsame, hg]

theorem lasts_settle (h : Account capacity calls fate) (hf : f.leaves? = some calls.length)
    (hx : x ∈ pushed calls) :
    (settle fate ((held fate calls).filter q) f x).lasts (calls.length + 1) =
      (!q x && (fate x).lasts calls.length) := by
  unfold settle
  split
  · rename_i hgoing
    have hq : q x = true := (List.mem_filter.1 hgoing).2
    rw [Fate.lasts_of_leaves hf, hq]
    simp
  · rename_i hnot
    rw [mem_going hx] at hnot
    cases hleaves : (fate x).leaves? with
    | some n =>
      have hlater := h.later x n hleaves
      rw [Fate.lasts_of_leaves hleaves, Fate.lasts_of_leaves hleaves, decide_eq_false (by omega),
        decide_eq_false (by omega), Bool.and_false]
    | none =>
      rw [Fate.lasts_of_none hleaves] at hnot ⊢
      rw [Fate.lasts_of_none hleaves]
      simpa using hnot

/-- What is pushed by this call does not leave by it. -/
theorem lasts_new (h : Account capacity calls fate) (e : ChatEntry) :
    (settle fate ((held fate calls).filter q) f (calls.length, e)).lasts (calls.length + 1) =
      true := by
  have hnot : (calls.length, e) ∉ (held fate calls).filter q := by
    intro hmem
    exact Nat.lt_irrefl _ (lt_of_going hmem)
  rw [settle, if_neg hnot]
  apply Fate.lasts_of_none
  rw [Option.eq_none_iff_forall_ne_some]
  intro n hn
  have hlater := h.later _ n hn
  omega

theorem held_settle_concat (h : Account capacity calls fate) (hf : f.leaves? = some calls.length)
    (c : Call) :
    held (settle fate ((held fate calls).filter q) f) (calls ++ [c]) =
      ((held fate calls).filter fun x => !q x) ++
        (c.entry?.map fun e => (calls.length, e)).toList := by
  have hnew : ∀ x ∈ (c.entry?.map fun e => (calls.length, e)).toList,
      (settle fate ((held fate calls).filter q) f x).lasts (calls.length + 1) = true := by
    intro x hx
    obtain ⟨e, -, rfl⟩ := Option.map_eq_some_iff.1 (Option.mem_toList.1 hx)
    exact h.lasts_new e
  have hold : (held fate calls).filter (fun x => !q x) =
      (pushed calls).filter fun x => !q x && (fate x).lasts calls.length := List.filter_filter
  rw [hold, held, pushed_concat, List.filter_append, List.length_append, List.length_singleton,
    List.filter_congr fun x hx => h.lasts_settle hf hx, List.filter_eq_self.2 hnew]

/-- What was answered before is still as the fates say. -/
theorem agrees_settle (h : Account capacity calls fate) (hf : f.leaves? = some calls.length)
    {before : List Call} {c : Call} (hbefore : before ++ [c] <+: calls) :
    Agrees capacity (settle fate ((held fate calls).filter q) f) before c := by
  have hprefix : before <+: calls := (List.prefix_append before [c]).trans hbefore
  have hlt : before.length < calls.length := by
    have hle := hbefore.length_le
    rw [List.length_append, List.length_singleton] at hle
    omega
  have hanswers := h.answers before c hbefore
  have hheld := h.held_settle (q := q) hf hprefix
  have hevicted := h.meeting_settle (g := .evicted before.length) (q := q) hf before rfl hlt
  have hdropped := h.meeting_settle (g := .dropped before.length) (q := q) hf before rfl hlt
  unfold Agrees at hanswers ⊢
  rwa [hheld, hevicted, hdropped]

/-- One more call, by which those leave whom `q` picks out of what is held. -/
theorem concat (h : Account capacity calls fate) (hf : f.leaves? = some calls.length) {c : Call}
    (hentries : (((empty capacity).run calls).next c).entries =
      ((held fate calls).filter fun x => !q x).map Prod.snd ++ c.entry?.toList)
    (hagrees : Agrees capacity (settle fate ((held fate calls).filter q) f) calls c) :
    Account capacity (calls ++ [c]) (settle fate ((held fate calls).filter q) f) where
  later x n hleaves := by
    rw [List.length_append, List.length_singleton]
    unfold settle at hleaves
    split at hleaves
    · rename_i hgoing
      have hlt := lt_of_going hgoing
      rw [hf, Option.some.injEq] at hleaves
      omega
    · have hlater := h.later x n hleaves
      omega
  entries before hbefore := by
    rcases List.prefix_concat_iff.1 hbefore with rfl | hbefore
    · rw [run_concat, hentries, h.held_settle_concat hf, List.map_append]
      cases c <;> rfl
    · rw [h.held_settle hf hbefore, h.entries before hbefore]
  answers before d hbefore := by
    rcases List.prefix_concat_iff.1 hbefore with hlast | hbefore
    · obtain ⟨rfl, hd⟩ := List.append_inj' hlast rfl
      cases hd
      exact hagrees
    · exact h.agrees_settle hf hbefore

theorem exists_push (h : Account capacity calls fate) (e : ChatEntry) :
    ∃ fate, Account capacity (calls ++ [.push e]) fate := by
  have hentries := h.entries calls List.prefix_rfl
  have hcapacity := capacity_run (empty capacity) calls
  have hmax : max 1 capacity = (empty capacity).capacity := Nat.max_comm 1 capacity
  have hf : (Fate.evicted calls.length).leaves? = some calls.length := rfl
  have hdropped : Fate.evicted calls.length ≠ .dropped calls.length := by simp
  by_cases hroom : ((empty capacity).run calls).length < ((empty capacity).run calls).capacity
  · -- there is room, and nobody leaves
    have hnone : (held fate calls).filter (fun _ => false) = [] := by simp
    refine ⟨_, h.concat (q := fun _ => false) hf ?_ ?_⟩
    · show (((empty capacity).run calls).push e).1.entries = _
      rw [(push_of_room hroom e).1, hentries]
      simp [Call.entry?]
    · refine ⟨h.meeting_settle_of_ne rfl hdropped, ?_, ?_⟩
      · rw [h.meeting_settle_self hf, h.held_settle hf List.prefix_rfl, hnone, if_neg (by omega)]
      · rw [h.meeting_settle_self hf, hnone, (push_of_room hroom e).2]
        rfl
  · -- the first that is held leaves
    have hfull : ((empty capacity).run calls).length = max 1 capacity := by
      have hle := length_run_empty_le capacity calls
      omega
    obtain ⟨x, rest, hheld⟩ : ∃ x rest, held fate calls = x :: rest := by
      apply List.exists_cons_of_ne_nil
      intro hnil
      rw [hnil] at hentries
      have hzero : ((empty capacity).run calls).length = 0 := by
        unfold length
        rw [hentries]
        rfl
      omega
    have hascending := held_ascending fate calls
    rw [hheld] at hascending
    obtain ⟨hgone, hrest⟩ := filter_first hascending
    rw [← hheld] at hgone hrest
    rw [hheld] at hentries
    refine ⟨_, h.concat (q := fun y => y.1 == x.1) hf ?_ ?_⟩
    · show (((empty capacity).run calls).push e).1.entries = _
      rw [(push_of_full hroom e).1, hentries, hrest]
      rfl
    · refine ⟨h.meeting_settle_of_ne rfl hdropped, ?_, ?_⟩
      · rw [h.meeting_settle_self hf, h.held_settle hf List.prefix_rfl, hgone, if_pos hfull, hheld]
        rfl
      · rw [h.meeting_settle_self hf, hgone, (push_of_full hroom e).2, hentries]
        rfl

theorem exists_remove (h : Account capacity calls fate) (ids : List Int) :
    ∃ fate, Account capacity (calls ++ [.remove ids]) fate := by
  have hentries := h.entries calls List.prefix_rfl
  have hf : (Fate.dropped calls.length).leaves? = some calls.length := rfl
  have hevicted : Fate.dropped calls.length ≠ .evicted calls.length := by simp
  refine ⟨_, h.concat (q := fun x => ids.contains x.2.messageId) hf ?_ ?_⟩
  · show ((empty capacity).run calls).entries.filter _ = _
    rw [hentries, List.filter_map]
    simp [Call.entry?, Function.comp_def]
  · refine ⟨h.meeting_settle_of_ne rfl hevicted, ?_, ?_⟩
    · rw [h.meeting_settle_self hf, h.held_settle hf List.prefix_rfl]
    · show (((empty capacity).run calls).entries.filter _).map _ = _
      rw [h.meeting_settle_self hf, hentries, List.filter_map, List.map_map]
      rfl

end Account

theorem exists_account (capacity : Nat) (calls : List Call) :
    ∃ fate, Account capacity calls fate := by
  induction calls using List.reverseRecOn with
  | nil => exact ⟨_, account_nil capacity⟩
  | append_singleton calls c ih =>
    obtain ⟨fate, h⟩ := ih
    cases c with
    | push e => exact h.exists_push e
    | remove ids => exact h.exists_remove ids

end Matchmaker.Chat.History
