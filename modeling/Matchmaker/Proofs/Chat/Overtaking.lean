import Matchmaker.Proofs.Chat.Room

/-!
# Deleted messages that are shown

A removal marks messages in the store and then takes them out of the recent chat.  It may come to
the store after a call that has yet to bring one of them, and end before that call: then there was
nothing to take out, and the message comes when its removal is over (`Overtaken`).

In no other way does a message that is marked stay in the recent chat (`deleted_iff_overtaken`).  A
message that is marked while it is shown has its removal on the way, and one that is marked while a
call brings it has a removal on the way that is later than the call (`Accounted`).
-/

namespace Matchmaker.Room

open Chat (Log)

variable {owner : Nat → Profile} {r : Room} {x : Step} {i j : Nat} {e : ChatEntry} {id : Int}

/-- a call on its way that brings a message -/
def Brings (r : Room) (i : Nat) (e : ChatEntry) : Prop :=
  ∃ rest, r.rest? i = some rest ∧ e ∈ rest.copies

/-- a removal on its way that names a message -/
def Names (r : Room) (j : Nat) (id : Int) : Prop :=
  ∃ ids, r.rest? j = some (.remove ids) ∧ id ∈ ids

/-- a removal of the message was at the store after a call that brings it, and ended before -/
def Overtaken (owner : Nat → Profile) (r : Room) (steps : List Step) (e : ChatEntry) : Prop :=
  ∃ before after i j, steps = before ++ .finish j :: after ∧ i < j ∧
    (r.run owner before).Brings i e ∧ (r.run owner before).Names j e.messageId

theorem Overtaken.concat {steps : List Step} (h : Overtaken owner r steps e) (x : Step) :
    Overtaken owner r (steps ++ [x]) e := by
  obtain ⟨before, after, i, j, rfl, h⟩ := h
  exact ⟨before, after ++ [x], i, j, by rw [List.append_assoc, List.cons_append], h⟩

theorem overtaken_concat {steps : List Step} (hij : i < j) (hi : (r.run owner steps).Brings i e)
    (hj : (r.run owner steps).Names j e.messageId) :
    Overtaken owner r (steps ++ [.finish j]) e := ⟨steps, [], i, j, rfl, hij, hi, hj⟩

/-! ## one step -/

theorem Brings.lt (h : r.Brings i e) : i < r.errands.length := by
  obtain ⟨rest, hrest, -⟩ := h
  exact lt_of_rest? hrest

theorem Names.next (h : r.Names j id) (owner : Nat → Profile) (x : Step) :
    (r.next owner x).Names j id ∨ x = .finish j := by
  obtain ⟨ids, hrest, hid⟩ := h
  rcases rest?_next owner x hrest with hrest | hx
  · exact .inl ⟨ids, hrest, hid⟩
  · exact .inr hx

/-- What is shown was shown before, or a call has just brought it. -/
theorem mem_history_next (h : e ∈ (r.next owner x).history) :
    e ∈ r.history ∨ ∃ i, x = .finish i ∧ r.Brings i e := by
  have hmove := move_next owner r x
  generalize r.next owner x = u at hmove h
  cases hmove with
  | finishes i rest hx hrest =>
    rcases List.mem_append.1 ((history_finished i rest).subset h) with hold | hnew
    · exact .inl hold
    · exact .inr ⟨i, hx, rest, hrest, hnew⟩
  | acts a ha =>
    rw [history_act ha] at h
    exact .inl h
  | _ => exact .inl h

/-- What is shown when a removal has just ended is not named by it. -/
theorem not_names_of_mem (h : e ∈ (r.next owner (.finish j)).history) :
    ¬ r.Names j e.messageId := by
  rintro ⟨ids, hrest, hid⟩
  rw [next_finish hrest] at h
  exact not_mem_of_removed h hid

/-- What is marked was marked before, or a removal of it has just been at the store. -/
theorem isDeleted_next (h : (r.next owner x).log.IsDeleted id) :
    r.log.IsDeleted id ∨ ∃ j, r.errands.length ≤ j ∧ (r.next owner x).Names j id := by
  have hmove := move_next owner r x
  generalize r.next owner x = u at hmove h
  cases hmove with
  | saves e he => exact .inl ((Log.isDeleted_save he).1 h)
  | marks ids =>
    rcases Log.isDeleted_delete.1 h with hold | ⟨hid, -⟩
    · exact .inl hold
    · exact .inr ⟨r.errands.length, Nat.le_refl _, ids, rest?_begun_self _ _, hid⟩
  | loads limit hx => exact .inl h
  | finishes i rest hx hrest => exact .inl h
  | acts a ha => exact .inl h
  | still => exact .inl h

/-- Marks stay. -/
theorem isDeleted_next_of (h : r.log.IsDeleted id) : (r.next owner x).log.IsDeleted id := by
  have hmove := move_next owner r x
  generalize r.next owner x = u at hmove
  cases hmove with
  | saves e he => exact (Log.isDeleted_save he).2 h
  | marks ids => exact Log.isDeleted_delete.2 (.inl h)
  | _ => exact h

/-- A call that has just been at the store brings no message that is marked. -/
theorem brings_next (hr : r.Sound) (h : (r.next owner x).Brings i e)
    (hdeleted : (r.next owner x).log.IsDeleted e.messageId) : r.Brings i e := by
  obtain ⟨rest, hrest, he⟩ := h
  have hmove := move_next owner r x
  generalize r.next owner x = u at hmove hrest hdeleted
  cases hmove with
  | saves d hd =>
    rcases rest?_begun_iff.1 hrest with ⟨-, rfl⟩ | hold
    · -- the number is new, so nothing was marked under it
      cases List.mem_singleton.1 he
      obtain ⟨f, hf, -⟩ := (Log.isDeleted_save hd).1 hdeleted
      have hle := hr.numbered.le_of_get? hf
      rw [Log.messageId_save] at hle
      omega
    · exact ⟨rest, hold, he⟩
  | loads limit hx =>
    rcases rest?_begun_iff.1 hrest with ⟨-, rfl⟩ | hold
    · rw [Rest.copies, Log.recent_eq_drop] at he
      exact absurd hdeleted (hr.numbered.not_isDeleted_of_current (List.mem_of_mem_drop he))
    · exact ⟨rest, hold, he⟩
  | marks ids =>
    rcases rest?_begun_iff.1 hrest with ⟨-, rfl⟩ | hold
    · cases he
    · exact ⟨rest, hold, he⟩
  | finishes j other hx hother => exact ⟨rest, ((rest?_finished_iff hother).1 hrest).2, he⟩
  | acts a ha => exact ⟨rest, hrest, he⟩
  | still => exact ⟨rest, hrest, he⟩

/-! ## messages that are overtaken -/

/-- for every message that is marked and shown, or brought, a removal is on the way; or it was
overtaken -/
structure Accounted (owner : Nat → Profile) (r : Room) (steps : List Step) : Prop where
  shown : ∀ e ∈ (r.run owner steps).history, (r.run owner steps).log.IsDeleted e.messageId →
    Overtaken owner r steps e ∨ ∃ j, (r.run owner steps).Names j e.messageId
  brought : ∀ i e, (r.run owner steps).Brings i e →
    (r.run owner steps).log.IsDeleted e.messageId →
    Overtaken owner r steps e ∨ ∃ j, i < j ∧ (r.run owner steps).Names j e.messageId

theorem Accounted.concat {steps : List Step} (h : Accounted owner r steps)
    (hsound : (r.run owner steps).Sound) (x : Step) : Accounted owner r (steps ++ [x]) := by
  constructor
  · intro e he hdeleted
    rw [run_concat] at he hdeleted ⊢
    rcases isDeleted_next hdeleted with hold | ⟨j, -, hnames⟩
    · rcases mem_history_next he with hshown | ⟨i, rfl, hbrings⟩
      · rcases h.shown e hshown hold with hover | ⟨j, hnames⟩
        · exact .inl (hover.concat x)
        · rcases hnames.next owner x with hlater | rfl
          · exact .inr ⟨j, hlater⟩
          · exact absurd hnames (not_names_of_mem he)
      · rcases h.brought i e hbrings hold with hover | ⟨j, hij, hnames⟩
        · exact .inl (hover.concat _)
        · rcases hnames.next owner (.finish i) with hlater | hx
          · exact .inr ⟨j, hlater⟩
          · cases hx
            exact absurd hij (Nat.lt_irrefl i)
    · exact .inr ⟨j, hnames⟩
  · intro i e hbrings hdeleted
    rw [run_concat] at hbrings hdeleted ⊢
    have hbefore := brings_next hsound hbrings hdeleted
    rcases isDeleted_next hdeleted with hold | ⟨j, hj, hnames⟩
    · rcases h.brought i e hbefore hold with hover | ⟨j, hij, hnames⟩
      · exact .inl (hover.concat x)
      · rcases hnames.next owner x with hlater | rfl
        · exact .inr ⟨j, hij, hlater⟩
        · exact .inl (overtaken_concat hij hbefore hnames)
    · exact .inr ⟨j, Nat.lt_of_lt_of_le hbefore.lt hj, hnames⟩

theorem accounted_run (config : Config) (owner : Nat → Profile) (writes : List Log.Write)
    (steps : List Step) : Accounted owner (opened config (.written writes)) steps := by
  induction steps using List.reverseRecOn with
  | nil =>
    refine ⟨fun e he => ?_, fun i e h => ?_⟩
    · cases he
    · exact absurd h.lt (Nat.not_lt_zero i)
  | append_singleton steps x ih => exact ih.concat (sound_run config owner writes steps) x

/-! ## removals that overtake -/

/-- what a later removal names is marked -/
structure Marked (r : Room) : Prop where
  sound : r.Sound
  marked : ∀ i j rest ids, i < j → r.plan? i = some rest → r.plan? j = some (.remove ids) →
    ∀ e ∈ rest.copies, e.messageId ∈ ids → r.log.IsDeleted e.messageId

theorem Marked.next (h : r.Marked) (owner : Nat → Profile) (x : Step) :
    (r.next owner x).Marked := by
  refine ⟨h.sound.next owner x, fun i j rest ids hij hi hj e he hid => ?_⟩
  have hmove := move_next owner r x
  generalize r.next owner x = u at hmove hi hj
  cases hmove with
  | saves d hd =>
    obtain ⟨hearlier, hother | hlater⟩ := plan?_begun_of_lt hij hi hj
    · cases hother
    · exact (Log.isDeleted_save hd).2 (h.marked i j rest ids hij hearlier hlater e he hid)
  | loads limit hx =>
    obtain ⟨hearlier, hother | hlater⟩ := plan?_begun_of_lt hij hi hj
    · cases hother
    · exact h.marked i j rest ids hij hearlier hlater e he hid
  | marks others =>
    obtain ⟨hearlier, hother | hlater⟩ := plan?_begun_of_lt hij hi hj
    · cases hother
      exact Log.isDeleted_delete.2 (.inr ⟨hid, h.sound.stored i rest hearlier e he⟩)
    · exact Log.isDeleted_delete.2 (.inl (h.marked i j rest ids hij hearlier hlater e he hid))
  | finishes k other hx hother =>
    rw [plan?_finished hother] at hi hj
    exact h.marked i j rest ids hij hi hj e he hid
  | acts a ha => exact h.marked i j rest ids hij hi hj e he hid
  | still => exact h.marked i j rest ids hij hi hj e he hid

theorem marked_run (config : Config) (owner : Nat → Profile) (writes : List Log.Write)
    (steps : List Step) : ((opened config (.written writes)).run owner steps).Marked := by
  refine run_induction (fun _ x h => h.next owner x)
    ⟨sound_opened config (Log.numbered_written writes), fun i j rest ids _ hi => ?_⟩ steps
  cases hi

/-- A message that was overtaken is marked for good. -/
theorem Overtaken.isDeleted {steps : List Step}
    (hmarked : ∀ before, (r.run owner before).Marked) (h : Overtaken owner r steps e) :
    (r.run owner steps).log.IsDeleted e.messageId := by
  obtain ⟨before, after, i, j, rfl, hij, ⟨rest, hi, he⟩, ids, hj, hid⟩ := h
  have hbefore : (r.run owner before).log.IsDeleted e.messageId :=
    (hmarked before).marked i j rest ids hij (plan?_of_rest? hi) (plan?_of_rest? hj) e he hid
  rw [run_append]
  exact run_induction (P := fun u => u.log.IsDeleted e.messageId)
    (fun _ _ h => isDeleted_next_of h) hbefore _

/-! ## every run -/

/-- **A deleted message is shown if and only if its removal has overtaken it.**  Whenever no call is
on its way, a message of the recent chat is marked in the store exactly if a removal of it was at
the store after a call that brought it, and ended before that call. -/
theorem deleted_iff_overtaken (config : Config) (owner : Nat → Profile) (writes : List Log.Write)
    (steps : List Step)
    (hquiet : ((opened config (.written writes)).run owner steps).Quiet) (e : ChatEntry)
    (he : e ∈ ((opened config (.written writes)).run owner steps).history) :
    ((opened config (.written writes)).run owner steps).log.IsDeleted e.messageId ↔
      Overtaken owner (opened config (.written writes)) steps e := by
  constructor
  · intro hdeleted
    have haccounted := accounted_run config owner writes steps
    rcases haccounted.shown e he hdeleted with hover | ⟨j, ids, hj, -⟩
    · exact hover
    · rw [hquiet.rest? j] at hj
      cases hj
  · exact fun hover => hover.isDeleted (marked_run config owner writes)

end Matchmaker.Room

/-! ## a message that is removed before it is shown

It is saved, marked and taken out of a history that does not have it, and then it is posted. -/

namespace Matchmaker.Sample

def removedFirst : List Step :=
  [.save author midnight "hi", .mark [1], .finish 1, .finish 0]

def greeting : ChatEntry := { Service.draft author midnight "hi" with messageId := 1 }

end Matchmaker.Sample

namespace Matchmaker.Room

open Chat (Log)

theorem deleted_iff_overtaken_sample :
    Overtaken Sample.owner (opened {} (.written [])) Sample.removedFirst Sample.greeting :=
  (deleted_iff_overtaken {} Sample.owner [] Sample.removedFirst (by decide +kernel) Sample.greeting
    (by decide +kernel)).1 ⟨{ Sample.greeting with deleted := true }, by decide +kernel, rfl⟩

/-- A deleted message may stay in the recent chat when nothing is on its way any more. -/
theorem deleted_message_stays :
    ¬ ∀ (config : Config) (owner : Nat → Profile) (writes : List Log.Write) (steps : List Step),
      ((opened config (.written writes)).run owner steps).Quiet →
      ∀ e ∈ ((opened config (.written writes)).run owner steps).history,
        ¬ ((opened config (.written writes)).run owner steps).log.IsDeleted e.messageId := by
  intro h
  refine h {} Sample.owner [] Sample.removedFirst ?_ Sample.greeting ?_
    ⟨{ Sample.greeting with deleted := true }, ?_, rfl⟩
  · decide +kernel
  · decide +kernel
  · decide +kernel

end Matchmaker.Room
