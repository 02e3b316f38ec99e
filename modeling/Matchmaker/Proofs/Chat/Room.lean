import Matchmaker.Proofs.Chat.Log
import Matchmaker.Proofs.Coordinator.RecentChat
import Matchmaker.Proofs.Run.Match
import Matchmaker.Service

/-!
# Calls that come between one another

A call of the service that changes the chat goes to two places, one after the other: to the store
first, and then to the coordinator.  Nothing holds both, so while a call is between the two, others
may do either.  A `Room` is a coordinator with its passes, a store in memory, and the calls that
have been to the store, each with what it has yet to do (`Rest`).  They are told apart by the order
in which they were there.  Every interleaving of any number of calls, and of all else that happens
to the coordinator, is a list of `Step`s.

What a removal does before it marks messages only decides which ones, so a step that marks may name
any.  A call that is not interrupted is a run of its two steps (`perform_runs`).
-/

namespace Matchmaker

open Chat (Log)

/-- fills the history, posts or removes messages -/
def Action.isChat : Action → Bool
  | .seed _ => true
  | .message _ => true
  | .purge _ => true
  | _ => false

/-- Whatever else happens, the recent chat stays. -/
theorem World.chat_outcome (owner : Nat → Profile) (w : World) {a : Action}
    (ha : a.isChat = false) : (w.outcome owner a).state.chat = w.coordinator.chat := by
  cases a with
  | disconnect n =>
    show (w.coordinator.disconnect _ n).state.chat = _
    unfold Coordinator.disconnect
    split
    · exact Coordinator.chat_remove _ _
    · rfl
  | evict now lastSeen => exact Coordinator.chat_removeEach _ _
  | enqueue p servers =>
    show ((w.coordinator.enqueue? p servers).getD _).state.chat = _
    rw [Coordinator.enqueue?_eq]
    split <;> rfl
  | leave p servers =>
    show (w.coordinator.leave p servers).state.chat = _
    rw [Coordinator.leave_eq]
    split <;> rfl
  | report feed =>
    cases feed with
    | error e => rfl
    | ok feed =>
      show (w.coordinator.reconcile feed).state.chat = _
      rw [Coordinator.reconcile_eq]
      split <;> rfl
  | proceed i lookup =>
    show (w.resumed i lookup).1.state.chat = _
    cases hl : w.started? i lookup with
    | none =>
      rw [resumed_of_not_started hl]
      rfl
    | some l =>
      obtain ⟨_, _, o, -, -, hstart, hresumed⟩ := resumed_of_started hl
      obtain ⟨-, rfl⟩ := Coordinator.startMatch?_eq_some_iff.1 hstart
      rw [hresumed]
      rfl
  | updateChatStatus p status reason => exact Coordinator.chat_updateChatStatus _ _ _ _
  | seed entries => cases ha
  | message e => cases ha
  | purge ids => cases ha
  | _ => rfl

/-- what a call has yet to do when it has been to the store -/
inductive Rest where
  | post (e : ChatEntry)
  | seed (entries : List ChatEntry)
  | remove (ids : List Int)
  deriving DecidableEq

namespace Rest

def action : Rest → Action
  | post e => .message e
  | seed entries => .seed entries
  | remove ids => .purge ids

/-- the messages that it takes into the history -/
def copies : Rest → List ChatEntry
  | post e => [e]
  | seed entries => entries
  | remove _ => []

end Rest

/-- a call that has been to the store -/
structure Errand where
  rest : Rest
  ended : Bool
  deriving DecidableEq

structure Room where
  world : World
  log : Log
  /-- in the order in which they have been to the store -/
  errands : List Errand

/-- what happens without being interrupted -/
inductive Step where
  /-- a message is checked and saved -/
  | save (author : Session) (createdOn : Timestamp) (body : String)
  /-- the newest stored messages are looked up for the history -/
  | load (limit : Nat)
  /-- messages are marked as deleted -/
  | mark (ids : List Int)
  /-- a call that has been to the store does what it has yet to do -/
  | finish (errand : Nat)
  /-- the coordinator does something else -/
  | act (a : Action)

namespace Room

def opened (config : Config) (log : Log) : Room := ⟨.start config, log, []⟩

def history (r : Room) : List ChatEntry := r.world.coordinator.chat.entries

/-- the draft of a message that its author may post -/
def draft? (author : Session) (createdOn : Timestamp) (body : String) : Option ChatEntry :=
  if author.chatStatus.canPost then
    match Chat.sanitize body with
    | .ok text => some (Service.draft author createdOn text)
    | .error _ => none
  else none

/-- what a call has yet to do -/
def rest? (r : Room) (i : Nat) : Option Rest :=
  r.errands[i]?.bind fun x => if x.ended then none else some x.rest

/-- a call comes from the store -/
def begun (r : Room) (log : Log) (rest : Rest) : Room :=
  ⟨r.world, log, r.errands ++ [⟨rest, false⟩]⟩

/-- a call comes to its end -/
def finished (owner : Nat → Profile) (r : Room) (i : Nat) (rest : Rest) : Room :=
  ⟨r.world.next owner rest.action, r.log, r.errands.set i ⟨rest, true⟩⟩

def next (owner : Nat → Profile) (r : Room) : Step → Room
  | .save author createdOn body =>
    match draft? author createdOn body with
    | some e => r.begun (r.log.save e).2 (.post (r.log.save e).1)
    | none => r
  | .load limit => r.begun r.log (.seed (r.log.recent limit))
  | .mark ids => r.begun (r.log.delete ids) (.remove ids)
  | .finish i =>
    match r.rest? i with
    | some rest => r.finished owner i rest
    | none => r
  | .act a => if a.isChat then r else { r with world := r.world.next owner a }

/-- what a step asks of the connections -/
def effects (owner : Nat → Profile) (r : Room) : Step → List Effect
  | .finish i =>
    match r.rest? i with
    | some rest => (r.world.outcome owner rest.action).effects
    | none => []
  | .act a => if a.isChat then [] else (r.world.outcome owner a).effects
  | _ => []

def run (owner : Nat → Profile) (r : Room) (steps : List Step) : Room := steps.foldl (next owner) r

theorem run_append (owner : Nat → Profile) (r : Room) (steps more : List Step) :
    r.run owner (steps ++ more) = (r.run owner steps).run owner more := List.foldl_append

theorem run_concat (owner : Nat → Profile) (r : Room) (steps : List Step) (x : Step) :
    r.run owner (steps ++ [x]) = (r.run owner steps).next owner x := List.foldl_append

/-- What holds at first and is kept by every step holds after every run. -/
theorem run_induction {owner : Nat → Profile} {P : Room → Prop}
    (step : ∀ r x, P r → P (r.next owner x)) {r : Room} (h : P r) (steps : List Step) :
    P (r.run owner steps) := by
  induction steps generalizing r with
  | nil => exact h
  | cons x steps ih => exact ih (step r x h)

/-! ## what a step can do -/

variable {owner : Nat → Profile} {r : Room} {x : Step}

theorem next_save {author : Session} {createdOn : Timestamp} {body : String} {e : ChatEntry}
    (h : draft? author createdOn body = some e) :
    r.next owner (.save author createdOn body) =
      r.begun (r.log.save e).2 (.post (r.log.save e).1) := by
  simp only [next, h]

theorem next_finish {i : Nat} {rest : Rest} (h : r.rest? i = some rest) :
    r.next owner (.finish i) = r.finished owner i rest := by
  simp only [next, h]

theorem next_finish_of_none {i : Nat} (h : r.rest? i = none) : r.next owner (.finish i) = r := by
  simp only [next, h]

theorem effects_finish {i : Nat} {rest : Rest} (h : r.rest? i = some rest) :
    r.effects owner (.finish i) = (r.world.outcome owner rest.action).effects := by
  simp only [effects, h]

theorem next_act {a : Action} (h : a.isChat = false) :
    r.next owner (.act a) = { r with world := r.world.next owner a } := by
  simp only [next, h, Bool.false_eq_true, if_false]

/-- the ways in which a step can end -/
inductive Move (owner : Nat → Profile) (r : Room) (x : Step) : Room → Prop where
  | saves (e : ChatEntry) (he : e.deleted = false) :
      Move owner r x (r.begun (r.log.save e).2 (.post (r.log.save e).1))
  | loads (limit : Nat) (hx : x = .load limit) :
      Move owner r x (r.begun r.log (.seed (r.log.recent limit)))
  | marks (ids : List Int) : Move owner r x (r.begun (r.log.delete ids) (.remove ids))
  | finishes (i : Nat) (rest : Rest) (hx : x = .finish i) (h : r.rest? i = some rest) :
      Move owner r x (r.finished owner i rest)
  | acts (a : Action) (ha : a.isChat = false) :
      Move owner r x { r with world := r.world.next owner a }
  | still : Move owner r x r

theorem deleted_of_draft? {author : Session} {createdOn : Timestamp} {body : String} {e : ChatEntry}
    (h : draft? author createdOn body = some e) : e.deleted = false := by
  unfold draft? at h
  split at h
  · split at h
    · cases h
      rfl
    · cases h
  · cases h

theorem move_next (owner : Nat → Profile) (r : Room) (x : Step) :
    Move owner r x (r.next owner x) := by
  cases x with
  | save author createdOn body =>
    cases hdraft : draft? author createdOn body with
    | none =>
      simp only [next, hdraft]
      exact .still
    | some e =>
      rw [next_save hdraft]
      exact .saves e (deleted_of_draft? hdraft)
  | load limit => exact .loads limit rfl
  | mark ids => exact .marks ids
  | finish i =>
    cases hrest : r.rest? i with
    | none =>
      rw [next_finish_of_none hrest]
      exact .still
    | some rest =>
      rw [next_finish hrest]
      exact .finishes i rest rfl hrest
  | act a =>
    cases ha : a.isChat with
    | true =>
      simp only [next, ha]
      exact .still
    | false =>
      rw [next_act ha]
      exact .acts a ha

/-! ## calls -/

/-- what a call has to do after it has been to the store, or has done -/
def plan? (r : Room) (i : Nat) : Option Rest := r.errands[i]?.map Errand.rest

theorem rest?_eq_some_iff {i : Nat} {rest : Rest} :
    r.rest? i = some rest ↔ r.errands[i]? = some ⟨rest, false⟩ := by
  unfold rest?
  cases r.errands[i]? with
  | none => simp
  | some x => cases x with | mk other ended => cases ended <;> simp

theorem plan?_eq_some_iff {i : Nat} {rest : Rest} :
    r.plan? i = some rest ↔ ∃ ended, r.errands[i]? = some ⟨rest, ended⟩ := by
  unfold plan?
  rw [Option.map_eq_some_iff]
  constructor
  · rintro ⟨⟨other, ended⟩, hx, rfl⟩
    exact ⟨ended, hx⟩
  · rintro ⟨ended, hx⟩
    exact ⟨_, hx, rfl⟩

theorem plan?_of_rest? {i : Nat} {rest : Rest} (h : r.rest? i = some rest) :
    r.plan? i = some rest := plan?_eq_some_iff.2 ⟨false, rest?_eq_some_iff.1 h⟩

theorem lt_of_plan? {i : Nat} {rest : Rest} (h : r.plan? i = some rest) :
    i < r.errands.length := by
  obtain ⟨ended, hx⟩ := plan?_eq_some_iff.1 h
  exact (List.getElem?_eq_some_iff.1 hx).1

theorem lt_of_rest? {i : Nat} {rest : Rest} (h : r.rest? i = some rest) :
    i < r.errands.length := lt_of_plan? (plan?_of_rest? h)

theorem errands_begun_iff {log : Log} {rest : Rest} {i : Nat} {x : Errand} :
    (r.begun log rest).errands[i]? = some x ↔
      i = r.errands.length ∧ x = ⟨rest, false⟩ ∨ r.errands[i]? = some x := by
  show (r.errands ++ [_])[i]? = some x ↔ _
  rcases Nat.lt_trichotomy i r.errands.length with hlt | rfl | hgt
  · rw [List.getElem?_append_left hlt]
    exact ⟨.inr, fun h => h.resolve_left fun h => Nat.ne_of_lt hlt h.1⟩
  · rw [List.getElem?_concat_length, List.getElem?_eq_none (Nat.le_refl _)]
    simp [eq_comm]
  · have hlength : (r.errands ++ [Errand.mk rest false]).length ≤ i := by
      rw [List.length_append]
      exact hgt
    rw [List.getElem?_eq_none hlength, List.getElem?_eq_none (Nat.le_of_lt hgt)]
    simp [Nat.ne_of_gt hgt]

/-- A call is on its way if it has just come from the store, or was before. -/
theorem rest?_begun_iff {log : Log} {other rest : Rest} {i : Nat} :
    (r.begun log other).rest? i = some rest ↔
      i = r.errands.length ∧ rest = other ∨ r.rest? i = some rest := by
  rw [rest?_eq_some_iff, rest?_eq_some_iff, errands_begun_iff, Errand.mk.injEq, and_iff_left rfl]

theorem plan?_begun_iff {log : Log} {other rest : Rest} {i : Nat} :
    (r.begun log other).plan? i = some rest ↔
      i = r.errands.length ∧ rest = other ∨ r.plan? i = some rest := by
  rw [plan?_eq_some_iff, plan?_eq_some_iff]
  constructor
  · rintro ⟨ended, hx⟩
    rcases errands_begun_iff.1 hx with ⟨hi, hx⟩ | hx
    · cases hx
      exact .inl ⟨hi, rfl⟩
    · exact .inr ⟨ended, hx⟩
  · rintro (⟨hi, rfl⟩ | ⟨ended, hx⟩)
    · exact ⟨false, errands_begun_iff.2 (.inl ⟨hi, rfl⟩)⟩
    · exact ⟨ended, errands_begun_iff.2 (.inr hx)⟩

theorem rest?_begun_self (log : Log) (rest : Rest) :
    (r.begun log rest).rest? r.errands.length = some rest := rest?_begun_iff.2 (.inl ⟨rfl, rfl⟩)

/-- Of two calls the earlier one has been at the store before the later one came. -/
theorem plan?_begun_of_lt {log : Log} {other rest rest' : Rest} {i j : Nat} (hij : i < j)
    (hi : (r.begun log other).plan? i = some rest) (hj : (r.begun log other).plan? j = some rest') :
    r.plan? i = some rest ∧ (rest' = other ∨ r.plan? j = some rest') := by
  have hlater : j ≤ r.errands.length := by
    rcases plan?_begun_iff.1 hj with ⟨hj, -⟩ | hj
    · exact Nat.le_of_eq hj
    · exact Nat.le_of_lt (lt_of_plan? hj)
  constructor
  · exact (plan?_begun_iff.1 hi).resolve_left fun h => by omega
  · exact (plan?_begun_iff.1 hj).imp_left And.right

theorem errands_finished_iff {j : Nat} {rest : Rest} (h : r.rest? j = some rest) {i : Nat}
    {x : Errand} :
    (r.finished owner j rest).errands[i]? = some x ↔
      i = j ∧ x = ⟨rest, true⟩ ∨ i ≠ j ∧ r.errands[i]? = some x := by
  show (r.errands.set j _)[i]? = some x ↔ _
  by_cases hij : i = j
  · rw [hij, List.getElem?_set_self (lt_of_rest? h)]
    simp [eq_comm]
  · rw [List.getElem?_set_ne (Ne.symm hij)]
    simp [hij]

theorem rest?_finished_iff {j : Nat} {rest other : Rest} (h : r.rest? j = some rest) {i : Nat} :
    (r.finished owner j rest).rest? i = some other ↔ i ≠ j ∧ r.rest? i = some other := by
  rw [rest?_eq_some_iff, rest?_eq_some_iff, errands_finished_iff h]
  simp

theorem plan?_finished {j : Nat} {rest : Rest} (h : r.rest? j = some rest) (i : Nat) :
    (r.finished owner j rest).plan? i = r.plan? i := by
  by_cases hij : i = j
  · rw [hij, plan?_of_rest? h]
    exact plan?_eq_some_iff.2 ⟨true, (errands_finished_iff h).2 (.inl ⟨rfl, rfl⟩)⟩
  · show ((r.errands.set j _)[i]?).map Errand.rest = _
    rw [List.getElem?_set_ne (Ne.symm hij)]
    rfl

/-- What a call is for does not change. -/
theorem plan?_next {i : Nat} {rest : Rest} (h : r.plan? i = some rest) :
    (r.next owner x).plan? i = some rest := by
  have hmove := move_next owner r x
  generalize r.next owner x = u at hmove
  cases hmove with
  | saves e he => exact plan?_begun_iff.2 (.inr h)
  | loads limit hx => exact plan?_begun_iff.2 (.inr h)
  | marks ids => exact plan?_begun_iff.2 (.inr h)
  | finishes j other hx hrest =>
    rw [plan?_finished hrest]
    exact h
  | acts a ha => exact h
  | still => exact h

/-- A call is on its way until it ends. -/
theorem rest?_next (owner : Nat → Profile) (x : Step) {i : Nat} {rest : Rest}
    (h : r.rest? i = some rest) :
    (r.next owner x).rest? i = some rest ∨ x = .finish i := by
  have hmove := move_next owner r x
  generalize r.next owner x = u at hmove
  cases hmove with
  | saves e he => exact .inl (rest?_begun_iff.2 (.inr h))
  | loads limit hx => exact .inl (rest?_begun_iff.2 (.inr h))
  | marks ids => exact .inl (rest?_begun_iff.2 (.inr h))
  | finishes j other hx hrest =>
    by_cases hij : i = j
    · exact .inr (hij ▸ hx)
    · exact .inl ((rest?_finished_iff hrest).2 ⟨hij, h⟩)
  | acts a ha => exact .inl h
  | still => exact .inl h

/-- no call is on its way -/
def Quiet (r : Room) : Prop := ∀ x ∈ r.errands, x.ended = true

instance : Decidable r.Quiet := inferInstanceAs (Decidable (∀ x ∈ r.errands, _))

theorem Quiet.rest? (h : r.Quiet) (i : Nat) : r.rest? i = none := by
  unfold Room.rest?
  cases hx : r.errands[i]? with
  | none => rfl
  | some x => simp [h x (List.mem_of_getElem? hx)]

/-! ## the recent chat -/

theorem history_act {a : Action} (ha : a.isChat = false) :
    history { r with world := r.world.next owner a } = r.history :=
  congrArg Chat.History.entries (r.world.chat_outcome owner ha)

/-- The end of a call brings its messages to the end of the history, and may take others away. -/
theorem history_finished (i : Nat) (rest : Rest) :
    (r.finished owner i rest).history.Sublist (r.history ++ rest.copies) := by
  cases rest with
  | post e => exact (Chat.History.entries_push_suffix _ e).sublist
  | seed entries => exact (Chat.History.entries_pushAll_suffix _ entries).sublist
  | remove ids =>
    show ((r.world.coordinator.purge ids).1.state.chat.entries).Sublist (r.history ++ [])
    rw [Coordinator.entries_purge, List.append_nil]
    exact List.filter_sublist

theorem not_mem_of_removed {i : Nat} {ids : List Int} {e : ChatEntry}
    (h : e ∈ (r.finished owner i (.remove ids)).history) : ¬ e.messageId ∈ ids := by
  change e ∈ (r.world.coordinator.purge ids).1.state.chat.entries at h
  rw [Coordinator.entries_purge] at h
  simpa using (List.mem_filter.1 h).2

/-! ## what is stored -/

/-- what calls have taken from the store is in the store -/
structure Sound (r : Room) : Prop where
  numbered : r.log.Numbered
  stored : ∀ i rest, r.plan? i = some rest → ∀ e ∈ rest.copies,
    (r.log.get? e.messageId).isSome = true

theorem sound_opened (config : Config) {log : Log} (h : log.Numbered) :
    (opened config log).Sound := by
  refine ⟨h, fun i rest hplan => ?_⟩
  cases hplan

theorem Sound.next (h : r.Sound) (owner : Nat → Profile) (x : Step) : (r.next owner x).Sound := by
  have hmove := move_next owner r x
  generalize r.next owner x = u at hmove
  cases hmove with
  | saves e he =>
    refine ⟨h.numbered.save e, fun i rest hplan d hd => ?_⟩
    show ((r.log.save e).2.get? d.messageId).isSome = true
    rw [Log.get?_save]
    rcases plan?_begun_iff.1 hplan with ⟨-, rfl⟩ | hold
    · cases List.mem_singleton.1 hd
      simp
    · rw [Option.isSome_or, h.stored i rest hold d hd]
      rfl
  | loads limit hx =>
    refine ⟨h.numbered, fun i rest hplan d hd => ?_⟩
    rcases plan?_begun_iff.1 hplan with ⟨-, rfl⟩ | hold
    · rw [Rest.copies, Log.recent_eq_drop] at hd
      have hmem : d ∈ r.log.entries := (Log.current_subset (List.mem_of_mem_drop hd)).1
      exact Option.isSome_iff_exists.2 ⟨d, h.numbered.get?_of_mem hmem⟩
    · exact h.stored i rest hold d hd
  | marks ids =>
    refine ⟨h.numbered.delete ids, fun i rest hplan d hd => ?_⟩
    show ((r.log.delete ids).get? d.messageId).isSome = true
    rw [Log.get?_delete, Option.isSome_map]
    rcases plan?_begun_iff.1 hplan with ⟨-, rfl⟩ | hold
    · cases hd
    · exact h.stored i rest hold d hd
  | finishes i rest hx hrest =>
    refine ⟨h.numbered, fun j plan hplan => ?_⟩
    rw [plan?_finished hrest] at hplan
    exact h.stored j plan hplan
  | acts a ha => exact ⟨h.numbered, h.stored⟩
  | still => exact h

theorem sound_run (config : Config) (owner : Nat → Profile) (writes : List Log.Write)
    (steps : List Step) : ((opened config (.written writes)).run owner steps).Sound :=
  run_induction (fun _ x h => h.next owner x) (sound_opened config (Log.numbered_written writes))
    steps

/-! ## who is connected -/

theorem world_next (owner : Nat → Profile) (r : Room) (x : Step) :
    (r.next owner x).world = r.world ∨ ∃ a, (r.next owner x).world = r.world.next owner a := by
  have hmove := move_next owner r x
  generalize r.next owner x = u at hmove
  cases hmove with
  | finishes i rest hx hrest => exact .inr ⟨rest.action, rfl⟩
  | acts a ha => exact .inr ⟨a, rfl⟩
  | _ => exact .inl rfl

theorem owned_run (config : Config) (owner : Nat → Profile) (log : Log) (steps : List Step) :
    ((opened config log).run owner steps).world.coordinator.Owned owner := by
  refine run_induction (P := fun u => u.world.coordinator.Owned owner) (fun u x h => ?_)
    (World.owned_run config owner []) steps
  rcases world_next owner u x with hworld | ⟨a, hworld⟩
  · rw [hworld]
    exact h
  · rw [hworld]
    exact (World.change_outcome owner u.world a).owned h

end Room

/-! ## an author -/

namespace Sample

def author : Session := ⟨0, owner 0, .readwrite⟩

def midnight : Timestamp := { day := 0, second := 0, nano := 0 }

end Sample

end Matchmaker
