import Matchmaker.Proofs.Chat.Room
import Matchmaker.Proofs.Run.Calling

/-!
# Messages out of order

A message gets its number at the store and is posted later, when its call comes to the coordinator.
Of two calls the one that was at the store first may be the one that comes to the coordinator last.
So messages are posted in the order of their numbers exactly if their calls end in the order in
which they were at the store (`numbers_iff_calls`), and what is shown, and what a reader hears, has
the order in which messages are posted (`history_run`, `heard_run`).
-/

namespace Matchmaker

open Chat (Log)
open Protocol (Response)

/-- the message that a response brings -/
def Protocol.Response.message? : Response → Option ChatEntry
  | .message e => some e
  | _ => none

/-- ascends by the numbers -/
def Chronological (es : List ChatEntry) : Prop := es.Pairwise fun d e => d.messageId < e.messageId

instance (es : List ChatEntry) : Decidable (Chronological es) :=
  inferInstanceAs (Decidable (es.Pairwise _))

namespace Coordinator

/-- a registered client that may read the chat is on this connection -/
def Reads (c : Coordinator) (n : Nat) : Prop :=
  ∃ s ∈ c.clients, s.connection = n ∧ s.hasMessageAccess = true

/-- what a new message makes a connection hear -/
theorem heard_message {owner : Nat → Profile} {c : Coordinator} (h : c.Owned owner) (e : ChatEntry)
    (n : Nat) :
    (¬ c.Reads n ∧ Effect.responses n (c.message e).effects = []) ∨
      c.Reads n ∧ Effect.responses n (c.message e).effects = [.message e] := by
  let readers := c.clients.toList.filter Session.hasMessageAccess
  have hresponses : Effect.responses n (c.message e).effects =
      List.replicate ((readers.map Session.connection).count n) (.message e) :=
    Effect.responses_map readers (.message e) n
  have hnodup : (readers.map Session.connection).Nodup :=
    h.nodup_connections.sublist (List.filter_sublist.map _)
  have hmem : n ∈ readers.map Session.connection ↔ c.Reads n := by
    rw [List.mem_map]
    refine exists_congr fun s => ?_
    rw [List.mem_filter, and_assoc]
    exact and_congr_right fun _ => and_comm
  rw [hresponses]
  by_cases hn : n ∈ readers.map Session.connection
  · refine .inr ⟨hmem.1 hn, ?_⟩
    rw [List.count_eq_one_of_mem hnodup hn]
    rfl
  · refine .inl ⟨mt hmem.2 hn, ?_⟩
    rw [List.count_eq_zero_of_not_mem hn]
    rfl

end Coordinator

namespace Room
variable {owner : Nat → Profile} {r : Room} {x : Step} {steps : List Step}

/-! ## postings -/

/-- the end of a call that posts a message -/
structure Posting where
  call : Nat
  message : ChatEntry
  effects : List Effect

def posting? (owner : Nat → Profile) (r : Room) : Step → Option Posting
  | .finish i =>
    match r.rest? i with
    | some (.post e) => some ⟨i, e, r.effects owner (.finish i)⟩
    | _ => none
  | _ => none

/-- the postings of a run, in order -/
def postings (owner : Nat → Profile) (r : Room) : List Step → List Posting
  | [] => []
  | x :: xs => (r.posting? owner x).toList ++ postings owner (r.next owner x) xs

/-- the messages that these postings send to a connection -/
def heard (n : Nat) (ps : List Posting) : List ChatEntry :=
  ps.flatMap fun p => (Effect.responses n p.effects).filterMap Response.message?

/-- the calls of these postings end in the order in which they were at the store -/
def CallsInOrder (ps : List Posting) : Prop := (ps.map Posting.call).Pairwise (· < ·)

instance (ps : List Posting) : Decidable (CallsInOrder ps) :=
  inferInstanceAs (Decidable (List.Pairwise _ _))

theorem posting?_of_post {i : Nat} {e : ChatEntry} (h : r.rest? i = some (.post e)) :
    r.posting? owner (.finish i) = some ⟨i, e, (r.world.coordinator.message e).effects⟩ := by
  simp only [posting?, h, effects_finish h]
  rfl

theorem posting?_eq_some {p : Posting} (h : r.posting? owner x = some p) :
    x = .finish p.call ∧ r.rest? p.call = some (.post p.message) ∧
      p.effects = (r.world.coordinator.message p.message).effects := by
  cases x with
  | finish i =>
    cases hrest : r.rest? i with
    | none => simp only [posting?, hrest, reduceCtorEq] at h
    | some rest =>
      cases rest with
      | post e =>
        rw [posting?_of_post hrest] at h
        cases h
        exact ⟨rfl, hrest, rfl⟩
      | seed entries => simp only [posting?, hrest, reduceCtorEq] at h
      | remove ids => simp only [posting?, hrest, reduceCtorEq] at h
  | _ => cases h

theorem postings_concat (owner : Nat → Profile) (r : Room) (steps : List Step) (x : Step) :
    postings owner r (steps ++ [x]) =
      postings owner r steps ++ ((r.run owner steps).posting? owner x).toList := by
  induction steps generalizing r with
  | nil => exact List.append_nil _
  | cons y steps ih =>
    rw [List.cons_append, postings, ih, postings, List.append_assoc]
    rfl

theorem plan?_of_mem_postings {p : Posting} (h : p ∈ postings owner r steps) :
    (r.run owner steps).plan? p.call = some (.post p.message) := by
  induction steps using List.reverseRecOn with
  | nil => cases h
  | append_singleton steps x ih =>
    rw [run_concat]
    refine plan?_next ?_
    rw [postings_concat] at h
    rcases List.mem_append.1 h with h | h
    · exact ih h
    · obtain ⟨-, hrest, -⟩ := posting?_eq_some (Option.mem_toList.1 h)
      exact plan?_of_rest? hrest

/-! ## numbers -/

/-- the messages of later calls have higher numbers, and all of them higher ones than `base` -/
structure Ordered (base : Nat) (r : Room) : Prop where
  sound : r.Sound
  base_le : base ≤ r.log.entries.length
  above : ∀ i e, r.plan? i = some (.post e) → (base : Int) < e.messageId
  ordered : ∀ i j d e, i < j → r.plan? i = some (.post d) → r.plan? j = some (.post e) →
    d.messageId < e.messageId

/-- A call that posts nothing changes nothing about this. -/
theorem Ordered.begun {base : Nat} (h : r.Ordered base) {log : Log} {rest : Rest}
    (hsound : (r.begun log rest).Sound) (hlength : log.entries.length = r.log.entries.length)
    (hrest : ∀ e, rest ≠ .post e) : (r.begun log rest).Ordered base := by
  refine ⟨hsound, hlength ▸ h.base_le, fun i e hplan => ?_, fun i j d e hij hi hj => ?_⟩
  · rcases plan?_begun_iff.1 hplan with ⟨-, hother⟩ | hold
    · exact absurd hother.symm (hrest e)
    · exact h.above i e hold
  · obtain ⟨hearlier, hother | hlater⟩ := plan?_begun_of_lt hij hi hj
    · exact absurd hother.symm (hrest e)
    · exact h.ordered i j d e hij hearlier hlater

/-- A new message has a higher number than all messages before it. -/
theorem Ordered.saved {base : Nat} (h : r.Ordered base) {f : ChatEntry}
    (hsound : (r.begun (r.log.save f).2 (.post (r.log.save f).1)).Sound) :
    (r.begun (r.log.save f).2 (.post (r.log.save f).1)).Ordered base := by
  have hbase := h.base_le
  refine ⟨hsound, ?_, fun i e hplan => ?_, fun i j d e hij hi hj => ?_⟩
  · show base ≤ (r.log.save f).2.entries.length
    rw [Log.entries_save, List.length_append]
    omega
  · rcases plan?_begun_iff.1 hplan with ⟨-, hother⟩ | hold
    · cases hother
      rw [Log.messageId_save]
      omega
    · exact h.above i e hold
  · obtain ⟨hearlier, hother | hlater⟩ := plan?_begun_of_lt hij hi hj
    · cases hother
      -- what the earlier call posts is in the log already
      have hstored := h.sound.stored i (.post d) hearlier d List.mem_cons_self
      obtain ⟨g, hg⟩ := Option.isSome_iff_exists.1 hstored
      have hle := h.sound.numbered.le_of_get? hg
      rw [Log.messageId_save]
      omega
    · exact h.ordered i j d e hij hearlier hlater

theorem Ordered.next {base : Nat} (h : r.Ordered base) (owner : Nat → Profile) (x : Step) :
    (r.next owner x).Ordered base := by
  have hsound := h.sound.next owner x
  have hmove := move_next owner r x
  generalize r.next owner x = u at hmove hsound
  cases hmove with
  | saves f hf => exact h.saved hsound
  | loads limit hx => exact h.begun hsound rfl fun e he => by cases he
  | marks ids => exact h.begun hsound (Log.length_delete _ ids) fun e he => by cases he
  | finishes k rest hx hrest =>
    refine ⟨hsound, h.base_le, fun i e hplan => ?_, fun i j d e hij hi hj => ?_⟩
    · rw [plan?_finished hrest] at hplan
      exact h.above i e hplan
    · rw [plan?_finished hrest] at hi hj
      exact h.ordered i j d e hij hi hj
  | acts a ha => exact ⟨hsound, h.base_le, h.above, h.ordered⟩
  | still => exact h

theorem ordered_run (config : Config) (owner : Nat → Profile) (writes : List Log.Write)
    (steps : List Step) :
    ((opened config (.written writes)).run owner steps).Ordered
      (Log.written writes).entries.length := by
  refine run_induction (fun _ x h => h.next owner x) ?_ steps
  refine ⟨sound_opened config (Log.numbered_written writes), Nat.le_refl _, fun i e h => ?_,
    fun i j d e hij h => ?_⟩
  · cases h
  · cases h

/-- Of two postings the one with the lower number is by the call that was at the store first. -/
theorem Ordered.call_lt_iff {base : Nat} (h : (r.run owner steps).Ordered base) {p q : Posting}
    (hp : p ∈ postings owner r steps) (hq : q ∈ postings owner r steps) :
    p.call < q.call ↔ p.message.messageId < q.message.messageId := by
  have hplanp := plan?_of_mem_postings hp
  have hplanq := plan?_of_mem_postings hq
  constructor
  · exact fun hlt => h.ordered _ _ _ _ hlt hplanp hplanq
  · intro hlt
    rcases Nat.lt_trichotomy p.call q.call with hcall | hcall | hcall
    · exact hcall
    · rw [hcall, hplanq] at hplanp
      rw [Rest.post.inj (Option.some.inj hplanp)] at hlt
      exact absurd hlt (Int.lt_irrefl _)
    · have := h.ordered _ _ _ _ hcall hplanq hplanp
      omega

/-- **Messages are posted in the order of their numbers exactly if their calls end in the order in
which they were at the store.** -/
theorem Ordered.numbers_iff_calls {base : Nat} (h : (r.run owner steps).Ordered base) :
    Chronological ((postings owner r steps).map Posting.message) ↔
      CallsInOrder (postings owner r steps) := by
  unfold Chronological CallsInOrder
  rw [List.pairwise_map, List.pairwise_map]
  exact List.Pairwise.iff_of_mem fun hp hq => (h.call_lt_iff hp hq).symm

theorem Ordered.chronological_append_iff {base : Nat} (h : (r.run owner steps).Ordered base)
    {old : List ChatEntry} (hold : Chronological old) (hbase : ∀ e ∈ old, e.messageId ≤ base) :
    Chronological (old ++ (postings owner r steps).map Posting.message) ↔
      CallsInOrder (postings owner r steps) := by
  rw [← h.numbers_iff_calls]
  refine List.pairwise_append.trans ⟨fun hall => hall.2.1, fun hposted => ⟨hold, hposted, ?_⟩⟩
  intro d hd e he
  obtain ⟨p, hp, rfl⟩ := List.mem_map.1 he
  have hle := hbase d hd
  have habove := h.above _ _ (plan?_of_mem_postings hp)
  omega

/-! ## what is shown -/

/-- no call is on its way to fill the history -/
def Unseeded (r : Room) : Prop := ∀ i entries, ¬ r.rest? i = some (.seed entries)

theorem Unseeded.next (h : r.Unseeded) (hx : ∀ limit, x ≠ .load limit) :
    (r.next owner x).Unseeded := by
  intro i entries hrest
  have hmove := move_next owner r x
  generalize r.next owner x = u at hmove hrest
  cases hmove with
  | saves f hf =>
    rcases rest?_begun_iff.1 hrest with ⟨-, hother⟩ | hold
    · cases hother
    · exact h i entries hold
  | loads limit hlimit => exact hx limit hlimit
  | marks ids =>
    rcases rest?_begun_iff.1 hrest with ⟨-, hother⟩ | hold
    · cases hother
    · exact h i entries hold
  | finishes j rest hj hother => exact h i entries ((rest?_finished_iff hother).1 hrest).2
  | acts a ha => exact h i entries hrest
  | still => exact h i entries hrest

theorem Unseeded.run (h : r.Unseeded) (hsteps : ∀ limit, ¬ Step.load limit ∈ steps) :
    (r.run owner steps).Unseeded := by
  induction steps generalizing r with
  | nil => exact h
  | cons x steps ih =>
    refine ih (h.next fun limit hx => hsteps limit (hx ▸ List.mem_cons_self)) fun limit hmem => ?_
    exact hsteps limit (List.mem_cons_of_mem x hmem)

/-- What a step makes of the history is what was there and what it posts, or less. -/
theorem Unseeded.history_next (h : r.Unseeded) :
    (r.next owner x).history.Sublist
      (r.history ++ ((r.posting? owner x).toList.map Posting.message)) := by
  have hmove := move_next owner r x
  generalize hu : r.next owner x = u at hmove
  cases hmove with
  | finishes i rest hx hrest =>
    subst hx
    cases rest with
    | post e =>
      rw [posting?_of_post hrest]
      exact history_finished i (.post e)
    | seed entries => exact absurd hrest (h i entries)
    | remove ids =>
      have hless : (r.finished owner i (.remove ids)).history.Sublist (r.history ++ []) :=
        history_finished i (.remove ids)
      rw [List.append_nil] at hless
      exact hless.trans (List.sublist_append_left _ _)
  | acts a ha =>
    rw [history_act ha]
    exact List.sublist_append_left _ _
  | _ => exact List.sublist_append_left _ _

/-- What is shown was there at first or was posted, in the order in which it was posted. -/
theorem Unseeded.history_run (h : r.Unseeded) (hsteps : ∀ limit, ¬ Step.load limit ∈ steps) :
    (r.run owner steps).history.Sublist
      (r.history ++ (postings owner r steps).map Posting.message) := by
  induction steps using List.reverseRecOn with
  | nil => exact List.sublist_append_left _ _
  | append_singleton steps x ih =>
    have hbefore : ∀ limit, ¬ Step.load limit ∈ steps :=
      fun limit hmem => hsteps limit (List.mem_append_left _ hmem)
    rw [run_concat, postings_concat, List.map_append, ← List.append_assoc]
    exact (h.run hbefore).history_next.trans ((ih hbefore).append_right _)

/-! ## what is heard -/

theorem heard_append (n : Nat) (ps qs : List Posting) :
    heard n (ps ++ qs) = heard n ps ++ heard n qs := List.flatMap_append

/-- the same connection belongs to a reader from the first to the last of these steps -/
def ReadsThroughout (owner : Nat → Profile) (r : Room) (steps : List Step) (n : Nat) : Prop :=
  ∀ before after, steps = before ++ after → (r.run owner before).world.coordinator.Reads n

theorem heard_singleton (n : Nat) (p : Posting) :
    heard n [p] = (Effect.responses n p.effects).filterMap Response.message? := List.append_nil _

theorem heard_posting (howned : r.world.coordinator.Owned owner) (n : Nat) :
    (heard n (r.posting? owner x).toList).Sublist
        ((r.posting? owner x).toList.map Posting.message) ∧
      (r.world.coordinator.Reads n →
        heard n (r.posting? owner x).toList =
          (r.posting? owner x).toList.map Posting.message) := by
  cases hp : r.posting? owner x with
  | none => exact ⟨List.Sublist.refl _, fun _ => rfl⟩
  | some p =>
    obtain ⟨-, -, heffects⟩ := posting?_eq_some hp
    rw [Option.toList_some, heard_singleton, heffects]
    rcases Coordinator.heard_message howned p.message n with ⟨hreads, hnone⟩ | ⟨-, hone⟩
    · rw [hnone]
      exact ⟨List.nil_sublist _, fun h => absurd h hreads⟩
    · rw [hone]
      exact ⟨List.Sublist.refl _, fun _ => rfl⟩

/-- What a connection hears was posted, in this order, and a reader hears all of it. -/
theorem heard_run (howned : ∀ before, (r.run owner before).world.coordinator.Owned owner)
    (n : Nat) :
    (heard n (postings owner r steps)).Sublist ((postings owner r steps).map Posting.message) ∧
      (ReadsThroughout owner r steps n →
        heard n (postings owner r steps) = (postings owner r steps).map Posting.message) := by
  induction steps using List.reverseRecOn with
  | nil => exact ⟨List.Sublist.refl _, fun _ => rfl⟩
  | append_singleton steps x ih =>
    obtain ⟨hsublist, hall⟩ := heard_posting (x := x) (howned steps) n
    rw [postings_concat, heard_append, List.map_append]
    refine ⟨ih.1.append hsublist, fun hreads => ?_⟩
    rw [ih.2, hall]
    · exact hreads steps [x] rfl
    · intro before after hsteps
      refine hreads before (after ++ [x]) ?_
      rw [hsteps, List.append_assoc]

/-! ## every run -/

/-- a new room, after the history was filled with the newest stored messages, or was not -/
def filled (config : Config) (owner : Nat → Profile) (log : Log) : Option Nat → Room
  | none => opened config log
  | some limit => (opened config log).run owner [.load limit, .finish 0]

theorem filled_eq_run (config : Config) (owner : Nat → Profile) (log : Log) (limit : Option Nat) :
    ∃ steps, filled config owner log limit = (opened config log).run owner steps := by
  cases limit with
  | none => exact ⟨[], rfl⟩
  | some limit => exact ⟨_, rfl⟩

/-- the room after the newest stored messages were looked up -/
def loaded (config : Config) (log : Log) (limit : Nat) : Room :=
  (opened config log).begun log (.seed (log.recent limit))

theorem rest?_loaded (config : Config) (log : Log) (limit : Nat) :
    (loaded config log limit).rest? 0 = some (.seed (log.recent limit)) :=
  rest?_begun_self (r := opened config log) log _

theorem filled_some (config : Config) (owner : Nat → Profile) (log : Log) (limit : Nat) :
    filled config owner log (some limit) =
      (loaded config log limit).finished owner 0 (.seed (log.recent limit)) :=
  next_finish (rest?_loaded config log limit)

theorem unseeded_filled (config : Config) (owner : Nat → Profile) (log : Log)
    (limit : Option Nat) : (filled config owner log limit).Unseeded := by
  intro i entries h
  cases limit with
  | none => cases h
  | some limit =>
    rw [filled_some, rest?_finished_iff (rest?_loaded config log limit)] at h
    rcases rest?_begun_iff.1 h.2 with ⟨hi, -⟩ | hnone
    · exact h.1 hi
    · cases hnone

/-- At first the stored messages are shown, or some of them. -/
theorem history_filled (config : Config) (owner : Nat → Profile) (log : Log) (limit : Option Nat) :
    (filled config owner log limit).history.Sublist log.entries := by
  cases limit with
  | none => exact List.nil_sublist _
  | some limit =>
    rw [filled_some]
    refine (history_finished 0 _).trans ?_
    show (log.recent limit).Sublist log.entries
    rw [Log.recent_eq_drop]
    exact (List.drop_sublist _ _).trans List.filter_sublist

/-- **Chat is chronological exactly as far as calls end in the order in which they were at the
store.**  What is shown was there at first or was posted since, and what a connection hears was
posted, both in the order of posting; and that is the order of the numbers if and only if no call
overtakes an earlier one. -/
theorem chronological_iff_in_order (config : Config) (owner : Nat → Profile)
    (writes : List Log.Write) (limit : Option Nat) (steps : List Step)
    (hsteps : ∀ limit, ¬ Step.load limit ∈ steps) :
    let r := filled config owner (.written writes) limit
    let ps := postings owner r steps
    (Chronological (r.history ++ ps.map Posting.message) ↔ CallsInOrder ps) ∧
      (r.run owner steps).history.Sublist (r.history ++ ps.map Posting.message) ∧
      (∀ n, (heard n ps).Sublist (ps.map Posting.message)) ∧
      (∀ n, ReadsThroughout owner r steps n → heard n ps = ps.map Posting.message) ∧
      (CallsInOrder ps → Chronological (r.run owner steps).history ∧
        ∀ n, Chronological (heard n ps)) := by
  intro r ps
  obtain ⟨first, hfirst⟩ : ∃ first, r = (opened config (.written writes)).run owner first :=
    filled_eq_run config owner _ limit
  have howned : ∀ before, (r.run owner before).world.coordinator.Owned owner := by
    intro before
    rw [hfirst, ← run_append]
    exact owned_run config owner _ _
  have hordered : (r.run owner steps).Ordered (Log.written writes).entries.length := by
    rw [hfirst, ← run_append]
    exact ordered_run config owner writes _
  have hshown : (r.run owner steps).history.Sublist (r.history ++ ps.map Posting.message) :=
    (unseeded_filled config owner _ limit).history_run hsteps
  have hfilled : r.history.Sublist (Log.written writes).entries :=
    history_filled config owner _ limit
  have hnumbered := Log.numbered_written writes
  have hiff : Chronological (r.history ++ ps.map Posting.message) ↔ CallsInOrder ps :=
    hordered.chronological_append_iff (hnumbered.ascending.sublist hfilled)
      fun e he => hnumbered.messageId_le (hfilled.subset he)
  refine ⟨hiff, hshown, fun n => (heard_run howned n).1, fun n => (heard_run howned n).2,
    fun hcalls => ⟨(hiff.2 hcalls).sublist hshown, fun n => ?_⟩⟩
  exact (hordered.numbers_iff_calls.2 hcalls).sublist (heard_run howned n).1

end Room

/-! ## two messages

A player posts two messages while somebody reads, and the calls end in turn or crosswise. -/

namespace Sample

def twoSaved : List Step :=
  [.act (.connect 1 .readwrite), .save author midnight "hi", .save author midnight "bye"]

def inTurn : List Step := twoSaved ++ [.finish 0, .finish 1]

def crossed : List Step := twoSaved ++ [.finish 1, .finish 0]

end Sample

namespace Room

theorem chronological_iff_in_order_sample :
    let ps := postings Sample.owner (filled {} Sample.owner (.written []) none) Sample.inTurn
    CallsInOrder ps ∧ Chronological (heard 1 ps) := by
  intro ps
  have hcalls : CallsInOrder ps := by decide +kernel
  have hsteps : ∀ limit, ¬ Step.load limit ∈ Sample.inTurn := by
    simp [Sample.inTurn, Sample.twoSaved]
  obtain ⟨-, -, -, -, hall⟩ :=
    chronological_iff_in_order {} Sample.owner [] none Sample.inTurn hsteps
  exact ⟨hcalls, (hall hcalls).2 1⟩

/-- Neither what is shown nor what is heard need be in the order of the numbers. -/
theorem later_message_posted_first :
    (¬ ∀ (config : Config) (owner : Nat → Profile) (writes : List Log.Write) (limit : Option Nat)
      (steps : List Step), (∀ limit, ¬ Step.load limit ∈ steps) →
      (∀ ids, ¬ Step.mark ids ∈ steps) →
      Chronological ((filled config owner (.written writes) limit).run owner steps).history) ∧
    ¬ ∀ (config : Config) (owner : Nat → Profile) (writes : List Log.Write) (limit : Option Nat)
      (steps : List Step), (∀ limit, ¬ Step.load limit ∈ steps) →
      (∀ ids, ¬ Step.mark ids ∈ steps) →
      ∀ n, Chronological (heard n (postings owner (filled config owner (.written writes) limit)
        steps)) := by
  have hload : ∀ limit, ¬ Step.load limit ∈ Sample.crossed := by
    simp [Sample.crossed, Sample.twoSaved]
  have hmark : ∀ ids, ¬ Step.mark ids ∈ Sample.crossed := by
    simp [Sample.crossed, Sample.twoSaved]
  constructor
  · intro h
    have hshown := h {} Sample.owner [] none Sample.crossed hload hmark
    revert hshown
    decide +kernel
  · intro h
    have hheard := h {} Sample.owner [] none Sample.crossed hload hmark 1
    revert hheard
    decide +kernel

end Room

end Matchmaker
