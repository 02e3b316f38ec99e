import Matchmaker.Proofs.Chat.Retelling
import Matchmaker.Proofs.Client.Closing
import Matchmaker.Proofs.Config.Limits
import Matchmaker.Proofs.Run.Calling

/-!
# A newcomer has room for the replay

Who comes gets the recent chat, if allowed to read it, and a full update.  All of that has to wait
in the queue of the client before anything is written, so there must be room for it.  The bound on the
recent chat and the one on the queue come from the same configuration, and checking it relates them
(`history_lt_outbound`).

To the way out of a client, effects are events like others (`outbound_foldl_upon`), and as long as
it is not closed and no writer is at work the queue grows with every response (`Calm`).  With a
writer at work it is only shorter (`length_queue_run_le`).
-/

namespace Matchmaker

open Protocol (Response)
open Client (Outbound)

/-! ## responses among events -/

namespace Client.Outbound

def Event.send? : Event → Option Response
  | .send r => some r
  | _ => none

/-- the responses that are sent in a run, accepted or not -/
def sends (es : List Event) : List Response := es.filterMap Event.send?

variable {o : Outbound} {owner : SteamId} {limit : Nat}

theorem sends_append (es fs : List Event) : sends (es ++ fs) = sends es ++ sends fs :=
  List.filterMap_append

theorem length_queue_next_le (o : Outbound) (e : Event) :
    (o.next e).queue.length ≤ o.queue.length + (sends [e]).length := by
  cases e with
  | send r =>
    rcases sent_or_refused o r with ⟨-, -, -, hsent⟩ | ⟨e, hrefused⟩
    · rw [(next_of_sent hsent).1]
      exact (@List.length_append _ o.queue [r]).le
    · rw [(next_of_refused hrefused).1]
      exact Nat.le_add_right _ _
  | start now =>
    show (o.start now).queue.length ≤ _
    unfold start
    split
    all_goals exact Nat.le_add_right _ _
  | close =>
    show o.close.queue.length ≤ _
    unfold close
    split
    · exact Nat.zero_le _
    · exact Nat.le_add_right _ _
  | shutDown => exact Nat.le_add_right _ _
  | fail writeFails pingFails => exact Nat.le_add_right _ _
  | turn now =>
    rcases taken_turn o now with hsame | htaken
    · rw [hsame]
      exact Nat.le_add_right _ _
    · generalize o.next (.turn now) = p at htaken
      cases htaken with
      | stops pingDue hrunning hwhy => exact Nat.zero_le _
      | writes pingDue hrunning hopen r rest hqueue =>
        rw [hqueue]
        exact Nat.le_succ rest.length
      | pings pingDue hrunning hopen hqueue hgoesOn hdue => exact Nat.le_add_right _ _
      | closes hwriter hclosing => exact Nat.le_add_right _ _

/-- No more can wait than has been sent. -/
theorem length_queue_run_le (o : Outbound) (es : List Event) :
    (o.run es).queue.length ≤ o.queue.length + (sends es).length := by
  induction es generalizing o with
  | nil => exact Nat.le_refl _
  | cons e es ih =>
    have hnext := o.length_queue_next_le e
    have hrest := ih (o.next e)
    show ((o.next e).run es).queue.length ≤ _
    rw [← List.singleton_append, sends_append, List.length_append]
    omega

/-- While fewer responses have been sent than may wait, none finds the queue full. -/
theorem send_of_few (h : Sound owner limit o) {es : List Event}
    (hfew : o.queue.length + (sends es).length < limit) (r : Response) (p : SteamId) :
    (o.run es).send r ≠ .error (.queueFull p) := by
  have hroom := (o.length_queue_run_le es).trans_lt hfew
  rw [← (sound_run h es).capacity] at hroom
  intro hfull
  unfold send at hfull
  split at hfull
  · cases hfull
  · cases hfull

/-- And if nothing has failed and nobody closes, it is taken. -/
theorem send_of_few_open (h : Sound owner limit o) (hopen : o.closed = false)
    (hgoesOn : o.shutdown = false) {es : List Event} (hclose : Event.close ∉ es)
    (hshutDown : Event.shutDown ∉ es) (hworks : o.failsIn es = false)
    (hfew : o.queue.length + (sends es).length < limit) (r : Response) :
    ∃ p, (o.run es).send r = .ok p := by
  have hsound := sound_run h es
  have hroom := (o.length_queue_run_le es).trans_lt hfew
  rw [← hsound.capacity] at hroom
  have hstill : (o.run es).closed = false := by
    rw [closed_run, hopen, hworks]
    simpa using hclose
  refine ⟨_, send_of_room hstill (fun hstopped => ?_) hroom⟩
  have hshutdown := hsound.released hstopped hstill
  rw [shutdown_run, hgoesOn] at hshutdown
  exact hshutDown (by simpa using hshutdown)

/-! ## events before the writer gets to run -/

/-- is neither a turn of the writer nor the end of the client -/
def Event.isCalm : Event → Bool
  | .turn _ => false
  | .close => false
  | _ => true

/-- is open, with this queue -/
structure Calm (limit : Nat) (queue : List Response) (o : Outbound) : Prop where
  opened : o.closed = false
  writer : o.writer ≠ .stopped
  capacity : o.capacity = limit
  queue_eq : o.queue = queue

theorem Calm.next {queue : List Response} (h : Calm limit queue o) {e : Event}
    (he : e.isCalm = true) (hroom : (queue ++ sends [e]).length ≤ limit) :
    Calm limit (queue ++ sends [e]) (o.next e) := by
  cases e with
  | send r =>
    rw [List.length_append] at hroom
    have hsent := send_of_room (r := r) h.opened h.writer (by
      rw [h.queue_eq, h.capacity]
      exact hroom)
    rw [(next_of_sent hsent).1]
    exact ⟨h.opened, h.writer, h.capacity, congrArg (· ++ [r]) h.queue_eq⟩
  | start now =>
    rw [show sends [.start now] = [] from rfl, List.append_nil]
    show Calm limit queue (o.start now)
    unfold start
    split
    · exact ⟨h.opened, nofun, h.capacity, h.queue_eq⟩
    · exact h
  | shutDown =>
    rw [show sends [.shutDown] = [] from rfl, List.append_nil]
    exact ⟨h.opened, h.writer, h.capacity, h.queue_eq⟩
  | fail writeFails pingFails =>
    rw [show sends [.fail writeFails pingFails] = [] from rfl, List.append_nil]
    exact ⟨h.opened, h.writer, h.capacity, h.queue_eq⟩
  | turn now => cases he
  | close => cases he

/-- As long as there is room, all that is sent waits. -/
theorem Calm.run {queue : List Response} (h : Calm limit queue o) (es : List Event)
    (hes : ∀ e ∈ es, e.isCalm = true) (hroom : (queue ++ sends es).length ≤ limit) :
    Calm limit (queue ++ sends es) (o.run es) := by
  induction es generalizing o queue with
  | nil =>
    rw [show sends [] = [] from rfl, List.append_nil]
    exact h
  | cons e es ih =>
    rw [← List.singleton_append, sends_append, ← List.append_assoc] at hroom ⊢
    have hone := h.next (hes e List.mem_cons_self) (by
      rw [List.length_append] at hroom
      omega)
    exact ih hone (fun f hf => hes f (List.mem_cons_of_mem _ hf)) hroom

theorem writer_run_ne_idle (h : o.writer ≠ .idle) (es : List Event) :
    (o.run es).writer ≠ .idle := by
  induction es generalizing o with
  | nil => exact h
  | cons e es ih => exact ih fun hidle => h ((idle_next_iff o e).1 hidle).1

theorem writer_run_ne_idle_of_start (now : Nat) {es : List Event} (h : .start now ∈ es) :
    (o.run es).writer ≠ .idle := by
  induction es generalizing o with
  | nil => cases h
  | cons e es ih =>
    rcases List.mem_cons.1 h with rfl | h
    · exact writer_run_ne_idle (fun hidle => ((idle_next_iff o _).1 hidle).2.1 now rfl) es
    · exact ih h

end Client.Outbound

/-! ## effects as events -/

open Client.Outbound (Event sends sends_append send_of_few send_of_few_open)

/-- what an effect is to the way out of one connection -/
def Effect.event? (now connection : Nat) : Effect → Option Event
  | .start c => if c = connection then some (.start now) else none
  | .deliver c r => if c = connection then some (.send r) else none
  | .close c => if c = connection then some .close else none
  | .release => some .shutDown

section
variable {κ : Type} [Client.Quantity κ]

theorem Client.outbound_take (x : Client κ) (r : Response) :
    (Endpoint.take x r).outbound = x.outbound.next (.send r) := by
  cases h : x.outbound.send r with
  | ok p =>
    have hsend : x.send r = .ok { x with outbound := p } := by rw [Client.send, h]; rfl
    rw [(Client.Outbound.next_of_sent h).1]
    simp only [Endpoint.take, hsend]
  | error e =>
    have hsend : x.send r = .error e := by rw [Client.send, h]; rfl
    rw [(Client.Outbound.next_of_refused h).1]
    simp only [Endpoint.take, hsend]

theorem Effect.outbound_upon (now n : Nat) (x : Client κ) (a : Effect) :
    (a.upon now n x).outbound = x.outbound.run (a.event? now n).toList := by
  cases a with
  | start c => by_cases hc : c = n <;> simp only [upon, event?, hc] <;> rfl
  | deliver c r =>
    by_cases hc : c = n
    · simp only [upon, event?, hc, if_true]
      exact x.outbound_take r
    · simp only [upon, event?, hc, if_false]
      rfl
  | close c => by_cases hc : c = n <;> simp only [upon, event?, hc] <;> rfl
  | release => rfl

/-- What effects come to on the way out of a client is a run. -/
theorem Effect.outbound_foldl_upon (now n : Nat) (x : Client κ) (as : List Effect) :
    (as.foldl (upon now n) x).outbound = x.outbound.run (as.filterMap (event? now n)) := by
  induction as generalizing x with
  | nil => rfl
  | cons a as ih =>
    rw [List.foldl_cons, ih, outbound_upon, List.filterMap_cons]
    cases a.event? now n <;> rfl

/-- Writers take no turns while effects take place. -/
theorem Effect.isCalm_events {now n : Nat} {as : List Effect} (h : .close n ∉ as) :
    ∀ e ∈ as.filterMap (event? now n), e.isCalm = true := by
  intro e he
  obtain ⟨a, ha, hae⟩ := List.mem_filterMap.1 he
  cases a with
  | start m =>
    obtain ⟨-, hstart⟩ := Option.ite_none_right_eq_some.1 hae
    cases hstart
    rfl
  | deliver m r =>
    obtain ⟨-, hsend⟩ := Option.ite_none_right_eq_some.1 hae
    cases hsend
    rfl
  | close m =>
    obtain ⟨rfl, -⟩ := Option.ite_none_right_eq_some.1 hae
    exact absurd ha h
  | release =>
    cases hae
    rfl

theorem Effect.sends_events (now n : Nat) (as : List Effect) :
    sends (as.filterMap (event? now n)) = responses n as := by
  unfold sends responses
  rw [List.filterMap_filterMap]
  refine List.filterMap_congr fun a _ => ?_
  cases a with
  | start c => by_cases hc : c = n <;> simp [event?, response?, Event.send?, hc]
  | deliver c r => by_cases hc : c = n <;> simp [event?, response?, Event.send?, hc]
  | close c => by_cases hc : c = n <;> simp [event?, response?, Event.send?, hc]
  | release => rfl

end

/-! ## what the recent chat holds -/

open Coordinator (Outcome)

/-- the messages that an action brings to the recent chat, the first of them first -/
def Action.posts : Action → List ChatEntry
  | .seed entries => entries
  | .message e => [e]
  | _ => []

/-- `d` has what `c` has and these messages after it, as far as they were kept -/
structure Coordinator.Remembers (c d : Coordinator) (posted : List ChatEntry) : Prop where
  capacity : d.chat.capacity = c.chat.capacity
  entries : d.chat.entries.Sublist (c.chat.entries ++ posted)

theorem Coordinator.remembers_of_eq {c d : Coordinator} (h : d.chat = c.chat)
    (posted : List ChatEntry) : c.Remembers d posted where
  capacity := congrArg _ h
  entries := by
    rw [h]
    exact List.sublist_append_left _ _

theorem World.remembers_outcome (owner : Nat → Profile) (w : World) (a : Action) :
    w.coordinator.Remembers (w.outcome owner a).state a.posts := by
  cases ha : a.isChat with
  | false => exact Coordinator.remembers_of_eq (w.chat_outcome owner ha) _
  | true =>
    cases a with
    | seed entries =>
      exact ⟨Chat.History.capacity_pushAll _ _, (Chat.History.entries_pushAll_suffix _ _).sublist⟩
    | message e =>
      exact ⟨Chat.History.capacity_push _ _, (Chat.History.entries_push_suffix _ _).sublist⟩
    | purge ids =>
      refine ⟨Coordinator.capacity_purge _ _, ?_⟩
      show ((w.coordinator.purge ids).1.state.chat.entries).Sublist (_ ++ [])
      rw [Coordinator.entries_purge, List.append_nil]
      exact List.filter_sublist
    | _ => cases ha

namespace Venue
variable {κ : Type} [Client.Quantity κ] {owner : Nat → Profile} {v : Venue κ} {now : Nat} {t : Turn}

/-- the messages that a turn brings to the recent chat -/
def posts : Turn → List ChatEntry
  | .act a => a.posts
  | _ => []

theorem remembers_next (owner : Nat → Profile) (v : Venue κ) (now : Nat) (t : Turn) :
    v.world.coordinator.Remembers (v.next owner now t).world.coordinator (posts t) := by
  have hsame : ∀ u : Venue κ, u.world = v.world →
      v.world.coordinator.Remembers u.world.coordinator (posts t) := fun u hu =>
    Coordinator.remembers_of_eq (congrArg (fun w : World => w.coordinator.chat) hu) _
  cases t with
  | act a =>
    by_cases h : v.admits a = true
    · rw [next_act h]
      exact World.remembers_outcome owner v.world a
    · exact hsame _ (congrArg world (if_neg h))
  | arrive n settings =>
    by_cases h : v.clients.hasKey n = true
    · exact hsame _ (congrArg world (if_pos h))
    · rw [next_arrive h]
      exact hsame _ rfl
  | _ => exact hsame _ rfl

theorem remembers_run (owner : Nat → Profile) (v : Venue κ) (turns : List (Nat × Turn)) :
    v.world.coordinator.Remembers (v.run owner turns).world.coordinator
      (turns.flatMap fun t => posts t.2) := by
  induction turns generalizing v with
  | nil => exact Coordinator.remembers_of_eq rfl _
  | cons t turns ih =>
    have hone := v.remembers_next owner t.1 t.2
    have hrest := ih (v.next owner t.1 t.2)
    refine ⟨hrest.capacity.trans hone.capacity, hrest.entries.trans ?_⟩
    rw [List.flatMap_cons, ← List.append_assoc]
    exact hone.entries.append_right _

/-! ## who is registered has been started -/

/-- What a turn comes to on the way out of a client is a run. -/
theorem exists_events (owner : Nat → Profile) (now : Nat) (t : Turn) {n : Nat} {x : Client κ}
    (hx : v.clients.get? n = some x) :
    ∃ y es, (v.next owner now t).clients.get? n = some y ∧ y.outbound = x.outbound.run es := by
  have hon : ∀ (m : Nat) (f : Client κ → Client κ)
      (hf : ∀ y, Endpoint.connection (f y) = Endpoint.connection y) (e : Event)
      (he : ∀ y, (f y).outbound = y.outbound.next e),
      ∃ y es, (v.clients.on m f hf).get? n = some y ∧ y.outbound = x.outbound.run es := by
    intro m f hf e he
    rw [Endpoints.get?_on, hx]
    by_cases hm : m = n
    · exact ⟨f x, [e], by simp [hm], he x⟩
    · exact ⟨x, [], by simp [hm], rfl⟩
  cases t with
  | arrive m settings =>
    by_cases hm : v.clients.hasKey m = true
    · rw [show v.next owner now (.arrive m settings) = v from if_pos hm]
      exact ⟨x, [], hx, rfl⟩
    · rw [next_arrive hm]
      have hne : m ≠ n := by
        rintro rfl
        exact hm (has_iff_hasKey.1 ⟨x, hx⟩)
      refine ⟨x, [], ?_, rfl⟩
      show (v.clients.insert _).get? n = some x
      rw [Ascending.get?_insert]
      exact (if_neg hne).trans hx
  | act a =>
    by_cases ha : v.admits a = true
    · rw [next_act ha]
      refine ⟨_, _, ?_, Effect.outbound_foldl_upon now n x (v.world.outcome owner a).effects⟩
      show (v.clients.applyAll now _).get? n = _
      rw [Endpoints.get?_applyAll, hx]
      rfl
    · rw [show v.next owner now (.act a) = v from if_neg ha]
      exact ⟨x, [], hx, rfl⟩
  | write m => exact hon m (·.write now) (fun _ => rfl) (.turn now) fun _ => rfl
  | fail m writeFails pingFails =>
    exact hon m (·.fail writeFails pingFails) (fun _ => rfl) (.fail writeFails pingFails)
      fun _ => rfl
  | close m => exact hon m _ Endpoint.connection_close .close fun _ => rfl

/-- every registered session has a client, and that was started or closed -/
def Begun (v : Venue κ) : Prop :=
  ∀ e ∈ v.world.coordinator.clients,
    ∃ x, v.clients.get? e.connection = some x ∧ x.outbound.writer ≠ .idle

/-- Whoever is registered after a turn was so before, or has just connected. -/
theorem registered_next {e : Session}
    (he : e ∈ (v.next owner now t).world.coordinator.clients) :
    v.world.coordinator.Serves e.connection ∨
      ∃ status, t = .act (.connect e.connection status) ∧ v.Has e.connection := by
  cases t with
  | act a =>
    by_cases ha : v.admits a = true
    · rw [next_act ha] at he
      rcases (World.change_outcome owner v.world a).connection he with hserves | ⟨status, rfl⟩
      · exact .inl hserves
      · exact .inr ⟨status, rfl, has_iff_hasKey.2 ha⟩
    · rw [show v.next owner now (.act a) = v from if_neg ha] at he
      exact .inl ⟨e, he, rfl⟩
  | arrive m settings =>
    by_cases hm : v.clients.hasKey m = true
    · rw [show v.next owner now (.arrive m settings) = v from if_pos hm] at he
      exact .inl ⟨e, he, rfl⟩
    · rw [next_arrive hm] at he
      exact .inl ⟨e, he, rfl⟩
  | _ => exact .inl ⟨e, he, rfl⟩

theorem begun_next (h : v.Begun) : (v.next owner now t).Begun := by
  intro e he
  rcases registered_next he with ⟨d, hd, hconnection⟩ | ⟨status, rfl, x, hx⟩
  · obtain ⟨x, hx, hwriter⟩ := h d hd
    rw [hconnection] at hx
    obtain ⟨y, es, hy, houtbound⟩ := exists_events owner now t hx
    exact ⟨y, hy, houtbound ▸ Client.Outbound.writer_run_ne_idle hwriter es⟩
  · have hadmits : v.admits (.connect e.connection status) = true := has_iff_hasKey.1 ⟨x, hx⟩
    rw [next_act hadmits]
    refine ⟨_, (Endpoints.get?_applyAll _ _ _ _).trans (congrArg _ hx), ?_⟩
    rw [Effect.outbound_foldl_upon]
    refine Client.Outbound.writer_run_ne_idle_of_start now ?_
    refine List.mem_filterMap.2 ⟨.start e.connection, ?_, if_pos rfl⟩
    show _ ∈ _ ++ [Effect.start e.connection] ++ _ ++ _ ++ _
    simp

theorem begun_run (config : Config) (owner : Nat → Profile) (turns : List (Nat × Turn)) :
    ((opened config).run owner turns : Venue κ).Begun := by
  refine run_induction (P := Begun) (fun v now t => begun_next) ?_ turns
  intro e he
  exact absurd he (Ascending.not_mem_empty e)

end Venue

/-! ## what a newcomer is sent -/

namespace Coordinator
variable {owner : Nat → Profile} {c : Coordinator} {n : Nat} {status : ChatStatus}

/-- The recent chat for those who may read it, and then everything about users and queues. -/
theorem responses_connect (h : c.Owned owner) :
    Effect.responses n (c.connect ⟨n, owner n, status⟩).effects =
      (if status.hasMessageAccess then c.chat.entries.map Response.message else []) ++
        [(c.connect ⟨n, owner n, status⟩).state.fullUpdate] := by
  let d := (c.connect ⟨n, owner n, status⟩).state
  have hd : d.Owned owner := h.insert rfl rfl
  have he : (⟨n, owner n, status⟩ : Session) ∈ d.clients := Ascending.mem_insert.2 (.inl rfl)
  have hclose : Effect.responses n
      ((c.client? (owner n).steamId).toList.map fun p => .close p.connection) = [] := by
    cases c.client? (owner n).steamId <;> rfl
  have hrelease : Effect.responses n (if c.released then [.release] else []) = [] := by
    cases c.released <;> rfl
  have hreplay : Effect.responses n (if status.hasMessageAccess then d.replay n else []) =
      if status.hasMessageAccess then c.chat.entries.map Response.message else [] := by
    cases status.hasMessageAccess with
    | true =>
      rw [if_pos rfl, if_pos rfl, responses_replay, if_pos rfl]
      rfl
    | false => rfl
  show Effect.responses n
    (((c.client? (owner n).steamId).toList.map fun p => Effect.close p.connection) ++
      [Effect.start n] ++ (if c.released then [Effect.release] else []) ++
      (if status.hasMessageAccess then d.replay n else []) ++ d.broadcastAll d.fullUpdate) = _
  rw [Effect.responses_append, Effect.responses_append, Effect.responses_append,
    Effect.responses_append, hclose, hrelease, hreplay, responses_broadcastAll hd he]
  rfl

/-- A connection that is not registered yet is not closed by connecting. -/
theorem not_close_of_connect (hn : ¬ c.Serves n) :
    .close n ∉ (c.connect ⟨n, owner n, status⟩).effects := by
  intro h
  have hreplay : ∀ d : Coordinator, .close n ∉ d.replay n := fun d h => by
    obtain ⟨e, -, he⟩ := List.mem_map.1 h
    cases he
  simp only [connect, List.mem_append] at h
  rcases h with (((h | h) | h) | h) | h
  · obtain ⟨p, hp, hclose⟩ := List.mem_map.1 h
    cases hclose
    rw [Option.mem_toList] at hp
    exact hn ⟨p, (client?_eq_some_iff.1 hp).1, rfl⟩
  · cases List.mem_singleton.1 h
  · split at h
    · cases List.mem_singleton.1 h
    · cases h
  · split at h
    · exact hreplay _ h
    · cases h
  · obtain ⟨e, -, -, he⟩ := mem_broadcast.1 h
    cases he

end Coordinator

/-! ## room for all of it -/

theorem Config.history_lt_outbound {config c : Config} (h : config.validated = .ok c) :
    max c.chatHistorySize.toNat 1 + 16 ≤ c.clientSettings.outboundCapacity := by
  have hhistory : c.chatHistorySize.toNat = max config.chatHistorySize.toNat 1 :=
    toNat_positive (f := chatHistorySize) h (by simp [positive])
  show _ ≤ c.outboundQueueSize.toNat
  rw [toNat_outboundQueueSize h]
  omega

/-- The client was made with these settings, and neither started nor closed since, nor sent
anything.  The connection may fail, and the process may shut down. -/
def Client.Fresh {κ : Type} (s : Client.Settings) (x : Client κ) : Prop :=
  ∃ shutdown writeFails pingFails, x.outbound =
    { Outbound.new x.session.steamId s with shutdown, link := { writeFails, pingFails } }

theorem Client.Fresh.sound {κ : Type} {s : Client.Settings} {x : Client κ} (h : x.Fresh s) :
    Outbound.Sound x.session.steamId (max 1 s.outboundCapacity) x.outbound := by
  obtain ⟨shutdown, writeFails, pingFails, houtbound⟩ := h
  have hnew := Outbound.sound_new x.session.steamId s
  rw [houtbound]
  exact ⟨hnew.owner, hnew.capacity, hnew.period, hnew.room, nofun, nofun, nofun, hnew.closes⟩

theorem Client.Fresh.calm {κ : Type} {s : Client.Settings} {x : Client κ} (h : x.Fresh s) :
    Outbound.Calm (max s.outboundCapacity 1) [] x.outbound := by
  obtain ⟨shutdown, writeFails, pingFails, houtbound⟩ := h
  rw [houtbound]
  exact ⟨rfl, nofun, rfl, rfl⟩

theorem Client.Fresh.idle {κ : Type} {s : Client.Settings} {x : Client κ} (h : x.Fresh s) :
    x.outbound.writer = .idle := by
  obtain ⟨shutdown, writeFails, pingFails, houtbound⟩ := h
  rw [houtbound]
  rfl

/-- Of as many responses as may wait, all do. -/
theorem Client.Fresh.calm_foldl {κ : Type} [Client.Quantity κ] {s : Client.Settings} {x : Client κ}
    (h : x.Fresh s) {now n : Nat} {effects : List Effect} (hclose : .close n ∉ effects)
    (hfew : (Effect.responses n effects).length ≤ max s.outboundCapacity 1) :
    Outbound.Calm (max s.outboundCapacity 1) (Effect.responses n effects)
      (effects.foldl (Effect.upon now n) x).outbound := by
  have hcalm := h.calm.run (effects.filterMap (Effect.event? now n))
    (Effect.isCalm_events hclose) (by rwa [Effect.sends_events])
  rw [Effect.sends_events, List.nil_append] at hcalm
  rwa [Effect.outbound_foldl_upon]

/-- Before each of as many responses there is room for it. -/
theorem Client.Fresh.accepts_foldl {κ : Type} [Client.Quantity κ] {s : Client.Settings}
    {x : Client κ} (h : x.Fresh s) {now n : Nat} {before after : List Effect} {r : Response}
    (hclose : .close n ∉ before ++ .deliver n r :: after)
    (hfew : (Effect.responses n (before ++ .deliver n r :: after)).length ≤
      max s.outboundCapacity 1) :
    (before.foldl (Effect.upon now n) x).Accepts := by
  have hthis : 0 < (Effect.responses n (.deliver n r :: after)).length :=
    List.length_pos_of_mem (Effect.mem_responses.2 List.mem_cons_self)
  rw [Effect.responses_append, List.length_append] at hfew
  have hcalm : Outbound.Calm (max s.outboundCapacity 1) (Effect.responses n before)
      (before.foldl (Effect.upon now n) x).outbound :=
    h.calm_foldl (fun h => hclose (List.mem_append_left _ h)) (Nat.le_of_add_right_le hfew)
  refine ⟨hcalm.opened, beq_eq_false_iff_ne.2 hcalm.writer, ?_⟩
  rw [hcalm.queue_eq, hcalm.capacity]
  omega

namespace Venue
variable {κ : Type} [Client.Quantity κ] {owner : Nat → Profile} {v : Venue κ} {n : Nat}
  {x : Client κ}

theorem Begun.not_serves (h : v.Begun) (hx : v.clients.get? n = some x)
    (hidle : x.outbound.writer = .idle) : ¬ v.world.coordinator.Serves n := by
  rintro ⟨e, he, rfl⟩
  obtain ⟨y, hy, hwriter⟩ := h e he
  rw [hx] at hy
  cases hy
  exact hwriter hidle

/-- The recent chat and one more response are fewer than a client of a checked configuration lets
wait. -/
theorem length_history_lt {config c : Config} (hc : config.validated = .ok c)
    (owner : Nat → Profile) (turns : List (Nat × Turn)) :
    let v : Venue κ := (opened c).run owner turns
    v.world.coordinator.chat.entries.length + 1 < c.clientSettings.outboundCapacity := by
  intro v
  have hcapacity := (remembers_run owner (opened c : Venue κ) turns).capacity
  have hlength := v.world.coordinator.chat.length_le
  have hroom := Config.history_lt_outbound hc
  rw [hcapacity] at hlength
  change _ ≤ max c.chatHistorySize.toNat 1 at hlength
  omega

/-- So are the replay, if there is one, and the update behind it. -/
theorem length_replay_lt {config c : Config} (hc : config.validated = .ok c)
    (owner : Nat → Profile) (turns : List (Nat × Turn)) (status : ChatStatus) (r : Response) :
    let v : Venue κ := (opened c).run owner turns
    ((if status.hasMessageAccess then v.world.coordinator.chat.entries.map Response.message
      else []) ++ [r]).length < max c.clientSettings.outboundCapacity 1 := by
  intro v
  have hhistory := length_history_lt (κ := κ) hc owner turns
  refine Nat.lt_of_le_of_lt ?_ (Nat.lt_of_lt_of_le hhistory (Nat.le_max_left _ 1))
  rw [List.length_append, List.length_singleton]
  refine Nat.add_le_add_right ?_ 1
  cases status.hasMessageAccess with
  | true => exact (List.length_map _).le
  | false => exact Nat.zero_le _

/-- **A newcomer has room for the replay.**  Unless its sum overflows, there is a configuration once
it is checked.  Whoever connects with a client that was made for it is sent the recent chat, the
oldest message first and only if allowed to read it, and then a full update.  The client takes every
one of these responses, and all of them wait.  And if the writer is at work while they are sent, none
finds the queue full either; if nothing fails and the process goes on, all are taken. -/
theorem replay_fits (config : Config) (hsize : config.chatHistorySize.toNat + 16 < 2 ^ 64) :
    ∃ c, config.validated = .ok c ∧
    ∀ (owner : Nat → Profile) (turns : List (Nat × Turn)) (now n : Nat) (status : ChatStatus)
      (x : Client κ), ((opened c).run owner turns : Venue κ).clients.get? n = some x →
      x.Fresh c.clientSettings →
    let v : Venue κ := (opened c).run owner turns
    let o := v.world.outcome owner (.connect n status)
    let rs := (if status.hasMessageAccess then v.world.coordinator.chat.entries.map .message
      else []) ++ [o.state.fullUpdate]
    Effect.responses n o.effects = rs ∧
    v.world.coordinator.chat.entries.Sublist (turns.flatMap fun t => posts t.2) ∧
    (∀ before r after, o.effects = before ++ .deliver n r :: after →
      ∃ y z, (v.clients.applyAll now before).get? n = some y ∧ y.send r = .ok z) ∧
    (∃ y, (v.next owner now (.act (.connect n status))).clients.get? n = some y ∧
      y.outbound.queue = rs) ∧
    ∀ es, sends es = rs → ∀ before r after, es = before ++ .send r :: after →
      (∀ p, (x.outbound.run before).send r ≠ .error (.queueFull p)) ∧
      (.close ∉ before → .shutDown ∉ before → x.outbound.shutdown = false →
        x.outbound.failsIn before = false → ∃ p, (x.outbound.run before).send r = .ok p) := by
  obtain ⟨c, hc⟩ := Config.exists_validated_iff.2 hsize
  refine ⟨c, hc, ?_⟩
  intro owner turns now n status x hx hfresh v o rs
  obtain ⟨as, has⟩ := world_run (κ := κ) c owner turns
  have howned : v.world.coordinator.Owned owner := has ▸ World.owned_run c owner as
  have hresponses : Effect.responses n o.effects = rs := Coordinator.responses_connect howned
  have hlt : rs.length < max c.clientSettings.outboundCapacity 1 :=
    length_replay_lt (κ := κ) hc owner turns status _
  have hfew : (Effect.responses n o.effects).length ≤ max c.clientSettings.outboundCapacity 1 := by
    rw [hresponses]
    exact hlt.le
  have hnew : ¬ v.world.coordinator.Serves n :=
    Begun.not_serves (begun_run c owner turns) hx hfresh.idle
  have hclose : .close n ∉ o.effects := Coordinator.not_close_of_connect hnew
  refine ⟨hresponses, ?_, ?_, ?_, ?_⟩
  · exact (remembers_run owner (opened c : Venue κ) turns).entries
  · intro before r after hsplit
    rw [hsplit] at hclose hfew
    have haccepts : (before.foldl (Effect.upon now n) x).Accepts :=
      hfresh.accepts_foldl hclose hfew
    refine ⟨_, _, ?_, Client.send_of_accepts haccepts r⟩
    rw [Endpoints.get?_applyAll]
    exact congrArg _ hx
  · have hadmits : v.admits (.connect n status) = true := has_iff_hasKey.1 ⟨x, hx⟩
    refine ⟨o.effects.foldl (Effect.upon now n) x, ?_, ?_⟩
    · rw [next_act hadmits]
      exact (Endpoints.get?_applyAll _ _ _ _).trans (congrArg _ hx)
    · rw [(hfresh.calm_foldl hclose hfew).queue_eq, hresponses]
  · rintro es hes before r after rfl
    have hroom : x.outbound.queue.length + (sends before).length <
        max 1 c.clientSettings.outboundCapacity := by
      rw [← hes, sends_append, List.length_append] at hlt
      rw [hfresh.calm.queue_eq, List.length_nil, Nat.max_comm]
      omega
    exact ⟨send_of_few hfresh.sound hroom r, fun hclosed hshutDown hgoesOn hworks =>
      send_of_few_open hfresh.sound hfresh.calm.opened hgoesOn hclosed hshutDown hworks hroom r⟩

end Venue

/-! ## a sample -/

namespace Sample

/-- room for two messages, and for one response -/
def narrow : Config := { chatHistorySize := 2, outboundQueueSize := 1 }

/-- `narrow` when it is checked -/
def widened : Config := { chatHistorySize := 2, outboundQueueSize := 18 }

/-- three messages, and then a client -/
def lateGuest : List (Nat × Turn) :=
  [(0, .act (.seed [entry 1, entry 2])), (1, .act (.message (entry 3))),
    (2, .arrive 1 widened.clientSettings)]

end Sample

namespace Venue

theorem replay_fits_sample :
    let v : Venue Rat := (opened Sample.widened).run Sample.owner Sample.lateGuest
    Sample.narrow.chatHistorySize.toNat + 16 < 2 ^ 64 ∧
    Sample.narrow.validated = .ok Sample.widened ∧
    ∃ x y, v.clients.get? 1 = some x ∧ x.Fresh Sample.widened.clientSettings ∧
      (v.next Sample.owner 3 (.act (.connect 1 .readwrite))).clients.get? 1 = some y ∧
      y.outbound.queue = [.message (Sample.entry 2), .message (Sample.entry 3),
        .stateUpdate ⟨true, true, [], [(⟨1, Sample.owner 1, .readwrite⟩ : Session).member]⟩] := by
  have hsize : Sample.narrow.chatHistorySize.toNat + 16 < 2 ^ 64 := by decide
  have hwidened : Sample.narrow.validated = .ok Sample.widened := rfl
  have hx : ((opened Sample.widened).run Sample.owner Sample.lateGuest :
      Venue Rat).clients.get? 1 = some (.new 1 (Sample.owner 1)
        Sample.widened.clientSettings 2 2) := rfl
  have hfresh : (Client.new 1 (Sample.owner 1) Sample.widened.clientSettings 2 2 :
      Client Rat).Fresh Sample.widened.clientSettings := ⟨false, false, false, rfl⟩
  obtain ⟨c, hc, hfits⟩ := replay_fits (κ := Rat) Sample.narrow hsize
  cases hwidened.symm.trans hc
  obtain ⟨-, -, -, ⟨y, hy, hqueue⟩, -⟩ := hfits Sample.owner Sample.lateGuest 3 1 .readwrite _
    hx hfresh
  refine ⟨hsize, hwidened, _, y, hx, hfresh, hy, hqueue.trans ?_⟩
  decide +kernel

end Venue

end Matchmaker
