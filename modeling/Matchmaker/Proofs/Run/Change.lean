import Matchmaker.Proofs.Run.Basic

/-!
# What an action can change

All actions taken apart once.  `Change owner w a o` lists the ways in which an action can end: next
to nothing happens (`quiet`), one client's chat status changes (`status`), a session comes or
sessions go, the queues change by joining, by leaving or by a look at the feed, or a match starts.
Each case gives the state after it and says what is sent, and `change_outcome` says that these are
all.  Whatever holds in every run is proved from these cases, and the operations are not looked into
again.
-/

namespace Matchmaker

open Coordinator (Outcome announced)

/-- tells nobody of users, queues or matches -/
def Effect.Quiet : Effect → Prop
  | .deliver _ (.stateUpdate _) => False
  | .deliver _ (.startGame _ _) => False
  | _ => True

namespace World

/-- the ways in which an action can end -/
inductive Change (owner : Nat → Profile) (w : World) (a : Action) : Outcome → Prop where
  | quiet (o : Outcome) (hclients : o.state.clients = w.coordinator.clients)
      (hlobbies : o.state.lobbies = w.coordinator.lobbies)
      (hsettings : o.state.settings = w.coordinator.settings)
      (heffects : ∀ e ∈ o.effects, e.Quiet) : Change owner w a o
  | status (e : Session) (he : e ∈ w.coordinator.clients) (status : ChatStatus)
      (effects : List Effect) (heffects : ∀ e ∈ effects, e.Quiet) :
      Change owner w a
        ⟨{ w.coordinator with
            clients := w.coordinator.clients.insert { e with chatStatus := status } }, effects⟩
  | comes (n : Nat) (status : ChatStatus) (ha : a = .connect n status) (before : List Effect)
      (hbefore : ∀ e ∈ before, e.Quiet) (d : Coordinator)
      (hclients : d.clients = w.coordinator.clients.insert ⟨n, owner n, status⟩)
      (hlobbies : d.lobbies = w.coordinator.lobbies)
      (hsettings : d.settings = w.coordinator.settings) :
      Change owner w a ⟨d, before ++ d.broadcastAll d.fullUpdate⟩
  | goes (gone : List Session) (before after : List Effect) (hbefore : ∀ e ∈ before, e.Quiet)
      (hafter : ∀ e ∈ after, e.Quiet) :
      Change owner w a
        ⟨w.coordinator.removeEach gone,
          before ++ (w.coordinator.removeEach gone).broadcastAll
            (w.coordinator.removeEach gone).fullUpdate ++ after⟩
  | joins (p : SteamId) (servers : List ServerId) (ha : a = .enqueue p servers)
      (hp : w.coordinator.isConnected p = true) :
      Change owner w a
        (announced { w.coordinator with lobbies := (w.coordinator.lobbies.join p servers).1 })
  | leaves (p : SteamId) (servers : List ServerId) :
      Change owner w a
        (announced { w.coordinator with lobbies := (w.coordinator.lobbies.leave p servers).1 })
  | reports (feed : List LobbyInfo) (ha : a = .report (.ok feed)) :
      Change owner w a
        (announced { w.coordinator with lobbies := (w.coordinator.lobbies.reconcile feed).1 })
  | refreshes (feed : List LobbyInfo)
      (h : (w.coordinator.lobbies.reconcile feed).2.changed = false)
      (ha : a = .report (.ok feed)) :
      Change owner w a
        (.still { w.coordinator with lobbies := (w.coordinator.lobbies.reconcile feed).1 })
  | starts (l : Lobby) (address : Address) (ha : w.starting? a = some l)
      (h : w.coordinator.isUnchanged l = true) : Change owner w a (w.coordinator.matched l address)

variable {owner : Nat → Profile} {w : World} {a : Action}

theorem Change.still : Change owner w a (.still w.coordinator) :=
  .quiet _ rfl rfl rfl fun _ he => absurd he List.not_mem_nil

end World

namespace Coordinator

theorem quiet_replay (c : Coordinator) (n : Nat) : ∀ e ∈ c.replay n, e.Quiet := by
  intro e he
  obtain ⟨entry, -, rfl⟩ := List.mem_map.1 he
  trivial

theorem quiet_broadcast (c : Coordinator) (r : Protocol.Response) (p : Session → Bool)
    (hr : ∀ n, (Effect.deliver n r).Quiet) : ∀ e ∈ c.broadcast r p, e.Quiet := by
  intro e he
  obtain ⟨s, -, -, rfl⟩ := mem_broadcast.1 he
  exact hr s.connection

/-- Before everyone is told, the session before is closed and the newcomer gets the chat. -/
theorem effects_connect (c : Coordinator) (s : Session) :
    ∃ before, (∀ e ∈ before, e.Quiet) ∧ (c.connect s).effects =
      before ++ (c.connect s).state.broadcastAll (c.connect s).state.fullUpdate := by
  refine ⟨_, ?_, rfl⟩
  intro e he
  rcases List.mem_append.1 he with he | he
  · rcases List.mem_append.1 he with he | he
    · rcases List.mem_append.1 he with he | he
      · obtain ⟨x, -, rfl⟩ := List.mem_map.1 he
        trivial
      · rw [List.mem_singleton.1 he]
        trivial
    · split at he
      · rw [List.mem_singleton.1 he]
        trivial
      · cases he
  · split at he
    · exact quiet_replay _ _ e he
    · cases he

end Coordinator

namespace World
variable {owner : Nat → Profile} {w : World} {a : Action}

theorem change_connect (n : Nat) (status : ChatStatus) :
    Change owner w (.connect n status) (w.coordinator.connect ⟨n, owner n, status⟩) := by
  obtain ⟨before, hbefore, heffects⟩ :=
    Coordinator.effects_connect w.coordinator ⟨n, owner n, status⟩
  have hconnect : w.coordinator.connect ⟨n, owner n, status⟩ =
      ⟨(w.coordinator.connect ⟨n, owner n, status⟩).state, _⟩ :=
    congrArg (Outcome.mk _) heffects
  rw [hconnect]
  exact .comes n status rfl before hbefore _ rfl rfl rfl

theorem change_disconnect (n : Nat) :
    Change owner w (.disconnect n) (w.coordinator.disconnect (owner n).steamId n) := by
  have hclose : ∀ e ∈ [Effect.close n], e.Quiet := by
    intro e he
    rw [List.mem_singleton.1 he]
    trivial
  unfold Coordinator.disconnect
  split
  · rename_i h
    obtain ⟨e, -, he, -⟩ := Coordinator.isCurrent_iff.1 h
    rw [← he]
    exact .goes [e] [] [.close n] (fun _ h => absurd h List.not_mem_nil) hclose
  · exact .quiet _ rfl rfl rfl hclose

theorem change_evict (now : Nat) (lastSeen : Nat → Nat) :
    Change owner w (.evict now lastSeen) (w.coordinator.evict now lastSeen).1 := by
  have hclose : ∀ e ∈ (w.coordinator.idle now lastSeen).map fun s => Effect.close s.connection,
      e.Quiet := by
    intro e he
    obtain ⟨x, -, rfl⟩ := List.mem_map.1 he
    trivial
  cases hgone : w.coordinator.idle now lastSeen with
  | nil =>
    have : (w.coordinator.evict now lastSeen).1 = .still w.coordinator := by
      unfold Coordinator.evict
      rw [hgone]
      rfl
    rw [this]
    exact .still
  | cons e gone =>
    have : Change owner w (.evict now lastSeen) _ := .goes (e :: gone)
      ((e :: gone).map fun s => .close s.connection) [] (hgone ▸ hclose)
      fun _ h => absurd h List.not_mem_nil
    rw [List.append_nil] at this
    unfold Coordinator.evict
    rw [hgone]
    exact this

theorem change_message (e : ChatEntry) :
    Change owner w (.message e) (w.coordinator.message e) := by
  refine .quiet _ rfl rfl rfl ?_
  intro x hx
  exact Coordinator.quiet_broadcast _ (.message e) Session.hasMessageAccess (fun _ => trivial) x hx

theorem change_purge (ids : List Int) :
    Change owner w (.purge ids) (w.coordinator.purge ids).1 := by
  unfold Coordinator.purge
  split
  · exact .still
  · refine .quiet _ rfl rfl rfl ?_
    intro x hx
    exact Coordinator.quiet_broadcast _ (.purge ids) (fun _ => true) (fun _ => trivial) x hx

theorem change_updateChatStatus (p : SteamId) (status : ChatStatus) (reason : String) :
    Change owner w (.updateChatStatus p status reason)
      (w.coordinator.updateChatStatus p status reason).1 := by
  unfold Coordinator.updateChatStatus
  cases hc : w.coordinator.client? p with
  | none => exact .still
  | some e =>
    refine .status e (Coordinator.client?_eq_some_iff.1 hc).1 status _ ?_
    intro x hx
    rcases List.mem_cons.1 hx with rfl | hx
    · trivial
    · split at hx
      · exact Coordinator.quiet_replay _ _ x hx
      · cases hx

theorem change_shutDown : Change owner w .shutDown w.coordinator.shutDown := by
  refine .quiet _ rfl rfl rfl ?_
  intro e he
  rcases List.mem_append.1 he with he | he
  · exact Coordinator.quiet_broadcast _ (.bye _) (fun _ => true) (fun _ => trivial) e he
  · rw [List.mem_singleton.1 he]
    trivial

theorem change_proceed (i : Nat) (lookup : Lookup) :
    Change owner w (.proceed i lookup) (w.resumed i lookup).1 := by
  cases hs : w.started? i lookup with
  | none =>
    rw [resumed_of_not_started hs]
    exact .still
  | some l =>
    obtain ⟨rest, address, o, -, -, hstart, hresumed⟩ := resumed_of_started hs
    obtain ⟨h, rfl⟩ := Coordinator.startMatch?_eq_some_iff.1 hstart
    rw [hresumed]
    exact .starts l address hs h

/-- **These are all the ways.** -/
theorem change_outcome (owner : Nat → Profile) (w : World) (a : Action) :
    Change owner w a (w.outcome owner a) := by
  cases a with
  | introduce n status => exact .quiet _ rfl rfl rfl fun _ he => absurd he List.not_mem_nil
  | connect n status => exact change_connect n status
  | disconnect n => exact change_disconnect n
  | evict now lastSeen => exact change_evict now lastSeen
  | enqueue p servers =>
    show Change owner w _ ((w.coordinator.enqueue? p servers).getD (.still w.coordinator))
    rw [Coordinator.enqueue?_eq]
    split
    · rename_i h
      exact .joins p servers rfl h.1
    · exact .still
  | leave p servers =>
    show Change owner w _ (w.coordinator.leave p servers)
    rw [Coordinator.leave_eq]
    split
    · exact .leaves p servers
    · exact .still
  | report feed =>
    cases feed with
    | ok feed =>
      show Change owner w _ (w.coordinator.reconcile feed)
      rw [Coordinator.reconcile_eq]
      split
      · exact .reports feed rfl
      · rename_i h
        exact .refreshes feed (Bool.eq_false_iff.2 h) rfl
    | error e => exact .still
  | list => exact .still
  | proceed i lookup => exact change_proceed i lookup
  | seed entries => exact .quiet _ rfl rfl rfl fun _ he => absurd he List.not_mem_nil
  | message e => exact change_message e
  | purge ids => exact change_purge ids
  | updateChatStatus p status reason => exact change_updateChatStatus p status reason
  | shutDown => exact change_shutDown

/-! ## what is sent -/

/-- Nobody is told of users or queues but by an update for everyone, or called to a match but by its
start. -/
theorem Change.mem_effects {o : Outcome} {e : Effect} (h : Change owner w a o)
    (he : e ∈ o.effects) :
    e.Quiet ∨ e ∈ o.state.broadcastAll o.state.fullUpdate ∨
      e ∈ o.state.broadcastAll o.state.serversUpdate ∨
      ((∃ l, w.starting? a = some l) ∧
        ∃ n server users, e = .deliver n (.startGame server users)) := by
  cases h with
  | quiet o hclients hlobbies hsettings heffects => exact .inl (heffects e he)
  | status s hs status effects heffects => exact .inl (heffects e he)
  | comes n status ha before hbefore d hclients hlobbies hsettings =>
    rcases List.mem_append.1 he with he | he
    · exact .inl (hbefore e he)
    · exact .inr (.inl he)
  | goes gone before after hbefore hafter =>
    rcases List.mem_append.1 he with he | he
    · rcases List.mem_append.1 he with he | he
      · exact .inl (hbefore e he)
      · exact .inr (.inl he)
    · exact .inl (hafter e he)
  | joins p servers ha hp => exact .inr (.inr (.inl he))
  | leaves p servers => exact .inr (.inr (.inl he))
  | reports feed => exact .inr (.inr (.inl he))
  | refreshes feed hsame => exact absurd he List.not_mem_nil
  | starts l address ha hl =>
    rcases List.mem_append.1 he with he | he
    · obtain ⟨s, -, rfl⟩ := List.mem_map.1 he
      exact .inr (.inr (.inr ⟨⟨l, ha⟩, _, _, _, rfl⟩))
    · exact .inr (.inr (.inl he))

end World

end Matchmaker
