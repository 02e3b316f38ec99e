import Matchmaker.Proofs.Coordinator.RecentChat
import Matchmaker.Proofs.Run.Calling
import Matchmaker.Proofs.Run.Eviction

/-!
# A search takes out those who are idle

A search for idle clients first takes down who is idle, and then takes these sessions out one after
the other.  Since no two of them are of one player, what it comes to does not depend on their order:
the registered sessions are those that were not taken down, and every queue is what it was without
their players (`clients_removeEach`, `lobbies_removeEach`).  Everyone who is left is told once, when
all of this has been done, so what they are told is what they knew without those who are gone
(`fullUpdate_removeEach`).
-/

namespace Matchmaker

open Protocol (LobbyState Response)

/-! ## queues without some players -/

namespace Protocol.LobbyState

/-- what is shown of a queue when these players have left it -/
def without (players : List SteamId) (s : LobbyState) : LobbyState :=
  { s with members := s.members.filter fun p => p ∉ players }

theorem without_nil (s : LobbyState) : s.without [] = s := by simp [without]

theorem without_cons (s : LobbyState) (p : SteamId) (players : List SteamId) :
    s.without (p :: players) = (s.without [p]).without players := by
  simp [without, List.filter_filter, Bool.and_comm]

end Protocol.LobbyState

theorem Lobby.state_leave (l : Lobby) (p : SteamId) : (l.leave p).state = l.state.without [p] := by
  show LobbyState.mk l.serverId (l.members.toList.filter _) =
    LobbyState.mk l.serverId (l.members.toList.filter _)
  congr 1
  refine List.filter_congr fun q _ => ?_
  rw [Bool.eq_iff_iff, bne_iff_ne, decide_eq_true_eq, List.mem_singleton]
  exact not_congr ⟨SteamId.ext_toNat, congrArg SteamId.toNat⟩

namespace Registry

theorem states_leaveAll (r : Registry) (p : SteamId) :
    (r.leaveAll p).1.states = r.states.map (LobbyState.without [p]) := by
  show List.map _ (List.map _ _) = List.map _ (List.map _ _)
  rw [List.map_map, List.map_map]
  exact List.map_congr_left fun l _ => l.state_leave p

theorem states_leaveEach (r : Registry) (players : List SteamId) :
    (r.leaveEach players).states = r.states.map (LobbyState.without players) := by
  induction players generalizing r with
  | nil =>
    rw [leaveEach_nil, funext LobbyState.without_nil]
    exact (List.map_id _).symm
  | cons p players ih =>
    rw [leaveEach_cons, ih, states_leaveAll, List.map_map]
    exact List.map_congr_left fun s _ => (s.without_cons p players).symm

end Registry

/-! ## connections that are closed -/

namespace Effect

/-- the connection that an effect closes -/
def closed? : Effect → Option Nat
  | close n => some n
  | _ => none

/-- the connections that are closed, in order -/
def closed (es : List Effect) : List Nat := es.filterMap closed?

theorem closed_closes_append (gone : List Session) {es : List Effect}
    (hes : ∀ x ∈ es, ∃ n r, x = .deliver n r) :
    closed ((gone.map fun e => .close e.connection) ++ es) = gone.map Session.connection := by
  have hnone : es.filterMap closed? = [] := by
    refine List.filterMap_eq_nil_iff.2 fun x hx => ?_
    obtain ⟨n, r, rfl⟩ := hes x hx
    rfl
  unfold closed
  rw [List.filterMap_append, hnone, List.append_nil, List.filterMap_map]
  exact congrFun List.filterMap_eq_map _

theorem responses_closes (n : Nat) (gone : List Session) :
    responses n (gone.map fun e => .close e.connection) = [] := by
  refine List.filterMap_eq_nil_iff.2 fun x hx => ?_
  obtain ⟨e, -, rfl⟩ := List.mem_map.1 hx
  rfl

end Effect

namespace Coordinator
variable {owner : Nat → Profile} {c : Coordinator} {gone : List Session} {now : Nat}
  {lastSeen : Nat → Nat}

/-! ## taking out several sessions -/

/-- the full update when these players have gone -/
def updateWithout (c : Coordinator) (players : List SteamId) : Response :=
  .stateUpdate {
    updateUsers := true
    updateServers := true
    servers := c.lobbyStates.map (LobbyState.without players)
    users := c.users.filter fun m => m.steamId ∉ players }

theorem clients_removeEach (c : Coordinator) (gone : List Session) :
    (c.removeEach gone).clients = c.clients.filter fun e => e.steamId ∉ gone.map Session.steamId := by
  refine Ascending.ext_mem fun e => ?_
  rw [mem_clients_removeEach, Ascending.mem_filter, decide_eq_true_eq, List.mem_map]
  refine and_congr_right fun _ => ?_
  constructor
  · rintro hnone ⟨d, hd, hsame⟩
    exact hnone d hd hsame.symm
  · intro hnone d hd hsame
    exact hnone ⟨d, hd, hsame.symm⟩

/-- The players of registered sessions leave all queues, if each of them is named once. -/
theorem lobbies_removeEach (hmem : ∀ e ∈ gone, e ∈ c.clients)
    (honce : (gone.map Session.steamId).Nodup) :
    (c.removeEach gone).lobbies = c.lobbies.leaveEach (gone.map Session.steamId) := by
  induction gone generalizing c with
  | nil => rfl
  | cons e gone ih =>
    obtain ⟨hnew, honce⟩ := List.nodup_cons.1 honce
    have he : c.isConnected e.steamId = true :=
      isConnected_iff.2 ⟨e, hmem e List.mem_cons_self, rfl⟩
    -- the others are still registered when this one has gone
    have hstay : ∀ d ∈ gone, d ∈ (c.remove e.steamId).clients := by
      intro d hd
      refine mem_clients_remove.2 ⟨hmem d (List.mem_cons_of_mem _ hd), fun hsame => hnew ?_⟩
      exact List.mem_map.2 ⟨d, hd, hsame⟩
    rw [removeEach_cons, ih hstay honce, lobbies_remove he]
    rfl

theorem fullUpdate_removeEach (hmem : ∀ e ∈ gone, e ∈ c.clients)
    (honce : (gone.map Session.steamId).Nodup) :
    (c.removeEach gone).fullUpdate = c.updateWithout (gone.map Session.steamId) := by
  have hservers : (c.removeEach gone).lobbyStates =
      c.lobbyStates.map (LobbyState.without (gone.map Session.steamId)) := by
    unfold lobbyStates
    rw [lobbies_removeEach hmem honce, Registry.states_leaveEach]
  have husers : (c.removeEach gone).users =
      c.users.filter fun m => m.steamId ∉ gone.map Session.steamId := by
    unfold users
    rw [clients_removeEach, List.filter_map]
    rfl
  unfold fullUpdate updateWithout
  rw [hservers, husers]

/-! ## who is idle -/

theorem nodup_steamId_idle (c : Coordinator) (now : Nat) (lastSeen : Nat → Nat) :
    ((c.idle now lastSeen).map Session.steamId).Nodup := by
  have hsorted := c.clients.sorted.filter (c.isIdle now lastSeen)
  refine List.pairwise_map.2 (hsorted.imp fun hlt hsame => ?_)
  exact Nat.ne_of_lt hlt (congrArg SteamId.toNat hsame)

theorem Owned.nodup_connection_idle (h : c.Owned owner) (now : Nat) (lastSeen : Nat → Nat) :
    ((c.idle now lastSeen).map Session.connection).Nodup :=
  (List.filter_sublist.map Session.connection).nodup h.nodup_connections

/-! ## the search -/

/-- what a search has done that ends in `o` and reports `players` -/
structure Evicts (c : Coordinator) (timeout now : Nat) (lastSeen : Nat → Nat) (o : Outcome)
    (players : List SteamId) : Prop where
  stay : ∀ e, e ∈ o.state.clients ↔ e ∈ c.clients ∧ now ≤ lastSeen e.connection + timeout
  gone : ∀ p, p ∈ players ↔
    ∃ e ∈ c.clients, e.steamId = p ∧ lastSeen e.connection + timeout < now
  once : players.Nodup
  closed : ∀ n, n ∈ Effect.closed o.effects ↔
    ∃ e ∈ c.clients, e.connection = n ∧ lastSeen e.connection + timeout < now
  closedOnce : (Effect.closed o.effects).Nodup
  queues : ∀ p s, o.state.lobbies.Queued p s ↔ c.lobbies.Queued p s ∧ p ∉ players
  records : o.state.lobbies.record? = c.lobbies.record?
  chat : o.state.chat = c.chat
  /-- everybody has been taken out and closed before anyone is told -/
  order : ∃ updates, o.effects = (Effect.closed o.effects).map .close ++ updates ∧
    ∀ x ∈ updates, ∃ e ∈ o.state.clients, x = .deliver e.connection o.state.fullUpdate
  /-- what is told is the state as it is now, which is the state before without the players -/
  update : o.state.fullUpdate = c.updateWithout players
  told : players ≠ [] → ∀ e ∈ o.state.clients,
    Effect.responses e.connection o.effects = [o.state.fullUpdate]
  untold : ∀ n, players = [] ∨ ¬ o.state.Serves n → Effect.responses n o.effects = []
  still : players = [] → o = .still c

theorem evict_of_nil (h : c.idle now lastSeen = []) : c.evict now lastSeen = (.still c, []) := by
  unfold evict
  rw [h]
  rfl

theorem evict_of_ne_nil (h : c.idle now lastSeen ≠ []) :
    (c.evict now lastSeen).1 =
      ⟨c.removeEach (c.idle now lastSeen),
        ((c.idle now lastSeen).map fun e => .close e.connection) ++
          (c.removeEach (c.idle now lastSeen)).broadcastAll
            (c.removeEach (c.idle now lastSeen)).fullUpdate⟩ := by
  have hempty : (c.idle now lastSeen).isEmpty = false := List.isEmpty_eq_false_iff.2 h
  unfold evict
  dsimp only
  rw [hempty]
  rfl

/-- First connections are closed, and what comes then are updates for those who are left. -/
theorem effects_evict (c : Coordinator) (now : Nat) (lastSeen : Nat → Nat) :
    let o := (c.evict now lastSeen).1
    ∃ updates, o.effects =
        ((c.idle now lastSeen).map fun e => .close e.connection) ++ updates ∧
      ∀ x ∈ updates, ∃ e ∈ o.state.clients, x = .deliver e.connection o.state.fullUpdate := by
  by_cases hidle : c.idle now lastSeen = []
  · rw [evict_of_nil hidle, hidle]
    exact ⟨[], rfl, fun x hx => absurd hx List.not_mem_nil⟩
  · rw [evict_of_ne_nil hidle]
    refine ⟨_, rfl, fun x hx => ?_⟩
    obtain ⟨e, he, -, rfl⟩ := mem_broadcast.1 hx
    exact ⟨e, he, rfl⟩

theorem closed_evict (c : Coordinator) (now : Nat) (lastSeen : Nat → Nat) :
    Effect.closed (c.evict now lastSeen).1.effects =
      (c.idle now lastSeen).map Session.connection := by
  obtain ⟨updates, heffects, hupdates⟩ := effects_evict c now lastSeen
  rw [heffects]
  refine Effect.closed_closes_append _ fun x hx => ?_
  obtain ⟨e, -, rfl⟩ := hupdates x hx
  exact ⟨e.connection, _, rfl⟩

/-- Nobody is told anything whose session is not registered any more. -/
theorem serves_of_mem_responses {n : Nat} {r : Response}
    (hr : r ∈ Effect.responses n (c.evict now lastSeen).1.effects) :
    (c.evict now lastSeen).1.state.Serves n := by
  obtain ⟨updates, heffects, hupdates⟩ := effects_evict c now lastSeen
  rw [heffects, Effect.responses_append, Effect.responses_closes, List.nil_append] at hr
  obtain ⟨e, he, hdeliver⟩ := hupdates _ (Effect.mem_responses.1 hr)
  cases hdeliver
  exact ⟨e, he, rfl⟩

/-- Nobody is idle who was not idle before and has been heard of since. -/
theorem evict_again {later : Nat → Nat} (hlater : ∀ n, lastSeen n ≤ later n) :
    let d := (c.evict now lastSeen).1.state
    d.evict now later = (.still d, []) := by
  intro d
  refine evict_of_nil (List.eq_nil_iff_forall_not_mem.2 fun e he => ?_)
  obtain ⟨hmem, hlate⟩ := mem_idle.1 he
  have hheard := (mem_clients_evict.1 hmem).2
  have hsettings : d.settings = c.settings := settings_removeEach c _
  have := hlater e.connection
  rw [hsettings] at hlate
  omega

theorem Owned.evicts (h : c.Owned owner) (now : Nat) (lastSeen : Nat → Nat) :
    Evicts c c.settings.idleTimeout now lastSeen (c.evict now lastSeen).1
      (c.evict now lastSeen).2 := by
  have hmem : ∀ e ∈ c.idle now lastSeen, e ∈ c.clients := fun e he => (mem_idle.1 he).1
  have honce := nodup_steamId_idle c now lastSeen
  have hlobbies : (c.evict now lastSeen).1.state.lobbies =
      c.lobbies.leaveEach (c.evict now lastSeen).2 := lobbies_removeEach hmem honce
  have hstill : (c.evict now lastSeen).2 = [] → (c.evict now lastSeen).1 = .still c := by
    intro hnone
    rw [evict_of_nil (List.map_eq_nil_iff.1 hnone)]
  have hclosed := closed_evict c now lastSeen
  obtain ⟨updates, heffects, hupdates⟩ := effects_evict c now lastSeen
  exact {
    stay := fun e => mem_clients_evict
    gone := by
      intro p
      show p ∈ (c.idle now lastSeen).map Session.steamId ↔ _
      simp only [List.mem_map, mem_idle]
      tauto
    once := honce
    closed := by
      intro n
      rw [hclosed]
      simp only [List.mem_map, mem_idle]
      tauto
    closedOnce := by
      rw [hclosed]
      exact h.nodup_connection_idle now lastSeen
    queues := by
      intro p s
      rw [hlobbies]
      exact Registry.queued_leaveEach
    records := by
      rw [hlobbies]
      exact Registry.record?_leaveEach _ _
    chat := chat_removeEach c _
    order := by
      refine ⟨updates, ?_, hupdates⟩
      rw [hclosed, List.map_map]
      exact heffects
    update := fullUpdate_removeEach hmem honce
    told := by
      intro hsome e he
      have hidle : c.idle now lastSeen ≠ [] := fun hnil => hsome (congrArg (List.map _) hnil)
      rw [evict_of_ne_nil hidle] at he ⊢
      rw [Effect.responses_append, Effect.responses_closes, List.nil_append]
      exact responses_broadcastAll (h.removeEach _) he _
    untold := by
      intro n hn
      refine List.eq_nil_iff_forall_not_mem.2 fun r hr => ?_
      rcases hn with hnone | hn
      · rw [hstill hnone] at hr
        cases hr
      · exact hn (serves_of_mem_responses hr)
    still := hstill }

end Coordinator

namespace World

/-- **A search takes out exactly those who are idle.**  After every run, whatever the connections
were last heard of at, a search takes out, closes and reports the registered sessions that were not
heard of for longer than the timeout, each once; it takes their players out of all queues and leaves
the other players, the records and the chat alone; and when all of them are gone, everyone else is
told once.  To search again at the same time changes nothing. -/
theorem evicts_exactly (config : Config) (owner : Nat → Profile) (as : List Action) (now : Nat)
    (lastSeen : Nat → Nat) :
    let c := ((start config).run owner as).coordinator
    let found := c.evict now lastSeen
    c.Evicts (config.idleTimeoutSecs.toNat * Client.nanosPerSecond) now lastSeen found.1 found.2 ∧
      ∀ later : Nat → Nat, (∀ n, lastSeen n ≤ later n) →
        found.1.state.evict now later = (.still found.1.state, []) := by
  intro c found
  have howned : c.Owned owner := owned_run config owner as
  have hsettings : c.settings = .ofConfig config := settings_run config owner as
  have hevicts := howned.evicts now lastSeen
  rw [hsettings] at hevicts
  exact ⟨hevicts, fun later hlater => Coordinator.evict_again hlater⟩

end World

/-! ## one player who stays -/

namespace Sample

/-- the first player was last heard of at the beginning, and the second one a minute later -/
def heard (n : Nat) : Nat := n * (60 * Client.nanosPerSecond)

def aMinuteLater : Nat := 61 * Client.nanosPerSecond

end Sample

namespace World

theorem evicts_exactly_sample :
    let c := ((start {}).run Sample.owner Sample.listed).coordinator
    let found := c.evict Sample.aMinuteLater Sample.heard
    SteamId.ofNat 0 ∈ found.2 ∧
      (∀ s, ¬ found.1.state.lobbies.Queued (.ofNat 0) s) ∧
      found.1.state.lobbies.Queued (.ofNat 1) Sample.server.serverId ∧
      found.1.state.evict Sample.aMinuteLater Sample.heard = (.still found.1.state, []) := by
  intro c found
  obtain ⟨hevicts, hagain⟩ :=
    evicts_exactly {} Sample.owner Sample.listed Sample.aMinuteLater Sample.heard
  have hclients : c.clients.toList =
      [⟨0, Sample.owner 0, .readwrite⟩, ⟨1, Sample.owner 1, .readwrite⟩] := by decide +kernel
  have hlobby : c.lobbies.get? Sample.server.serverId = some Sample.lobby := by decide +kernel
  have hgone : SteamId.ofNat 0 ∈ found.2 := by
    refine (hevicts.gone _).2 ⟨⟨0, Sample.owner 0, .readwrite⟩, ?_, rfl, by decide⟩
    rw [Ascending.mem_def, hclients]
    exact List.mem_cons_self
  have hstays : SteamId.ofNat 1 ∉ found.2 := by
    intro hone
    obtain ⟨e, he, hplayer, hlate⟩ := (hevicts.gone _).1 hone
    rw [Ascending.mem_def, hclients] at he
    simp only [List.mem_cons, List.not_mem_nil, or_false] at he
    rcases he with rfl | rfl
    · exact absurd hplayer (by decide)
    · exact absurd hlate (by decide)
  refine ⟨hgone, ?_, (hevicts.queues _ _).2 ⟨?_, hstays⟩, hagain _ fun n => le_refl _⟩
  · intro s hqueued
    exact ((hevicts.queues _ _).1 hqueued).2 hgone
  · exact ⟨Sample.lobby, hlobby, Lobby.contains_iff.1 (by decide +kernel)⟩

end World

end Matchmaker
