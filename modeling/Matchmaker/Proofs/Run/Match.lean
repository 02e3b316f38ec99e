import Mathlib.Data.List.Nodup
import Matchmaker.Proofs.Run.Change

/-!
# Matches are safe

A pass lists a lobby, and its match may start much later.  Whatever has happened meanwhile, the
match that starts is one of the lobby as it is now: `IsMatch` collects what that means, before the
start and after it.  The list decides nothing, since the members are compared under the lock and
those who are called are taken from the registry (`isMatch_matched`).

That everyone is called once needs to know that no two registered sessions share a connection, which
holds since the player on a connection does not change (`Owned`).
-/

namespace Matchmaker

open Coordinator (Outcome)

/-- who is called to a match by an effect, where to, and with whom -/
def Effect.summons? : Effect → Option (Nat × Protocol.LobbyServer × List Protocol.Member)
  | .deliver n (.startGame server users) => some (n, server, users)
  | _ => none

namespace Coordinator

/-! ## the players on connections -/

def Owned (owner : Nat → Profile) (c : Coordinator) : Prop :=
  ∀ e ∈ c.clients, e.profile = owner e.connection

theorem Owned.connection_injective {owner : Nat → Profile} {c : Coordinator} (h : c.Owned owner)
    {d e : Session} (hd : d ∈ c.clients) (he : e ∈ c.clients)
    (hn : d.connection = e.connection) : d = e := by
  refine session_unique hd he ?_
  unfold Session.steamId
  rw [h d hd, h e he, hn]

theorem Owned.removeEach {owner : Nat → Profile} {c : Coordinator} (h : c.Owned owner)
    (gone : List Session) : (c.removeEach gone).Owned owner := by
  intro e he
  exact h e (mem_clients_of_removeEach he)

theorem Owned.insert {owner : Nat → Profile} {c d : Coordinator} {e : Session} (h : c.Owned owner)
    (hd : d.clients = c.clients.insert e) (he : e.profile = owner e.connection) :
    d.Owned owner := by
  intro x hx
  rw [hd] at hx
  rcases Ascending.mem_insert.1 hx with rfl | ⟨hx, -⟩
  · exact he
  · exact h x hx

/-- No two members of a lobby share a connection. -/
theorem Owned.nodup_sessionsOf {owner : Nat → Profile} {c : Coordinator} (h : c.Owned owner)
    {l : Lobby} (hl : ∀ p ∈ l.members, c.isConnected p = true) :
    ((c.sessionsOf l).map Session.connection).Nodup := by
  have hnodup : (c.sessionsOf l).Nodup := by
    refine List.Nodup.of_map Session.steamId ?_
    rw [steamId_sessionsOf hl]
    exact l.members.sorted.imp fun hlt e => by rw [e] at hlt; omega
  refine hnodup.map_on ?_
  intro d hd e he hn
  exact h.connection_injective (mem_sessionsOf.1 hd).1 (mem_sessionsOf.1 he).1 hn

/-! ## one match -/

/-- what it means that the match of a lobby starts, given the members that are needed -/
structure IsMatch (need : Nat) (c : Coordinator) (m : Lobby) (server : Protocol.LobbyServer)
    (users : List Protocol.Member) (o : Outcome) : Prop where
  known : c.lobbies.get? m.serverId = some m
  /-- the sessions of the members are called, in order, and nobody else is -/
  called : o.effects.filterMap Effect.summons? =
    (c.sessionsOf m).map fun e => (e.connection, server, users)
  sessions : ∀ e, e ∈ c.sessionsOf m ↔ e ∈ c.clients ∧ e.steamId ∈ m.members
  once : ((c.sessionsOf m).map Session.connection).Nodup
  enough : max 1 need ≤ (c.sessionsOf m).length
  fits : m.info.playerCount.toNat + m.members.size ≤ m.info.maxPlayers.toNat
  roster : users = (c.sessionsOf m).map Session.member
  rosterIds : users.map Protocol.Member.steamId = m.members.toList
  ascending : users.Pairwise fun a b => a.steamId.toNat < b.steamId.toNat
  matchedLeave : ∀ p ∈ m.members, ∀ s, ¬ o.state.lobbies.Queued p s
  othersStay : ∀ p, ¬ p ∈ m.members → ∀ s, o.state.lobbies.Queued p s ↔ c.lobbies.Queued p s
  clients : o.state.clients = c.clients
  records : o.state.lobbies.record? = c.lobbies.record?

theorem enough_of_isEligible {l : Lobby} {need : Nat} (h : l.isEligible need = true) :
    need ≤ l.members.size ∧
      l.info.playerCount.toNat + l.members.size ≤ l.info.maxPlayers.toNat := by
  unfold Lobby.isEligible at h
  rw [Bool.and_eq_true, decide_eq_true_eq, decide_eq_true_eq] at h
  unfold Lobby.freeSlots at h
  omega

theorem summons?_announced (d : Coordinator) :
    (announced d).effects.filterMap Effect.summons? = [] := by
  refine List.filterMap_eq_nil_iff.2 fun x hx => ?_
  obtain ⟨e, -, -, rfl⟩ := mem_broadcast.1 hx
  rfl

theorem summons?_matched (c : Coordinator) (l : Lobby) (address : Address) :
    (c.matched l address).effects.filterMap Effect.summons? =
      (c.sessionsOf l).map fun e =>
        (e.connection, l.info.server address, (c.sessionsOf l).map Session.member) := by
  show List.filterMap _ (List.map _ _ ++ (announced _).effects) = _
  rw [List.filterMap_append, summons?_announced, List.append_nil, List.filterMap_map]
  exact congrFun List.filterMap_eq_map _

/-- **A lobby that has not changed is matched as it is now.** -/
theorem isMatch_matched {owner : Nat → Profile} {c : Coordinator} (howned : c.Owned owner)
    {l : Lobby} (h : c.isUnchanged l = true) (address : Address) {need : Nat}
    (hneed : c.settings.minQueueSize = max need 1) :
    ∃ m, m.serverId = l.serverId ∧ IsMatch need c m (l.info.server address)
      ((c.sessionsOf m).map Session.member) (c.matched l address) := by
  obtain ⟨m, hm, heligible, hmembers, hconnected⟩ := isUnchanged_iff.1 h
  have hid : m.serverId = l.serverId := Registry.serverId_of_get? hm
  have hsame : c.sessionsOf m = c.sessionsOf l := sessionsOf_congr hmembers
  have hids : (c.sessionsOf m).map Session.steamId = m.members.toList := by
    rw [hsame, hmembers]
    exact steamId_sessionsOf hconnected
  have hroster : ((c.sessionsOf m).map Session.member).map Protocol.Member.steamId =
      m.members.toList := by
    rw [List.map_map]
    exact hids
  obtain ⟨henough, hfits⟩ := enough_of_isEligible heligible
  have hqueued : ∀ p s, (c.matched l address).state.lobbies.Queued p s ↔
      c.lobbies.Queued p s ∧ ¬ p ∈ m.members := by
    intro p s
    rw [hmembers]
    exact Registry.queued_leaveEach
  refine ⟨m, hid, ?_⟩
  exact {
    known := hid ▸ hm
    called := by
      rw [summons?_matched, hsame]
    sessions := fun e => mem_sessionsOf
    once := by
      rw [hsame]
      exact howned.nodup_sessionsOf hconnected
    enough := by
      have hlength : (c.sessionsOf m).length = m.members.size := by
        have := congrArg List.length hids
        rwa [List.length_map] at this
      rw [hneed] at henough
      omega
    fits := hfits
    roster := rfl
    rosterIds := hroster
    ascending := by
      have hsorted := m.members.sorted
      rw [← hroster] at hsorted
      exact (List.pairwise_map (f := Protocol.Member.steamId)).1 hsorted
    matchedLeave := fun p hp s hq => ((hqueued p s).1 hq).2 hp
    othersStay := by
      intro p hp s
      rw [hqueued]
      exact and_iff_left hp
    clients := rfl
    records := Registry.record?_leaveEach _ _ }

end Coordinator

namespace World
variable {owner : Nat → Profile} {w : World} {a : Action} {o : Outcome}

/-! ## every run -/

theorem Change.settings (h : Change owner w a o) :
    o.state.settings = w.coordinator.settings := by
  cases h with
  | quiet o hclients hlobbies hsettings heffects => exact hsettings
  | comes n status ha before hbefore d hclients hlobbies hsettings => exact hsettings
  | goes gone before after hbefore hafter => exact Coordinator.settings_removeEach _ gone
  | _ => rfl

theorem Change.owned (h : Change owner w a o) (hw : w.coordinator.Owned owner) :
    o.state.Owned owner := by
  cases h with
  | quiet o hclients hlobbies hsettings heffects =>
    intro e he
    rw [hclients] at he
    exact hw e he
  | status e he status effects heffects => exact hw.insert rfl (hw e he)
  | comes n status ha before hbefore d hclients hlobbies hsettings => exact hw.insert hclients rfl
  | goes gone before after hbefore hafter => exact hw.removeEach gone
  | _ => exact hw

theorem settings_run (config : Config) (owner : Nat → Profile) (as : List Action) :
    ((start config).run owner as).coordinator.settings = .ofConfig config :=
  run_induction (P := fun w => w.coordinator.settings = .ofConfig config)
    (fun w a h => (change_outcome owner w a).settings.trans h) rfl as

theorem owned_run (config : Config) (owner : Nat → Profile) (as : List Action) :
    ((start config).run owner as).coordinator.Owned owner := by
  refine run_induction (P := fun w => w.coordinator.Owned owner)
    (fun w a h => (change_outcome owner w a).owned h) ?_ as
  intro e he
  exact absurd he (Ascending.not_mem_empty e)

theorem Change.starts_of_mem (h : Change owner w a o) {n : Nat} {server : Protocol.LobbyServer}
    {users : List Protocol.Member} (he : .deliver n (.startGame server users) ∈ o.effects) :
    ∃ l, w.starting? a = some l := by
  rcases h.mem_effects he with hquiet | hfull | hservers | ⟨hl, -⟩
  · exact absurd hquiet id
  · obtain ⟨s, -, -, hs⟩ := Coordinator.mem_broadcast.1 hfull
    cases hs
  · obtain ⟨s, -, -, hs⟩ := Coordinator.mem_broadcast.1 hservers
    cases hs
  · exact hl

/-- **Match safety.**  Whenever anybody is called to a match, a pass has just ended the lookup for a
lobby that it had listed, and the match is one of that lobby as it is now. -/
theorem match_safe (config : Config) (owner : Nat → Profile) (as : List Action) (a : Action)
    {n : Nat} {server : Protocol.LobbyServer} {users : List Protocol.Member}
    (h : .deliver n (.startGame server users) ∈
      (((start config).run owner as).outcome owner a).effects) :
    ∃ i lookup l rest address m,
      a = .proceed i lookup ∧
      ((start config).run owner as).passes[i]? = some (.lookup l rest) ∧
      l.info.resolve lookup = .ok address ∧ server = l.info.server address ∧
      m.serverId = l.serverId ∧
      Coordinator.IsMatch config.minQueueSize.toNat ((start config).run owner as).coordinator m
        server users (((start config).run owner as).outcome owner a) := by
  obtain ⟨l, hl⟩ := (change_outcome owner _ a).starts_of_mem h
  obtain ⟨i, lookup, rest, address, ha, hpass, haddress, hunchanged, hout⟩ :=
    starting?_eq_some hl
  have hneed : ((start config).run owner as).coordinator.settings.minQueueSize =
      max config.minQueueSize.toNat 1 := by
    rw [settings_run]
    rfl
  obtain ⟨m, hm, hmatch⟩ := Coordinator.isMatch_matched (owned_run config owner as) hunchanged
    address hneed
  rw [← hout owner] at hmatch
  -- what the player is told is what everyone is told
  have hcalled : (n, server, users) ∈
      (((start config).run owner as).outcome owner a).effects.filterMap Effect.summons? :=
    List.mem_filterMap.2 ⟨_, h, rfl⟩
  rw [hmatch.called] at hcalled
  obtain ⟨e, -, he⟩ := List.mem_map.1 hcalled
  cases he
  exact ⟨i, lookup, l, rest, address, m, ha, hpass, haddress, rfl, hm, hmatch⟩

theorem match_safe_sample : ∃ m,
    Coordinator.IsMatch 2 ((start {}).run Sample.owner Sample.listed).coordinator m
      (Sample.server.server (.v4 127 0 0 1)) [(Sample.owner 0).member, (Sample.owner 1).member]
      (((start {}).run Sample.owner Sample.listed).outcome Sample.owner
        (.proceed 0 Sample.lookup)) := by
  have hcalled : .deliver 1 (.startGame (Sample.server.server (.v4 127 0 0 1))
      [(Sample.owner 0).member, (Sample.owner 1).member]) ∈
      (((start {}).run Sample.owner Sample.listed).outcome Sample.owner
        (.proceed 0 Sample.lookup)).effects := by decide +kernel
  obtain ⟨i, lookup, l, rest, address, m, -, -, -, -, -, hmatch⟩ :=
    match_safe {} Sample.owner Sample.listed (.proceed 0 Sample.lookup) hcalled
  exact ⟨m, hmatch⟩

end World

end Matchmaker
