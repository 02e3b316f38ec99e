import Matchmaker.Proofs.Run.Venue

/-!
# Calls to a match

A match takes all of its players out of the queues and calls every one of them, once
(`responses_matched`).  What becomes of a call is the matter of that client alone: it waits in the
queue of the client, or the client is closed or full and stays as it is.  So a player may be taken
out of the queues and never hear of the match.
-/

namespace Matchmaker

open Protocol (Response)

namespace Coordinator
variable {owner : Nat → Profile} {c : Coordinator}

/-! ## what is sent to one player -/

theorem Owned.nodup_connections (h : c.Owned owner) :
    (c.clients.toList.map Session.connection).Nodup := by
  have hnodup : c.clients.toList.Nodup :=
    c.clients.sorted.imp fun hlt e => by rw [e] at hlt; omega
  exact hnodup.map_on fun d hd e he hn => h.connection_injective hd he hn

theorem responses_of_nodup {es : List Session} (h : (es.map Session.connection).Nodup) {e : Session}
    (he : e ∈ es) (r : Response) :
    Effect.responses e.connection (es.map fun e => .deliver e.connection r) = [r] := by
  rw [Effect.responses_map, List.count_eq_one_of_mem h (List.mem_map_of_mem he)]
  rfl

theorem responses_broadcastAll (h : c.Owned owner) {e : Session} (he : e ∈ c.clients)
    (r : Response) : Effect.responses e.connection (c.broadcastAll r) = [r] := by
  unfold broadcastAll broadcast
  rw [List.filter_true]
  exact responses_of_nodup h.nodup_connections he r

/-- A player of a match is called, and then told of the queues. -/
theorem responses_matched (h : c.Owned owner) {l : Lobby}
    (hl : ∀ p ∈ l.members, c.isConnected p = true) (address : Address) {e : Session}
    (he : e ∈ c.sessionsOf l) :
    Effect.responses e.connection (c.matched l address).effects =
      [c.summons l address, (c.matched l address).state.serversUpdate] := by
  let d := (c.matched l address).state
  have hd : d.Owned owner := h
  have hcalls := responses_of_nodup (h.nodup_sessionsOf hl) he (c.summons l address)
  have hupdate := responses_broadcastAll hd (mem_sessionsOf.1 he).1 d.serversUpdate
  show Effect.responses e.connection (_ ++ d.broadcastAll d.serversUpdate) = _
  rw [Effect.responses_append, hcalls, hupdate]
  rfl

theorem deliver_of_mem_matched {l : Lobby} {address : Address} :
    ∀ x ∈ (c.matched l address).effects, ∃ n r, x = .deliver n r := by
  intro x hx
  rcases List.mem_append.1 hx with hx | hx
  · obtain ⟨e, -, rfl⟩ := List.mem_map.1 hx
    exact ⟨_, _, rfl⟩
  · obtain ⟨e, -, -, rfl⟩ := mem_broadcast.1 hx
    exact ⟨_, _, rfl⟩

end Coordinator

namespace Venue
variable {κ : Type} [Client.Quantity κ] {owner : Nat → Profile} {v : Venue κ} {now i : Nat}
  {lookup : Lookup} {l : Lobby} {address : Address}

/-! ## what becomes of a call -/

/-- A member of a lobby that is matched has a client, and all that it gets are the call and the
state of the queues. -/
theorem received_of_member (howned : v.world.coordinator.Owned owner) (hattended : v.Attended)
    (hl : ∀ p ∈ l.members, v.world.coordinator.isConnected p = true) {p : SteamId}
    (hp : p ∈ l.members) :
    let o := v.world.coordinator.matched l address
    let call := v.world.coordinator.summons l address
    ∃ e ∈ v.world.coordinator.clients, e.steamId = p ∧
      Effect.responses e.connection o.effects = [call, o.state.serversUpdate] ∧
      ∃ x y, v.clients.get? e.connection = some x ∧
        (v.clients.applyAll now o.effects).get? e.connection = some y ∧
        Client.Received call x y := by
  intro o call
  obtain ⟨e, he, rfl⟩ := Coordinator.isConnected_iff.1 (hl p hp)
  have hresponses : Effect.responses e.connection o.effects = [call, o.state.serversUpdate] :=
    Coordinator.responses_matched howned hl address (Coordinator.mem_sessionsOf.2 ⟨he, hp⟩)
  obtain ⟨x, hx⟩ := hattended e he
  have hy : (v.clients.applyAll now o.effects).get? e.connection =
      some (List.foldl Endpoint.take x [call, o.state.serversUpdate]) := by
    rw [Endpoints.get?_applyAll, hx, ← hresponses]
    exact congrArg some
      (Effect.foldl_upon_of_deliver Coordinator.deliver_of_mem_matched now _ x)
  exact ⟨e, he, rfl, hresponses, x, _, hx, hy, Client.received_foldl call x _⟩

/-- A lookup that starts nothing asks nothing of the clients. -/
theorem next_of_not_starting (h : v.world.starting? (.proceed i lookup) = none) :
    (v.next owner now (.act (.proceed i lookup))).world.coordinator = v.world.coordinator ∧
      (v.next owner now (.act (.proceed i lookup))).clients = v.clients := by
  have hstill : v.world.outcome owner (.proceed i lookup) = .still v.world.coordinator :=
    World.resumed_of_not_started h
  rw [next_act rfl, hstill]
  exact ⟨congrArg Coordinator.Outcome.state hstill, rfl⟩

/-- **Whoever a match takes out of the queues is called.**  After every run of turns, the end of a
lookup changes nothing, or it starts the match of a lobby: exactly the members leave the queues, and
each of them has a registered client that is called once.  A client that refuses the call does not
keep its player in the queues, and changes nothing for the others. -/
theorem each_called_once (config : Config) (owner : Nat → Profile) (turns : List (Nat × Turn))
    (now i : Nat) (lookup : Lookup) :
    let v : Venue κ := (opened config).run owner turns
    let u := v.next owner now (.act (.proceed i lookup))
    (v.world.starting? (.proceed i lookup) = none ∧
      u.world.coordinator = v.world.coordinator ∧ u.clients = v.clients) ∨
      ∃ m server users,
        v.world.coordinator.lobbies.get? m.serverId = some m ∧
        (∀ p s, u.world.coordinator.lobbies.Queued p s ↔
          v.world.coordinator.lobbies.Queued p s ∧ ¬ p ∈ m.members) ∧
        ∀ p ∈ m.members, ∃ e ∈ v.world.coordinator.clients, e.steamId = p ∧
          Effect.responses e.connection (v.world.outcome owner (.proceed i lookup)).effects =
            [.startGame server users, u.world.coordinator.serversUpdate] ∧
          ∃ x y, v.clients.get? e.connection = some x ∧ u.clients.get? e.connection = some y ∧
            Client.Received (.startGame server users) x y := by
  intro v u
  obtain ⟨as, has⟩ : ∃ as, v.world = (World.start config).run owner as :=
    world_run config owner turns
  have howned : v.world.coordinator.Owned owner := has ▸ World.owned_run config owner as
  have hattended : v.Attended := attended_run config owner turns
  cases hl : v.world.starting? (.proceed i lookup) with
  | none => exact .inl ⟨rfl, next_of_not_starting hl⟩
  | some l =>
    obtain ⟨_, _, _, address, -, -, -, hunchanged, hout⟩ := World.starting?_eq_some hl
    obtain ⟨m, hm, -, hmembers, hconnected⟩ := Coordinator.isUnchanged_iff.1 hunchanged
    have hu : u = ⟨v.world.next owner (.proceed i lookup),
        v.clients.applyAll now (v.world.coordinator.matched l address).effects⟩ := by
      rw [← hout owner]
      exact next_act rfl
    have hstate : u.world.coordinator = (v.world.coordinator.matched l address).state := by
      rw [hu]
      exact congrArg Coordinator.Outcome.state (hout owner)
    refine .inr ⟨m, l.info.server address,
      (v.world.coordinator.sessionsOf l).map Session.member, ?_, ?_, ?_⟩
    · exact Registry.serverId_of_get? hm ▸ hm
    · intro p s
      rw [hstate, hmembers]
      exact Registry.queued_leaveEach
    · intro p hp
      rw [hmembers] at hp
      rw [hstate, hout, hu]
      exact received_of_member howned hattended hconnected hp

end Venue

/-! ## a player who is not reached -/

namespace Sample

/-- Both players come, and the second one has a queue for one response. -/
def crowded : List (Nat × Turn) :=
  [(0, .arrive 0 {}), (0, .arrive 1 { outboundCapacity := 1 })] ++ listed.map fun a => (0, .act a)

end Sample

namespace Venue
variable {κ : Type} [Client.Quantity κ]

/-- a player whose registered client accepts a call to a match -/
def Reaches (v : Venue κ) (p : SteamId) : Prop :=
  ∃ e ∈ v.world.coordinator.clients, e.steamId = p ∧
    ∃ x y server users, v.clients.get? e.connection = some x ∧
      x.send (.startGame server users) = .ok y

theorem not_reaches {v : Venue κ} {p : SteamId}
    (h : ∀ e ∈ v.world.coordinator.clients.toList, e.steamId = p →
      ∀ x ∈ v.clients.get? e.connection, ¬ x.Accepts) : ¬ v.Reaches p := by
  rintro ⟨e, he, hp, x, y, server, users, hx, hsend⟩
  obtain ⟨error, herror⟩ := Client.send_of_not_accepts (h e he hp x hx) (.startGame server users)
  rw [herror] at hsend
  cases hsend

theorem not_queued_of_lobbies {v : Venue κ} {p : SteamId} {s : ServerId}
    (h : ∀ l ∈ v.world.coordinator.lobbies.lobbies.toList, l.contains p = false) :
    ¬ v.world.coordinator.lobbies.Queued p s := by
  rintro ⟨l, hl, hp⟩
  have hcontains := Lobby.contains_iff.2 hp
  rw [h l (Registry.get?_eq_some_iff.1 hl).1] at hcontains
  cases hcontains

/-- A player whose client refuses the call is taken out of the queues all the same. -/
theorem refused_call_costs_place :
    ¬ ∀ (config : Config) (owner : Nat → Profile) (turns : List (Nat × Turn)) (now i : Nat)
      (lookup : Lookup) (p : SteamId) (s : ServerId),
      let v : Venue Rat := (opened config).run owner turns
      let u := v.next owner now (.act (.proceed i lookup))
      v.world.coordinator.lobbies.Queued p s → ¬ u.world.coordinator.lobbies.Queued p s →
      v.Reaches p := by
  intro h
  refine not_reaches ?_ (h {} Sample.owner Sample.crowded 0 0 Sample.lookup (.ofNat 1)
    Sample.server.serverId ?_ ?_)
  · decide +kernel
  · exact ⟨Sample.lobby, by decide +kernel, Lobby.contains_iff.1 (by decide +kernel)⟩
  · refine not_queued_of_lobbies ?_
    decide +kernel

end Venue

end Matchmaker
