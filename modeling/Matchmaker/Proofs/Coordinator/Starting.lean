import Matchmaker.Proofs.Coordinator.Registration

/-!
# The start of a match

`startMatch?` taken apart: when it succeeds (`isUnchanged_iff`), who is told (`sessionsOf`), and
what is left of the queues.  A lobby that has not changed has the members that were listed, and all
of them are registered, so the sessions of the members are the members (`steamId_sessionsOf`).
-/

namespace Matchmaker.Coordinator

/-- The lobby of the same server can start and has the listed members, who are all registered. -/
theorem isUnchanged_iff {c : Coordinator} {l : Lobby} :
    c.isUnchanged l = true ↔ ∃ m, c.lobbies.get? l.serverId = some m ∧
      m.isEligible c.settings.minQueueSize = true ∧ m.members = l.members ∧
      ∀ p ∈ l.members, c.isConnected p = true := by
  unfold isUnchanged
  cases hm : c.lobbies.get? l.serverId with
  | none => simp
  | some m =>
    simp only [Bool.and_eq_true, beq_iff_eq, List.all_eq_true, Option.some.injEq, exists_eq_left']
    constructor
    · rintro ⟨⟨he, hl⟩, hc⟩
      exact ⟨he, Ascending.ext hl, hc⟩
    · rintro ⟨he, hl, hc⟩
      exact ⟨⟨he, congrArg Ascending.toList hl⟩, hc⟩

/-- the registered sessions of the members of a lobby, in order of the members -/
def sessionsOf (c : Coordinator) (l : Lobby) : List Session := l.members.toList.filterMap c.client?

theorem mem_sessionsOf {c : Coordinator} {l : Lobby} {e : Session} :
    e ∈ c.sessionsOf l ↔ e ∈ c.clients ∧ e.steamId ∈ l.members := by
  rw [sessionsOf, List.mem_filterMap]
  constructor
  · rintro ⟨p, hp, he⟩
    obtain ⟨hmem, rfl⟩ := client?_eq_some_iff.1 he
    exact ⟨hmem, hp⟩
  · rintro ⟨he, hp⟩
    exact ⟨e.steamId, hp, client?_eq_some_iff.2 ⟨he, rfl⟩⟩

theorem steamId_filterMap {c : Coordinator} {players : List SteamId}
    (h : ∀ p ∈ players, c.isConnected p = true) :
    (players.filterMap c.client?).map Session.steamId = players := by
  induction players with
  | nil => rfl
  | cons p players ih =>
    have hp := h p List.mem_cons_self
    rw [isConnected_eq_isSome] at hp
    obtain ⟨e, he⟩ := Option.isSome_iff_exists.1 hp
    rw [List.filterMap_cons_some he, List.map_cons, (client?_eq_some_iff.1 he).2,
      ih fun q hq => h q (List.mem_cons_of_mem p hq)]

/-- Every member has a session, and these are all. -/
theorem steamId_sessionsOf {c : Coordinator} {l : Lobby}
    (h : ∀ p ∈ l.members, c.isConnected p = true) :
    (c.sessionsOf l).map Session.steamId = l.members.toList := steamId_filterMap h

theorem sessionsOf_congr {c : Coordinator} {l m : Lobby} (h : m.members = l.members) :
    c.sessionsOf m = c.sessionsOf l := by
  rw [sessionsOf, sessionsOf, h]

/-- what the members of a started lobby are told -/
def summons (c : Coordinator) (l : Lobby) (address : Address) : Protocol.Response :=
  .startGame (l.info.server address) ((c.sessionsOf l).map Session.member)

/-- The match starts: its members are told and leave all queues, and then everyone is told. -/
def matched (c : Coordinator) (l : Lobby) (address : Address) : Outcome :=
  let d := { c with lobbies := c.lobbies.leaveEach l.members.toList }
  ⟨d, ((c.sessionsOf l).map fun e => .deliver e.connection (c.summons l address)) ++
    d.broadcastAll d.serversUpdate⟩

theorem startMatch?_eq_some_iff {c : Coordinator} {l : Lobby} {address : Address} {o : Outcome} :
    c.startMatch? l address = some o ↔ c.isUnchanged l = true ∧ o = c.matched l address := by
  unfold startMatch?
  by_cases h : c.isUnchanged l = true
  · rw [if_pos h]
    exact ⟨fun e => ⟨h, (Option.some.inj e).symm⟩, fun e => congrArg some e.2.symm⟩
  · simp [h]

end Matchmaker.Coordinator
