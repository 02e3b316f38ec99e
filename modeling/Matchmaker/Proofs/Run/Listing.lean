import Matchmaker.Proofs.Lobby.Server
import Matchmaker.Proofs.Run.Match
import Matchmaker.Proofs.Run.Record

/-!
# The record that players are told

A pass tries the lobbies that it has listed and no others, with the records that they had then
(`listed_run`).  The lobby may get a new record between the listing and the match.  The start of the
match does not look at it: the members are compared and the record is not.  So players are told what
was known of the server when it was listed, and that is right as long as the feed brings no new
record meanwhile (`info_eq_of_unrefreshed`), or one that names the server alike; otherwise they are
sent to where the server was.
-/

namespace Matchmaker

open Coordinator (Pass)

/-! ## what a pass may still try -/

/-- the lobbies that a pass may still try -/
def Coordinator.Pass.pending : Pass → List Lobby
  | .lookup l rest => l :: rest
  | .ended _ => []

theorem Coordinator.Pass.pending_ofList (ls : List Lobby) : (Pass.ofList ls).pending = ls := by
  cases ls <;> rfl

theorem Coordinator.get?_of_candidate {c : Coordinator} {l : Lobby} (h : l ∈ c.candidates) :
    c.lobbies.get? l.serverId = some l := Registry.get?_of_mem (List.mem_filter.1 h).1

namespace World
variable {owner : Nat → Profile} {w : World} {a : Action}

/-- Going on, a pass takes up nothing new. -/
theorem pending_resumed {i : Nat} {lookup : Lookup} {pass next : Pass}
    (hpass : w.passes[i]? = some pass) (hnext : (w.resumed i lookup).2 = some next) :
    ∀ l ∈ next.pending, l ∈ pass.pending := by
  intro l hl
  cases pass with
  | lookup m rest =>
    rw [resumed_of_lookup hpass] at hnext
    split at hnext
    · cases hnext
      exact absurd hl List.not_mem_nil
    · cases hnext
      rw [Pass.pending_ofList] at hl
      exact List.mem_cons_of_mem m hl
  | ended started =>
    unfold resumed at hnext
    rw [hpass] at hnext
    cases hnext
    exact hl

/-- A pass was there before, or it has just listed the candidates. -/
theorem pass_next {i : Nat} {pass : Pass} (h : (w.next owner a).passes[i]? = some pass) :
    (∃ old, w.passes[i]? = some old ∧ ∀ l ∈ pass.pending, l ∈ old.pending) ∨
      (a = .list ∧ i = w.passes.length ∧ pass.pending = w.coordinator.candidates) := by
  have hsame : w.passes[i]? = some pass →
      ∃ old, w.passes[i]? = some old ∧ ∀ l ∈ pass.pending, l ∈ old.pending :=
    fun hpass => ⟨pass, hpass, fun _ hl => hl⟩
  cases a with
  | list =>
    change (w.passes ++ [.ofList w.coordinator.candidates])[i]? = some pass at h
    rw [List.getElem?_append] at h
    split at h
    · exact .inl (hsame h)
    · rw [List.getElem?_singleton] at h
      split at h
      · cases h
        exact .inr ⟨rfl, by omega, Pass.pending_ofList _⟩
      · cases h
  | proceed j lookup =>
    cases hres : w.resumed j lookup with
    | mk o going =>
      cases going with
      | none =>
        rw [passes_proceed_of_none owner hres] at h
        exact .inl (hsame h)
      | some next =>
        rw [next_proceed owner hres] at h
        change (w.passes.set j next)[i]? = some pass at h
        rw [List.getElem?_set] at h
        split at h
        · rename_i hij
          subst hij
          split at h
          · rename_i hlt
            have hnext : (w.resumed j lookup).2 = some pass := by rw [hres, h]
            have hold : w.passes[j]? = some w.passes[j] := List.getElem?_eq_getElem hlt
            exact .inl ⟨_, hold, pending_resumed hold hnext⟩
          · cases h
        · exact .inl (hsame h)
  | _ => exact .inl (hsame h)

/-! ## every run -/

/-- **A pass tries what it has listed.** -/
theorem listed_run {config : Config} {as : List Action} {i : Nat} {pass : Pass}
    (h : ((start config).run owner as).passes[i]? = some pass) :
    ∃ before between, as = before ++ .list :: between ∧
      i = ((start config).run owner before).passes.length ∧
      ∀ l ∈ pass.pending, l ∈ ((start config).run owner before).coordinator.candidates := by
  induction as using List.reverseRecOn generalizing pass with
  | nil => cases h
  | append_singleton as a ih =>
    rw [run_append, run_singleton] at h
    rcases pass_next h with ⟨old, hold, hpending⟩ | ⟨rfl, hi, hpending⟩
    · obtain ⟨before, between, rfl, hi, hlisted⟩ := ih hold
      refine ⟨before, between ++ [a], ?_, hi, fun l hl => hlisted l (hpending l hl)⟩
      rw [List.append_assoc, List.cons_append]
    · exact ⟨as, [], rfl, hi, fun l hl => hpending ▸ hl⟩

/-- As long as the feed brings no new record, a lobby that is known is as it was listed. -/
theorem info_eq_of_unrefreshed {l m : Lobby} {between : List Action}
    (hl : w.coordinator.lobbies.get? l.serverId = some l)
    (hm : (w.run owner (.list :: between)).coordinator.lobbies.get? l.serverId = some m)
    (h : ∀ a ∈ between, ¬ a.Refreshes l.serverId) : m.info = l.info := by
  have hlist : ∀ a ∈ Action.list :: between, ¬ a.Refreshes l.serverId := by
    intro a ha
    rcases List.mem_cons.1 ha with rfl | ha
    · rintro ⟨feed, hreport, -⟩
      cases hreport
    · exact h a ha
  have hold : w.coordinator.lobbies.record? l.serverId = some l.info :=
    congrArg (Option.map Lobby.info) hl
  have hnew : (w.run owner (.list :: between)).coordinator.lobbies.record? l.serverId =
      some m.info := congrArg (Option.map Lobby.info) hm
  have hrun : (w.run owner (.list :: between)).coordinator.lobbies.record? l.serverId =
      w.coordinator.lobbies.record? l.serverId ∨ _ := record?_run hlist
  rcases hrun with hrun | hrun
  · rw [hnew, hold] at hrun
    exact Option.some.inj hrun
  · rw [hnew] at hrun
    cases hrun

/-- **Players are told of the server as it was listed.**  That is the server as it is now if no new
record has come since the listing, and otherwise if and only if the new one names it alike. -/
theorem names_listed_record (config : Config) (owner : Nat → Profile) (as : List Action)
    (a : Action) {n : Nat} {server : Protocol.LobbyServer} {users : List Protocol.Member}
    (h : .deliver n (.startGame server users) ∈
      (((start config).run owner as).outcome owner a).effects) :
    ∃ i lookup before between l m address,
      a = .proceed i lookup ∧ as = before ++ .list :: between ∧
      i = ((start config).run owner before).passes.length ∧
      l ∈ ((start config).run owner before).coordinator.candidates ∧
      ((start config).run owner before).coordinator.lobbies.record? l.serverId = some l.info ∧
      ((start config).run owner as).coordinator.lobbies.get? l.serverId = some m ∧
      m.members = l.members ∧
      l.info.resolve lookup = .ok address ∧ server = l.info.server address ∧
      ((∃ b, m.info.resolve lookup = .ok b ∧ server = m.info.server b) ↔
        l.info.SameSite m.info) ∧
      ((∀ b ∈ between, ¬ b.Refreshes l.serverId) → m.info = l.info) := by
  obtain ⟨l, hl⟩ := (change_outcome owner _ a).starts_of_mem h
  obtain ⟨i, lookup, rest, address, ha, hpass, haddress, hunchanged, hout⟩ :=
    starting?_eq_some hl
  obtain ⟨m, hm, -, hmembers, -⟩ := Coordinator.isUnchanged_iff.1 hunchanged
  obtain ⟨before, between, has, hi, hlisted⟩ := listed_run hpass
  have hcandidate := hlisted l List.mem_cons_self
  have hknown := Coordinator.get?_of_candidate hcandidate
  -- what this player is told is what everyone is told
  have hserver : server = l.info.server address := by
    have hcalled : (n, server, users) ∈
        (((start config).run owner as).outcome owner a).effects.filterMap Effect.summons? :=
      List.mem_filterMap.2 ⟨_, h, rfl⟩
    rw [hout, Coordinator.summons?_matched] at hcalled
    obtain ⟨e, -, he⟩ := List.mem_map.1 hcalled
    cases he
    rfl
  refine ⟨i, lookup, before, between, l, m, address, ha, has, hi, hcandidate,
    congrArg (Option.map Lobby.info) hknown, hm, hmembers, haddress, hserver, ?_, ?_⟩
  · rw [hserver]
    exact LobbyInfo.names_iff haddress
  · rw [has, run_append] at hm
    exact info_eq_of_unrefreshed hknown hm

end World

/-! ## new records while a server is looked up -/

namespace Sample

def filled : LobbyInfo := { server with playerCount := 3 }

def moved : LobbyInfo := { server with port := 27016 }

/-- the lobby is listed, and then there is a new record of its server -/
def refreshed (info : LobbyInfo) : List Action := listed ++ [.report (.ok [info])]

end Sample

namespace World

theorem names_listed_record_sample :
    ∃ m ∈ ((start {}).run Sample.owner
        (Sample.refreshed Sample.filled)).coordinator.lobbies.lobbies,
      m.info = Sample.filled ∧ ∃ b, m.info.resolve Sample.lookup = .ok b ∧
        Sample.server.server (.v4 127 0 0 1) = m.info.server b := by
  have hcalled : .deliver 1 (.startGame (Sample.server.server (.v4 127 0 0 1))
      [(Sample.owner 0).member, (Sample.owner 1).member]) ∈
      (((start {}).run Sample.owner (Sample.refreshed Sample.filled)).outcome Sample.owner
        (.proceed 0 Sample.lookup)).effects := by decide +kernel
  obtain ⟨i, lookup, before, between, l, m, address, ha, -, -, -, -, hm, -, -, hserver, hiff, -⟩ :=
    names_listed_record {} Sample.owner _ (.proceed 0 Sample.lookup) hcalled
  cases ha
  have hmem := (Registry.get?_eq_some_iff.1 hm).1
  have hinfo : m.info = Sample.filled := by
    have hall : ∀ k ∈ ((start {}).run Sample.owner
        (Sample.refreshed Sample.filled)).coordinator.lobbies.lobbies.toList,
        k.info = Sample.filled := by decide +kernel
    exact hall m hmem
  have hsite := (LobbyInfo.server_eq_iff.1 hserver).1
  refine ⟨m, hmem, hinfo, hiff.2 ?_⟩
  rw [hinfo]
  exact ⟨hsite.title.symm, hsite.shortName.symm, hsite.cc.symm, hsite.hostname.symm,
    hsite.port.symm⟩

/-- The players are sent to the port that the server has left. -/
theorem moved_server_is_missed :
    ¬ ∀ (config : Config) (owner : Nat → Profile) (as : List Action) (i : Nat) (lookup : Lookup)
      (l m : Lobby) (n : Nat) (server : Protocol.LobbyServer) (users : List Protocol.Member),
      ((start config).run owner as).starting? (.proceed i lookup) = some l →
      ((start config).run owner as).coordinator.lobbies.get? l.serverId = some m →
      .deliver n (.startGame server users) ∈
        (((start config).run owner as).outcome owner (.proceed i lookup)).effects →
      ∃ address, m.info.resolve lookup = .ok address ∧ server = m.info.server address := by
  intro h
  obtain ⟨address, -, hserver⟩ := h {} Sample.owner
    (Sample.refreshed Sample.moved) 0 Sample.lookup Sample.lobby
    { Sample.lobby with info := Sample.moved } 1 (Sample.server.server (.v4 127 0 0 1))
    [(Sample.owner 0).member, (Sample.owner 1).member] (by decide +kernel) (by decide +kernel)
    (by decide +kernel)
  have hport := (LobbyInfo.server_eq_iff.1 hserver).1.port
  exact absurd hport (by decide)

end World

end Matchmaker
