import Matchmaker.Proofs.Coordinator.Registration

/-!
# What clients know of users and queues

A client learns of the queues from the last update that carries them, and of the users from the last
one that carries those (`lastUpdate`).  What it has been told is right (`Shows`) if these two are as
the coordinator is now.  A full update makes it right whatever came before, and an update of the
queues keeps it right as long as the users have not changed.
-/

namespace Matchmaker

open Protocol (Response StateUpdate)

/-! ## updates among responses -/

def Protocol.Response.update? : Response → Option StateUpdate
  | .stateUpdate u => some u
  | _ => none

def updates (rs : List Response) : List StateUpdate := rs.filterMap Response.update?

/-- the last of the updates that carry what is asked for -/
def lastUpdate (carries : StateUpdate → Bool) (rs : List Response) : Option StateUpdate :=
  ((updates rs).filter carries).getLast?

theorem updates_append (rs ts : List Response) : updates (rs ++ ts) = updates rs ++ updates ts :=
  List.filterMap_append

theorem lastUpdate_append_of_updates {carries : StateUpdate → Bool} {rs ts : List Response}
    (h : updates ts = []) : lastUpdate carries (rs ++ ts) = lastUpdate carries rs := by
  unfold lastUpdate
  rw [updates_append, h, List.append_nil]

/-- Of several updates that are all the same the last one is that one. -/
theorem lastUpdate_append_replicate (carries : StateUpdate → Bool) (rs : List Response)
    {ts : List Response} {u : StateUpdate} {k : Nat} (h : updates ts = List.replicate k u) :
    lastUpdate carries (rs ++ ts) =
      if carries u = true ∧ 0 < k then some u else lastUpdate carries rs := by
  unfold lastUpdate
  rw [updates_append, h, List.filter_append, List.filter_replicate]
  cases hu : carries u with
  | false => simp
  | true =>
    cases k with
    | zero => simp
    | succ k => simp [List.replicate_succ', ← List.append_assoc]

theorem Effect.mem_responses {n : Nat} {r : Response} {es : List Effect} :
    r ∈ responses n es ↔ .deliver n r ∈ es := by
  unfold responses
  rw [List.mem_filterMap]
  constructor
  · rintro ⟨e, he, hr⟩
    cases e with
    | deliver m x =>
      by_cases h : m = n
      · rw [response?, if_pos h] at hr
        cases hr
        exact h ▸ he
      · rw [response?, if_neg h] at hr
        cases hr
    | _ => cases hr
  · intro h
    exact ⟨_, h, if_pos rfl⟩

/-- does not tell of users or queues -/
def Effect.Silent : Effect → Prop
  | .deliver _ (.stateUpdate _) => False
  | _ => True

theorem updates_of_silent {es : List Effect} (h : ∀ e ∈ es, e.Silent) (n : Nat) :
    updates (Effect.responses n es) = [] := by
  refine List.filterMap_eq_nil_iff.2 fun r hr => ?_
  have hsilent := h _ (Effect.mem_responses.1 hr)
  cases r with
  | stateUpdate u => exact absurd hsilent id
  | _ => rfl

namespace Coordinator

/-- the session of a registered player is over this connection -/
def Serves (c : Coordinator) (n : Nat) : Prop := ∃ e ∈ c.clients, e.connection = n

/-- An update for everyone comes to those who are served. -/
theorem updates_broadcastAll (c : Coordinator) (u : StateUpdate) (n : Nat) :
    ∃ k, updates (Effect.responses n (c.broadcastAll (.stateUpdate u))) = List.replicate k u ∧
      (c.Serves n → 0 < k) := by
  have hall : ∀ v ∈ updates (Effect.responses n (c.broadcastAll (.stateUpdate u))), v = u := by
    intro v hv
    obtain ⟨r, hr, hrv⟩ := List.mem_filterMap.1 hv
    obtain ⟨e, -, -, he⟩ := mem_broadcast.1 (Effect.mem_responses.1 hr)
    cases he
    cases hrv
    rfl
  refine ⟨_, List.eq_replicate_of_mem hall, ?_⟩
  rintro ⟨e, he, rfl⟩
  refine List.length_pos_of_mem (a := u) ?_
  refine List.mem_filterMap.2 ⟨.stateUpdate u, Effect.mem_responses.2 ?_, rfl⟩
  exact mem_broadcast.2 ⟨e, he, rfl, rfl⟩

/-! ## what is right to show -/

/-- what these responses tell of users and queues is right -/
structure Shows (rs : List Response) (c : Coordinator) : Prop where
  servers : ∃ u, lastUpdate StateUpdate.updateServers rs = some u ∧ u.servers = c.lobbyStates
  users : ∃ u, lastUpdate StateUpdate.updateUsers rs = some u ∧ u.users = c.users

theorem Shows.congr {rs ts : List Response} {c d : Coordinator} (h : Shows rs c)
    (hts : updates ts = []) (hservers : d.lobbyStates = c.lobbyStates)
    (husers : d.users = c.users) : Shows (rs ++ ts) d where
  servers := by
    rw [lastUpdate_append_of_updates hts, hservers]
    exact h.servers
  users := by
    rw [lastUpdate_append_of_updates hts, husers]
    exact h.users

theorem shows_fullUpdate {d : Coordinator} {n : Nat} (hn : d.Serves n) (rs : List Response) :
    Shows (rs ++ Effect.responses n (d.broadcastAll d.fullUpdate)) d := by
  obtain ⟨k, hk, hpos⟩ := d.updates_broadcastAll _ n
  have hlast := fun carries => lastUpdate_append_replicate carries rs hk
  exact {
    servers := ⟨_, (hlast _).trans (if_pos ⟨rfl, hpos hn⟩), rfl⟩
    users := ⟨_, (hlast _).trans (if_pos ⟨rfl, hpos hn⟩), rfl⟩ }

/-- After an update of the queues, the users are as they were last told. -/
theorem Shows.serversUpdate {rs : List Response} {c d : Coordinator} (h : Shows rs c) {n : Nat}
    (hn : d.Serves n) (husers : d.users = c.users) :
    Shows (rs ++ Effect.responses n (d.broadcastAll d.serversUpdate)) d := by
  obtain ⟨k, hk, hpos⟩ := d.updates_broadcastAll _ n
  have hlast := fun carries => lastUpdate_append_replicate carries rs hk
  obtain ⟨u, hu, hview⟩ := h.users
  exact {
    servers := ⟨_, (hlast _).trans (if_pos ⟨rfl, hpos hn⟩), rfl⟩
    users := by
      refine ⟨u, ?_, hview.trans husers.symm⟩
      rw [← hu]
      exact (hlast _).trans (if_neg fun hc => Bool.false_ne_true hc.1) }

/-! ## users and queues in order -/

/-- the registered players as others see them, still in order of their identity -/
def userTable (c : Coordinator) : Ascending Protocol.Member fun m => m.steamId.toNat :=
  c.clients.image Session.member fun _ => rfl

theorem toList_userTable (c : Coordinator) : c.userTable.toList = c.users := rfl

theorem mem_users {c : Coordinator} {m : Protocol.Member} :
    m ∈ c.users ↔ ∃ e ∈ c.clients, e.member = m := List.mem_map

theorem users_ascending (c : Coordinator) :
    c.users.Pairwise fun a b => a.steamId.toNat < b.steamId.toNat := c.userTable.sorted

theorem lobbyStates_ascending (c : Coordinator) :
    c.lobbyStates.Pairwise fun a b => a.serverId.toNat < b.serverId.toNat :=
  c.lobbies.shown.sorted

theorem members_ascending {c : Coordinator} {s : Protocol.LobbyState} (h : s ∈ c.lobbyStates) :
    s.members.Pairwise fun p q => p.toNat < q.toNat := by
  obtain ⟨l, -, rfl⟩ := List.mem_map.1 h
  exact l.members.sorted

end Coordinator

end Matchmaker
