import Matchmaker.Proofs.Coordinator.Registration
import Matchmaker.Proofs.Registry.Changes

/-!
# Who is told of a change of queues

A coordinator tells everyone of the queues when the registry says that they have changed, and nobody
otherwise.  The registry is right about that, so there is one update for every registered session if
what is shown has changed, and nothing happens at all if it has not (`Announces`).
-/

namespace Matchmaker

namespace Coordinator
variable {c : Coordinator}

/-- the queues alone, as everyone is told of them -/
def queuesUpdate (states : List Protocol.LobbyState) : Protocol.Response :=
  .stateUpdate { updateUsers := false, updateServers := true, servers := states, users := [] }

/-- A step that leaves these lobbies tells every registered session once if what is shown of them
has changed, and is no step at all if it has not. -/
structure Announces (c : Coordinator) (lobbies : Registry) (o : Outcome) : Prop where
  state : o.state = { c with lobbies := lobbies }
  changed : o.state.lobbyStates ≠ c.lobbyStates →
    o.effects = c.clients.toList.map fun e =>
      .deliver e.connection (queuesUpdate o.state.lobbyStates)
  unchanged : o.state.lobbyStates = c.lobbyStates → o = .still c

theorem effects_announced (d : Coordinator) :
    (announced d).effects = d.clients.toList.map fun e =>
      .deliver e.connection (queuesUpdate d.lobbyStates) := by
  show (d.clients.toList.filter fun _ => true).map _ = _
  rw [List.filter_true]
  rfl

/-- Whoever tells everyone exactly when a change is told announces it. -/
theorem announces_of_told {x : Registry × Bool} (htold : x.2 = true ↔ x.1.states ≠ c.lobbies.states)
    (hrecord : x.1.record? = c.lobbies.record?) :
    c.Announces x.1 (if x.2 = true then announced { c with lobbies := x.1 } else .still c) := by
  split
  · rename_i hchanged
    exact {
      state := rfl
      changed := fun _ => effects_announced _
      unchanged := fun hsame => absurd hsame (htold.1 hchanged) }
  · rename_i hsame
    have hlobbies : x.1 = c.lobbies :=
      Registry.eq_of_states hrecord (not_not.1 (mt htold.2 hsame))
    rw [hlobbies]
    exact {
      state := rfl
      changed := fun hne => absurd rfl hne
      unchanged := fun _ => rfl }

theorem announces_leave (c : Coordinator) (p : SteamId) (servers : List ServerId) :
    c.Announces (c.lobbies.leave p servers).1 (c.leave p servers) := by
  have hchange := Registry.changes_leave c.lobbies p servers
  rw [leave_eq]
  exact announces_of_told hchange.told hchange.records

/-- A player who is not registered is not queued. -/
theorem enqueue?_of_not {p : SteamId} (h : c.isConnected p = false) (servers : List ServerId) :
    c.enqueue? p servers = none := by
  rw [enqueue?_eq, h]
  simp

theorem join_of_not {p : SteamId} (h : c.isConnected p = false) (lookup : Lookup)
    (servers : List ServerId) : c.join lookup p servers = .still c := by
  unfold join
  rw [enqueue?_of_not h]

theorem announces_enqueue {p : SteamId} (h : c.isConnected p = true) (servers : List ServerId) :
    c.Announces (c.lobbies.join p servers).1 ((c.enqueue? p servers).getD (.still c)) := by
  have hchange := Registry.changes_join c.lobbies p servers
  have hstep : (c.enqueue? p servers).getD (.still c) =
      if (c.lobbies.join p servers).2 = true then
        announced { c with lobbies := (c.lobbies.join p servers).1 }
      else .still c := by
    rw [enqueue?_eq, h]
    split <;> simp_all
  rw [hstep]
  exact announces_of_told hchange.told hchange.records

end Coordinator

/-- **Queues and broadcasts change together.**  Joining, leaving and leaving everything say exactly
whether the states have changed.  They depend only on which known servers are named, touch the
entries of one player, and change nothing when they are repeated; who was in none of the queues joins
and leaves them without a trace.  A coordinator therefore tells every registered session of the
queues once if the states have changed, and does nothing otherwise; who is not registered changes
nothing by joining. -/
theorem queue_changes_announced :
    (∀ (r : Registry) (p : SteamId) (servers : List ServerId),
      (r.Changes p (fun s => r.Queued p s ∨ (s ∈ servers ∧ r.Knows s)) (r.join p servers) ∧
        r.Changes p (fun s => r.Queued p s ∧ s ∉ servers) (r.leave p servers) ∧
        r.Changes p (fun _ => False) (r.leaveAll p)) ∧
      (∀ others : List ServerId, (∀ s, r.Knows s → (s ∈ others ↔ s ∈ servers)) →
        r.join p others = r.join p servers ∧ r.leave p others = r.leave p servers) ∧
      ((r.join p servers).1.join p servers = ((r.join p servers).1, false) ∧
        (r.leave p servers).1.leave p servers = ((r.leave p servers).1, false) ∧
        (r.leaveAll p).1.leaveAll p = ((r.leaveAll p).1, false)) ∧
      ((∀ s ∈ servers, ¬ r.Queued p s) →
        ((r.join p servers).1.leave p servers).1.states = r.states)) ∧
    ∀ (c : Coordinator) (p : SteamId) (servers : List ServerId),
      c.Announces (c.lobbies.leave p servers).1 (c.leave p servers) ∧
      (c.isConnected p = true →
        c.Announces (c.lobbies.join p servers).1 ((c.enqueue? p servers).getD (.still c))) ∧
      (c.isConnected p = false → c.enqueue? p servers = none ∧
        ∀ lookup : Lookup, c.join lookup p servers = .still c) := by
  constructor
  · intro r p servers
    refine ⟨⟨r.changes_join p servers, r.changes_leave p servers, r.changes_leaveAll p⟩, ?_,
      ⟨r.join_again p servers, r.leave_again p servers, r.leaveAll_again p⟩, ?_⟩
    · intro others hsame
      exact ⟨Registry.join_congr hsame, Registry.leave_congr hsame⟩
    · intro hnew
      rw [Registry.leave_join hnew]
  · intro c p servers
    refine ⟨c.announces_leave p servers, ?_, ?_⟩
    · intro hp
      exact Coordinator.announces_enqueue hp servers
    · intro hp
      refine ⟨Coordinator.enqueue?_of_not hp servers, fun lookup => ?_⟩
      exact Coordinator.join_of_not hp lookup servers

/-- A known server is named twice and an unknown one once; one player is registered. -/
theorem queue_changes_announced_sample :
    let r := Registry.Sample.registry
    let p : SteamId := .ofNat 2
    let servers : List ServerId := [⟨1⟩, ⟨9⟩, ⟨1⟩]
    let c : Coordinator :=
      { ((Coordinator.new {}).connect ⟨0, .regular p "", .readwrite⟩).state with lobbies := r }
    r.join p servers = r.join p [⟨1⟩] ∧ (r.join p servers).2 = true ∧
      ((r.join p servers).1.leave p servers).1.states = r.states ∧
      ((c.enqueue? p servers).getD (.still c)).effects =
        [.deliver 0 (Coordinator.queuesUpdate [⟨⟨1⟩, [.ofNat 1, p]⟩])] ∧
      c.enqueue? (.ofNat 5) servers = none := by
  intro r p servers c
  obtain ⟨⟨hjoin, -, -⟩, hnames, -, hback⟩ := queue_changes_announced.1 r p servers
  obtain ⟨-, hqueued, -⟩ := queue_changes_announced.2 c p servers
  obtain ⟨-, -, hstranger⟩ := queue_changes_announced.2 c (.ofNat 5) servers
  refine ⟨(hnames [⟨1⟩] ?_).1.symm, hjoin.told.2 (by decide), hback ?_, ?_,
    (hstranger (by decide)).1⟩
  · rintro s ⟨l, hl⟩
    obtain ⟨hmem, rfl⟩ := Registry.get?_eq_some_iff.1 hl
    obtain rfl : l = Registry.Sample.lobby := List.mem_singleton.1 hmem
    decide
  · rintro s - ⟨l, hl, hp⟩
    obtain rfl : l = Registry.Sample.lobby := List.mem_singleton.1 (Registry.get?_eq_some_iff.1 hl).1
    exact absurd (Lobby.contains_iff.2 hp) (by decide)
  · rw [(hqueued (by decide)).changed (by decide)]
    rfl

end Matchmaker
