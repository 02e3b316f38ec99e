import Matchmaker.Coordinator.Chat
import Matchmaker.Coordinator.Matching
import Matchmaker.Coordinator.Sessions
import Matchmaker.Proofs.Registry.Reconcile

/-!
# Who is registered, and who is queued

What each operation does to the registered sessions and to the queues.  Players get into a queue by
joining it and in no other way, and whoever is taken out of the registry is taken out of all queues
by the same step.
-/

namespace Matchmaker.Coordinator

/-! ## registered sessions -/

theorem client?_eq_some_iff {c : Coordinator} {p : SteamId} {e : Session} :
    c.client? p = some e ↔ e ∈ c.clients ∧ e.steamId = p := by
  rw [client?, Ascending.get?_eq_some_iff]
  exact and_congr_right fun _ => ⟨SteamId.ext_toNat, congrArg SteamId.toNat⟩

theorem isConnected_iff {c : Coordinator} {p : SteamId} :
    c.isConnected p = true ↔ ∃ e ∈ c.clients, e.steamId = p := by
  rw [isConnected, Ascending.hasKey_iff]
  exact exists_congr fun e =>
    and_congr_right fun _ => ⟨SteamId.ext_toNat, congrArg SteamId.toNat⟩

theorem isConnected_eq_isSome (c : Coordinator) (p : SteamId) :
    c.isConnected p = (c.client? p).isSome := c.clients.hasKey_eq_isSome p.toNat

/-- A player has one session. -/
theorem session_unique {c : Coordinator} {d e : Session} (hd : d ∈ c.clients) (he : e ∈ c.clients)
    (h : d.steamId = e.steamId) : d = e :=
  c.clients.key_injOn hd he (congrArg SteamId.toNat h)

/-! ## taking a session out -/

theorem remove_of_not {c : Coordinator} {p : SteamId} (h : c.isConnected p = false) :
    c.remove p = c := by
  rw [isConnected_eq_isSome] at h
  unfold remove
  cases hc : c.client? p with
  | none => rfl
  | some e => simp [hc] at h

theorem clients_remove (c : Coordinator) (p : SteamId) :
    (c.remove p).clients = c.clients.erase p.toNat := by
  unfold remove
  cases hc : c.client? p with
  | some e => rfl
  | none =>
    refine Ascending.ext_mem fun e => ?_
    rw [Ascending.mem_erase]
    exact ⟨fun he => ⟨he, Ascending.get?_eq_none_iff.1 hc e he⟩, fun he => he.1⟩

theorem isConnected_remove {c : Coordinator} {p q : SteamId} :
    (c.remove p).isConnected q = true ↔ c.isConnected q = true ∧ q ≠ p := by
  rw [isConnected_iff, isConnected_iff, clients_remove]
  constructor
  · rintro ⟨e, he, rfl⟩
    obtain ⟨he, hk⟩ := Ascending.mem_erase.1 he
    exact ⟨⟨e, he, rfl⟩, fun h => hk (congrArg SteamId.toNat h)⟩
  · rintro ⟨⟨e, he, rfl⟩, hq⟩
    exact ⟨e, Ascending.mem_erase.2 ⟨he, mt SteamId.ext_toNat hq⟩, rfl⟩

theorem lobbies_remove {c : Coordinator} {p : SteamId} (h : c.isConnected p = true) :
    (c.remove p).lobbies = (c.lobbies.leaveAll p).1 := by
  obtain ⟨e, he⟩ := Option.isSome_iff_exists.1 (isConnected_eq_isSome c p ▸ h)
  unfold remove
  rw [he]

theorem queued_of_queued_remove {c : Coordinator} {p q : SteamId} {s : ServerId}
    (h : (c.remove p).lobbies.Queued q s) : c.lobbies.Queued q s := by
  by_cases hp : c.isConnected p = true
  · rw [lobbies_remove hp] at h
    exact (Registry.queued_leaveAll.1 h).1
  · rwa [remove_of_not (Bool.eq_false_iff.2 hp)] at h

theorem record?_remove (c : Coordinator) (p : SteamId) :
    (c.remove p).lobbies.record? = c.lobbies.record? := by
  unfold remove
  split
  · exact Registry.record?_leaveAll _ _
  · rfl

theorem settings_remove (c : Coordinator) (p : SteamId) : (c.remove p).settings = c.settings := by
  unfold remove
  split <;> rfl

/-- takes the sessions of these players out -/
def removeEach (c : Coordinator) (sessions : List Session) : Coordinator :=
  sessions.foldl (fun c e => c.remove e.steamId) c

theorem removeEach_cons (c : Coordinator) (e : Session) (sessions : List Session) :
    c.removeEach (e :: sessions) = (c.remove e.steamId).removeEach sessions := rfl

theorem settings_removeEach (c : Coordinator) (sessions : List Session) :
    (c.removeEach sessions).settings = c.settings := by
  induction sessions generalizing c with
  | nil => rfl
  | cons e sessions ih => rw [removeEach_cons, ih, settings_remove]

theorem record?_removeEach (c : Coordinator) (sessions : List Session) :
    (c.removeEach sessions).lobbies.record? = c.lobbies.record? := by
  induction sessions generalizing c with
  | nil => rfl
  | cons e sessions ih => rw [removeEach_cons, ih, record?_remove]

theorem mem_clients_of_removeEach {c : Coordinator} {sessions : List Session} {d : Session}
    (h : d ∈ (c.removeEach sessions).clients) : d ∈ c.clients := by
  induction sessions generalizing c with
  | nil => exact h
  | cons e sessions ih =>
    have hd := ih h
    rw [clients_remove] at hd
    exact (Ascending.mem_erase.1 hd).1

theorem queued_of_queued_removeEach {c : Coordinator} {sessions : List Session} {q : SteamId}
    {s : ServerId} (h : (c.removeEach sessions).lobbies.Queued q s) : c.lobbies.Queued q s := by
  induction sessions generalizing c with
  | nil => exact h
  | cons e sessions ih => exact queued_of_queued_remove (ih h)

/-! ## what the operations come to -/

/-- everyone is told of the queues as they are now -/
def announced (d : Coordinator) : Outcome := ⟨d, d.broadcastAll d.serversUpdate⟩

theorem mem_broadcast {c : Coordinator} {r : Protocol.Response} {p : Session → Bool} {x : Effect} :
    x ∈ c.broadcast r p ↔ ∃ e ∈ c.clients, p e = true ∧ x = .deliver e.connection r := by
  unfold broadcast
  rw [List.mem_map]
  constructor
  · rintro ⟨e, he, rfl⟩
    obtain ⟨he, hp⟩ := List.mem_filter.1 he
    exact ⟨e, he, hp, rfl⟩
  · rintro ⟨e, he, hp, rfl⟩
    exact ⟨e, List.mem_filter.2 ⟨he, hp⟩, rfl⟩

theorem isCurrent_iff {c : Coordinator} {p : SteamId} {n : Nat} :
    c.isCurrent p n = true ↔ ∃ e ∈ c.clients, e.steamId = p ∧ e.connection = n := by
  unfold isCurrent
  cases hc : c.client? p with
  | none =>
    simp only [Option.any_none, Bool.false_eq_true, false_iff]
    rintro ⟨e, he, hp, -⟩
    rw [client?_eq_some_iff.2 ⟨he, hp⟩] at hc
    cases hc
  | some e =>
    obtain ⟨he, hp⟩ := client?_eq_some_iff.1 hc
    simp only [Option.any_some, beq_iff_eq]
    constructor
    · exact fun hn => ⟨e, he, hp, hn⟩
    · rintro ⟨d, hd, hdp, hn⟩
      rwa [session_unique he hd (hp.trans hdp.symm)]

theorem leave_eq (c : Coordinator) (p : SteamId) (servers : List ServerId) :
    c.leave p servers =
      if (c.lobbies.leave p servers).2 then
        announced { c with lobbies := (c.lobbies.leave p servers).1 }
      else .still c := by
  unfold leave
  obtain ⟨lobbies, changed⟩ := c.lobbies.leave p servers
  cases changed <;> rfl

theorem enqueue?_eq (c : Coordinator) (p : SteamId) (servers : List ServerId) :
    c.enqueue? p servers =
      if c.isConnected p = true ∧ (c.lobbies.join p servers).2 = true then
        some (announced { c with lobbies := (c.lobbies.join p servers).1 })
      else none := by
  unfold enqueue?
  obtain ⟨lobbies, changed⟩ := c.lobbies.join p servers
  cases c.isConnected p <;> cases changed <;> rfl

theorem reconcile_eq (c : Coordinator) (feed : List LobbyInfo) :
    c.reconcile feed =
      if (c.lobbies.reconcile feed).2.changed then
        announced { c with lobbies := (c.lobbies.reconcile feed).1 }
      else .still { c with lobbies := (c.lobbies.reconcile feed).1 } := by
  unfold reconcile
  obtain ⟨lobbies, change⟩ := c.lobbies.reconcile feed
  cases h : change.changed <;> simp [announced, Outcome.still, h]

end Matchmaker.Coordinator
