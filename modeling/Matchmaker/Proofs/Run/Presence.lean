import Matchmaker.Proofs.Run.Change

/-!
# Who waits is there

Nobody is put into a queue except by joining it (`Change.queued`), which only registered players
can, and who is taken out of the registry is taken out of all queues before the lock is given back.
So after every action all queued players are registered (`Present`), whatever the tasks are that
take their turns, and the search for candidates passes over no lobby because of a member that is
gone.
-/

namespace Matchmaker

open Coordinator (Outcome)

namespace Coordinator

def Present (c : Coordinator) : Prop := ∀ p s, c.lobbies.Queued p s → c.isConnected p = true

theorem isConnected_of_insert {c d : Coordinator} {e : Session}
    (hd : d.clients = c.clients.insert e) {p : SteamId} (h : c.isConnected p = true) :
    d.isConnected p = true := by
  rw [isConnected_eq_isSome] at h ⊢
  unfold client?
  rw [hd, Ascending.get?_insert]
  by_cases hk : e.playerKey = p.toNat
  · rw [if_pos hk]
    rfl
  · rw [if_neg hk]
    exact h

theorem not_queued_of_remove {c : Coordinator} {p : SteamId} (hp : c.isConnected p = true)
    (s : ServerId) : ¬ (c.remove p).lobbies.Queued p s := by
  intro h
  rw [lobbies_remove hp] at h
  exact (Registry.queued_leaveAll.1 h).2 rfl

theorem Present.remove {c : Coordinator} (h : c.Present) (p : SteamId) : (c.remove p).Present := by
  intro q s hq
  have hcon : c.isConnected q = true := h q s (queued_of_queued_remove hq)
  refine isConnected_remove.2 ⟨hcon, ?_⟩
  rintro rfl
  exact not_queued_of_remove hcon s hq

theorem Present.removeEach {c : Coordinator} (h : c.Present) (gone : List Session) :
    (c.removeEach gone).Present := by
  induction gone generalizing c with
  | nil => exact h
  | cons e gone ih => exact ih (h.remove e.steamId)

/-- The search for candidates never finds a lobby that can start and has a member that is gone. -/
theorem Present.candidates_eq {c : Coordinator} (h : c.Present) :
    c.candidates = c.lobbies.lobbies.toList.filter (·.isEligible c.settings.minQueueSize) := by
  refine List.filter_congr fun l hl => ?_
  have hall : l.members.toList.all c.isConnected = true := by
    rw [List.all_eq_true]
    intro p hp
    exact h p l.serverId ⟨l, Registry.get?_of_mem hl, hp⟩
  rw [hall, Bool.and_true]

end Coordinator

namespace World
variable {owner : Nat → Profile} {w : World} {a : Action} {o : Outcome}

/-- **Queues grow by joining, and in no other way.** -/
theorem Change.queued (h : Change owner w a o) {p : SteamId} {s : ServerId}
    (hp : o.state.lobbies.Queued p s) :
    w.coordinator.lobbies.Queued p s ∨
      ∃ servers, a = .enqueue p servers ∧ w.coordinator.isConnected p = true := by
  cases h with
  | quiet o hclients hlobbies hsettings heffects =>
    rw [hlobbies] at hp
    exact .inl hp
  | status e he status effects heffects => exact .inl hp
  | comes n status ha before hbefore d hclients hlobbies hsettings =>
    change d.lobbies.Queued p s at hp
    rw [hlobbies] at hp
    exact .inl hp
  | goes gone before after hbefore hafter =>
    exact .inl (Coordinator.queued_of_queued_removeEach hp)
  | joins q servers ha hq =>
    rcases Registry.queued_join.1 hp with hp | ⟨rfl, -, -⟩
    · exact .inl hp
    · exact .inr ⟨servers, ha, hq⟩
  | leaves q servers => exact .inl (Registry.queued_leave.1 hp).1
  | reports feed => exact .inl (Registry.queued_of_queued_reconcile hp)
  | refreshes feed hsame => exact .inl (Registry.queued_of_queued_reconcile hp)
  | starts l address ha hl => exact .inl (Registry.queued_leaveEach.1 hp).1

/-- No action leaves somebody in a queue who is not registered. -/
theorem Change.present (h : Change owner w a o) (hw : w.coordinator.Present) :
    o.state.Present := by
  -- whoever is queued afterwards was registered before, and only `goes` takes sessions out
  have hqueued : ∀ p s, o.state.lobbies.Queued p s → w.coordinator.isConnected p = true := by
    intro p s hp
    rcases h.queued hp with hp | ⟨_, -, hcon⟩
    · exact hw p s hp
    · exact hcon
  cases h with
  | quiet o hclients hlobbies hsettings heffects =>
    intro p s hp
    unfold Coordinator.isConnected
    rw [hclients]
    exact hqueued p s hp
  | status e he status effects heffects =>
    intro p s hp
    exact Coordinator.isConnected_of_insert rfl (hqueued p s hp)
  | comes n status ha before hbefore d hclients hlobbies hsettings =>
    intro p s hp
    exact Coordinator.isConnected_of_insert hclients (hqueued p s hp)
  | goes gone before after hbefore hafter => exact hw.removeEach gone
  | joins q servers ha hq => exact hqueued
  | leaves q servers => exact hqueued
  | reports feed => exact hqueued
  | refreshes feed hsame => exact hqueued
  | starts l address ha hl => exact hqueued

theorem present_run (config : Config) (owner : Nat → Profile) (as : List Action) :
    ((start config).run owner as).coordinator.Present := by
  refine run_induction (P := fun w => w.coordinator.Present)
    (fun w a h => (change_outcome owner w a).present h) ?_ as
  intro p s h
  exact absurd h (Registry.not_queued_empty p s)

/-- **Queued players are connected.**  After every run the members of every lobby are registered, so
no lobby that can start is passed over for a member that is gone. -/
theorem members_registered (config : Config) (owner : Nat → Profile) (as : List Action) :
    let c := ((start config).run owner as).coordinator
    (∀ l ∈ c.lobbies.lobbies, ∀ p ∈ l.members, ∃ e ∈ c.clients, e.steamId = p) ∧
      (∀ l ∈ c.lobbies.lobbies, l.isEligible c.settings.minQueueSize = true →
        l.members.toList.all c.isConnected = true) ∧
      c.candidates = c.lobbies.lobbies.toList.filter (·.isEligible c.settings.minQueueSize) := by
  intro c
  have hpresent : c.Present := present_run config owner as
  have hmember : ∀ l ∈ c.lobbies.lobbies, ∀ p ∈ l.members, c.isConnected p = true := by
    intro l hl p hp
    exact hpresent p l.serverId ⟨l, Registry.get?_of_mem hl, hp⟩
  refine ⟨?_, ?_, hpresent.candidates_eq⟩
  · intro l hl p hp
    exact Coordinator.isConnected_iff.1 (hmember l hl p hp)
  · intro l hl _
    exact List.all_eq_true.2 fun p hp => hmember l hl p hp

theorem members_registered_sample :
    ∃ e ∈ ((start {}).run Sample.owner Sample.listed).coordinator.clients,
      e.steamId = .ofNat 1 := by
  have hl : Sample.lobby ∈
      ((start {}).run Sample.owner Sample.listed).coordinator.lobbies.lobbies := by
    rw [Ascending.mem_def]
    decide +kernel
  have hp : SteamId.ofNat 1 ∈ Sample.lobby.members := Lobby.contains_iff.1 (by decide +kernel)
  exact (members_registered {} Sample.owner Sample.listed).1 _ hl _ hp

end World

end Matchmaker
