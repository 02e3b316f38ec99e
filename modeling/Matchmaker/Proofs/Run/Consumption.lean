import Matchmaker.Proofs.Run.Match
import Matchmaker.Proofs.Run.Presence

/-!
# A place in a queue is good for one match

A match takes its players out of all queues, and a match needs its players to be queued.  So between
two matches of the same player there was a moment when the player got into a queue again, and the
only way into a queue is to join it (`rejoins_of_queued`).  That holds for the matches of any two
passes, also if both have listed the same lobby; it can indeed start twice, but for players who have
all joined again.
-/

namespace Matchmaker

namespace World
variable {owner : Nat → Profile} {w : World} {a : Action} {l : Lobby} {p : SteamId}

/-! ## in and out of the queues -/

/-- somewhere in a run the player joins, and gets into a queue by that -/
def Rejoins (owner : Nat → Profile) (w : World) (as : List Action) (p : SteamId) : Prop :=
  ∃ before servers after s, as = before ++ .enqueue p servers :: after ∧
    ¬ (w.run owner before).coordinator.lobbies.Queued p s ∧
    (w.run owner (before ++ [.enqueue p servers])).coordinator.lobbies.Queued p s

/-- Who is in no queue and later in one has joined in between. -/
theorem rejoins_of_queued {as : List Action} {s : ServerId}
    (h : ∀ t, ¬ w.coordinator.lobbies.Queued p t)
    (hs : (w.run owner as).coordinator.lobbies.Queued p s) : Rejoins owner w as p := by
  induction as generalizing w with
  | nil => exact absurd hs (h s)
  | cons a as ih =>
    by_cases hnext : ∃ t, (w.next owner a).coordinator.lobbies.Queued p t
    · -- this is the action that queues the player
      obtain ⟨t, ht⟩ := hnext
      rcases (change_outcome owner w a).queued ht with hw | ⟨servers, rfl, -⟩
      · exact absurd hw (h t)
      · exact ⟨[], servers, as, t, rfl, h t, ht⟩
    · have hnone : ∀ t, ¬ (w.next owner a).coordinator.lobbies.Queued p t :=
        fun t ht => hnext ⟨t, ht⟩
      obtain ⟨before, servers, after, t, rfl, hbefore, hafter⟩ := ih hnone hs
      exact ⟨a :: before, servers, after, t, rfl, hbefore, hafter⟩

theorem not_queued_of_starting (h : w.starting? a = some l) (hp : p ∈ l.members) (s : ServerId) :
    ¬ (w.next owner a).coordinator.lobbies.Queued p s := by
  obtain ⟨i, lookup, rest, address, -, -, -, -, hout⟩ := starting?_eq_some h
  intro hq
  change (w.outcome owner a).state.lobbies.Queued p s at hq
  rw [hout] at hq
  exact (Registry.queued_leaveEach.1 hq).2 hp

theorem queued_of_starting (h : w.starting? a = some l) (hp : p ∈ l.members) :
    w.coordinator.lobbies.Queued p l.serverId := by
  obtain ⟨i, lookup, rest, address, -, -, -, hunchanged, -⟩ := starting?_eq_some h
  obtain ⟨m, hm, -, hmembers, -⟩ := Coordinator.isUnchanged_iff.1 hunchanged
  refine ⟨m, hm, ?_⟩
  rw [hmembers]
  exact hp

theorem exists_member_of_starting (hneed : 0 < w.coordinator.settings.minQueueSize)
    (h : w.starting? a = some l) : ∃ p, p ∈ l.members := by
  obtain ⟨i, lookup, rest, address, -, -, -, hunchanged, -⟩ := starting?_eq_some h
  obtain ⟨m, -, heligible, hmembers, -⟩ := Coordinator.isUnchanged_iff.1 hunchanged
  have hsize : 0 < m.members.toList.length :=
    Nat.lt_of_lt_of_le hneed (Coordinator.enough_of_isEligible heligible).1
  obtain ⟨p, hp⟩ := List.exists_mem_of_length_pos hsize
  rw [hmembers] at hp
  exact ⟨p, hp⟩

/-! ## two matches of one run -/

/-- **A queue entry is consumed by at most one match.**  Whoever is in two matches has joined again
between them, so a lobby starts twice with the same members only if all of them have, and no pass
starts two matches. -/
theorem consumed_once (config : Config) (owner : Nat → Profile) (before : List Action) (a : Action)
    (between : List Action) (b : Action) {l m : Lobby}
    (ha : ((start config).run owner before).starting? a = some l)
    (hb : ((start config).run owner (before ++ a :: between)).starting? b = some m) :
    (∀ p, p ∈ l.members → p ∈ m.members →
      Rejoins owner ((start config).run owner (before ++ [a])) between p) ∧
    (m.members = l.members → (∃ p, p ∈ l.members) ∧ ∀ p ∈ l.members,
      Rejoins owner ((start config).run owner (before ++ [a])) between p) ∧
    ∀ i lookup, a = .proceed i lookup → ∀ other, b ≠ .proceed i other := by
  have hsplit : (start config).run owner (before ++ a :: between) =
      ((start config).run owner (before ++ [a])).run owner between := by
    rw [← run_append, List.append_assoc]
    rfl
  have hfirst : (start config).run owner (before ++ [a]) =
      ((start config).run owner before).next owner a := by
    rw [run_append, run_singleton]
  have hrejoins : ∀ p, p ∈ l.members → p ∈ m.members →
      Rejoins owner ((start config).run owner (before ++ [a])) between p := by
    intro p hl hm
    have hout : ∀ s,
        ¬ ((start config).run owner (before ++ [a])).coordinator.lobbies.Queued p s := by
      intro s
      rw [hfirst]
      exact not_queued_of_starting ha hl s
    have hin := queued_of_starting hb hm
    rw [hsplit] at hin
    exact rejoins_of_queued hout hin
  refine ⟨hrejoins, ?_, ?_⟩
  · intro hsame
    refine ⟨exists_member_of_starting ?_ ha, fun p hp => hrejoins p hp (hsame ▸ hp)⟩
    rw [settings_run]
    exact Nat.lt_of_lt_of_le Nat.one_pos (Nat.le_max_right _ _)
  · rintro i lookup rfl other rfl
    -- the pass is over after its first match, and stays so
    have hended : ((start config).run owner (before ++ [.proceed i lookup])).passes[i]? =
        some (.ended (some l.serverId)) := by
      rw [hfirst]
      exact ended_of_starting ha
    rw [hsplit, starting?_of_ended (ended_run between hended)] at hb
    cases hb

theorem consumed_once_sample :
    Rejoins Sample.owner ((start {}).run Sample.owner (Sample.listed ++ [.proceed 0 Sample.lookup]))
      Sample.queue (.ofNat 0) := by
  have ha : ((start {}).run Sample.owner Sample.listed).starting? (.proceed 0 Sample.lookup) =
      some Sample.lobby := by decide +kernel
  have hb : ((start {}).run Sample.owner
      (Sample.listed ++ .proceed 0 Sample.lookup :: Sample.queue)).starting?
        (.proceed 1 Sample.lookup) = some Sample.lobby := by decide +kernel
  refine (consumed_once {} Sample.owner _ _ _ _ ha hb).1 _ ?_ ?_ <;>
    exact Lobby.contains_iff.1 (by decide +kernel)

/-- Two passes that have listed the same lobby may both start it, if its players join again. -/
theorem same_listing_starts_twice :
    ¬ ∀ (config : Config) (owner : Nat → Profile) (before between : List Action) (i j : Nat)
      (lookup : Lookup) (l : Lobby) (rest : List Lobby), i ≠ j →
      ((start config).run owner before).passes[i]? = some (.lookup l rest) →
      ((start config).run owner before).passes[j]? = some (.lookup l rest) →
      ((start config).run owner before).starting? (.proceed i lookup) = some l →
      ((start config).run owner (before ++ .proceed i lookup :: between)).starting?
        (.proceed j lookup) ≠ some l := by
  intro h
  refine h {} Sample.owner Sample.listed Sample.queue 0 1 Sample.lookup Sample.lobby []
    ?_ ?_ ?_ ?_ ?_
  · decide
  · decide +kernel
  · decide +kernel
  · decide +kernel
  · decide +kernel

end World

end Matchmaker
