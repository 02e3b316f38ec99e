import Mathlib.Data.List.Induction
import Matchmaker.Proofs.Registry.Queues

/-!
# What a look at the feed does

The feed is taken over one record after the other, and every fact here is an induction on the feed
from its end: `get?_reconcile_concat`, `added_concat` and `mem_removed` say what one more record
adds to what the records before it have done.

Two consequences are needed of every run.  Nobody is queued by a look at the feed
(`queued_of_queued_reconcile`), and if no server came or went then nothing that is shown of the
queues has changed (`states_reconcile`), so that nobody has to be told.
-/

namespace Matchmaker.Registry

/-- the lobby that a record leads to, given the old lobby if it is still there -/
def heir (old : Option Lobby) (info : LobbyInfo) : Lobby :=
  match old with
  | some l => l.refresh info
  | none => .ofInfo info

theorem serverId_heir (old : Option Lobby) (info : LobbyInfo) :
    (heir old info).serverId = info.serverId := by
  cases old <;> rfl

theorem mem_concat {feed : List LobbyInfo} {info : LobbyInfo} {s : ServerId} :
    s ∈ (feed ++ [info]).map LobbyInfo.serverId ↔
      s ∈ feed.map LobbyInfo.serverId ∨ s = info.serverId := by
  rw [List.map_append, List.mem_append]
  exact or_congr_right List.mem_singleton

/-- a look at the feed halfway: the old lobbies left, the new ones, and the servers that came -/
abbrev Halfway :=
  Ascending Lobby Lobby.key × Ascending Lobby Lobby.key × List ServerId

def takeOver (x : Halfway) (info : LobbyInfo) : Halfway :=
  match x.1.get? info.serverId.toNat with
  | some l => (x.1.erase info.serverId.toNat, x.2.1.insert (l.refresh info), x.2.2)
  | none => (x.1, x.2.1.insert (.ofInfo info), x.2.2 ++ [info.serverId])

def halfway (r : Registry) (feed : List LobbyInfo) : Halfway :=
  feed.foldl takeOver (r.lobbies, .empty, [])

/-! ## one record -/

theorem get?_takeOver_old (x : Halfway) (info : LobbyInfo) (k : Nat) :
    (takeOver x info).1.get? k = if k = info.serverId.toNat then none else x.1.get? k := by
  unfold takeOver
  cases h : x.1.get? info.serverId.toNat with
  | some l => exact x.1.get?_erase _ k
  | none =>
    show x.1.get? k = if k = info.serverId.toNat then none else x.1.get? k
    by_cases e : k = info.serverId.toNat
    · rw [if_pos e, e, h]
    · rw [if_neg e]

theorem takeOver_new (x : Halfway) (info : LobbyInfo) :
    (takeOver x info).2.1 = x.2.1.insert (heir (x.1.get? info.serverId.toNat) info) := by
  unfold takeOver
  cases x.1.get? info.serverId.toNat <;> rfl

theorem takeOver_added (x : Halfway) (info : LobbyInfo) :
    (takeOver x info).2.2 =
      x.2.2 ++ if (x.1.get? info.serverId.toNat).isSome then [] else [info.serverId] := by
  unfold takeOver
  cases x.1.get? info.serverId.toNat <;> simp

theorem halfway_concat (r : Registry) (feed : List LobbyInfo) (info : LobbyInfo) :
    r.halfway (feed ++ [info]) = takeOver (r.halfway feed) info := List.foldl_append

/-- The old lobbies left are those whose servers have not come up yet. -/
theorem get?_halfway_old (r : Registry) (feed : List LobbyInfo) (s : ServerId) :
    (r.halfway feed).1.get? s.toNat =
      if s ∈ feed.map LobbyInfo.serverId then none else r.get? s := by
  induction feed using List.reverseRecOn with
  | nil => rfl
  | append_singleton feed info ih =>
    rw [halfway_concat, get?_takeOver_old, ih]
    by_cases e : s = info.serverId
    · rw [if_pos (congrArg ServerId.toNat e), if_pos (mem_concat.2 (.inr e))]
    · rw [if_neg (mt ServerId.ext_toNat e)]
      simp only [mem_concat, e, or_false]

/-! ## the whole feed -/

theorem reconcile_eq (r : Registry) (feed : List LobbyInfo) :
    r.reconcile feed =
      (⟨(r.halfway feed).2.1⟩,
        ⟨(r.halfway feed).2.2, (r.halfway feed).1.toList.map Lobby.serverId⟩) := rfl

/-- the old lobby that is handed to a record, given the records before it -/
def bequest (r : Registry) (feed : List LobbyInfo) (s : ServerId) : Option Lobby :=
  if s ∈ feed.map LobbyInfo.serverId then none else r.get? s

/-- A record replaces what the records before it have put in its place. -/
theorem get?_reconcile_concat (r : Registry) (feed : List LobbyInfo) (info : LobbyInfo)
    (s : ServerId) :
    (r.reconcile (feed ++ [info])).1.get? s =
      if s = info.serverId then some (heir (r.bequest feed info.serverId) info)
      else (r.reconcile feed).1.get? s := by
  show (r.halfway (feed ++ [info])).2.1.get? s.toNat = _
  rw [halfway_concat, takeOver_new, get?_halfway_old, Ascending.get?_insert]
  change (if (heir (r.bequest feed info.serverId) info).serverId.toNat = s.toNat then _ else _) = _
  rw [serverId_heir]
  by_cases e : s = info.serverId
  · rw [if_pos e, if_pos (congrArg ServerId.toNat e.symm)]
    rfl
  · rw [if_neg e, if_neg fun h => e (ServerId.ext_toNat h.symm)]
    rfl

theorem added_concat (r : Registry) (feed : List LobbyInfo) (info : LobbyInfo) :
    (r.reconcile (feed ++ [info])).2.added =
      (r.reconcile feed).2.added ++
        if (r.bequest feed info.serverId).isSome then [] else [info.serverId] := by
  show (r.halfway (feed ++ [info])).2.2 = _
  rw [halfway_concat, takeOver_added, get?_halfway_old]
  rfl

theorem mem_removed {r : Registry} {feed : List LobbyInfo} {s : ServerId} :
    s ∈ (r.reconcile feed).2.removed ↔ r.Knows s ∧ s ∉ feed.map LobbyInfo.serverId := by
  show s ∈ (r.halfway feed).1.toList.map Lobby.serverId ↔ _
  have hold := r.get?_halfway_old feed s
  constructor
  · intro h
    obtain ⟨l, hl, rfl⟩ := List.mem_map.1 h
    rw [(Ascending.get?_eq_some_iff (k := l.serverId.toNat)).2 ⟨hl, rfl⟩] at hold
    by_cases m : l.serverId ∈ feed.map LobbyInfo.serverId
    · rw [if_pos m] at hold
      cases hold
    · rw [if_neg m] at hold
      exact ⟨⟨l, hold.symm⟩, m⟩
  · rintro ⟨⟨l, hl⟩, m⟩
    rw [if_neg m, hl] at hold
    exact List.mem_map.2 ⟨l, (Ascending.get?_eq_some_iff.1 hold).1, serverId_of_get? hl⟩

/-! ## consequences -/

theorem queued_of_queued_reconcile {r : Registry} {feed : List LobbyInfo} {p : SteamId}
    {s : ServerId} (h : (r.reconcile feed).1.Queued p s) : r.Queued p s := by
  induction feed using List.reverseRecOn with
  | nil =>
    obtain ⟨l, hl, -⟩ := h
    cases hl
  | append_singleton feed info ih =>
    obtain ⟨l, hl, hp⟩ := h
    rw [get?_reconcile_concat] at hl
    by_cases e : s = info.serverId
    · rw [if_pos e] at hl
      cases hl
      cases hb : r.bequest feed info.serverId with
      | none =>
        rw [hb] at hp
        exact absurd hp (Ascending.not_mem_empty p)
      | some old =>
        rw [hb] at hp
        unfold bequest at hb
        split at hb
        · cases hb
        · exact ⟨old, e ▸ hb, hp⟩
    · rw [if_neg e] at hl
      exact ih ⟨l, hl, hp⟩

/-- As long as no server has come, every record has found its old lobby. -/
theorem state_reconcile_of_added {r : Registry} {feed : List LobbyInfo}
    (h : (r.reconcile feed).2.added = []) (s : ServerId) :
    ((r.reconcile feed).1.get? s).map Lobby.state =
      if s ∈ feed.map LobbyInfo.serverId then (r.get? s).map Lobby.state else none := by
  induction feed using List.reverseRecOn with
  | nil => rfl
  | append_singleton feed info ih =>
    rw [added_concat] at h
    obtain ⟨hadded, hlast⟩ := List.append_eq_nil_iff.1 h
    have hsome : (r.bequest feed info.serverId).isSome := by
      by_contra hb
      rw [if_neg hb] at hlast
      cases hlast
    obtain ⟨old, hb⟩ := Option.isSome_iff_exists.1 hsome
    have hold : r.get? info.serverId = some old := by
      unfold bequest at hb
      split at hb
      · cases hb
      · exact hb
    rw [get?_reconcile_concat, hb]
    by_cases e : s = info.serverId
    · subst e
      rw [if_pos rfl, if_pos (mem_concat.2 (.inr rfl)), hold]
      show some (⟨info.serverId, old.members.toList⟩ : Protocol.LobbyState) = some old.state
      rw [← serverId_of_get? hold]
      rfl
    · rw [if_neg e, ih hadded]
      simp only [mem_concat, e, or_false]

/-- **If no server came or went, what is shown of the queues is the same.** -/
theorem states_reconcile {r : Registry} {feed : List LobbyInfo}
    (h : (r.reconcile feed).2.changed = false) : (r.reconcile feed).1.states = r.states := by
  have hchanged : (r.reconcile feed).2.added = [] ∧ (r.reconcile feed).2.removed = [] := by
    simpa [Reconciled.changed] using h
  refine states_congr fun s => ?_
  rw [state_reconcile_of_added hchanged.1]
  by_cases m : s ∈ feed.map LobbyInfo.serverId
  · rw [if_pos m]
  · rw [if_neg m]
    cases hs : r.get? s with
    | none => rfl
    | some l =>
      have : s ∈ (r.reconcile feed).2.removed := mem_removed.2 ⟨⟨l, hs⟩, m⟩
      rw [hchanged.2] at this
      cases this

end Matchmaker.Registry
