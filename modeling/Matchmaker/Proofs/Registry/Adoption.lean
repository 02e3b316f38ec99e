import Mathlib.Data.List.Nodup
import Matchmaker.Proofs.Registry.Repetition

/-!
# What a look at the feed leaves

After a look at the feed the registry knows what the feed says and nothing else (`Adopts`).  The
known servers are those that are named, each with the last record that names it; the servers that
went are reported in order; and a server that was not known has an empty queue, since queues come
from old lobbies only.

If every server is named once, then each record finds the lobby that it has left the last time, so
looking at the same feed again changes nothing and reports nothing (`reconcile_reconcile`).
-/

namespace Matchmaker.Registry

/-- A registry is determined by what is found in it. -/
theorem ext_get? {r t : Registry} (h : ∀ s, r.get? s = t.get? s) : r = t := by
  have hlobbies : r.lobbies = t.lobbies := by
    refine Ascending.ext_mem fun l => ?_
    have hl : r.lobbies.get? l.key = t.lobbies.get? l.key := h l.serverId
    rw [Ascending.mem_iff_get?, Ascending.mem_iff_get?, hl]
  cases r
  cases t
  cases hlobbies
  rfl

/-! ## the last record of a server -/

theorem recordsOf_append (feed rest : List LobbyInfo) (s : ServerId) :
    recordsOf (feed ++ rest) s = recordsOf feed s ++ recordsOf rest s := List.filter_append ..

theorem recordsOf_eq_nil_iff {feed : List LobbyInfo} {s : ServerId} :
    recordsOf feed s = [] ↔ s ∉ feed.map LobbyInfo.serverId := by
  rw [← recordsOf_ne_nil_iff, not_not]

/-- No record after this one names its server. -/
theorem getLast?_recordsOf (before : List LobbyInfo) {info : LobbyInfo} {after : List LobbyInfo}
    (h : info.serverId ∉ after.map LobbyInfo.serverId) :
    (recordsOf (before ++ info :: after) info.serverId).getLast? = some info := by
  rw [List.append_cons, recordsOf_append, recordsOf_concat_self, recordsOf_eq_nil_iff.2 h,
    List.append_nil, List.getLast?_concat]

theorem mem_of_getLast?_recordsOf {feed : List LobbyInfo} {s : ServerId} {info : LobbyInfo}
    (h : (recordsOf feed s).getLast? = some info) : s ∈ feed.map LobbyInfo.serverId := by
  refine recordsOf_ne_nil_iff.1 fun hnil => ?_
  rw [hnil] at h
  cases h

/-! ## the registry afterwards -/

/-- The servers that went are reported in ascending order. -/
theorem removed_ascending (r : Registry) (feed : List LobbyInfo) :
    (r.reconcile feed).2.removed.Pairwise fun s t => s.toNat < t.toNat :=
  List.pairwise_map.2 (r.halfway feed).1.sorted

theorem members_of_new {r : Registry} {feed : List LobbyInfo} {s : ServerId} {l : Lobby}
    (hs : ¬ r.Knows s) (hl : (r.reconcile feed).1.get? s = some l) : l.members = .empty := by
  have hnone : r.get? s = none := by
    cases hold : r.get? s with
    | none => rfl
    | some old => exact absurd ⟨old, hold⟩ hs
  rw [get?_reconcile, hnone, ite_self] at hl
  obtain ⟨info, -, rfl⟩ := Option.map_eq_some_iff.1 hl
  rfl

/-- A registry after a look at the feed, and the servers that went. -/
structure Adopts (r : Registry) (feed : List LobbyInfo) (t : Registry)
    (removed : List ServerId) : Prop where
  known : ∀ s, t.Knows s ↔ s ∈ feed.map LobbyInfo.serverId
  /-- a record that no later one of the same server follows is taken over -/
  record : ∀ before info after, feed = before ++ info :: after →
    info.serverId ∉ after.map LobbyInfo.serverId → t.record? info.serverId = some info
  fresh : ∀ s l, ¬ r.Knows s → t.get? s = some l → ∀ p, ¬ p ∈ l.members
  ascending : removed.Pairwise fun s t => s.toNat < t.toNat
  removed : ∀ s, s ∈ removed ↔ r.Knows s ∧ s ∉ feed.map LobbyInfo.serverId

theorem adopts_reconcile (r : Registry) (feed : List LobbyInfo) :
    Adopts r feed (r.reconcile feed).1 (r.reconcile feed).2.removed where
  known _ := knows_reconcile
  record before info after hsplit hafter := by
    rw [hsplit, record?_reconcile]
    exact getLast?_recordsOf before hafter
  fresh s l hs hl p hp := by
    rw [members_of_new hs hl] at hp
    exact Ascending.not_mem_empty p hp
  ascending := removed_ascending r feed
  removed _ := mem_removed

/-! ## the same feed once more -/

theorem recordsOf_length_le {feed : List LobbyInfo} (h : (feed.map LobbyInfo.serverId).Nodup)
    (s : ServerId) : (recordsOf feed s).length ≤ 1 := by
  rw [length_recordsOf]
  exact List.nodup_iff_count_le_one.1 h s

/-- The record that a lobby has is the one that it gets. -/
theorem heir_self (l : Lobby) : heir (some l) l.info = l := rfl

/-- Every record finds the lobby that it has left. -/
theorem get?_reconcile_reconcile {r : Registry} {feed : List LobbyInfo}
    (h : (feed.map LobbyInfo.serverId).Nodup) (s : ServerId) :
    ((r.reconcile feed).1.reconcile feed).1.get? s = (r.reconcile feed).1.get? s := by
  rw [get?_reconcile]
  cases hlast : (recordsOf feed s).getLast? with
  | none =>
    rw [get?_reconcile, hlast]
    rfl
  | some info =>
    have hone : (recordsOf feed s).length = 1 := by
      rw [length_recordsOf]
      exact List.count_eq_one_of_mem h (mem_of_getLast?_recordsOf hlast)
    obtain ⟨l, hl⟩ : (r.reconcile feed).1.Knows s :=
      knows_reconcile.2 (mem_of_getLast?_recordsOf hlast)
    have hinfo : l.info = info := by
      have hrecord : (r.reconcile feed).1.record? s = some l.info := congrArg _ hl
      rw [record?_reconcile, hlast] at hrecord
      exact (Option.some.inj hrecord).symm
    rw [if_pos hone, hl, Option.map_some, ← hinfo, heir_self]

theorem reconcile_reconcile {r : Registry} {feed : List LobbyInfo}
    (h : (feed.map LobbyInfo.serverId).Nodup) :
    (r.reconcile feed).1.reconcile feed = ((r.reconcile feed).1, ⟨[], []⟩) := by
  let t := (r.reconcile feed).1
  have hregistry : (t.reconcile feed).1 = t := ext_get? (get?_reconcile_reconcile h)
  have hadded : (t.reconcile feed).2.added = [] := by
    refine List.eq_nil_iff_forall_not_mem.2 fun s hs => ?_
    obtain ⟨hmem, hnot⟩ := (mem_added_of_once fun s _ => recordsOf_length_le h s).1 hs
    exact hnot (knows_reconcile.2 hmem)
  have hremoved : (t.reconcile feed).2.removed = [] := by
    refine List.eq_nil_iff_forall_not_mem.2 fun s hs => ?_
    obtain ⟨hknown, hnot⟩ := mem_removed.1 hs
    exact hnot (knows_reconcile.1 hknown)
  have hchange : (t.reconcile feed).2 = ⟨[], []⟩ := by
    show Reconciled.mk (t.reconcile feed).2.added (t.reconcile feed).2.removed = _
    rw [hadded, hremoved]
  exact Prod.ext hregistry hchange

/-- **A look at the feed adopts what it says.**  Afterwards exactly the servers that it names are
known, each with its last record; servers that were not known have empty queues; and those that were
known and are not named are reported as gone, in ascending order.  If no server is named twice, a
second look at the same feed changes nothing, whatever was known before, and reports no change. -/
theorem feed_adopted (r : Registry) (feed : List LobbyInfo) :
    Adopts r feed (r.reconcile feed).1 (r.reconcile feed).2.removed ∧
      ((feed.map LobbyInfo.serverId).Nodup →
        (r.reconcile feed).1.reconcile feed = ((r.reconcile feed).1, ⟨[], []⟩) ∧
          ((r.reconcile feed).1.reconcile feed).2.changed = false) := by
  refine ⟨adopts_reconcile r feed, fun h => ?_⟩
  have hagain := reconcile_reconcile (r := r) h
  refine ⟨hagain, ?_⟩
  rw [hagain]
  rfl

namespace Sample

/-- the record of another server -/
def another (n : Nat) (players : UInt32) : LobbyInfo :=
  { record with serverId := .ofNat n, playerCount := players }

end Sample

/-- One server goes, one comes and is named twice, and one stays and keeps its queue; without the
repetition a second look changes nothing. -/
theorem feed_adopted_sample :
    let feed := [Sample.another 3 1, Sample.another 2 4]
    let r := ((Sample.registry.reconcile [Sample.record, Sample.another 2 0]).1.join (.ofNat 5)
      [.ofNat 2]).1
    let t := (r.reconcile feed).1
    (r.reconcile (Sample.another 3 9 :: feed)).1.record? (.ofNat 3) = some (Sample.another 3 1) ∧
      Sample.record.serverId ∈ (r.reconcile (Sample.another 3 9 :: feed)).2.removed ∧
      t.Queued (.ofNat 5) (.ofNat 2) ∧ t.reconcile feed = (t, ⟨[], []⟩) := by
  intro feed r t
  have hadopts := (feed_adopted r (Sample.another 3 9 :: feed)).1
  refine ⟨?_, ?_, ?_, ((feed_adopted r feed).2 (by decide)).1⟩
  · exact hadopts.record [Sample.another 3 9] _ _ rfl (by decide)
  · exact (hadopts.removed _).2 ⟨⟨Sample.lobby, by decide⟩, by decide⟩
  · refine ⟨(Lobby.ofInfo (Sample.another 2 4)).join (.ofNat 5), by decide, ?_⟩
    exact Lobby.contains_iff.1 (by decide)

end Matchmaker.Registry
