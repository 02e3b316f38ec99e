import Matchmaker.Proofs.Registry.Reconcile

/-!
# Feeds that name a server twice

Nothing keeps a feed from naming a server more than once.  The last record of a server is the one
that counts (`get?_reconcile`), but the old lobby goes to the first one, so it is lost if there is
another: the queue is empty then, and the server is reported as new (`count_added`).

A look at the feed is meant to keep every queue whose server is still there, and to report exactly
the servers that came and went (`Continues`).  It does so if and only if no server that was known is
named twice.
-/

namespace Matchmaker.Registry

/-- the records of a server in a feed -/
def recordsOf (feed : List LobbyInfo) (s : ServerId) : List LobbyInfo :=
  feed.filter fun info => info.serverId = s

theorem recordsOf_nil (s : ServerId) : recordsOf [] s = [] := rfl

theorem recordsOf_concat_self (feed : List LobbyInfo) (info : LobbyInfo) :
    recordsOf (feed ++ [info]) info.serverId = recordsOf feed info.serverId ++ [info] := by
  simp [recordsOf]

theorem recordsOf_concat_of_ne (feed : List LobbyInfo) {info : LobbyInfo} {s : ServerId}
    (h : s ≠ info.serverId) : recordsOf (feed ++ [info]) s = recordsOf feed s := by
  simp [recordsOf, h.symm]

theorem recordsOf_ne_nil_iff {feed : List LobbyInfo} {s : ServerId} :
    recordsOf feed s ≠ [] ↔ s ∈ feed.map LobbyInfo.serverId := by
  simp [recordsOf, List.filter_eq_nil_iff]

theorem length_recordsOf (feed : List LobbyInfo) (s : ServerId) :
    (recordsOf feed s).length = (feed.map LobbyInfo.serverId).count s := by
  rw [recordsOf, List.count, List.countP_map, List.countP_eq_length_filter]
  rfl

theorem knows_iff_isSome {r : Registry} {s : ServerId} : r.Knows s ↔ (r.get? s).isSome = true :=
  Option.isSome_iff_exists.symm

/-- The first record of a server gets its old lobby. -/
theorem bequest_eq (r : Registry) (feed : List LobbyInfo) (s : ServerId) :
    r.bequest feed s = if recordsOf feed s = [] then r.get? s else none := by
  unfold bequest
  by_cases h : recordsOf feed s = []
  · rw [if_pos h, if_neg fun hmem => recordsOf_ne_nil_iff.2 hmem h]
  · rw [if_neg h, if_pos (recordsOf_ne_nil_iff.1 h)]

/-! ## the whole feed at once -/

/-- **The last record of a server counts**, and it has the old queue if it is the only one. -/
theorem get?_reconcile (r : Registry) (feed : List LobbyInfo) (s : ServerId) :
    (r.reconcile feed).1.get? s = (recordsOf feed s).getLast?.map fun info =>
      heir (if (recordsOf feed s).length = 1 then r.get? s else none) info := by
  induction feed using List.reverseRecOn with
  | nil => rfl
  | append_singleton feed info ih =>
    rw [get?_reconcile_concat]
    by_cases e : s = info.serverId
    · subst e
      have hlength : (recordsOf feed info.serverId).length + 1 = 1 ↔
          recordsOf feed info.serverId = [] := by
        rw [Nat.add_eq_right, List.length_eq_zero_iff]
      rw [if_pos rfl, bequest_eq, recordsOf_concat_self, List.getLast?_concat,
        List.length_append, List.length_singleton]
      simp only [hlength]
      rfl
    · rw [if_neg e, recordsOf_concat_of_ne feed e, ih]

/-- How often a server is reported as new: once for each of its records, except for the one that
gets its old lobby. -/
theorem count_added (r : Registry) (feed : List LobbyInfo) (s : ServerId) :
    (r.reconcile feed).2.added.count s =
      (recordsOf feed s).length - if (r.get? s).isSome then 1 else 0 := by
  induction feed using List.reverseRecOn with
  | nil => simp [recordsOf_nil, reconcile]
  | append_singleton feed info ih =>
    rw [added_concat, List.count_append, ih, bequest_eq]
    by_cases e : s = info.serverId
    · subst e
      rw [recordsOf_concat_self, List.length_append, List.length_singleton]
      by_cases hnil : recordsOf feed info.serverId = []
      · -- the first record of the server
        rw [if_pos hnil, hnil]
        cases r.get? info.serverId <;> simp
      · have hpos : 0 < (recordsOf feed info.serverId).length := List.length_pos_iff.2 hnil
        rw [if_neg hnil]
        cases r.get? info.serverId with
        | none => simp
        | some l =>
          simp only [Option.isSome_none, Option.isSome_some, Bool.false_eq_true, if_false, if_true,
            List.count_singleton_self]
          omega
    · have hother : ∀ old : Option Lobby,
          List.count s (if old.isSome = true then [] else [info.serverId]) = 0 := by
        intro old
        refine List.count_eq_zero_of_not_mem fun h => ?_
        cases old with
        | none => exact e (List.mem_singleton.1 h)
        | some l => cases h
      rw [hother, recordsOf_concat_of_ne feed e, Nat.add_zero]

/-! ## consequences -/

theorem info_heir (old : Option Lobby) (info : LobbyInfo) : (heir old info).info = info := by
  cases old <;> rfl

theorem record?_reconcile (r : Registry) (feed : List LobbyInfo) (s : ServerId) :
    (r.reconcile feed).1.record? s = (recordsOf feed s).getLast? := by
  unfold record?
  rw [get?_reconcile, Option.map_map]
  cases (recordsOf feed s).getLast? with
  | none => rfl
  | some info => exact congrArg some (info_heir _ info)

theorem knows_reconcile {r : Registry} {feed : List LobbyInfo} {s : ServerId} :
    (r.reconcile feed).1.Knows s ↔ s ∈ feed.map LobbyInfo.serverId := by
  rw [knows_iff_isSome, get?_reconcile, Option.isSome_map, ← recordsOf_ne_nil_iff,
    ← List.getLast?_isSome]

theorem mem_added {r : Registry} {feed : List LobbyInfo} {s : ServerId} :
    s ∈ (r.reconcile feed).2.added ↔
      s ∈ feed.map LobbyInfo.serverId ∧ (r.Knows s → 1 < (recordsOf feed s).length) := by
  rw [← List.count_pos_iff, count_added, ← recordsOf_ne_nil_iff, ← List.length_pos_iff,
    knows_iff_isSome]
  by_cases h : (r.get? s).isSome = true
  · simp only [h, if_true, true_implies]
    omega
  · simp [h]

theorem members_reconcile {r : Registry} {feed : List LobbyInfo} {l : Lobby} (hl : l ∈ r.lobbies)
    (h : (recordsOf feed l.serverId).length = 1) :
    ∃ m, (r.reconcile feed).1.get? l.serverId = some m ∧ m.members = l.members := by
  obtain ⟨info, hinfo⟩ := List.length_eq_one_iff.1 h
  refine ⟨l.refresh info, ?_, rfl⟩
  rw [get?_reconcile, hinfo, get?_of_mem hl]
  rfl

theorem changed_iff {r : Registry} {feed : List LobbyInfo} :
    (r.reconcile feed).2.changed = true ↔
      (∃ s, s ∈ (r.reconcile feed).2.added) ∨ ∃ s, s ∈ (r.reconcile feed).2.removed := by
  unfold Reconciled.changed
  rw [Bool.or_eq_true, Bool.not_eq_true', Bool.not_eq_true', List.isEmpty_eq_false_iff_exists_mem,
    List.isEmpty_eq_false_iff_exists_mem]

/-- If no server that was known is named twice, the servers reported as new are those that were not
known. -/
theorem mem_added_of_once {r : Registry} {feed : List LobbyInfo}
    (h : ∀ s, r.Knows s → (recordsOf feed s).length ≤ 1) {s : ServerId} :
    s ∈ (r.reconcile feed).2.added ↔ s ∈ feed.map LobbyInfo.serverId ∧ ¬ r.Knows s := by
  rw [mem_added]
  refine and_congr_right fun _ => ⟨fun hlt hknown => ?_, fun hnot hknown => absurd hknown hnot⟩
  exact Nat.not_lt.2 (h s hknown) (hlt hknown)

/-! ## what a look at the feed is meant to do -/

structure Continues (r : Registry) (feed : List LobbyInfo) : Prop where
  /-- a lobby whose server is still there keeps its members -/
  members : ∀ l ∈ r.lobbies, l.serverId ∈ feed.map LobbyInfo.serverId →
    ∃ m, (r.reconcile feed).1.get? l.serverId = some m ∧ m.members = l.members
  /-- no server that was known is new -/
  added : ∀ s ∈ (r.reconcile feed).2.added, ¬ r.Knows s
  /-- a change is reported if and only if other servers are known than before -/
  changed : (r.reconcile feed).2.changed = true ↔
    ∃ s, ¬ ((r.reconcile feed).1.Knows s ↔ r.Knows s)

/-- **Queues and reports are right if and only if no known server is named twice.** -/
theorem continues_iff (r : Registry) (feed : List LobbyInfo) :
    Continues r feed ↔ ∀ s, r.Knows s → (recordsOf feed s).length ≤ 1 := by
  constructor
  · intro h s hs
    by_contra hlength
    have hmem : s ∈ feed.map LobbyInfo.serverId := by
      refine recordsOf_ne_nil_iff.1 fun hnil => ?_
      rw [hnil] at hlength
      exact hlength (Nat.zero_le 1)
    exact h.added s (mem_added.2 ⟨hmem, fun _ => Nat.lt_of_not_le hlength⟩) hs
  · intro h
    refine ⟨?_, fun s hs => ((mem_added_of_once h).1 hs).2, ?_⟩
    · intro l hl hmem
      have hpos := List.length_pos_iff.2 (recordsOf_ne_nil_iff.2 hmem)
      have hle := h l.serverId ⟨l, get?_of_mem hl⟩
      exact members_reconcile hl (by omega)
    · rw [changed_iff, ← exists_or]
      refine exists_congr fun s => ?_
      rw [mem_added_of_once h, mem_removed, knows_reconcile]
      tauto

namespace Sample

def record : LobbyInfo where
  serverId := ⟨1⟩
  title := ""
  shortName := ""
  hostname := "localhost"
  port := 27015
  cc := ""
  playerCount := 0
  maxPlayers := 24

def lobby : Lobby := (Lobby.ofInfo record).join (.ofNat 1)

def registry : Registry := ⟨Ascending.empty.insert lobby⟩

end Sample

/-- A record that is there twice empties the queue of its server. -/
theorem repeated_record_drops_queue :
    ¬ ∀ (r : Registry) (feed : List LobbyInfo), Continues r feed := by
  intro h
  have hl : Sample.lobby ∈ Sample.registry.lobbies := by
    rw [Ascending.mem_def]
    decide
  obtain ⟨m, hm, hmembers⟩ :=
    (h Sample.registry [Sample.record, Sample.record]).members _ hl (by decide)
  have hdropped : (Sample.registry.reconcile [Sample.record, Sample.record]).1.get?
      Sample.lobby.serverId = some (.ofInfo Sample.record) := by decide
  rw [hdropped] at hm
  cases hm
  exact absurd hmembers (by decide)

end Matchmaker.Registry
