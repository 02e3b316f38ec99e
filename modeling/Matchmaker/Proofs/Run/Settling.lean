import Mathlib.Logic.Function.Iterate
import Matchmaker.Proofs.Run.Capacity
import Matchmaker.Proofs.Run.Sweep

/-!
# Passes until nobody can play

Passes follow one another, and nothing comes in between.  A match takes its members out of all
queues, so it may make room in another lobby, and which lobbies are ready is no guide to how long
this goes on.  The entries of the queues are: a match removes one for each of its members at least
(`length_entries_leaveEach`), and a pass without a match changes nothing, so that the next one does
not start any either (`exists_settled`).  Nobody comes back into a queue (`queued_of_swept`), so
nobody is matched twice.
-/

namespace Matchmaker

open Coordinator (Outcome)

/-! ## the entries of all queues -/

namespace Registry
variable {r : Registry} {l : Lobby} {p : SteamId} {s : ServerId}

/-- who waits for which server, one entry for each queue that a player is in -/
def entries (r : Registry) : List (SteamId × ServerId) :=
  r.lobbies.toList.flatMap fun l => l.members.toList.map fun p => (p, l.serverId)

theorem mem_entries : (p, s) ∈ r.entries ↔ r.Queued p s := by
  unfold entries Queued
  simp only [List.mem_flatMap, List.mem_map, Prod.mk.injEq, get?_eq_some_iff]
  constructor
  · rintro ⟨l, hl, q, hq, rfl, rfl⟩
    exact ⟨l, ⟨hl, rfl⟩, hq⟩
  · rintro ⟨l, ⟨hl, rfl⟩, hp⟩
    exact ⟨l, hl, p, hp, rfl, rfl⟩

theorem nodup_entries (r : Registry) : r.entries.Nodup := by
  refine List.nodup_flatMap.2 ⟨fun l _ => ?_, ?_⟩
  · refine List.Nodup.map (fun p q h => (Prod.mk.inj h).1) ?_
    exact l.members.sorted.imp fun hlt heq => Nat.ne_of_lt hlt (congrArg _ heq)
  · refine r.lobbies.sorted.imp fun {l m} hlt e hl hm => ?_
    obtain ⟨p, -, rfl⟩ := List.mem_map.1 hl
    obtain ⟨q, -, hq⟩ := List.mem_map.1 hm
    exact Nat.ne_of_gt hlt (congrArg ServerId.toNat (Prod.mk.inj hq).2)

theorem entries_leaveAll (r : Registry) (p : SteamId) :
    (r.leaveAll p).1.entries = r.entries.filter fun e => !decide (e.1 = p) := by
  show (r.lobbies.toList.map _).flatMap _ = _
  rw [List.flatMap_map, entries, List.filter_flatMap]
  congr 1
  funext l
  have hmember : ∀ q : SteamId, (q.toNat != p.toNat) = !decide (q = p) := by
    intro q
    rw [bne, beq_eq_decide, decide_eq_decide.2 ⟨SteamId.ext_toNat, congrArg SteamId.toNat⟩]
  show (l.members.toList.filter fun q => q.toNat != p.toNat).map _ = _
  rw [List.filter_map]
  congr 2
  exact funext hmember

theorem entries_leaveEach (r : Registry) (players : List SteamId) :
    (r.leaveEach players).entries = r.entries.filter fun e => !decide (e.1 ∈ players) := by
  induction players generalizing r with
  | nil => simp [leaveEach_nil]
  | cons p players ih =>
    rw [leaveEach_cons, ih, entries_leaveAll, List.filter_filter]
    simp [Bool.and_comm]

/-- A lobby whose members leave all queues takes its own entries away, if not more. -/
theorem length_entries_leaveEach (h : r.get? s = some l) :
    (r.leaveEach l.members.toList).entries.length + l.members.size ≤ r.entries.length := by
  have hin : (l.members.toList.map fun p => (p, l.serverId)).Sublist r.entries := by
    have hmem : l ∈ r.lobbies.toList := (get?_eq_some_iff.1 h).1
    rw [entries, List.flatMap_def]
    exact List.sublist_flatten_of_mem (List.mem_map.2 ⟨l, hmem, rfl⟩)
  have hown : (l.members.toList.map fun p => (p, l.serverId)).Sublist
      (r.entries.filter fun e => decide (e.1 ∈ l.members.toList)) := by
    have hall : ∀ e ∈ l.members.toList.map fun p => (p, l.serverId),
        decide (e.1 ∈ l.members.toList) = true := by
      intro e he
      obtain ⟨p, hp, rfl⟩ := List.mem_map.1 he
      exact decide_eq_true hp
    rw [← List.filter_eq_self.2 hall]
    exact hin.filter _
  have hlen := hown.length_le
  have hsplit := List.length_eq_length_filter_add (l := r.entries)
    fun e => decide (e.1 ∈ l.members.toList)
  rw [List.length_map] at hlen
  rw [entries_leaveEach, hsplit, Ascending.size, Nat.add_comm]
  exact Nat.add_le_add_right hlen _

end Registry

namespace Coordinator
variable {owner : Nat → Profile} {c : Coordinator} {d : Directory} {need : Nat} {p : SteamId}
  {s : ServerId}

/-! ## one pass -/

/-- the lobby that a pass starts, and its address -/
def choice (d : Directory) (c : Coordinator) : Option (Lobby × Address) :=
  locate? d c.candidates

/-- the match that a pass starts -/
def chosen? (d : Directory) (c : Coordinator) : Option ServerId :=
  (c.choice d).map fun x => x.1.serverId

theorem not_ready_of_choice (hneed : c.settings.minQueueSize = max need 1)
    (h : c.choice d = none) (l : Lobby) : ¬ c.Ready d need l := by
  intro hready
  obtain ⟨hcandidate, address, haddress⟩ := (ready_iff hneed).1 hready
  exact locate?_eq_none_iff.1 h l hcandidate address haddress

theorem ready_of_choice (hneed : c.settings.minQueueSize = max need 1) {l : Lobby}
    {address : Address} (h : c.choice d = some (l, address)) : c.Ready d need l := by
  obtain ⟨hcandidate, haddress, -⟩ := locate?_eq_some c.candidates_ascending h
  exact (ready_iff hneed).2 ⟨hcandidate, address, haddress⟩

theorem settings_found (x : Option (Lobby × Address)) :
    (c.found x).state.settings = c.settings := by
  cases x <;> rfl

theorem owned_found (h : c.Owned owner) (x : Option (Lobby × Address)) :
    (c.found x).state.Owned owner := by
  cases x <;> exact h

/-- A pass puts nobody into a queue. -/
theorem queued_of_found {x : Option (Lobby × Address)}
    (h : (c.found x).state.lobbies.Queued p s) : c.lobbies.Queued p s := by
  cases x with
  | none => exact h
  | some x => exact (Registry.queued_leaveEach.1 h).1

/-- Each match takes away as many entries as it needs players. -/
theorem length_entries_found (hneed : c.settings.minQueueSize = max need 1) {l : Lobby}
    {address : Address} (h : c.choice d = some (l, address)) :
    (c.found (some (l, address))).state.lobbies.entries.length + max need 1 ≤
      c.lobbies.entries.length := by
  have hready := ready_of_choice hneed h
  have hlen := Registry.length_entries_leaveEach hready.known
  have henough := hready.enough
  show (c.lobbies.leaveEach l.members.toList).entries.length + max need 1 ≤ _
  omega

end Coordinator

namespace World
variable {owner : Nat → Profile} {d : Directory} {w : World} {need m n : Nat} {p : SteamId}
  {s : ServerId}

/-! ## one pass after another -/

/-- after `n` passes that nobody interrupts, with nothing in between -/
def swept (owner : Nat → Profile) (d : Directory) (w : World) (n : Nat) : World :=
  (fun v : World => v.run owner (v.sweep d))^[n] w

theorem swept_succ (n : Nat) :
    w.swept owner d (n + 1) = (w.run owner (w.sweep d)).swept owner d n :=
  Function.iterate_succ_apply _ n w

theorem swept_succ' (n : Nat) :
    w.swept owner d (n + 1) =
      (w.swept owner d n).run owner ((w.swept owner d n).sweep d) :=
  Function.iterate_succ_apply' _ n w

theorem coordinator_sweep (owner : Nat → Profile) (d : Directory) (w : World) :
    (w.run owner (w.sweep d)).coordinator =
      (w.coordinator.found (w.coordinator.choice d)).state :=
  (sweep_performs owner d w).1.state

/-- What every pass keeps holds after all of them. -/
theorem swept_induction {P : Coordinator → Prop} (step : ∀ c x, P c → P (c.found x).state)
    (h : P w.coordinator) (n : Nat) : P (w.swept owner d n).coordinator := by
  induction n with
  | zero => exact h
  | succ n ih =>
    rw [swept_succ', coordinator_sweep]
    exact step _ _ ih

theorem coordinator_swept_of_choice (h : w.coordinator.choice d = none) (n : Nat) :
    (w.swept owner d n).coordinator = w.coordinator := by
  induction n with
  | zero => rfl
  | succ n ih => rw [swept_succ', coordinator_sweep, ih, h]; rfl

/-- The matches come first, and there are no more of them than the entries can pay for. -/
theorem exists_settled (owner : Nat → Profile) (d : Directory) (w : World)
    (hneed : w.coordinator.settings.minQueueSize = max need 1) :
    ∃ N, N * max need 1 ≤ w.coordinator.lobbies.entries.length ∧
      ∀ n, ((w.swept owner d n).coordinator.chosen? d).isSome ↔ n < N := by
  induction hsize : w.coordinator.lobbies.entries.length using Nat.strongRecOn
    generalizing w with
  | _ size ih =>
    have hnext := coordinator_sweep owner d w
    cases hchoice : w.coordinator.choice d with
    | none =>
      refine ⟨0, by omega, fun n => ?_⟩
      rw [coordinator_swept_of_choice hchoice, Coordinator.chosen?, hchoice]
      simp
    | some x =>
      have hpaid := Coordinator.length_entries_found hneed hchoice
      rw [hchoice] at hnext
      rw [← hnext, hsize] at hpaid
      have hneed' : (w.run owner (w.sweep d)).coordinator.settings.minQueueSize = max need 1 := by
        rw [hnext, Coordinator.settings_found, hneed]
      obtain ⟨N, hN, hmatches⟩ := ih _ (by omega) _ hneed' rfl
      refine ⟨N + 1, by rw [Nat.add_mul]; omega, fun n => ?_⟩
      cases n with
      | zero =>
        show ((w.coordinator.chosen? d).isSome = true) ↔ _
        rw [Coordinator.chosen?, hchoice]
        simp
      | succ n =>
        rw [swept_succ, hmatches]
        omega

theorem queued_of_swept (hmn : m ≤ n)
    (h : (w.swept owner d n).coordinator.lobbies.Queued p s) :
    (w.swept owner d m).coordinator.lobbies.Queued p s := by
  induction hmn with
  | refl => exact h
  | step _ ih =>
    rw [swept_succ', coordinator_sweep] at h
    exact ih (Coordinator.queued_of_found h)

/-- The passes of a series start these matches, none of them after the first `count`. -/
structure Settles (owner : Nat → Profile) (d : Directory) (need : Nat) (w : World)
    (started : Nat → Option ServerId) (count : Nat) : Prop where
  /-- what each pass comes to -/
  ended : ∀ n, (w.swept owner d (n + 1)).passes[(w.swept owner d n).passes.length]? =
    some (.ended (started n))
  isSome : ∀ n, (started n).isSome ↔ n < count
  few : count ≤ w.coordinator.lobbies.entries.length / max 1 need
  /-- Without a match no lobby was ready, nothing is sent and nothing changes. -/
  stillness : ∀ n, started n = none →
    (∀ l, ¬ (w.swept owner d n).coordinator.Ready d need l) ∧
      Performs owner (w.swept owner d n) ((w.swept owner d n).sweep d)
        (.still (w.swept owner d n).coordinator)
  /-- A match is that of a lobby that was ready. -/
  matching : ∀ n s, started n = some s → ∃ l address o, l.serverId = s ∧
    (w.swept owner d n).coordinator.Ready d need l ∧
      Performs owner (w.swept owner d n) ((w.swept owner d n).sweep d) o ∧
        (w.swept owner d n).coordinator.Swept l address o
  /-- Who is matched is in no queue any more, so in the lobby of no later match. -/
  once : ∀ m n s p, m < n → started m = some s →
    (w.swept owner d m).coordinator.lobbies.Queued p s →
      ∀ t, ¬ (w.swept owner d n).coordinator.lobbies.Queued p t

theorem settles (howned : w.coordinator.Owned owner)
    (hneed : w.coordinator.settings.minQueueSize = max need 1) :
    ∃ count, Settles owner d need w
      (fun n => (w.swept owner d n).coordinator.chosen? d) count := by
  obtain ⟨count, hpaid, hmatches⟩ := exists_settled owner d w hneed
  have howned (n : Nat) : (w.swept owner d n).coordinator.Owned owner :=
    swept_induction (P := fun c => c.Owned owner)
      (fun c x h => Coordinator.owned_found h x) howned n
  have hneed (n : Nat) : (w.swept owner d n).coordinator.settings.minQueueSize = max need 1 :=
    swept_induction (P := fun c => c.settings.minQueueSize = max need 1)
      (fun c x h => (congrArg _ (Coordinator.settings_found x)).trans h) hneed n
  have hperforms (n : Nat) := (sweep_performs owner d (w.swept owner d n)).1
  have hmatch (n : Nat) (s : ServerId) (hs : (w.swept owner d n).coordinator.chosen? d = some s) :
      ∃ l address, l.serverId = s ∧ (w.swept owner d n).coordinator.Ready d need l ∧
        (w.swept owner d n).coordinator.choice d = some (l, address) := by
    obtain ⟨⟨l, address⟩, hchoice, rfl⟩ := Option.map_eq_some_iff.1 hs
    exact ⟨l, address, rfl, Coordinator.ready_of_choice (hneed n) hchoice, hchoice⟩
  refine ⟨count, ⟨fun n => ?_, hmatches, ?_, fun n hnone => ?_, fun n s hs => ?_, ?_⟩⟩
  · rw [swept_succ']
    exact (sweep_performs owner d (w.swept owner d n)).2
  · rw [Nat.le_div_iff_mul_le (by omega), Nat.max_comm]
    exact hpaid
  · have hchoice := Option.map_eq_none_iff.1 hnone
    have hperforms := hperforms n
    rw [show Coordinator.locate? d _ = none from hchoice] at hperforms
    exact ⟨Coordinator.not_ready_of_choice (hneed n) hchoice, hperforms⟩
  · obtain ⟨l, address, hl, hready, hchoice⟩ := hmatch n s hs
    have hperforms := hperforms n
    rw [show Coordinator.locate? d _ = some (l, address) from hchoice] at hperforms
    exact ⟨l, address, _, hl, hready, hperforms,
      Coordinator.swept_matched (howned n) hready.registered address⟩
  · -- who is matched is in no queue after that pass, and nobody comes back into one
    intro m n s p hmn hs hqueued t hlater
    obtain ⟨l, address, rfl, hready, hchoice⟩ := hmatch m s hs
    obtain ⟨k, hk, hp⟩ := hqueued
    obtain rfl := Option.some.inj (hready.known.symm.trans hk)
    have hafter := queued_of_swept hmn hlater
    rw [swept_succ', coordinator_sweep, hchoice] at hafter
    exact (Registry.queued_leaveEach.1 hafter).2 hp

end World

/-! ## a lobby that a match makes ready -/

namespace Sample

/-- another server with room for two -/
def early : LobbyInfo := { small with serverId := ⟨3⟩ }

/-- two players wait for both servers, and two more for the one that has no room for four -/
def overfull : List Action :=
  crowd ++ [.report (.ok [early, small]),
    .enqueue (.ofNat 0) [early.serverId, small.serverId],
    .enqueue (.ofNat 1) [early.serverId, small.serverId],
    .enqueue (.ofNat 2) [small.serverId], .enqueue (.ofNat 3) [small.serverId]]

/-- the queue of a server for these players -/
def queueOf (info : LobbyInfo) (players : List Nat) : Lobby :=
  players.foldl (fun l n => l.join (.ofNat n)) (.ofInfo info)

end Sample

namespace World

/-- **Passes settle.**  After any run, passes that follow one another start matches only at first,
and at most as many as the entries of the queues allow if each match takes the players that it
needs.  From then on no pass starts a match, and no lobby is ready.  Nobody is matched twice.  That
a lobby is not ready does not mean that it will not be: a match may take players out of a lobby that
has too many. -/
theorem sweeps_settle :
    (∀ (config : Config) (owner : Nat → Profile) (as : List Action) (d : Directory),
      let w := (start config).run owner as
      ∃ started count, Settles owner d config.minQueueSize.toNat w started count ∧
        ∀ lookup : Lookup, (∀ name port, d name port = lookup name) → ∀ n,
          let v := w.swept owner d n
          v.coordinator.matchPass lookup =
            (⟨(w.swept owner d (n + 1)).coordinator, v.effects owner (v.sweep d)⟩, started n)) ∧
    ∃ (config : Config) (owner : Nat → Profile) (as : List Action) (d : Directory) (l m : Lobby),
      let w := (start config).run owner as
      w.coordinator.lobbies.get? l.serverId = some l ∧
        l.info.maxPlayers.toNat < l.info.playerCount.toNat + l.members.size ∧
        m.info = l.info ∧
        (w.swept owner d 1).coordinator.Ready d config.minQueueSize.toNat m := by
  refine ⟨fun config owner as d => ?_, ?_⟩
  · have hneed : ((start config).run owner as).coordinator.settings.minQueueSize =
        max config.minQueueSize.toNat 1 :=
      congrArg Coordinator.Settings.minQueueSize (settings_run config owner as)
    obtain ⟨count, hsettles⟩ := settles (d := d) (owned_run config owner as) hneed
    refine ⟨_, count, hsettles, fun lookup hd n => ?_⟩
    intro v
    obtain ⟨hstate, heffects⟩ := (sweep_performs owner d v).1
    rw [Coordinator.matchPass_eq_found hd, heffects, swept_succ']
    exact congrArg (fun c => (Outcome.mk c _, v.coordinator.chosen? d)) hstate.symm
  · refine ⟨{}, Sample.owner, Sample.overfull, Sample.directory,
      Sample.queueOf Sample.small [0, 1, 2, 3], Sample.queueOf Sample.small [2, 3],
      by decide +kernel, by decide +kernel, rfl, ?_⟩
    exact (Coordinator.ready_iff (by decide +kernel)).2 ⟨by decide +kernel, _, rfl⟩

/-- The second match is the one that the first has made room for. -/
theorem sweeps_settle_sample :
    ∃ started, Settles Sample.owner Sample.directory ({} : Config).minQueueSize.toNat
        ((start {}).run Sample.owner Sample.overfull) started 2 ∧
      started 0 = some Sample.early.serverId ∧ started 1 = some Sample.small.serverId := by
  obtain ⟨started, count, hsettles, -⟩ :=
    sweeps_settle.1 {} Sample.owner Sample.overfull Sample.directory
  have hended (n : Nat) (s : Option ServerId)
      (h : let w := (start {}).run Sample.owner Sample.overfull
        (w.swept Sample.owner Sample.directory (n + 1)).passes[
          (w.swept Sample.owner Sample.directory n).passes.length]? = some (.ended s)) :
      started n = s := by
    have hsame := (hsettles.ended n).symm.trans h
    cases hsame
    rfl
  have hfirst := hended 0 (some Sample.early.serverId) (by decide +kernel)
  have hsecond := hended 1 (some Sample.small.serverId) (by decide +kernel)
  have hthird := hended 2 none (by decide +kernel)
  have hcount : count = 2 := by
    have hbelow := (hsettles.isSome 1).1 (by rw [hsecond]; rfl)
    have habove := mt (hsettles.isSome 2).2 (by rw [hthird]; decide)
    omega
  exact ⟨started, hcount ▸ hsettles, hfirst, hsecond⟩

end World

end Matchmaker
