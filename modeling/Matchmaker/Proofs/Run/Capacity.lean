import Matchmaker.Proofs.Run.Match
import Matchmaker.Proofs.Run.Record

/-!
# How many are called to a server

A match calls no more players than its server has room for, going by what is known of the server
(`length_calledBy_le`).  The places that a match hands out are not set aside: until the feed brings
a new record of the server they are there for the next match as well.  So as long as the record
lasts the server gets at most its free places times the number of its matches
(`length_called_le`), and a second match may indeed overfill it.
-/

namespace Matchmaker

open Coordinator (Outcome)

/-- the places that are free going by the record, none if the server is overfull -/
def LobbyInfo.room (i : LobbyInfo) : Nat := i.maxPlayers.toNat - i.playerCount.toNat

namespace World

/-- an action starts a match of this server -/
def Starts (w : World) (s : ServerId) (a : Action) : Prop :=
  (w.starting? a).map Lobby.serverId = some s

instance (w : World) (s : ServerId) (a : Action) : Decidable (w.Starts s a) :=
  inferInstanceAs (Decidable (_ = _))

section
variable (owner : Nat → Profile) (s : ServerId)

/-- the connections that an action calls to a match of this server -/
def calledBy (w : World) (a : Action) : List Nat :=
  if w.Starts s a then ((w.outcome owner a).effects.filterMap Effect.summons?).map (·.1) else []

/-- the connections that are called to matches of this server in a run, each as often as it is -/
def called : World → List Action → List Nat
  | _, [] => []
  | w, a :: as => w.calledBy owner s a ++ called (w.next owner a) as

/-- how many matches of this server a run starts -/
def starts : World → List Action → Nat
  | _, [] => 0
  | w, a :: as => (if w.Starts s a then 1 else 0) + starts (w.next owner a) as

theorem called_cons (w : World) (a : Action) (as : List Action) :
    called owner s w (a :: as) = w.calledBy owner s a ++ called owner s (w.next owner a) as := rfl

theorem starts_cons (w : World) (a : Action) (as : List Action) :
    starts owner s w (a :: as) =
      (if w.Starts s a then 1 else 0) + starts owner s (w.next owner a) as := rfl

end

variable {owner : Nat → Profile} {w : World} {a : Action} {s : ServerId} {info : LobbyInfo}

/-! ## one match -/

theorem calledBy_of_not_starts (h : ¬ w.Starts s a) : w.calledBy owner s a = [] := if_neg h

/-- Who is called is a member, and the members fit. -/
theorem length_calledBy_le
    (hrecord : w.coordinator.lobbies.record? s = some info ∨
      w.coordinator.lobbies.record? s = none) :
    (w.calledBy owner s a).length ≤ info.room := by
  by_cases h : w.Starts s a
  · obtain ⟨l, hl, rfl⟩ := Option.map_eq_some_iff.1 h
    obtain ⟨i, lookup, rest, address, -, -, -, hunchanged, hout⟩ := starting?_eq_some hl
    obtain ⟨m, hm, heligible, hmembers, -⟩ := Coordinator.isUnchanged_iff.1 hunchanged
    have hknown : w.coordinator.lobbies.record? l.serverId = some m.info :=
      congrArg (Option.map Lobby.info) hm
    have hinfo : m.info = info := by
      rw [hknown] at hrecord
      rcases hrecord with hrecord | hrecord
      · exact Option.some.inj hrecord
      · cases hrecord
    have hlength : (w.calledBy owner l.serverId a).length ≤ m.members.size := by
      unfold calledBy
      rw [if_pos h, hout, Coordinator.summons?_matched, List.length_map, List.length_map, hmembers]
      exact List.length_filterMap_le _ _
    have hfits := (Coordinator.enough_of_isEligible heligible).2
    rw [hinfo] at hfits
    unfold LobbyInfo.room
    omega
  · rw [calledBy_of_not_starts h]
    exact Nat.zero_le _

/-! ## every run -/

theorem length_called_le {as : List Action} (has : ∀ a ∈ as, ¬ a.Refreshes s)
    (hrecord : w.coordinator.lobbies.record? s = some info ∨
      w.coordinator.lobbies.record? s = none) :
    (called owner s w as).length ≤ starts owner s w as * info.room := by
  induction as generalizing w with
  | nil => exact Nat.zero_le _
  | cons a as ih =>
    -- once the record is gone there is no match until the feed brings another one
    have hnext : (w.next owner a).coordinator.lobbies.record? s = some info ∨
        (w.next owner a).coordinator.lobbies.record? s = none := by
      rcases (change_outcome owner w a).record? (has a List.mem_cons_self) with h | h
      · change (w.next owner a).coordinator.lobbies.record? s = _ at h
        rw [h]
        exact hrecord
      · exact .inr h
    have hrest := ih (fun b hb => has b (List.mem_cons_of_mem a hb)) hnext
    rw [called_cons, starts_cons, List.length_append, Nat.add_mul]
    refine Nat.add_le_add ?_ hrest
    by_cases h : w.Starts s a
    · rw [if_pos h, Nat.one_mul]
      exact length_calledBy_le hrecord
    · rw [calledBy_of_not_starts h]
      exact Nat.zero_le _

/-- **The capacity guard holds for every match.**  As long as the record of a server lasts, each of
its matches calls at most as many players as the server has free places, and all of them together
at most that many times as there are matches. -/
theorem called_le (config : Config) (owner : Nat → Profile) (before between : List Action)
    (s : ServerId) (info : LobbyInfo)
    (hrecord : ((start config).run owner before).coordinator.lobbies.record? s = some info)
    (hbetween : ∀ a ∈ between, ¬ a.Refreshes s) :
    let w := (start config).run owner before
    (∀ p a q, between = p ++ a :: q →
      ((w.run owner p).calledBy owner s a).length ≤ info.room) ∧
      (called owner s w between).length ≤ starts owner s w between * info.room ∧
      (starts owner s w between ≤ 1 → (called owner s w between).length ≤ info.room) := by
  intro w
  have hcalled : (called owner s w between).length ≤ starts owner s w between * info.room :=
    length_called_le hbetween (.inl hrecord)
  refine ⟨?_, hcalled, ?_⟩
  · rintro p a q rfl
    have hp : ∀ b ∈ p, ¬ b.Refreshes s := fun b hb => hbetween b (List.mem_append_left _ hb)
    refine length_calledBy_le ?_
    rw [← hrecord]
    exact record?_run hp
  · intro honce
    have hroom : starts owner s w between * info.room ≤ 1 * info.room :=
      Nat.mul_le_mul_right info.room honce
    rw [Nat.one_mul] at hroom
    exact Nat.le_trans hcalled hroom

end World

/-! ## two matches under one record -/

namespace Sample

/-- a server with room for two -/
def small : LobbyInfo := { server with maxPlayers := 2 }

def crowd : List Action :=
  [.connect 0 .readwrite, .connect 1 .readwrite, .connect 2 .readwrite, .connect 3 .readwrite,
    .report (.ok [small])]

/-- two players join, and a pass starts their match -/
def play (i m n : Nat) : List Action :=
  [.enqueue (.ofNat m) [small.serverId], .enqueue (.ofNat n) [small.serverId], .list,
    .proceed i lookup]

end Sample

namespace World

theorem called_le_sample :
    (called Sample.owner Sample.small.serverId ((start {}).run Sample.owner Sample.crowd)
        (Sample.play 0 0 1)).length ≤ 2 ∧
      called Sample.owner Sample.small.serverId ((start {}).run Sample.owner Sample.crowd)
        (Sample.play 0 0 1) = [0, 1] := by
  have hrecord : ((start {}).run Sample.owner Sample.crowd).coordinator.lobbies.record?
      Sample.small.serverId = some Sample.small := by decide +kernel
  have hbetween : ∀ a ∈ Sample.play 0 0 1, ¬ a.Refreshes Sample.small.serverId := by
    rintro a ha ⟨feed, rfl, -⟩
    simp [Sample.play] at ha
  have honce : starts Sample.owner Sample.small.serverId
      ((start {}).run Sample.owner Sample.crowd) (Sample.play 0 0 1) ≤ 1 := by decide +kernel
  refine ⟨?_, by decide +kernel⟩
  exact (called_le {} Sample.owner Sample.crowd (Sample.play 0 0 1) _ _ hrecord hbetween).2.2 honce

/-- Four players are called to the two places of a server. -/
theorem second_match_overfills :
    ¬ ∀ (config : Config) (owner : Nat → Profile) (before between : List Action) (s : ServerId)
      (info : LobbyInfo),
      ((start config).run owner before).coordinator.lobbies.record? s = some info →
      (∀ a ∈ between, ¬ a.Refreshes s) →
      (called owner s ((start config).run owner before) between).dedup.length ≤ info.room := by
  intro h
  have hle := h {} Sample.owner Sample.crowd (Sample.play 0 0 1 ++ Sample.play 1 2 3)
    Sample.small.serverId Sample.small (by decide +kernel) ?_
  · have hcalled : called Sample.owner Sample.small.serverId
        ((start {}).run Sample.owner Sample.crowd) (Sample.play 0 0 1 ++ Sample.play 1 2 3) =
        [0, 1, 2, 3] := by decide +kernel
    rw [hcalled] at hle
    exact absurd hle (by decide)
  · rintro a ha ⟨feed, rfl, -⟩
    simp [Sample.play] at ha

end World

end Matchmaker
