import Mathlib.Tactic.Tauto
import Matchmaker.Lobby.Registry

/-!
# Queues and records

Two views of a registry say all that matters of it: who waits for which server (`Queued`), and what
is known of each server (`record?`).  Joining and leaving change the first and leave the second
alone.

`join` and `leave` do the same to every named lobby one after the other, and doing it twice is doing
it once.  So both are an `each`, whose look-ups are computed once (`get?_each`).
-/

namespace Matchmaker.Registry

def Queued (r : Registry) (p : SteamId) (s : ServerId) : Prop :=
  ∃ l, r.get? s = some l ∧ p ∈ l.members

def record? (r : Registry) (s : ServerId) : Option LobbyInfo := (r.get? s).map Lobby.info

def Knows (r : Registry) (s : ServerId) : Prop := ∃ l, r.get? s = some l

/-! ## looking up -/

theorem get?_eq_some_iff {r : Registry} {s : ServerId} {l : Lobby} :
    r.get? s = some l ↔ l ∈ r.lobbies ∧ l.serverId = s := by
  rw [get?, Ascending.get?_eq_some_iff]
  exact and_congr_right fun _ => ⟨ServerId.ext_toNat, congrArg ServerId.toNat⟩

theorem serverId_of_get? {r : Registry} {s : ServerId} {l : Lobby} (h : r.get? s = some l) :
    l.serverId = s := (get?_eq_some_iff.1 h).2

theorem get?_of_mem {r : Registry} {l : Lobby} (h : l ∈ r.lobbies) : r.get? l.serverId = some l :=
  get?_eq_some_iff.2 ⟨h, rfl⟩

theorem not_queued_empty (p : SteamId) (s : ServerId) : ¬ empty.Queued p s := by
  rintro ⟨l, hl, -⟩
  cases hl

theorem get?_update (r : Registry) (s t : ServerId) (f : Lobby → Lobby)
    (h : ∀ l, (f l).key = l.key) :
    (r.update s f h).get? t = (r.get? t).map fun l => if t = s then f l else l := by
  unfold update get?
  rw [Ascending.get?_map]
  change _ = (r.get? t).map _
  cases hl : r.get? t with
  | none =>
    change r.lobbies.get? t.toNat = none at hl
    rw [hl]
    rfl
  | some l =>
    have ht := serverId_of_get? hl
    change r.lobbies.get? t.toNat = some l at hl
    rw [hl]
    show some (if l.serverId = s then f l else l) = some (if t = s then f l else l)
    rw [ht]

/-! ## one change to several lobbies -/

section
variable (f : Lobby → Lobby) (h : ∀ l, (f l).key = l.key) (told : Lobby → Bool)

/-- changes the lobbies of the named servers that are known; whether any of them was told -/
def each (x : Registry × Bool) (servers : List ServerId) : Registry × Bool :=
  servers.foldl (fun (r, changed) s =>
    match r.get? s with
    | some l => (r.update s f h, changed || told l)
    | none => (r, changed)) x

theorem each_nil (x : Registry × Bool) : each f h told x [] = x := rfl

theorem get?_each_singleton (x : Registry × Bool) (s t : ServerId) :
    (each f h told x [s]).1.get? t = (x.1.get? t).map fun l => if t = s then f l else l := by
  show (match x.1.get? s with
    | some l => (x.1.update s f h, x.2 || told l)
    | none => (x.1, x.2)).1.get? t = _
  cases hs : x.1.get? s with
  | some l => exact get?_update x.1 s t f h
  | none =>
    show x.1.get? t = _
    by_cases e : t = s
    · rw [e, hs]
      rfl
    · simp [e]

theorem each_cons (x : Registry × Bool) (s : ServerId) (servers : List ServerId) :
    each f h told x (s :: servers) = each f h told (each f h told x [s]) servers := rfl

/-- The named lobbies are changed, and no others. -/
theorem get?_each (hf : ∀ l, f (f l) = f l) (x : Registry × Bool) (servers : List ServerId)
    (t : ServerId) :
    (each f h told x servers).1.get? t =
      (x.1.get? t).map fun l => if t ∈ servers then f l else l := by
  induction servers generalizing x with
  | nil => simp [each_nil]
  | cons s servers ih =>
    rw [each_cons, ih, get?_each_singleton, Option.map_map]
    congr 1
    funext l
    by_cases e : t = s <;> by_cases m : t ∈ servers <;> simp [e, m, hf]

end

theorem join_eq_each (r : Registry) (p : SteamId) (servers : List ServerId) :
    r.join p servers = each (·.join p) (fun _ => rfl) (!·.contains p) (r, false) servers := rfl

theorem leave_eq_each (r : Registry) (p : SteamId) (servers : List ServerId) :
    r.leave p servers = each (·.leave p) (fun _ => rfl) (·.contains p) (r, false) servers := rfl

theorem get?_join (r : Registry) (p : SteamId) (servers : List ServerId) (t : ServerId) :
    (r.join p servers).1.get? t =
      (r.get? t).map fun l => if t ∈ servers then l.join p else l := by
  rw [join_eq_each]
  exact get?_each (·.join p) _ _ (fun l => l.join_join p) (r, false) servers t

theorem get?_leave (r : Registry) (p : SteamId) (servers : List ServerId) (t : ServerId) :
    (r.leave p servers).1.get? t =
      (r.get? t).map fun l => if t ∈ servers then l.leave p else l := by
  rw [leave_eq_each]
  exact get?_each (·.leave p) _ _ (fun l => l.leave_leave p) (r, false) servers t

theorem get?_leaveAll (r : Registry) (p : SteamId) (t : ServerId) :
    (r.leaveAll p).1.get? t = (r.get? t).map (·.leave p) :=
  Ascending.get?_map r.lobbies (·.leave p) (fun _ => rfl) t.toNat

/-! ## who waits where -/

theorem queued_join {r : Registry} {p q : SteamId} {servers : List ServerId} {s : ServerId} :
    (r.join p servers).1.Queued q s ↔ r.Queued q s ∨ (q = p ∧ s ∈ servers ∧ r.Knows s) := by
  unfold Queued Knows
  rw [get?_join]
  cases hl : r.get? s with
  | none => simp
  | some l => by_cases hs : s ∈ servers <;> simp [hs, Lobby.mem_join, or_comm]

theorem queued_leave {r : Registry} {p q : SteamId} {servers : List ServerId} {s : ServerId} :
    (r.leave p servers).1.Queued q s ↔ r.Queued q s ∧ ¬ (q = p ∧ s ∈ servers) := by
  unfold Queued
  rw [get?_leave]
  cases hl : r.get? s with
  | none => simp
  | some l => by_cases hs : s ∈ servers <;> simp [hs, Lobby.mem_leave]

theorem queued_leaveAll {r : Registry} {p q : SteamId} {s : ServerId} :
    (r.leaveAll p).1.Queued q s ↔ r.Queued q s ∧ q ≠ p := by
  unfold Queued
  rw [get?_leaveAll]
  cases hl : r.get? s with
  | none => simp
  | some l => simp [Lobby.mem_leave]

theorem record?_join (r : Registry) (p : SteamId) (servers : List ServerId) :
    (r.join p servers).1.record? = r.record? := by
  funext s
  unfold record?
  rw [get?_join, Option.map_map]
  congr 1
  funext l
  by_cases hs : s ∈ servers <;> simp [hs, Lobby.join]

theorem record?_leave (r : Registry) (p : SteamId) (servers : List ServerId) :
    (r.leave p servers).1.record? = r.record? := by
  funext s
  unfold record?
  rw [get?_leave, Option.map_map]
  congr 1
  funext l
  by_cases hs : s ∈ servers <;> simp [hs, Lobby.leave]

theorem record?_leaveAll (r : Registry) (p : SteamId) : (r.leaveAll p).1.record? = r.record? := by
  funext s
  unfold record?
  rw [get?_leaveAll, Option.map_map]
  rfl

/-! ### several players at once -/

def leaveEach (r : Registry) (players : List SteamId) : Registry :=
  players.foldl (fun r p => (r.leaveAll p).1) r

theorem leaveEach_nil (r : Registry) : r.leaveEach [] = r := rfl

theorem leaveEach_cons (r : Registry) (p : SteamId) (players : List SteamId) :
    r.leaveEach (p :: players) = (r.leaveAll p).1.leaveEach players := rfl

theorem queued_leaveEach {r : Registry} {players : List SteamId} {q : SteamId} {s : ServerId} :
    (r.leaveEach players).Queued q s ↔ r.Queued q s ∧ q ∉ players := by
  induction players generalizing r with
  | nil => simp [leaveEach_nil]
  | cons p players ih =>
    rw [leaveEach_cons, ih, queued_leaveAll, List.mem_cons]
    tauto

theorem record?_leaveEach (r : Registry) (players : List SteamId) :
    (r.leaveEach players).record? = r.record? := by
  induction players generalizing r with
  | nil => rfl
  | cons p players ih => rw [leaveEach_cons, ih, record?_leaveAll]

/-! ## what is shown of the queues -/

/-- what is shown of the lobbies, still in order of the server -/
def shown (r : Registry) : Ascending Protocol.LobbyState fun s => s.serverId.toNat :=
  r.lobbies.image Lobby.state fun _ => rfl

theorem toList_shown (r : Registry) : r.shown.toList = r.states := rfl

theorem get?_shown (r : Registry) (s : ServerId) :
    r.shown.get? s.toNat = (r.get? s).map Lobby.state :=
  r.lobbies.get?_image Lobby.state (fun _ => rfl) s.toNat

theorem states_congr {r t : Registry}
    (h : ∀ s, (r.get? s).map Lobby.state = (t.get? s).map Lobby.state) : r.states = t.states := by
  rw [← toList_shown, ← toList_shown]
  congr 1
  refine Ascending.ext_mem fun x => ?_
  rw [Ascending.mem_iff_get?, Ascending.mem_iff_get?]
  rw [get?_shown, get?_shown, h]

end Matchmaker.Registry
