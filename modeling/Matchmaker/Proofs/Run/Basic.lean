import Matchmaker.Proofs.Coordinator.Starting

/-!
# Runs

Everything that happens to a coordinator is an `Action`: what a task does while it holds the lock.
Other tasks take their turns between two actions of a task and never within one, so every
interleaving of any number of tasks is a list of actions, and a theorem about all lists of actions
is one about all interleavings.

Two actions end a little after the lock was given back: `disconnect` closes the connection then, and
`shutDown` releases the writers.  In a run this is part of the action.  To the coordinator it makes no
difference, since it does not look at what becomes of connections; but what a connection is brought by
others in between has no place in these runs.

A pass over the candidates takes several actions: `list` takes down the candidates, and every
`proceed` ends the lookup that the pass waits for and tries its lobby.  Passes that are on their way
are told apart by the order of their listing (`World.passes`), and every lookup of every pass may
have its own answer.

Connections have numbers of their own, and the player on a connection does not change.  So a run is
about one `owner`, the profile of the player on each connection; sessions differ from it in nothing
but their chat status.
-/

namespace Matchmaker

namespace Coordinator

/-- a pass that has just listed these candidates -/
def Pass.ofList : List Lobby → Pass
  | [] => .ended none
  | l :: rest => .lookup l rest

theorem scan_slow (lookup : Lookup) (c : Coordinator) (ls : List Lobby) :
    c.scan lookup (fun _ => true) ls = (.still c, .ofList ls) := by
  cases ls <;> rfl

theorem resume_slow (lookup : Lookup) (c : Coordinator) (l : Lobby) (rest : List Lobby) :
    c.resume lookup (fun _ => true) (.lookup l rest) =
      match c.tryMatch? l (l.info.resolve lookup) with
      | some o => (o, .ended (some l.serverId))
      | none => (.still c, .ofList rest) := by
  show (match c.tryMatch? l (l.info.resolve lookup) with
    | some o => (o, Pass.ended (some l.serverId))
    | none => c.scan lookup (fun _ => true) rest) = _
  rw [scan_slow]

theorem tryMatch?_eq_some_iff {c : Coordinator} {l : Lobby} {found : Except LobbyError Address}
    {o : Outcome} :
    c.tryMatch? l found = some o ↔
      ∃ address, found = .ok address ∧ c.startMatch? l address = some o := by
  cases found <;> simp [tryMatch?]

end Coordinator

open Coordinator (Outcome Pass)

/-! ## actions -/

/-- what a task does without being interrupted -/
inductive Action where
  /-- someone is there but not registered yet -/
  | introduce (connection : Nat) (status : ChatStatus)
  | connect (connection : Nat) (status : ChatStatus)
  | disconnect (connection : Nat)
  | evict (now : Nat) (lastSeen : Nat → Nat)
  | enqueue (p : SteamId) (servers : List ServerId)
  | leave (p : SteamId) (servers : List ServerId)
  /-- the feed was asked, and reports the servers or fails -/
  | report (feed : Except CollaboratorError (List LobbyInfo))
  /-- a new pass takes down the candidates -/
  | list
  /-- the lookup that a pass waits for has ended, and its lobby is tried -/
  | proceed (pass : Nat) (lookup : Lookup)
  | seed (entries : List ChatEntry)
  | message (e : ChatEntry)
  | purge (ids : List Int)
  | updateChatStatus (p : SteamId) (status : ChatStatus) (reason : String)
  | shutDown

/-- a coordinator, and the passes that have ever been started -/
structure World where
  coordinator : Coordinator
  passes : List Pass

namespace World

def start (config : Config) : World := ⟨.new config, []⟩

/-- the pass with this number goes on; nothing happens if there is none -/
def resumed (w : World) (i : Nat) (lookup : Lookup) : Outcome × Option Pass :=
  match w.passes[i]? with
  | some pass =>
    let (o, next) := w.coordinator.resume lookup (fun _ => true) pass
    (o, some next)
  | none => (.still w.coordinator, none)

/-- what an action does to the coordinator, and what it asks of the connections -/
def outcome (owner : Nat → Profile) (w : World) : Action → Outcome
  | .introduce n status => .still (w.coordinator.introduce ⟨n, owner n, status⟩)
  | .connect n status => w.coordinator.connect ⟨n, owner n, status⟩
  | .disconnect n => w.coordinator.disconnect (owner n).steamId n
  | .evict now lastSeen => (w.coordinator.evict now lastSeen).1
  | .enqueue p servers => (w.coordinator.enqueue? p servers).getD (.still w.coordinator)
  | .leave p servers => w.coordinator.leave p servers
  | .report (.ok feed) => w.coordinator.reconcile feed
  | .report (.error _) => .still w.coordinator
  | .list => .still w.coordinator
  | .proceed i lookup => (w.resumed i lookup).1
  | .seed entries => .still (w.coordinator.seed entries)
  | .message e => w.coordinator.message e
  | .purge ids => (w.coordinator.purge ids).1
  | .updateChatStatus p status reason => (w.coordinator.updateChatStatus p status reason).1
  | .shutDown => w.coordinator.shutDown

def passesAfter (w : World) : Action → List Pass
  | .list => w.passes ++ [.ofList w.coordinator.candidates]
  | .proceed i lookup =>
    match (w.resumed i lookup).2 with
    | some next => w.passes.set i next
    | none => w.passes
  | _ => w.passes

def next (owner : Nat → Profile) (w : World) (a : Action) : World :=
  ⟨(w.outcome owner a).state, w.passesAfter a⟩

def run (owner : Nat → Profile) (w : World) (as : List Action) : World := as.foldl (next owner) w

section
variable (owner : Nat → Profile) (w : World)

theorem run_append (as bs : List Action) :
    w.run owner (as ++ bs) = (w.run owner as).run owner bs := List.foldl_append

theorem run_singleton (a : Action) : w.run owner [a] = w.next owner a := rfl

end

/-- What holds at first and is kept by every action holds after every run. -/
theorem run_induction {owner : Nat → Profile} {P : World → Prop}
    (step : ∀ w a, P w → P (w.next owner a)) {w : World} (h : P w) (as : List Action) :
    P (w.run owner as) := by
  induction as generalizing w with
  | nil => exact h
  | cons a as ih => exact ih (step w a h)

/-! ## matches -/

/-- the lobby, as it was listed, whose match starts when this lookup ends -/
def started? (w : World) (i : Nat) (lookup : Lookup) : Option Lobby :=
  match w.passes[i]? with
  | some (.lookup l _) =>
    if (w.coordinator.tryMatch? l (l.info.resolve lookup)).isSome then some l else none
  | _ => none

/-- the lobby, as it was listed, whose match an action starts -/
def starting? (w : World) : Action → Option Lobby
  | .proceed i lookup => w.started? i lookup
  | _ => none

theorem resumed_of_lookup {w : World} {i : Nat} {l : Lobby} {rest : List Lobby}
    (h : w.passes[i]? = some (.lookup l rest)) (lookup : Lookup) :
    w.resumed i lookup =
      match w.coordinator.tryMatch? l (l.info.resolve lookup) with
      | some o => (o, some (.ended (some l.serverId)))
      | none => (.still w.coordinator, some (.ofList rest)) := by
  unfold resumed
  rw [h]
  simp only [Coordinator.resume_slow]
  cases w.coordinator.tryMatch? l (l.info.resolve lookup) <;> rfl

theorem next_proceed (owner : Nat → Profile) {w : World} {i : Nat} {lookup : Lookup} {o : Outcome}
    {pass : Pass} (h : w.resumed i lookup = (o, some pass)) :
    w.next owner (.proceed i lookup) = ⟨o.state, w.passes.set i pass⟩ := by
  show World.mk (w.resumed i lookup).1.state (match (w.resumed i lookup).2 with
    | some next => w.passes.set i next
    | none => w.passes) = _
  rw [h]

theorem passes_proceed_of_none (owner : Nat → Profile) {w : World} {i : Nat} {lookup : Lookup}
    {o : Outcome} (h : w.resumed i lookup = (o, none)) :
    (w.next owner (.proceed i lookup)).passes = w.passes := by
  show (match (w.resumed i lookup).2 with
    | some next => w.passes.set i next
    | none => w.passes) = _
  rw [h]

theorem resumed_of_started {w : World} {i : Nat} {lookup : Lookup} {l : Lobby}
    (h : w.started? i lookup = some l) :
    ∃ rest address o, w.passes[i]? = some (.lookup l rest) ∧
      l.info.resolve lookup = .ok address ∧ w.coordinator.startMatch? l address = some o ∧
      w.resumed i lookup = (o, some (.ended (some l.serverId))) := by
  unfold started? at h
  split at h
  · rename_i m rest hpass
    split at h
    · rename_i hsome
      cases h
      obtain ⟨o, ho⟩ := Option.isSome_iff_exists.1 hsome
      obtain ⟨address, haddress, hstart⟩ := Coordinator.tryMatch?_eq_some_iff.1 ho
      refine ⟨rest, address, o, hpass, haddress, hstart, ?_⟩
      rw [resumed_of_lookup hpass, ho]
    · cases h
  · cases h

/-- A lookup whose lobby is not started leaves the coordinator alone. -/
theorem resumed_of_not_started {w : World} {i : Nat} {lookup : Lookup}
    (h : w.started? i lookup = none) : (w.resumed i lookup).1 = .still w.coordinator := by
  unfold started? at h
  cases hpass : w.passes[i]? with
  | none =>
    unfold resumed
    rw [hpass]
  | some pass =>
    rw [hpass] at h
    cases pass with
    | ended started =>
      unfold resumed
      rw [hpass]
      rfl
    | lookup l rest =>
      have htry : w.coordinator.tryMatch? l (l.info.resolve lookup) = none := by
        by_contra hne
        obtain ⟨o, ho⟩ := Option.ne_none_iff_exists'.1 hne
        simp only [ho, Option.isSome_some, if_true, reduceCtorEq] at h
      rw [resumed_of_lookup hpass, htry]

/-- A match starts when the lookup of a candidate has ended well and the lobby has not changed. -/
theorem starting?_eq_some {w : World} {a : Action} {l : Lobby} (h : w.starting? a = some l) :
    ∃ i lookup rest address, a = .proceed i lookup ∧ w.passes[i]? = some (.lookup l rest) ∧
      l.info.resolve lookup = .ok address ∧ w.coordinator.isUnchanged l = true ∧
      ∀ owner, w.outcome owner a = w.coordinator.matched l address := by
  cases a with
  | proceed i lookup =>
    obtain ⟨rest, address, o, hpass, haddress, hstart, hresumed⟩ := resumed_of_started h
    obtain ⟨hunchanged, rfl⟩ := Coordinator.startMatch?_eq_some_iff.1 hstart
    refine ⟨i, lookup, rest, address, rfl, hpass, haddress, hunchanged, fun owner => ?_⟩
    show (w.resumed i lookup).1 = _
    rw [hresumed]
  | _ => cases h

/-! ## passes that are over -/

theorem ended_next {owner : Nat → Profile} {w : World} {a : Action} {i : Nat}
    {started : Option ServerId} (h : w.passes[i]? = some (.ended started)) :
    (w.next owner a).passes[i]? = some (.ended started) := by
  have hlt : i < w.passes.length := (List.getElem?_eq_some_iff.1 h).1
  cases a with
  | list =>
    show (w.passes ++ _)[i]? = _
    rw [List.getElem?_append_left hlt, h]
  | proceed j lookup =>
    by_cases hij : j = i
    · have hres : w.resumed j lookup = (.still w.coordinator, some (.ended started)) := by
        unfold resumed
        rw [hij, h]
        rfl
      rw [next_proceed owner hres, hij]
      exact List.getElem?_set_self hlt
    · cases hres : w.resumed j lookup with
      | mk o next =>
        cases next with
        | none =>
          rw [passes_proceed_of_none owner hres]
          exact h
        | some pass =>
          rw [next_proceed owner hres]
          show (w.passes.set j pass)[i]? = _
          rw [List.getElem?_set_ne hij, h]
  | _ => exact h

theorem ended_run {owner : Nat → Profile} {w : World} {i : Nat} {started : Option ServerId}
    (as : List Action) (h : w.passes[i]? = some (.ended started)) :
    (w.run owner as).passes[i]? = some (.ended started) :=
  run_induction (P := fun w => w.passes[i]? = some (.ended started)) (fun _ _ => ended_next) h as

theorem ended_of_starting {owner : Nat → Profile} {w : World} {i : Nat} {lookup : Lookup}
    {l : Lobby} (h : w.starting? (.proceed i lookup) = some l) :
    (w.next owner (.proceed i lookup)).passes[i]? = some (.ended (some l.serverId)) := by
  obtain ⟨rest, address, o, hpass, -, -, hresumed⟩ := resumed_of_started h
  rw [next_proceed owner hresumed]
  exact List.getElem?_set_self (List.getElem?_eq_some_iff.1 hpass).1

theorem starting?_of_ended {w : World} {i : Nat} {started : Option ServerId}
    (h : w.passes[i]? = some (.ended started)) (lookup : Lookup) :
    w.starting? (.proceed i lookup) = none := by
  show w.started? i lookup = none
  unfold started?
  rw [h]

end World

/-! ## a small run

Two players, one server with room for both, and two passes that have listed its lobby. -/

namespace Sample

def owner (n : Nat) : Profile := .regular (.ofNat n) ""

def server : LobbyInfo where
  serverId := ⟨7⟩
  title := ""
  shortName := ""
  hostname := "localhost"
  port := 27015
  cc := ""
  playerCount := 0
  maxPlayers := 12

def lookup : Lookup := fun _ => .ok [.v4 127 0 0 1]

def lobby : Lobby := ((Lobby.ofInfo server).join (.ofNat 0)).join (.ofNat 1)

def queue : List Action :=
  [.enqueue (.ofNat 0) [server.serverId], .enqueue (.ofNat 1) [server.serverId]]

def listed : List Action :=
  [.connect 0 .readwrite, .connect 1 .readwrite, .report (.ok [server])] ++ queue ++ [.list, .list]

end Sample

end Matchmaker
