import Matchmaker.Proofs.Run.Calling
import Matchmaker.Proofs.Run.Presence
import Matchmaker.Proofs.Run.Uninterrupted

/-!
# What one pass does

A pass that nobody interrupts takes down the candidates and then tries one after the other, each at
the address that it has (`World.sweep`).  Nothing changes until one of them is started, and after
that the pass does nothing any more.  So it is decided when the pass begins: candidates are in
ascending order of the server, the first one with an address is matched as it is, and without one
nothing happens at all (`sweep_performs`).

Where a server is depends on its host name and its port, and does not change while the pass lasts.
-/

namespace Matchmaker

open Coordinator (Outcome Pass)

/-- the addresses of a host, for a port -/
abbrev Directory := String → UInt16 → Except String (List Address)

/-- where the server of a lobby is -/
def Directory.locate (d : Directory) (i : LobbyInfo) : Except LobbyError Address :=
  i.resolve fun name => d name i.port

theorem Lobby.isEligible_iff {l : Lobby} {need : Nat} :
    l.isEligible need = true ↔
      need ≤ l.members.size ∧
        l.info.playerCount.toNat + l.members.size ≤ l.info.maxPlayers.toNat := by
  unfold isEligible freeSlots
  rw [Bool.and_eq_true, decide_eq_true_eq, decide_eq_true_eq]
  omega

namespace Coordinator
variable {owner : Nat → Profile} {c : Coordinator} {l : Lobby} {address : Address} {d : Directory}
  {need : Nat}

/-! ## lobbies that are ready -/

/-- A match of this lobby can start right away. -/
structure Ready (d : Directory) (need : Nat) (c : Coordinator) (l : Lobby) : Prop where
  known : c.lobbies.get? l.serverId = some l
  enough : max 1 need ≤ l.members.size
  fits : l.info.playerCount.toNat + l.members.size ≤ l.info.maxPlayers.toNat
  registered : ∀ p ∈ l.members, c.isConnected p = true
  located : ∃ address, d.locate l.info = .ok address

theorem mem_candidates : l ∈ c.candidates ↔ c.lobbies.get? l.serverId = some l ∧
    l.isEligible c.settings.minQueueSize = true ∧ ∀ p ∈ l.members, c.isConnected p = true := by
  unfold candidates Registry.eligible
  rw [List.mem_filter, Bool.and_eq_true, List.all_eq_true, Registry.get?_eq_some_iff]
  exact and_congr_left fun _ => (and_iff_left rfl).symm

/-- The candidates that have an address are those that are ready. -/
theorem ready_iff (hneed : c.settings.minQueueSize = max need 1) :
    c.Ready d need l ↔ l ∈ c.candidates ∧ ∃ address, d.locate l.info = .ok address := by
  rw [mem_candidates, Lobby.isEligible_iff, hneed]
  constructor
  · rintro ⟨hknown, henough, hfits, hregistered, hlocated⟩
    exact ⟨⟨hknown, ⟨by omega, hfits⟩, hregistered⟩, hlocated⟩
  · rintro ⟨⟨hknown, ⟨henough, hfits⟩, hregistered⟩, hlocated⟩
    exact ⟨hknown, by omega, hfits, hregistered, hlocated⟩

theorem candidates_ascending (c : Coordinator) :
    c.candidates.Pairwise fun l m => l.serverId.toNat < m.serverId.toNat :=
  c.lobbies.lobbies.sorted.filter _

/-- the first candidate with an address, and that address -/
def locate? (d : Directory) : List Lobby → Option (Lobby × Address)
  | [] => none
  | l :: rest =>
    match d.locate l.info with
    | .ok address => some (l, address)
    | .error _ => locate? d rest

theorem locate?_eq_none_iff {ls : List Lobby} :
    locate? d ls = none ↔ ∀ l ∈ ls, ∀ address, d.locate l.info ≠ .ok address := by
  induction ls with
  | nil => simp [locate?]
  | cons l rest ih =>
    rw [List.forall_mem_cons, ← ih, locate?]
    cases d.locate l.info <;> simp

/-- In ascending order, it is the one of the smallest server. -/
theorem locate?_eq_some {ls : List Lobby}
    (h : ls.Pairwise fun l m => l.serverId.toNat < m.serverId.toNat)
    (hl : locate? d ls = some (l, address)) :
    l ∈ ls ∧ d.locate l.info = .ok address ∧
      ∀ m ∈ ls, (∃ a, d.locate m.info = .ok a) → l.serverId.toNat ≤ m.serverId.toNat := by
  induction ls with
  | nil => cases hl
  | cons k rest ih =>
    obtain ⟨hfirst, hrest⟩ := List.pairwise_cons.1 h
    unfold locate? at hl
    split at hl
    · rename_i hk
      cases hl
      refine ⟨List.mem_cons_self, hk, fun m hm _ => ?_⟩
      rcases List.mem_cons.1 hm with rfl | hm
      · exact Nat.le_refl _
      · exact Nat.le_of_lt (hfirst m hm)
    · rename_i hk
      obtain ⟨hmem, hlocated, hleast⟩ := ih hrest hl
      refine ⟨List.mem_cons_of_mem _ hmem, hlocated, fun m hm hm' => ?_⟩
      rcases List.mem_cons.1 hm with rfl | hm
      · obtain ⟨a, ha⟩ := hm'
        rw [hk] at ha
        cases ha
      · exact hleast m hm hm'

theorem isUnchanged_of_mem_candidates (h : l ∈ c.candidates) : c.isUnchanged l = true := by
  obtain ⟨hknown, heligible, hregistered⟩ := mem_candidates.1 h
  exact isUnchanged_iff.2 ⟨l, hknown, heligible, rfl, hregistered⟩

theorem tryMatch?_of_unchanged (h : c.isUnchanged l = true) (found : Except LobbyError Address) :
    c.tryMatch? l found =
      match found with
      | .ok address => some (c.matched l address)
      | .error _ => none := by
  cases found with
  | ok address => exact startMatch?_eq_some_iff.2 ⟨h, rfl⟩
  | error e => rfl

/-! ## the outcome -/

/-- what the pass comes to if this is found -/
def found (c : Coordinator) : Option (Lobby × Address) → Outcome
  | some (l, address) => c.matched l address
  | none => .still c

/-- The match of a lobby has started, at this address. -/
structure Swept (c : Coordinator) (l : Lobby) (address : Address) (o : Outcome) : Prop where
  /-- nothing but the queues is touched -/
  frame : o.state = { c with lobbies := o.state.lobbies }
  records : o.state.lobbies.record? = c.lobbies.record?
  queued : ∀ p s, o.state.lobbies.Queued p s ↔ c.lobbies.Queued p s ∧ ¬ p ∈ l.members
  members : ∀ e ∈ c.clients, e.steamId ∈ l.members → Effect.responses e.connection o.effects =
    [.startGame (l.info.server address) ((c.sessionsOf l).map Session.member),
      o.state.serversUpdate]
  others : ∀ e ∈ c.clients, ¬ e.steamId ∈ l.members →
    Effect.responses e.connection o.effects = [o.state.serversUpdate]
  nobodyElse : ∀ x ∈ o.effects, ∃ e ∈ c.clients, ∃ r, x = .deliver e.connection r

theorem swept_matched (h : c.Owned owner) (hl : ∀ p ∈ l.members, c.isConnected p = true)
    (address : Address) : c.Swept l address (c.matched l address) where
  frame := rfl
  records := Registry.record?_leaveEach _ _
  queued _ _ := Registry.queued_leaveEach
  members e he hmember := responses_matched h hl address (mem_sessionsOf.2 ⟨he, hmember⟩)
  others e he hmember := by
    let t := (c.matched l address).state
    have ht : t.Owned owner := h
    have hupdate := responses_broadcastAll (c := t) ht he t.serversUpdate
    have hnot : ¬ e.connection ∈ (c.sessionsOf l).map Session.connection := by
      intro hin
      obtain ⟨f, hf, hfe⟩ := List.mem_map.1 hin
      obtain ⟨hfc, hfm⟩ := mem_sessionsOf.1 hf
      exact hmember (h.connection_injective hfc he hfe ▸ hfm)
    show Effect.responses e.connection (_ ++ t.broadcastAll t.serversUpdate) = _
    rw [Effect.responses_append, Effect.responses_map, List.count_eq_zero_of_not_mem hnot, hupdate]
    rfl
  nobodyElse x hx := by
    rcases List.mem_append.1 hx with hx | hx
    · obtain ⟨e, he, rfl⟩ := List.mem_map.1 hx
      exact ⟨e, (mem_sessionsOf.1 he).1, _, rfl⟩
    · obtain ⟨e, he, -, rfl⟩ := mem_broadcast.1 hx
      exact ⟨e, he, _, rfl⟩

end Coordinator

namespace World
variable {owner : Nat → Profile} {w : World} {d : Directory} {i : Nat}

/-! ## the pass -/

/-- the rest of a pass with these lobbies still to try -/
def proceeds (d : Directory) (i : Nat) (ls : List Lobby) : List Action :=
  ls.map fun l => .proceed i fun name => d name l.info.port

/-- a pass from its start to its end -/
def sweep (d : Directory) (w : World) : List Action :=
  .list :: proceeds d w.passes.length w.coordinator.candidates

/-- A pass that is over does nothing any more. -/
theorem next_of_ended (owner : Nat → Profile) {started : Option ServerId}
    (h : w.passes[i]? = some (.ended started)) (lookup : Lookup) :
    w.outcome owner (.proceed i lookup) = .still w.coordinator ∧
      w.next owner (.proceed i lookup) = w := by
  have hresumed : w.resumed i lookup = (.still w.coordinator, some (.ended started)) := by
    unfold resumed
    rw [h]
    rfl
  refine ⟨congrArg Prod.fst hresumed, ?_⟩
  rw [next_proceed owner hresumed, set_of_getElem? h]
  rfl

theorem run_of_ended (owner : Nat → Profile) (d : Directory) {started : Option ServerId}
    (h : w.passes[i]? = some (.ended started)) (ls : List Lobby) :
    Performs owner w (proceeds d i ls) (.still w.coordinator) ∧
      w.run owner (proceeds d i ls) = w := by
  induction ls with
  | nil => exact ⟨.nil, rfl⟩
  | cons l rest ih =>
    obtain ⟨hstill, hnext⟩ := next_of_ended owner h fun name => d name l.info.port
    refine ⟨.cons_still hstill ?_, ?_⟩
    · rw [hnext]
      exact ih.1
    · show (w.next owner _).run owner (proceeds d i rest) = w
      rw [hnext]
      exact ih.2

/-- After the first action nothing happens. -/
theorem Performs.cons_end {a : Action} {as : List Action}
    (h : Performs owner (w.next owner a) as (.still (w.next owner a).coordinator)) :
    Performs owner w (a :: as) (w.outcome owner a) where
  state := h.state
  effects := by
    show (w.outcome owner a).effects ++ _ = _
    rw [h.effects]
    exact List.append_nil _

/-- The first lobby with an address is started, and the pass is over. -/
theorem proceeds_performs (owner : Nat → Profile) (d : Directory) (ls : List Lobby) (w : World)
    (hls : ∀ l ∈ ls, w.coordinator.isUnchanged l = true)
    (h : w.passes[i]? = some (.ofList ls)) :
    Performs owner w (proceeds d i ls) (w.coordinator.found (Coordinator.locate? d ls)) ∧
      (w.run owner (proceeds d i ls)).passes[i]? =
        some (.ended ((Coordinator.locate? d ls).map fun x => x.1.serverId)) := by
  induction ls generalizing w with
  | nil => exact ⟨.nil, h⟩
  | cons l rest ih =>
    let a : Action := .proceed i fun name => d name l.info.port
    have hi : i < w.passes.length := (List.getElem?_eq_some_iff.1 h).1
    have hresumed := resumed_of_lookup h fun name => d name l.info.port
    rw [Coordinator.tryMatch?_of_unchanged (hls l List.mem_cons_self)] at hresumed
    unfold Coordinator.locate?
    cases hl : d.locate l.info with
    | ok address =>
      rw [show l.info.resolve (fun name => d name l.info.port) = .ok address from hl] at hresumed
      have hnext := next_proceed owner hresumed
      have hended : (w.next owner a).passes[i]? = some (.ended (some l.serverId)) := by
        rw [hnext]
        exact List.getElem?_set_self hi
      obtain ⟨hrest, hrun⟩ := run_of_ended owner d hended rest
      have hout : w.outcome owner a = w.coordinator.matched l address :=
        congrArg Prod.fst hresumed
      have hperforms := Performs.cons_end hrest
      rw [hout] at hperforms
      refine ⟨hperforms, ?_⟩
      show ((w.next owner a).run owner (proceeds d i rest)).passes[i]? = _
      rw [hrun]
      exact hended
    | error e =>
      rw [show l.info.resolve (fun name => d name l.info.port) = .error e from hl] at hresumed
      have hnext := next_proceed owner hresumed
      have hcoordinator : (w.next owner a).coordinator = w.coordinator := by rw [hnext]; rfl
      have hpass : (w.next owner a).passes[i]? = some (.ofList rest) := by
        rw [hnext]
        exact List.getElem?_set_self hi
      obtain ⟨hrest, hended⟩ := ih (w.next owner a)
        (fun m hm => hcoordinator ▸ hls m (List.mem_cons_of_mem _ hm)) hpass
      rw [hcoordinator] at hrest
      exact ⟨.cons_still (congrArg Prod.fst hresumed) hrest, hended⟩

theorem sweep_performs (owner : Nat → Profile) (d : Directory) (w : World) :
    Performs owner w (w.sweep d)
        (w.coordinator.found (Coordinator.locate? d w.coordinator.candidates)) ∧
      (w.run owner (w.sweep d)).passes[w.passes.length]? =
        some (.ended ((Coordinator.locate? d w.coordinator.candidates).map
          fun x => x.1.serverId)) := by
  have hpass : (w.next owner .list).passes[w.passes.length]? =
      some (.ofList w.coordinator.candidates) := List.getElem?_concat_length
  obtain ⟨hperforms, hended⟩ := proceeds_performs owner d
    w.coordinator.candidates (w.next owner .list)
    (fun l hl => Coordinator.isUnchanged_of_mem_candidates hl) hpass
  exact ⟨.cons_still rfl hperforms, hended⟩

end World

/-- Where the port does not matter, this is what the uninterrupted operation does. -/
theorem Coordinator.matchPass_eq_found {lookup : Lookup} {d : Directory}
    (hd : ∀ name port, d name port = lookup name) (c : Coordinator) :
    c.matchPass lookup = (c.found (locate? d c.candidates),
      (locate? d c.candidates).map fun x => x.1.serverId) := by
  have hscan : ∀ ls : List Lobby, (∀ l ∈ ls, c.isUnchanged l = true) →
      c.scan lookup (fun _ => false) ls =
        (c.found (locate? d ls), .ended ((locate? d ls).map fun x => x.1.serverId)) := by
    intro ls hls
    induction ls with
    | nil => rfl
    | cons l rest ih =>
      have hlocate : l.info.resolve lookup = d.locate l.info := by
        unfold Directory.locate
        congr 1
        exact funext fun name => (hd name l.info.port).symm
      unfold scan locate?
      rw [if_neg Bool.false_ne_true, tryMatch?_of_unchanged (hls l List.mem_cons_self), hlocate]
      cases d.locate l.info with
      | ok address => rfl
      | error e => exact ih fun m hm => hls m (List.mem_cons_of_mem _ hm)
  unfold matchPass
  rw [hscan c.candidates fun l hl => isUnchanged_of_mem_candidates hl]

namespace World

/-- **A pass starts the first match that can start.**  After any run, a pass that nobody interrupts
comes to one of two ends.  Some lobby is ready, and then the match of the one with the smallest
server starts: its members leave all queues and are sent one call each, everyone is sent the queues
as they are then, and nothing else changes.  Or no lobby is ready, and then nothing is sent, nothing
changes, and no match was started, whatever candidates have no address. -/
theorem sweep_exact (config : Config) (owner : Nat → Profile) (as : List Action) (d : Directory) :
    let w := (start config).run owner as
    let c := w.coordinator
    let o : Outcome := ⟨(w.run owner (w.sweep d)).coordinator, w.effects owner (w.sweep d)⟩
    ∃ started, (w.run owner (w.sweep d)).passes[w.passes.length]? = some (.ended started) ∧
      ((∃ l address, started = some l.serverId ∧ c.Ready d config.minQueueSize.toNat l ∧
          (∀ m, c.Ready d config.minQueueSize.toNat m → l.serverId.toNat ≤ m.serverId.toNat) ∧
          d.locate l.info = .ok address ∧ c.Swept l address o) ∨
        started = none ∧ (∀ l, ¬ c.Ready d config.minQueueSize.toNat l) ∧ o = .still c) ∧
      ∀ lookup : Lookup, (∀ name port, d name port = lookup name) →
        c.matchPass lookup = (o, started) := by
  intro w c o
  have hneed : c.settings.minQueueSize = max config.minQueueSize.toNat 1 :=
    congrArg Coordinator.Settings.minQueueSize (settings_run config owner as)
  obtain ⟨⟨hstate, heffects⟩, hended⟩ := sweep_performs owner d w
  have ho : o = c.found (Coordinator.locate? d c.candidates) := by
    show Outcome.mk _ _ = _
    rw [hstate, heffects]
  refine ⟨_, hended, ?_, fun lookup hd => by rw [ho]; exact c.matchPass_eq_found hd⟩
  rw [ho]
  cases hfound : Coordinator.locate? d c.candidates with
  | none =>
    refine .inr ⟨rfl, fun l hl => ?_, rfl⟩
    obtain ⟨hcandidate, address, haddress⟩ := (Coordinator.ready_iff hneed).1 hl
    exact Coordinator.locate?_eq_none_iff.1 hfound l hcandidate address haddress
  | some x =>
    obtain ⟨l, address⟩ := x
    obtain ⟨hcandidate, haddress, hleast⟩ :=
      Coordinator.locate?_eq_some c.candidates_ascending hfound
    refine .inl ⟨l, address, rfl, (Coordinator.ready_iff hneed).2 ⟨hcandidate, address, haddress⟩,
      fun m hm => ?_, haddress, ?_⟩
    · obtain ⟨hm, hlocated⟩ := (Coordinator.ready_iff hneed).1 hm
      exact hleast m hm hlocated
    · exact Coordinator.swept_matched (owned_run config owner as)
        (Coordinator.mem_candidates.1 hcandidate).2.2 address

end World

/-! ## a sample -/

namespace Sample

/-- only the server in the sample has an address -/
def directory : Directory := fun name _ =>
  if name = server.hostname then .ok [.v4 127 0 0 1] else .error ""

/-- two players wait for two servers, and the smaller one cannot be found -/
def halfFound : List Action :=
  [.connect 0 .readwrite, .connect 1 .readwrite,
    .report (.ok [{ server with serverId := ⟨3⟩, hostname := "nowhere" }, server]),
    .enqueue (.ofNat 0) [⟨3⟩, server.serverId], .enqueue (.ofNat 1) [⟨3⟩, server.serverId]]

end Sample

namespace World

theorem sweep_exact_sample :
    let w := (start {}).run Sample.owner Sample.halfFound
    (∀ name port, Sample.directory name port = Sample.directory name 0) ∧
    w.coordinator.candidates.length = 2 ∧
    (w.run Sample.owner (w.sweep Sample.directory)).passes[0]? =
      some (.ended (some Sample.server.serverId)) ∧
    (w.coordinator.matchPass fun name => Sample.directory name 0).2 =
      some Sample.server.serverId := by
  intro w
  have hpasses : (w.run Sample.owner (w.sweep Sample.directory)).passes[0]? =
      some (.ended (some Sample.server.serverId)) := by decide +kernel
  obtain ⟨started, hended, -, hpass⟩ :=
    sweep_exact {} Sample.owner Sample.halfFound Sample.directory
  have hstarted : started = some Sample.server.serverId := by
    have hsame := hended.symm.trans hpasses
    cases hsame
    rfl
  refine ⟨fun _ _ => rfl, by decide +kernel, hpasses, ?_⟩
  have hpass := hpass (fun name => Sample.directory name 0) fun _ _ => rfl
  rw [hpass, hstarted]

end World

end Matchmaker
