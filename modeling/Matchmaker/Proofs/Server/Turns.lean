import Matchmaker.Proofs.Run.Uninterrupted
import Matchmaker.Proofs.Server.Handlers
import Matchmaker.Proofs.Service.Parts

/-!
# A handler on its own

A handler that takes its turns with nothing in between does what it would do without interruption.
On the way to a session it ends with the first refusal (`run_identify`, `run_look`, `run_register`).
Later it is back to reading after every request: a player who joins has joined, and the queues were
searched to the end (`join_runs`); a message is where the service puts it (`message_runs`).
-/

namespace Matchmaker

open Coordinator (Outcome Pass)
open Hall (Stage Task)

theorem Coordinator.scan_cons (lookup : Lookup) (c : Coordinator) (l : Lobby) (rest : List Lobby) :
    c.scan lookup (fun _ => false) (l :: rest) =
      match c.tryMatch? l (l.info.resolve lookup) with
      | some o => (o, .ended (some l.serverId))
      | none => c.scan lookup (fun _ => false) rest := rfl

namespace Hall

section
variable {σ π : Type} {h g : Hall σ π} {n i : Nat} {f : Profile} {c : Coordinator}

/-- a handler is back to reading, and all that it has changed is the coordinator -/
structure Back (h : Hall σ π) (n : Nat) (f : Profile) (c : Coordinator) (g : Hall σ π) : Prop where
  coordinator : g.coordinator = c
  store : g.store = h.store
  profiles : g.profiles = h.profiles
  stages : g.stages = Function.update h.stages n (.serving f .reading)

/-- What a handler was at before is forgotten when it is back to reading. -/
theorem Back.of_reach {stage : Stage} (hg : Back (h.reach n stage) n f c g) : Back h n f c g :=
  ⟨hg.coordinator, hg.store, hg.profiles, hg.stages.trans (Function.update_idem ..)⟩

theorem Back.of_acted {a : Action} (hg : Back (h.acted f a) n f c g) : Back h n f c g :=
  ⟨hg.coordinator, hg.store, hg.profiles, hg.stages⟩

theorem update_stages (hn : h.stages n = .serving f .reading) :
    Function.update h.stages n (.serving f .reading) = h.stages := by
  rw [← hn, Function.update_eq_self]

theorem reach_reach (h : Hall σ π) (n : Nat) (stage stage' : Stage) :
    (h.reach n stage).reach n stage' = h.reach n stage' := by
  unfold reach
  rw [Function.update_idem]

variable [ChatStore σ] [ProfileProvider π]

/-! ### until a session is registered -/

section
variable {u : Server.Upgrade} {authenticator : Server.Authenticator} {p : SteamId} {profiles : π}

theorem run_identify (hn : h.stages n = .absent) :
    h.run [.accept n, .identify n u authenticator] =
      match Server.identify authenticator u with
      | .ok p => h.reach n (.identified p)
      | .error e => h.reach n (.returned (.error e)) := by
  have haccept : h.next (.accept n) = h.reach n .accepted := by
    simp only [next, hn]
  show (h.next (.accept n)).next (.identify n u authenticator) = _
  rw [haccept]
  simp only [next, stages_reach_self]
  cases Server.identify authenticator u <;> exact reach_reach h n _ _

theorem run_look (hn : h.stages n = .absent) (hp : Server.identify authenticator u = .ok p) :
    h.run [.accept n, .identify n u authenticator, .look n] =
      match ProfileProvider.profile h.profiles p with
      | .ok (f, profiles) => { h with profiles }.reach n (.found f)
      | .error e => h.reach n (.returned (.error (.collaborator e))) := by
  show (h.run [.accept n, .identify n u authenticator]).next (.look n) = _
  rw [run_identify hn, hp]
  simp only [next, stages_reach_self, reach_reach]
  show (match ProfileProvider.profile h.profiles p with
    | .ok (f, profiles) => { h.reach n (.identified p) with profiles }.reach n (.found f)
    | .error e => h.reach n (.returned (.error (.collaborator e)))) = _
  cases ProfileProvider.profile h.profiles p with
  | error e => rfl
  | ok found => exact reach_reach { h with profiles := found.2 } n _ _

theorem run_register (hn : h.stages n = .absent) (hp : Server.identify authenticator u = .ok p)
    (hf : ProfileProvider.profile h.profiles p = .ok (f, profiles)) :
    h.run [.accept n, .identify n u authenticator, .look n, .register n] =
      ({ h with profiles }.acted f (.connect n f.chatStatus)).reach n (.serving f .reading) := by
  show (h.run [.accept n, .identify n u authenticator, .look n]).next (.register n) = _
  rw [run_look hn hp, hf]
  simp only [next, stages_reach_self]
  exact reach_reach ({ h with profiles }.acted f (.connect n f.chatStatus)) n _ _

end

/-! ### requests -/

theorem next_read (hn : h.stages n = .serving f .reading)
    (result : Except ClientError Protocol.Request) (date : Timestamp) :
    h.next (.read n result date) = h.taken n f date result := by
  simp only [next, hn]

theorem next_goOn {task : Task} (hn : h.stages n = .serving f task) (lookup : Lookup) :
    h.next (.goOn n lookup) = h.resumed n f lookup task := by
  simp only [next, hn]

omit [ChatStore σ] [ProfileProvider π] in
theorem world_proceed {lookup : Lookup} {o : Outcome} {pass : Pass} (f : Profile)
    (hi : i < h.world.passes.length) (hresumed : h.world.resumed i lookup = (o, some pass)) :
    (h.acted f (.proceed i lookup)).world = ⟨o.state, h.world.passes.set i pass⟩ ∧
      (h.acted f (.proceed i lookup)).world.passes[i]? = some pass := by
  have hworld : (h.acted f (.proceed i lookup)).world = ⟨o.state, h.world.passes.set i pass⟩ :=
    World.next_proceed _ hresumed
  refine ⟨hworld, ?_⟩
  rw [hworld]
  exact List.getElem?_set_self hi

/-- A pass that is over lets its handler read again. -/
theorem next_goOn_of_ended {lookup : Lookup} {o : Outcome} {started : Option ServerId}
    (hn : h.stages n = .serving f (.matching i)) (hi : i < h.world.passes.length)
    (hresumed : h.world.resumed i lookup = (o, some (.ended started))) :
    Back h n f o.state (h.next (.goOn n lookup)) := by
  obtain ⟨hworld, hpass⟩ := world_proceed f hi hresumed
  rw [next_goOn hn]
  unfold Hall.resumed
  dsimp only
  rw [hpass]
  refine ⟨?_, rfl, rfl, rfl⟩
  show (h.acted f (.proceed i lookup)).world.coordinator = o.state
  rw [hworld]

theorem next_goOn_of_lookup {lookup : Lookup} {o : Outcome} {l : Lobby} {rest : List Lobby}
    (hn : h.stages n = .serving f (.matching i)) (hi : i < h.world.passes.length)
    (hresumed : h.world.resumed i lookup = (o, some (.lookup l rest))) :
    h.next (.goOn n lookup) =
      { h with world := ⟨o.state, h.world.passes.set i (.lookup l rest)⟩ } := by
  obtain ⟨hworld, hpass⟩ := world_proceed f hi hresumed
  rw [next_goOn hn]
  unfold Hall.resumed
  dsimp only
  rw [hpass]
  show h.acted f (.proceed i lookup) = _
  rw [← hworld]
  rfl

/-- A handler goes through the candidates of its pass to the end. -/
theorem scan_runs (lookup : Lookup) (n i : Nat) (f : Profile) (ls : List Lobby) (h : Hall σ π)
    (hn : h.stages n = .serving f (.matching i))
    (hpass : h.world.passes[i]? = some (.ofList ls)) :
    ∃ xs, Back h n f (Coordinator.scan lookup (fun _ => false) h.coordinator ls).1.state
      (h.run xs) := by
  have hi : i < h.world.passes.length := (List.getElem?_eq_some_iff.1 hpass).1
  induction ls generalizing h with
  | nil =>
    have hresumed : h.world.resumed i lookup = (.still h.coordinator, some (.ended none)) := by
      unfold World.resumed
      rw [hpass]
      rfl
    exact ⟨[.goOn n lookup], next_goOn_of_ended hn hi hresumed⟩
  | cons l rest ih =>
    have hresumed := World.resumed_of_lookup hpass lookup
    rw [Coordinator.scan_cons]
    unfold Hall.coordinator
    cases htry : h.world.coordinator.tryMatch? l (l.info.resolve lookup) with
    | some o =>
      rw [htry] at hresumed
      exact ⟨[.goOn n lookup], next_goOn_of_ended hn hi hresumed⟩
    | none =>
      rw [htry] at hresumed
      cases rest with
      | nil => exact ⟨[.goOn n lookup], next_goOn_of_ended hn hi hresumed⟩
      | cons l' rest =>
        let u : Hall σ π :=
          { h with world := ⟨h.coordinator, h.world.passes.set i (.lookup l' rest)⟩ }
        have hstep : h.next (.goOn n lookup) = u := next_goOn_of_lookup hn hi hresumed
        have hupass : u.world.passes[i]? = some (.lookup l' rest) := List.getElem?_set_self hi
        obtain ⟨xs, hxs⟩ := ih u hn hupass (List.getElem?_eq_some_iff.1 hupass).1
        refine ⟨.goOn n lookup :: xs, ?_⟩
        show Back h n f _ ((h.next (.goOn n lookup)).run xs)
        rw [hstep]
        exact ⟨hxs.coordinator, hxs.store, hxs.profiles, hxs.stages⟩

/-- A handler whose player joins is back to reading when the queues were searched. -/
theorem join_runs (hn : h.stages n = .serving f .reading) (lookup : Lookup)
    (servers : List ServerId) (date : Timestamp) :
    ∃ xs, Back h n f (h.coordinator.join lookup f.steamId servers).state
      (h.run (.read n (.ok (.joinQueue servers)) date :: xs)) := by
  let u := h.acted f (.enqueue f.steamId servers)
  have hu : u.coordinator =
      ((h.coordinator.enqueue? f.steamId servers).getD (.still h.coordinator)).state := rfl
  have hread : h.next (.read n (.ok (.joinQueue servers)) date) =
      u.reach n (.serving f
        (if (h.coordinator.enqueue? f.steamId servers).isSome then .searching else .reading)) :=
    next_read hn _ date
  unfold Coordinator.join
  cases hjoin : h.coordinator.enqueue? f.steamId servers with
  | none =>
    rw [hjoin] at hu hread
    refine ⟨[], ?_⟩
    show Back h n f h.coordinator (h.next (.read n (.ok (.joinQueue servers)) date))
    rw [hread]
    exact ⟨hu, rfl, rfl, rfl⟩
  | some o =>
    rw [hjoin] at hu hread
    -- the candidates are taken down, and the pass over them is the last of all
    let v := ((u.reach n (.serving f .searching)).acted f .list).reach n
      (.serving f (.matching u.world.passes.length))
    have hlist : (u.reach n (.serving f .searching)).next (.goOn n lookup) = v :=
      next_goOn (stages_reach_self u n _) lookup
    have hpass : v.world.passes[u.world.passes.length]? = some (.ofList u.coordinator.candidates) :=
      List.getElem?_concat_length
    obtain ⟨xs, hxs⟩ := scan_runs lookup n u.world.passes.length f u.coordinator.candidates v
      (stages_reach_self _ n _) hpass
    refine ⟨.goOn n lookup :: xs, ?_⟩
    show Back h n f (o.andThen fun d => (d.matchPass lookup).1).state
      (((h.next (.read n (.ok (.joinQueue servers)) date)).next (.goOn n lookup)).run xs)
    rw [hread]
    show Back h n f _ (((u.reach n (.serving f .searching)).next (.goOn n lookup)).run xs)
    rw [hlist]
    have hsearched : (o.andThen fun d => (d.matchPass lookup).1).state =
        (u.coordinator.scan lookup (fun _ => false) u.coordinator.candidates).1.state := by
      show (o.state.matchPass lookup).1.state = _
      rw [Coordinator.matchPass_eq_scan, hu]
      rfl
    rw [hsearched]
    exact hxs.of_reach.of_acted.of_reach.of_acted

/-- has the coordinator of a service, and what the service relies on -/
structure Houses (h : Hall σ π) (s : Service σ π) : Prop where
  coordinator : h.coordinator = s.coordinator
  store : h.store = s.store
  profiles : h.profiles = s.profiles

omit [ProfileProvider π] in
theorem state_addMessage (x : Session) (date : Timestamp) (body : String) (s : Service σ π) :
    ((Service.addMessage x date body).run s).2 =
      match draft? x date body with
      | none => s
      | some d =>
        match ChatStore.save s.store d with
        | .error _ => s
        | .ok (e, store) =>
          { s with
            store
            coordinator := (s.coordinator.message e).state
            effects := s.effects ++ (s.coordinator.message e).effects } := by
  unfold Service.addMessage draft?
  split
  · cases Chat.sanitize body with
    | error e => rfl
    | ok text =>
      show ((Service.onStore (ChatStore.save · (Service.draft x date text)) >>= _).run s).2 = _
      rw [Service.run_bind, Service.run_onStore]
      dsimp only
      cases ChatStore.save s.store (Service.draft x date text) <;> rfl
  · rfl

theorem next_read_message (hn : h.stages n = .serving f .reading) (date : Timestamp)
    (body : String) :
    h.next (.read n (.ok (.message body)) date) =
      match (h.coordinator.session? n).bind (draft? · date body) with
      | some draft => h.reach n (.serving f (.saving draft))
      | none => h := next_read hn _ date

theorem next_goOn_saving {d : ChatEntry} (hn : h.stages n = .serving f (.saving d))
    (lookup : Lookup) :
    h.next (.goOn n lookup) =
      match ChatStore.save h.store d with
      | .ok (e, store) => { h with store }.reach n (.serving f (.posting e))
      | .error _ => h.reach n (.serving f .reading) := next_goOn hn lookup

/-- A handler that has read a message is back to reading when the service has dealt with it. -/
theorem message_runs {s : Service σ π} (hs : Houses h s) (hn : h.stages n = .serving f .reading)
    {x : Session} (hx : s.coordinator.session? n = some x) (date : Timestamp) (body : String)
    (lookup : Lookup) :
    ∃ xs, let g := h.run (.read n (.ok (.message body)) date :: xs)
      Houses g ((Service.addMessage x date body).run s).2 ∧ g.stages = h.stages := by
  have hread := next_read_message hn date body
  rw [hs.coordinator, hx, Option.bind_some] at hread
  have hstate := state_addMessage x date body s
  cases hdraft : draft? x date body with
  | none =>
    rw [hdraft] at hread hstate
    have hrun : h.run [.read n (.ok (.message body)) date] = h := hread
    refine ⟨[], ?_⟩
    rw [hrun, hstate]
    exact ⟨hs, rfl⟩
  | some d =>
    rw [hdraft] at hread hstate
    let u := h.reach n (.serving f (.saving d))
    have hstore : u.store = s.store := hs.store
    have hsave := next_goOn_saving (stages_reach_self h n (.serving f (.saving d))) lookup
    change u.next (.goOn n lookup) = _ at hsave
    rw [hstore] at hsave
    dsimp only at hstate
    cases hcall : ChatStore.save s.store d with
    | error e =>
      rw [hcall] at hsave hstate
      have hrun : h.run [.read n (.ok (.message body)) date, .goOn n lookup] =
          u.reach n (.serving f .reading) := by
        show (h.next (.read n (.ok (.message body)) date)).next (.goOn n lookup) = _
        rw [hread]
        exact hsave
      refine ⟨[.goOn n lookup], ?_⟩
      rw [hrun, hstate]
      exact ⟨⟨hs.coordinator, hs.store, hs.profiles⟩,
        (Function.update_idem ..).trans (update_stages hn)⟩
    | ok saved =>
      obtain ⟨e, store⟩ := saved
      rw [hcall] at hsave hstate
      let v := { u with store }.reach n (.serving f (.posting e))
      have hrun : h.run [.read n (.ok (.message body)) date, .goOn n lookup, .goOn n lookup] =
          (v.acted f (.message e)).reach n (.serving f .reading) := by
        show ((h.next (.read n (.ok (.message body)) date)).next (.goOn n lookup)).next
          (.goOn n lookup) = _
        rw [hread]
        show (u.next (.goOn n lookup)).next (.goOn n lookup) = _
        rw [hsave]
        exact next_goOn (stages_reach_self _ n _) lookup
      refine ⟨[.goOn n lookup, .goOn n lookup], ?_⟩
      rw [hrun, hstate]
      refine ⟨⟨?_, rfl, hs.profiles⟩, ?_⟩
      · show (h.coordinator.message e).state = (s.coordinator.message e).state
        rw [hs.coordinator]
      · show Function.update (Function.update (Function.update h.stages n _) n _) n _ = h.stages
        rw [Function.update_idem, Function.update_idem]
        exact update_stages hn

end

end Hall

end Matchmaker
