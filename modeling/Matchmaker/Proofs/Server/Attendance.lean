import Matchmaker.Coordinator.Upkeep
import Matchmaker.Proofs.Coordinator.Endpoints
import Matchmaker.Proofs.Server.Turns

/-!
# A server is a hall

A server opens a connection, or lets its handlers go on as far as they can, without interruption.
What it does is a run of handlers all the same: one takes its turns with nothing in between
(`upgrade_runs`, `settle_runs`), and the jobs of the upkeep come in as wholes (`job_runs`).  So what
holds after all runs holds of servers too, whatever happens to them: every session that is
registered has a handler that has not returned (`attended_course`).
-/

namespace Matchmaker

open Coordinator (Outcome)
open Hall (Stage)

/-! ## endpoints -/

namespace Served
variable {κ : Type} [Client.Quantity κ]

/-- the stage of a handler that waits, or has returned -/
def stage (v : Served κ) : Stage :=
  match v.waiting with
  | some _ => .serving v.client.session.profile .reading
  | none => .returned (.ok ())

omit [Client.Quantity κ] in
theorem stage_congr {v w : Served κ} (hsession : w.client.session = v.client.session)
    (hwaiting : w.waiting.isSome = v.waiting.isSome) : w.stage = v.stage := by
  unfold stage
  rw [hsession]
  cases hv : v.waiting <;> cases hw : w.waiting <;> simp_all

omit [Client.Quantity κ] in
theorem stage_ne_absent (v : Served κ) : v.stage ≠ .absent := by
  unfold stage
  split <;> exact fun h => by cases h

theorem stage_take (v : Served κ) (r : Protocol.Response) :
    (Endpoint.take v r).stage = v.stage := by
  refine stage_congr ?_ rfl
  dsimp only [Endpoint.take]
  split <;> rfl

/-- Effects on a connection are none of its handler's business. -/
theorem stage_upon (now n : Nat) (v : Served κ) (a : Effect) :
    (a.upon now n v).stage = v.stage := by
  cases a with
  | start c =>
    show (if c = n then Endpoint.start v now else v).stage = v.stage
    split <;> rfl
  | deliver c r =>
    show (if c = n then Endpoint.take v r else v).stage = v.stage
    split
    · exact stage_take v r
    · rfl
  | close c =>
    show (if c = n then Endpoint.close v else v).stage = v.stage
    split <;> rfl
  | release => rfl

theorem stage_foldl_upon (now n : Nat) (v : Served κ) (as : List Effect) :
    (as.foldl (Effect.upon now n) v).stage = v.stage := by
  induction as generalizing v with
  | nil => rfl
  | cons a as ih => exact (ih (a.upon now n v)).trans (stage_upon now n v a)

end Served

/-! ## servers -/

namespace Server
variable {σ π κ : Type} [Client.Quantity κ]

/-- the stage of the handler of a connection, if there is one -/
def stage? (s : Server σ π κ) (n : Nat) : Option Stage := (s.served.get? n).map Served.stage

theorem stage?_of_get? {s : Server σ π κ} {n : Nat} {v : Served κ} (h : s.served.get? n = some v) :
    s.stage? n = some v.stage := congrArg (Option.map Served.stage) h

theorem stage?_carryOut (s : Server σ π κ) (m : Moment) : (s.carryOut m).stage? = s.stage? := by
  funext n
  show ((s.served.applyAll m.now s.service.effects).get? n).map Served.stage = _
  rw [Endpoints.get?_applyAll, Option.map_map]
  exact Option.map_congr fun v _ => Served.stage_foldl_upon m.now n v s.service.effects

theorem stage?_insert (s : Server σ π κ) (v : Served κ) :
    ({ s with served := s.served.insert v } : Server σ π κ).stage? =
      Function.update s.stage? v.connection (some v.stage) := by
  funext n
  show ((s.served.insert v).get? n).map Served.stage = _
  rw [Ascending.get?_insert]
  by_cases hn : v.connection = n
  · subst hn
    rw [Function.update_self]
    exact congrArg (Option.map Served.stage) (if_pos rfl)
  · rw [Function.update_of_ne (Ne.symm hn)]
    exact congrArg (Option.map Served.stage) (if_neg hn)

theorem call_onProfiles {α : Type} (s : Server σ π κ) (m : Moment) (g : π → Called π α) :
    s.call m (Service.onProfiles g) =
      match g s.service.profiles with
      | .ok (a, profiles) =>
        (({ s with service := { s.service with profiles } } : Server σ π κ).carryOut m, .ok a)
      | .error e => (s.carryOut m, .error (.collaborator e)) := by
  unfold call
  rw [Service.run_onProfiles]
  cases g s.service.profiles <;> rfl

theorem stage?_write (s : Server σ π κ) (m : Moment) : (s.write m).stage? = s.stage? := by
  funext n
  have hget : (s.write m).served.get? n = (s.served.get? n).map _ :=
    Ascending.get?_map s.served _ (by exact fun _ => rfl) n
  unfold stage?
  rw [hget, Option.map_map]
  exact Option.map_congr fun v _ => Served.stage_congr rfl rfl

end Server

namespace Hall

section
variable {σ π κ : Type} [Client.Quantity κ] {h g : Hall σ π} {s t : Server σ π κ} {n : Nat}

/-- a hall and a server are at the same point -/
structure Shows (h : Hall σ π) (s : Server σ π κ) : Prop where
  houses : Houses h s.service
  served : ∀ n stage, s.stage? n = some stage → h.stages n = stage
  idle : ∀ n, s.stage? n = none → (h.stages n).isOver = true
  fresh : ∀ n, s.connections < n → h.stages n = .absent

theorem Shows.of_eq (hs : Shows h s) (hhouses : Houses g t.service) (hstages : g.stages = h.stages)
    (hserved : t.stage? = s.stage?) (hconnections : t.connections = s.connections) :
    Shows g t where
  houses := hhouses
  served n stage hn := by
    rw [hstages]
    exact hs.served n stage (hserved ▸ hn)
  idle n hn := by
    rw [hstages]
    exact hs.idle n (hserved ▸ hn)
  fresh n hn := by
    rw [hstages]
    exact hs.fresh n (hconnections ▸ hn)

/-- The handler of one connection has got somewhere, perhaps on a new connection. -/
theorem Shows.of_update {stage : Stage} (hs : Shows h s) (hhouses : Houses g t.service)
    (hstages : g.stages = Function.update h.stages n stage)
    (hserved : t.stage? = Function.update s.stage? n (some stage))
    (hold : s.connections ≤ t.connections) (hnew : n ≤ t.connections) : Shows g t where
  houses := hhouses
  served k stage' hk := by
    rw [hstages]
    rw [hserved] at hk
    by_cases hsame : k = n
    · subst hsame
      rw [Function.update_self] at hk ⊢
      exact Option.some.inj hk
    · rw [Function.update_of_ne hsame] at hk ⊢
      exact hs.served k stage' hk
  idle k hk := by
    rw [hstages]
    rw [hserved] at hk
    by_cases hsame : k = n
    · rw [hsame, Function.update_self] at hk
      cases hk
    · rw [Function.update_of_ne hsame] at hk ⊢
      exact hs.idle k hk
  fresh k hk := by
    rw [hstages, Function.update_of_ne (Nat.ne_of_gt (Nat.lt_of_le_of_lt hnew hk))]
    exact hs.fresh k (Nat.lt_of_le_of_lt hold hk)

theorem Shows.absent_of_next (hs : Shows h s) : h.stages (s.connections + 1) = .absent :=
  hs.fresh _ (Nat.lt_succ_self _)

/-- Whoever asked for a connection has not become a client. -/
theorem Shows.of_declined {result : Except QueueError Unit} (hs : Shows h s)
    (hhouses : Houses g t.service)
    (hstages : g.stages = Function.update h.stages (s.connections + 1) (.returned result))
    (hserved : t.stage? = s.stage?) (hconnections : t.connections = s.connections + 1) :
    Shows g t where
  houses := hhouses
  served k stage hk := by
    rw [hserved] at hk
    have hshown : h.stages k = stage := hs.served k stage hk
    have hne : k ≠ s.connections + 1 := by
      rintro rfl
      obtain ⟨v, -, rfl⟩ := Option.map_eq_some_iff.1 hk
      rw [hs.absent_of_next] at hshown
      exact v.stage_ne_absent hshown.symm
    rw [hstages, Function.update_of_ne hne]
    exact hshown
  idle k hk := by
    rw [hstages]
    by_cases hsame : k = s.connections + 1
    · rw [hsame, Function.update_self]
      rfl
    · rw [Function.update_of_ne hsame]
      exact hs.idle k (hserved ▸ hk)
  fresh k hk := by
    rw [hconnections] at hk
    rw [hstages, Function.update_of_ne (Nat.ne_of_gt hk)]
    exact hs.fresh k (Nat.lt_of_succ_lt hk)

/-- A client and what its handler waits for have changed, and nothing else. -/
theorem Shows.insert (hs : Shows h s) {v w : Served κ} (hn : s.served.get? n = some v)
    (hsession : w.client.session = v.client.session)
    (hwaiting : w.waiting.isSome = v.waiting.isSome) :
    Shows h ({ s with served := s.served.insert w } : Server σ π κ) := by
  refine hs.of_eq hs.houses rfl ?_ rfl
  have hconnection : w.connection = n :=
    (congrArg Session.connection hsession).trans (Ascending.get?_eq_some_iff.1 hn).2
  rw [Server.stage?_insert, hconnection, Served.stage_congr hsession hwaiting,
    ← Server.stage?_of_get? hn]
  exact Function.update_eq_self ..

variable [ChatStore σ] [ProfileProvider π]

/-- Some turns lead from a hall to a server. -/
def Reaches (h : Hall σ π) (s : Server σ π κ) : Prop := ∃ xs, Shows (h.run xs) s

theorem Reaches.next (hs : Reaches h s) (hstep : ∀ g : Hall σ π, Shows g s → Reaches g t) :
    Reaches h t := by
  obtain ⟨xs, hxs⟩ := hs
  obtain ⟨ys, hys⟩ := hstep _ hxs
  refine ⟨xs ++ ys, ?_⟩
  unfold Hall.run
  rw [List.foldl_append]
  exact hys

theorem Shows.reaches (hs : Shows h s) : Reaches h s := ⟨[], hs⟩

/-! ## requests -/

theorem handle_runs (hs : Shows h s) {e : Session}
    (hn : h.stages e.connection = .serving e.profile .reading) (m : Moment)
    (r : Protocol.Request) : Reaches h (s.handle m e r) := by
  cases r with
  | joinQueue servers =>
    obtain ⟨xs, hxs⟩ := join_runs hn s.lookup servers m.date
    have hcoordinator := hxs.coordinator
    rw [hs.houses.coordinator] at hcoordinator
    exact ⟨_, hs.of_eq ⟨hcoordinator, hxs.store.trans hs.houses.store,
      hxs.profiles.trans hs.houses.profiles⟩ (hxs.stages.trans (update_stages hn))
      (Server.stage?_carryOut _ m) rfl⟩
  | leaveQueue servers =>
    have hrun : h.run [.read e.connection (.ok (.leaveQueue servers)) m.date] =
        h.acted e.profile (.leave e.steamId servers) := next_read hn _ _
    have hhouses : (h.coordinator.leave e.steamId servers).state =
        (s.service.coordinator.leave e.steamId servers).state := by
      rw [hs.houses.coordinator]
    refine ⟨[.read e.connection (.ok (.leaveQueue servers)) m.date], ?_⟩
    rw [hrun]
    exact hs.of_eq ⟨hhouses, hs.houses.store, hs.houses.profiles⟩ rfl
      (Server.stage?_carryOut _ m) rfl
  | message body =>
    simp only [Server.handle]
    split
    · rename_i x hx
      obtain ⟨xs, hhouses, hstages⟩ := message_runs hs.houses hn hx m.date body s.lookup
      exact ⟨_, hs.of_eq ⟨hhouses.coordinator, hhouses.store, hhouses.profiles⟩ hstages
        (Server.stage?_carryOut _ m) rfl⟩
    · exact hs.reaches

/-- Reading has ended for good. -/
theorem leave_runs (hs : Shows h s) {c d : Client κ} {w : Client.Waiting}
    (hn : s.served.get? n = some ⟨c, some w⟩) (hsession : d.session = c.session) (m : Moment)
    {e : ClientError} (he : e.isFatal = true) :
    Reaches h (({ s with served := s.served.insert ⟨d, none⟩ } : Server σ π κ).step m
      (·.disconnect d.session.steamId n)) := by
  let t : Server σ π κ := { s with served := s.served.insert ⟨d, none⟩ }
  let f := c.session.profile
  have hserving : h.stages n = .serving f .reading := hs.served n _ (Server.stage?_of_get? hn)
  have hread : h.next (.read n (.error e) m.date) = h.reach n (.serving f .leaving) := by
    rw [next_read hserving]
    exact if_pos he
  let g := ((h.reach n (.serving f .leaving)).acted f (.disconnect n)).reach n (.returned (.ok ()))
  have hrun : h.run [.read n (.error e) m.date, .finish n] = g := by
    show (h.next (.read n (.error e) m.date)).next (.finish n) = g
    rw [hread]
    simp only [Hall.next, stages_reach_self, g]
  have hconnection : Served.connection (⟨d, none⟩ : Served κ) = n :=
    (congrArg Session.connection hsession).trans (Ascending.get?_eq_some_iff.1 hn).2
  have hplayer : d.session.steamId = f.steamId := congrArg Session.steamId hsession
  have hhouses : (h.coordinator.disconnect f.steamId n).state =
      (s.service.coordinator.disconnect d.session.steamId n).state := by
    rw [hs.houses.coordinator, hplayer]
  have hcarried : (t.step m (·.disconnect d.session.steamId n)).stage? = t.stage? :=
    Server.stage?_carryOut _ m
  have hinserted := Server.stage?_insert s ⟨d, none⟩
  rw [hconnection] at hinserted
  have hnew : n ≤ s.connections := by
    by_contra hnew
    have habsent := hs.fresh n (Nat.lt_of_not_le hnew)
    rw [hserving] at habsent
    cases habsent
  refine ⟨[.read n (.error e) m.date, .finish n], ?_⟩
  rw [hrun]
  exact hs.of_update ⟨hhouses, hs.houses.store, hs.houses.profiles⟩ (Function.update_idem ..)
    (hcarried.trans hinserted) (Nat.le_refl _) hnew

theorem goOn_runs (m : Moment) (n count : Nat) (hs : Shows h s) :
    Reaches h (Server.goOn m n count s) := by
  -- what holds after one request is there for the next one, since it only takes more turns
  induction count generalizing h s with
  | zero => exact hs.reaches
  | succ count ih =>
    unfold Server.goOn
    split
    · rename_i c w hn
      dsimp only
      unfold Client.goOn
      generalize c.inbound.goOn s.clock c.outbound.closed .closed .closed m.now m.wall w = progress
      obtain ⟨inbound, progress⟩ := progress
      dsimp only
      let d : Client κ :=
        { c with
          inbound
          activity := if w.reads && !c.inbound.arrivals.isEmpty then some m.wall else c.activity }
      have hinsert := fun w' => hs.insert (w := ⟨d, some w'⟩) hn rfl rfl
      have hserving : h.stages n = .serving c.session.profile .reading :=
        hs.served n _ (Server.stage?_of_get? hn)
      split
      · exact (hinsert _).reaches
      · rename_i r
        have hconnection : c.session.connection = n := (Ascending.get?_eq_some_iff.1 hn).2
        rw [← hconnection] at hserving
        exact (handle_runs (hinsert .frame) hserving m r).next fun g hg => ih hg
      · rename_i e
        split
        · rename_i he
          exact leave_runs (d := d) hs hn rfl m he
        · exact ih (hinsert .frame)
    · exact hs.reaches

theorem attend_runs (m : Moment) (hs : Shows h s) (n : Nat) : Reaches h (s.attend m n) := by
  unfold Server.attend
  split
  · exact goOn_runs m n _ hs
  · exact hs.reaches

theorem foldl_attend_runs (m : Moment) (ns : List Nat) (hs : Shows h s) :
    Reaches h (ns.foldl (Server.attend m) s) := by
  induction ns generalizing h s with
  | nil => exact hs.reaches
  | cons n ns ih => exact (attend_runs m hs n).next fun g hg => ih hg

omit [ChatStore σ] [ProfileProvider π] in
theorem Shows.write (hs : Shows h s) (m : Moment) : Shows h (s.write m) :=
  hs.of_eq hs.houses rfl (s.stage?_write m) rfl

theorem rounds_runs (m : Moment) (count : Nat) (hs : Shows h s) :
    Reaches h (Server.rounds m count s) := by
  induction count generalizing h s with
  | zero => exact (hs.write m).reaches
  | succ count ih => exact (foldl_attend_runs m _ (hs.write m)).next fun g hg => ih hg

/-- All handlers of a server go on as far as they can. -/
theorem settle_runs (m : Moment) (hs : Shows h s) : Reaches h (s.settle m) :=
  rounds_runs m _ hs

/-! ## connections -/

/-- Whoever asks for a connection is turned away, or is identified, looked up and registered. -/
theorem upgrade_runs (hs : Shows h s) (m : Moment) (u : Server.Upgrade) :
    Reaches h (s.upgrade m u).1 := by
  let k := s.connections + 1
  have habsent : h.stages k = .absent := hs.absent_of_next
  unfold Server.upgrade
  split
  · dsimp only
    cases hp : Server.identify s.authenticator u with
    | error e =>
      refine ⟨[.accept k, .identify k u s.authenticator], ?_⟩
      rw [run_identify habsent, hp]
      exact hs.of_declined ⟨hs.houses.coordinator, hs.houses.store, hs.houses.profiles⟩ rfl rfl rfl
    | ok p =>
      have hlook := run_look habsent hp
      rw [hs.houses.profiles] at hlook
      dsimp only
      rw [Server.call_onProfiles]
      dsimp only
      cases hf : ProfileProvider.profile s.service.profiles p with
      | error e =>
        rw [hf] at hlook
        refine ⟨[.accept k, .identify k u s.authenticator, .look k], ?_⟩
        rw [hlook]
        exact hs.of_declined ⟨hs.houses.coordinator, hs.houses.store, hs.houses.profiles⟩ rfl
          (Server.stage?_carryOut _ m) rfl
      | ok found =>
        obtain ⟨f, profiles⟩ := found
        refine ⟨[.accept k, .identify k u s.authenticator, .look k, .register k], ?_⟩
        rw [run_register habsent hp (hs.houses.profiles.symm ▸ hf)]
        let t : Server σ π κ :=
          { s with service := { s.service with profiles }, connections := k }
        let d : Client κ := { Client.new k f s.settings m.now m.wall with activity := some m.wall }
        have hinserted := (t.carryOut m).stage?_insert ⟨d, some .frame⟩
        rw [t.stage?_carryOut m] at hinserted
        have hhouses : (h.coordinator.connect (.new k f)).state =
            (s.service.coordinator.connect (.new k f)).state := by
          rw [hs.houses.coordinator]
        exact hs.of_update ⟨hhouses, hs.houses.store, rfl⟩ rfl
          ((Server.stage?_carryOut _ m).trans hinserted) (Nat.le_succ _) (Nat.le_refl _)
  · exact hs.reaches

/-! ## what handlers leave alone -/

omit [ChatStore σ] [ProfileProvider π] in
theorem Shows.deliver (hs : Shows h s) (n : Nat) (frames : List ByteArray) :
    Shows h (s.deliver n frames) := by
  unfold Server.deliver
  split
  · rename_i v hn
    exact hs.insert hn rfl rfl
  · exact hs

omit [ChatStore σ] [ProfileProvider π] in
theorem Shows.hangUp (hs : Shows h s) (n : Nat) : Shows h (s.hangUp n) := by
  unfold Server.hangUp
  split
  · rename_i v hn
    exact hs.insert hn rfl rfl
  · exact hs

/-! ## other tasks -/

theorem run_acts (h : Hall σ π) (f : Profile) {as : List Action}
    (has : ∀ a ∈ as, a.registers = false) :
    h.run (as.map (.act f)) = { h with world := h.world.run (fun _ => f) as } := by
  induction as generalizing h with
  | nil => rfl
  | cons a as ih =>
    obtain ⟨ha, has⟩ := List.forall_mem_cons.1 has
    have hact : h.next (.act f a) = h.acted f a := if_neg (Bool.eq_false_iff.1 ha)
    show (h.next (.act f a)).run (as.map (.act f)) = _
    rw [hact]
    exact ih (h.acted f a) has

theorem step_runs (hs : Shows h s) (m : Moment) (f : Profile) {step : Coordinator → Outcome}
    {as : List Action} (has : ∀ a ∈ as, a.registers = false)
    (hperforms : World.Performs (fun _ => f) h.world as (step s.service.coordinator)) :
    Reaches h (s.step m step) := by
  refine ⟨as.map (.act f), ?_⟩
  rw [run_acts h f has]
  exact hs.of_eq ⟨hperforms.state, hs.houses.store, hs.houses.profiles⟩ rfl
    (Server.stage?_carryOut _ m) rfl

theorem action_runs (hs : Shows h s) (m : Moment) (f : Profile) {step : Coordinator → Outcome}
    {a : Action} (ha : a.registers = false)
    (hstep : h.world.outcome (fun _ => f) a = step h.coordinator) : Reaches h (s.step m step) := by
  rw [hs.houses.coordinator] at hstep
  refine step_runs hs m f (List.forall_mem_singleton.2 ha) ?_
  rw [← hstep]
  exact .singleton (fun _ => f) h.world a

theorem job_runs (hs : Shows h s) (m : Moment)
    (feed : Except CollaboratorError (List LobbyInfo)) (wall : Nat) (lastSeen : Nat → Nat)
    (job : Coordinator.Job) :
    Reaches h (s.step m (Coordinator.perform s.lookup feed wall lastSeen · job)) := by
  let nobody : Profile := .regular (.ofAccount 0) ""
  cases job with
  | evict => exact action_runs hs m nobody (a := .evict wall lastSeen) rfl rfl
  | reconcile =>
    obtain ⟨as, has, hperforms⟩ := World.update_performs (fun _ => nobody) s.lookup h.world feed
    have hsame : h.world.coordinator = s.service.coordinator := hs.houses.coordinator
    rw [hsame] at hperforms
    refine step_runs hs m nobody (fun a ha => ?_) hperforms
    rcases List.mem_cons.1 ha with rfl | ha
    · rfl
    · rcases has a ha with rfl | ⟨i, rfl⟩ <;> rfl

end

end Hall

/-! ## whatever happens to a server -/

namespace Server
variable {σ π κ : Type} [Client.Quantity κ] [ChatStore σ] [ProfileProvider π]

/-- what comes from outside, or when its time has come -/
inductive Occurrence where
  | upgrade (m : Moment) (u : Upgrade)
  | deliver (connection : Nat) (frames : List ByteArray)
  | hangUp (connection : Nat)
  | settle (m : Moment)
  | upkeep (m : Moment) (feed : Except CollaboratorError (List LobbyInfo)) (job : Coordinator.Job)
  | shutDown (m : Moment)

def pass (s : Server σ π κ) : Occurrence → Server σ π κ
  | .upgrade m u => (s.upgrade m u).1
  | .deliver n frames => s.deliver n frames
  | .hangUp n => s.hangUp n
  | .settle m => s.settle m
  | .upkeep m feed job => s.step m (Coordinator.perform s.lookup feed m.wall s.lastSeen · job)
  | .shutDown m => s.step m (·.shutDown)

def course (s : Server σ π κ) (xs : List Occurrence) : Server σ π κ := xs.foldl pass s

end Server

namespace Hall

section
variable {σ π κ : Type} [Client.Quantity κ] [ChatStore σ] [ProfileProvider π] {h : Hall σ π}
  {s : Server σ π κ}

theorem pass_runs (hs : Shows h s) (x : Server.Occurrence) : Reaches h (s.pass x) := by
  cases x with
  | upgrade m u => exact upgrade_runs hs m u
  | deliver n frames => exact (hs.deliver n frames).reaches
  | hangUp n => exact (hs.hangUp n).reaches
  | settle m => exact settle_runs m hs
  | upkeep m feed job => exact job_runs hs m feed m.wall s.lastSeen job
  | shutDown m => exact action_runs hs m (.regular (.ofAccount 0) "") (a := .shutDown) rfl rfl

theorem course_runs (hs : Shows h s) (xs : List Server.Occurrence) : Reaches h (s.course xs) := by
  induction xs generalizing h s with
  | nil => exact hs.reaches
  | cons x xs ih => exact (pass_runs hs x).next fun g hg => ih hg

omit [ProfileProvider π] in
theorem seedHistory_eq_ok {s t : Service σ π} {count : Nat}
    (h : (Service.seedHistory : Serving σ π Nat).run s = (.ok count, t)) :
    ∃ entries store, t = { s with coordinator := s.coordinator.seed entries, store } := by
  unfold Service.seedHistory at h
  rw [Service.run_bind, Service.run_get] at h
  obtain ⟨entries, u, hentries, hrest⟩ := Service.bind_eq_ok.1 h
  obtain ⟨store, -, rfl⟩ := Service.onStore_eq_ok.1 hentries
  rw [Service.run_bind, Service.run_onCoordinator] at hrest
  cases hrest
  exact ⟨entries, store, congrArg (fun es => { s with
    coordinator := s.coordinator.seed entries, store, effects := es }) (List.append_nil _)⟩

/-- A server that was just built is an open hall, but for what the chat is filled with. -/
theorem build_runs {config : Config} {store : σ} {profiles : π} {policy : Moderation.Policy}
    {authenticator : Server.Authenticator} {lookup : Lookup} {clock : Clock}
    (h : Server.build config store profiles policy authenticator lookup clock = .ok (.ok s)) :
    ∃ c, config.validated = .ok c ∧ Reaches (opened c store profiles) s := by
  unfold Server.build at h
  cases hc : config.validated with
  | error e =>
    rw [hc] at h
    cases h
  | ok c =>
    rw [hc] at h
    refine ⟨c, rfl, ?_⟩
    have hbuilt := Except.ok.inj h
    split at hbuilt
    · rename_i count service hseed
      cases hbuilt
      obtain ⟨entries, stored, rfl⟩ := seedHistory_eq_ok hseed
      refine ⟨[.outside stored profiles, .act (.regular (.ofAccount 0) "") (.seed entries)], ?_⟩
      exact ⟨⟨rfl, rfl, rfl⟩, (fun n stage hn => by cases hn), fun n hn => rfl, fun n hn => rfl⟩
    · cases hbuilt

omit [ChatStore σ] [ProfileProvider π] in
theorem exists_waiting_of_client (hattended : Attended h) (hs : Shows h s) {e : Session}
    (he : e ∈ s.service.coordinator.clients) :
    ∃ v w, s.served.get? e.connection = some v ∧ v.waiting = some w ∧
      v.client.session.profile = e.profile := by
  rw [← hs.houses.coordinator] at he
  obtain ⟨task, htask⟩ := hattended.served e he
  cases hget : s.served.get? e.connection with
  | none =>
    have hover := hs.idle e.connection (congrArg (Option.map Served.stage) hget)
    rw [htask] at hover
    cases hover
  | some v =>
    have hstage := hs.served e.connection v.stage (Server.stage?_of_get? hget)
    rw [htask] at hstage
    unfold Served.stage at hstage
    split at hstage
    · rename_i w hw
      exact ⟨v, w, rfl, hw, (Stage.serving.inj hstage).1.symm⟩
    · cases hstage

/-- **Registered clients are attended.**  Whatever happens to a server, every session that is
registered with it is over a connection whose handler has not returned.  So once all of them have,
nobody is registered and no lobby has a member. -/
theorem attended_course {config : Config} {store : σ} {profiles : π} {policy : Moderation.Policy}
    {authenticator : Server.Authenticator} {lookup : Lookup} {clock : Clock}
    (h : Server.build config store profiles policy authenticator lookup clock = .ok (.ok s))
    (xs : List Server.Occurrence) :
    let t := s.course xs
    let c := t.service.coordinator
    (∀ e ∈ c.clients, ∃ v w, t.served.get? e.connection = some v ∧ v.waiting = some w ∧
        v.client.session.profile = e.profile) ∧
      ((∀ v ∈ t.served, v.waiting = none) →
        c.clients = .empty ∧ ∀ l ∈ c.lobbies.lobbies, ∀ p, ¬ p ∈ l.members) := by
  intro t c
  obtain ⟨checked, -, hbuilt⟩ := build_runs h
  obtain ⟨turns, ht⟩ := hbuilt.next fun g hg => course_runs hg xs
  have hattended := attended_run checked store profiles turns
  have hwaiting : ∀ e ∈ c.clients, ∃ v w, t.served.get? e.connection = some v ∧
      v.waiting = some w ∧ v.client.session.profile = e.profile :=
    fun e he => exists_waiting_of_client hattended ht he
  have hpresent := hattended.present
  rw [ht.houses.coordinator] at hpresent
  refine ⟨hwaiting, fun hreturned => hpresent.vacant fun e he => ?_⟩
  obtain ⟨v, w, hv, hw, -⟩ := hwaiting e he
  rw [hreturned v (Ascending.get?_eq_some_iff.1 hv).1] at hw
  cases hw

end

end Hall

end Matchmaker
