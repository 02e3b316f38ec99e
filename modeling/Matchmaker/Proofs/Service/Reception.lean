import Matchmaker.Proofs.Service.House

/-!
# Reception

A player who connects is looked up first, and the session that is made of the profile is registered
later.  A moderator who changes a chat status changes the profile first, and the session is told
later.  Nothing holds both places, so anything may happen in between.

A `Ruling` is a change that is asked for.  It is heard, weighed and kept part by part, as the
service does it (`setChatStatus_eq`); a `Notice` is what a lookup or a change leaves to be done at
the coordinator.  A `Reception` has the rulings that have been asked for, with how far they have
come, and the notices, in the order in which the profiles were looked at or changed.  Every
interleaving of lookups, registrations, rulings and all else that happens to the coordinator is a
list of `Event`s, and a ruling that nothing interrupts is the call of the service
(`setChatStatus_runs`).
-/

namespace Matchmaker

open Chat (Log)
open Coordinator (Outcome)

/-! ## a change of status in parts -/

/-- a change of a chat status that is asked for -/
structure Ruling where
  actor : SteamId
  target : SteamId
  status : ChatStatus
  reason : String
  deriving DecidableEq, Repr

/-- what is left to be done at the coordinator by whoever was at the profiles -/
inductive Notice where
  /-- the player on a connection was looked up, and is to be registered -/
  | enter (n : Nat) (f : Profile)
  /-- the status of a player was changed, and the session is to be told -/
  | tell (p : SteamId) (status : ChatStatus) (reason : String)
  deriving DecidableEq, Repr

namespace Notice

def player : Notice → SteamId
  | enter _ f => f.steamId
  | tell p _ _ => p

/-- the status of the player when the notice was made -/
def status : Notice → ChatStatus
  | enter _ f => f.chatStatus
  | tell _ status _ => status

def outcome (c : Coordinator) : Notice → Outcome
  | enter n f => c.connect (.new n f)
  | tell p status reason => (c.updateChatStatus p status reason).1

end Notice

namespace Ruling

open Service (caller authorize onProfiles onCoordinator)

variable {σ π : Type} [ProfileProvider π]

/-- how far a ruling has come -/
inductive Stage where
  | asked
  /-- it is known who asks, and that it is not the target -/
  | heard (actor : Profile)
  | found (actor target : Profile)
  /-- it is allowed, and changes something -/
  | granted (target : Profile)
  /-- the profiles have been changed, or it was refused -/
  | ended (result : Except QueueError Unit)
  deriving DecidableEq

def hear (r : Ruling) : Serving σ π Profile := do
  unless r.target.isValid do throw (.badInput ("invalid steam id " ++ r.target.text))
  let actor ← caller r.actor
  if actor.steamId == r.target then throw .permissionDenied
  return actor

def find (r : Ruling) : Serving σ π Profile := onProfiles (ProfileProvider.profile · r.target)

omit [ProfileProvider π] in
def weigh (r : Ruling) (actor target : Profile) : Serving σ π Unit := do
  authorize actor (.setChatStatus target r.status)
  if target.chatStatus == r.status then
    throw (.duplicate (target.steamId.text ++ " already has status " ++ r.status.name))

def keep (r : Ruling) (target : Profile) : Serving σ π Unit :=
  onProfiles (ProfileProvider.setChatStatus · target.steamId r.status)

def notice (r : Ruling) (target : Profile) : Notice := .tell target.steamId r.status r.reason

/-- one part of a ruling, and what is left to be done when the profiles have been changed -/
def part (r : Ruling) : Stage → Serving σ π (Stage × List Notice)
  | .asked => do
    let actor ← r.hear
    return (.heard actor, [])
  | .heard actor => do
    let target ← r.find
    return (.found actor target, [])
  | .found actor target => do
    r.weigh actor target
    return (.granted target, [])
  | .granted target => do
    r.keep target
    return (.ended (.ok ()), [r.notice target])
  | .ended result => return (.ended result, [])

/-- the parts one after the other, and then what is left to be done -/
def inParts (r : Ruling) : Serving σ π Unit := do
  let actor ← r.hear
  let target ← r.find
  r.weigh actor target
  r.keep target
  onCoordinator fun c => ((r.notice target).outcome c, ())

omit [ProfileProvider π] in
theorem throw_bind {α β : Type} (e : QueueError) (f : α → Serving σ π β) :
    (throw e : Serving σ π α) >>= f = throw e := rfl

/-- **The call of the service is its parts**, one after the other. -/
theorem setChatStatus_eq (r : Ruling) :
    (Service.setChatStatus r.actor r.target r.status r.reason : Serving σ π Unit) = r.inParts := by
  unfold Service.setChatStatus inParts hear find weigh keep notice
  simp only [bind_assoc]
  by_cases hvalid : r.target.isValid = true
  · rw [if_pos hvalid, if_pos hvalid, bind_assoc]
    refine bind_congr fun actor => ?_
    by_cases hself : (actor.steamId == r.target) = true
    · rw [if_pos hself, if_pos hself, bind_assoc, throw_bind, throw_bind]
    · rw [if_neg hself, if_neg hself, pure_bind]
      refine bind_congr fun target => bind_congr fun _ => ?_
      by_cases hsame : (target.chatStatus == r.status) = true
      · rw [if_pos hsame, if_pos hsame, throw_bind, throw_bind]
      · rw [if_neg hsame, if_neg hsame, pure_bind]
        rfl
  · rw [if_neg hvalid, if_neg hvalid, bind_assoc, throw_bind, throw_bind]

theorem run_keep_bind {β : Type} (r : Ruling) (target : Profile)
    (f : Unit → Serving (WithOutages Log) π β) (s : Service.InMemory π) :
    (r.keep target >>= f).run s =
      match ProfileProvider.setChatStatus s.profiles target.steamId r.status with
      | .ok x => (f ()).run { s with profiles := x.2 }
      | .error e => (.error (.collaborator e), s) := by
  unfold keep
  rw [Service.run_bind, Service.run_onProfiles]
  cases ProfileProvider.setChatStatus s.profiles target.steamId r.status <;> rfl

end Ruling

/-! ## parts of several calls between one another -/

structure Reception where
  house : House ProfileTable
  /-- what has been asked for, and how far it has come -/
  rulings : List (Ruling × Ruling.Stage)
  /-- in the order in which the profiles were looked at or changed -/
  notices : List Notice
  /-- the notices that are done, in the order in which they were -/
  done : List Nat

namespace Reception

/-- what happens without being interrupted -/
inductive Event where
  /-- the player on a new connection is looked up -/
  | arrive (n : Nat)
  | ask (ruling : Ruling)
  /-- the next part of a ruling -/
  | advance (k : Nat)
  /-- a notice is done, unless it has been -/
  | finish (i : Nat)
  /-- anything else that happens to the coordinator -/
  | act (a : Action)

def opened (config : Config) (store : WithOutages Log) (profiles : ProfileTable)
    (policy : Moderation.Policy) : Reception :=
  ⟨.opened config store profiles policy, [], [], []⟩

def service (r : Reception) : Service.InMemory ProfileTable := r.house.service

def coordinator (r : Reception) : Coordinator := r.house.service.coordinator

def profiles (r : Reception) : ProfileTable := r.house.service.profiles

/-- a player was looked up -/
def received (owner : Nat → Profile) (r : Reception) (n : Nat) : Reception :=
  let (f, profiles) := r.profiles.profile (owner n).steamId
  { r with
    house := { r.house with service := { r.service with profiles } }
    notices := r.notices ++ [.enter n f] }

/-- a part of a ruling was done, or has failed -/
def advanced (r : Reception) (k : Nat) (ruling : Ruling) (stage : Ruling.Stage) : Reception :=
  match (ruling.part stage).run r.service with
  | (.ok (stage, xs), service) =>
    ⟨{ r.house with service }, r.rulings.set k (ruling, stage), r.notices ++ xs, r.done⟩
  | (.error e, service) =>
    ⟨{ r.house with service }, r.rulings.set k (ruling, .ended (.error e)), r.notices, r.done⟩

def finished (r : Reception) (i : Nat) (x : Notice) : Reception :=
  { r with house := r.house.stepped (x.outcome r.coordinator), done := r.done ++ [i] }

def next (owner : Nat → Profile) (r : Reception) : Event → Reception
  | .arrive n => r.received owner n
  | .ask ruling => { r with rulings := r.rulings ++ [(ruling, .asked)] }
  | .advance k =>
    match r.rulings[k]? with
    | some (ruling, stage) => r.advanced k ruling stage
    | none => r
  | .finish i =>
    match r.notices[i]? with
    | some x => if i ∈ r.done then r else r.finished i x
    | none => r
  | .act a => { r with house := r.house.next owner (.act a) }

def run (owner : Nat → Profile) (r : Reception) (events : List Event) : Reception :=
  events.foldl (next owner) r

theorem run_induction {owner : Nat → Profile} {P : Reception → Prop}
    (step : ∀ r e, P r → P (r.next owner e)) {r : Reception} (h : P r) (events : List Event) :
    P (r.run owner events) := by
  induction events generalizing r with
  | nil => exact h
  | cons e events ih => exact ih (step r e h)

/-- nobody is between the profiles and the coordinator, and no ruling is on its way -/
def Quiet (r : Reception) : Prop :=
  (∀ x ∈ r.rulings, ∃ result, x.2 = .ended result) ∧ ∀ i < r.notices.length, i ∈ r.done

/-! ## a ruling that nothing interrupts -/

section
variable (owner : Nat → Profile) {r : Reception} {k : Nat} {ruling : Ruling}
  {stage : Ruling.Stage}

theorem next_advance (h : r.rulings[k]? = some (ruling, stage)) :
    r.next owner (.advance k) = r.advanced k ruling stage := by
  show (match r.rulings[k]? with
    | some (ruling, stage) => r.advanced k ruling stage
    | none => r) = _
  rw [h]

theorem next_advance_of_none (h : r.rulings[k]? = none) : r.next owner (.advance k) = r := by
  show (match r.rulings[k]? with
    | some (ruling, stage) => r.advanced k ruling stage
    | none => r) = r
  rw [h]

theorem advanced_of_ok {after : Ruling.Stage} {xs : List Notice}
    {service : Service.InMemory ProfileTable}
    (h : (ruling.part stage).run r.service = (.ok (after, xs), service)) :
    r.advanced k ruling stage =
      ⟨{ r.house with service }, r.rulings.set k (ruling, after), r.notices ++ xs, r.done⟩ := by
  unfold advanced
  rw [h]

theorem advanced_of_error {e : QueueError} {service : Service.InMemory ProfileTable}
    (h : (ruling.part stage).run r.service = (.error e, service)) :
    r.advanced k ruling stage =
      ⟨{ r.house with service }, r.rulings.set k (ruling, .ended (.error e)), r.notices, r.done⟩ := by
  unfold advanced
  rw [h]

theorem next_advance_of_ended {result : Except QueueError Unit}
    (h : r.rulings[k]? = some (ruling, .ended result)) : r.next owner (.advance k) = r := by
  obtain ⟨hk, hget⟩ := List.getElem?_eq_some_iff.1 h
  rw [next_advance owner h]
  show Reception.mk r.house (r.rulings.set k (ruling, .ended result)) (r.notices ++ []) r.done = r
  rw [List.append_nil, ← hget, List.set_getElem_self]

theorem next_finish_of_none {i : Nat} (h : r.notices[i]? = none) :
    r.next owner (.finish i) = r := by
  show (match r.notices[i]? with
    | some x => if i ∈ r.done then r else r.finished i x
    | none => r) = r
  rw [h]

theorem next_finish {i : Nat} {x : Notice} (h : r.notices[i]? = some x) (hdone : i ∉ r.done) :
    r.next owner (.finish i) = r.finished i x := by
  show (match r.notices[i]? with
    | some x => if i ∈ r.done then r else r.finished i x
    | none => r) = _
  rw [h]
  exact if_neg hdone

theorem next_finish_of_done {i : Nat} (hdone : i ∈ r.done) : r.next owner (.finish i) = r := by
  show (match r.notices[i]? with
    | some x => if i ∈ r.done then r else r.finished i x
    | none => r) = r
  cases r.notices[i]? with
  | none => rfl
  | some x => exact if_pos hdone

/-- so many parts, and then the notice that comes of them -/
def remaining (r : Reception) (k parts : Nat) : List Event :=
  List.replicate parts (.advance k) ++ [.finish r.notices.length]

theorem run_remaining_of_ended {result : Except QueueError Unit}
    (h : r.rulings[k]? = some (ruling, .ended result)) (parts : Nat) :
    r.run owner (r.remaining k parts) = r := by
  induction parts with
  | zero => exact next_finish_of_none owner (List.getElem?_eq_none (Nat.le_refl _))
  | succ parts ih =>
    show (r.next owner (.advance k)).run owner (r.remaining k parts) = r
    rw [next_advance_of_ended owner h]
    exact ih

/-- the events that remain do what the rest of the call does -/
structure Runs (r : Reception) (k : Nat) (ruling : Ruling) (parts : Nat)
    (m : Serving (WithOutages Log) ProfileTable Unit) : Prop where
  service : (r.run owner (r.remaining k parts)).service = Service.after m r.service
  rulings : (r.run owner (r.remaining k parts)).rulings =
    r.rulings.set k (ruling, .ended (m.run r.service).1)

variable {owner}

theorem runs_of_eq {parts : Nat} {m : Serving (WithOutages Log) ProfileTable Unit} {u : Reception}
    {result : Except QueueError Unit} (hlast : r.run owner (r.remaining k parts) = u)
    (hcall : m.run r.service = (result, u.service))
    (hrulings : u.rulings = r.rulings.set k (ruling, .ended result)) :
    Runs owner r k ruling parts m := by
  constructor
  · rw [hlast]
    unfold Service.after
    rw [hcall]
  · rw [hlast, hcall, hrulings]

/-- A part that leaves nothing to be done comes before the rest. -/
theorem runs_bind {α : Type} {m : Serving (WithOutages Log) ProfileTable α}
    {after : α → Ruling.Stage} {f : α → Serving (WithOutages Log) ProfileTable Unit} {parts : Nat}
    (hstage : r.rulings[k]? = some (ruling, stage))
    (hpart : ruling.part stage = do let a ← m; return (after a, []))
    (hdone : ∀ i ∈ r.done, i < r.notices.length)
    (hf : ∀ a u, u.rulings[k]? = some (ruling, after a) → (∀ i ∈ u.done, i < u.notices.length) →
      Runs owner u k ruling parts (f a)) :
    Runs owner r k ruling (parts + 1) (m >>= f) := by
  have hk : k < r.rulings.length := (List.getElem?_eq_some_iff.1 hstage).1
  have hfirst : r.run owner (r.remaining k (parts + 1)) =
      (r.advanced k ruling stage).run owner (r.remaining k parts) := by
    rw [← next_advance owner hstage]
    rfl
  have hpartrun := congrArg (fun p => p.run r.service) hpart
  rw [Service.run_bind] at hpartrun
  have hwhole := Service.run_bind m f r.service
  cases hrun : m.run r.service with
  | mk result t =>
    rw [hrun] at hpartrun hwhole
    cases result with
    | error e =>
      -- the ruling is refused, and the parts that are left do nothing
      let u : Reception :=
        ⟨{ r.house with service := t }, r.rulings.set k (ruling, .ended (.error e)), r.notices, r.done⟩
      have hlast : r.run owner (r.remaining k (parts + 1)) = u := by
        rw [hfirst, advanced_of_error hpartrun]
        exact run_remaining_of_ended owner (List.getElem?_set_self hk) parts
      exact runs_of_eq hlast hwhole rfl
    | ok a =>
      let u : Reception :=
        ⟨{ r.house with service := t }, r.rulings.set k (ruling, after a), r.notices ++ [], r.done⟩
      have hsame : u.notices = r.notices := List.append_nil _
      have hlater : Runs owner u k ruling parts (f a) :=
        hf a u (List.getElem?_set_self hk) (hsame.symm ▸ hdone)
      have hlast : r.run owner (r.remaining k (parts + 1)) = u.run owner (u.remaining k parts) := by
        rw [hfirst, advanced_of_ok hpartrun]
        unfold remaining
        rw [hsame]
      refine runs_of_eq hlast (hwhole.trans (Prod.ext rfl hlater.service.symm)) ?_
      exact hlater.rulings.trans (List.set_set ..)

theorem runs_keep {target : Profile} (hstage : r.rulings[k]? = some (ruling, .granted target))
    (hdone : ∀ i ∈ r.done, i < r.notices.length) :
    Runs owner r k ruling 1 (do
      ruling.keep target
      Service.onCoordinator fun c => ((ruling.notice target).outcome c, ())) := by
  have hfirst : r.run owner (r.remaining k 1) =
      (r.advanced k ruling (.granted target)).next owner (.finish r.notices.length) := by
    rw [← next_advance owner hstage]
    rfl
  have hpart : (ruling.part (.granted target)).run r.service = _ :=
    ruling.run_keep_bind target _ r.service
  have hwhole := ruling.run_keep_bind target
    (fun _ => Service.onCoordinator fun c => ((ruling.notice target).outcome c, ())) r.service
  cases hcall : ProfileProvider.setChatStatus r.service.profiles target.steamId ruling.status with
  | error e =>
    rw [hcall] at hpart hwhole
    let u : Reception := ⟨r.house, r.rulings.set k (ruling, .ended (.error (.collaborator e))),
      r.notices, r.done⟩
    have hlast : r.run owner (r.remaining k 1) = u := by
      rw [hfirst, advanced_of_error hpart]
      exact next_finish_of_none owner (List.getElem?_eq_none (Nat.le_refl r.notices.length))
    exact runs_of_eq hlast hwhole rfl
  | ok x =>
    rw [hcall] at hpart hwhole
    let u : Reception := ⟨{ r.house with service := { r.service with profiles := x.2 } },
      r.rulings.set k (ruling, .ended (.ok ())), r.notices ++ [ruling.notice target], r.done⟩
    have hnotice : u.notices[r.notices.length]? = some (ruling.notice target) :=
      List.getElem?_concat_length
    have hlast : r.run owner (r.remaining k 1) =
        u.finished r.notices.length (ruling.notice target) := by
      rw [hfirst, advanced_of_ok hpart]
      exact next_finish owner hnotice fun hmem => Nat.lt_irrefl _ (hdone _ hmem)
    exact runs_of_eq hlast hwhole rfl

/-- **A ruling that nothing interrupts is the call of the service.** -/
theorem setChatStatus_runs (owner : Nat → Profile) (r : Reception)
    (hdone : ∀ i ∈ r.done, i < r.notices.length) (ruling : Ruling) :
    let call : Serving (WithOutages Log) ProfileTable Unit :=
      Service.setChatStatus ruling.actor ruling.target ruling.status ruling.reason
    let u := r.run owner (.ask ruling :: r.remaining r.rulings.length 4)
    u.service = Service.after call r.service ∧
      u.rulings = r.rulings ++ [(ruling, .ended (call.run r.service).1)] := by
  intro call u
  let asked : Reception := { r with rulings := r.rulings ++ [(ruling, .asked)] }
  have hcall : call = ruling.inParts := ruling.setChatStatus_eq
  have hruns : Runs owner asked r.rulings.length ruling 4 call := by
    rw [hcall]
    refine runs_bind (List.getElem?_concat_length ..) rfl hdone fun actor v hv hvdone => ?_
    refine runs_bind hv rfl hvdone fun target v hv hvdone => ?_
    refine runs_bind hv rfl hvdone fun _ v hv hvdone => ?_
    exact runs_keep hv hvdone
  refine ⟨hruns.service, hruns.rulings.trans ?_⟩
  show (r.rulings ++ [(ruling, Ruling.Stage.asked)]).set r.rulings.length _ = _
  rw [List.set_append_right _ _ (Nat.le_refl _), Nat.sub_self]
  rfl

end

end Reception
end Matchmaker
