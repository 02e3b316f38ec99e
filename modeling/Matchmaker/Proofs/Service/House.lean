import Matchmaker.Proofs.Coordinator.SessionTable
import Matchmaker.Proofs.Service.Standing

/-!
# A service and its sessions

A `House` is a service together with all that happens to its coordinator: players arrive and are
looked up, their sessions are registered, replaced and taken out, and calls of the service come in
between.  Each of these is an `Occasion`.

What an occasion can do to sessions and to what is kept is one of three things (`turn_next`): a
session is made, with the status that is kept; a granted request changes the status of a player,
both the one that is kept and that of the registered session; or every session and every player
keeps its status, wherever the session is.
-/

namespace Matchmaker

open Chat (Log)
open Coordinator (Outcome Pass)

/-! ## actions that leave statuses alone -/

/-- makes a session with a status, or changes the status of one -/
def Action.givesStatus : Action → Bool
  | .introduce _ _ => true
  | .connect _ _ => true
  | .updateChatStatus _ _ _ => true
  | _ => false

namespace World
variable {owner : Nat → Profile} {w : World} {a : Action}

/-- Sessions that go, or that have nothing to do with the action, stay as they are. -/
theorem session?_outcome (hw : w.coordinator.Placed owner) (ha : a.givesStatus = false) :
    (w.outcome owner a).state.Placed owner ∧
      ∀ n, (w.outcome owner a).state.session? n = w.coordinator.session? n := by
  cases hsession : a.isSession with
  | false =>
    obtain ⟨hclients, haside⟩ := sessions_outcome owner w hsession
    exact ⟨hw.congr hclients haside, Coordinator.session?_congr hclients haside⟩
  | true =>
    cases a with
    | introduce n status => cases ha
    | connect n status => cases ha
    | updateChatStatus p status reason => cases ha
    | disconnect n => exact ⟨hw.disconnect _ n, hw.session?_disconnect _ n⟩
    | evict now lastSeen =>
      exact ⟨hw.removeEach (w.coordinator.idle now lastSeen), hw.session?_removeEach _⟩
    | _ => cases hsession

end World

/-! ## occasions -/

/-- a service and the passes of its coordinator -/
structure House (π : Type) where
  service : Service.InMemory π
  passes : List Pass

/-- what happens to a house without being interrupted -/
inductive Occasion (π : Type) [ProfileProvider π] [LawfulProfiles π] where
  /-- the player on a new connection is looked up and gets a session -/
  | arrive (n : Nat)
  /-- the session of a connection is registered -/
  | enter (n : Nat)
  | request (r : Service.Request)
  /-- from now on these calls of the store fail, and no others -/
  | outages (down : List Call)
  /-- the profile service changes, but no player's status does -/
  | profiles (change : π → π) (h : ∀ s, Service.SameStanding s (change s))
  /-- anything else that happens to the coordinator -/
  | act (a : Action)

namespace House
variable {π : Type} [ProfileProvider π] [LawfulProfiles π] {owner : Nat → Profile} {h : House π}

def opened (config : Config) (store : WithOutages Log) (profiles : π)
    (policy : Moderation.Policy) : House π :=
  ⟨.new config store profiles policy, []⟩

def coordinator (h : House π) : Coordinator := h.service.coordinator

def world (h : House π) : World := ⟨h.coordinator, h.passes⟩

/-- the session that whoever serves a connection has in hand -/
def session? (h : House π) (n : Nat) : Option Session := h.coordinator.session? n

def stepped (h : House π) (o : Outcome) : House π :=
  { h with
    service := { h.service with coordinator := o.state, effects := h.service.effects ++ o.effects } }

def received (owner : Nat → Profile) (h : House π) (n : Nat) : House π :=
  match ProfileProvider.profile h.service.profiles (owner n).steamId with
  | .ok (f, profiles) =>
    { h with
      service := { h.service with profiles, coordinator := h.coordinator.introduce (.new n f) } }
  | .error _ => h

def next (owner : Nat → Profile) (h : House π) : Occasion π → House π
  | .arrive n => if (h.session? n).isNone then h.received owner n else h
  | .enter n =>
    match h.session? n with
    | some x => h.stepped (h.coordinator.connect x)
    | none => h
  | .request r => { h with service := Service.perform h.service r }
  | .outages down => { h with service := { h.service with store := { h.service.store with down } } }
  | .profiles change _ => { h with service := { h.service with profiles := change h.service.profiles } }
  | .act a =>
    if a.givesStatus then h
    else { h.stepped (h.world.outcome owner a) with passes := h.world.passesAfter a }

def run (owner : Nat → Profile) (h : House π) (es : List (Occasion π)) : House π :=
  es.foldl (next owner) h

theorem run_append (owner : Nat → Profile) (h : House π) (es fs : List (Occasion π)) :
    h.run owner (es ++ fs) = (h.run owner es).run owner fs := List.foldl_append

theorem run_concat (owner : Nat → Profile) (h : House π) (es : List (Occasion π))
    (e : Occasion π) : h.run owner (es ++ [e]) = (h.run owner es).next owner e :=
  run_append owner h es [e]

/-- something happens in a run -/
def Happens (owner : Nat → Profile) (h : House π) (φ : House π → Occasion π → Prop)
    (es : List (Occasion π)) : Prop :=
  ∃ before e after, es = before ++ e :: after ∧ φ (h.run owner before) e

theorem not_happens_nil {φ : House π → Occasion π → Prop} : ¬ Happens owner h φ [] := by
  rintro ⟨before, e, after, hsplit, -⟩
  exact absurd hsplit.symm (List.append_ne_nil_of_right_ne_nil _ (List.cons_ne_nil e after))

theorem happens_cons {φ : House π → Occasion π → Prop} {es : List (Occasion π)} {e : Occasion π} :
    Happens owner h φ (e :: es) ↔ φ h e ∨ Happens owner (h.next owner e) φ es := by
  constructor
  · rintro ⟨before, f, after, hsplit, hφ⟩
    cases before with
    | nil =>
      cases hsplit
      exact .inl hφ
    | cons g before =>
      cases hsplit
      exact .inr ⟨before, f, after, rfl, hφ⟩
  · rintro (hφ | ⟨before, f, after, rfl, hφ⟩)
    · exact ⟨[], e, es, rfl, hφ⟩
    · exact ⟨e :: before, f, after, rfl, hφ⟩

theorem happens_concat {φ : House π → Occasion π → Prop} {es : List (Occasion π)}
    {e : Occasion π} :
    Happens owner h φ (es ++ [e]) ↔ Happens owner h φ es ∨ φ (h.run owner es) e := by
  induction es generalizing h with
  | nil =>
    rw [List.nil_append, happens_cons, or_comm]
    exact or_congr_left ⟨fun hnil => absurd hnil not_happens_nil, fun hnil => absurd hnil not_happens_nil⟩
  | cons f es ih =>
    rw [List.cons_append, happens_cons, ih, happens_cons, or_assoc]
    rfl

/-! ## one occasion -/

/-- the player whose status an occasion changes, and to what -/
def ruling? (h : House π) : Occasion π → Option (SteamId × ChatStatus)
  | .request r => h.service.ruling? r
  | _ => none

/-- what an occasion makes of sessions and of what is kept -/
inductive Turn (owner : Nat → Profile) (h : House π) (e : Occasion π) (u : House π) : Prop where
  /-- there is a session that was not there before -/
  | makes (x : Session) (hnew : h.session? x.connection = none)
      (hplayer : x.steamId = (owner x.connection).steamId)
      (hstatus : x.chatStatus = h.service.standing x.steamId)
      (hintroduce : u.coordinator = h.coordinator.introduce x)
      (hkept : ∀ q, u.service.standing q = h.service.standing q) (hruling : h.ruling? e = none)
  | rules (p : SteamId) (status : ChatStatus) (reason : String)
      (hruling : h.ruling? e = some (p, status))
      (hchanges : Service.Changes p status reason h.service u.service)
  | leaves (hplaced : u.coordinator.Placed owner) (hsessions : ∀ n, u.session? n = h.session? n)
      (hkept : ∀ q, u.service.standing q = h.service.standing q) (hruling : h.ruling? e = none)

theorem turn_same (hplaced : h.coordinator.Placed owner) {e : Occasion π}
    (hruling : h.ruling? e = none) : Turn owner h e h :=
  .leaves hplaced (fun _ => rfl) (fun _ => rfl) hruling

theorem turn_arrive (hplaced : h.coordinator.Placed owner) (n : Nat) :
    Turn owner h (.arrive n) (h.next owner (.arrive n)) := by
  show Turn owner h (.arrive n) (if (h.session? n).isNone then h.received owner n else h)
  split
  · rename_i hnone
    unfold received
    split
    · rename_i f profiles hlookup
      obtain ⟨hplayer, hstatus, hkept⟩ := LawfulProfiles.profile hlookup
      refine .makes (.new n f) (Option.isNone_iff_eq_none.1 hnone) hplayer ?_ rfl hkept rfl
      show f.chatStatus = LawfulProfiles.standing h.service.profiles f.steamId
      rw [hplayer]
      exact hstatus
    · exact turn_same hplaced rfl
  · exact turn_same hplaced rfl

theorem turn_enter (hplaced : h.coordinator.Placed owner) (n : Nat) :
    Turn owner h (.enter n) (h.next owner (.enter n)) := by
  show Turn owner h (.enter n) (match h.session? n with
    | some x => h.stepped (h.coordinator.connect x)
    | none => h)
  cases hx : h.session? n with
  | none => exact turn_same hplaced rfl
  | some x =>
    obtain ⟨rfl, -⟩ := hplaced.session?_eq_some hx
    exact .leaves (hplaced.connect (hplaced.player hx)) (hplaced.session?_connect hx)
      (fun _ => rfl) rfl

theorem turn_request (hplaced : h.coordinator.Placed owner) (r : Service.Request) :
    Turn owner h (.request r) (h.next owner (.request r)) := by
  rcases h.service.perform_cases r with ⟨p, status, reason, hruling, hchanges⟩ | ⟨hruling, hspares⟩
  · exact .rules p status reason hruling hchanges
  · exact .leaves (hplaced.congr hspares.clients hspares.aside)
      (Coordinator.session?_congr hspares.clients hspares.aside) hspares.standing hruling

theorem turn_act (hplaced : h.coordinator.Placed owner) (a : Action) :
    Turn owner h (.act a) (h.next owner (.act a)) := by
  show Turn owner h (.act a) (if a.givesStatus then h
    else { h.stepped (h.world.outcome owner a) with passes := h.world.passesAfter a })
  cases ha : a.givesStatus with
  | true => exact turn_same hplaced rfl
  | false =>
    obtain ⟨hafter, hsessions⟩ := World.session?_outcome (w := h.world) hplaced ha
    exact .leaves hafter hsessions (fun _ => rfl) rfl

theorem turn_next (hplaced : h.coordinator.Placed owner) (e : Occasion π) :
    Turn owner h e (h.next owner e) := by
  cases e with
  | arrive n => exact turn_arrive hplaced n
  | enter n => exact turn_enter hplaced n
  | request r => exact turn_request hplaced r
  | outages down => exact .leaves hplaced (fun _ => rfl) (fun _ => rfl) rfl
  | profiles change hchange =>
    exact .leaves hplaced (fun _ => rfl) (hchange h.service.profiles) rfl
  | act a => exact turn_act hplaced a

theorem placed_next (hplaced : h.coordinator.Placed owner) (e : Occasion π) :
    (h.next owner e).coordinator.Placed owner := by
  have hturn := turn_next hplaced e
  generalize h.next owner e = u at hturn
  cases hturn with
  | makes x hnew hplayer hstatus hintroduce hkept hruling =>
    rw [hintroduce]
    exact hplaced.introduce hplayer
  | rules p status reason hruling hchanges =>
    show u.service.coordinator.Placed owner
    rw [hchanges.coordinator]
    exact hplaced.updateChatStatus p status reason
  | leaves hafter hsessions hkept hruling => exact hafter

theorem placed_run (config : Config) (store : WithOutages Log) (profiles : π)
    (policy : Moderation.Policy) (owner : Nat → Profile) (es : List (Occasion π)) :
    ((opened config store profiles policy).run owner es).coordinator.Placed owner := by
  induction es using List.reverseRecOn with
  | nil => exact Coordinator.placed_new config owner
  | append_singleton es e ih =>
    rw [run_concat]
    exact placed_next ih e

end House

/-! ## a small house

One player is a moderator, and one is not known yet who comes over every connection. -/

namespace Sample

def moderator : Profile := ⟨.ofAccount 1, "moderator", "", Profile.moderatorLevel, .readwrite⟩

def guest (_ : Nat) : Profile := ProfileTable.newcomer (.ofAccount 2)

def staff : ProfileTable := ProfileTable.empty.insert moderator

end Sample

end Matchmaker
