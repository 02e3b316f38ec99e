import Matchmaker.Proofs.Client.Outbound
import Matchmaker.Proofs.Coordinator.Endpoints
import Matchmaker.Proofs.Coordinator.Updates
import Matchmaker.Proofs.Run.Match

/-!
# Runs with clients

A run is about a coordinator, to which connections are out of reach.  A `Venue` has the clients on
these connections as well: what an action asks of them takes place, and between two actions writers
take their turns, connections fail, and clients are closed.  All of these are `Turn`s, and every
interleaving is a list of them.

The coordinator of a venue is one of a run (`world_run`), so what holds in every run holds here.
Clients are made before they are connected and stay for good, so every registered session has one
(`attended_run`), whatever state it is in.
-/

namespace Matchmaker

open Coordinator (Outcome)

namespace Client
variable {κ : Type}

/-- The writer takes a turn, if it has anything to do. -/
def write (x : Client κ) (now : Nat) : Client κ :=
  { x with outbound := (x.outbound.turn? now).getD x.outbound }

/-- From now on writes or pings fail, or work again. -/
def fail (x : Client κ) (writeFails pingFails : Bool) : Client κ :=
  let link := { x.outbound.link with writeFails, pingFails }
  { x with outbound := { x.outbound with link } }

end Client

/-- a coordinator and the clients on its connections -/
structure Venue (κ : Type) [Client.Quantity κ] where
  world : World
  clients : Endpoints (Client κ)

/-- what happens without being interrupted -/
inductive Turn where
  /-- a client is made, for a connection that has none -/
  | arrive (connection : Nat) (settings : Client.Settings)
  | act (a : Action)
  /-- the writer of a client takes its turn -/
  | write (connection : Nat)
  /-- from now on writes or pings of a connection fail, or work again -/
  | fail (connection : Nat) (writeFails pingFails : Bool)
  | close (connection : Nat)

namespace Venue
variable {κ : Type} [Client.Quantity κ]

def opened (config : Config) : Venue κ := ⟨.start config, .empty⟩

/-- only clients can be connected -/
def admits (v : Venue κ) : Action → Bool
  | .connect n _ => v.clients.hasKey n
  | _ => true

/-- A turn is taken at `now`. -/
def next (owner : Nat → Profile) (v : Venue κ) (now : Nat) : Turn → Venue κ
  | .arrive n settings =>
    if v.clients.hasKey n then v
    else { v with clients := v.clients.insert (.new n (owner n) settings now now) }
  | .act a =>
    if v.admits a then
      ⟨v.world.next owner a, v.clients.applyAll now (v.world.outcome owner a).effects⟩
    else v
  | .write n => { v with clients := v.clients.on n (·.write now) fun _ => rfl }
  | .fail n writeFails pingFails =>
    { v with clients := v.clients.on n (·.fail writeFails pingFails) fun _ => rfl }
  | .close n => { v with clients := v.clients.on n Endpoint.close Endpoint.connection_close }

def run (owner : Nat → Profile) (v : Venue κ) (turns : List (Nat × Turn)) : Venue κ :=
  turns.foldl (fun v t => v.next owner t.1 t.2) v

variable {owner : Nat → Profile} {v : Venue κ} {now : Nat} {t : Turn}

theorem next_arrive {n : Nat} {settings : Client.Settings} (h : ¬ v.clients.hasKey n = true) :
    v.next owner now (.arrive n settings) =
      { v with clients := v.clients.insert (.new n (owner n) settings now now) } := if_neg h

theorem next_act {a : Action} (h : v.admits a = true) :
    v.next owner now (.act a) =
      ⟨v.world.next owner a, v.clients.applyAll now (v.world.outcome owner a).effects⟩ := if_pos h

theorem run_induction {P : Venue κ → Prop} (step : ∀ v now t, P v → P (v.next owner now t))
    (h : P v) (turns : List (Nat × Turn)) : P (v.run owner turns) := by
  induction turns generalizing v with
  | nil => exact h
  | cons t turns ih => exact ih (step v t.1 t.2 h)

/-! ## the coordinator of a venue -/

/-- A turn is an action of the coordinator, or leaves it alone. -/
theorem world_next (owner : Nat → Profile) (v : Venue κ) (now : Nat) (t : Turn) :
    (v.next owner now t).world = v.world ∨
      ∃ a, v.admits a = true ∧ (v.next owner now t).world = v.world.next owner a := by
  cases t with
  | arrive n settings =>
    by_cases h : v.clients.hasKey n = true
    · exact .inl (congrArg world (if_pos h))
    · rw [next_arrive h]
      exact .inl rfl
  | act a =>
    by_cases h : v.admits a = true
    · rw [next_act h]
      exact .inr ⟨a, h, rfl⟩
    · exact .inl (congrArg world (if_neg h))
  | _ => exact .inl rfl

theorem world_run (config : Config) (owner : Nat → Profile) (turns : List (Nat × Turn)) :
    ∃ as, ((opened config).run owner turns : Venue κ).world = (World.start config).run owner as := by
  refine run_induction (P := fun v => ∃ as, v.world = (World.start config).run owner as) ?_
    ⟨[], rfl⟩ turns
  rintro v now t ⟨as, has⟩
  rcases world_next owner v now t with hsame | ⟨a, -, hnext⟩
  · exact ⟨as, hsame.trans has⟩
  · refine ⟨as ++ [a], ?_⟩
    rw [hnext, has, World.run_append, World.run_singleton]

/-! ## clients stay -/

/-- there is a client on this connection -/
def Has (v : Venue κ) (n : Nat) : Prop := ∃ x, v.clients.get? n = some x

theorem has_iff_hasKey {n : Nat} : v.Has n ↔ v.clients.hasKey n = true := by
  rw [Ascending.hasKey_eq_isSome, Option.isSome_iff_exists]
  rfl

theorem has_next {n : Nat} (h : v.Has n) : (v.next owner now t).Has n := by
  obtain ⟨x, hx⟩ := h
  have hon : ∀ (m : Nat) (f : Client κ → Client κ)
      (hf : ∀ y, Endpoint.connection (f y) = Endpoint.connection y),
      ∃ y, (v.clients.on m f hf).get? n = some y := by
    intro m f hf
    rw [Endpoints.get?_on, hx]
    exact ⟨_, rfl⟩
  cases t with
  | arrive m settings =>
    by_cases hm : v.clients.hasKey m = true
    · rw [show v.next owner now (.arrive m settings) = v from if_pos hm]
      exact ⟨x, hx⟩
    · rw [next_arrive hm]
      show ∃ y, (v.clients.insert _).get? n = some y
      rw [Ascending.get?_insert]
      split
      · exact ⟨_, rfl⟩
      · exact ⟨x, hx⟩
  | act a =>
    by_cases ha : v.admits a = true
    · rw [next_act ha]
      show ∃ y, (v.clients.applyAll now _).get? n = some y
      rw [Endpoints.get?_applyAll, hx]
      exact ⟨_, rfl⟩
    · rw [show v.next owner now (.act a) = v from if_neg ha]
      exact ⟨x, hx⟩
  | write m => exact hon m (·.write now) fun _ => rfl
  | fail m writeFails pingFails => exact hon m (·.fail writeFails pingFails) fun _ => rfl
  | close m => exact hon m _ Endpoint.connection_close

/-- every registered session has a client -/
def Attended (v : Venue κ) : Prop := ∀ e ∈ v.world.coordinator.clients, v.Has e.connection

end Venue

/-- Sessions come by connecting. -/
theorem World.Change.connection {owner : Nat → Profile} {w : World} {a : Action} {o : Outcome}
    (h : Change owner w a o) {e : Session} (he : e ∈ o.state.clients) :
    w.coordinator.Serves e.connection ∨ ∃ status, a = .connect e.connection status := by
  have hold : ∀ {d}, d ∈ w.coordinator.clients → w.coordinator.Serves d.connection :=
    fun {d} hd => ⟨d, hd, rfl⟩
  cases h with
  | quiet o hclients hlobbies hsettings heffects =>
    rw [hclients] at he
    exact .inl (hold he)
  | status d hd status effects heffects =>
    rcases Ascending.mem_insert.1 he with rfl | ⟨he, -⟩
    · exact .inl ⟨d, hd, rfl⟩
    · exact .inl (hold he)
  | comes n status ha before hbefore d hclients hlobbies hsettings =>
    change e ∈ d.clients at he
    rw [hclients] at he
    rcases Ascending.mem_insert.1 he with rfl | ⟨he, -⟩
    · exact .inr ⟨status, ha⟩
    · exact .inl (hold he)
  | goes gone before after hbefore hafter =>
    exact .inl (hold (Coordinator.mem_clients_of_removeEach he))
  | _ => exact .inl (hold he)

namespace Venue
variable {κ : Type} [Client.Quantity κ] {owner : Nat → Profile} {v : Venue κ} {now : Nat} {t : Turn}

theorem attended_next (h : v.Attended) : (v.next owner now t).Attended := by
  intro e he
  refine has_next ?_
  rcases world_next owner v now t with hsame | ⟨a, hadmits, hnext⟩
  · rw [hsame] at he
    exact h e he
  · rw [hnext] at he
    rcases (World.change_outcome owner v.world a).connection he with ⟨d, hd, hde⟩ | ⟨status, rfl⟩
    · exact hde ▸ h d hd
    · exact has_iff_hasKey.2 hadmits

theorem attended_run (config : Config) (owner : Nat → Profile) (turns : List (Nat × Turn)) :
    ((opened config).run owner turns : Venue κ).Attended := by
  refine run_induction (P := Attended) (fun v now t => attended_next) ?_ turns
  intro e he
  exact absurd he (Ascending.not_mem_empty e)

end Venue

end Matchmaker
