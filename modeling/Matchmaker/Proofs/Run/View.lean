import Matchmaker.Proofs.Coordinator.Updates
import Matchmaker.Proofs.Run.Change

/-!
# Every client's view is current

An action ends in one of three ways: everyone is told of users and queues, or everyone is told of
the queues while the users stay, or nobody is told and there is nothing to tell (`Told`).  A client
that was told rightly before is told rightly afterwards in each of them, and who comes is among
those who are told of everything.

So the responses that were put in for a connection since it was last registered (`sent`) always end
with what is true, and a client that has accepted all of them knows it.
-/

namespace Matchmaker

open Protocol (Response StateUpdate)
open Coordinator (Outcome Serves)

theorem Effect.Quiet.silent {e : Effect} (h : e.Quiet) : e.Silent := by
  cases e with
  | deliver n r =>
    cases r with
    | stateUpdate u => exact h
    | _ => trivial
  | _ => trivial

namespace Coordinator

/-- after an action of `c`, whom it tells of what -/
inductive Told (c : Coordinator) (o : Outcome) : Prop where
  | everything (before after : List Effect) (hbefore : ∀ e ∈ before, e.Silent)
      (hafter : ∀ e ∈ after, e.Silent)
      (heffects : o.effects = before ++ o.state.broadcastAll o.state.fullUpdate ++ after)
  | queues (before : List Effect) (hbefore : ∀ e ∈ before, e.Silent)
      (heffects : o.effects = before ++ o.state.broadcastAll o.state.serversUpdate)
      (husers : o.state.users = c.users) (hserves : ∀ n, o.state.Serves n → c.Serves n)
  | nothing (heffects : ∀ e ∈ o.effects, e.Silent) (hqueues : o.state.lobbyStates = c.lobbyStates)
      (husers : o.state.users = c.users) (hserves : ∀ n, o.state.Serves n → c.Serves n)

theorem told_announced {c d : Coordinator} (h : d.clients = c.clients) : Told c (announced d) := by
  refine .queues [] (fun _ he => absurd he List.not_mem_nil) rfl ?_ ?_
  · unfold users
    rw [← h]
    rfl
  · intro n hn
    unfold Serves at hn ⊢
    rwa [← h]

/-- The chat status of a player is not shown to others. -/
theorem users_status {c : Coordinator} {e : Session} (he : e ∈ c.clients) (status : ChatStatus) :
    ({ c with clients := c.clients.insert { e with chatStatus := status } } : Coordinator).users =
      c.users := by
  rw [← toList_userTable, ← toList_userTable]
  congr 1
  refine Ascending.ext_mem fun m => ?_
  change m ∈ users _ ↔ m ∈ users _
  rw [mem_users, mem_users]
  constructor
  · rintro ⟨x, hx, rfl⟩
    rcases Ascending.mem_insert.1 hx with rfl | ⟨hx, -⟩
    · exact ⟨e, he, rfl⟩
    · exact ⟨x, hx, rfl⟩
  · rintro ⟨x, hx, rfl⟩
    by_cases hk : x.playerKey = e.playerKey
    · have hxe : x = e := c.clients.key_injOn hx he hk
      rw [hxe]
      exact ⟨_, Ascending.mem_insert.2 (.inl rfl), rfl⟩
    · exact ⟨x, Ascending.mem_insert.2 (.inr ⟨hx, hk⟩), rfl⟩

end Coordinator

/-- registers the session of this connection -/
def Action.connects (n : Nat) : Action → Bool
  | .connect m _ => m == n
  | _ => false

namespace World
variable {owner : Nat → Profile} {w : World} {a : Action} {o : Outcome}

/-! ## one action -/

theorem Change.told (h : Change owner w a o) : w.coordinator.Told o := by
  have hsilent : ∀ {es : List Effect}, (∀ e ∈ es, e.Quiet) → ∀ e ∈ es, e.Silent :=
    fun hes e he => (hes e he).silent
  cases h with
  | quiet o hclients hlobbies hsettings heffects =>
    refine .nothing (hsilent heffects) ?_ ?_ ?_
    · unfold Coordinator.lobbyStates
      rw [hlobbies]
    · unfold Coordinator.users
      rw [hclients]
    · intro n hn
      unfold Serves at hn
      rwa [hclients] at hn
  | status e he status effects heffects =>
    refine .nothing (hsilent heffects) rfl (Coordinator.users_status he status) ?_
    rintro n ⟨x, hx, rfl⟩
    rcases Ascending.mem_insert.1 hx with rfl | ⟨hx, -⟩
    · exact ⟨e, he, rfl⟩
    · exact ⟨x, hx, rfl⟩
  | comes n status ha before hbefore d hclients hlobbies hsettings =>
    exact .everything before [] (hsilent hbefore) (fun _ he => absurd he List.not_mem_nil)
      (List.append_nil _).symm
  | goes gone before after hbefore hafter =>
    exact .everything before after (hsilent hbefore) (hsilent hafter) rfl
  | joins p servers ha hp => exact Coordinator.told_announced rfl
  | leaves p servers => exact Coordinator.told_announced rfl
  | reports feed => exact Coordinator.told_announced rfl
  | refreshes feed hsame =>
    refine .nothing (fun _ he => absurd he List.not_mem_nil) ?_ rfl fun _ hn => hn
    exact Registry.states_reconcile hsame
  | starts l address ha hl =>
    refine .queues _ ?_ rfl rfl fun _ hn => hn
    intro x hx
    obtain ⟨e, -, rfl⟩ := List.mem_map.1 hx
    trivial

/-! ## what a connection is sent -/

/-- what is put in for a connection since it was last registered, given what was put in before -/
def sent (owner : Nat → Profile) (n : Nat) : World → List Response → List Action → List Response
  | _, rs, [] => rs
  | w, rs, a :: as =>
    sent owner n (w.next owner a)
      ((if a.connects n then [] else rs) ++ Effect.responses n (w.outcome owner a).effects) as

theorem sent_concat (owner : Nat → Profile) (n : Nat) (w : World) (rs : List Response)
    (as : List Action) (a : Action) :
    sent owner n w rs (as ++ [a]) =
      (if a.connects n then [] else sent owner n w rs as) ++
        Effect.responses n ((w.run owner as).outcome owner a).effects := by
  induction as generalizing w rs with
  | nil => rfl
  | cons b as ih => exact ih _ _

/-- those of the responses that are accepted, told by their position -/
def accepted (takes : Nat → Bool) (rs : List Response) : List Response :=
  (rs.zipIdx.filter fun x => takes x.2).map Prod.fst

theorem accepted_eq_self {takes : Nat → Bool} {rs : List Response}
    (h : ∀ i < rs.length, takes i = true) : accepted takes rs = rs := by
  unfold accepted
  rw [List.filter_eq_self.2, List.zipIdx_map_fst]
  intro x hx
  exact h x.2 (by have := List.snd_lt_of_mem_zipIdx hx; omega)

/-! ## every run -/

theorem responses_shows {c : Coordinator} {n : Nat} {rs : List Response} (h : c.Told o)
    (hn : o.state.Serves n) (hrs : c.Serves n → Coordinator.Shows rs c) :
    Coordinator.Shows (rs ++ Effect.responses n o.effects) o.state := by
  cases h with
  | everything before after hbefore hafter heffects =>
    rw [heffects, Effect.responses_append, Effect.responses_append, ← List.append_assoc,
      ← List.append_assoc]
    exact (Coordinator.shows_fullUpdate hn _).congr (updates_of_silent hafter n) rfl rfl
  | queues before hbefore heffects husers hserves =>
    rw [heffects, Effect.responses_append, ← List.append_assoc]
    have hbefore := (hrs (hserves n hn)).congr (updates_of_silent hbefore n) rfl rfl
    exact hbefore.serversUpdate hn husers
  | nothing heffects hqueues husers hserves =>
    exact (hrs (hserves n hn)).congr (updates_of_silent heffects n) hqueues husers

/-- What is put in for the connection of a registered session is right in the end. -/
theorem sent_shows (config : Config) (owner : Nat → Profile) (as : List Action) (n : Nat)
    (hn : ((start config).run owner as).coordinator.Serves n) :
    Coordinator.Shows (sent owner n (start config) [] as)
      ((start config).run owner as).coordinator := by
  induction as using List.reverseRecOn with
  | nil =>
    obtain ⟨e, he, -⟩ := hn
    exact absurd he (Ascending.not_mem_empty e)
  | append_singleton as a ih =>
    rw [run_append, run_singleton] at hn ⊢
    rw [sent_concat]
    by_cases ha : a.connects n = true
    · -- the responses before are forgotten, and a newcomer does not need them
      rw [if_pos ha]
      cases a with
      | connect m status =>
        obtain ⟨before, -, heffects⟩ := Coordinator.effects_connect
          ((start config).run owner as).coordinator ⟨m, owner m, status⟩
        change Coordinator.Shows ([] ++ Effect.responses n (Coordinator.connect _ _).effects) _
        rw [heffects, Effect.responses_append, ← List.append_assoc]
        exact Coordinator.shows_fullUpdate hn _
      | _ => cases ha
    · rw [if_neg ha]
      exact responses_shows (change_outcome owner _ a).told hn ih

theorem Change.users_nil (h : Change owner w a o) {n : Nat} {u : StateUpdate}
    (hu : .deliver n (.stateUpdate u) ∈ o.effects) (hflag : u.updateUsers = false) :
    u.users = [] := by
  rcases h.mem_effects hu with hquiet | hfull | hservers | ⟨-, m, server, users, hs⟩
  · exact absurd hquiet id
  · obtain ⟨e, -, -, he⟩ := Coordinator.mem_broadcast.1 hfull
    cases he
    cases hflag
  · obtain ⟨e, -, -, he⟩ := Coordinator.mem_broadcast.1 hservers
    cases he
    rfl
  · cases hs

/-- **Every client's view is current.**  A registered client that has accepted all that it was sent
since it came has last been told of the queues and of the users as they are, in order; and an update
that does not carry the users has an empty list of them. -/
theorem view_current (config : Config) (owner : Nat → Profile) (as : List Action) :
    let w := (start config).run owner as
    let c := w.coordinator
    (∀ e ∈ c.clients, ∀ takes : Nat → Bool,
      (∀ i < (sent owner e.connection (start config) [] as).length, takes i = true) →
      let received := accepted takes (sent owner e.connection (start config) [] as)
      (∃ u, lastUpdate StateUpdate.updateServers received = some u ∧ u.servers = c.lobbyStates) ∧
        ∃ u, lastUpdate StateUpdate.updateUsers received = some u ∧
          u.users = c.clients.toList.map Session.member) ∧
      c.lobbyStates.Pairwise (fun s t => s.serverId.toNat < t.serverId.toNat) ∧
      (∀ s ∈ c.lobbyStates, s.members.Pairwise fun p q => p.toNat < q.toNat) ∧
      (c.clients.toList.map Session.member).Pairwise
        (fun m k => m.steamId.toNat < k.steamId.toNat) ∧
      ∀ a n u, .deliver n (.stateUpdate u) ∈ (w.outcome owner a).effects →
        u.updateUsers = false → u.users = [] := by
  intro w c
  refine ⟨?_, c.lobbyStates_ascending, fun s hs => Coordinator.members_ascending hs,
    c.users_ascending, ?_⟩
  · intro e he takes htakes
    rw [accepted_eq_self htakes]
    have hshows := sent_shows config owner as e.connection ⟨e, he, rfl⟩
    exact ⟨hshows.servers, hshows.users⟩
  · intro a n u hu hflag
    exact (change_outcome owner w a).users_nil hu hflag

theorem view_current_sample :
    ∃ u, lastUpdate StateUpdate.updateServers
        (accepted (fun _ => true) (sent Sample.owner 0 (start {}) [] Sample.listed)) = some u ∧
      u.servers = [⟨Sample.server.serverId, [.ofNat 0, .ofNat 1]⟩] := by
  have he : (⟨0, Sample.owner 0, .readwrite⟩ : Session) ∈
      ((start {}).run Sample.owner Sample.listed).coordinator.clients := by
    rw [Ascending.mem_def]
    decide +kernel
  obtain ⟨⟨u, hu, hservers⟩, -⟩ :=
    (view_current {} Sample.owner Sample.listed).1 _ he (fun _ => true) fun _ _ => rfl
  refine ⟨u, hu, hservers.trans ?_⟩
  decide +kernel

end World

end Matchmaker
