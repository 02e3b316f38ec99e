import Matchmaker.Proofs.Chat.Room
import Matchmaker.Proofs.Service.Deeds

/-!
# Calls as steps

A request that is granted takes two steps at most, one at the store and one at the coordinator, and
they are those of a room (`Request.Takes`).  If nothing comes between them, then the room is
afterwards as the service is after the call (`perform_runs`), and the same is true of filling the
history (`seedHistory_runs`).
-/

namespace Matchmaker

open Chat (Log)

namespace Room
variable {owner : Nat → Profile} {r : Room} {x : Step}

/-- all that steps ask of the connections, in order -/
def sent (owner : Nat → Profile) (r : Room) : List Step → List Effect
  | [] => []
  | x :: xs => r.effects owner x ++ sent owner (r.next owner x) xs

/-- has the messages and the coordinator of a service -/
structure Mirrors {π : Type} (r : Room) (s : Service.InMemory π) : Prop where
  log : r.log = s.log
  coordinator : r.world.coordinator = s.coordinator

/-- these steps do a deed and leave no call behind -/
structure Carries (owner : Nat → Profile) (r : Room) (d : Service.Deed) (steps : List Step) :
    Prop where
  log : (r.run owner steps).log = d.log r.log
  coordinator : (r.run owner steps).world.coordinator =
    (d.outcome r.log r.world.coordinator).state
  sent : r.sent owner steps = (d.outcome r.log r.world.coordinator).effects
  rests : ∀ i, (r.run owner steps).rest? i = r.rest? i

theorem Carries.mirrors {π : Type} {s t : Service.InMemory π} {d : Service.Deed}
    {steps : List Step} (h : r.Carries owner d steps) (hdoes : Service.Does s d t)
    (hr : r.Mirrors s) :
    (r.run owner steps).Mirrors t ∧ t.effects = s.effects ++ r.sent owner steps ∧
      ∀ i, (r.run owner steps).rest? i = r.rest? i := by
  refine ⟨⟨?_, ?_⟩, ?_, h.rests⟩
  · rw [h.log, hdoes.log, hr.log]
  · rw [h.coordinator, hdoes.coordinator, hr.log, hr.coordinator]
  · rw [h.sent, hdoes.effects, hr.log, hr.coordinator]

theorem carries_nothing (owner : Nat → Profile) (r : Room) : r.Carries owner .nothing [] :=
  ⟨rfl, rfl, rfl, fun _ => rfl⟩

/-- Two steps of one call that nothing comes between do what the call is for. -/
theorem carries_of_begun {d : Service.Deed} {log : Log} {rest : Rest}
    (hx : r.next owner x = r.begun log rest) (hquiet : r.effects owner x = [])
    (hlog : log = d.log r.log)
    (houtcome : r.world.outcome owner rest.action = d.outcome r.log r.world.coordinator) :
    r.Carries owner d [x, .finish r.errands.length] := by
  have hrest := rest?_begun_self (r := r) log rest
  have hrun : r.run owner [x, .finish r.errands.length] =
      (r.begun log rest).finished owner r.errands.length rest := by
    show (r.next owner x).next owner (.finish r.errands.length) = _
    rw [hx, next_finish hrest]
  refine ⟨?_, ?_, ?_, fun i => ?_⟩
  · rw [hrun]
    exact hlog
  · rw [hrun]
    exact congrArg Coordinator.Outcome.state houtcome
  · have hsent : r.sent owner [x, .finish r.errands.length] = r.effects owner x ++
        ((r.next owner x).effects owner (.finish r.errands.length) ++ []) := rfl
    rw [hsent, hx, hquiet, effects_finish hrest, List.append_nil]
    exact congrArg Coordinator.Outcome.effects houtcome
  · rw [hrun]
    ext other
    rw [rest?_finished_iff hrest, rest?_begun_iff]
    constructor
    · rintro ⟨hi, ⟨hnew, -⟩ | hold⟩
      · exact absurd hnew hi
      · exact hold
    · exact fun hold => ⟨Nat.ne_of_lt (lt_of_rest? hold), .inr hold⟩

end Room

/-- the steps of a request that is granted after `n` other calls -/
def Service.Request.Takes (n : Nat) : Service.Request → List Step → Prop
  | .addMessage author createdOn body, steps => steps = [.save author createdOn body, .finish n]
  | .purge _ _ _, steps => ∃ ids, steps = [.mark ids, .finish n]
  | .purgeAuthor _ _ _, steps => ∃ ids, steps = [.mark ids, .finish n]
  | .deleteMessage _ id, steps => steps = [.mark [id], .finish n]
  | .setChatStatus _ _ status reason, steps =>
    ∃ p, steps = [.act (.updateChatStatus p status reason)]

namespace Room
variable {owner : Nat → Profile} {r : Room}

theorem carries_post {author : Session} {createdOn : Timestamp} {body : String} {e : ChatEntry}
    (h : draft? author createdOn body = some e) :
    r.Carries owner (.post e) [.save author createdOn body, .finish r.errands.length] :=
  carries_of_begun (next_save h) rfl rfl rfl

theorem carries_seed (owner : Nat → Profile) (r : Room) (limit : Nat) :
    r.Carries owner (.seed limit) [.load limit, .finish r.errands.length] :=
  carries_of_begun rfl rfl rfl rfl

theorem carries_remove (ids : List Int) :
    r.Carries owner (.remove ids) [.mark ids, .finish r.errands.length] :=
  carries_of_begun rfl rfl rfl rfl

theorem carries_setStatus (p : SteamId) (status : ChatStatus) (reason : String) :
    r.Carries owner (.setStatus p status reason) [.act (.updateChatStatus p status reason)] where
  log := rfl
  coordinator := rfl
  sent := List.append_nil _
  rests := fun _ => rfl

theorem takes_of_wants (owner : Nat → Profile) (r : Room) {request : Service.Request}
    {d : Service.Deed} (h : request.Wants d) :
    ∃ steps, request.Takes r.errands.length steps ∧ r.Carries owner d steps := by
  cases request with
  | addMessage author createdOn body =>
    obtain ⟨hpost, text, htext, rfl⟩ := h
    refine ⟨_, rfl, carries_post ?_⟩
    simp only [draft?, hpost, htext, if_true]
  | purge actor anchor count =>
    obtain ⟨ids, rfl⟩ := h
    exact ⟨_, ⟨ids, rfl⟩, carries_remove ids⟩
  | purgeAuthor actor target count =>
    obtain ⟨ids, rfl⟩ := h
    exact ⟨_, ⟨ids, rfl⟩, carries_remove ids⟩
  | deleteMessage actor id =>
    cases h
    exact ⟨_, rfl, carries_remove [id]⟩
  | setChatStatus actor target status reason =>
    obtain ⟨p, rfl⟩ := h
    exact ⟨_, ⟨p, rfl⟩, carries_setStatus p status reason⟩

variable {π : Type} {s : Service.InMemory π}

/-- Filling the history is a run of two steps, or of none if the store fails. -/
theorem seedHistory_runs (owner : Nat → Profile) (h : r.Mirrors s) :
    let t := Service.after Service.seedHistory s
    ∃ steps, (steps = [] ∨ ∃ limit, steps = [.load limit, .finish r.errands.length]) ∧
      (r.run owner steps).Mirrors t ∧ t.effects = s.effects ++ r.sent owner steps ∧
      ∀ i, (r.run owner steps).rest? i = r.rest? i := by
  intro t
  obtain ⟨d, hd, hdoes⟩ : ∃ d, (d = .nothing ∨ ∃ limit, d = .seed limit) ∧ Service.Does s d t :=
    Service.seedHistory_comes.does (fun _ _ hd => .inr hd) s
  rcases hd with rfl | ⟨limit, rfl⟩
  · exact ⟨[], .inl rfl, (carries_nothing owner r).mirrors hdoes h⟩
  · exact ⟨_, .inr ⟨limit, rfl⟩, (carries_seed owner r limit).mirrors hdoes h⟩

/-- **A call that is not interrupted is a run of its steps**, or of none if it is refused. -/
theorem perform_runs [ProfileProvider π] (owner : Nat → Profile) (h : r.Mirrors s)
    (request : Service.Request) :
    let t := Service.perform s request
    ∃ steps, (steps = [] ∨ request.Takes r.errands.length steps) ∧
      (r.run owner steps).Mirrors t ∧ t.effects = s.effects ++ r.sent owner steps ∧
      ∀ i, (r.run owner steps).rest? i = r.rest? i := by
  intro t
  obtain ⟨d, hd, hdoes⟩ := Service.perform_does s request
  rcases hd with rfl | hd
  · exact ⟨[], .inl rfl, (carries_nothing owner r).mirrors hdoes h⟩
  · obtain ⟨steps, htakes, hcarries⟩ := takes_of_wants owner r hd
    exact ⟨steps, .inr htakes, hcarries.mirrors hdoes h⟩

end Room

end Matchmaker
