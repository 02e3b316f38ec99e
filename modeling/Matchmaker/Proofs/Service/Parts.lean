import Matchmaker.Proofs.Service.Deeds

/-!
# How calls end

A call is a sequence of parts.  It ends well if each of them does, each in the state that those
before it have left (`bind_eq_ok`); otherwise it ends with the first one that fails
(`bind_eq_error`).  So what a result says of the parts can be read off backwards, over any store and
any profile service.
-/

namespace Matchmaker.Service

variable {σ π α β : Type} {s t : Service σ π} {m : Serving σ π α} {f : α → Serving σ π β}

/-! ## sequences of parts -/

theorem bind_eq_ok {b : β} : (m >>= f).run s = (.ok b, t) ↔
    ∃ a u, m.run s = (.ok a, u) ∧ (f a).run u = (.ok b, t) := by
  rw [run_bind]
  cases hm : m.run s with
  | mk result u =>
    cases result with
    | ok a =>
      constructor
      · exact fun h => ⟨a, u, rfl, h⟩
      · rintro ⟨a', u', hsame, h⟩
        cases hsame
        exact h
    | error e =>
      constructor
      · exact fun h => by cases h
      · rintro ⟨a', u', hsame, -⟩
        cases hsame

theorem bind_eq_error {e : QueueError} : (m >>= f).run s = (.error e, t) ↔
    m.run s = (.error e, t) ∨ ∃ a u, m.run s = (.ok a, u) ∧ (f a).run u = (.error e, t) := by
  rw [run_bind]
  cases hm : m.run s with
  | mk result u =>
    cases result with
    | ok a =>
      constructor
      · exact fun h => .inr ⟨a, u, rfl, h⟩
      · rintro (hsame | ⟨a', u', hsame, h⟩)
        · cases hsame
        · cases hsame
          exact h
    | error e' =>
      constructor
      · intro h
        cases h
        exact .inl rfl
      · rintro (hsame | ⟨a', u', hsame, -⟩)
        · cases hsame
          rfl
        · cases hsame

theorem unless_eq_ok {c : Prop} [Decidable c] {e : QueueError} {b : β} {m : Serving σ π β} :
    (if c then m else throw e >>= f).run s = (.ok b, t) ↔ c ∧ m.run s = (.ok b, t) := by
  split
  · rename_i hc
    exact (and_iff_right hc).symm
  · rename_i hc
    exact iff_of_false (fun h => by cases h) fun h => hc h.1

theorem when_eq_ok {c : Prop} [Decidable c] {e : QueueError} {b : β} {m : Serving σ π β} :
    (if c then throw e >>= f else m).run s = (.ok b, t) ↔ ¬ c ∧ m.run s = (.ok b, t) := by
  split
  · rename_i hc
    exact iff_of_false (fun h => by cases h) fun h => h.1 hc
  · rename_i hc
    exact (and_iff_right hc).symm

theorem lift_eq_ok {x : Except QueueError α} {b : β} :
    (liftM x >>= f).run s = (.ok b, t) ↔ ∃ a, x = .ok a ∧ (f a).run s = (.ok b, t) := by
  cases x with
  | error e => exact iff_of_false (fun h => by cases h) fun ⟨_, h, _⟩ => by cases h
  | ok a =>
    constructor
    · exact fun h => ⟨a, rfl, h⟩
    · rintro ⟨a', hsame, h⟩
      cases hsame
      exact h

/-! ## single parts -/

theorem onStore_eq_ok {f : σ → Called σ α} {a : α} :
    (onStore f).run s = (.ok a, t) ↔
      ∃ store, f s.store = .ok (a, store) ∧ t = { s with store } := by
  rw [run_onStore]
  cases f s.store with
  | error e => exact iff_of_false (fun h => by cases h) fun ⟨_, h, _⟩ => by cases h
  | ok x =>
    constructor
    · intro h
      cases h
      exact ⟨x.2, rfl, rfl⟩
    · rintro ⟨store, h, rfl⟩
      cases h
      rfl

theorem onProfiles_eq_ok {f : π → Called π α} {a : α} :
    (onProfiles f : Serving σ π α).run s = (.ok a, t) ↔
      ∃ profiles, f s.profiles = .ok (a, profiles) ∧ t = { s with profiles } := by
  rw [run_onProfiles]
  cases f s.profiles with
  | error e => exact iff_of_false (fun h => by cases h) fun ⟨_, h, _⟩ => by cases h
  | ok x =>
    constructor
    · intro h
      cases h
      exact ⟨x.2, rfl, rfl⟩
    · rintro ⟨profiles, h, rfl⟩
      cases h
      rfl

theorem eq_of_onStore_error {f : σ → Called σ α} {e : QueueError}
    (h : (onStore f : Serving σ π α).run s = (.error e, t)) : t = s := by
  rw [run_onStore] at h
  cases hf : f s.store with
  | error c => rw [hf] at h; cases h; rfl
  | ok x => rw [hf] at h; cases h

theorem eq_of_onProfiles_error {f : π → Called π α} {e : QueueError}
    (h : (onProfiles f : Serving σ π α).run s = (.error e, t)) : t = s := by
  rw [run_onProfiles] at h
  cases hf : f s.profiles with
  | error c => rw [hf] at h; cases h; rfl
  | ok x => rw [hf] at h; cases h

theorem run_onCoordinator (f : Coordinator → Coordinator.Outcome × α) (s : Service σ π) :
    (onCoordinator f : Serving σ π α).run s = (.ok (f s.coordinator).2,
      { s with
        coordinator := (f s.coordinator).1.state
        effects := s.effects ++ (f s.coordinator).1.effects }) := rfl

theorem run_authorize (actor : Profile) (action : Moderation) (s : Service σ π) :
    (authorize actor action : Serving σ π Unit).run s =
      (if s.policy actor action then .ok () else .error .permissionDenied, s) := by
  unfold authorize
  rw [run_bind, run_get]
  dsimp only
  split <;> rfl

theorem authorize_eq_ok {actor : Profile} {action : Moderation} :
    (authorize actor action : Serving σ π Unit).run s = (.ok (), t) ↔
      s.policy actor action = true ∧ t = s := by
  rw [run_authorize]
  split
  · rename_i hallowed
    constructor
    · intro h
      cases h
      exact ⟨hallowed, rfl⟩
    · rintro ⟨-, rfl⟩
      rfl
  · rename_i hrefused
    exact iff_of_false (fun h => by cases h) fun h => hrefused h.1

theorem caller_eq_ok [ProfileProvider π] {p : SteamId} {a : Profile} :
    (caller p : Serving σ π Profile).run s = (.ok a, t) ↔
      p.isValid = true ∧
        ∃ profiles, ProfileProvider.profile s.profiles p = .ok (a, profiles) ∧
          t = { s with profiles } := by
  unfold caller
  exact unless_eq_ok.trans (and_congr_right fun _ => onProfiles_eq_ok)

/-! ## any call -/

/-- what a granted request answers -/
inductive Answer where
  | posted (e : ChatEntry)
  | removed (ids : List Int)
  | done
  deriving DecidableEq

def serve [ChatStore σ] [ProfileProvider π] : Request → Serving σ π Answer
  | .addMessage author createdOn body => Answer.posted <$> addMessage author createdOn body
  | .purge actor anchor count => Answer.removed <$> purge actor anchor count
  | .purgeAuthor actor target count => Answer.removed <$> purgeAuthor actor target count
  | .deleteMessage actor id => (fun _ => .done) <$> deleteMessage actor id
  | .setChatStatus actor target status reason =>
    (fun _ => .done) <$> setChatStatus actor target status reason

theorem run_map (g : α → β) (m : Serving σ π α) (s : Service σ π) :
    (g <$> m).run s = ((m.run s).1.map g, (m.run s).2) := by
  rw [map_eq_pure_bind, run_bind]
  cases m.run s with
  | mk result t => cases result <;> rfl

theorem map_eq_error {g : α → β} {e : QueueError} :
    (g <$> m).run s = (.error e, t) ↔ m.run s = (.error e, t) := by
  rw [run_map]
  cases m.run s with
  | mk result u =>
    cases result with
    | error e' =>
      constructor
      · intro h
        cases h
        rfl
      · intro h
        cases h
        rfl
    | ok a => exact iff_of_false (fun h => by cases h) fun h => by cases h

theorem map_eq_ok {g : α → β} {b : β} :
    (g <$> m).run s = (.ok b, t) ↔ ∃ a, m.run s = (.ok a, t) ∧ g a = b := by
  rw [run_map]
  cases m.run s with
  | mk result u =>
    cases result with
    | error e => exact iff_of_false (fun h => by cases h) fun ⟨_, h, _⟩ => by cases h
    | ok a =>
      constructor
      · intro h
        cases h
        exact ⟨a, rfl, rfl⟩
      · rintro ⟨a', h, rfl⟩
        cases h
        rfl

theorem perform_eq_serve [ProfileProvider π] (s : InMemory π) (r : Request) :
    perform s r = ((serve r).run s).2 := by
  cases r <;> exact (congrArg Prod.snd (run_map _ _ s)).symm

end Matchmaker.Service
