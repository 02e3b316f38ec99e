import Mathlib.Logic.Relation
import Matchmaker.Proofs.Service.House
import Matchmaker.Proofs.Service.Parts

/-!
# A refused call

Every check of a call comes before its first effect, and what is stored for good is stored in one
step after which nothing can fail.  So a call that fails has only looked around (`Looked`): it has
read messages, and it has looked up players that its arguments name.  That is so for any store, any
profile service and any policy, whatever the reason for the failure.

Reading does not change what is stored (`ReadOnly`).  Looking up a player may, since an unknown one
gets a profile (`Tabled`).
-/

namespace Matchmaker.Service

open Relation (ReflTransGen)

variable {σ π α β : Type} [ChatStore σ] [ProfileProvider π]

/-! ## looking around -/

/-- messages were read from a store, any number of them -/
def Read : σ → σ → Prop := ReflTransGen fun u v => ∃ id e, ChatStore.message u id = .ok (e, v)

/-- players were looked up, and only such as satisfy `asks` -/
def LookedUp (asks : SteamId → Prop) : π → π → Prop :=
  ReflTransGen fun u v => ∃ p f, asks p ∧ ProfileProvider.profile u p = .ok (f, v)

structure Looked (asks : SteamId → Prop) (s t : Service σ π) : Prop where
  store : Read s.store t.store
  profiles : LookedUp asks s.profiles t.profiles
  rest : t = { s with store := t.store, profiles := t.profiles }

section
variable {asks : SteamId → Prop} {s t u : Service σ π}

theorem Looked.refl (asks : SteamId → Prop) (s : Service σ π) : Looked asks s s :=
  ⟨.refl, .refl, rfl⟩

theorem Looked.trans (hst : Looked asks s t) (htu : Looked asks t u) : Looked asks s u where
  store := hst.store.trans htu.store
  profiles := hst.profiles.trans htu.profiles
  rest := by rw [htu.rest, hst.rest]

theorem Looked.coordinator (h : Looked asks s t) : t.coordinator = s.coordinator := by rw [h.rest]

theorem Looked.effects (h : Looked asks s t) : t.effects = s.effects := by rw [h.rest]

theorem Looked.policy (h : Looked asks s t) : t.policy = s.policy := by rw [h.rest]

/-- a call that only looks, as it is made in `s` -/
def Peeks (asks : SteamId → Prop) (m : Serving σ π α) (s : Service σ π) : Prop :=
  Looked asks s (m.run s).2

/-- a call that only looks if it fails, as it is made in `s` -/
def Harmless (asks : SteamId → Prop) (m : Serving σ π α) (s : Service σ π) : Prop :=
  ∀ e t, m.run s = (.error e, t) → Looked asks s t

theorem Peeks.looked {m : Serving σ π α} {r : Except QueueError α} (h : Peeks asks m s)
    (hrun : m.run s = (r, t)) : Looked asks s t := by
  unfold Peeks at h
  rwa [hrun] at h

variable {m : Serving σ π α} {f : α → Serving σ π β}

theorem harmless_bind (hm : Peeks asks m s)
    (hf : ∀ a u, m.run s = (.ok a, u) → Harmless asks (f a) u) : Harmless asks (m >>= f) s := by
  intro e t h
  rcases bind_eq_error.1 h with hfails | ⟨a, u, hok, hrest⟩
  · exact hm.looked hfails
  · exact (hm.looked hok).trans (hf a u hok e t hrest)

theorem harmless_throw (e : QueueError) : Harmless asks (throw e >>= f) s := by
  intro e' t h
  cases h
  exact .refl asks s

theorem harmless_unless {c : Prop} [Decidable c] {e : QueueError} {m : Serving σ π β}
    (hm : c → Harmless asks m s) : Harmless asks (if c then m else throw e >>= f) s := by
  split
  · rename_i hc
    exact hm hc
  · exact harmless_throw e

theorem harmless_when {c : Prop} [Decidable c] {e : QueueError} {m : Serving σ π β}
    (hm : ¬ c → Harmless asks m s) : Harmless asks (if c then throw e >>= f else m) s := by
  split
  · exact harmless_throw e
  · rename_i hc
    exact hm hc

theorem harmless_lift {x : Except QueueError α} (hf : ∀ a, x = .ok a → Harmless asks (f a) s) :
    Harmless asks (liftM x >>= f) s := by
  cases x with
  | ok a => exact hf a rfl
  | error e =>
    intro e' t h
    cases h
    exact .refl asks s

/-- What is done at the end of a call is done by the first of its parts or not at all. -/
theorem harmless_last (hm : ∀ e t, m.run s = (.error e, t) → t = s)
    (hf : ∀ a u, ∃ b t, (f a).run u = (.ok b, t)) : Harmless asks (m >>= f) s := by
  intro e t h
  rcases bind_eq_error.1 h with hfails | ⟨a, u, -, hrest⟩
  · rw [hm e t hfails]
    exact .refl asks s
  · obtain ⟨b, t', hok⟩ := hf a u
    rw [hok] at hrest
    cases hrest

end

/-! ## parts -/

section
variable {asks : SteamId → Prop} {s : Service σ π}

theorem peeks_message (asks : SteamId → Prop) (id : Int) (s : Service σ π) :
    Peeks asks (onStore (ChatStore.message · id) : Serving σ π ChatEntry) s := by
  unfold Peeks
  rw [run_onStore]
  cases hread : ChatStore.message s.store id with
  | error e => exact .refl asks s
  | ok x => exact ⟨.single ⟨id, x.1, hread⟩, .refl, rfl⟩

theorem peeks_profile {p : SteamId} (hp : asks p) (s : Service σ π) :
    Peeks asks (onProfiles (ProfileProvider.profile · p) : Serving σ π Profile) s := by
  unfold Peeks
  rw [run_onProfiles]
  cases hfound : ProfileProvider.profile s.profiles p with
  | error e => exact .refl asks s
  | ok x => exact ⟨.refl, .single ⟨p, x.1, hp, hfound⟩, rfl⟩

theorem peeks_caller {p : SteamId} (hp : asks p) (s : Service σ π) :
    Peeks asks (caller p : Serving σ π Profile) s := by
  unfold caller
  split
  · exact peeks_profile hp s
  · exact .refl asks s

theorem peeks_authorize (asks : SteamId → Prop) (actor : Profile) (action : Moderation)
    (s : Service σ π) : Peeks asks (authorize actor action : Serving σ π Unit) s := by
  unfold Peeks
  rw [run_authorize]
  exact .refl asks s

theorem peeks_get (asks : SteamId → Prop) (s : Service σ π) :
    Peeks asks (get : Serving σ π (Service σ π)) s := .refl asks s

end

/-! ## calls -/

theorem addMessage_harmless (asks : SteamId → Prop) (author : Session) (createdOn : Timestamp)
    (body : String) (s : Service σ π) : Harmless asks (addMessage author createdOn body) s := by
  unfold addMessage
  refine harmless_unless fun hpost => ?_
  refine harmless_lift fun text htext => ?_
  exact harmless_last (fun _ _ => eq_of_onStore_error) fun saved u => ⟨saved, _, rfl⟩

theorem purgeAuthor_harmless {asks : SteamId → Prop} {actor target : SteamId} (hactor : asks actor)
    (htarget : asks target) (count : Nat) (s : Service σ π) :
    Harmless asks (purgeAuthor actor target count) s := by
  unfold purgeAuthor
  refine harmless_bind (peeks_caller hactor s) fun actor s _ => ?_
  refine harmless_bind (peeks_profile htarget s) fun target s _ => ?_
  refine harmless_bind (peeks_authorize asks _ _ s) fun _ s _ => ?_
  refine harmless_bind (peeks_get asks s) fun v s _ => ?_
  dsimp only
  split
  · intro e t h
    cases h
  · exact harmless_last (fun _ _ => eq_of_onStore_error) fun _ u => ⟨_, _, rfl⟩

theorem purge_harmless {asks : SteamId → Prop} {actor : SteamId} {anchor : Int} {s : Service σ π}
    (hactor : asks actor)
    (hauthor : ∀ e store, ChatStore.message s.store anchor = .ok (e, store) → asks e.author)
    (count : Nat) : Harmless asks (purge actor anchor count) s := by
  unfold purge
  refine harmless_bind (peeks_message asks anchor s) fun e t hread => ?_
  obtain ⟨store, hread, -⟩ := onStore_eq_ok.1 hread
  exact purgeAuthor_harmless hactor (hauthor e store hread) count t

theorem deleteMessage_harmless {asks : SteamId → Prop} {actor : SteamId} {id : Int}
    {s : Service σ π} (hactor : asks actor)
    (hauthor : ∀ e store, ChatStore.message s.store id = .ok (e, store) → asks e.author) :
    Harmless asks (deleteMessage actor id) s := by
  unfold deleteMessage
  refine harmless_bind (peeks_caller hactor s) fun actor s' hcaller => ?_
  refine harmless_bind (peeks_message asks id s') fun e t hread => ?_
  -- looking up the caller leaves the store alone
  obtain ⟨-, profiles, -, rfl⟩ := caller_eq_ok.1 hcaller
  obtain ⟨store, hread, -⟩ := onStore_eq_ok.1 hread
  refine harmless_when fun hdeleted => ?_
  refine harmless_bind (peeks_profile (hauthor e store hread) t) fun target u _ => ?_
  refine harmless_bind (peeks_authorize asks _ _ u) fun _ v _ => ?_
  exact harmless_last (fun _ _ => eq_of_onStore_error) fun _ u => ⟨_, _, rfl⟩

theorem setChatStatus_harmless {asks : SteamId → Prop} {actor target : SteamId}
    (hactor : asks actor) (htarget : asks target) (status : ChatStatus) (reason : String)
    (s : Service σ π) : Harmless asks (setChatStatus actor target status reason) s := by
  unfold setChatStatus
  refine harmless_unless fun hvalid => ?_
  refine harmless_bind (peeks_caller hactor s) fun actor s _ => ?_
  refine harmless_when fun hself => ?_
  refine harmless_bind (peeks_profile htarget s) fun target s _ => ?_
  refine harmless_bind (peeks_authorize asks _ _ s) fun _ s _ => ?_
  refine harmless_when fun hsame => ?_
  exact harmless_last (fun _ _ => eq_of_onProfiles_error) fun _ u => ⟨_, _, rfl⟩

/-- the players that a request may look up: the caller, and whoever is named or has written the
message that is named -/
def Request.asks (s : Service σ π) : Request → SteamId → Prop
  | .addMessage _ _ _, _ => False
  | .purge actor id _, p | .deleteMessage actor id, p =>
    p = actor ∨ ∃ e store, ChatStore.message s.store id = .ok (e, store) ∧ p = e.author
  | .purgeAuthor actor target _, p | .setChatStatus actor target _ _, p => p = actor ∨ p = target

theorem serve_harmless (r : Request) (s : Service σ π) : Harmless (r.asks s) (serve r) s := by
  intro e t h
  cases r with
  | addMessage author createdOn body =>
    exact addMessage_harmless _ author createdOn body s e t (map_eq_error.1 h)
  | purge actor anchor count =>
    exact purge_harmless (.inl rfl) (fun e store hread => .inr ⟨e, store, hread, rfl⟩) count e t
      (map_eq_error.1 h)
  | purgeAuthor actor target count =>
    exact purgeAuthor_harmless (.inl rfl) (.inr rfl) count s e t (map_eq_error.1 h)
  | deleteMessage actor id =>
    exact deleteMessage_harmless (.inl rfl) (fun e store hread => .inr ⟨e, store, hread, rfl⟩) e t
      (map_eq_error.1 h)
  | setChatStatus actor target status reason =>
    exact setChatStatus_harmless (.inl rfl) (.inr rfl) status reason s e t (map_eq_error.1 h)

/-! ## what looking leaves -/

/-- Reading a message leaves the messages of the store as they are. -/
def ReadOnly (held : σ → List ChatEntry) : Prop :=
  ∀ ⦃u v : σ⦄ ⦃id : Int⦄ ⦃e : ChatEntry⦄, ChatStore.message u id = .ok (e, v) → held v = held u

/-- the profile service looks players up in a table -/
def Tabled (table : π → ProfileTable) : Prop :=
  ∀ ⦃u v : π⦄ ⦃p : SteamId⦄ ⦃f : Profile⦄, ProfileProvider.profile u p = .ok (f, v) →
    (f, table v) = (table u).profile p

theorem ReadOnly.read {held : σ → List ChatEntry} (hheld : ReadOnly held) {u v : σ}
    (h : Read u v) : held v = held u := by
  induction h with
  | refl => rfl
  | tail _ hlast ih =>
    obtain ⟨id, e, hread⟩ := hlast
    exact (hheld hread).trans ih

theorem SurvivesLookups.lookedUp {R : π → π → Prop} (hR : SurvivesLookups R)
    {asks : SteamId → Prop} {u v : π} (h : LookedUp asks u v) : R u v := by
  induction h with
  | refl => exact hR.refl u
  | tail _ hlast ih =>
    obtain ⟨p, f, -, hfound⟩ := hlast
    exact hR.trans ih (hR.lookup hfound)

/-- Players who were looked up have the profile that they had, or else that of a newcomer. -/
theorem Tabled.lookedUp {table : π → ProfileTable} (htable : Tabled table)
    {asks : SteamId → Prop} {u v : π} (h : LookedUp asks u v) (q : SteamId) :
    (table v).get? q = (table u).get? q ∨
      asks q ∧ (table u).get? q = none ∧
        (table v).get? q = some (ProfileTable.newcomer q) := by
  induction h with
  | refl => exact .inl rfl
  | @tail v w _ hlast ih =>
    obtain ⟨p, f, hasks, hfound⟩ := hlast
    have hw : table w = ((table v).profile p).2 := congrArg Prod.snd (htable hfound)
    rw [hw, ProfileTable.get?_profile]
    by_cases hq : p = q
    · subst hq
      rw [if_pos rfl]
      cases hknown : (table v).get? p with
      | some g =>
        rw [ProfileTable.profile_of_some hknown]
        rwa [hknown] at ih
      | none =>
        rw [ProfileTable.profile_of_none hknown]
        rw [hknown] at ih
        rcases ih with hnone | ⟨-, -, hsome⟩
        · exact .inr ⟨hasks, hnone.symm, rfl⟩
        · cases hsome
    · rwa [if_neg hq]

theorem readOnly_log : ReadOnly fun log : Chat.Log => log.entries := by
  intro u v id e h
  dsimp only [ChatStore.message] at h
  cases hfound : u.get? id with
  | none => rw [hfound] at h; cases h
  | some f => rw [hfound] at h; cases h; rfl

theorem ReadOnly.withOutages {held : σ → List ChatEntry} (h : ReadOnly held) :
    ReadOnly fun w : WithOutages σ => held w.service :=
  fun _ _ _ _ hread => h (WithOutages.call_eq_ok hread)

theorem tabled_id : Tabled fun table : ProfileTable => table := by
  intro u v p f h
  exact (Except.ok.inj h).symm

theorem Tabled.withOutages {table : π → ProfileTable} (h : Tabled table) :
    Tabled fun w : WithOutages π => table w.service :=
  fun _ _ _ _ hfound => h (WithOutages.call_eq_ok hfound)

/-- **A call that fails changes nothing.**  The coordinator is as it was, with its sessions, queues
and history, nothing is sent to anyone, and the store was only read from, so it holds the same
messages.  Where profiles are kept in a table, those of players whom the call has looked up and who
were unknown may be new, and they are what every newcomer gets. -/
theorem refused_changes_nothing (s t : Service σ π) (r : Request) (e : QueueError)
    (h : (serve r).run s = (.error e, t)) :
    t.coordinator = s.coordinator ∧ t.effects = s.effects ∧ Read s.store t.store ∧
      (∀ held : σ → List ChatEntry, ReadOnly held → held t.store = held s.store) ∧
      ∀ table : π → ProfileTable, Tabled table → ∀ q,
        (table t.profiles).get? q = (table s.profiles).get? q ∨
          r.asks s q ∧ (table s.profiles).get? q = none ∧
            (table t.profiles).get? q = some (ProfileTable.newcomer q) := by
  have hlooked : Looked (r.asks s) s t := serve_harmless r s e t h
  refine ⟨hlooked.coordinator, hlooked.effects, hlooked.store, fun held hheld => ?_,
    fun table htable q => ?_⟩
  · exact hheld.read hlooked.store
  · exact htable.lookedUp hlooked.profiles q

/-- A player who is not known yet tries to remove what a moderator wrote. -/
theorem refused_changes_nothing_sample :
    let s : Service (WithOutages Chat.Log) (WithOutages ProfileTable) :=
      .new {} ⟨.empty, []⟩ ⟨Sample.staff, []⟩ Moderation.byLevel
    let r : Request := .purgeAuthor (.ofAccount 2) (.ofAccount 1) 5
    let t := ((serve r).run s).2
    ((serve r).run s).1 = .error .permissionDenied ∧ t.coordinator = s.coordinator ∧
      t.effects = s.effects ∧ t.store.service.entries = s.store.service.entries ∧
      t.profiles.service.get? (.ofAccount 1) = s.profiles.service.get? (.ofAccount 1) := by
  intro s r t
  have hdenied : ((serve r).run s).1 = .error .permissionDenied := by decide +kernel
  have hknown : (s.profiles.service.get? (.ofAccount 1)).isSome = true := by decide +kernel
  obtain ⟨hcoordinator, heffects, -, hstore, hprofiles⟩ :=
    refused_changes_nothing s t r .permissionDenied (Prod.ext hdenied rfl)
  refine ⟨hdenied, hcoordinator, heffects, hstore _ readOnly_log.withOutages, ?_⟩
  rcases hprofiles _ tabled_id.withOutages (.ofAccount 1) with hsame | ⟨-, hnone, -⟩
  · exact hsame
  · rw [hnone] at hknown
    cases hknown

end Matchmaker.Service
