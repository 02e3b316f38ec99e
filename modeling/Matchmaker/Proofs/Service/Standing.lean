import Matchmaker.ProfileTable
import Matchmaker.Proofs.Service.Deeds

/-!
# The status that is kept

The profile service keeps a chat status for every player, and a session has the status that it was
made with or was told since.  A call that changes a status changes the kept one first and then that
of the registered session; a call that is refused or does something else changes neither
(`perform_cases`).

What a call does to profiles is found out part by part, as what it does to the chat is (`Comes`).
Looking up a player may add one, so what holds of the profiles after a lookup is said by a relation
that lookups respect (`SurvivesLookups`).
-/

namespace Matchmaker

/-! ## profiles in memory -/

namespace ProfileTable
variable {t u : ProfileTable} {p : SteamId} {f : Profile}

theorem steamId_of_get? (h : t.get? p = some f) : f.steamId = p :=
  SteamId.ext_toNat (Ascending.get?_eq_some_iff.1 h).2

theorem get?_insert (t : ProfileTable) (f : Profile) (q : SteamId) :
    (t.insert f).get? q = if f.steamId = q then some f else t.get? q := by
  have hget : (t.insert f).get? q = if f.steamId.toNat = q.toNat then some f else t.get? q :=
    Ascending.get?_insert t.profiles f q.toNat
  rw [hget]
  by_cases h : f.steamId = q
  · rw [if_pos h, if_pos (congrArg SteamId.toNat h)]
  · rw [if_neg h, if_neg (mt SteamId.ext_toNat h)]

theorem profile_of_some (h : t.get? p = some f) : t.profile p = (f, t) := by
  unfold profile
  rw [h]

theorem profile_of_none (h : t.get? p = none) :
    t.profile p = (newcomer p, t.insert (newcomer p)) := by
  unfold profile
  rw [h]

theorem steamId_profile (t : ProfileTable) (p : SteamId) : (t.profile p).1.steamId = p := by
  cases h : t.get? p with
  | none => rw [profile_of_none h]; rfl
  | some f => rw [profile_of_some h]; exact steamId_of_get? h

theorem get?_profile (t : ProfileTable) (p q : SteamId) :
    (t.profile p).2.get? q = if p = q then some (t.profile p).1 else t.get? q := by
  cases h : t.get? p with
  | none =>
    rw [profile_of_none h]
    exact get?_insert t (newcomer p) q
  | some f =>
    rw [profile_of_some h]
    by_cases hq : p = q
    · rw [if_pos hq, ← hq, h]
    · rw [if_neg hq]

theorem profile_profile (t : ProfileTable) (p q : SteamId) :
    ((t.profile p).2.profile q).1 = (t.profile q).1 := by
  have hfound (u : ProfileTable) : (u.profile q).1 = (u.get? q).getD (newcomer q) := by
    cases h : u.get? q with
    | none => rw [profile_of_none h]; rfl
    | some f => rw [profile_of_some h]; rfl
  rw [hfound, hfound, get?_profile]
  by_cases hq : p = q
  · rw [if_pos hq, Option.getD_some, hq, hfound]
  · rw [if_neg hq]

theorem get?_setChatStatus {status : ChatStatus} (h : t.setChatStatus? p status = some u) :
    ∃ f, t.get? p = some f ∧
      ∀ q, u.get? q = if p = q then some { f with chatStatus := status } else t.get? q := by
  obtain ⟨f, hf, rfl⟩ := Option.map_eq_some_iff.1 h
  refine ⟨f, hf, fun q => ?_⟩
  rw [get?_insert]
  show (if f.steamId = q then _ else _) = _
  rw [steamId_of_get? hf]

end ProfileTable

/-! ## the status of a player -/

/-- a profile service that keeps a chat status for every player, shows it in the profile, and
changes it when asked to and not otherwise -/
class LawfulProfiles (π : Type) [ProfileProvider π] where
  standing : π → SteamId → ChatStatus
  profile : ∀ {s t : π} {p : SteamId} {f : Profile}, ProfileProvider.profile s p = .ok (f, t) →
    f.steamId = p ∧ f.chatStatus = standing s p ∧ ∀ q, standing t q = standing s q
  setChatStatus : ∀ {s t : π} {p : SteamId} {status : ChatStatus},
    ProfileProvider.setChatStatus s p status = .ok ((), t) →
      ∀ q, standing t q = if p = q then status else standing s q

namespace ProfileTable
variable {t u : ProfileTable} {p : SteamId}

/-- whoever is not known yet may do everything -/
def standing (t : ProfileTable) (p : SteamId) : ChatStatus :=
  ((t.get? p).map Profile.chatStatus).getD .readwrite

theorem chatStatus_profile (t : ProfileTable) (p : SteamId) :
    (t.profile p).1.chatStatus = t.standing p := by
  unfold standing
  cases h : t.get? p with
  | none => rw [profile_of_none h]; rfl
  | some f => rw [profile_of_some h]; rfl

theorem standing_profile (t : ProfileTable) (p q : SteamId) :
    (t.profile p).2.standing q = t.standing q := by
  unfold standing
  rw [get?_profile]
  by_cases hq : p = q
  · rw [if_pos hq, ← hq]
    exact chatStatus_profile t p
  · rw [if_neg hq]

theorem setChatStatus?_of_ok {status : ChatStatus}
    (h : ProfileProvider.setChatStatus t p status = .ok ((), u)) :
    t.setChatStatus? p status = some u := by
  dsimp only [ProfileProvider.setChatStatus] at h
  cases hset : t.setChatStatus? p status with
  | none => rw [hset] at h; cases h
  | some v => rw [hset] at h; cases h; rfl

instance : LawfulProfiles ProfileTable where
  standing := standing
  profile := by
    intro t u p f h
    change Except.ok (t.profile p) = _ at h
    cases hlookup : t.profile p with
    | mk g v =>
      rw [hlookup] at h
      cases h
      have hprofile := steamId_profile t p
      have hstatus := chatStatus_profile t p
      have hstanding := standing_profile t p
      rw [hlookup] at hprofile hstatus hstanding
      exact ⟨hprofile, hstatus, hstanding⟩
  setChatStatus := by
    intro t u p status h q
    obtain ⟨f, -, hget⟩ := get?_setChatStatus (setChatStatus?_of_ok h)
    unfold standing
    rw [hget]
    by_cases hq : p = q
    · rw [if_pos hq, if_pos hq]
      rfl
    · rw [if_neg hq, if_neg hq]

end ProfileTable

namespace WithOutages
variable {σ α : Type}

theorem call_eq_ok {s t : WithOutages σ} {c : Call} {f : σ → Called σ α} {a : α}
    (h : s.call c f = .ok (a, t)) : f s.service = .ok (a, t.service) := by
  unfold call at h
  split at h
  · cases h
  · cases hf : f s.service with
    | error e => rw [hf] at h; cases h
    | ok x => rw [hf] at h; cases h; rfl

instance [ProfileProvider σ] [LawfulProfiles σ] : LawfulProfiles (WithOutages σ) where
  standing s := LawfulProfiles.standing s.service
  profile h := LawfulProfiles.profile (call_eq_ok h)
  setChatStatus h := LawfulProfiles.setChatStatus (call_eq_ok h)

end WithOutages

namespace Service

open Chat (Log)

variable {π α β : Type}

/-! ## what lookups leave alone -/

/-- relates the profiles before any number of lookups to those after -/
structure SurvivesLookups [ProfileProvider π] (R : π → π → Prop) : Prop where
  refl : ∀ s, R s s
  trans : ∀ {s t u}, R s t → R t u → R s u
  lookup : ∀ {s t : π} {p : SteamId} {f : Profile},
    ProfileProvider.profile s p = .ok (f, t) → R s t

/-- the profiles before and after a call are related, however it ends -/
def Keeps (R : π → π → Prop) (m : Serving (WithOutages Log) π α) : Prop :=
  ∀ s, R s.profiles (after m s).profiles

section
variable [ProfileProvider π] {R : π → π → Prop} {m : Serving (WithOutages Log) π α}
  {f : α → Serving (WithOutages Log) π β}

theorem keeps_pure (h : SurvivesLookups R) (a : α) :
    Keeps R (pure a : Serving (WithOutages Log) π α) := fun s => h.refl s.profiles

theorem keeps_throw (h : SurvivesLookups R) (e : QueueError) :
    Keeps R (throw e : Serving (WithOutages Log) π α) := fun s => h.refl s.profiles

theorem keeps_get (h : SurvivesLookups R) :
    Keeps R (get : Serving (WithOutages Log) π (InMemory π)) := fun s => h.refl s.profiles

theorem keeps_onCoordinator (h : SurvivesLookups R)
    (f : Coordinator → Coordinator.Outcome × α) :
    Keeps R (onCoordinator f : Serving (WithOutages Log) π α) := fun s => h.refl s.profiles

theorem keeps_bind (h : SurvivesLookups R) (hm : Keeps R m) (hf : ∀ a, Keeps R (f a)) :
    Keeps R (m >>= f) := by
  intro s
  have hfirst := hm s
  unfold after at hfirst ⊢
  rw [run_bind]
  cases hrun : m.run s with
  | mk result t =>
    rw [hrun] at hfirst
    cases result with
    | error e => exact hfirst
    | ok a => exact h.trans hfirst (hf a t)

theorem keeps_throw_bind (h : SurvivesLookups R) (e : QueueError) : Keeps R (throw e >>= f) :=
  fun s => h.refl s.profiles

theorem keeps_unless (h : SurvivesLookups R) {c : Prop} [Decidable c] {e : QueueError}
    {m : Serving (WithOutages Log) π β} (hm : Keeps R m) :
    Keeps R (if c then m else throw e >>= f) := by
  split
  · exact hm
  · exact keeps_throw_bind h e

theorem keeps_when (h : SurvivesLookups R) {c : Prop} [Decidable c] {e : QueueError}
    {m : Serving (WithOutages Log) π β} (hm : Keeps R m) :
    Keeps R (if c then throw e >>= f else m) := by
  split
  · exact keeps_throw_bind h e
  · exact hm

theorem keeps_lift (h : SurvivesLookups R) {x : Except QueueError α} (hf : ∀ a, Keeps R (f a)) :
    Keeps R (liftM x >>= f) := by
  cases x with
  | ok a => exact hf a
  | error e => exact fun s => h.refl s.profiles

theorem keeps_onStore (h : SurvivesLookups R) (g : WithOutages Log → Called (WithOutages Log) α) :
    Keeps R (onStore g : Serving (WithOutages Log) π α) := by
  intro s
  unfold after
  rw [run_onStore]
  cases g s.store <;> exact h.refl s.profiles

theorem keeps_lookup (h : SurvivesLookups R) (p : SteamId) :
    Keeps R (onProfiles (ProfileProvider.profile · p) : Serving (WithOutages Log) π Profile) := by
  intro s
  unfold after
  rw [run_onProfiles]
  cases hcall : ProfileProvider.profile s.profiles p with
  | error e => exact h.refl s.profiles
  | ok x => exact h.lookup hcall

theorem keeps_caller (h : SurvivesLookups R) (p : SteamId) :
    Keeps R (caller p : Serving (WithOutages Log) π Profile) := by
  unfold caller
  exact keeps_unless h (keeps_lookup h p)

theorem keeps_authorize (h : SurvivesLookups R) (actor : Profile) (action : Moderation) :
    Keeps R (authorize actor action : Serving (WithOutages Log) π Unit) := by
  unfold authorize
  refine keeps_bind h (keeps_get h) fun s => ?_
  split
  · exact keeps_pure h ()
  · exact keeps_throw h _

/-! ## calls -/

theorem keeps_addMessage (h : SurvivesLookups R) (author : Session) (createdOn : Timestamp)
    (body : String) : Keeps R (addMessage author createdOn body : Serving (WithOutages Log) π _) := by
  unfold addMessage
  refine keeps_unless h ?_
  refine keeps_lift h fun text => ?_
  refine keeps_bind h (keeps_onStore h _) fun saved => ?_
  refine keeps_bind h (keeps_onCoordinator h _) fun _ => ?_
  exact keeps_pure h saved

theorem keeps_removal (h : SurvivesLookups R) (ids : List Int) (a : α) :
    Keeps R (do
      onStore (ChatStore.delete · ids)
      let _ ← onCoordinator fun c => c.purge ids
      return a : Serving (WithOutages Log) π α) := by
  refine keeps_bind h (keeps_onStore h _) fun _ => ?_
  refine keeps_bind h (keeps_onCoordinator h _) fun _ => ?_
  exact keeps_pure h a

theorem keeps_purgeAuthor (h : SurvivesLookups R) (actor target : SteamId) (count : Nat) :
    Keeps R (purgeAuthor actor target count : Serving (WithOutages Log) π _) := by
  unfold purgeAuthor
  refine keeps_bind h (keeps_caller h _) fun actor => ?_
  refine keeps_bind h (keeps_lookup h _) fun target => ?_
  refine keeps_bind h (keeps_authorize h _ _) fun _ => ?_
  refine keeps_bind h (keeps_get h) fun s => ?_
  dsimp only
  split
  · exact keeps_pure h _
  · exact keeps_removal h _ _

theorem keeps_deleteMessage (h : SurvivesLookups R) (actor : SteamId) (id : Int) :
    Keeps R (deleteMessage actor id : Serving (WithOutages Log) π _) := by
  unfold deleteMessage
  refine keeps_bind h (keeps_caller h _) fun actor => ?_
  refine keeps_bind h (keeps_onStore h _) fun message => ?_
  refine keeps_when h ?_
  refine keeps_bind h (keeps_lookup h _) fun target => ?_
  refine keeps_bind h (keeps_authorize h _ _) fun _ => ?_
  exact keeps_removal h [id] ()

/-- asks for another status of a player -/
def Request.isRuling : Request → Bool
  | .setChatStatus _ _ _ _ => true
  | _ => false

/-- No other request does more to the profiles than to look them up. -/
theorem keeps_perform (h : SurvivesLookups R) (s : InMemory π) {r : Request}
    (hr : r.isRuling = false) : R s.profiles (perform s r).profiles := by
  cases r with
  | addMessage author createdOn body => exact keeps_addMessage h author createdOn body s
  | purgeAuthor actor target count => exact keeps_purgeAuthor h actor target count s
  | purge actor anchor count =>
    have hpurge : Keeps R (purge actor anchor count : Serving (WithOutages Log) π _) := by
      unfold purge
      exact keeps_bind h (keeps_onStore h _) fun anchor => keeps_purgeAuthor h _ _ _
    exact hpurge s
  | deleteMessage actor id => exact keeps_deleteMessage h actor id s
  | setChatStatus actor target status reason => cases hr

end

/-! ## changes of status -/

section
variable [ProfileProvider π] [LawfulProfiles π] {s t : InMemory π}

/-- the chat status that is kept for a player -/
def standing (s : InMemory π) (p : SteamId) : ChatStatus := LawfulProfiles.standing s.profiles p

/-- every player has the same status -/
def SameStanding (s t : π) : Prop :=
  ∀ p, LawfulProfiles.standing t p = LawfulProfiles.standing s p

theorem sameStanding_survivesLookups : SurvivesLookups (SameStanding (π := π)) where
  refl _ _ := rfl
  trans h h' p := (h' p).trans (h p)
  lookup h := (LawfulProfiles.profile h).2.2

/-- the status of a player is changed, first the one that is kept and then that of the session -/
structure Changes (p : SteamId) (status : ChatStatus) (reason : String) (s t : InMemory π) :
    Prop where
  coordinator : t.coordinator = (s.coordinator.updateChatStatus p status reason).1.state
  standing : ∀ q, t.standing q = if p = q then status else s.standing q

/-- neither is changed -/
structure Leaves (s t : InMemory π) : Prop where
  coordinator : t.coordinator = s.coordinator
  standing : ∀ q, t.standing q = s.standing q

/-- changes the status of a player, or fails and changes nothing -/
def Rules (p : SteamId) (status : ChatStatus) (reason : String)
    (m : Serving (WithOutages Log) π α) : Prop :=
  ∀ s, match m.run s with
    | (.ok _, t) => Changes p status reason s t
    | (.error _, t) => Leaves s t

variable {p : SteamId} {status : ChatStatus} {reason : String}

theorem leaves_of_looks {m : Serving (WithOutages Log) π α} (hlooks : Looks m)
    (hkeeps : Keeps SameStanding m) (s : InMemory π) : Leaves s (m.run s).2 := by
  refine ⟨?_, hkeeps s⟩
  have hs := hlooks s
  cases hrun : m.run s with
  | mk result t =>
    rw [hrun] at hs
    cases result with
    | error e => exact (does_nothing_iff.1 hs).2.1
    | ok a =>
      obtain ⟨d, rfl, hd⟩ := hs
      exact (does_nothing_iff.1 hd).2.1

/-- What comes first may look, and what follows may take for granted what was found. -/
theorem rules_bind {m : Serving (WithOutages Log) π α} {f : α → Serving (WithOutages Log) π β}
    (hlooks : Looks m) (hkeeps : Keeps SameStanding m)
    (hf : ∀ s a t, m.run s = (.ok a, t) → Rules p status reason (f a)) :
    Rules p status reason (m >>= f) := by
  intro s
  have hleaves := leaves_of_looks hlooks hkeeps s
  rw [run_bind]
  cases hrun : m.run s with
  | mk result t =>
    rw [hrun] at hleaves
    cases result with
    | error e => exact hleaves
    | ok a =>
      have hrest := hf s a t hrun t
      show match (f a).run t with
        | (.ok _, u) => Changes p status reason s u
        | (.error _, u) => Leaves s u
      cases hrun' : (f a).run t with
      | mk result' u =>
        rw [hrun'] at hrest
        cases result' with
        | error e =>
          exact ⟨hrest.coordinator.trans hleaves.coordinator,
            fun q => (hrest.standing q).trans (hleaves.standing q)⟩
        | ok b =>
          refine ⟨by rw [hrest.coordinator, hleaves.coordinator], fun q => ?_⟩
          rw [hrest.standing q, hleaves.standing q]

theorem rules_when {c : Prop} [Decidable c] {e : QueueError}
    {m : Serving (WithOutages Log) π β} {f : α → Serving (WithOutages Log) π β}
    (hm : Rules p status reason m) : Rules p status reason (if c then throw e >>= f else m) := by
  split
  · exact fun s => ⟨rfl, fun _ => rfl⟩
  · exact hm

theorem rules_unless {c : Prop} [Decidable c] {e : QueueError}
    {m : Serving (WithOutages Log) π β} {f : α → Serving (WithOutages Log) π β}
    (hm : Rules p status reason m) : Rules p status reason (if c then m else throw e >>= f) := by
  split
  · exact hm
  · exact fun s => ⟨rfl, fun _ => rfl⟩

theorem rules_change (p : SteamId) (status : ChatStatus) (reason : String) :
    Rules p status reason (do
      onProfiles (ProfileProvider.setChatStatus · p status)
      let _ ← onCoordinator fun c => c.updateChatStatus p status reason
      return () : Serving (WithOutages Log) π Unit) := by
  intro s
  rw [run_bind, run_onProfiles]
  cases hcall : ProfileProvider.setChatStatus s.profiles p status with
  | error e => exact ⟨rfl, fun _ => rfl⟩
  | ok x => exact ⟨rfl, LawfulProfiles.setChatStatus hcall⟩

theorem rules_setChatStatus (actor target : SteamId) (status : ChatStatus) (reason : String) :
    Rules target status reason
      (setChatStatus actor target status reason : Serving (WithOutages Log) π _) := by
  have h : SurvivesLookups (SameStanding (π := π)) := sameStanding_survivesLookups
  unfold setChatStatus
  refine rules_unless ?_
  refine rules_bind (looks_caller _) (keeps_caller h _) fun _ actor _ _ => ?_
  refine rules_when ?_
  refine rules_bind (looks_onProfiles _) (keeps_lookup h _) fun s found t hfound => ?_
  have hplayer : found.steamId = target := by
    rw [run_onProfiles] at hfound
    cases hcall : ProfileProvider.profile s.profiles target with
    | error e => rw [hcall] at hfound; cases hfound
    | ok x =>
      rw [hcall] at hfound
      cases hfound
      exact (LawfulProfiles.profile hcall).1
  refine rules_bind (looks_authorize _ _) (keeps_authorize h _ _) fun _ _ _ _ => ?_
  refine rules_when ?_
  rw [hplayer]
  exact rules_change target status reason

/-! ## any call -/

/-- the player whose status a request changes, and to what; none if it is refused or is about
something else -/
def ruling? (s : InMemory π) : Request → Option (SteamId × ChatStatus)
  | .setChatStatus actor target status reason =>
    if ((setChatStatus actor target status reason).run s).1.isOk then some (target, status) else none
  | _ => none

omit [LawfulProfiles π] in
theorem ruling?_setChatStatus (s : InMemory π) (actor target : SteamId) (status : ChatStatus)
    (reason : String) :
    s.ruling? (.setChatStatus actor target status reason) =
      if ((setChatStatus actor target status reason).run s).1.isOk then some (target, status)
      else none := rfl

theorem perform_setChatStatus (s : InMemory π) (actor target : SteamId) (status : ChatStatus)
    (reason : String) :
    let r := Request.setChatStatus actor target status reason
    (s.ruling? r = some (target, status) ∧ Changes target status reason s (perform s r)) ∨
      (s.ruling? r = none ∧ Leaves s (perform s r)) := by
  intro r
  have hrules := rules_setChatStatus actor target status reason s
  have hperform : perform s r = ((setChatStatus actor target status reason).run s).2 := rfl
  rw [hperform, ruling?_setChatStatus]
  generalize (setChatStatus actor target status reason).run s = x at hrules
  obtain ⟨result, t⟩ := x
  cases result with
  | ok u => exact .inl ⟨rfl, hrules⟩
  | error e => exact .inr ⟨rfl, hrules⟩

/-- has the same sessions, and every player has the same status for good -/
structure Spares (s t : InMemory π) : Prop where
  clients : t.coordinator.clients = s.coordinator.clients
  aside : t.coordinator.aside = s.coordinator.aside
  standing : ∀ q, t.standing q = s.standing q

theorem Leaves.spares (h : Leaves s t) : Spares s t :=
  ⟨congrArg Coordinator.clients h.coordinator, congrArg Coordinator.aside h.coordinator, h.standing⟩

omit [ProfileProvider π] [LawfulProfiles π] in
theorem Request.Wants.isRuling {r : Request} {p : SteamId} {status : ChatStatus} {reason : String}
    (h : r.Wants (.setStatus p status reason)) : r.isRuling = true := by
  cases r with
  | setChatStatus actor target requested why => rfl
  | addMessage author createdOn body =>
    obtain ⟨-, text, -, h⟩ := h
    cases h
  | deleteMessage actor id => cases h
  | purge actor anchor count =>
    obtain ⟨ids, h⟩ := h
    cases h
  | purgeAuthor actor target count =>
    obtain ⟨ids, h⟩ := h
    cases h

omit [ProfileProvider π] [LawfulProfiles π] in
theorem Deed.sessions_outcome {d : Deed}
    (hd : ∀ p status reason, d ≠ .setStatus p status reason) (log : Log) (c : Coordinator) :
    (d.outcome log c).state.clients = c.clients ∧ (d.outcome log c).state.aside = c.aside := by
  cases d with
  | remove ids =>
    show (c.purge ids).1.state.clients = _ ∧ (c.purge ids).1.state.aside = _
    unfold Coordinator.purge
    split <;> exact ⟨rfl, rfl⟩
  | setStatus p status reason => exact absurd rfl (hd p status reason)
  | _ => exact ⟨rfl, rfl⟩

theorem spares_perform (s : InMemory π) {r : Request} (hr : r.isRuling = false) :
    Spares s (perform s r) := by
  obtain ⟨d, hd, hdoes⟩ := perform_does s r
  have hne : ∀ p status reason, d ≠ .setStatus p status reason := by
    rintro p status reason rfl
    rcases hd with hd | hd
    · cases hd
    · rw [hd.isRuling] at hr
      cases hr
  obtain ⟨hclients, haside⟩ := Deed.sessions_outcome hne s.log s.coordinator
  rw [← hdoes.coordinator] at hclients haside
  exact ⟨hclients, haside, keeps_perform sameStanding_survivesLookups s hr⟩

/-- **A request changes the status of one player, or no status at all.** -/
theorem perform_cases (s : InMemory π) (r : Request) :
    (∃ p status reason, s.ruling? r = some (p, status) ∧ Changes p status reason s (perform s r)) ∨
      (s.ruling? r = none ∧ Spares s (perform s r)) := by
  cases r with
  | setChatStatus actor target status reason =>
    rcases perform_setChatStatus s actor target status reason with ⟨hruling, h⟩ | ⟨hruling, h⟩
    · exact .inl ⟨target, status, reason, hruling, h⟩
    · exact .inr ⟨hruling, h.spares⟩
  | _ => exact .inr ⟨rfl, spares_perform s rfl⟩

end

end Service

end Matchmaker
