import Matchmaker.Chat.Log
import Matchmaker.Service

/-!
# What a call comes to

Over a store in memory a call of the service does one thing at most: it posts a message, removes
messages, changes a chat status, or fills the history (`Deed`).  Everything before that only looks,
at profiles, at the policy, at stored and recent messages, and may end the call; so a call that
fails has done nothing.

`Does` gives the stored messages, the coordinator and what is asked of the connections after a deed.
A call is taken apart once, part by part (`comes_bind`, `comes_unless`), and what it can come to is
summed up in `perform_does`.
-/

namespace Matchmaker.Service

open Chat (Log)
open Coordinator (Outcome)

variable {σ π α β : Type}

/-- a service whose messages are kept in memory, by a store that may be down -/
abbrev InMemory (π : Type) := Service (WithOutages Log) π

/-- the stored messages -/
def log (s : InMemory π) : Log := s.store.service

/-- the service after a call, whether it has failed or not -/
def after (m : Serving (WithOutages Log) π α) (s : InMemory π) : InMemory π := (m.run s).2

/-! ## deeds -/

inductive Deed where
  | nothing
  | post (e : ChatEntry)
  | remove (ids : List Int)
  | setStatus (p : SteamId) (status : ChatStatus) (reason : String)
  /-- takes the newest stored messages into the history -/
  | seed (limit : Nat)

namespace Deed

def log (log : Log) : Deed → Log
  | post e => (log.save e).2
  | remove ids => log.delete ids
  | _ => log

def outcome (log : Log) (c : Coordinator) : Deed → Outcome
  | nothing => .still c
  | post e => c.message (log.save e).1
  | remove ids => (c.purge ids).1
  | setStatus p status reason => (c.updateChatStatus p status reason).1
  | seed limit => .still (c.seed (log.recent limit))

end Deed

structure Does (s : InMemory π) (d : Deed) (t : InMemory π) : Prop where
  log : t.log = d.log s.log
  coordinator : t.coordinator = (d.outcome s.log s.coordinator).state
  effects : t.effects = s.effects ++ (d.outcome s.log s.coordinator).effects

theorem does_nothing_iff {s t : InMemory π} :
    Does s .nothing t ↔ t.log = s.log ∧ t.coordinator = s.coordinator ∧ t.effects = s.effects := by
  constructor
  · exact fun h => ⟨h.log, h.coordinator, h.effects.trans (List.append_nil _)⟩
  · exact fun ⟨hlog, hcoordinator, heffects⟩ =>
      ⟨hlog, hcoordinator, heffects.trans (List.append_nil _).symm⟩

theorem Does.refl (s : InMemory π) : Does s .nothing s := does_nothing_iff.2 ⟨rfl, rfl, rfl⟩

/-- To look before a deed makes no difference. -/
theorem Does.after_nothing {s t u : InMemory π} {d : Deed} (hst : Does s .nothing t)
    (htu : Does t d u) : Does s d u := by
  obtain ⟨hlog, hcoordinator, heffects⟩ := does_nothing_iff.1 hst
  obtain ⟨hlog', hcoordinator', heffects'⟩ := htu
  rw [hlog, hcoordinator] at hcoordinator' heffects'
  rw [hlog] at hlog'
  rw [heffects] at heffects'
  exact ⟨hlog', hcoordinator', heffects'⟩

/-! ## parts of calls -/

/-- ends with one of these deeds, given its result, or fails and has done nothing -/
def Comes (m : Serving (WithOutages Log) π α) (allowed : α → Deed → Prop) : Prop :=
  ∀ s, match m.run s with
    | (.ok a, t) => ∃ d, allowed a d ∧ Does s d t
    | (.error _, t) => Does s .nothing t

/-- does nothing, whatever comes of it -/
def Looks (m : Serving (WithOutages Log) π α) : Prop := Comes m fun _ d => d = .nothing

theorem Comes.imp {m : Serving (WithOutages Log) π α} {allowed allowed' : α → Deed → Prop}
    (h : Comes m allowed) (himp : ∀ a d, allowed a d → allowed' a d) : Comes m allowed' := by
  intro s
  have hs := h s
  cases hrun : m.run s with
  | mk result t =>
    rw [hrun] at hs
    cases result with
    | error e => exact hs
    | ok a => exact hs.imp fun d hd => ⟨himp a d hd.1, hd.2⟩

theorem Comes.does {m : Serving (WithOutages Log) π α} {allowed : α → Deed → Prop}
    (h : Comes m allowed) {wanted : Deed → Prop}
    (himp : ∀ a d, allowed a d → d = .nothing ∨ wanted d) (s : InMemory π) :
    ∃ d, (d = .nothing ∨ wanted d) ∧ Does s d (after m s) := by
  have hs := h s
  unfold after
  cases hrun : m.run s with
  | mk result t =>
    rw [hrun] at hs
    cases result with
    | error e => exact ⟨.nothing, .inl rfl, hs⟩
    | ok a => exact hs.imp fun d hd => ⟨himp a d hd.1, hd.2⟩

theorem run_bind (m : Serving σ π α) (f : α → Serving σ π β) (s : Service σ π) :
    (m >>= f).run s = match m.run s with
      | (.ok a, t) => (f a).run t
      | (.error e, t) => (.error e, t) := by
  show (ExceptT.bindCont f (m.run s).1) (m.run s).2 = _
  cases m.run s with
  | mk result t => cases result <;> rfl

theorem comes_pure (a : α) :
    Comes (pure a : Serving (WithOutages Log) π α) fun b d => b = a ∧ d = .nothing :=
  fun s => ⟨.nothing, ⟨rfl, rfl⟩, .refl s⟩

theorem looks_pure (a : α) : Looks (pure a : Serving (WithOutages Log) π α) :=
  (comes_pure a).imp fun _ _ hd => hd.2

theorem looks_throw (e : QueueError) : Looks (throw e : Serving (WithOutages Log) π α) := .refl

theorem run_get (s : Service σ π) :
    (get : Serving σ π (Service σ π)).run s = (.ok s, s) := rfl

theorem looks_get : Looks (get : Serving (WithOutages Log) π (InMemory π)) :=
  fun s => ⟨.nothing, rfl, .refl s⟩

theorem comes_bind {m : Serving (WithOutages Log) π α} {f : α → Serving (WithOutages Log) π β}
    {allowed : β → Deed → Prop} (hm : Looks m) (hf : ∀ a, Comes (f a) allowed) :
    Comes (m >>= f) allowed := by
  intro s
  have hlook := hm s
  rw [run_bind]
  cases hrun : m.run s with
  | mk result t =>
    rw [hrun] at hlook
    cases result with
    | error e => exact hlook
    | ok a =>
      obtain ⟨d, rfl, hd⟩ := hlook
      have hrest := hf a t
      show match (f a).run t with
        | (.ok b, u) => ∃ d, allowed b d ∧ Does s d u
        | (.error _, u) => Does s .nothing u
      cases hrun' : (f a).run t with
      | mk result' u =>
        rw [hrun'] at hrest
        cases result' with
        | error e => exact hd.after_nothing hrest
        | ok b =>
          obtain ⟨d', hallowed, hd'⟩ := hrest
          exact ⟨d', hallowed, hd.after_nothing hd'⟩

theorem comes_throw_bind (e : QueueError) (f : α → Serving (WithOutages Log) π β)
    (allowed : β → Deed → Prop) : Comes (throw e >>= f) allowed := .refl

/-- What follows a check may take it for granted. -/
theorem comes_unless {c : Prop} [Decidable c] {e : QueueError}
    {m : Serving (WithOutages Log) π β} {f : α → Serving (WithOutages Log) π β}
    {allowed : β → Deed → Prop} (hm : c → Comes m allowed) :
    Comes (if c then m else throw e >>= f) allowed := by
  split
  · rename_i hc
    exact hm hc
  · exact comes_throw_bind e f allowed

theorem comes_when {c : Prop} [Decidable c] {e : QueueError}
    {m : Serving (WithOutages Log) π β} {f : α → Serving (WithOutages Log) π β}
    {allowed : β → Deed → Prop} (hm : ¬ c → Comes m allowed) :
    Comes (if c then throw e >>= f else m) allowed := by
  split
  · exact comes_throw_bind e f allowed
  · rename_i hc
    exact hm hc

theorem comes_lift {x : Except QueueError α} {f : α → Serving (WithOutages Log) π β}
    {allowed : β → Deed → Prop} (hf : ∀ a, x = .ok a → Comes (f a) allowed) :
    Comes (liftM x >>= f) allowed := by
  cases x with
  | ok a => exact hf a rfl
  | error e => exact .refl

theorem run_onStore (f : σ → Called σ α) (s : Service σ π) :
    (onStore f : Serving σ π α).run s = match f s.store with
      | .ok (a, store) => (.ok a, { s with store })
      | .error e => (.error (.collaborator e), s) := by
  unfold onStore
  rw [run_bind, run_get]
  dsimp only
  cases f s.store <;> rfl

theorem run_onProfiles (f : π → Called π α) (s : Service σ π) :
    (onProfiles f : Serving σ π α).run s = match f s.profiles with
      | .ok (a, profiles) => (.ok a, { s with profiles })
      | .error e => (.error (.collaborator e), s) := by
  unfold onProfiles
  rw [run_bind, run_get]
  dsimp only
  cases f s.profiles <;> rfl

theorem looks_onProfiles (f : π → Called π α) :
    Looks (onProfiles f : Serving (WithOutages Log) π α) := by
  intro s
  rw [run_onProfiles]
  cases f s.profiles with
  | error e => exact .refl s
  | ok x => exact ⟨.nothing, rfl, does_nothing_iff.2 ⟨rfl, rfl, rfl⟩⟩

/-- A store in memory is the same after a call that only reads. -/
theorem looks_onStore {f : WithOutages Log → Called (WithOutages Log) α}
    (hf : ∀ w a u, f w = .ok (a, u) → u.service = w.service) :
    Looks (onStore f : Serving (WithOutages Log) π α) := by
  intro s
  rw [run_onStore]
  cases hcall : f s.store with
  | error e => exact .refl s
  | ok x => exact ⟨.nothing, rfl, does_nothing_iff.2 ⟨hf _ _ _ hcall, rfl, rfl⟩⟩

theorem looks_message (id : Int) :
    Looks (onStore (ChatStore.message · id) : Serving (WithOutages Log) π ChatEntry) := by
  refine looks_onStore fun w a u h => ?_
  change w.call .message (fun log => ChatStore.message log id) = _ at h
  unfold WithOutages.call at h
  split at h
  · cases h
  · dsimp only [ChatStore.message] at h
    cases hfound : w.service.get? id with
    | none =>
      rw [hfound] at h
      cases h
    | some e =>
      rw [hfound] at h
      cases h
      rfl

theorem looks_caller [ProfileProvider π] (p : SteamId) :
    Looks (caller p : Serving (WithOutages Log) π Profile) := by
  unfold caller
  exact comes_unless fun _ => looks_onProfiles _

theorem looks_authorize (actor : Profile) (action : Moderation) :
    Looks (authorize actor action : Serving (WithOutages Log) π Unit) := by
  unfold authorize
  refine comes_bind looks_get fun s => ?_
  split
  · exact looks_pure ()
  · exact looks_throw _

/-! ## deeds at the end of calls -/

theorem comes_post (e : ChatEntry) :
    Comes (do
      let saved ← onStore (ChatStore.save · e)
      onCoordinator fun c => (c.message saved, ())
      return saved : Serving (WithOutages Log) π ChatEntry) fun _ d => d = .post e := by
  intro s
  have hcall : ChatStore.save s.store e =
      if Call.save ∈ s.store.down then .error (.unavailable (Call.save.name ++ " down"))
      else .ok ((s.log.save e).1, { s.store with service := (s.log.save e).2 }) := rfl
  rw [run_bind, run_onStore, hcall]
  by_cases hdown : Call.save ∈ s.store.down
  · rw [if_pos hdown]
    exact .refl s
  · rw [if_neg hdown]
    exact ⟨.post e, rfl, rfl, rfl, rfl⟩

theorem comes_remove (ids : List Int) (a : α) :
    Comes (do
      onStore (ChatStore.delete · ids)
      let _ ← onCoordinator fun c => c.purge ids
      return a : Serving (WithOutages Log) π α) fun b d => b = a ∧ d = .remove ids := by
  intro s
  have hcall : ChatStore.delete s.store ids =
      if Call.delete ∈ s.store.down then .error (.unavailable (Call.delete.name ++ " down"))
      else .ok ((), { s.store with service := s.log.delete ids }) := rfl
  rw [run_bind, run_onStore, hcall]
  by_cases hdown : Call.delete ∈ s.store.down
  · rw [if_pos hdown]
    exact .refl s
  · rw [if_neg hdown]
    exact ⟨.remove ids, ⟨rfl, rfl⟩, rfl, rfl, rfl⟩

theorem comes_seed (limit : Nat) :
    Comes (do
      let entries ← onStore (ChatStore.recent · limit)
      onCoordinator fun c => (.still (c.seed entries), ())
      return entries.length : Serving (WithOutages Log) π Nat) fun _ d => d = .seed limit := by
  intro s
  have hcall : ChatStore.recent s.store limit =
      if Call.recent ∈ s.store.down then .error (.unavailable (Call.recent.name ++ " down"))
      else .ok (s.log.recent limit, s.store) := rfl
  rw [run_bind, run_onStore, hcall]
  by_cases hdown : Call.recent ∈ s.store.down
  · rw [if_pos hdown]
    exact .refl s
  · rw [if_neg hdown]
    exact ⟨.seed limit, rfl, rfl, rfl, rfl⟩

theorem comes_setStatus (p : SteamId) (status : ChatStatus) (reason : String) :
    Comes (do
      let _ ← onCoordinator fun c => c.updateChatStatus p status reason
      return () : Serving (WithOutages Log) π Unit) fun _ d => d = .setStatus p status reason :=
  fun _ => ⟨.setStatus p status reason, rfl, rfl, rfl, rfl⟩

/-! ## calls -/

theorem addMessage_comes (author : Session) (createdOn : Timestamp) (body : String) :
    Comes (addMessage author createdOn body : Serving (WithOutages Log) π _) fun _ d =>
      author.chatStatus.canPost = true ∧ ∃ text, Chat.sanitize body = .ok text ∧
        d = .post (draft author createdOn text) := by
  unfold addMessage
  refine comes_unless fun hpost => ?_
  refine comes_lift fun text htext => ?_
  exact (comes_post _).imp fun _ d hd => ⟨hpost, text, htext, hd⟩

theorem seedHistory_comes :
    Comes (seedHistory : Serving (WithOutages Log) π Nat) fun _ d => ∃ limit, d = .seed limit := by
  unfold seedHistory
  refine comes_bind looks_get fun s => ?_
  exact (comes_seed s.historySize).imp fun _ d hd => ⟨s.historySize, hd⟩

variable [ProfileProvider π]

theorem purgeAuthor_comes (actor target : SteamId) (count : Nat) :
    Comes (purgeAuthor actor target count : Serving (WithOutages Log) π _) fun ids d =>
      d = if ids.isEmpty then .nothing else .remove ids := by
  unfold purgeAuthor
  refine comes_bind (looks_caller _) fun actor => ?_
  refine comes_bind (looks_onProfiles _) fun target => ?_
  refine comes_bind (looks_authorize _ _) fun _ => ?_
  refine comes_bind looks_get fun s => ?_
  dsimp only
  split
  · rename_i hempty
    refine (comes_pure _).imp fun ids d hd => ?_
    rw [hd.1, hd.2, if_pos hempty]
  · rename_i hids
    refine (comes_remove _ _).imp fun ids d hd => ?_
    rw [hd.1, hd.2, if_neg hids]

theorem purge_comes (actor : SteamId) (anchor : Int) (count : Nat) :
    Comes (purge actor anchor count : Serving (WithOutages Log) π _) fun ids d =>
      d = if ids.isEmpty then .nothing else .remove ids := by
  unfold purge
  exact comes_bind (looks_message _) fun anchor => purgeAuthor_comes _ _ _

theorem deleteMessage_comes (actor : SteamId) (id : Int) :
    Comes (deleteMessage actor id : Serving (WithOutages Log) π _) fun _ d => d = .remove [id] := by
  unfold deleteMessage
  refine comes_bind (looks_caller _) fun actor => ?_
  refine comes_bind (looks_message _) fun message => ?_
  refine comes_when fun hdeleted => ?_
  refine comes_bind (looks_onProfiles _) fun target => ?_
  refine comes_bind (looks_authorize _ _) fun _ => ?_
  exact (comes_remove [id] ()).imp fun _ d hd => hd.2

theorem setChatStatus_comes (actor target : SteamId) (status : ChatStatus) (reason : String) :
    Comes (setChatStatus actor target status reason : Serving (WithOutages Log) π _) fun _ d =>
      ∃ p, d = .setStatus p status reason := by
  unfold setChatStatus
  refine comes_unless fun hvalid => ?_
  refine comes_bind (looks_caller _) fun actor => ?_
  refine comes_when fun hself => ?_
  refine comes_bind (looks_onProfiles _) fun target => ?_
  refine comes_bind (looks_authorize _ _) fun _ => ?_
  refine comes_when fun hsame => ?_
  refine comes_bind (looks_onProfiles _) fun _ => ?_
  exact (comes_setStatus _ status reason).imp fun _ d hd => ⟨_, hd⟩

/-! ## any call -/

/-- a call on behalf of a player -/
inductive Request where
  | addMessage (author : Session) (createdOn : Timestamp) (body : String)
  | purge (actor : SteamId) (anchor : Int) (count : Nat)
  | purgeAuthor (actor target : SteamId) (count : Nat)
  | deleteMessage (actor : SteamId) (id : Int)
  | setChatStatus (actor target : SteamId) (status : ChatStatus) (reason : String)

def perform (s : InMemory π) : Request → InMemory π
  | .addMessage author createdOn body => after (addMessage author createdOn body) s
  | .purge actor anchor count => after (purge actor anchor count) s
  | .purgeAuthor actor target count => after (purgeAuthor actor target count) s
  | .deleteMessage actor id => after (deleteMessage actor id) s
  | .setChatStatus actor target status reason => after (setChatStatus actor target status reason) s

/-- what is done if the request is granted -/
def Request.Wants : Request → Deed → Prop
  | .addMessage author createdOn body, d => author.chatStatus.canPost = true ∧
      ∃ text, Chat.sanitize body = .ok text ∧ d = .post (draft author createdOn text)
  | .purge _ _ _, d => ∃ ids, d = .remove ids
  | .purgeAuthor _ _ _, d => ∃ ids, d = .remove ids
  | .deleteMessage _ id, d => d = .remove [id]
  | .setChatStatus _ _ status reason, d => ∃ p, d = .setStatus p status reason

theorem exists_removal {ids : List Int} {d : Deed}
    (h : d = if ids.isEmpty then .nothing else .remove ids) :
    d = .nothing ∨ ∃ ids, d = .remove ids := by
  split at h
  · exact .inl h
  · exact .inr ⟨ids, h⟩

/-- **A call does what it wants, or nothing.** -/
theorem perform_does (s : InMemory π) (r : Request) :
    ∃ d, (d = .nothing ∨ r.Wants d) ∧ Does s d (perform s r) := by
  cases r with
  | addMessage author createdOn body =>
    exact (addMessage_comes author createdOn body).does (fun _ _ hd => .inr hd) s
  | purge actor anchor count =>
    exact (purge_comes actor anchor count).does (fun _ _ => exists_removal) s
  | purgeAuthor actor target count =>
    exact (purgeAuthor_comes actor target count).does (fun _ _ => exists_removal) s
  | deleteMessage actor id => exact (deleteMessage_comes actor id).does (fun _ _ hd => .inr hd) s
  | setChatStatus actor target status reason =>
    exact (setChatStatus_comes actor target status reason).does (fun _ _ hd => .inr hd) s

end Matchmaker.Service
