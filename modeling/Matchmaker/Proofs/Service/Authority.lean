import Matchmaker.Proofs.Service.Cache
import Matchmaker.Proofs.Service.Refusal

/-!
# Moderation needs authority

Messages are removed and statuses changed on behalf of someone (`Request.actor?`), and all of it
befalls one player (`Request.affected?`), who may be named only indirectly, by a message.  The actor
needs to be a moderator above that player, by the levels that are kept (`Authority`).

A request is granted only after the policy was asked about the very player that it then acts on
(`granted`), and one that is refused does nothing at all.  What is removed is found by its author
among the recent messages, and what is marked in the store is found by its number.  These agree,
since a recent message is stored under its number with the same author (`Attributed`).
-/

namespace Matchmaker

open Chat (Log)

/-! ## authors -/

namespace Chat.Log

/-- who wrote the message with a number -/
def author? (log : Log) (id : Int) : Option SteamId := (log.get? id).map ChatEntry.author

theorem author?_save {log : Log} {id : Int} {p : SteamId} (h : log.author? id = some p)
    (e : ChatEntry) : (log.save e).2.author? id = some p := by
  unfold author? at h ⊢
  obtain ⟨d, hd, rfl⟩ := Option.map_eq_some_iff.1 h
  rw [get?_save, hd]
  rfl

theorem author?_delete (log : Log) (ids : List Int) (id : Int) :
    (log.delete ids).author? id = log.author? id := by
  unfold author?
  rw [get?_delete, Option.map_map]
  congr 1
  funext e
  simp only [Function.comp_apply]
  split <;> rfl

theorem Numbered.author?_of_mem {log : Log} (h : log.Numbered) {e : ChatEntry}
    (he : e ∈ log.entries) : log.author? e.messageId = some e.author := by
  unfold author?
  rw [h.get?_of_mem he]
  rfl

theorem delete_nil (log : Log) : log.delete [] = log := by
  unfold delete
  simp

end Chat.Log

namespace Coordinator

theorem client?_updateChatStatus_of_ne (c : Coordinator) {p q : SteamId} (hq : q ≠ p)
    (status : ChatStatus) (reason : String) :
    (c.updateChatStatus p status reason).1.state.client? q = c.client? q := by
  cases hd : c.client? p with
  | none =>
    rw [updateChatStatus_of_none hd]
    rfl
  | some d =>
    rw [updateChatStatus_of_some hd]
    obtain ⟨-, hp⟩ := client?_eq_some_iff.1 hd
    show (c.clients.insert { d with chatStatus := status }).get? q.toNat = c.clients.get? q.toNat
    rw [Ascending.get?_insert]
    refine if_neg fun hkey => hq ?_
    exact (SteamId.ext_toNat hkey).symm.trans hp

theorem aside_updateChatStatus (c : Coordinator) (p : SteamId) (status : ChatStatus)
    (reason : String) : (c.updateChatStatus p status reason).1.state.aside = c.aside := by
  unfold updateChatStatus
  cases c.client? p <;> rfl

/-- A change of status is told to the player, who may get the recent chat again. -/
theorem not_purge_of_updateChatStatus {c : Coordinator} {p : SteamId} {status : ChatStatus}
    {reason : String} {n : Nat} {ids : List Int} :
    Effect.deliver n (.purge ids) ∉ (c.updateChatStatus p status reason).1.effects := by
  intro h
  cases hd : c.client? p with
  | none =>
    rw [updateChatStatus_of_none hd] at h
    cases h
  | some d =>
    rw [updateChatStatus_of_some hd] at h
    rcases List.mem_cons.1 h with h | h
    · cases h
    · split at h
      · obtain ⟨e, -, he⟩ := List.mem_map.1 h
        cases he
      · cases h

theorem eq_of_purge_mem_purge {c : Coordinator} {ids removed : List Int} {n : Nat}
    (h : Effect.deliver n (.purge removed) ∈ (c.purge ids).1.effects) : removed = ids := by
  unfold purge at h
  split at h
  · cases h
  · obtain ⟨e, -, -, he⟩ := mem_broadcast.1 h
    cases he
    rfl

end Coordinator

namespace Service

/-! ## authority -/

/-- may act on a player, by the levels that are kept; a player who is not known has that of a
newcomer -/
structure Authority (table : ProfileTable) (actor p : SteamId) : Prop where
  valid : actor.isValid = true
  level : ∃ a, table.get? actor = some a ∧ Profile.moderatorLevel ≤ a.permissionLevel ∧
    (table.profile p).1.permissionLevel < a.permissionLevel
  other : actor ≠ p

/-- Newcomers are no moderators, so the actor was known before. -/
theorem authority_of_byLevel {table : ProfileTable} {actor p : SteamId} {action : Moderation}
    (hvalid : actor.isValid = true)
    (htarget : action.target = ((table.profile actor).2.profile p).1)
    (hallowed : Moderation.byLevel (table.profile actor).1 action = true) :
    Authority table actor p := by
  unfold Moderation.byLevel at hallowed
  rw [htarget, ProfileTable.steamId_profile, ProfileTable.steamId_profile, Bool.and_eq_true,
    Bool.and_eq_true, decide_eq_true_iff, decide_eq_true_iff, bne_iff_ne] at hallowed
  obtain ⟨⟨hmoderator, habove⟩, hother⟩ := hallowed
  cases hknown : table.get? actor with
  | none =>
    rw [ProfileTable.profile_of_none hknown] at hmoderator
    have hnone : ¬ Profile.moderatorLevel ≤ Profile.userLevel := by decide
    exact absurd hmoderator hnone
  | some a =>
    rw [ProfileTable.profile_of_some hknown] at hmoderator habove
    exact ⟨hvalid, ⟨a, hknown, hmoderator, habove⟩, hother⟩

/-- on whose behalf messages are removed or a status is changed -/
def Request.actor? : Request → Option SteamId
  | .addMessage _ _ _ => none
  | .purge actor _ _ | .purgeAuthor actor _ _ | .deleteMessage actor _
  | .setChatStatus actor _ _ _ => some actor

/-- the player whose messages are removed or whose status is changed -/
def Request.affected? (log : Log) : Request → Option SteamId
  | .addMessage _ _ _ => none
  | .purge _ id _ | .deleteMessage _ id => log.author? id
  | .purgeAuthor _ target _ | .setChatStatus _ target _ _ => some target

/-! ## granted requests -/

section
variable {s t : InMemory ProfileTable} {actor target : SteamId}

theorem player_found {f : Profile} (h : (onProfiles (ProfileProvider.profile · target) :
      Serving (WithOutages Log) ProfileTable Profile).run s = (.ok f, t)) :
    f = (s.profiles.profile target).1 ∧
      t = { s with profiles := (s.profiles.profile target).2 } := by
  obtain ⟨profiles, hfound, rfl⟩ := onProfiles_eq_ok.1 h
  have hprofile : s.profiles.profile target = (f, profiles) := Except.ok.inj hfound
  rw [hprofile]
  exact ⟨rfl, rfl⟩

theorem caller_found {a : Profile}
    (h : (caller actor : Serving (WithOutages Log) ProfileTable Profile).run s = (.ok a, t)) :
    actor.isValid = true ∧ a = (s.profiles.profile actor).1 ∧
      t = { s with profiles := (s.profiles.profile actor).2 } := by
  obtain ⟨hvalid, profiles, hfound, rfl⟩ := caller_eq_ok.1 h
  have hprofile : s.profiles.profile actor = (a, profiles) := Except.ok.inj hfound
  rw [hprofile]
  exact ⟨hvalid, rfl, rfl⟩

theorem message_found {id : Int} {e : ChatEntry}
    (h : (onStore (ChatStore.message · id) :
      Serving (WithOutages Log) ProfileTable ChatEntry).run s = (.ok e, t)) :
    s.log.get? id = some e ∧ t = s := by
  obtain ⟨store, hread, rfl⟩ := onStore_eq_ok.1 h
  change s.store.call .message (fun log => ChatStore.message log id) = _ at hread
  unfold WithOutages.call at hread
  split at hread
  · cases hread
  · dsimp only [ChatStore.message] at hread
    cases hfound : s.store.service.get? id with
    | none => rw [hfound] at hread; cases hread
    | some d => rw [hfound] at hread; cases hread; exact ⟨hfound, rfl⟩

theorem policy_removal {ids : List Int} {a b : β}
    (h : (do
      onStore (ChatStore.delete · ids)
      let _ ← onCoordinator fun c => c.purge ids
      return a : Serving (WithOutages Log) ProfileTable β).run s = (.ok b, t)) :
    b = a ∧ t.policy = s.policy := by
  obtain ⟨_, u, hdelete, h⟩ := bind_eq_ok.1 h
  obtain ⟨store, -, rfl⟩ := onStore_eq_ok.1 hdelete
  cases h
  exact ⟨rfl, rfl⟩

theorem purgeAuthor_granted (hpolicy : s.policy = Moderation.byLevel) {count : Nat}
    {ids : List Int} (h : (purgeAuthor actor target count).run s = (.ok ids, t)) :
    Authority s.profiles actor target ∧ t.policy = s.policy ∧
      ids = (s.coordinator.chat.findByAuthor target count).map ChatEntry.messageId := by
  unfold purgeAuthor at h
  obtain ⟨a, u, hcaller, h⟩ := bind_eq_ok.1 h
  obtain ⟨hvalid, rfl, rfl⟩ := caller_found hcaller
  obtain ⟨f, u, hlookup, h⟩ := bind_eq_ok.1 h
  obtain ⟨rfl, rfl⟩ := player_found hlookup
  obtain ⟨_, u, hauthorize, h⟩ := bind_eq_ok.1 h
  obtain ⟨hallowed, rfl⟩ := authorize_eq_ok.1 hauthorize
  obtain ⟨_, _, hget, h⟩ := bind_eq_ok.1 h
  cases hget
  dsimp only at h
  rw [ProfileTable.steamId_profile] at h
  rw [hpolicy] at hallowed
  refine ⟨authority_of_byLevel hvalid rfl hallowed, ?_⟩
  split at h
  · cases h
    exact ⟨rfl, rfl⟩
  · obtain ⟨rfl, hsame⟩ := policy_removal h
    exact ⟨hsame, rfl⟩

theorem purge_granted (hpolicy : s.policy = Moderation.byLevel) {anchor : Int} {count : Nat}
    {ids : List Int} (h : (purge actor anchor count).run s = (.ok ids, t)) :
    ∃ p, s.log.author? anchor = some p ∧ Authority s.profiles actor p ∧ t.policy = s.policy ∧
      ids = (s.coordinator.chat.findByAuthor p count).map ChatEntry.messageId := by
  unfold purge at h
  obtain ⟨e, u, hread, h⟩ := bind_eq_ok.1 h
  obtain ⟨hstored, hsame⟩ := message_found hread
  rw [hsame] at h
  exact ⟨e.author, congrArg (Option.map _) hstored, purgeAuthor_granted hpolicy h⟩

theorem deleteMessage_granted (hpolicy : s.policy = Moderation.byLevel) {id : Int}
    (h : (deleteMessage actor id).run s = (.ok (), t)) :
    ∃ p, s.log.author? id = some p ∧ Authority s.profiles actor p ∧ t.policy = s.policy := by
  unfold deleteMessage at h
  obtain ⟨a, u, hcaller, h⟩ := bind_eq_ok.1 h
  obtain ⟨hvalid, rfl, rfl⟩ := caller_found hcaller
  obtain ⟨e, u, hread, h⟩ := bind_eq_ok.1 h
  obtain ⟨hstored, rfl⟩ := message_found hread
  obtain ⟨-, h⟩ := when_eq_ok.1 h
  obtain ⟨f, u, hlookup, h⟩ := bind_eq_ok.1 h
  obtain ⟨rfl, rfl⟩ := player_found hlookup
  obtain ⟨_, u, hauthorize, h⟩ := bind_eq_ok.1 h
  obtain ⟨hallowed, rfl⟩ := authorize_eq_ok.1 hauthorize
  rw [hpolicy] at hallowed
  obtain ⟨-, hsame⟩ := policy_removal h
  exact ⟨e.author, congrArg (Option.map _) hstored, authority_of_byLevel hvalid rfl hallowed, hsame⟩

theorem setChatStatus_granted (hpolicy : s.policy = Moderation.byLevel) {status : ChatStatus}
    {reason : String} (h : (setChatStatus actor target status reason).run s = (.ok (), t)) :
    Authority s.profiles actor target ∧ t.policy = s.policy ∧
      Does s (.setStatus target status reason) t := by
  unfold setChatStatus at h
  obtain ⟨-, h⟩ := unless_eq_ok.1 h
  obtain ⟨a, u, hcaller, h⟩ := bind_eq_ok.1 h
  obtain ⟨hvalid, rfl, rfl⟩ := caller_found hcaller
  obtain ⟨-, h⟩ := when_eq_ok.1 h
  obtain ⟨f, u, hlookup, h⟩ := bind_eq_ok.1 h
  obtain ⟨rfl, rfl⟩ := player_found hlookup
  obtain ⟨_, u, hauthorize, h⟩ := bind_eq_ok.1 h
  obtain ⟨hallowed, rfl⟩ := authorize_eq_ok.1 hauthorize
  obtain ⟨-, h⟩ := when_eq_ok.1 h
  obtain ⟨_, u, hset, h⟩ := bind_eq_ok.1 h
  obtain ⟨profiles, -, rfl⟩ := onProfiles_eq_ok.1 hset
  rw [ProfileTable.steamId_profile] at h
  cases h
  rw [hpolicy] at hallowed
  exact ⟨authority_of_byLevel hvalid rfl hallowed, rfl, rfl, rfl, rfl⟩

theorem addMessage_granted {author : Session} {createdOn : Timestamp} {body : String}
    {e : ChatEntry}
    (h : (addMessage author createdOn body : Serving (WithOutages Log) ProfileTable _).run s =
      (.ok e, t)) : t.policy = s.policy := by
  unfold addMessage at h
  obtain ⟨-, h⟩ := unless_eq_ok.1 h
  obtain ⟨text, -, h⟩ := lift_eq_ok.1 h
  obtain ⟨saved, u, hsave, h⟩ := bind_eq_ok.1 h
  obtain ⟨store, -, rfl⟩ := onStore_eq_ok.1 hsave
  cases h
  rfl

end

/-! ## recent messages and their authors -/

/-- The policy goes by levels, and every recent message is stored under its number, with the same
author. -/
structure Attributed (s : InMemory ProfileTable) : Prop where
  policy : s.policy = Moderation.byLevel
  numbered : s.log.Numbered
  recent : ∀ e ∈ s.coordinator.chat.entries, s.log.author? e.messageId = some e.author

section
variable {s t : InMemory ProfileTable}

theorem Attributed.does {d : Deed} (h : Attributed s) (hpolicy : t.policy = s.policy)
    (hdoes : Does s d t) : Attributed t := by
  refine ⟨hpolicy.trans h.policy, ?_, ?_⟩
  · rw [hdoes.log]
    cases d with
    | post e => exact h.numbered.save e
    | remove ids => exact h.numbered.delete ids
    | _ => exact h.numbered
  · rw [hdoes.log, hdoes.coordinator]
    intro e he
    cases d with
    | nothing => exact h.recent e he
    | post d =>
      rcases List.mem_append.1 ((Chat.History.entries_push_suffix _ _).subset he) with he | he
      · exact Log.author?_save (h.recent e he) d
      · rw [List.mem_singleton.1 he]
        exact (h.numbered.save d).author?_of_mem
          (List.mem_append_right _ (List.mem_singleton.2 rfl))
    | remove ids =>
      change e ∈ (s.coordinator.purge ids).1.state.chat.entries at he
      rw [Coordinator.entries_purge] at he
      exact (Log.author?_delete _ _ _).trans (h.recent e (List.mem_of_mem_filter he))
    | setStatus p status reason =>
      change e ∈ (s.coordinator.updateChatStatus p status reason).1.state.chat.entries at he
      rw [Coordinator.chat_updateChatStatus] at he
      exact h.recent e he
    | seed limit =>
      rcases List.mem_append.1 ((Chat.History.entries_pushAll_suffix _ _).subset he) with he | he
      · exact h.recent e he
      · rw [Log.recent_eq_drop] at he
        exact h.numbered.author?_of_mem (Log.current_subset (List.mem_of_mem_drop he)).1

theorem policy_serve (h : s.policy = Moderation.byLevel) (r : Request) :
    ((serve r).run s).2.policy = s.policy := by
  cases hrun : (serve r).run s with
  | mk result t =>
    cases result with
    | error e => exact (serve_harmless r s e t hrun).policy
    | ok answer =>
      cases r with
      | addMessage author createdOn body =>
        obtain ⟨e, hrun, -⟩ := map_eq_ok.1 hrun
        exact addMessage_granted hrun
      | purge actor anchor count =>
        obtain ⟨ids, hrun, -⟩ := map_eq_ok.1 hrun
        obtain ⟨p, -, -, hsame, -⟩ := purge_granted h hrun
        exact hsame
      | purgeAuthor actor target count =>
        obtain ⟨ids, hrun, -⟩ := map_eq_ok.1 hrun
        exact (purgeAuthor_granted h hrun).2.1
      | deleteMessage actor id =>
        obtain ⟨_, hrun, -⟩ := map_eq_ok.1 hrun
        obtain ⟨p, -, -, hsame⟩ := deleteMessage_granted h hrun
        exact hsame
      | setChatStatus actor target status reason =>
        obtain ⟨_, hrun, -⟩ := map_eq_ok.1 hrun
        exact (setChatStatus_granted h hrun).2.1

theorem Attributed.perform (h : Attributed s) (r : Request) : Attributed (perform s r) := by
  obtain ⟨d, -, hdoes⟩ := perform_does s r
  refine h.does ?_ hdoes
  rw [perform_eq_serve]
  exact policy_serve h.policy r

theorem policy_seedHistory (s : InMemory ProfileTable) :
    (after seedHistory s).policy = s.policy := by
  unfold after seedHistory
  rw [run_bind, run_get]
  dsimp only
  rw [run_bind, run_onStore]
  split
  · rename_i hok
    split at hok
    · cases hok
      rfl
    · cases hok
  · rename_i herror
    split at herror
    · cases herror
    · cases herror
      rfl

theorem Attributed.seedHistory (h : Attributed s) : Attributed (after seedHistory s) := by
  obtain ⟨d, -, hdoes⟩ := seedHistory_comes.does (fun _ _ hd => .inr hd) s
  exact h.does (policy_seedHistory s) hdoes

end

/-- what happens to a service that is in use, one after the other -/
inductive Episode where
  | event (e : Event ProfileTable)
  /-- the stored messages are taken into the history once more -/
  | refill

def pass (s : InMemory ProfileTable) : Episode → InMemory ProfileTable
  | .event e => s.next e
  | .refill => after seedHistory s

def course (s : InMemory ProfileTable) (episodes : List Episode) : InMemory ProfileTable :=
  episodes.foldl pass s

theorem Attributed.pass {s : InMemory ProfileTable} (h : Attributed s) (episode : Episode) :
    Attributed (s.pass episode) := by
  cases episode with
  | refill => exact h.seedHistory
  | event e =>
    cases e with
    | request r => exact h.perform r
    | outages down => exact ⟨h.policy, h.numbered, h.recent⟩
    | profiles change => exact ⟨h.policy, h.numbered, h.recent⟩
    | elsewhere change hchat =>
      refine ⟨h.policy, h.numbered, fun e he => h.recent e ?_⟩
      change e ∈ (change s.coordinator).chat.entries at he
      rwa [hchat] at he

theorem Attributed.course {s : InMemory ProfileTable} (h : Attributed s)
    (episodes : List Episode) : Attributed (s.course episodes) := by
  induction episodes generalizing s with
  | nil => exact h
  | cons episode episodes ih => exact ih (h.pass episode)

theorem attributed_started (config : Config) (writes : List Log.Write) (down : List Call)
    (profiles : ProfileTable) :
    Attributed (started config ⟨.written writes, down⟩ profiles Moderation.byLevel) := by
  refine Attributed.seedHistory ⟨rfl, Log.numbered_written writes, fun e he => ?_⟩
  cases he

/-! ## what a granted request comes to -/

/-- removes messages of a player, or changes the status of the player -/
inductive Acts (p : SteamId) (s : InMemory ProfileTable) (answer : Answer)
    (t : InMemory ProfileTable) : Prop where
  | removes (ids : List Int) (hwritten : ∀ id ∈ ids, s.log.author? id = some p)
      (hanswer : ∀ removed, answer = .removed removed → removed = ids)
      (hdoes : Does s (.remove ids) t) (hspares : Spares s t)
  | rules (status : ChatStatus) (reason : String) (hanswer : answer = .done)
      (hdoes : Does s (.setStatus p status reason) t) (hchanges : Changes p status reason s t)

section
variable {s t : InMemory ProfileTable} {actor target : SteamId}

/-- The messages of a player among the recent ones are stored as theirs. -/
theorem Attributed.written_of_found (h : Attributed s) {p : SteamId} {count : Nat} {id : Int}
    (hid : id ∈ (s.coordinator.chat.findByAuthor p count).map ChatEntry.messageId) :
    s.log.author? id = some p := by
  obtain ⟨e, he, rfl⟩ := List.mem_map.1 hid
  obtain ⟨he, hauthor⟩ := List.mem_filter.1 (List.mem_of_mem_take he)
  rw [h.recent e (List.mem_reverse.1 he), beq_iff_eq.1 hauthor]

/-- To remove no messages is to do nothing. -/
theorem does_remove_of_removal {π : Type} {s t : InMemory π} {ids : List Int}
    (h : Does s (if ids.isEmpty then .nothing else .remove ids) t) : Does s (.remove ids) t := by
  cases ids with
  | nil =>
    have hlog : t.log = s.log := h.log
    exact ⟨hlog.trans (Log.delete_nil _).symm, h.coordinator, h.effects⟩
  | cons id ids => exact h

/-- **A granted request was authorised, and acts on the player that it was authorised for.** -/
theorem acts_of_granted (h : Attributed s) {r : Request} (hactor : r.actor? = some actor)
    {answer : Answer} (hrun : (serve r).run s = (.ok answer, t)) :
    ∃ p, r.affected? s.log = some p ∧ Authority s.profiles actor p ∧ Acts p s answer t := by
  have hperform : perform s r = t := (perform_eq_serve s r).trans (congrArg Prod.snd hrun)
  cases r with
  | addMessage author createdOn body => cases hactor
  | purge actor anchor count =>
    cases hactor
    obtain ⟨ids, hpurge, rfl⟩ := map_eq_ok.1 hrun
    obtain ⟨p, hwrote, hauthority, -, hids⟩ := purge_granted h.policy hpurge
    have hcomes := purge_comes actor anchor count s
    rw [hpurge] at hcomes
    obtain ⟨d, rfl, hdoes⟩ := hcomes
    refine ⟨p, hwrote, hauthority, .removes ids ?_ ?_ (does_remove_of_removal hdoes) ?_⟩
    · exact fun id hid => h.written_of_found (hids ▸ hid)
    · exact fun removed hsame => (Answer.removed.inj hsame).symm
    · exact hperform ▸ spares_perform s rfl
  | purgeAuthor actor target count =>
    cases hactor
    obtain ⟨ids, hpurge, rfl⟩ := map_eq_ok.1 hrun
    obtain ⟨hauthority, -, hids⟩ := purgeAuthor_granted h.policy hpurge
    have hcomes := purgeAuthor_comes actor target count s
    rw [hpurge] at hcomes
    obtain ⟨d, rfl, hdoes⟩ := hcomes
    refine ⟨target, rfl, hauthority, .removes ids ?_ ?_ (does_remove_of_removal hdoes) ?_⟩
    · exact fun id hid => h.written_of_found (hids ▸ hid)
    · exact fun removed hsame => (Answer.removed.inj hsame).symm
    · exact hperform ▸ spares_perform s rfl
  | deleteMessage actor id =>
    cases hactor
    obtain ⟨_, hdelete, rfl⟩ := map_eq_ok.1 hrun
    obtain ⟨p, hwrote, hauthority, -⟩ := deleteMessage_granted h.policy hdelete
    have hcomes := deleteMessage_comes actor id s
    rw [hdelete] at hcomes
    obtain ⟨d, rfl, hdoes⟩ := hcomes
    refine ⟨p, hwrote, hauthority, .removes [id] ?_ ?_ hdoes ?_⟩
    · exact fun i hi => List.mem_singleton.1 hi ▸ hwrote
    · exact fun removed hsame => by cases hsame
    · exact hperform ▸ spares_perform s rfl
  | setChatStatus actor target status reason =>
    cases hactor
    obtain ⟨_, hset, rfl⟩ := map_eq_ok.1 hrun
    obtain ⟨hauthority, -, hdoes⟩ := setChatStatus_granted h.policy hset
    have hchanges := rules_setChatStatus actor target status reason s
    rw [hset] at hchanges
    exact ⟨target, rfl, hauthority, .rules status reason rfl hdoes hchanges⟩

end

/-! ## every run -/

/-- a call does something that only moderators may do -/
inductive Moderates (s t : InMemory ProfileTable) : Prop where
  | marks (id : Int) (hbefore : ¬ s.log.IsDeleted id) (hafter : t.log.IsDeleted id)
  | forgets (e : ChatEntry) (hbefore : e ∈ s.coordinator.chat.entries)
      (hafter : e ∉ t.coordinator.chat.entries)
  | sendsRemoval (n : Nat) (ids : List Int)
      (hsent : .deliver n (.purge ids) ∈ t.effects.drop s.effects.length)
  | sendsStatus (n : Nat) (status : ChatStatus) (reason : String)
      (hsent : .deliver n (.chatStatusChange status reason) ∈ t.effects.drop s.effects.length)
  | changesKept (q : SteamId) (hchanged : t.standing q ≠ s.standing q)
  | changesSession (q : SteamId) (hchanged : t.coordinator.client? q ≠ s.coordinator.client? q)
  | changesAside (hchanged : t.coordinator.aside ≠ s.coordinator.aside)

/-- a call does away with the message of this number, in the store or among the recent messages, or
tells someone that it has -/
inductive Removes (s : InMemory ProfileTable) (result : Except QueueError Answer)
    (t : InMemory ProfileTable) (id : Int) : Prop where
  | marked (hbefore : ¬ s.log.IsDeleted id) (hafter : t.log.IsDeleted id)
  | forgotten (e : ChatEntry) (hid : e.messageId = id) (hbefore : e ∈ s.coordinator.chat.entries)
      (hafter : e ∉ t.coordinator.chat.entries)
  | sent (n : Nat) (ids : List Int) (hid : id ∈ ids)
      (hsent : .deliver n (.purge ids) ∈ t.effects.drop s.effects.length)
  | answered (ids : List Int) (hid : id ∈ ids) (hresult : result = .ok (.removed ids))

/-- what a call does away with was written by this player, and it changes no one else's status -/
structure Confined (p : SteamId) (s : InMemory ProfileTable) (result : Except QueueError Answer)
    (t : InMemory ProfileTable) : Prop where
  written : ∀ id, Removes s result t id → s.log.author? id = some p
  recent : ∀ e ∈ s.coordinator.chat.entries, e ∉ t.coordinator.chat.entries → e.author = p
  kept : ∀ q, t.standing q ≠ s.standing q → q = p
  sessions : ∀ q, t.coordinator.client? q ≠ s.coordinator.client? q → q = p
  aside : t.coordinator.aside = s.coordinator.aside

section
variable {s t : InMemory ProfileTable} {p : SteamId}

theorem Does.new_effects {d : Deed} (h : Does s d t) :
    t.effects.drop s.effects.length = (d.outcome s.log s.coordinator).effects := by
  rw [h.effects, List.drop_left]

theorem Acts.confined (h : Attributed s) {answer : Answer} (hacts : Acts p s answer t) :
    Confined p s (.ok answer) t := by
  cases hacts with
  | removes ids hwritten hanswer hdoes hspares =>
    have hentries : t.coordinator.chat.entries =
        s.coordinator.chat.entries.filter fun e => !ids.contains e.messageId := by
      rw [hdoes.coordinator]
      exact Coordinator.entries_purge _ ids
    have hgone : ∀ e ∈ s.coordinator.chat.entries, e ∉ t.coordinator.chat.entries →
        e.messageId ∈ ids := by
      intro e hbefore hafter
      rw [hentries] at hafter
      by_contra hkept
      exact hafter (List.mem_filter.2 ⟨hbefore, by simpa using hkept⟩)
    refine ⟨fun id hid => hwritten id ?_, fun e hbefore hafter => ?_, ?_, ?_, hspares.aside⟩
    · cases hid with
      | marked hbefore hafter =>
        rw [hdoes.log] at hafter
        exact ((Log.isDeleted_delete.1 hafter).resolve_left hbefore).1
      | forgotten e hid hbefore hafter => exact hid ▸ hgone e hbefore hafter
      | sent n removed hid hsent =>
        rw [hdoes.new_effects] at hsent
        exact Coordinator.eq_of_purge_mem_purge hsent ▸ hid
      | answered removed hid hresult => exact hanswer removed (Except.ok.inj hresult) ▸ hid
    · have hwrote := h.recent e hbefore
      rw [hwritten _ (hgone e hbefore hafter)] at hwrote
      exact (Option.some.inj hwrote).symm
    · exact fun q hchanged => absurd (hspares.standing q) hchanged
    · refine fun q hchanged => absurd ?_ hchanged
      unfold Coordinator.client?
      rw [hspares.clients]
  | rules status reason hanswer hdoes hchanges =>
    have hlog : t.log = s.log := hdoes.log
    have hchat : t.coordinator.chat = s.coordinator.chat := by
      rw [hdoes.coordinator]
      exact Coordinator.chat_updateChatStatus _ p status reason
    refine ⟨fun id hid => ?_, fun e hbefore hafter => ?_, fun q hchanged => ?_,
      fun q hchanged => ?_, ?_⟩
    · cases hid with
      | marked hbefore hafter => exact absurd (hlog ▸ hafter) hbefore
      | forgotten e hid hbefore hafter => exact absurd (hchat.symm ▸ hbefore) hafter
      | sent n removed hid hsent =>
        rw [hdoes.new_effects] at hsent
        exact absurd hsent Coordinator.not_purge_of_updateChatStatus
      | answered removed hid hresult =>
        rw [hanswer] at hresult
        cases hresult
    · exact absurd (hchat.symm ▸ hbefore) hafter
    · by_contra hne
      exact hchanged ((hchanges.standing q).trans (if_neg (Ne.symm hne)))
    · by_contra hne
      refine hchanged ?_
      rw [hchanges.coordinator]
      exact Coordinator.client?_updateChatStatus_of_ne _ hne status reason
    · rw [hchanges.coordinator]
      exact Coordinator.aside_updateChatStatus _ p status reason

/-- A request that is refused does nothing that only moderators may do. -/
theorem not_moderates_of_refused {r : Request} {e : QueueError}
    (hrun : (serve r).run s = (.error e, t)) : ¬ Moderates s t := by
  have hlooked := serve_harmless r s e t hrun
  have hlog : t.log = s.log :=
    congrArg Log.mk (readOnly_log.withOutages.read hlooked.store)
  have hnew : t.effects.drop s.effects.length = [] := by
    rw [hlooked.effects, List.drop_length]
  intro h
  cases h with
  | marks id hbefore hafter => exact hbefore (hlog ▸ hafter)
  | forgets e hbefore hafter => exact hafter (hlooked.coordinator ▸ hbefore)
  | sendsRemoval n ids hsent => rw [hnew] at hsent; cases hsent
  | sendsStatus n status reason hsent => rw [hnew] at hsent; cases hsent
  | changesKept q hchanged =>
    exact hchanged (sameStanding_survivesLookups.lookedUp hlooked.profiles q)
  | changesSession q hchanged => exact hchanged (by rw [hlooked.coordinator])
  | changesAside hchanged => exact hchanged (by rw [hlooked.coordinator])

end

/-- **Moderation needs authority.** -/
theorem moderation_needs_authority (config : Config) (writes : List Log.Write) (down : List Call)
    (profiles : ProfileTable) (episodes : List Episode) (r : Request) (actor : SteamId)
    (hactor : r.actor? = some actor) :
    let s := (started config ⟨.written writes, down⟩ profiles Moderation.byLevel).course episodes
    let result := ((serve r).run s).1
    let t := ((serve r).run s).2
    result.isOk = true ∨ Moderates s t →
      ∃ p, r.affected? s.log = some p ∧ Authority s.profiles actor p ∧ Confined p s result t := by
  intro s result t h
  have hs : Attributed s := (attributed_started config writes down profiles).course episodes
  cases hresult : result with
  | ok answer =>
    obtain ⟨p, haffected, hauthority, hacts⟩ := acts_of_granted hs hactor (Prod.ext hresult rfl)
    exact ⟨p, haffected, hauthority, hacts.confined hs⟩
  | error e =>
    refine absurd (h.resolve_left ?_) (not_moderates_of_refused (Prod.ext hresult rfl))
    rw [hresult]
    exact Bool.false_ne_true

/-- A moderator removes what a player wrote who is not known. -/
theorem moderation_needs_authority_sample :
    let message : ChatEntry :=
      draft ⟨0, Sample.guest 0, .readwrite⟩ { day := 0, second := 0, nano := 0 } "hi"
    let s := (started {} ⟨.written [.save message], []⟩ Sample.staff Moderation.byLevel).course
      [.refill]
    let r : Request := .purge (.ofAccount 1) 1 5
    ((serve r).run s).1.isOk = true ∧ r.affected? s.log = some (.ofAccount 2) ∧
      Authority s.profiles (.ofAccount 1) (.ofAccount 2) := by
  intro message s r
  have hgranted : ((serve r).run s).1.isOk = true := by decide +kernel
  have hwrote : r.affected? s.log = some (.ofAccount 2) := by decide +kernel
  obtain ⟨p, haffected, hauthority, -⟩ := moderation_needs_authority {} [.save message] []
    Sample.staff [.refill] r (.ofAccount 1) rfl (.inl hgranted)
  rw [hwrote] at haffected
  exact ⟨hgranted, hwrote, Option.some.inj haffected ▸ hauthority⟩

end Service

end Matchmaker
