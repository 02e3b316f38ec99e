import Matchmaker.ProfileTable
import Matchmaker.Proofs.Chat.Log
import Matchmaker.Proofs.Coordinator.RecentChat
import Matchmaker.Proofs.Service.Deeds

/-!
# The recent chat shows what is stored

The recent chat is kept twice: by the coordinator, which forgets the oldest messages, and by the
store, which forgets none and marks the deleted ones.  If the history was filled once and calls do
not come between one another, then the first is always the end of what the second would show
(`Agrees`): a new message comes to the end of both, a removal takes the same messages out of both,
and what is forgotten is at the beginning.

This needs nothing of what is called with what, and of which calls fail.
-/

namespace Matchmaker

open Chat (Log History)

/-! ## one deed -/

/-- the history is the end of what is stored and not deleted -/
structure Agrees (capacity : Nat) (log : Log) (h : History) : Prop where
  numbered : log.Numbered
  suffix : h.entries <:+ log.current
  capacity : h.capacity = capacity

namespace Agrees
variable {capacity : Nat} {log : Log}

theorem post {c : Coordinator} (h : Agrees capacity log c.chat) {e : ChatEntry}
    (he : e.deleted = false) :
    Agrees capacity (log.save e).2 (c.message (log.save e).1).state.chat where
  numbered := h.numbered.save e
  suffix := by
    have hcurrent : (log.save e).2.current = log.current ++ [(log.save e).1] := by
      rw [Log.current_save, he]
      rfl
    rw [Coordinator.chat_message, hcurrent]
    refine (History.entries_push_suffix _ _).trans ?_
    exact (List.suffix_append_inj_of_length_eq rfl).2 ⟨h.suffix, rfl⟩
  capacity := by rw [Coordinator.chat_message, History.capacity_push, h.capacity]

theorem remove {c : Coordinator} (h : Agrees capacity log c.chat) (ids : List Int) :
    Agrees capacity (log.delete ids) (c.purge ids).1.state.chat where
  numbered := h.numbered.delete ids
  suffix := by
    rw [Coordinator.entries_purge, Log.current_delete]
    exact h.suffix.filter _
  capacity := by rw [Coordinator.capacity_purge, h.capacity]

theorem seed {c : Coordinator} (hlog : log.Numbered) (hchat : c.chat.entries = [])
    (hcapacity : c.chat.capacity = capacity) (limit : Nat) :
    Agrees capacity log (c.seed (log.recent limit)).chat where
  numbered := hlog
  suffix := by
    rw [Coordinator.chat_seed]
    refine (History.entries_pushAll_suffix _ _).trans ?_
    rw [hchat, List.nil_append, Log.recent_eq_drop]
    exact List.drop_suffix _ _
  capacity := by rw [Coordinator.chat_seed, History.capacity_pushAll, hcapacity]

/-- Of both the newest messages are the same. -/
theorem recent {h : History} (ha : Agrees capacity log h) {n : Nat} (hn : n ≤ h.entries.length) :
    h.recent n = log.recent n := by
  rw [History.recent_of_suffix ha.suffix hn, Log.recent_eq_drop]

end Agrees

namespace Service
variable {π : Type}

theorem wants_cases {r : Request} {d : Deed} (h : r.Wants d) :
    (∃ e : ChatEntry, e.deleted = false ∧ d = .post e) ∨ (∃ ids, d = .remove ids) ∨
      ∃ p status reason, d = .setStatus p status reason := by
  cases r with
  | addMessage author createdOn body =>
    obtain ⟨-, text, -, rfl⟩ := h
    exact .inl ⟨_, rfl, rfl⟩
  | purge actor anchor count => exact .inr (.inl h)
  | purgeAuthor actor target count => exact .inr (.inl h)
  | deleteMessage actor id => exact .inr (.inl ⟨[id], h⟩)
  | setChatStatus actor target status reason =>
    obtain ⟨p, hp⟩ := h
    exact .inr (.inr ⟨p, status, reason, hp⟩)

theorem agrees_perform [ProfileProvider π] {capacity : Nat} {s : InMemory π}
    (h : Agrees capacity s.log s.coordinator.chat) (r : Request) :
    Agrees capacity (perform s r).log (perform s r).coordinator.chat := by
  obtain ⟨d, hd, hdoes⟩ := perform_does s r
  rw [hdoes.log, hdoes.coordinator]
  rcases hd with rfl | hd
  · exact h
  · rcases wants_cases hd with ⟨e, he, rfl⟩ | ⟨ids, rfl⟩ | ⟨p, status, reason, rfl⟩
    · exact h.post he
    · exact h.remove ids
    · show Agrees capacity s.log (Coordinator.updateChatStatus _ _ _ _).1.state.chat
      rw [Coordinator.chat_updateChatStatus]
      exact h

/-! ## every run -/

/-- a new service over a store, after its history was filled or could not be filled -/
def started (config : Config) (store : WithOutages Log) (profiles : π)
    (policy : Moderation.Policy) : InMemory π :=
  after seedHistory (.new config store profiles policy)

theorem agrees_started (config : Config) {store : WithOutages Log} (hstore : store.service.Numbered)
    (profiles : π) (policy : Moderation.Policy) :
    Agrees (max config.chatHistorySize.toNat 1) (started config store profiles policy).log
      (started config store profiles policy).coordinator.chat := by
  let s : InMemory π := .new config store profiles policy
  obtain ⟨d, hd, hdoes⟩ : ∃ d, (d = .nothing ∨ ∃ limit, d = .seed limit) ∧
      Does s d (after seedHistory s) := seedHistory_comes.does (fun _ _ hd => .inr hd) s
  show Agrees _ (after _ _).log (after _ _).coordinator.chat
  rw [hdoes.log, hdoes.coordinator]
  rcases hd with rfl | ⟨limit, rfl⟩
  · exact ⟨hstore, List.nil_suffix, rfl⟩
  · exact Agrees.seed (c := .new config) hstore rfl rfl limit

/-- what happens to a service, one after the other -/
inductive Event (π : Type) where
  | request (r : Request)
  /-- from now on these calls of the store fail, and no others -/
  | outages (down : List Call)
  /-- the profile service changes by itself -/
  | profiles (change : π → π)
  /-- the coordinator does something else, and leaves the recent chat alone -/
  | elsewhere (change : Coordinator → Coordinator) (h : ∀ c, (change c).chat = c.chat)

variable [ProfileProvider π]

def next (s : InMemory π) : Event π → InMemory π
  | .request r => perform s r
  | .outages down => { s with store := { s.store with down } }
  | .profiles change => { s with profiles := change s.profiles }
  | .elsewhere change _ => { s with coordinator := change s.coordinator }

def run (s : InMemory π) (events : List (Event π)) : InMemory π := events.foldl next s

theorem agrees_run {capacity : Nat} {s : InMemory π}
    (h : Agrees capacity s.log s.coordinator.chat) (events : List (Event π)) :
    Agrees capacity (s.run events).log (s.run events).coordinator.chat := by
  induction events generalizing s with
  | nil => exact h
  | cons event events ih =>
    refine ih ?_
    cases event with
    | request r => exact agrees_perform h r
    | outages down => exact h
    | profiles change => exact h
    | elsewhere change hchange =>
      show Agrees capacity s.log (change s.coordinator).chat
      rw [hchange]
      exact h

/-- **The recent chat is the end of what is stored and not deleted**, after every sequence of calls
over any stored messages, so its newest messages are those that the store would give. -/
theorem recent_agrees (config : Config) (writes : List Log.Write) (down : List Call) (profiles : π)
    (policy : Moderation.Policy) (events : List (Event π)) :
    let s := (started config ⟨.written writes, down⟩ profiles policy).run events
    s.coordinator.chat.entries <:+ s.log.current ∧
      s.log.current.Pairwise (fun a b => a.messageId < b.messageId) ∧
      s.coordinator.chat.entries.length ≤ max 1 config.chatHistorySize.toNat ∧
      ∀ n ≤ s.coordinator.chat.entries.length,
        ChatStore.recent s.log n = .ok (s.coordinator.chat.recent n, s.log) := by
  intro s
  have h : Agrees (max config.chatHistorySize.toNat 1) s.log s.coordinator.chat :=
    agrees_run (agrees_started config (Log.numbered_written writes) profiles policy) events
  refine ⟨h.suffix, h.numbered.ascending.filter _, ?_, fun n hn => ?_⟩
  · rw [Nat.max_comm, ← h.capacity]
    exact s.coordinator.chat.length_le
  · rw [h.recent hn]
    rfl

end Service

namespace Sample

def writer : Session := ⟨0, ProfileTable.newcomer (.ofAccount 2), .readwrite⟩

def noted (body : String) : ChatEntry :=
  Service.draft writer { day := 0, second := 64800, nano := 10 } body

/-- Three messages, and the second is deleted. -/
def archive : List Log.Write :=
  [.save (noted "a"), .save (noted "b"), .delete [2], .save (noted "c")]

/-- A message is posted, and another one cannot be. -/
def evening : List (Service.Event ProfileTable) :=
  [.request (.addMessage writer { day := 0, second := 68400, nano := 20 } " d "), .outages [.save],
    .request (.addMessage writer { day := 0, second := 72000, nano := 30 } "e")]

end Sample

namespace Service

/-- With room for two, the newest that was stored and the one that was posted are shown. -/
theorem recent_agrees_sample :
    let s := (started { chatHistorySize := 2 } ⟨.written Sample.archive, []⟩ ProfileTable.empty
      Moderation.byLevel).run Sample.evening
    s.log.current.map ChatEntry.body = ["a", "c", "d"] ∧
      s.coordinator.chat.entries.map ChatEntry.body = ["c", "d"] ∧
      ChatStore.recent s.log 2 = .ok (s.coordinator.chat.entries, s.log) := by
  intro s
  have hshown : s.coordinator.chat.entries.map ChatEntry.body = ["c", "d"] := by decide +kernel
  have hlength : s.coordinator.chat.entries.length = 2 := by decide +kernel
  obtain ⟨-, -, -, hrecent⟩ := recent_agrees { chatHistorySize := 2 } Sample.archive []
    ProfileTable.empty Moderation.byLevel Sample.evening
  refine ⟨by decide +kernel, hshown, (hrecent 2 hlength.ge).trans ?_⟩
  have hall : s.coordinator.chat.recent 2 = s.coordinator.chat.entries := by decide +kernel
  rw [hall]

end Service

end Matchmaker
