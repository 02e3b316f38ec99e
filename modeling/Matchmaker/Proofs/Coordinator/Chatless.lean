import Matchmaker.Proofs.Chat.Undated
import Matchmaker.Proofs.Run.Calling
import Matchmaker.Proofs.Server.Turns

/-!
# Steps that have nothing to do with the chat

Joining and leaving queues and being taken out of the registry neither look at the recent chat nor
change it (`Chatless`), so such a step comes to the same whatever messages there are.  Together with
posting, which does not look at times, these are the steps that a client can ask for: each of them
comes to the same but for times if what is there before is the same but for times.
-/

namespace Matchmaker.Coordinator

open Protocol (Response)

/-- the coordinator with another recent chat -/
def withChat (c : Coordinator) (h : Chat.History) : Coordinator := { c with chat := h }

def undated (c : Coordinator) : Coordinator := c.withChat c.chat.undated

/-- the step neither looks at the recent chat nor changes it -/
def Chatless (f : Coordinator → Outcome) : Prop :=
  ∀ c h, f (c.withChat h) = ⟨(f c).state.withChat h, (f c).effects⟩

section
variable {c d : Coordinator} {f : Coordinator → Outcome}

theorem eq_withChat_of_undated (h : c.undated = d.undated) : d = c.withChat d.chat := by
  obtain ⟨settings, clients, aside, lobbies, chat, released⟩ := c
  obtain ⟨settings', clients', aside', lobbies', chat', released'⟩ := d
  injection h with hsettings hclients haside hlobbies hchat hreleased
  subst hsettings hclients haside hlobbies hreleased
  rfl

theorem chat_undated (h : c.undated = d.undated) : c.chat.undated = d.chat.undated :=
  congrArg Coordinator.chat h

theorem Chatless.chat (hf : Chatless f) (c : Coordinator) : (f c).state.chat = c.chat := by
  have h := hf c c.chat
  rw [show c.withChat c.chat = c from rfl] at h
  rw [h]
  rfl

/-- Such a step comes to the same but for times. -/
theorem Chatless.undated (hf : Chatless f) (h : c.undated = d.undated) :
    (f c).state.undated = (f d).state.undated ∧ (f c).effects = (f d).effects := by
  rw [eq_withChat_of_undated h, hf]
  refine ⟨?_, rfl⟩
  show (f c).state.withChat (f c).state.chat.undated = (f c).state.withChat d.chat.undated
  rw [hf.chat, chat_undated h]

/-! ## queues -/

theorem chatless_leave (p : SteamId) (servers : List ServerId) :
    Chatless fun c => c.leave p servers := by
  intro c h
  dsimp only
  rw [leave_eq, leave_eq]
  show (if (c.lobbies.leave p servers).2 then _ else _) = _
  split <;> rfl

theorem enqueue?_withChat (c : Coordinator) (h : Chat.History) (p : SteamId)
    (servers : List ServerId) :
    (c.withChat h).enqueue? p servers =
      (c.enqueue? p servers).map fun o => ⟨o.state.withChat h, o.effects⟩ := by
  rw [enqueue?_eq, enqueue?_eq]
  show (if c.isConnected p = true ∧ (c.lobbies.join p servers).2 = true then _ else _) = _
  split <;> rfl

theorem tryMatch?_withChat (c : Coordinator) (h : Chat.History) (l : Lobby)
    (found : Except LobbyError Address) :
    (c.withChat h).tryMatch? l found =
      (c.tryMatch? l found).map fun o => ⟨o.state.withChat h, o.effects⟩ := by
  cases found with
  | error e => rfl
  | ok a =>
    show (if c.isUnchanged l then _ else _) = (if c.isUnchanged l then _ else _ : Option _).map _
    split <;> rfl

theorem matchPass_withChat (lookup : Lookup) (c : Coordinator) (h : Chat.History) :
    ((c.withChat h).matchPass lookup).1 =
      ⟨(c.matchPass lookup).1.state.withChat h, (c.matchPass lookup).1.effects⟩ := by
  rw [matchPass_eq_scan, matchPass_eq_scan]
  show (scan lookup _ (c.withChat h) c.candidates).1 = _
  generalize c.candidates = ls
  induction ls with
  | nil => rfl
  | cons l ls ih =>
    rw [scan_cons, scan_cons, tryMatch?_withChat]
    cases c.tryMatch? l (l.info.resolve lookup) with
    | some o => rfl
    | none => exact ih

theorem chatless_join (lookup : Lookup) (p : SteamId) (servers : List ServerId) :
    Chatless fun c => c.join lookup p servers := by
  intro c h
  dsimp only [join]
  rw [enqueue?_withChat]
  cases c.enqueue? p servers with
  | none => rfl
  | some o =>
    show Outcome.mk ((o.state.withChat h).matchPass lookup).1.state
      (o.effects ++ ((o.state.withChat h).matchPass lookup).1.effects) = _
    rw [matchPass_withChat]
    rfl

/-! ## the registry -/

theorem chatless_disconnect (p : SteamId) (n : Nat) : Chatless fun c => c.disconnect p n := by
  have hremove : ∀ (c : Coordinator) h, (c.withChat h).remove p = (c.remove p).withChat h := by
    intro c h
    have hclient : (c.withChat h).client? p = c.client? p := rfl
    unfold remove
    rw [hclient]
    cases c.client? p <;> rfl
  intro c h
  dsimp only
  cases hcurrent : c.isCurrent p n with
  | true =>
    rw [disconnect_of_current hcurrent, disconnect_of_current (c := c.withChat h) hcurrent, hremove]
    rfl
  | false =>
    rw [disconnect_of_not_current hcurrent, disconnect_of_not_current (c := c.withChat h) hcurrent]

/-! ## what is asked of connections -/

/-- Everything that the step asks of connections is to be sent something. -/
def OnlyTells (o : Outcome) : Prop := ∀ a ∈ o.effects, ∃ n r, a = .deliver n r

theorem OnlyTells.ne_start {o : Outcome} (h : OnlyTells o) :
    ∀ a ∈ o.effects, ∀ n, a ≠ .start n := by
  rintro a ha n rfl
  obtain ⟨c, r, hdeliver⟩ := h _ ha
  cases hdeliver

theorem onlyTells_still (c : Coordinator) : OnlyTells (.still c) := nofun

theorem deliver_of_mem_broadcast {r : Response} {p : Session → Bool} :
    ∀ a ∈ c.broadcast r p, ∃ n r, a = .deliver n r := by
  intro a ha
  obtain ⟨e, -, -, rfl⟩ := mem_broadcast.1 ha
  exact ⟨_, _, rfl⟩

theorem OnlyTells.andThen {o : Outcome} (ho : OnlyTells o) (hf : ∀ d, OnlyTells (f d)) :
    OnlyTells (o.andThen f) := by
  intro a ha
  rcases List.mem_append.1 ha with ha | ha
  · exact ho a ha
  · exact hf _ a ha

theorem onlyTells_leave (c : Coordinator) (p : SteamId) (servers : List ServerId) :
    OnlyTells (c.leave p servers) := by
  rw [leave_eq]
  split
  · exact deliver_of_mem_broadcast
  · exact onlyTells_still c

theorem onlyTells_matchPass (lookup : Lookup) (c : Coordinator) :
    OnlyTells (c.matchPass lookup).1 := by
  rw [matchPass_eq_scan]
  generalize c.candidates = ls
  induction ls with
  | nil => exact onlyTells_still c
  | cons l ls ih =>
    rw [scan_cons]
    cases htry : c.tryMatch? l (l.info.resolve lookup) with
    | some o =>
      obtain ⟨a, -, hstart⟩ := tryMatch?_eq_some_iff.1 htry
      obtain ⟨-, rfl⟩ := startMatch?_eq_some_iff.1 hstart
      exact deliver_of_mem_matched
    | none => exact ih

theorem onlyTells_join (lookup : Lookup) (c : Coordinator) (p : SteamId)
    (servers : List ServerId) : OnlyTells (c.join lookup p servers) := by
  unfold join
  rw [enqueue?_eq]
  split
  · rename_i o ho
    split at ho
    · cases ho
      exact OnlyTells.andThen deliver_of_mem_broadcast (onlyTells_matchPass lookup)
    · cases ho
  · exact onlyTells_still c

theorem ne_start_disconnect (c : Coordinator) (p : SteamId) (n : Nat) :
    ∀ a ∈ (c.disconnect p n).effects, ∀ k, a ≠ .start k := by
  cases hcurrent : c.isCurrent p n with
  | true =>
    rw [disconnect_of_current hcurrent]
    rintro a ha k rfl
    rcases List.mem_append.1 ha with ha | ha
    · obtain ⟨_, _, hdeliver⟩ := deliver_of_mem_broadcast _ ha
      cases hdeliver
    · cases List.mem_singleton.1 ha
  | false =>
    rw [disconnect_of_not_current hcurrent]
    rintro a ha k rfl
    cases List.mem_singleton.1 ha

/-! ## messages -/

theorem undated_broadcast (c : Coordinator) (r : Response) (p : Session → Bool) :
    (c.broadcast r p).map Effect.undated = c.broadcast r.undated p := by
  unfold broadcast
  rw [List.map_map]
  rfl

/-- A message comes to the same but for times. -/
theorem undated_message (h : c.undated = d.undated) {e e' : ChatEntry}
    (he : e.undated = e'.undated) :
    (c.message e).state.undated = (d.message e').state.undated ∧
      (c.message e).effects.map Effect.undated = (d.message e').effects.map Effect.undated := by
  have hpush : (c.chat.push e).1.undated = (d.chat.push e').1.undated := by
    rw [Chat.History.undated_push, Chat.History.undated_push, chat_undated h, he]
  have hresponse : (Response.message e).undated = (Response.message e').undated :=
    congrArg Response.message he
  constructor
  · show c.withChat (c.chat.push e).1.undated = d.withChat (d.chat.push e').1.undated
    rw [hpush, eq_withChat_of_undated h]
    rfl
  · show (broadcast _ _ _).map _ = (broadcast _ _ _).map _
    rw [undated_broadcast, undated_broadcast, hresponse, eq_withChat_of_undated h]
    rfl

theorem onlyTells_message (c : Coordinator) (e : ChatEntry) : OnlyTells (c.message e) :=
  deliver_of_mem_broadcast

end

end Matchmaker.Coordinator
