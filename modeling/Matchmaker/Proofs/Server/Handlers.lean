import Matchmaker.Proofs.Chat.Room
import Matchmaker.Proofs.Run.Presence
import Matchmaker.Proofs.Run.Sessions
import Matchmaker.Proofs.Service.Standing
import Matchmaker.Server.Basic

/-!
# Handlers of connections

Every connection has a handler of its own.  It identifies and looks up whoever asks for the
connection, registers the session, and takes one request after another until reading ends; then it
takes the session out and returns.  Between any two of these parts, and while a request is waiting
for a lookup or for the store, other handlers and other tasks take their turns.  A `Hall` is all
that the handlers share, together with the `Stage` that each of them has reached.

What can be read from a connection is left open: at every moment it may be any request, a frame that
is none, or an error.  So is all that others do, but for this: sessions are registered by handlers
alone.

A registered session always has a handler that is serving it (`Attended`), since the handler takes
its own session out before it returns, and no other handler can have registered it.
-/

namespace Matchmaker

open Coordinator (Pass)

/-- Only who is registered is in a lobby. -/
theorem Coordinator.Present.vacant {c : Coordinator} (h : c.Present)
    (hnobody : ∀ e, ¬ e ∈ c.clients) :
    c.clients = .empty ∧ ∀ l ∈ c.lobbies.lobbies, ∀ p, ¬ p ∈ l.members := by
  refine ⟨Ascending.ext_mem fun e => ?_, fun l hl p hp => ?_⟩
  · exact iff_of_false (hnobody e) (Ascending.not_mem_empty e)
  · have hqueued : c.lobbies.Queued p l.serverId := ⟨l, Registry.get?_of_mem hl, hp⟩
    obtain ⟨e, he, -⟩ := isConnected_iff.1 (h p _ hqueued)
    exact hnobody e he

/-- registers a session -/
def Action.registers : Action → Bool
  | .connect _ _ => true
  | _ => false

namespace Hall

/-! ## stages -/

/-- what a handler that has registered its session does -/
inductive Task where
  | reading
  /-- the player has joined a queue, and a match is to be looked for -/
  | searching
  /-- a pass over the candidates is on its way -/
  | matching (pass : Nat)
  /-- a message is to be stored -/
  | saving (draft : ChatEntry)
  /-- a message was stored and is to be sent to everyone -/
  | posting (e : ChatEntry)
  /-- reading has ended -/
  | leaving

inductive Stage where
  | absent
  | accepted
  | identified (p : SteamId)
  | found (f : Profile)
  | serving (f : Profile) (task : Task)
  | returned (result : Except QueueError Unit)

/-- is not at work, or not any more -/
def Stage.isOver : Stage → Bool
  | absent => true
  | returned _ => true
  | _ => false

/-- what happens without being interrupted -/
inductive Turn (σ π : Type) where
  | accept (n : Nat)
  /-- the token in the request for a connection stands for whomever the authenticator says -/
  | identify (n : Nat) (u : Server.Upgrade) (authenticator : Server.Authenticator)
  | look (n : Nat)
  | register (n : Nat)
  /-- reading comes to a result, and a message that was read gets a date -/
  | read (n : Nat) (result : Except ClientError Protocol.Request) (date : Timestamp)
  /-- a request goes on, and a lookup that it waits for has ended -/
  | goOn (n : Nat) (lookup : Lookup)
  | finish (n : Nat)
  /-- anything else that happens to the coordinator -/
  | act (f : Profile) (a : Action)
  /-- the store and the profile service change by themselves -/
  | outside (store : σ) (profiles : π)

/-- the connection whose handler takes a turn -/
def Turn.connection? {σ π : Type} : Turn σ π → Option Nat
  | accept n | identify n _ _ | look n | register n | read n _ _ | goOn n _ | finish n => some n
  | _ => none

end Hall

/-- a coordinator with its passes, the services that it relies on, and all handlers -/
structure Hall (σ π : Type) where
  world : World
  store : σ
  profiles : π
  stages : Nat → Hall.Stage

namespace Hall
variable {σ π : Type}

def opened (config : Config) (store : σ) (profiles : π) : Hall σ π where
  world := .start config
  store := store
  profiles := profiles
  stages _ := .absent

def coordinator (h : Hall σ π) : Coordinator := h.world.coordinator

/-- the handler of a connection gets to a stage -/
def reach (h : Hall σ π) (n : Nat) (stage : Stage) : Hall σ π :=
  { h with stages := Function.update h.stages n stage }

/-- an action takes place; if it is about a connection, this is the player on it -/
def acted (h : Hall σ π) (f : Profile) (a : Action) : Hall σ π :=
  { h with world := h.world.next (fun _ => f) a }

/-- the message that a session may post -/
def draft? (x : Session) (date : Timestamp) (body : String) : Option ChatEntry :=
  if x.chatStatus.canPost then
    match Chat.sanitize body with
    | .ok text => some (Service.draft x date text)
    | .error _ => none
  else none

/-- Something was read, or reading has failed. -/
def taken (h : Hall σ π) (n : Nat) (f : Profile) (date : Timestamp) :
    Except ClientError Protocol.Request → Hall σ π
  | .error e => if e.isFatal then h.reach n (.serving f .leaving) else h
  | .ok (.joinQueue servers) =>
    let joins := (h.coordinator.enqueue? f.steamId servers).isSome
    (h.acted f (.enqueue f.steamId servers)).reach n
      (.serving f (if joins then .searching else .reading))
  | .ok (.leaveQueue servers) => h.acted f (.leave f.steamId servers)
  | .ok (.message body) =>
    match (h.coordinator.session? n).bind (draft? · date body) with
    | some draft => h.reach n (.serving f (.saving draft))
    | none => h

/-- A request goes on. -/
def resumed [ChatStore σ] (h : Hall σ π) (n : Nat) (f : Profile) (lookup : Lookup) :
    Task → Hall σ π
  | .searching => (h.acted f .list).reach n (.serving f (.matching h.world.passes.length))
  | .matching i =>
    let g := h.acted f (.proceed i lookup)
    match g.world.passes[i]? with
    | some (.lookup _ _) => g
    | _ => g.reach n (.serving f .reading)
  | .saving draft =>
    match ChatStore.save h.store draft with
    | .ok (e, store) => { h with store }.reach n (.serving f (.posting e))
    | .error _ => h.reach n (.serving f .reading)
  | .posting e => (h.acted f (.message e)).reach n (.serving f .reading)
  | _ => h

section
variable [ChatStore σ] [ProfileProvider π]

def next (h : Hall σ π) : Turn σ π → Hall σ π
  | .accept n =>
    match h.stages n with
    | .absent => h.reach n .accepted
    | _ => h
  | .identify n u authenticator =>
    match h.stages n with
    | .accepted =>
      match Server.identify authenticator u with
      | .ok p => h.reach n (.identified p)
      | .error e => h.reach n (.returned (.error e))
    | _ => h
  | .look n =>
    match h.stages n with
    | .identified p =>
      match ProfileProvider.profile h.profiles p with
      | .ok (f, profiles) => { h with profiles }.reach n (.found f)
      | .error e => h.reach n (.returned (.error (.collaborator e)))
    | _ => h
  | .register n =>
    match h.stages n with
    | .found f => (h.acted f (.connect n f.chatStatus)).reach n (.serving f .reading)
    | _ => h
  | .read n result date =>
    match h.stages n with
    | .serving f .reading => h.taken n f date result
    | _ => h
  | .goOn n lookup =>
    match h.stages n with
    | .serving f task => h.resumed n f lookup task
    | _ => h
  | .finish n =>
    match h.stages n with
    | .serving f .leaving => (h.acted f (.disconnect n)).reach n (.returned (.ok ()))
    | _ => h
  | .act f a => if a.registers then h else h.acted f a
  | .outside store profiles => { h with store, profiles }

def run (h : Hall σ π) (xs : List (Turn σ π)) : Hall σ π := xs.foldl next h

theorem run_concat (h : Hall σ π) (xs : List (Turn σ π)) (x : Turn σ π) :
    h.run (xs ++ [x]) = (h.run xs).next x := List.foldl_append

end

/-! ## registered sessions are attended -/

structure Attended (h : Hall σ π) : Prop where
  present : h.coordinator.Present
  served : ∀ e ∈ h.coordinator.clients, ∃ task, h.stages e.connection = .serving e.profile task

section
variable {h : Hall σ π} {n : Nat} {f : Profile} {task : Task}

theorem stages_reach_self (h : Hall σ π) (n : Nat) (stage : Stage) :
    (h.reach n stage).stages n = stage := Function.update_self ..

theorem stages_reach_of_ne {m : Nat} (hm : m ≠ n) (stage : Stage) :
    (h.reach n stage).stages m = h.stages m := Function.update_of_ne hm ..

/-- A handler that has not registered anything may get anywhere. -/
theorem Attended.reach (hh : Attended h) (hn : ∀ f task, h.stages n ≠ .serving f task)
    (stage : Stage) : Attended (h.reach n stage) := by
  refine ⟨hh.present, fun e he => ?_⟩
  obtain ⟨task, htask⟩ := hh.served e he
  have hne : e.connection ≠ n := fun hsame => hn e.profile task (hsame ▸ htask)
  exact ⟨task, (stages_reach_of_ne hne stage).trans htask⟩

theorem Attended.reach_serving (hh : Attended h) (hn : h.stages n = .serving f task)
    (task' : Task) : Attended (h.reach n (.serving f task')) := by
  refine ⟨hh.present, fun e he => ?_⟩
  obtain ⟨task'', htask⟩ := hh.served e he
  by_cases hsame : e.connection = n
  · rw [hsame, hn] at htask
    cases htask
    exact ⟨task', hsame ▸ stages_reach_self h n _⟩
  · exact ⟨task'', (stages_reach_of_ne hsame _).trans htask⟩

theorem present_acted (hh : Attended h) (f : Profile) (a : Action) :
    (h.acted f a).coordinator.Present :=
  (World.change_outcome (fun _ => f) h.world a).present hh.present

/-- No session comes but by being registered. -/
theorem Attended.acted (hh : Attended h) (f : Profile) {a : Action} (ha : a.registers = false) :
    Attended (h.acted f a) := by
  refine ⟨present_acted hh f a, fun e he => ?_⟩
  have horigin : World.Origin (fun _ => f) h.world e a := World.origin_of_mem he
  cases horigin with
  | stays a he hconnect hstatus => exact hh.served e he
  | comes n status he => cases ha
  | changes d hd status reason hsame =>
    rw [hsame]
    exact hh.served d hd

theorem Attended.register (hh : Attended h) (hn : h.stages n = .found f) :
    Attended ((h.acted f (.connect n f.chatStatus)).reach n (.serving f .reading)) := by
  refine ⟨present_acted hh f _, fun e he => ?_⟩
  have horigin : World.Origin (fun _ => f) h.world e (.connect n f.chatStatus) :=
    World.origin_of_mem he
  cases horigin with
  | stays a he hconnect hstatus =>
    obtain ⟨task, htask⟩ := hh.served e he
    have hne : e.connection ≠ n := by
      intro hsame
      rw [hsame, hn] at htask
      cases htask
    exact ⟨task, (stages_reach_of_ne hne _).trans htask⟩
  | comes n status hsame =>
    rw [hsame]
    exact ⟨.reading, stages_reach_self _ n _⟩

/-- When a handler has taken its session out, no session is left over its connection. -/
theorem connection_ne_of_disconnect (hh : Attended h) (hn : h.stages n = .serving f task)
    {e : Session} (he : e ∈ (h.acted f (.disconnect n)).coordinator.clients) :
    e.connection ≠ n := by
  change e ∈ (h.coordinator.disconnect f.steamId n).state.clients at he
  have hbefore : e ∈ h.coordinator.clients := Coordinator.mem_clients_disconnect he
  intro hsame
  obtain ⟨task', htask⟩ := hh.served e hbefore
  rw [hsame, hn] at htask
  have hprofile : e.profile = f := by
    cases htask
    rfl
  have hplayer : e.steamId = f.steamId := congrArg Profile.steamId hprofile
  rw [Coordinator.disconnect_of_current (Coordinator.isCurrent_iff.2 ⟨e, hbefore, hplayer, hsame⟩)]
    at he
  exact (Coordinator.mem_clients_remove.1 he).2 hplayer

theorem Attended.finish (hh : Attended h) (hn : h.stages n = .serving f task)
    (result : Except QueueError Unit) :
    Attended ((h.acted f (.disconnect n)).reach n (.returned result)) := by
  refine ⟨present_acted hh f _, fun e he => ?_⟩
  have hne : e.connection ≠ n := connection_ne_of_disconnect hh hn he
  obtain ⟨task, htask⟩ := (hh.acted f (a := .disconnect n) rfl).served e he
  exact ⟨task, (stages_reach_of_ne hne _).trans htask⟩

theorem Attended.taken (hh : Attended h) (hn : h.stages n = .serving f .reading)
    (date : Timestamp) (result : Except ClientError Protocol.Request) :
    Attended (h.taken n f date result) := by
  unfold Hall.taken
  split
  · split
    · exact hh.reach_serving hn _
    · exact hh
  · exact (hh.acted f rfl).reach_serving hn _
  · exact hh.acted f rfl
  · split
    · exact hh.reach_serving hn _
    · exact hh

theorem Attended.outside (hh : Attended h) (store : σ) (profiles : π) :
    Attended { h with store, profiles } := ⟨hh.present, hh.served⟩

variable [ChatStore σ]

theorem Attended.resumed (hh : Attended h) (hn : h.stages n = .serving f task) (lookup : Lookup) :
    Attended (h.resumed n f lookup task) := by
  unfold Hall.resumed
  split
  · exact (hh.acted f rfl).reach_serving hn _
  · dsimp only
    split
    · exact hh.acted f rfl
    · exact (hh.acted f rfl).reach_serving hn _
  · split
    · rename_i e store hsaved
      exact (hh.outside store h.profiles).reach_serving hn _
    · exact hh.reach_serving hn _
  · exact (hh.acted f rfl).reach_serving hn _
  · exact hh

variable [ProfileProvider π]

theorem Attended.next (hh : Attended h) (x : Turn σ π) : Attended (h.next x) := by
  unfold Hall.next
  split
  · split
    · rename_i hn
      exact hh.reach (by rw [hn]; exact fun _ _ hs => by cases hs) _
    · exact hh
  · split
    · rename_i hn
      split <;> exact hh.reach (by rw [hn]; exact fun _ _ hs => by cases hs) _
    · exact hh
  · split
    · rename_i hn
      split
      · rename_i f profiles hfound
        exact (hh.outside h.store profiles).reach (by rw [hn]; exact fun _ _ hs => by cases hs) _
      · exact hh.reach (by rw [hn]; exact fun _ _ hs => by cases hs) _
    · exact hh
  · split
    · rename_i hn
      exact hh.register hn
    · exact hh
  · split
    · rename_i hn
      exact hh.taken hn _ _
    · exact hh
  · split
    · rename_i hn
      exact hh.resumed hn _
    · exact hh
  · split
    · rename_i hn
      exact hh.finish hn _
    · exact hh
  · split
    · exact hh
    · rename_i ha
      exact hh.acted _ (Bool.eq_false_iff.2 ha)
  · exact hh.outside _ _

theorem attended_run (config : Config) (store : σ) (profiles : π) (xs : List (Turn σ π)) :
    Attended ((opened config store profiles).run xs) := by
  induction xs using List.reverseRecOn with
  | nil =>
    refine ⟨fun p s hp => absurd hp (Registry.not_queued_empty p s), fun e he => ?_⟩
    exact absurd he (Ascending.not_mem_empty e)
  | append_singleton xs x ih =>
    rw [run_concat]
    exact ih.next x

end

/-! ## how a session came to be registered -/

theorem concat_of_split {α : Type} {xs before after : List α} {y : α}
    (h : xs = before ++ y :: after) (x : α) : xs ++ [x] = before ++ y :: (after ++ [x]) := by
  rw [h, List.append_assoc, List.cons_append]

section
variable [ChatStore σ] [ProfileProvider π] {h start : Hall σ π} {n : Nat} {x : Turn σ π}
  {xs : List (Turn σ π)}

/-- what one turn makes of the stage of a handler -/
inductive Moves (h : Hall σ π) (n : Nat) (x : Turn σ π) : Stage → Prop where
  | stays : Moves h n x (h.stages n)
  | accepts (hx : x = .accept n) : Moves h n x .accepted
  | identifies (u : Server.Upgrade) (authenticator : Server.Authenticator) (p : SteamId)
      (hx : x = .identify n u authenticator) (hp : Server.identify authenticator u = .ok p) :
      Moves h n x (.identified p)
  | finds (p : SteamId) (f : Profile) (profiles : π) (hx : x = .look n)
      (hn : h.stages n = .identified p)
      (hf : ProfileProvider.profile h.profiles p = .ok (f, profiles)) : Moves h n x (.found f)
  | registers (f : Profile) (hx : x = .register n) (hn : h.stages n = .found f) :
      Moves h n x (.serving f .reading)
  | serves (f : Profile) (task task' : Task) (hx : x.connection? = some n)
      (hn : h.stages n = .serving f task) : Moves h n x (.serving f task')
  | returns (result : Except QueueError Unit) (hx : x.connection? = some n) :
      Moves h n x (.returned result)

omit [ChatStore σ] in
theorem moves_reach {g : Hall σ π} (hg : g.stages = h.stages) {m : Nat} {stage : Stage}
    (hm : m = n → Moves h n x stage) : Moves h n x ((g.reach m stage).stages n) := by
  by_cases hsame : n = m
  · subst hsame
    rw [stages_reach_self]
    exact hm rfl
  · rw [stages_reach_of_ne hsame, hg]
    exact .stays

omit [ChatStore σ] in
theorem moves_taken {f : Profile} {m : Nat} (hx : x.connection? = some m)
    (hm : h.stages m = .serving f .reading) (date : Timestamp)
    (result : Except ClientError Protocol.Request) :
    Moves h n x ((h.taken m f date result).stages n) := by
  have hserves : ∀ task, m = n → Moves h n x (.serving f task) :=
    fun task hsame => .serves f .reading task (hsame ▸ hx) (hsame ▸ hm)
  unfold Hall.taken
  split
  · split
    · exact moves_reach rfl (hserves _)
    · exact .stays
  · exact moves_reach (h := h) rfl (hserves _)
  · exact .stays
  · split
    · exact moves_reach rfl (hserves _)
    · exact .stays

theorem moves_resumed {f : Profile} {task : Task} {m : Nat} (hx : x.connection? = some m)
    (hm : h.stages m = .serving f task) (lookup : Lookup) :
    Moves h n x ((h.resumed m f lookup task).stages n) := by
  have hserves : ∀ task', m = n → Moves h n x (.serving f task') :=
    fun task' hsame => .serves f task task' (hsame ▸ hx) (hsame ▸ hm)
  unfold Hall.resumed
  split
  · exact moves_reach (h := h) rfl (hserves _)
  · dsimp only
    split
    · exact .stays
    · exact moves_reach (h := h) rfl (hserves _)
  · split
    · exact moves_reach (h := h) rfl (hserves _)
    · exact moves_reach rfl (hserves _)
  · exact moves_reach (h := h) rfl (hserves _)
  · exact .stays

theorem moves_next (h : Hall σ π) (n : Nat) (x : Turn σ π) :
    Moves h n x ((h.next x).stages n) := by
  unfold Hall.next
  split
  · split
    · exact moves_reach rfl fun hm => .accepts (hm ▸ rfl)
    · exact .stays
  · split
    · split
      · rename_i u authenticator _ _ _ p hp
        exact moves_reach rfl fun hm => .identifies u authenticator p (hm ▸ rfl) hp
      · exact moves_reach rfl fun hm => .returns _ (congrArg some hm)
    · exact .stays
  · split
    · rename_i p hn
      split
      · rename_i f profiles hf
        exact moves_reach (h := h) rfl fun hm => .finds p f profiles (hm ▸ rfl) (hm ▸ hn) hf
      · exact moves_reach rfl fun hm => .returns _ (congrArg some hm)
    · exact .stays
  · split
    · rename_i f hn
      exact moves_reach (h := h) rfl fun hm => .registers f (hm ▸ rfl) (hm ▸ hn)
    · exact .stays
  · split
    · rename_i hn
      exact moves_taken rfl hn _ _
    · exact .stays
  · split
    · rename_i hn
      exact moves_resumed rfl hn _
    · exact .stays
  · split
    · exact moves_reach (h := h) rfl fun hm => .returns _ (congrArg some hm)
    · exact .stays
  · split <;> exact .stays
  · exact .stays

/-- A handler leaves all others where they are. -/
theorem stages_next_of_ne (h : Hall σ π) (hx : x.connection? ≠ some n) :
    (h.next x).stages n = h.stages n := by
  have hmoves := moves_next h n x
  generalize (h.next x).stages n = stage at hmoves
  cases hmoves with
  | stays => rfl
  | accepts hx' => exact absurd (congrArg Turn.connection? hx') hx
  | identifies u authenticator p hx' hp => exact absurd (congrArg Turn.connection? hx') hx
  | finds p f profiles hx' hn hf => exact absurd (congrArg Turn.connection? hx') hx
  | registers f hx' hn => exact absurd (congrArg Turn.connection? hx') hx
  | serves f task task' hx' hn => exact absurd hx' hx
  | returns result hx' => exact absurd hx' hx

theorem stages_run_of_ne (h : Hall σ π) (hxs : ∀ x ∈ xs, x.connection? ≠ some n) :
    (h.run xs).stages n = h.stages n := by
  induction xs generalizing h with
  | nil => rfl
  | cons x xs ih =>
    obtain ⟨hx, hxs⟩ := List.forall_mem_cons.1 hxs
    exact (ih (h.next x) hxs).trans (stages_next_of_ne h hx)

/-- The token of a connection stands for a player, who is an individual. -/
def Identified (n : Nat) (p : SteamId) (xs : List (Turn σ π)) : Prop :=
  ∃ before u authenticator after token, xs = before ++ .identify n u authenticator :: after ∧
    Server.token? u.target = some token ∧ authenticator token = .ok p ∧ p.isValid = true

/-- Then the player was looked up, and this is the profile. -/
def Found (start : Hall σ π) (n : Nat) (f : Profile) (xs : List (Turn σ π)) : Prop :=
  ∃ before after profiles, xs = before ++ .look n :: after ∧ Identified n f.steamId before ∧
    ProfileProvider.profile (start.run before).profiles f.steamId = .ok (f, profiles)

/-- Then the session was registered. -/
def Registered (start : Hall σ π) (n : Nat) (f : Profile) (xs : List (Turn σ π)) : Prop :=
  ∃ before after, xs = before ++ .register n :: after ∧ Found start n f before

/-- what the stage of a handler tells of the turns so far -/
def Tells (start : Hall σ π) (n : Nat) (xs : List (Turn σ π)) : Stage → Prop
  | .identified p => Identified n p xs
  | .found f => Found start n f xs
  | .serving f _ => Registered start n f xs
  | _ => True

theorem Tells.concat {stage : Stage} (h : Tells start n xs stage) (x : Turn σ π) :
    Tells start n (xs ++ [x]) stage := by
  cases stage with
  | identified p =>
    obtain ⟨before, u, authenticator, after, token, hsplit, htoken⟩ := h
    exact ⟨before, u, authenticator, after ++ [x], token, concat_of_split hsplit x, htoken⟩
  | found f =>
    obtain ⟨before, after, profiles, hsplit, hfound⟩ := h
    exact ⟨before, after ++ [x], profiles, concat_of_split hsplit x, hfound⟩
  | serving f task =>
    obtain ⟨before, after, hsplit, hfound⟩ := h
    exact ⟨before, after ++ [x], concat_of_split hsplit x, hfound⟩
  | _ => trivial

theorem identify_eq_ok {authenticator : Server.Authenticator} {u : Server.Upgrade} {p : SteamId}
    (h : Server.identify authenticator u = .ok p) :
    ∃ token, Server.token? u.target = some token ∧ authenticator token = .ok p ∧
      p.isValid = true := by
  unfold Server.identify at h
  split at h
  · cases h
  · rename_i token htoken
    split at h
    · cases h
    · rename_i q hq
      split at h
      · rename_i hvalid
        cases h
        exact ⟨token, htoken, hq, hvalid⟩
      · cases h

variable [LawfulProfiles π]

theorem tells_run (config : Config) (store : σ) (profiles : π) (n : Nat) (xs : List (Turn σ π)) :
    let start := opened config store profiles
    Tells start n xs ((start.run xs).stages n) := by
  intro start
  induction xs using List.reverseRecOn with
  | nil => trivial
  | append_singleton xs x ih =>
    rw [run_concat]
    have hmoves := moves_next (start.run xs) n x
    generalize ((start.run xs).next x).stages n = stage at hmoves
    cases hmoves with
    | stays => exact ih.concat x
    | accepts hx => trivial
    | identifies u authenticator p hx hp =>
      obtain ⟨token, htoken⟩ := identify_eq_ok hp
      exact ⟨xs, u, authenticator, [], token, congrArg (fun x => xs ++ [x]) hx, htoken⟩
    | finds p f profiles hx hn hf =>
      rw [hn] at ih
      obtain rfl : f.steamId = p := (LawfulProfiles.profile hf).1
      exact ⟨xs, [], profiles, congrArg (fun x => xs ++ [x]) hx, ih, hf⟩
    | registers f hx hn =>
      rw [hn] at ih
      exact ⟨xs, [], congrArg (fun x => xs ++ [x]) hx, ih⟩
    | serves f task task' hx hn =>
      rw [hn] at ih
      have htells : Tells start n xs (.serving f task') := ih
      exact htells.concat x
    | returns result hx => trivial

/-- **No session leaks.**  Whoever is registered was identified by a token as an individual, was
looked up after that and registered after that, and has a handler that is still serving the session.
So once no handler is at work, nobody is registered and no lobby has a member. -/
theorem no_session_leaks (config : Config) (store : σ) (profiles : π) (xs : List (Turn σ π)) :
    let start : Hall σ π := opened config store profiles
    let h := start.run xs
    let c := h.coordinator
    (∀ e ∈ c.clients, Registered start e.connection e.profile xs) ∧
      (∀ e ∈ c.clients, ∃ task, h.stages e.connection = .serving e.profile task) ∧
      ((∀ n, (h.stages n).isOver = true) →
        c.clients = .empty ∧ ∀ l ∈ c.lobbies.lobbies, ∀ p, ¬ p ∈ l.members) := by
  intro start h c
  have hattended : Attended h := attended_run config store profiles xs
  refine ⟨fun e he => ?_, hattended.served, fun hidle => ?_⟩
  · obtain ⟨task, htask⟩ := hattended.served e he
    have htells : Tells start e.connection xs (h.stages e.connection) :=
      tells_run config store profiles e.connection xs
    rw [htask] at htells
    exact htells
  · have hnobody : ∀ e, ¬ e ∈ c.clients := by
      intro e he
      obtain ⟨task, htask⟩ := hattended.served e he
      have hover := hidle e.connection
      rw [htask] at hover
      cases hover
    exact hattended.present.vacant hnobody

end

end Hall

namespace Sample

def arrival : List (Hall.Turn Chat.Log ProfileTable) :=
  [.act (owner 0) (.report (.ok [server])), .accept 0,
    .identify 0 ⟨"/?token=x", none⟩ fun _ => .ok (.ofAccount 2), .look 0, .register 0,
    .read 0 (.ok (.joinQueue [server.serverId])) midnight]

/-- A player has joined a queue and hangs up while a match is looked for. -/
def visit : List (Hall.Turn Chat.Log ProfileTable) :=
  arrival ++ [.goOn 0 lookup, .goOn 0 lookup,
    .read 0 (.error .closed) midnight, .finish 0]

end Sample

namespace Hall

theorem no_session_leaks_sample :
    let start : Hall Chat.Log ProfileTable := opened {} .empty .empty
    (start.run Sample.arrival).coordinator.clients.toList.length = 1 ∧
      (start.run Sample.visit).coordinator.clients = .empty := by
  intro start
  refine ⟨by decide +kernel, ?_⟩
  obtain ⟨-, -, hover⟩ := no_session_leaks {} .empty .empty Sample.visit
  refine (hover fun n => ?_).1
  by_cases hn : n = 0
  · subst hn
    decide +kernel
  · have hone : ∀ x ∈ Sample.visit, x.connection? = none ∨ x.connection? = some 0 := by decide
    refine congrArg Stage.isOver (stages_run_of_ne start fun x hx hsame => ?_)
    rcases hone x hx with hnone | hzero
    · cases hnone.symm.trans hsame
    · exact hn (Option.some.inj (hsame.symm.trans hzero))

end Hall

end Matchmaker
