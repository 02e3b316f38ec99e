import Matchmaker.Chat.Body
import Matchmaker.Collaborator
import Matchmaker.Coordinator.Chat
import Matchmaker.Moderation

/-!
# The service

Chat and moderation on top of the coordinator.  A call checks what it is given, asks the policy,
stores what is to be kept, and only then changes what is live.  So a call that fails leaves the chat
and the connections alone; it may have looked up profiles, and looking up may add some.

A call is written as a sequence of such parts.  It ends at the first one that fails, with the service
as that part left it.
-/

namespace Matchmaker

structure Service (σ π : Type) where
  coordinator : Coordinator
  store : σ
  profiles : π
  policy : Moderation.Policy
  /-- how many recent messages are meant where none are asked for -/
  recentDefault : Nat
  historySize : Nat
  /-- what the calls so far ask of the connections, in order -/
  effects : List Effect := []

/-- a call of the service -/
abbrev Serving (σ π α : Type) := ExceptT QueueError (StateM (Service σ π)) α

namespace Service
variable {σ π α : Type}

def new (config : Config) (store : σ) (profiles : π) (policy : Moderation.Policy) : Service σ π where
  coordinator := .new config
  store := store
  profiles := profiles
  policy := policy
  recentDefault := max config.recentDefaultLimit.toNat 1
  historySize := config.chatHistorySize.toNat

/-! ## parts of calls -/

/-- A call of the message store. -/
def onStore (f : σ → Called σ α) : Serving σ π α := do
  let s ← get
  match f s.store with
  | .ok (a, store) => set { s with store }; return a
  | .error e => throw (.collaborator e)

/-- A call of the profile service. -/
def onProfiles (f : π → Called π α) : Serving σ π α := do
  let s ← get
  match f s.profiles with
  | .ok (a, profiles) => set { s with profiles }; return a
  | .error e => throw (.collaborator e)

/-- A step of the coordinator. -/
def onCoordinator (f : Coordinator → Coordinator.Outcome × α) : Serving σ π α := do
  let s ← get
  let (o, a) := f s.coordinator
  set { s with coordinator := o.state, effects := s.effects ++ o.effects }
  return a

/-- The profile of whoever calls; nobody in particular may not. -/
def caller [ProfileProvider π] (p : SteamId) : Serving σ π Profile := do
  unless p.isValid do throw .unauthenticated
  onProfiles (ProfileProvider.profile · p)

def authorize (actor : Profile) (action : Moderation) : Serving σ π Unit := do
  unless (← get).policy actor action do throw .permissionDenied

/-! ## chat -/

/-- Fills the history with what is stored; how many messages that are. -/
def seedHistory [ChatStore σ] : Serving σ π Nat := do
  let size := (← get).historySize
  let entries ← onStore (ChatStore.recent · size)
  onCoordinator fun c => (.still (c.seed entries), ())
  return entries.length

/-- the message of a session as it is given to the store, which numbers it -/
def draft (author : Session) (createdOn : Timestamp) (body : String) : ChatEntry where
  messageId := 0
  author := author.steamId
  createdOn := createdOn
  personaname := author.profile.name
  avatarhash := author.profile.avatarHash
  permissionLevel := author.profile.permissionLevel
  body := body
  deleted := false

/-- Posts a message in the name of a session. -/
def addMessage [ChatStore σ] (author : Session) (createdOn : Timestamp) (body : String) :
    Serving σ π ChatEntry := do
  unless author.chatStatus.canPost do throw .permissionDenied
  let body ← Chat.sanitize body
  let saved ← onStore (ChatStore.save · (draft author createdOn body))
  onCoordinator fun c => (c.message saved, ())
  return saved

/-- The newest stored messages, the oldest of them first. -/
def recent [ChatStore σ] (limit : Nat) : Serving σ π (List ChatEntry) := do
  let s ← get
  let limit := if limit == 0 then s.recentDefault else limit
  onStore (ChatStore.recent · limit)

/-! ## moderation -/

/-- Removes the newest `count` of the cached messages of a player; their numbers. -/
def purgeAuthor [ChatStore σ] [ProfileProvider π] (actor target : SteamId) (count : Nat) :
    Serving σ π (List Int) := do
  let actor ← caller actor
  let target ← onProfiles (ProfileProvider.profile · target)
  authorize actor (.purge target count)
  let found := (← get).coordinator.chat.findByAuthor target.steamId count
  let ids := found.map ChatEntry.messageId
  unless ids.isEmpty do
    onStore (ChatStore.delete · ids)
    let _ ← onCoordinator fun c => c.purge ids
  return ids

/-- Removes the newest `count` of the cached messages of whoever wrote `anchor`. -/
def purge [ChatStore σ] [ProfileProvider π] (actor : SteamId) (anchor : Int) (count : Nat) :
    Serving σ π (List Int) := do
  let anchor ← onStore (ChatStore.message · anchor)
  purgeAuthor actor anchor.author count

/-- Removes one message. -/
def deleteMessage [ChatStore σ] [ProfileProvider π] (actor : SteamId) (id : Int) :
    Serving σ π Unit := do
  let actor ← caller actor
  let message ← onStore (ChatStore.message · id)
  if message.deleted then
    throw (.duplicate ("message " ++ String.ofList (Decimal.writeInt id) ++ " already deleted"))
  let target ← onProfiles (ProfileProvider.profile · message.author)
  authorize actor (.deleteMessage target id)
  onStore (ChatStore.delete · [id])
  let _ ← onCoordinator fun c => c.purge [id]

/-- Changes the chat status of a player, for good and at once. -/
def setChatStatus [ProfileProvider π] (actor target : SteamId) (status : ChatStatus)
    (reason : String) : Serving σ π Unit := do
  unless target.isValid do throw (.badInput ("invalid steam id " ++ target.text))
  let actor ← caller actor
  if actor.steamId == target then throw .permissionDenied
  let target ← onProfiles (ProfileProvider.profile · target)
  authorize actor (.setChatStatus target status)
  if target.chatStatus == status then
    throw (.duplicate (target.steamId.text ++ " already has status " ++ status.name))
  onProfiles (ProfileProvider.setChatStatus · target.steamId status)
  let _ ← onCoordinator fun c => c.updateChatStatus target.steamId status reason

end Service

end Matchmaker
