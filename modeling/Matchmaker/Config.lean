import Matchmaker.Client.Settings
import Matchmaker.Error
import Matchmaker.Toml.Document
import Matchmaker.Word

/-!
# Configuration

The settings of the whole service.  Each of them has a default, so an empty document is a valid
configuration, and so is a missing file.

`validated` raises settings that make no sense: no interval or timeout is zero, the history and a
match have room for one at least, and a client's queue of responses holds a replay of the whole
history with some to spare.  The least size of that queue is a 64-bit sum, and where no word holds it
there is no configuration to use.
-/

namespace Matchmaker

structure Config where
  listenAddr : String := "127.0.0.1:8090"
  /-- beginnings of accepted origins; if there are none, every origin is accepted -/
  allowedOrigins : List String := []
  chatHistorySize : UInt64 := 100
  /-- the members that a lobby needs to start -/
  minQueueSize : UInt64 := 2
  reconcileSecs : UInt64 := 2
  evictionSecs : UInt64 := 30
  idleTimeoutSecs : UInt64 := 60
  keepaliveSecs : UInt64 := 20
  outboundQueueSize : UInt64 := 256
  /-- the tokens that a client may save up; none means no limit -/
  rateLimitBurst : UInt32 := 1
  rateLimitRefillSecs : UInt64 := 5
  /-- how many recent messages are meant where none are asked for -/
  recentDefaultLimit : UInt64 := 50
  lobbies : List LobbyInfo := []
  deriving DecidableEq, Repr

namespace Config

/-! ## reading and writing -/

def word64? (v : Json.Value) : Option UInt64 := (v.asNat? UInt64.size).map UInt64.ofNat

def word32? (v : Json.Value) : Option UInt32 := (v.asNat? UInt32.size).map UInt32.ofNat

/-- a field, or its default if it is left out -/
def orDefault {α : Type} (of? : Json.Value → Option α) (default : α) :
    Option Json.Value → Option α
  | none => some default
  | some v => of? v

def fieldNames : List String :=
  ["listen_addr", "allowed_origins", "chat_history_size", "min_queue_size",
    "reconcile_interval_secs", "eviction_interval_secs", "idle_timeout_secs",
    "keepalive_interval_secs", "outbound_queue_size", "rate_limit_burst", "rate_limit_refill_secs",
    "recent_default_limit", "lobbies"]

/-- the configuration of a value, with a reader for the records of lobbies -/
def ofValue? (lobby? : Json.Value → Option LobbyInfo) (v : Json.Value) : Option Config := do
  let d : Config := {}
  match ← v.asFields? fieldNames with
  | [addr, origins, history, members, reconcile, eviction, idle, keepalive, outbound, burst, refill,
      recent, lobbies] =>
    some {
      listenAddr := ← orDefault Json.Value.asText? d.listenAddr addr
      allowedOrigins := ← orDefault (·.asListOf? Json.Value.asText?) d.allowedOrigins origins
      chatHistorySize := ← orDefault word64? d.chatHistorySize history
      minQueueSize := ← orDefault word64? d.minQueueSize members
      reconcileSecs := ← orDefault word64? d.reconcileSecs reconcile
      evictionSecs := ← orDefault word64? d.evictionSecs eviction
      idleTimeoutSecs := ← orDefault word64? d.idleTimeoutSecs idle
      keepaliveSecs := ← orDefault word64? d.keepaliveSecs keepalive
      outboundQueueSize := ← orDefault word64? d.outboundQueueSize outbound
      rateLimitBurst := ← orDefault word32? d.rateLimitBurst burst
      rateLimitRefillSecs := ← orDefault word64? d.rateLimitRefillSecs refill
      recentDefaultLimit := ← orDefault word64? d.recentDefaultLimit recent
      lobbies := ← orDefault (·.asListOf? lobby?) d.lobbies lobbies }
  | _ => none

/-- the configuration that a JSON value stands for -/
def ofJson? : Json.Value → Option Config := ofValue? LobbyInfo.ofValue?

/-- a lobby in a document; if it is an array, items beyond its fields do not matter -/
def documentLobby? : Json.Value → Option LobbyInfo
  | .array vs => LobbyInfo.ofValue? (.array (vs.take 8))
  | v => LobbyInfo.ofValue? v

/-- the configuration in the text of a document -/
def ofDocument (text : String) : Except QueueError Config :=
  match Toml.parse? text >>= ofValue? documentLobby? with
  | some c => .ok c
  | none => .error (.config "not a valid document")

/-- what is found where the configuration should be -/
inductive Source where
  | missing
  /-- something that cannot be read -/
  | unreadable (reason : String)
  | file (bytes : ByteArray)

/-- the configuration found at a place -/
def load : Source → Except QueueError Config
  | .missing => .ok {}
  | .unreadable reason => .error (.config reason)
  | .file bytes =>
    match Text.decode? bytes with
    | some text => ofDocument text
    | none => .error (.config "not well-formed text")

def toValue (c : Config) : Json.Value :=
  .object [("listen_addr", .text c.listenAddr),
    ("allowed_origins", .array (c.allowedOrigins.map Json.Value.text)),
    ("chat_history_size", .nat c.chatHistorySize.toNat),
    ("min_queue_size", .nat c.minQueueSize.toNat),
    ("reconcile_interval_secs", .nat c.reconcileSecs.toNat),
    ("eviction_interval_secs", .nat c.evictionSecs.toNat),
    ("idle_timeout_secs", .nat c.idleTimeoutSecs.toNat),
    ("keepalive_interval_secs", .nat c.keepaliveSecs.toNat),
    ("outbound_queue_size", .nat c.outboundQueueSize.toNat),
    ("rate_limit_burst", .nat c.rateLimitBurst.toNat),
    ("rate_limit_refill_secs", .nat c.rateLimitRefillSecs.toNat),
    ("recent_default_limit", .nat c.recentDefaultLimit.toNat),
    ("lobbies", .array (c.lobbies.map LobbyInfo.toValue))]

/-! ## limits -/

/-- what a client's queue of responses holds beyond a replay of the history -/
def outboundSpare : UInt64 := 16

/-- the configuration with every setting safe to use, unless there is no telling how long a queue has
to be -/
def validated (c : Config) : Except Overflow Config := do
  let history := max c.chatHistorySize 1
  let replay ← Word.sum history outboundSpare
  return { c with
    reconcileSecs := max c.reconcileSecs 1
    evictionSecs := max c.evictionSecs 1
    idleTimeoutSecs := max c.idleTimeoutSecs 1
    keepaliveSecs := max c.keepaliveSecs 1
    chatHistorySize := history
    minQueueSize := max c.minQueueSize 1
    outboundQueueSize := max c.outboundQueueSize replay }

/-! ## settings of clients -/

def clientSettings (c : Config) : Client.Settings where
  outboundCapacity := c.outboundQueueSize.toNat
  keepaliveInterval := c.keepaliveSecs.toNat * Client.nanosPerSecond
  rateLimitBurst := c.rateLimitBurst.toNat
  rateLimitRefill := c.rateLimitRefillSecs.toNat * Client.nanosPerSecond

end Config

end Matchmaker
