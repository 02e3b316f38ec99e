import Matchmaker.Identity
import Matchmaker.Time.Timestamp
import Matchmaker.Word

/-!
# Chat messages

One line of the chat as it is stored and as it is sent: who wrote it, when, and how its author was
shown at that time.  Its number is given by the store.  A deleted line stays in the store, marked.
-/

namespace Matchmaker

structure ChatEntry where
  messageId : Int
  author : SteamId
  createdOn : Timestamp
  personaname : String
  avatarhash : String
  permissionLevel : Int
  body : String
  deleted : Bool
  deriving DecidableEq, Repr

namespace ChatEntry

/-- the range of the numbers of messages -/
def isMessageId (n : Int) : Prop := Word.minInt64 ≤ n ∧ n ≤ Word.maxInt64

def messageId? : Json.Value → Option Int := Json.Value.asInt? Word.minInt64 Word.maxInt64

def level? : Json.Value → Option Int := Json.Value.asInt? Word.minInt32 Word.maxInt32

def toValue (e : ChatEntry) : Json.Value :=
  .object [("message_id", .int e.messageId), ("steam_id", e.author.toValue),
    ("created_on", .text e.createdOn.write), ("personaname", .text e.personaname),
    ("avatarhash", .text e.avatarhash), ("permission_level", .int e.permissionLevel),
    ("body_md", .text e.body), ("deleted", .bool e.deleted)]

/-- a message that does not say whether it is deleted is not -/
def ofValue? (v : Json.Value) : Option ChatEntry := do
  let fields ← v.asFields? ["message_id", "steam_id", "created_on", "personaname", "avatarhash",
    "permission_level", "body_md", "deleted"]
  match fields with
  | [some id, some author, some created, some name, some hash, some level, some body, deleted] =>
    some {
      messageId := ← messageId? id
      author := ← SteamId.ofValue? author
      createdOn := ← created.asText? >>= Timestamp.read?
      personaname := ← name.asText?
      avatarhash := ← hash.asText?
      permissionLevel := ← level? level
      body := ← body.asText?
      deleted := ← match deleted with
        | none => some false
        | some d => d.asBool? }
  | _ => none

end ChatEntry

end Matchmaker
