import Matchmaker.Collaborator

/-!
# Messages kept in memory

A log of all messages ever saved, numbered from one in the order of saving.  Messages are marked as
deleted and never dropped, so the number of a message is its place in the log and none is used
twice.
-/

namespace Matchmaker.Chat

structure Log where
  /-- the oldest first -/
  entries : List ChatEntry
  deriving DecidableEq, Repr

namespace Log

def empty : Log := ⟨[]⟩

/-- appends a message under the next number -/
def save (log : Log) (e : ChatEntry) : ChatEntry × Log :=
  let e := { e with messageId := log.entries.length + 1 }
  (e, ⟨log.entries ++ [e]⟩)

def get? (log : Log) (id : Int) : Option ChatEntry :=
  log.entries.find? fun e => e.messageId == id

/-- marks the messages with the given numbers -/
def delete (log : Log) (ids : List Int) : Log :=
  ⟨log.entries.map fun e => if ids.contains e.messageId then { e with deleted := true } else e⟩

/-- the messages that are not deleted -/
def current (log : Log) : List ChatEntry := log.entries.filter fun e => !e.deleted

/-- the newest `limit` messages that are not deleted, the oldest of them first -/
def recent (log : Log) (limit : Nat) : List ChatEntry :=
  (log.current.reverse.take limit).reverse

instance : ChatStore Log where
  save log e := .ok (log.save e)
  message log id :=
    match log.get? id with
    | some e => .ok (e, log)
    | none => .error (.notFound ("message " ++ String.ofList (Decimal.writeInt id)))
  delete log ids := .ok ((), log.delete ids)
  recent log limit := .ok (log.recent limit, log)

end Log

end Matchmaker.Chat
