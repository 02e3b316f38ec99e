import Matchmaker.Config

/-!
# Command line

Reads the configuration as the service would, checks it and writes it with every setting safe to use.
Sockets belong to whatever embeds the library, so nothing is served from here.
-/

namespace Matchmaker

structure Arguments where
  config : String := "matchmaker.toml"
  /-- replaces the address in the configuration -/
  listen : Option String := none
  deriving DecidableEq, Repr

namespace Arguments

def usage : String := "usage: matchmaker [-c FILE] [-l ADDRESS]"

/-- The options in a list of arguments; of an option that is repeated the last one counts. -/
def parse? (a : Arguments) : List String → Option Arguments
  | [] => some a
  | [_] => none
  | o :: v :: rest =>
    if o == "-c" || o == "--config" then parse? { a with config := v } rest
    else if o == "-l" || o == "--listen" then parse? { a with listen := some v } rest
    else none

/-- the configuration that is found, with what the arguments replace -/
def configuration (a : Arguments) (found : Config.Source) :
    Except QueueError (Except Overflow Config) := do
  let c ← Config.load found
  return ({ c with listenAddr := a.listen.getD c.listenAddr } : Config).validated

/-- what is in a file -/
def source (name : String) : IO Config.Source := do
  try
    return .file (← IO.FS.readBinFile name)
  catch
    | .noFileOrDirectory .. => return .missing
    | e => return .unreadable (toString e)

def run (args : List String) : IO UInt32 := do
  match parse? {} args with
  | none => IO.eprintln usage; return 2
  | some a =>
    match a.configuration (← source a.config) with
    | .ok (.ok c) => IO.println c.toValue.render; return 0
    | .ok (.error e) => IO.eprintln e.message; return 101
    | .error e => IO.eprintln e.message; return 1

end Arguments

end Matchmaker

def main (args : List String) : IO UInt32 := Matchmaker.Arguments.run args
