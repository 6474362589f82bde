import PushRelay.Command.Recover
import PushRelay.Command.Serve

/-! The commands as a program. Files and variables are read first, then the command decides, then
its outputs are written. The program opens no connections, so no address can be reached or listened
on. -/
namespace PushRelay.Program

def fault : IO.Error → ReadFault
  | .noFileOrDirectory .. => .missing
  | .inappropriateType _ code details =>
    if code = 21 then .directory else if code = 20 then .throughFile else .other details
  | e => .other (toString e)

def readFile (path : String) : IO (Except ReadFault Octets) := do
  if path.toList.any (· == '\x00') then return .error .badName
  try return .ok (← IO.FS.readBinFile path).toList
  catch e => return .error (fault e)

def readFiles (paths : List String) : IO Files := do
  return .ofList (← paths.mapM fun path => return (path, ← readFile path))

def readEnvironment (names : List String) : IO Environment := do
  let values ← names.mapM fun name => return (name, ← IO.getEnv name)
  return fun name => (values.lookup name).join

def knownNames : List String :=
  [Settings.fileVariable, Recover.endpointVariable] ++ Override.all.map (·.name)

def countProcessors : IO UInt64 := do
  match ← readFile "/proc/cpuinfo" with
  | .error _ => return 1
  | .ok octets =>
    let lines := (Utf8.readLossy octets).splitOn "\n"
    return UInt64.ofNat (max 1 (lines.filter (·.startsWith "processor")).length)

def noConnection : String := "Operation not supported (os error 95)"

def network : Http.Network := fun _ => .unreachable [noConnection]

def finish (f : Finish) : IO UInt32 := do
  IO.print f.out
  IO.eprint f.err
  return UInt32.ofNat f.status

def recover (args : List String) : IO UInt32 := do
  let env ← readEnvironment knownNames
  let files ← readFiles args
  finish (Recover.run files env network args).1

/-- Each reading of the files may name more files: the settings, then the credentials. -/
def serve (args : List String) : IO UInt32 := do
  let processors ← countProcessors
  let own ← readFile EnvironmentFile.path
  let words := match own with
    | .ok file => EnvironmentFile.words file
    | .error _ => []
  let env ← readEnvironment (knownNames ++ words)
  let files ← readFiles (Serve.reads processors (.ofList []) env args)
  let files ← readFiles (Serve.reads processors files env args)
  let files ← readFiles (Serve.reads processors files env args)
  match Serve.run processors files env (fun _ => some noConnection) args with
  | .finished f => finish f
  | .listening _ => return 0

end PushRelay.Program

def main (args : List String) : IO UInt32 :=
  match args with
  | "pn-server" :: args => PushRelay.Program.serve args
  | "pn-recover" :: args => PushRelay.Program.recover args
  | _ => do
    IO.eprintln "usage: pn-server ... | pn-recover ..."
    return 2
