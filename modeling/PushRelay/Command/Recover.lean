import PushRelay.Command.Arguments
import PushRelay.Command.Finish
import PushRelay.Files
import PushRelay.Http.Call
import PushRelay.Recovery.Resubmission
import PushRelay.Settings.Source

/-! The command that lists what a push log leaves undelivered, or submits it again. -/
namespace PushRelay.Recover

def usage : String := "pn-recover [OPTIONS] <LOG>"

def version : String := "pn-recover 0.1.0\n"

def help : String :=
  "Find accepted but undelivered pushes in a push relay log\n\nUsage: " ++ usage ++
  "\n\nArguments:\n  <LOG>  Push log file (JSON lines)\n\nOptions:\n" ++
  "      --emit-batch             Print the batches that submit them again, one per line\n" ++
  "      --endpoint <ENDPOINT>    Post the batches to this relay [env: PN_RECOVER_ENDPOINT]\n" ++
  "      --batch-max <BATCH_MAX>  Notifications per batch [default: 100]\n" ++
  "  -h, --help                   Print help\n" ++
  "  -V, --version                Print version\n"

def endpointVariable : String := "PN_RECOVER_ENDPOINT"

def synopsis : Synopsis where
  switches :=
    [{ name := "emit-batch" }, { name := "endpoint", accepts := some fun _ => true },
      { name := "batch-max", accepts := some fun v => (Decimal.readUInt64? v.toList).isSome }]
  operands := [fun v => !v.isEmpty]

structure Options where
  log : String
  emitsBatches : Bool
  endpoint : Option String
  batchMax : Nat
  deriving DecidableEq, Repr

/-- The options that arguments and environment give; a log has to be named. -/
def Options.of? (env : Environment) (a : Arguments) : Option Options :=
  match a.operands with
  | log :: _ => some {
      log
      emitsBatches := (a.values.lookup "emit-batch").isSome
      endpoint := (a.values.lookup "endpoint").or (env endpointVariable)
      batchMax :=
        ((a.values.lookup "batch-max").bind (Decimal.readUInt64? ·.toList)).elim 100 (·.toNat) }
  | [] => none

def address (endpoint : String) : String := Url.trimSlashes endpoint ++ "/push"

def call (endpoint : String) (b : Batch) : Http.Call where
  address := address endpoint
  headers := [("content-type", "application/json")]
  body := Utf8.encode b.toJson.chars

structure Submission where
  calls : List Http.Call := []
  refused : Nat := 0
  /-- Why the relay could not be reached. -/
  fault : Option Http.CallFault := none

/-- Submits batches in turn, up to the first that cannot be sent. -/
def submit (network : Http.Network) (endpoint : String) (done : Submission) :
    List Batch → Submission
  | [] => done
  | b :: rest =>
    match (call endpoint b).send network with
    | (calls, .error fault) => { done with calls := done.calls ++ calls, fault := some fault }
    | (calls, .ok a) =>
      submit network endpoint
        { done with
          calls := done.calls ++ calls
          refused := done.refused + if a.isSuccess then 0 else 1 } rest

def Submission.finish (s : Submission) (endpoint : String) (batches : Nat) (out : String) :
    Finish :=
  match s.fault with
  | some fault =>
    .failedAfter out ("failed to reach " ++ address endpoint) (fault.message :: fault.causes)
  | none =>
    if s.refused = 0 then { out }
    else
      .failedAfter out
        (Decimal.text s.refused ++ " of " ++ Decimal.text batches ++ " batches rejected") []

/-- Why a log cannot be read: one that is not there cannot be opened, while a directory can. -/
def unreadable (path : String) (fault : ReadFault) : Finish :=
  match fault with
  | .directory | .notText => .failed "failed to read push log" [fault.message]
  | _ => .failed ("failed to open " ++ path) [fault.message]

def settle (network : Http.Network) (o : Options) (f : Recovery.Findings) :
    Finish × List Http.Call :=
  if !o.emitsBatches && o.endpoint.isNone then
    ({ out := String.join (f.undelivered.map (·.listing ++ "\n")) }, [])
  else
    let batches := Recovery.batches o.batchMax f.undelivered
    let out := if o.emitsBatches then String.join (batches.map (·.text ++ "\n")) else ""
    match o.endpoint with
    | none => ({ out }, [])
    | some endpoint =>
      let s := submit network endpoint {} batches
      (s.finish endpoint batches.length out, s.calls)

def run (files : Files) (env : Environment) (network : Http.Network) (args : List String) :
    Finish × List Http.Call :=
  match synopsis.read args with
  | .unfit => (.unfit usage, [])
  | .help => ({ out := help }, [])
  | .version => ({ out := version }, [])
  | .run a =>
    match Options.of? env a with
    | none => (.unfit usage, [])
    | some o =>
      match files o.log with
      | .error fault => (unreadable o.log fault, [])
      | .ok log =>
        match Recovery.ofLog? log with
        | none => (unreadable o.log .notText, [])
        | some f => settle network o f

end PushRelay.Recover
