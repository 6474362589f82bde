/-! The arguments of a command: options with and without values, and operands. They are taken in
turn, and the first one that does not fit, or that asks for help or the version, decides. -/
namespace PushRelay

structure Switch where
  name : String
  letter : Option Char := none
  /-- Which texts are values of it; none where it has no value. -/
  accepts : Option (String → Bool) := none

structure Arguments where
  values : List (String × String) := []
  operands : List String := []
  deriving DecidableEq, Repr

inductive Demand where
  | unfit
  | help
  | version
  | run (a : Arguments)
  deriving DecidableEq, Repr

structure Synopsis where
  switches : List Switch
  /-- Which texts fit at the place of each operand. -/
  operands : List (String → Bool) := []

namespace Synopsis

/-- An option with its value; it may be given once. -/
def put? (w : Switch) (value : String) (done : Arguments) : Option Arguments :=
  if (done.values.lookup w.name).isSome || !(w.accepts.all (· value)) then none
  else some { done with values := done.values ++ [(w.name, value)] }

def operand? (s : Synopsis) (value : String) (done : Arguments) : Option Arguments :=
  if (s.operands[done.operands.length]?).any (· value) then
    some { done with operands := done.operands ++ [value] }
  else none

inductive Step where
  | stop (d : Demand)
  | next (done : Arguments)
  /-- The value of an option is the next argument. -/
  | awaits (w : Switch) (done : Arguments)

def Step.ofOption : Option Arguments → Step
  | none => stop .unfit
  | some done => next done

def long (s : Synopsis) (name : String) (value : Option String) (done : Arguments) : Step :=
  match s.switches.find? (·.name == name), value with
  | none, some _ => .stop .unfit
  | none, none =>
    if name == "help" then .stop .help
    else if name == "version" then .stop .version
    else .stop .unfit
  | some w, none => if w.accepts.isSome then .awaits w done else .ofOption (put? w "" done)
  | some w, some v => if w.accepts.isSome then .ofOption (put? w v done) else .stop .unfit

/-- Options by their letters. What follows a letter is the value, if the option has one. -/
def letters (s : Synopsis) (done : Arguments) : List Char → Step
  | [] => .next done
  | c :: rest =>
    match s.switches.find? (·.letter == some c) with
    | none =>
      if c = 'h' then .stop .help else if c = 'V' then .stop .version else .stop .unfit
    | some w =>
      if w.accepts.isSome then
        match rest with
        | [] => .awaits w done
        | '=' :: value => .ofOption (put? w (String.ofList value) done)
        | value => .ofOption (put? w (String.ofList value) done)
      else
        match put? w "" done with
        | none => .stop .unfit
        | some done => letters s done rest

def step (s : Synopsis) (arg : String) (done : Arguments) : Step :=
  match arg.toList with
  | '-' :: '-' :: body =>
    let name := String.ofList (body.takeWhile (· != '='))
    let value :=
      match body.dropWhile (· != '=') with
      | [] => none
      | _ :: value => some (String.ofList value)
    s.long name value done
  | '-' :: c :: rest => s.letters done (c :: rest)
  | _ => .ofOption (s.operand? arg done)

def isSwitch (arg : String) : Bool :=
  match arg.toList with
  | '-' :: _ :: _ => true
  | _ => false

def rest (s : Synopsis) (done : Arguments) : List String → Demand
  | [] => .run done
  | arg :: args =>
    match s.operand? arg done with
    | none => .unfit
    | some done => rest s done args

/-- All arguments after those that are done. Two dashes end the options. -/
def go (s : Synopsis) (done : Arguments) : List String → Demand
  | [] => .run done
  | arg :: args =>
    if arg == "--" then s.rest done args
    else
      match s.step arg done with
      | .stop d => d
      | .next done => go s done args
      | .awaits w done =>
        match args with
        | [] => .unfit
        | value :: args =>
          if isSwitch value then .unfit
          else
            match put? w value done with
            | none => .unfit
            | some done => go s done args

def read (s : Synopsis) (args : List String) : Demand := s.go {} args

end Synopsis
end PushRelay
