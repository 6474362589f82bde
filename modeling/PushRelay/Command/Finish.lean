import PushRelay.Text.Decimal

/-! How a command ends: a status, and what it leaves on its two outputs. -/
namespace PushRelay

structure Finish where
  status : Nat := 0
  out : String := ""
  err : String := ""
  deriving DecidableEq, Repr

namespace Finish

def cause (margin : String) (s : String) : String :=
  String.ofList (s.toList.flatMap fun c => if c = '\n' then '\n' :: margin.toList else [c])

def numbered (i : Nat) (s : String) : String :=
  let number := Decimal.text i
  let indent := String.ofList (List.replicate (5 - number.length) ' ')
  indent ++ number ++ ": " ++ cause "       " s ++ "\n"

/-- What failed and why, each cause with its own cause after it. -/
def report (context : String) (causes : List String) : String :=
  "Error: " ++ context ++ "\n" ++
    match causes with
    | [] => ""
    | [s] => "\nCaused by:\n    " ++ cause "    " s ++ "\n"
    | causes => "\nCaused by:\n" ++ String.join (causes.zipIdx.map fun (s, i) => numbered i s)

def failedAfter (out context : String) (causes : List String) : Finish :=
  ⟨1, out, report context causes⟩

def failed (context : String) (causes : List String) : Finish := failedAfter "" context causes

def unfit (usage : String) : Finish :=
  ⟨2, "", "error: the arguments do not fit\n\nUsage: " ++ usage ++
    "\n\nFor more information, try '--help'.\n"⟩

end Finish
end PushRelay
