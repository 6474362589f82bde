import PushRelay.Recovery.Findings

/-! Batches that submit undelivered pushes again. Tokens with the same content go into one
notification. -/
namespace PushRelay.Recovery

/-- Adds a token to the notification of its content, or a notification at the end. -/
def addToken (content : Content) (token : String) : List Notification → List Notification
  | [] => [⟨[token], content⟩]
  | n :: rest =>
    if n.content = content then { n with tokens := n.tokens ++ [token] } :: rest
    else n :: addToken content token rest

/-- Adds an entry. One whose platform is not known cannot be submitted. -/
def addEntry (ns : List Notification) (e : Entry) : List Notification :=
  match e.platform with
  | none => ns
  | some _ => addToken e.content e.token ns

def grouped (entries : List Entry) : List Notification := entries.foldl addEntry []

/-- Pieces of `size` items, the last one maybe shorter. A size of 0 counts as 1. -/
def pieces {α : Type} (size : Nat) : List α → List (List α)
  | [] => []
  | x :: rest => (x :: rest.take (size - 1)) :: pieces size (rest.drop (size - 1))
termination_by l => l.length
decreasing_by simp only [List.length_cons, List.length_drop]; omega

def batches (batchMax : Nat) (entries : List Entry) : List Batch :=
  (pieces batchMax (grouped entries)).map Batch.mk

end PushRelay.Recovery
