import PushRelay.Json.Basic
import PushRelay.Proofs.Total
import PushRelay.Text.Utf8

/-! How long JSON text is as octets: a list takes up what its items do and a mark for each of them,
and so does an object. -/
namespace PushRelay

def Utf8.size (cs : List Char) : Nat := (Utf8.encode cs).length

namespace Utf8

theorem size_cons (c : Char) (cs : List Char) : size (c :: cs) = c.utf8Size + size cs := by
  rw [size, encode, List.flatMap_cons, List.length_append, String.length_utf8EncodeChar]
  rfl

theorem size_append (cs ds : List Char) : size (cs ++ ds) = size cs + size ds := by
  rw [size, encode, List.flatMap_append, List.length_append]
  rfl

theorem size_replicate (n : Nat) (c : Char) : size (List.replicate n c) = n * c.utf8Size := by
  induction n with
  | zero => simp [size, encode]
  | succ n ih =>
    rw [List.replicate_succ, size_cons, ih, Nat.succ_mul, Nat.add_comm]

end Utf8

namespace Json
open Utf8 (size_cons size_append)

def size (v : Json) : Nat := Utf8.size v.chars

theorem size_comma (cs : List Char) : Utf8.size (',' :: cs) = 1 + Utf8.size cs := size_cons _ _
theorem size_colon (cs : List Char) : Utf8.size (':' :: cs) = 1 + Utf8.size cs := size_cons _ _

/-- A member with the colon in it and the mark after it. -/
def memberSize (m : String × Json) : Nat := Utf8.size (quote m.1.toList) + m.2.size + 2

theorem size_itemsChars (v : Json) (vs : List Json) :
    Utf8.size (itemsChars (v :: vs)) + 1 = total (fun w => w.size + 1) (v :: vs) := by
  induction vs generalizing v with
  | nil => rfl
  | cons w vs ih =>
    rw [itemsChars, size_append, size_comma, total_cons, ← ih w, Json.size]
    omega

theorem size_membersChars (m : String × Json) (ms : List (String × Json)) :
    Utf8.size (membersChars (m :: ms)) + 1 = total memberSize (m :: ms) := by
  induction ms generalizing m with
  | nil =>
    rw [membersChars, size_append, size_colon, total_cons, total_nil, memberSize, Json.size]
    omega
  | cons n ms ih =>
    rw [membersChars, size_append, size_colon, size_append, size_comma, total_cons, ← ih n,
      memberSize, Json.size]
    omega

theorem size_arr (v : Json) (vs : List Json) :
    (arr (v :: vs)).size = 1 + total (fun w => w.size + 1) (v :: vs) := by
  rw [Json.size, chars, size_cons, size_append, ← size_itemsChars]
  rfl

theorem size_obj (m : String × Json) (ms : List (String × Json)) :
    (obj (m :: ms)).size = 1 + total memberSize (m :: ms) := by
  rw [Json.size, chars, size_cons, size_append, ← size_membersChars]
  rfl

theorem size_str {s : String} (h : ∀ c ∈ s.toList, escape c = [c]) :
    (str s).size = Utf8.size s.toList + 2 := by
  have hescape : ∀ cs : List Char, (∀ c ∈ cs, escape c = [c]) → cs.flatMap escape = cs := by
    intro cs hcs
    induction cs with
    | nil => rfl
    | cons c cs ih =>
      rw [List.flatMap_cons, hcs c List.mem_cons_self,
        ih fun d hd => hcs d (List.mem_cons_of_mem c hd)]
      rfl
  have hquote : '"'.utf8Size = 1 := rfl
  have hend : Utf8.size ['"'] = 1 := rfl
  rw [Json.size, chars, quote, hescape _ h, size_cons, size_append, hquote, hend]
  omega

theorem size_quote_replicate (n : Nat) (c : Char) :
    Utf8.size (quote (List.replicate n c)) = n * Utf8.size (escape c) + 2 := by
  have hflat : Utf8.size ((List.replicate n c).flatMap escape) = n * Utf8.size (escape c) := by
    induction n with
    | zero => simp [Utf8.size, Utf8.encode]
    | succ n ih => rw [List.replicate_succ, List.flatMap_cons, size_append, ih, Nat.succ_mul,
        Nat.add_comm]
  have hquote : '"'.utf8Size = 1 := rfl
  have hend : Utf8.size ['"'] = 1 := rfl
  rw [quote, size_cons, size_append, hflat, hquote, hend]
  omega

theorem le_size_obj (k : String) (v : Json) : v.size ≤ (obj [(k, v)]).size := by
  rw [size_obj, total_cons, memberSize]
  dsimp only
  omega

end Json
end PushRelay
