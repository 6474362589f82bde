import Mathlib.Data.List.Basic
import Mathlib.Data.List.Induction
import PushRelay.Recovery.Resubmission

/-! Batches ask for each undelivered push once: grouping by content and cutting into batches loses
and adds nothing. -/
namespace PushRelay

/-- What a notification asks for, token by token. -/
def Notification.asks (n : Notification) : List (String × Content) := n.tokens.map (·, n.content)

namespace Recovery

def Entry.ask (e : Entry) : String × Content := (e.token, e.content)

def asks (entries : List Entry) : List (String × Content) :=
  entries.filterMap fun e => e.platform.map fun _ => e.ask

section grouping
variable {c : Content} {t : String} {ns : List Notification} {entries : List Entry}

theorem addToken_perm (c : Content) (t : String) (ns : List Notification) :
    ((addToken c t ns).flatMap Notification.asks).Perm
      (ns.flatMap Notification.asks ++ [(t, c)]) := by
  induction ns with
  | nil => exact .rfl
  | cons n ns ih =>
    rw [addToken]
    by_cases hc : n.content = c
    · subst hc
      rw [if_pos rfl]
      have hn : ({ n with tokens := n.tokens ++ [t] } : Notification).asks =
          n.asks ++ [(t, n.content)] := List.map_append
      rw [List.flatMap_cons, hn, List.flatMap_cons, List.append_assoc, List.append_assoc]
      exact List.perm_append_comm.append_left n.asks
    · rw [if_neg hc, List.flatMap_cons, List.flatMap_cons, List.append_assoc]
      exact ih.append_left n.asks

theorem asks_concat (entries : List Entry) (e : Entry) :
    asks (entries ++ [e]) = asks entries ++ asks [e] := List.filterMap_append

theorem asks_known (h : ∀ e ∈ entries, e.platform.isSome) :
    asks entries = entries.map Entry.ask := by
  refine List.filterMap_eq_map_iff_forall_eq_some.mpr fun e he => ?_
  obtain ⟨p, hp⟩ := Option.isSome_iff_exists.mp (h e he)
  rw [hp, Option.map_some]

/-- An entry of an unknown platform adds nothing, any other its token. -/
theorem addEntry_eq (ns : List Notification) (e : Entry) :
    addEntry ns e = (asks [e]).foldl (fun ns a => addToken a.2 a.1 ns) ns := by
  rw [addEntry, asks]
  cases hp : e.platform with
  | none => simp [hp]
  | some p => simp [hp, Entry.ask]

theorem grouped_eq_foldl (entries : List Entry) :
    grouped entries = (asks entries).foldl (fun ns a => addToken a.2 a.1 ns) [] := by
  rw [grouped]
  induction entries using List.reverseRecOn with
  | nil => rfl
  | append_singleton entries e ih =>
    rw [List.foldl_append, ih, asks_concat, List.foldl_append, List.foldl_cons, List.foldl_nil,
      addEntry_eq]

theorem grouped_asks_perm (entries : List Entry) :
    ((grouped entries).flatMap Notification.asks).Perm (asks entries) := by
  rw [grouped_eq_foldl]
  induction asks entries using List.reverseRecOn with
  | nil => exact .rfl
  | append_singleton as a ih =>
    rw [List.foldl_append, List.foldl_cons, List.foldl_nil]
    exact (addToken_perm _ _ _).trans (ih.append_right _)

theorem grouped_perm (h : ∀ e ∈ entries, e.platform.isSome) :
    ((grouped entries).flatMap Notification.asks).Perm (entries.map Entry.ask) :=
  asks_known h ▸ grouped_asks_perm entries

theorem tokens_addToken (h : ∀ n ∈ ns, n.tokens ≠ []) : ∀ n ∈ addToken c t ns, n.tokens ≠ [] := by
  induction ns with
  | nil =>
    intro n hn
    rw [List.mem_singleton.mp hn]
    exact List.cons_ne_nil t []
  | cons m ns ih =>
    intro n hn
    rw [addToken] at hn
    by_cases hc : m.content = c
    · rw [if_pos hc] at hn
      rcases List.mem_cons.mp hn with rfl | hn
      · simp
      · exact h n (List.mem_cons_of_mem m hn)
    · rw [if_neg hc] at hn
      rcases List.mem_cons.mp hn with rfl | hn
      · exact h n List.mem_cons_self
      · exact ih (fun n hn => h n (List.mem_cons_of_mem m hn)) n hn

theorem tokens_grouped (entries : List Entry) : ∀ n ∈ grouped entries, n.tokens ≠ [] := by
  rw [grouped_eq_foldl]
  induction asks entries using List.reverseRecOn with
  | nil => exact fun n hn => nomatch hn
  | append_singleton as a ih =>
    rw [List.foldl_append, List.foldl_cons, List.foldl_nil]
    exact tokens_addToken ih

end grouping

section pieces
variable {α : Type}

theorem flatten_pieces (size : Nat) (xs : List α) : (pieces size xs).flatten = xs := by
  induction xs using pieces.induct size with
  | case1 => rw [pieces, List.flatten_nil]
  | case2 x rest ih => rw [pieces, List.flatten_cons, ih, List.cons_append, List.take_append_drop]

theorem length_pieces (size : Nat) (xs : List α) :
    ∀ ys ∈ pieces size xs, ys ≠ [] ∧ ys.length ≤ max size 1 := by
  induction xs using pieces.induct size with
  | case1 =>
    intro ys hys
    rw [pieces] at hys
    cases hys
  | case2 x rest ih =>
    intro ys hys
    rw [pieces] at hys
    rcases List.mem_cons.mp hys with rfl | hys
    · have hlen := List.length_take_le (size - 1) rest
      exact ⟨List.cons_ne_nil _ _, by rw [List.length_cons]; omega⟩
    · exact ih ys hys

end pieces

theorem notifications_batches (batchMax : Nat) (entries : List Entry) :
    (batches batchMax entries).flatMap Batch.notifications = grouped entries := by
  rw [batches, List.flatMap_map]
  exact List.flatMap_id.trans (flatten_pieces batchMax (grouped entries))

end Recovery
end PushRelay
