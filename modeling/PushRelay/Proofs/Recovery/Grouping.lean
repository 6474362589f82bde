import Mathlib.Data.List.Nodup
import PushRelay.Proofs.Recovery.Reading
import PushRelay.Proofs.Recovery.Resubmission

/-! Grouping, said at once: a notification for each content, in the order in which the contents
first appear, with all the tokens that ask for it in their order; then cut into full batches. -/
namespace PushRelay.Recovery

section firsts
variable {α : Type} [DecidableEq α]

theorem eraseDups_concat (as : List α) (a : α) :
    (as ++ [a]).eraseDups = as.eraseDups ++ if a ∈ as then [] else [a] := by
  rw [List.eraseDups_append]
  by_cases h : a ∈ as
  · simp [List.removeAll, h]
  · simp [List.removeAll, h, List.eraseDups_cons]

theorem nodup_eraseDups (as : List α) : as.eraseDups.Nodup := by
  induction as using List.reverseRecOn with
  | nil => exact List.nodup_nil
  | append_singleton as a ih =>
    rw [eraseDups_concat]
    by_cases h : a ∈ as
    · rwa [if_pos h, List.append_nil]
    · rw [if_neg h, List.nodup_append]
      refine ⟨ih, List.nodup_singleton a, fun b hb c hc => ?_⟩
      rintro rfl
      exact h (List.mem_singleton.mp hc ▸ List.mem_eraseDups.mp hb)

end firsts

/-- The notification of a content: the tokens that ask for it, in their order. -/
def gather (as : List (String × Content)) (c : Content) : Notification :=
  ⟨(as.filter (·.2 = c)).map Prod.fst, c⟩

def gathered (as : List (String × Content)) : List Notification :=
  (as.map Prod.snd).eraseDups.map (gather as)

section gather
variable {as : List (String × Content)} {t : String} {c : Content} {cs : List Content}

@[simp] theorem content_gather : (gather as c).content = c := rfl

theorem gather_concat_self :
    gather (as ++ [(t, c)]) c = ⟨(gather as c).tokens ++ [t], c⟩ := by
  simp [gather]

theorem gather_concat_ne {d : Content} (h : c ≠ d) :
    gather (as ++ [(t, c)]) d = gather as d := by
  simp [gather, h]

theorem addToken_gather (hd : cs.Nodup) (hc : c ∈ cs) :
    addToken c t (cs.map (gather as)) = cs.map (gather (as ++ [(t, c)])) := by
  induction cs with
  | nil => cases hc
  | cons d cs ih =>
    obtain ⟨hnew, hd⟩ := List.nodup_cons.mp hd
    rw [List.map_cons, addToken, List.map_cons, content_gather]
    by_cases h : d = c
    · subst h
      rw [if_pos rfl, gather_concat_self]
      refine congrArg _ (List.map_congr_left fun e he => ?_)
      refine (gather_concat_ne ?_).symm
      rintro rfl
      exact hnew he
    · have hmem : c ∈ cs := (List.mem_cons.mp hc).resolve_left (Ne.symm h)
      rw [if_neg h, gather_concat_ne (Ne.symm h), ih hd hmem]

theorem addToken_gather_new (hc : c ∉ cs) :
    addToken c t (cs.map (gather as)) = cs.map (gather as) ++ [⟨[t], c⟩] := by
  induction cs with
  | nil => rfl
  | cons d cs ih =>
    have hne : d ≠ c := fun h => hc (h ▸ List.mem_cons_self)
    rw [List.map_cons, addToken, content_gather, if_neg hne,
      ih fun h => hc (List.mem_cons_of_mem d h), List.cons_append]

theorem addToken_gathered : addToken c t (gathered as) = gathered (as ++ [(t, c)]) := by
  have hsnd : (as ++ [(t, c)]).map Prod.snd = as.map Prod.snd ++ [c] := List.map_append
  rw [gathered, gathered, hsnd, eraseDups_concat]
  by_cases hc : c ∈ as.map Prod.snd
  · rw [if_pos hc, List.append_nil]
    exact addToken_gather (nodup_eraseDups _) (List.mem_eraseDups.mpr hc)
  · have hnone : as.filter (·.2 = c) = [] := by
      rw [List.filter_eq_nil_iff]
      intro a ha hac
      exact hc (List.mem_map.mpr ⟨a, ha, of_decide_eq_true hac⟩)
    have hold : (as.map Prod.snd).eraseDups.map (gather (as ++ [(t, c)])) =
        (as.map Prod.snd).eraseDups.map (gather as) := by
      refine List.map_congr_left fun d hd => gather_concat_ne ?_
      rintro rfl
      exact hc (List.mem_eraseDups.mp hd)
    have hlast : gather (as ++ [(t, c)]) c = ⟨[t], c⟩ := by
      rw [gather_concat_self, gather, hnone]
      rfl
    rw [if_neg hc, List.map_append, hold, List.map_singleton, hlast]
    exact addToken_gather_new fun h => hc (List.mem_eraseDups.mp h)

theorem grouped_eq (entries : List Entry) : grouped entries = gathered (asks entries) := by
  rw [grouped_eq_foldl]
  induction asks entries using List.reverseRecOn with
  | nil => rfl
  | append_singleton as a ih =>
    rw [List.foldl_append, ih, List.foldl_cons, List.foldl_nil]
    exact addToken_gathered

theorem contents_gathered (as : List (String × Content)) :
    (gathered as).map (·.content) = (as.map Prod.snd).eraseDups := by
  rw [gathered, List.map_map]
  exact List.map_id _

end gather

theorem length_pieces_dropLast {α : Type} (size : Nat) (xs : List α) :
    ∀ ys ∈ (pieces size xs).dropLast, ys.length = max size 1 := by
  induction xs using pieces.induct size with
  | case1 =>
    intro ys hys
    rw [pieces] at hys
    cases hys
  | case2 x rest ih =>
    intro ys hys
    rw [pieces] at hys
    cases hrest : rest.drop (size - 1) with
    | nil =>
      rw [hrest, pieces] at hys
      cases hys
    | cons y more =>
      have hne : pieces size (rest.drop (size - 1)) ≠ [] := by
        rw [hrest, pieces]
        exact List.cons_ne_nil _ _
      rw [List.dropLast_cons_of_ne_nil hne] at hys
      rcases List.mem_cons.mp hys with rfl | hys
      · have hlen := congrArg List.length hrest
        rw [List.length_drop, List.length_cons] at hlen
        rw [List.length_cons, List.length_take]
        omega
      · exact ih ys hys

/-- The content of an entry that was read has the code of its platform. -/
theorem Entry.content_platform {line : String} {e : Entry} {p : Platform}
    (h : ofLine? line = some e) (hp : e.platform = some p) : e.content.platform = p.code := by
  obtain ⟨-, -, -, -, hc⟩ := fields_of_line h
  rw [hc, hp]
  rfl

/-- Batches ask for each push of an entry with a known platform once, and for nothing else. No two
notifications have the same content. They stand in the order in which their contents first appear,
each with at least one token and all its tokens in their order. Every batch but the last is full,
and none is empty. -/
theorem batches_group (batchMax : Nat) (entries : List Entry) :
    let bs := batches batchMax entries
    let ns := bs.flatMap Batch.notifications
    (∀ line e p, Entry.ofLine? line = some e → e.platform = some p →
      e.content.platform = p.code) ∧
    (ns.flatMap Notification.asks).Perm (asks entries) ∧
    (ns.map (·.content)).Nodup ∧
    ns.map (·.content) = ((asks entries).map Prod.snd).eraseDups ∧
    (∀ n ∈ ns, n.tokens = ((asks entries).filter (·.2 = n.content)).map Prod.fst ∧
      n.tokens ≠ []) ∧
    (∀ b ∈ bs, b.notifications ≠ [] ∧ b.notifications.length ≤ max batchMax 1) ∧
    ∀ b ∈ bs.dropLast, b.notifications.length = max batchMax 1 := by
  intro bs ns
  have hns : ns = grouped entries := notifications_batches batchMax entries
  have hcontents : ns.map (·.content) = ((asks entries).map Prod.snd).eraseDups := by
    rw [hns, grouped_eq, contents_gathered]
  refine ⟨fun _ _ _ => Entry.content_platform, ?_, ?_, hcontents, fun n hn => ⟨?_, ?_⟩, ?_, ?_⟩
  · rw [hns]
    exact grouped_asks_perm entries
  · rw [hcontents]
    exact nodup_eraseDups _
  · rw [hns, grouped_eq] at hn
    obtain ⟨c, -, rfl⟩ := List.mem_map.mp hn
    rfl
  · rw [hns] at hn
    exact tokens_grouped entries n hn
  · intro b hb
    obtain ⟨ns, hns, rfl⟩ := List.mem_map.mp hb
    exact length_pieces batchMax _ ns hns
  · intro b hb
    have hlast : bs.dropLast = (pieces batchMax (grouped entries)).dropLast.map Batch.mk :=
      List.map_dropLast.symm
    rw [hlast] at hb
    obtain ⟨ns, hns, rfl⟩ := List.mem_map.mp hb
    exact length_pieces_dropLast batchMax _ ns hns

example :
    let entry (platform : Option Platform) (token message : String) : Entry :=
      { platform, token, content := { message } }
    batches 0 [entry (some .ios) "a" "m", entry (some .ios) "b" "n", entry none "c" "m",
        entry (some .ios) "a" "m"] =
      [⟨[⟨["a", "a"], { message := "m" }⟩]⟩, ⟨[⟨["b"], { message := "n" }⟩]⟩] := by cbv

end PushRelay.Recovery
