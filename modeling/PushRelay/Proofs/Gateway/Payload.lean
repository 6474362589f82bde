import PushRelay.Gateway.Payload
import PushRelay.Proofs.Json.Path

/-! The payload for APNs read back: which fields of a notification it shows, that it shows nothing
else, and that extensions stand beside them. Two notifications have the same payload just if they
agree on what is shown. -/
namespace PushRelay

def Content.lastValue? (c : Content) (key : String) : Option String :=
  (c.extensions.reverse.find? (·.key == key)).map (·.value)

namespace Payload
open Json (drafted? last? last?_append)

def text? (s : String) : Option Json := if s = "" then none else some (.str s)

def one? (b : Bool) : Option Json := if b then some (.int 1) else none

/-- A badge is shown with zero for a negative number. -/
def badge? (badge : Option Int64) : Option Json := (badge.map fun n => max n.toInt 0).map .int

def members (extensions : List Extension) : List (String × Json) :=
  extensions.map fun e => (e.key, .str e.value)

section last
variable {name k s : String} {b : Bool} {v : Option Json}

theorem last?_toList : last? (v.toList.map (name, ·)) k = if k = name then v else none := by
  cases v with
  | none => exact (ite_self none).symm
  | some v => exact Json.lookup_member (name, v)

theorem mem_toList {m : String × Json} :
    m ∈ v.toList.map (name, ·) ↔ m.1 = name ∧ v = some m.2 := by
  rw [List.mem_map]
  constructor
  · rintro ⟨w, hw, rfl⟩
    exact ⟨rfl, Option.mem_toList.mp hw⟩
  · rintro ⟨rfl, hv⟩
    exact ⟨m.2, Option.mem_toList.mpr hv, rfl⟩

theorem filled_eq : filled name s = (text? s).toList.map (name, ·) := by
  rw [filled, text?]
  by_cases h : s = "" <;> simp [h]

theorem flag_eq : flag name b = (one? b).toList.map (name, ·) := by
  cases b <;> rfl

@[simp] theorem last?_filled : last? (filled name s) k = if k = name then text? s else none := by
  rw [filled_eq, last?_toList]

@[simp] theorem last?_flag : last? (flag name b) k = if k = name then one? b else none := by
  rw [flag_eq, last?_toList]

theorem last?_members (es : List Extension) :
    last? (members es) k = (es.reverse.find? (·.key == k)).map fun e => .str e.value := by
  rw [last?, members, ← List.map_reverse]
  induction es.reverse with
  | nil => rfl
  | cons e es ih =>
    rw [List.map_cons, Json.lookup_member, ih, List.find?_cons]
    by_cases h : k = e.key
    · rw [if_pos h, h, beq_self_eq_true, Option.map_some]
    · rw [if_neg h, beq_false_of_ne (Ne.symm h)]

end last

section kept
variable {room : Nat} {v : Json}

theorem isKept_text? {s : String} (h : text? s = some v) : v.draft.isKept room = true := by
  rw [text?] at h
  split at h
  · cases h
  · cases h
    exact Draft.isKept_str s

theorem isKept_one? {b : Bool} (h : one? b = some v) : v.draft.isKept room = true := by
  cases b with
  | false => cases h
  | true =>
    cases h
    exact Draft.isKept_int (by decide)

theorem isKept_badge? {n : Option Int64} (h : badge? n = some v) : v.draft.isKept room = true := by
  obtain ⟨_, hn, rfl⟩ := Option.map_eq_some_iff.mp h
  obtain ⟨n, -, rfl⟩ := Option.map_eq_some_iff.mp hn
  have hlt := n.toInt_lt
  exact Draft.isKept_int (by omega)

end kept

/-! ## What APNs is shown -/

def apsNames : List String :=
  ["alert", "badge", "sound", "category", "content-available", "mutable-content"]

def alertNames : List String := ["title", "subtitle", "body"]

/-- What a payload for APNs shows of a notification. -/
structure Shows (c : Content) (d : Draft) : Prop where
  kept : d.isKept 127 = true
  names : ∃ names, d.names? = some names ∧ names.Nodup ∧
    ∀ k, k ∈ names ↔ k = "aps" ∨ k ∈ c.extensions.map (·.key)
  extension : ∀ k, k ≠ "aps" → d.at? [k] = (c.lastValue? k).map fun s => (Json.str s).draft
  aps : ∃ aps, d.at? ["aps"] = some aps ∧ aps.IsObjectOf apsNames
  alert : ∀ alert, d.at? ["aps", "alert"] = some alert → alert.IsObjectOf alertNames
  noAlert : d.at? ["aps", "alert"] = none ↔ c.title = "" ∧ c.subtitle = "" ∧ c.message = ""
  title : d.at? ["aps", "alert", "title"] = (text? c.title).map Json.draft
  subtitle : d.at? ["aps", "alert", "subtitle"] = (text? c.subtitle).map Json.draft
  message : d.at? ["aps", "alert", "body"] = (text? c.message).map Json.draft
  badge : d.at? ["aps", "badge"] = (badge? c.badge).map Json.draft
  sound : d.at? ["aps", "sound"] = (text? c.sound).map Json.draft
  category : d.at? ["aps", "category"] = (text? c.category).map Json.draft
  contentAvailable :
    d.at? ["aps", "content-available"] = (one? c.contentAvailable).map Json.draft
  mutableContent : d.at? ["aps", "mutable-content"] = (one? c.mutableContent).map Json.draft

def alert? (c : Content) : Option Json :=
  if c.title = "" ∧ c.subtitle = "" ∧ c.message = "" then none else some (.sorted (alert c))

theorem alert_isEmpty (c : Content) :
    (alert c).isEmpty = true ↔ c.title = "" ∧ c.subtitle = "" ∧ c.message = "" := by
  simp [alert, filled]

theorem aps_eq (c : Content) :
    aps c = (alert? c).toList.map ("alert", ·) ++ (badge? c.badge).toList.map ("badge", ·) ++
      filled "sound" c.sound ++ filled "category" c.category ++
      flag "content-available" c.contentAvailable ++ flag "mutable-content" c.mutableContent := by
  have halert : (if (alert c).isEmpty then [] else [("alert", Json.sorted (alert c))]) =
      (alert? c).toList.map ("alert", ·) := by
    simp only [alert_isEmpty, alert?]
    split <;> rfl
  rw [aps, halert]
  cases c.badge <;> rfl

def apnsMembers (c : Content) : List (String × Json) :=
  ("aps", .sorted (aps c)) :: members (c.extensions.filter (·.key != "aps"))

theorem find?_filter_key (es : List Extension) (shut k : String) :
    (es.filter (·.key != shut)).reverse.find? (·.key == k) =
      if k = shut then none else es.reverse.find? (·.key == k) := by
  rw [← List.filter_reverse, List.find?_filter]
  by_cases hk : k = shut
  · rw [if_pos hk, List.find?_eq_none]
    intro e _
    simp [hk]
  · rw [if_neg hk]
    congr 1
    funext e
    by_cases he : e.key = k <;> simp [he, hk]

theorem last?_apns (c : Content) (k : String) :
    last? (apnsMembers c) k =
      if k = "aps" then some (.sorted (aps c)) else (c.lastValue? k).map .str := by
  rw [apnsMembers, Json.last?_cons, last?_members, find?_filter_key, Content.lastValue?,
    Option.map_map]
  by_cases hk : k = "aps"
  · rw [if_pos hk, if_pos hk, if_pos hk]
    rfl
  · rw [if_neg hk, if_neg hk, if_neg hk, Option.or_none]
    rfl

theorem mem_alert {c : Content} {m : String × Json} (hm : m ∈ alert c) :
    m.1 ∈ alertNames ∧ m.2.draft.isKept 124 = true := by
  simp only [alert, filled_eq, List.mem_append, mem_toList] at hm
  obtain (⟨hname, hv⟩ | ⟨hname, hv⟩) | ⟨hname, hv⟩ := hm <;>
    exact ⟨by simp [hname, alertNames], isKept_text? hv⟩

theorem isKept_alert? {c : Content} {v : Json} (h : alert? c = some v) :
    v.draft.isKept 125 = true := by
  rw [alert?] at h
  split at h
  · cases h
  · cases h
    exact Json.isKept_sorted fun m hm => (mem_alert hm).2

theorem mem_aps {c : Content} {m : String × Json} (hm : m ∈ aps c) :
    m.1 ∈ apsNames ∧ m.2.draft.isKept 125 = true := by
  simp only [aps_eq, filled_eq, flag_eq, List.mem_append, mem_toList] at hm
  obtain (((((⟨hname, hv⟩ | ⟨hname, hv⟩) | ⟨hname, hv⟩) | ⟨hname, hv⟩) | ⟨hname, hv⟩) |
    ⟨hname, hv⟩) := hm
  · exact ⟨by simp [hname, apsNames], isKept_alert? hv⟩
  · exact ⟨by simp [hname, apsNames], isKept_badge? hv⟩
  · exact ⟨by simp [hname, apsNames], isKept_text? hv⟩
  · exact ⟨by simp [hname, apsNames], isKept_text? hv⟩
  · exact ⟨by simp [hname, apsNames], isKept_one? hv⟩
  · exact ⟨by simp [hname, apsNames], isKept_one? hv⟩

theorem isKept_apnsMembers {c : Content} {m : String × Json} (hm : m ∈ apnsMembers c) :
    m.2.draft.isKept 126 = true := by
  cases List.mem_cons.mp hm with
  | inl hm =>
    subst hm
    exact Json.isKept_sorted fun m hm => (mem_aps hm).2
  | inr hm =>
    obtain ⟨e, -, rfl⟩ := List.mem_map.mp hm
    exact Draft.isKept_str _

theorem mem_names (c : Content) (k : String) :
    k ∈ (apnsMembers c).map Prod.fst ↔ k = "aps" ∨ k ∈ c.extensions.map (·.key) := by
  rw [apnsMembers, List.map_cons, List.mem_cons, members, List.map_map]
  by_cases hk : k = "aps"
  · simp [hk]
  · simp only [hk, false_or, List.mem_map, List.mem_filter, Function.comp_apply]
    constructor
    · rintro ⟨e, ⟨he, -⟩, rfl⟩
      exact ⟨e, he, rfl⟩
    · rintro ⟨e, he, rfl⟩
      exact ⟨e, ⟨he, bne_iff_ne.mpr hk⟩, rfl⟩

/-- What stands in the object that APNs reads does not depend on the extensions. -/
theorem at?_aps (c : Content) (path : List String) :
    (apns c).draft.at? ("aps" :: path) = (Json.sorted (aps c)).draft.at? path := by
  have h : apns c = .sorted (apnsMembers c) := rfl
  rw [h, Json.at?_sorted, last?_apns, if_pos rfl]
  rfl

theorem at?_extension {k : String} (c : Content) (hk : k ≠ "aps") :
    (apns c).draft.at? [k] = (c.lastValue? k).map fun s => (Json.str s).draft := by
  have h : apns c = .sorted (apnsMembers c) := rfl
  rw [h, Json.at?_sorted, last?_apns, if_neg hk, Json.drafted?_nil, Option.map_map]
  rfl

theorem at?_alert (c : Content) (path : List String) :
    (apns c).draft.at? ("aps" :: "alert" :: path) = drafted? path (alert? c) := by
  rw [at?_aps, Json.at?_sorted, aps_eq]
  simp [last?_append, last?_toList]

theorem at?_alertText (c : Content) {name s : String} (hlast : last? (alert c) name = text? s)
    (hempty : c.title = "" ∧ c.subtitle = "" ∧ c.message = "" → s = "") :
    (apns c).draft.at? ["aps", "alert", name] = (text? s).map Json.draft := by
  rw [at?_alert, alert?]
  split
  · next h => rw [text?, if_pos (hempty h)]; rfl
  · rw [drafted?, Option.bind_some, Json.at?_sorted, hlast, Json.drafted?_nil]

theorem at?_member {k : String} {v : Option Json} (c : Content) (h : last? (aps c) k = v) :
    (apns c).draft.at? ["aps", k] = v.map Json.draft := by
  rw [at?_aps, Json.at?_sorted, h, Json.drafted?_nil]

theorem shows_apns (c : Content) : Shows c (apns c).draft where
  kept := Json.isKept_sorted fun _ hm => isKept_apnsMembers hm
  names := ⟨_, Json.names?_obj _, (Json.inOrder_settled _).nodup,
    fun k => Json.mem_settled.trans (mem_names c k)⟩
  extension k hk := at?_extension c hk
  aps := ⟨_, at?_aps c [], Json.isObjectOf_sorted fun m hm => (mem_aps hm).1⟩
  alert d hd := by
    rw [at?_alert, Json.drafted?_nil, alert?] at hd
    split at hd
    · cases hd
    · cases hd
      exact Json.isObjectOf_sorted fun m hm => (mem_alert hm).1
  noAlert := by
    rw [at?_alert, Json.drafted?_nil, alert?]
    simp
  title := at?_alertText c (by simp [alert, last?_append]) fun h => h.1
  subtitle := at?_alertText c (by simp [alert, last?_append]) fun h => h.2.1
  message := at?_alertText c (by simp [alert, last?_append]) fun h => h.2.2
  badge := at?_member c (by simp [aps_eq, last?_append, last?_toList])
  sound := at?_member c (by simp [aps_eq, last?_append, last?_toList])
  category := at?_member c (by simp [aps_eq, last?_append, last?_toList])
  contentAvailable := at?_member c (by simp [aps_eq, last?_append, last?_toList])
  mutableContent := at?_member c (by simp [aps_eq, last?_append, last?_toList])

/-! ## Payloads that are the same -/

/-- Two notifications agree on what a payload for APNs shows. -/
structure Agree (c c' : Content) : Prop where
  title : c.title = c'.title
  subtitle : c.subtitle = c'.subtitle
  message : c.message = c'.message
  badge : c.badge.map (fun n => max n.toInt 0) = c'.badge.map fun n => max n.toInt 0
  sound : c.sound = c'.sound
  category : c.category = c'.category
  contentAvailable : c.contentAvailable = c'.contentAvailable
  mutableContent : c.mutableContent = c'.mutableContent
  extension : ∀ k, k ≠ "aps" → c.lastValue? k = c'.lastValue? k

theorem apns_eq_of_agree {c c' : Content} (h : Agree c c') : apns c = apns c' := by
  have halert : alert c = alert c' := by
    rw [alert, alert, h.title, h.subtitle, h.message]
  have haps : aps c = aps c' := by
    rw [aps_eq, aps_eq, alert?, alert?, badge?, badge?, halert, h.title, h.subtitle, h.message,
      h.badge, h.sound, h.category, h.contentAvailable, h.mutableContent]
  have hlast : ∀ k, last? (apnsMembers c) k = last? (apnsMembers c') k := by
    intro k
    rw [last?_apns, last?_apns, haps]
    split
    · rfl
    · next hk => rw [h.extension k hk]
  exact Json.sorted_congr hlast

section injective

theorem str_injective : Function.Injective fun s => (Json.str s).draft := by
  intro s s' h
  simpa only [Draft.string?_draft, Option.some.injEq] using congrArg Draft.string? h

theorem int_injective : Function.Injective fun n => (Json.int n).draft := by
  intro n n' h
  simpa only [Draft.int?_draft, Option.some.injEq] using congrArg Draft.int? h

theorem text?_inj {s s' : String} (h : (text? s).map Json.draft = (text? s').map Json.draft) :
    s = s' := by
  unfold text? at h
  by_cases hs : s = "" <;> by_cases hs' : s' = ""
  · rw [hs, hs']
  · simp [hs, hs'] at h
  · simp [hs, hs'] at h
  · rw [if_neg hs, if_neg hs'] at h
    exact str_injective (Option.some.inj h)

theorem one?_inj {b b' : Bool} (h : (one? b).map Json.draft = (one? b').map Json.draft) :
    b = b' := by
  cases b <;> cases b' <;> first | rfl | cases h

theorem badge?_inj {n n' : Option Int64}
    (h : (badge? n).map Json.draft = (badge? n').map Json.draft) :
    n.map (fun n => max n.toInt 0) = n'.map fun n => max n.toInt 0 := by
  apply Option.map_injective int_injective
  simpa only [badge?, Option.map_map, Function.comp_def] using h

end injective

theorem agree_of_shows {c c' : Content} {d : Draft} (h : Shows c d) (h' : Shows c' d) :
    Agree c c' where
  title := text?_inj (h.title.symm.trans h'.title)
  subtitle := text?_inj (h.subtitle.symm.trans h'.subtitle)
  message := text?_inj (h.message.symm.trans h'.message)
  badge := badge?_inj (h.badge.symm.trans h'.badge)
  sound := text?_inj (h.sound.symm.trans h'.sound)
  category := text?_inj (h.category.symm.trans h'.category)
  contentAvailable := one?_inj (h.contentAvailable.symm.trans h'.contentAvailable)
  mutableContent := one?_inj (h.mutableContent.symm.trans h'.mutableContent)
  extension k hk := Option.map_injective str_injective
    ((h.extension k hk).symm.trans (h'.extension k hk))

theorem text_eq_iff (c c' : Content) : (apns c).text = (apns c').text ↔ Agree c c' := by
  constructor
  · intro h
    have hdraft : (apns c).draft = (apns c').draft := by
      apply Option.some.inj
      rw [← Draft.ofText?_text, ← Draft.ofText?_text, h]
    exact agree_of_shows (shows_apns c) (hdraft ▸ shows_apns c')
  · intro h
    rw [apns_eq_of_agree h]

end Payload
end PushRelay
