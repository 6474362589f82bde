import PushRelay.Notification.Wire
import PushRelay.Proofs.Json.Record

/-! Contents, notifications and batches are read back from their text as they were. -/
namespace PushRelay
open Draft

theorem Extension.ofDraft?_toJson (e : Extension) : Extension.ofDraft? e.toJson.draft = some e := by
  have hd : ([("key", Json.str e.key), ("val", .str e.value)].map Prod.fst).Nodup := by simp
  have hk : (Json.fields [("key", .str e.key), ("val", .str e.value)]).require? "key" string? =
      some e.key := by
    rw [require?_fields hd (v := .str e.key) (by simp), string?_draft]
  have hv : (Json.fields [("key", .str e.key), ("val", .str e.value)]).require? "val" string? =
      some e.value := by
    rw [require?_fields hd (v := .str e.value) (by simp), string?_draft]
  simp only [Extension.ofDraft?, Extension.toJson, fields?_draft hd, Option.bind_eq_bind,
    Option.bind_some, hk, hv]
  rfl

namespace Content
variable (c : Content)

theorem extensions_draft :
    list? Extension.ofDraft? (Json.arr (c.extensions.map Extension.toJson)).draft =
      some c.extensions := by
  rw [list?_draft]
  exact mapM_some (g := Extension.toJson) Extension.ofDraft?_toJson c.extensions

theorem names_members : c.members.map Prod.fst =
    ["platform", "message", "title", "subtitle", "body"] ++
      (if c.badge.isSome then ["badge"] else []) ++
      ["category", "sound", "content_available", "mutable_content", "expiry", "collapse_key",
        "delay_while_idle", "time_to_live", "identifier", "extend"] ++
      (if c.pushType.isSome then ["push_type"] else []) := by
  unfold members
  cases c.badge <;> cases c.pushType <;> rfl

variable {c}

/-- A content is found among other members as long as no name stands twice. -/
theorem ofFields?_members {ms : List (String × Json)} (hd : (ms.map Prod.fst).Nodup)
    (hm : ∀ m ∈ c.members, m ∈ ms) (hb : c.badge = none → "badge" ∉ ms.map Prod.fst)
    (hp : c.pushType = none → "push_type" ∉ ms.map Prod.fst) :
    Content.ofFields? (Json.fields ms) = some c := by
  have hstr (name s : String) (h : (name, Json.str s) ∈ c.members) :
      (Json.fields ms).get? name string? "" = some s := get?_str hd (hm _ h)
  have hint (name : String) (n : Int64) (h : (name, Json.int n.toInt) ∈ c.members) :
      (Json.fields ms).get? name int64? 0 = some n := get?_int64 hd (hm _ h)
  have hbool (name : String) (b : Bool) (h : (name, Json.bool b) ∈ c.members) :
      (Json.fields ms).get? name bool? false = some b := get?_bool hd (hm _ h)
  have httl : (Json.fields ms).get? "time_to_live" uint32? 0 = some c.timeToLive :=
    get?_uint32 hd (hm _ (by simp [members]))
  have hext : (Json.fields ms).get? "extend" (list? Extension.ofDraft?) [] = some c.extensions := by
    rw [get?_fields hd (hm ("extend", .arr (c.extensions.map Extension.toJson))
      (by simp [members])), extensions_draft]
  have hbadge : (Json.fields ms).get? "badge" (option? int64?) none = some c.badge := by
    refine get?_optional hd option?_int64 (fun n h => hm _ ?_) hb
    simp [members, optional, h]
  have hpush : (Json.fields ms).get? "push_type" (option? string?) none = some c.pushType := by
    refine get?_optional hd option?_str (fun s h => hm _ ?_) hp
    simp [members, optional, h]
  have hplatform := hint "platform" c.platform (by simp [members])
  have hmessage := hstr "message" c.message (by simp [members])
  have htitle := hstr "title" c.title (by simp [members])
  have hsubtitle := hstr "subtitle" c.subtitle (by simp [members])
  have hbody := hstr "body" c.body (by simp [members])
  have hcategory := hstr "category" c.category (by simp [members])
  have hsound := hstr "sound" c.sound (by simp [members])
  have havailable := hbool "content_available" c.contentAvailable (by simp [members])
  have hmutable := hbool "mutable_content" c.mutableContent (by simp [members])
  have hexpiry := hint "expiry" c.expiry (by simp [members])
  have hcollapse := hstr "collapse_key" c.collapseKey (by simp [members])
  have hidle := hbool "delay_while_idle" c.delayWhileIdle (by simp [members])
  have hid := hstr "identifier" c.identifier (by simp [members])
  simp only [Content.ofFields?, hplatform, hmessage, htitle, hsubtitle, hbody, hbadge, hcategory,
    hsound, havailable, hmutable, hexpiry, hcollapse, hidle, httl, hid, hext, hpush,
    Option.bind_eq_bind, Option.bind_some]
  rfl

theorem isKept_members {room : Nat} {m : String × Json} (h : m ∈ c.members) :
    m.2.draft.isKept (room + 2) = true := by
  have hext : (Json.arr (c.extensions.map Extension.toJson)).draft.isKept (room + 2) = true := by
    refine isKept_arr fun v hv => ?_
    obtain ⟨e, -, rfl⟩ := List.mem_map.mp hv
    refine isKept_obj fun m hm => ?_
    simp only [List.mem_cons, List.not_mem_nil, or_false] at hm
    rcases hm with rfl | rfl
    · exact isKept_str e.key
    · exact isKept_str e.value
  have hopt {name : String} {v : Option Json} (hm : m ∈ optional name v)
      (hv : ∀ w, v = some w → w.draft.isKept (room + 2) = true) :
      m.2.draft.isKept (room + 2) = true := by
    cases v with
    | none => cases hm
    | some w =>
      rw [List.mem_singleton.mp hm]
      exact hv w rfl
  simp only [members, List.mem_append, List.mem_cons, List.not_mem_nil, or_false] at h
  rcases h with (((rfl | rfl | rfl | rfl | rfl) | h) | rfl | rfl | rfl | rfl | rfl | rfl | rfl |
    rfl | rfl | rfl) | h
  case inl.inl.inr =>
    refine hopt h fun w hw => ?_
    obtain ⟨n, -, rfl⟩ := Option.map_eq_some_iff.mp hw
    exact isKept_int64 n
  case inr =>
    refine hopt h fun w hw => ?_
    obtain ⟨s, -, rfl⟩ := Option.map_eq_some_iff.mp hw
    exact isKept_str s
  all_goals first
    | exact isKept_str _
    | exact isKept_int64 _
    | exact isKept_bool _
    | exact isKept_uint32 _
    | exact hext

end Content

namespace Notification
variable (n : Notification)

theorem nodup_names :
    ((("token", .arr (n.tokens.map .str)) :: n.content.members).map Prod.fst).Nodup := by
  rw [List.map_cons, Content.names_members]
  show ("token" :: _).Nodup
  cases n.content.badge.isSome <;> cases n.content.pushType.isSome <;> decide

theorem ofDraft?_toJson (room : Nat) :
    Notification.ofDraft? (room + 2) n.toJson.draft = some n := by
  have hd := n.nodup_names
  have hkept : ((Json.fields (("token", .arr (n.tokens.map .str)) :: n.content.members)).all
      fun m => m.1 == "token" || m.2.isKept (room + 2)) = true := by
    rw [List.all_eq_true]
    intro f hf
    obtain ⟨m, hm, rfl⟩ := List.mem_map.mp hf
    rcases List.mem_cons.mp hm with rfl | hm
    · rfl
    · rw [Content.isKept_members hm, Bool.or_true]
  have htoken : (Json.fields (("token", .arr (n.tokens.map .str)) :: n.content.members)).get?
      "token" (list? string?) [] = some n.tokens := by
    rw [get?_fields hd List.mem_cons_self, list?_draft]
    exact mapM_some (g := Json.str) string?_draft n.tokens
  have hcontent : Content.ofFields? (Json.fields
      (("token", .arr (n.tokens.map .str)) :: n.content.members)) = some n.content := by
    refine Content.ofFields?_members hd (fun m hm => List.mem_cons_of_mem _ hm) ?_ ?_
    · intro hb
      simp [Content.names_members, hb]
    · intro hp
      simp [Content.names_members, hp]
  simp only [Notification.ofDraft?, Notification.toJson, members?_draft hd, Option.bind_eq_bind,
    Option.bind_some, hkept, htoken, hcontent]
  rfl

end Notification

namespace Batch
variable (b : Batch)

theorem ofDraft?_toJson : Batch.ofDraft? b.toJson.draft = some b := by
  have hd : ([("notifications", Json.arr (b.notifications.map (·.toJson)))].map
      Prod.fst).Nodup := by
    simp
  have hn : (Json.fields [("notifications", .arr (b.notifications.map (·.toJson)))]).get?
      "notifications" (list? (Notification.ofDraft? 124)) [] = some b.notifications := by
    rw [get?_fields hd List.mem_cons_self, list?_draft]
    exact mapM_some (g := Notification.toJson) (fun n => n.ofDraft?_toJson 122) b.notifications
  simp only [Batch.ofDraft?, Batch.toJson, fields?_draft hd, Option.bind_eq_bind, Option.bind_some,
    hn]
  rfl

theorem ofOctets?_text : Batch.ofOctets? (Utf8.encode b.text.toList) = some b := by
  rw [Batch.ofOctets?, Batch.text, Draft.ofOctets?_text, Option.bind_some, ofDraft?_toJson]

theorem mapM_ofOctets?_text (bs : List Batch) :
    bs.mapM (fun b => Batch.ofOctets? (Utf8.encode b.text.toList)) = some bs := by
  have h : (bs.map id).mapM some = some bs := mapM_some (fun _ => rfl) bs
  simp only [Batch.ofOctets?_text]
  rwa [List.map_id] at h

theorem ofText?_text : (Draft.ofText? b.text).bind Batch.ofDraft? = some b := by
  rw [Batch.text, Draft.ofText?_text, Option.bind_some, ofDraft?_toJson]

/-- Printing loses nothing, and reading settles after one round: however a batch was laid out when
it came, its own text is read as that batch again, as octets and as a text. -/
theorem read_print_read :
    (∀ b : Batch, Batch.ofOctets? (Utf8.encode b.text.toList) = some b ∧
      (Draft.ofText? b.text).bind Batch.ofDraft? = some b) ∧
    (∀ body : Octets, ((Batch.ofOctets? body).bind fun b =>
      Batch.ofOctets? (Utf8.encode b.text.toList)) = Batch.ofOctets? body) ∧
    ∀ text : String, (((Draft.ofText? text).bind Batch.ofDraft?).bind fun b =>
      (Draft.ofText? b.text).bind Batch.ofDraft?) = (Draft.ofText? text).bind Batch.ofDraft? := by
  refine ⟨fun b => ⟨b.ofOctets?_text, b.ofText?_text⟩, fun body => ?_, fun text => ?_⟩
  · cases h : Batch.ofOctets? body with
    | none => rfl
    | some b => exact b.ofOctets?_text
  · cases h : (Draft.ofText? text).bind Batch.ofDraft? with
    | none => rfl
    | some b => exact b.ofText?_text

/-- A batch may come as a list of its fields. -/
example : Batch.ofOctets? (Utf8.encode "[ [] ]".toList) = some ⟨[]⟩ := by decide

end Batch
end PushRelay
