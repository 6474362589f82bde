import PushRelay.Proofs.Notification.Wire
import PushRelay.Recovery.Entry

/-! A line of the push log is read back as an entry for its event; that of an accepted push has all
its content. -/
namespace PushRelay.Recovery
open Draft

namespace Entry

/-- The entry of an event that is logged with no content but its identifier and message. -/
def brief (status : PushStatus) (seqId : Option UInt64) (platform : Option Platform)
    (token : String) (c : Content) : Entry where
  status := some status
  seqId
  platform
  token
  content := {
    platform := platform.elim 0 Platform.code, message := c.message, identifier := c.identifier }

def of : PushEvent → Entry
  | .accepted p =>
    { status := some .accepted, seqId := some p.seqId, platform := some p.platform, token := p.token
      content := { p.content with platform := p.platform.code } }
  | .disabled p => brief .disabled (some p.seqId) (some p.platform) p.token p.content
  | .succeeded p => brief .succeeded (some p.seqId) (some p.platform) p.token p.content
  | .failed p _ => brief .failed (some p.seqId) (some p.platform) p.token p.content
  | .rejected n _ => brief .invalidRequest none none (",".intercalate n.tokens) n.content

theorem name?_str {α : Type} {ofName? : String → Option α} (s : String) :
    name? ofName? (Json.str s).draft = some (ofName? s) := by
  rw [name?, isKept_str, string?_draft]
  rfl

theorem extensions_text (es : List Extension) :
    extensions (Json.arr (es.map Extension.toJson)).text = es := by
  rw [extensions, ofText?_text, Option.bind_some, list?_draft,
    mapM_some (g := Extension.toJson) Extension.ofDraft?_toJson es, Option.getD_some]

section fields
variable {ms : List (String × Json)}

def contentNames : List String :=
  ["title", "subtitle", "body", "badge", "sound", "category", "content_available",
    "mutable_content", "expiry", "collapse_key", "delay_while_idle", "time_to_live", "push_type",
    "extend"]

theorem ofFields?_brief {status : PushStatus} {seqId : Option UInt64} {platform : Option Platform}
    {token : String} {c : Content} (hd : (ms.map Prod.fst).Nodup)
    (hstatus : ("status", .str status.name) ∈ ms)
    (hseq : (Json.fields ms).get? "seq_id" (option? uint64?) none = some seqId)
    (hplatform : (Json.fields ms).get? "platform" (name? Platform.ofName?) none = some platform)
    (htoken : ("token", .str token) ∈ ms) (hid : ("identifier", .str c.identifier) ∈ ms)
    (hmessage : ("message", .str c.message) ∈ ms)
    (habsent : ∀ name ∈ contentNames, name ∉ ms.map Prod.fst) :
    ofFields? (Json.fields ms) = some (brief status seqId platform token c) := by
  have hnone {α : Type} (name : String) (read : Draft → Option α) (absent : α)
      (h : name ∈ contentNames) : (Json.fields ms).get? name read absent = some absent :=
    get?_absent (habsent name h)
  have hstr (name s : String) (h : (name, Json.str s) ∈ ms) :
      (Json.fields ms).get? name string? "" = some s := by
    rw [get?_fields hd h, string?_draft]
  have hs : (Json.fields ms).get? "status" (name? PushStatus.ofName?) none =
      some (some status) := by
    rw [get?_fields hd hstatus, name?_str, PushStatus.ofName?_name]
  have hext : extensions "" = [] := by decide
  simp (disch := decide) only [ofFields?, hplatform, hseq, hs, hstr _ _ htoken, hstr _ _ hid,
    hstr _ _ hmessage, hnone, hext, Option.bind_eq_bind, Option.bind_some]
  rfl

end fields

section line
variable (stamp : String) (t : PushEvent.Elapsed)

def lineMembers (e : PushEvent) : List (String × Json) :=
  [("timestamp", .str stamp), ("level", .str e.level.name)] ++ e.members t ++
    [("target", .str PushEvent.target)]

theorem names_accepted (p : Parcel) : (lineMembers stamp t (.accepted p)).map Prod.fst =
    ["timestamp", "level", "status", "seq_id", "platform", "token", "ptime", "retry", "identifier",
      "title", "subtitle", "body"] ++ (if p.content.badge.isSome then ["badge"] else []) ++
      ["sound", "category", "content_available", "mutable_content", "expiry", "collapse_key",
        "delay_while_idle", "time_to_live"] ++
      (if p.content.pushType.isSome then ["push_type"] else []) ++
      ["extend", "message", "target"] := by
  rw [lineMembers, PushEvent.members, PushEvent.contentMembers]
  cases p.content.badge <;> cases p.content.pushType <;> rfl

theorem nodup_lineMembers (e : PushEvent) : ((lineMembers stamp t e).map Prod.fst).Nodup := by
  cases e with
  | accepted p =>
    rw [names_accepted]
    cases p.content.badge.isSome <;> cases p.content.pushType.isSome <;> decide
  | disabled | succeeded | failed | rejected =>
    simp [lineMembers, PushEvent.members, PushEvent.opening]

theorem ofFields?_accepted (p : Parcel) :
    ofFields? (Json.fields (lineMembers stamp t (.accepted p))) = some (of (.accepted p)) := by
  have hd := nodup_lineMembers stamp t (.accepted p)
  have hb (h : p.content.badge = none) :
      "badge" ∉ (lineMembers stamp t (.accepted p)).map Prod.fst := by
    simp [names_accepted, h]
  have hp (h : p.content.pushType = none) :
      "push_type" ∉ (lineMembers stamp t (.accepted p)).map Prod.fst := by
    simp [names_accepted, h]
  have hmem {m : String × Json} (h : m ∈ (PushEvent.accepted p).members t) :
      m ∈ lineMembers stamp t (.accepted p) :=
    List.mem_append_left _ (List.mem_append_right _ h)
  -- Where a member stands on the line does not matter from here on.
  generalize lineMembers stamp t (.accepted p) = ms at hd hb hp hmem
  have hm : (PushEvent.accepted p).members t = PushEvent.opening .accepted p t ++
      [("retry", .int p.attempt.toNat), ("identifier", .str p.content.identifier)] ++
      PushEvent.contentMembers p.content ++ [("message", .str p.content.message)] := rfl
  rw [hm, PushEvent.opening, PushEvent.contentMembers] at hmem
  have hstr (name s : String) (h : (name, Json.str s) ∈ ms) :
      (Json.fields ms).get? name string? "" = some s := get?_str hd h
  have hbool (name : String) (b : Bool) (h : (name, Json.bool b) ∈ ms) :
      (Json.fields ms).get? name bool? false = some b := get?_bool hd h
  have hstatus : (Json.fields ms).get? "status" (name? PushStatus.ofName?) none =
      some (some .accepted) := by
    rw [get?_fields hd (hmem (m := ("status", .str PushStatus.accepted.name)) (by simp)),
      name?_str, PushStatus.ofName?_name]
  have hplatform : (Json.fields ms).get? "platform" (name? Platform.ofName?) none =
      some (some p.platform) := by
    rw [get?_fields hd (hmem (m := ("platform", .str p.platform.name)) (by simp)), name?_str,
      Platform.ofName?_name]
  have hseq : (Json.fields ms).get? "seq_id" (option? uint64?) none = some (some p.seqId) := by
    rw [get?_fields hd (hmem (m := ("seq_id", .int p.seqId.toNat)) (by simp)), option?_uint64]
  have hexpiry : (Json.fields ms).get? "expiry" int64? 0 = some p.content.expiry :=
    get?_int64 hd (hmem (by simp))
  have httl : (Json.fields ms).get? "time_to_live" uint32? 0 = some p.content.timeToLive :=
    get?_uint32 hd (hmem (by simp))
  have hbadge : (Json.fields ms).get? "badge" (option? int64?) none = some p.content.badge := by
    refine get?_optional hd option?_int64 (fun n h => hmem ?_) hb
    simp [Content.optional, h]
  have hpush : (Json.fields ms).get? "push_type" (option? string?) none =
      some p.content.pushType := by
    refine get?_optional hd option?_str (fun s h => hmem ?_) hp
    simp [Content.optional, h]
  have htoken := hstr "token" p.token (hmem (by simp))
  have hid := hstr "identifier" p.content.identifier (hmem (by simp))
  have htitle := hstr "title" p.content.title (hmem (by simp))
  have hsubtitle := hstr "subtitle" p.content.subtitle (hmem (by simp))
  have hbody := hstr "body" p.content.body (hmem (by simp))
  have hsound := hstr "sound" p.content.sound (hmem (by simp))
  have hcategory := hstr "category" p.content.category (hmem (by simp))
  have hcollapse := hstr "collapse_key" p.content.collapseKey (hmem (by simp))
  have hmessage := hstr "message" p.content.message (hmem (by simp))
  have havailable := hbool "content_available" p.content.contentAvailable (hmem (by simp))
  have hmutable := hbool "mutable_content" p.content.mutableContent (hmem (by simp))
  have hidle := hbool "delay_while_idle" p.content.delayWhileIdle (hmem (by simp))
  have hextend := hstr "extend" (Json.arr (p.content.extensions.map Extension.toJson)).text
    (hmem (by simp))
  simp only [ofFields?, hstatus, hseq, hplatform, htoken, hid, htitle, hsubtitle, hbody, hbadge,
    hsound, hcategory, havailable, hmutable, hexpiry, hcollapse, hidle, httl, hpush, hextend,
    hmessage, extensions_text, Option.bind_eq_bind, Option.bind_some]
  rfl

theorem ofFields?_opening {status : PushStatus} {p : Parcel} {ms : List (String × Json)}
    (hd : (ms.map Prod.fst).Nodup) (hm : ∀ m ∈ PushEvent.opening status p t ++
      [("identifier", .str p.content.identifier), ("message", .str p.content.message)], m ∈ ms)
    (habsent : ∀ name ∈ contentNames, name ∉ ms.map Prod.fst) :
    ofFields? (Json.fields ms) =
      some (brief status (some p.seqId) (some p.platform) p.token p.content) := by
  rw [PushEvent.opening] at hm
  refine ofFields?_brief hd (hm _ (by simp)) ?_ ?_ (hm _ (by simp)) (hm _ (by simp))
    (hm _ (by simp)) habsent
  · rw [get?_fields hd (hm ("seq_id", .int p.seqId.toNat) (by simp)), option?_uint64]
  · rw [get?_fields hd (hm ("platform", .str p.platform.name) (by simp)), name?_str,
      Platform.ofName?_name]

theorem name?_int64 {α : Type} {ofName? : String → Option α} (n : Int64) :
    name? ofName? (Json.int n.toInt).draft = some none := by
  rw [name?, isKept_int64, Json.draft]
  rfl

theorem ofFields?_lineMembers (e : PushEvent) :
    ofFields? (Json.fields (lineMembers stamp t e)) = some (of e) := by
  have hd := nodup_lineMembers stamp t e
  cases e with
  | accepted p => exact ofFields?_accepted stamp t p
  | disabled p | succeeded p | failed p f =>
    refine ofFields?_opening t hd ?_ ?_
    · intro m hm
      simp only [PushEvent.opening, List.mem_append, List.mem_cons, List.not_mem_nil,
        or_false] at hm
      rcases hm with (rfl | rfl | rfl | rfl | rfl) | rfl | rfl <;>
        simp [lineMembers, PushEvent.members, PushEvent.opening]
    · simp [lineMembers, PushEvent.members, PushEvent.opening, contentNames]
  | rejected n v =>
    refine ofFields?_brief hd ?_ ?_ ?_ ?_ ?_ ?_ ?_
    · simp [lineMembers, PushEvent.members]
    · exact get?_absent (by simp [lineMembers, PushEvent.members])
    · have hm : ("platform", .int n.content.platform.toInt) ∈
          lineMembers stamp t (.rejected n v) := by
        simp [lineMembers, PushEvent.members]
      rw [get?_fields hd hm, name?_int64]
    · simp [lineMembers, PushEvent.members]
    · simp [lineMembers, PushEvent.members]
    · simp [lineMembers, PushEvent.members]
    · simp [lineMembers, PushEvent.members, contentNames]

/-- The line of an event is an entry for it. -/
theorem ofLine?_line (e : PushEvent) : ofLine? (e.line stamp t).text = some (of e) := by
  have hfields : (e.line stamp t).draft.fields? fieldNames =
      some (Json.fields (lineMembers stamp t e)) := fields?_draft (nodup_lineMembers stamp t e)
  rw [ofLine?, Draft.ofText?_text, Option.bind_eq_bind, Option.bind_some, hfields,
    Option.bind_eq_bind, Option.bind_some, ofFields?_lineMembers]

end line
end Entry
end PushRelay.Recovery
