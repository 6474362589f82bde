import PushRelay.Proofs.Gateway.Payload
import PushRelay.Proofs.Gateway.Refusal

/-! The message for GCM read back. The text of a notification and its extensions stand in one
object, so that an extension of the name that the text has takes its place. -/
namespace PushRelay

namespace Payload
open Json (drafted? last? present)

def true? (b : Bool) : Option Json := if b then some (.bool true) else none

/-- A time to live is given where there is one, and never as more than four weeks. -/
def timeToLive? (seconds : UInt32) : Option Json :=
  if 0 < seconds then some (.int (min seconds.toNat 2419200)) else none

def gcmNames : List String :=
  ["registration_ids", "collapse_key", "delay_while_idle", "time_to_live", "data"]

/-- What a message for GCM carries of a notification for one device. -/
structure Carries (token : String) (c : Content) (d : Draft) : Prop where
  kept : d.isKept 127 = true
  names : d.IsObjectOf gcmNames
  tokens : d.at? ["registration_ids"] = some (Json.arr [.str token]).draft
  data : ∃ data names, d.at? ["data"] = some data ∧ data.names? = some names ∧ names.Nodup ∧
    ∀ k, k ∈ names ↔ k = "message" ∨ k ∈ c.extensions.map (·.key)
  message : d.at? ["data", "message"] =
    some (Json.str ((c.lastValue? "message").getD c.message)).draft
  extension : ∀ k, k ≠ "message" →
    d.at? ["data", k] = (c.lastValue? k).map fun s => (Json.str s).draft
  collapseKey : d.at? ["collapse_key"] = (text? c.collapseKey).map Json.draft
  delayWhileIdle : d.at? ["delay_while_idle"] = (true? c.delayWhileIdle).map Json.draft
  timeToLive : d.at? ["time_to_live"] = (timeToLive? c.timeToLive).map Json.draft

def gcmMembers (token : String) (c : Content) : List (String × Option Json) :=
  [("registration_ids", some (.arr [.str token])), ("collapse_key", text? c.collapseKey),
    ("delay_while_idle", true? c.delayWhileIdle), ("time_to_live", timeToLive? c.timeToLive),
    ("data", some (gcmData c))]

theorem gcm_eq (token : String) (c : Content) :
    gcm token c = .obj (present (gcmMembers token c)) := by
  have hdelay : (if c.delayWhileIdle then [("delay_while_idle", Json.bool true)] else []) =
      (true? c.delayWhileIdle).toList.map ("delay_while_idle", ·) := by
    cases c.delayWhileIdle <;> rfl
  have htime : (if 0 < c.timeToLive then
        [("time_to_live", Json.int (min c.timeToLive.toNat maxTimeToLive.toNat))] else []) =
      (timeToLive? c.timeToLive).toList.map ("time_to_live", ·) := by
    rw [timeToLive?]
    split <;> rfl
  rw [gcm, filled_eq, hdelay, htime]
  simp [present, gcmMembers]

theorem nodup_gcmNames : gcmNames.Nodup := by decide

theorem at?_gcm {token name : String} {c : Content} {path : List String} :
    (gcm token c).draft.at? (name :: path) =
      drafted? path ((gcmMembers token c).lookup name).join := by
  rw [gcm_eq]
  exact Json.at?_present nodup_gcmNames

/-- The last value under a name counts, and the text of the notification comes first. -/
theorem last?_gcmData (c : Content) (k : String) :
    last? (("message", .str c.message) :: members c.extensions) k =
      if k = "message" then some (.str ((c.lastValue? k).getD c.message))
      else (c.lastValue? k).map .str := by
  have hlast : last? (members c.extensions) k = (c.lastValue? k).map .str := by
    rw [last?_members, Content.lastValue?, Option.map_map]
    rfl
  rw [Json.last?_cons, hlast]
  by_cases hk : k = "message"
  · rw [if_pos hk, if_pos hk]
    cases c.lastValue? k <;> rfl
  · rw [if_neg hk, if_neg hk, Option.or_none]

theorem at?_gcmData (token k : String) (c : Content) :
    (gcm token c).draft.at? ["data", k] =
      (if k = "message" then some (.str ((c.lastValue? k).getD c.message))
        else (c.lastValue? k).map Json.str).map Json.draft := by
  have hdata : gcmData c = .sorted (("message", .str c.message) :: members c.extensions) := rfl
  have hfind : ((gcmMembers token c).lookup "data").join = some (gcmData c) := rfl
  rw [at?_gcm, hfind, drafted?, Option.bind_some, hdata, Json.at?_sorted, last?_gcmData,
    Json.drafted?_nil]

theorem isKept_timeToLive? {room : Nat} {n : UInt32} {v : Json} (h : timeToLive? n = some v) :
    v.draft.isKept room = true := by
  rw [timeToLive?] at h
  split at h
  · cases h
    exact Draft.isKept_int (by omega)
  · cases h

theorem isKept_true? {room : Nat} {b : Bool} {v : Json} (h : true? b = some v) :
    v.draft.isKept room = true := by
  cases b with
  | false => cases h
  | true =>
    cases h
    exact Draft.isKept_bool true

theorem isKept_gcmData (c : Content) : (gcmData c).draft.isKept 126 = true := by
  refine Json.isKept_sorted fun m hm => ?_
  cases List.mem_cons.mp hm with
  | inl hm =>
    subst hm
    exact Draft.isKept_str _
  | inr hm =>
    obtain ⟨e, -, rfl⟩ := List.mem_map.mp hm
    exact Draft.isKept_str _

theorem isKept_gcmMembers {token : String} {c : Content} {m : String × Option Json}
    (hm : m ∈ gcmMembers token c) {v : Json} (hv : m.2 = some v) : v.draft.isKept 126 = true := by
  simp only [gcmMembers, List.mem_cons, List.not_mem_nil, or_false] at hm
  obtain rfl | rfl | rfl | rfl | rfl := hm
  · cases hv
    refine Draft.isKept_arr fun v hv => ?_
    cases List.mem_singleton.mp hv
    exact Draft.isKept_str token
  · exact isKept_text? hv
  · exact isKept_true? hv
  · exact isKept_timeToLive? hv
  · cases hv
    exact isKept_gcmData c

theorem carries_gcm (token : String) (c : Content) : Carries token c (gcm token c).draft where
  kept := by
    rw [gcm_eq]
    exact Json.isKept_present fun m hm v hv => isKept_gcmMembers hm hv
  names := by
    rw [gcm_eq]
    exact Json.isObjectOf_present nodup_gcmNames
  tokens := at?_gcm
  data := by
    refine ⟨(gcmData c).draft, _, at?_gcm, Json.names?_obj _, (Json.inOrder_settled _).nodup,
      fun k => Json.mem_settled.trans ?_⟩
    rw [List.map_cons, List.mem_cons, List.map_map]
    rfl
  message := by rw [at?_gcmData, if_pos rfl, Option.map_some]
  extension k hk := by
    rw [at?_gcmData, if_neg hk, Option.map_map]
    rfl
  collapseKey := at?_gcm.trans (Json.drafted?_nil _)
  delayWhileIdle := at?_gcm.trans (Json.drafted?_nil _)
  timeToLive := at?_gcm.trans (Json.drafted?_nil _)

end Payload

namespace GcmClient
open ApnsClient (answering)
open Payload (Carries)

theorem body_of_mem_push {c : GcmClient} {w : Surroundings} {p : Parcel} {call : Http.Call}
    (hcall : call ∈ (c.push w p).calls) :
    call.body = Utf8.encode (Payload.gcm p.token p.content).text.toList := by
  obtain ⟨rfl, -⟩ := mem_calls_push.mp hcall
  rw [call, Json.text, String.toList_ofList]

/-- What GCM is sent is read back as a message for the device and the notification. Its text is that
of the notification unless an extension is called `message`, whose value then stands instead. -/
theorem message_carries (token : String) (content : Content) :
    (∃ d, Draft.ofText? (Payload.gcm token content).text = some d ∧ Carries token content d ∧
      (d.at? ["data", "message"] = some (Json.str content.message).draft ↔
        ∀ s, content.lastValue? "message" = some s → s = content.message)) ∧
    ∀ (c : GcmClient) (w : Surroundings) (p : Parcel), p.token = token → p.content = content →
      ∀ call ∈ (c.push w p).calls,
        call.body = Utf8.encode (Payload.gcm token content).text.toList := by
  constructor
  · have hcarries := Payload.carries_gcm token content
    refine ⟨_, Draft.ofText?_text _, hcarries, ?_⟩
    rw [hcarries.message, Option.some_inj]
    cases content.lastValue? "message" with
    | none => simp
    | some s =>
      rw [Option.getD_some, Payload.str_injective.eq_iff]
      simp
  · rintro c w p rfl rfl call hcall
    exact body_of_mem_push hcall

def replacing : Content where
  platform := 2
  message := "m"
  extensions := [⟨"message", "override"⟩]

def replacingPush : Parcel := ⟨1, "tok", .android, replacing, 0⟩

theorem message_carries_replacing :
    ∃ call ∈ (bareGcmClient.push (answering busyServer) replacingPush).calls,
      call.body = Utf8.encode (Payload.gcm "tok" replacing).text.toList := by
  have hcalls : (bareGcmClient.push (answering busyServer) replacingPush).calls ≠ [] := by
    decide +kernel
  obtain ⟨call, hcall⟩ := List.exists_mem_of_ne_nil _ hcalls
  exact ⟨call, hcall, (message_carries "tok" replacing).2 _ _ _ rfl rfl call hcall⟩

/-- The device is sent the extension, and not what the notification says. -/
theorem message_carries_override :
    ∃ d, Draft.ofText? (Payload.gcm "tok" replacing).text = some d ∧
      d.at? ["data", "message"] = some (Json.str "override").draft ∧
      d.at? ["data", "message"] ≠ some (Json.str replacing.message).draft := by
  have hmessage := (Payload.carries_gcm "tok" replacing).message
  refine ⟨_, Draft.ofText?_text _, hmessage, ?_⟩
  rw [hmessage]
  intro h
  exact absurd (Payload.str_injective (Option.some.inj h)) (by decide)

end GcmClient
end PushRelay
