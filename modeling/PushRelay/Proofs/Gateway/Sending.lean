import PushRelay.Proofs.Delivery
import PushRelay.Proofs.Gateway.Apns
import PushRelay.Proofs.Gateway.Payload
import PushRelay.Proofs.Json.Size

/-! What goes out to APNs: the payload of the notification and nothing else, and nothing at all
where it is too large. -/
namespace PushRelay.ApnsClient
variable {c : ApnsClient} {w : Surroundings} {p : Parcel}

def sent (content : Content) : Octets := Utf8.encode (Payload.apns content).text.toList

theorem sent_eq (content : Content) : sent content = Utf8.encode (Payload.apns content).chars := by
  rw [sent, Json.text, String.toList_ofList]

theorem push_large (h : maxPayload < (sent p.content).length) :
    c.push w p = ⟨c, [], .error (.payloadTooLarge (sent p.content).length maxPayload)⟩ := by
  rw [sent_eq] at h ⊢
  simp only [push, if_pos h]

theorem body_of_mem_push {call : Http.Call} (hcall : call ∈ (c.push w p).calls) :
    call.body = sent p.content := by
  obtain ⟨⟨shown, -, rfl⟩, -, -⟩ := mem_calls_push.mp hcall
  rw [sent_eq, callWith]

/-- The payload tells what it shows of a notification and nothing more, whatever the extensions. It
is what a push sends; one of more than 4096 octets is not sent, no token is signed for it, and it is
not tried again. -/
theorem payload_determines (content : Content) :
    (∃ d, Draft.ofText? (Payload.apns content).text = some d ∧ Payload.Shows content d ∧
      ∀ extensions, ∃ d', Draft.ofText? (Payload.apns { content with extensions }).text = some d' ∧
        d'.at? ["aps"] = d.at? ["aps"]) ∧
    (∀ content', (Payload.apns content).text = (Payload.apns content').text ↔
      Payload.Agree content content') ∧
    ∀ p : Parcel, p.content = content →
      (∀ (c : ApnsClient) (w : Surroundings), ∀ call ∈ (c.push w p).calls,
        call.body = sent content) ∧
      (4096 < (sent content).length →
        (∀ (c : ApnsClient) (w : Surroundings),
          c.push w p = ⟨c, [], .error (.payloadTooLarge (sent content).length 4096)⟩ ∧
          (c.push w p).errorClass? .ios = some .terminal) ∧
        ∀ (retryMax : UInt32) (l : Ledger) (c : UInt32 → ApnsClient) (w : UInt32 → Surroundings),
          let r := Delivery.deliver retryMax
            (fun n => ((c n).push (w n) { p with attempt := n }).answer) p l
          r.calls = [{ p with attempt := 0 }] ∧ r.outcome = .failed 1 .terminal) := by
  refine ⟨⟨_, Draft.ofText?_text _, Payload.shows_apns content, fun extensions => ?_⟩,
    Payload.text_eq_iff content, ?_⟩
  · exact ⟨_, Draft.ofText?_text _, by rw [Payload.at?_aps, Payload.at?_aps]; rfl⟩
  · rintro p rfl
    refine ⟨fun c w call hcall => body_of_mem_push hcall, fun hlarge => ⟨fun c w => ?_, ?_⟩⟩
    · have hpush : c.push w p = _ := push_large hlarge
      exact ⟨hpush, by rw [hpush]; rfl⟩
    · intro retryMax l c w
      have hpush : (c 0).push (w 0) { p with attempt := 0 } = _ := push_large hlarge
      have hanswer : ((c 0).push (w 0) { p with attempt := 0 }).answer =
          .refused (.payloadTooLarge (sent p.content).length maxPayload) := by
        rw [hpush]
        rfl
      exact Delivery.deliver_terminal hanswer rfl l

/-- A short message, each of whose characters takes six octets in the payload. -/
def bells : Parcel := ⟨1, "t", .ios, { message := String.ofList (List.replicate 700 '\x07') }, 0⟩

def keyedClient : ApnsClient where
  host := "https://h"
  provider := some { key := ⟨.es256, []⟩, keyId := "k", teamId := "t" }

theorem length_bells : bells.content.message.length = 700 := by
  show (String.ofList (List.replicate 700 '\x07')).length = 700
  rw [String.length_ofList, List.length_replicate]

theorem size_bells : 4096 < (sent bells.content).length := by
  have hmessage : bells.content.message ≠ "" := by
    intro h
    have hlength := length_bells
    rw [h] at hlength
    cases hlength
  have hpayload : Payload.apns bells.content =
      .obj [("aps", .obj [("alert", .obj [("body", .str bells.content.message)])])] := by
    have hrest : bells.content = { message := bells.content.message } := rfl
    rw [hrest]
    simp [Payload.apns, Payload.aps, Payload.alert, Payload.filled, Payload.flag, hmessage,
      Json.sorted, Json.put]
  have hescaped : Utf8.size (Json.escape '\x07') = 6 := by decide
  have hsize : (Json.str bells.content.message).size = 700 * 6 + 2 := by
    rw [Json.size, Json.chars, bells, String.toList_ofList, Json.size_quote_replicate, hescaped]
  have hsent : (sent bells.content).length = (Payload.apns bells.content).size := by
    rw [sent_eq]
    rfl
  calc 4096 < (Json.str bells.content.message).size := by omega
    _ ≤ _ := Json.le_size_obj "body" _
    _ ≤ _ := Json.le_size_obj "alert" _
    _ ≤ _ := Json.le_size_obj "aps" _
    _ = (sent bells.content).length := by rw [hsent, hpayload]

theorem payload_determines_bells :
    (bells.content.message.length = 700 ∧ 4096 < (sent bells.content).length ∧
      ∀ w, (keyedClient.push w bells).calls = [] ∧
        (keyedClient.push w bells).client.provider = keyedClient.provider) ∧
    ∃ call ∈ (bareClient.push (answering (giving "Shutdown")) barePush).calls,
      call.body = sent barePush.content := by
  constructor
  · refine ⟨length_bells, size_bells, fun w => ?_⟩
    obtain ⟨hpush, -⟩ :=
      (((payload_determines bells.content).2.2 bells rfl).2 size_bells).1 keyedClient w
    rw [hpush]
    exact ⟨rfl, rfl⟩
  · have hcalls : (bareClient.push (answering (giving "Shutdown")) barePush).calls ≠ [] := by
      decide +kernel
    obtain ⟨call, hcall⟩ := List.exists_mem_of_ne_nil _ hcalls
    exact ⟨call, hcall,
      ((payload_determines barePush.content).2.2 barePush rfl).1 bareClient _ call hcall⟩

end PushRelay.ApnsClient
