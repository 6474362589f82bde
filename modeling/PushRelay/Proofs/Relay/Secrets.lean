import PushRelay.Command.Serve
import PushRelay.Proofs.Relay.Surface

/-! What a relay shows of its secrets: whether each of them is set, and nothing else. Two settings
that agree on that cannot be told apart by what is checked, set up, answered or written down. -/
namespace PushRelay

structure Secrets where
  pemKeyPassphrase : String
  apikey : String
  accessToken : String
  deriving DecidableEq, Repr

structure Secrets.Alike (x y : Secrets) : Prop where
  pemKeyPassphrase : x.pemKeyPassphrase.isEmpty = y.pemKeyPassphrase.isEmpty
  apikey : x.apikey.isEmpty = y.apikey.isEmpty
  accessToken : x.accessToken.isEmpty = y.accessToken.isEmpty

namespace Settings

def secrets (s : Settings) : Secrets :=
  ⟨s.ios.pemKeyPassphrase, s.android.apikey, s.fcmV1.accessToken⟩

def withSecrets (s : Settings) (x : Secrets) : Settings :=
  { s with
    ios := { s.ios with pemKeyPassphrase := x.pemKeyPassphrase }
    android := { s.android with apikey := x.apikey }
    fcmV1 := { s.fcmV1 with accessToken := x.accessToken } }

/-- Settings that are the same but for their secrets, which are set in both or in neither. -/
structure Alike (s s' : Settings) : Prop where
  others : s'.withSecrets s.secrets = s
  secrets : s.secrets.Alike s'.secrets

theorem Alike.eq_withSecrets {s s' : Settings} (h : s.Alike s') :
    s' = s.withSecrets s'.secrets := by
  rw [← h.others]
  rfl

variable {s s' : Settings}

theorem mask_eq {x y : String} (h : x.isEmpty = y.isEmpty) : mask x = mask y := by
  simp only [mask, h]

theorem Alike.redacted (h : s.Alike s') : s.redacted = s'.redacted := by
  rw [h.eq_withSecrets]
  simp only [Settings.redacted, withSecrets, ← mask_eq h.secrets.pemKeyPassphrase,
    ← mask_eq h.secrets.apikey, ← mask_eq h.secrets.accessToken]
  rfl

theorem Alike.defect? (h : s.Alike s') : s.defect? = s'.defect? := by
  have handroid : (s.withSecrets s'.secrets).android.defect? = s.android.defect? := by
    simp only [AndroidSettings.defect?, withSecrets, ← h.secrets.apikey]
    rfl
  have hfcm : (s.withSecrets s'.secrets).fcmV1.defect? = s.fcmV1.defect? := by
    simp only [FcmV1Settings.defect?, withSecrets, ← h.secrets.accessToken]
    rfl
  rw [h.eq_withSecrets, Settings.defect?, Settings.defect?, handroid, hfcm]
  rfl

end Settings

/-! ## Setting up -/

theorem cases_of_map_eq {ε α β γ : Type} {e : Except ε α} {e' : Except ε β} {f : α → γ} {g : β → γ}
    (h : e.map f = e'.map g) :
    (∃ fault, e = .error fault ∧ e' = .error fault) ∨
      ∃ a b, e = .ok a ∧ e' = .ok b ∧ f a = g b := by
  cases e with
  | error fault =>
    cases e' with
    | error fault' =>
      cases h
      exact .inl ⟨fault, rfl, rfl⟩
    | ok b => cases h
  | ok a =>
    cases e' with
    | error fault' => cases h
    | ok b => exact .inr ⟨a, b, rfl, rfl, Except.ok.inj h⟩

structure Told.Alike {α β γ : Type} (f : α → γ) (g : β → γ) (t : Told α) (t' : Told β) : Prop where
  notices : t.1 = t'.1
  results : t.2.map f = t'.2.map g

theorem Told.Alike.cases {α β γ : Type} {f : α → γ} {g : β → γ} {t : Told α} {t' : Told β}
    (h : t.Alike f g t') :
    (∃ told fault, t = (told, .error fault) ∧ t' = (told, .error fault)) ∨
      ∃ told a b, t = (told, .ok a) ∧ t' = (told, .ok b) ∧ f a = g b := by
  have hfst := h.notices
  obtain ⟨told, e⟩ := t
  obtain ⟨told', e'⟩ := t'
  cases hfst
  rcases cases_of_map_eq h.results with ⟨fault, he, he'⟩ | ⟨a, b, he, he', hab⟩
  · exact .inl ⟨told, fault, congrArg _ he, congrArg _ he'⟩
  · exact .inr ⟨told, a, b, congrArg _ he, congrArg _ he', hab⟩

/-- What a depot takes from a platform depends on its client only in that there is one. -/
theorem routeOf_alike {α : Type} (enabled : Bool) (wrap : α → GatewayClient) (call : CallSettings)
    {t t' : Told α} (h : t.Alike (fun _ => ()) (fun _ => ()) t') :
    (routeOf enabled wrap call t).Alike GatewayRoute.plan GatewayRoute.plan
      (routeOf enabled wrap call t') := by
  cases enabled with
  | false => exact ⟨rfl, rfl⟩
  | true =>
    refine ⟨h.notices, ?_⟩
    simp only [routeOf, if_true]
    rcases cases_of_map_eq h.results with ⟨fault, he, he'⟩ | ⟨c, c', he, he', -⟩
    · rw [he, he']
    · rw [he, he']
      rfl

namespace Settings
variable {s s' : Settings} (files : Files)

theorem Alike.iosClient (h : s.Alike s') : s.ios.client files = s'.ios.client files := by
  have hcredentials :
      (s.withSecrets s'.secrets).ios.credentials files = s.ios.credentials files := by
    simp only [IosSettings.credentials, withSecrets, ← h.secrets.pemKeyPassphrase]
    rfl
  rw [h.eq_withSecrets, IosSettings.client, IosSettings.client, hcredentials]
  rfl

theorem Alike.androidClient (h : s.Alike s') :
    s.android.client.Alike (fun _ => ()) (fun _ => ()) s'.android.client := by
  rw [h.eq_withSecrets]
  refine ⟨rfl, ?_⟩
  show (GcmClient.ofKey? _ s.secrets.apikey).map _ = (GcmClient.ofKey? _ s'.secrets.apikey).map _
  simp only [GcmClient.ofKey?, ← h.secrets.apikey]
  split
  · rfl
  · rfl

theorem ofAccess?_made (endpoint projectId : String) (a a' : FcmAccess) :
    (FcmClient.ofAccess? endpoint projectId a).map (fun _ => ()) =
      (FcmClient.ofAccess? endpoint projectId a').map fun _ => () := by
  unfold FcmClient.ofAccess?
  by_cases hp : projectId.isEmpty = true
  · rw [if_pos hp, if_pos hp]
  · rw [if_neg hp, if_neg hp]
    rfl

theorem Alike.fcmAccess (h : s.Alike s') : (s.fcmV1.access files).map (fun _ => ()) =
    (s'.fcmV1.access files).map fun _ => () := by
  rw [h.eq_withSecrets]
  simp only [FcmV1Settings.access, withSecrets, ← h.secrets.accessToken]
  have htoken : s.secrets.accessToken = s.fcmV1.accessToken := rfl
  rw [htoken]
  by_cases hfile : (!s.fcmV1.credentialsFile.isEmpty) = true
  · rw [if_pos hfile, if_pos hfile]
  rw [if_neg hfile, if_neg hfile]
  by_cases hset : (!s.fcmV1.accessToken.isEmpty) = true
  · rw [if_pos hset, if_pos hset]
    rfl
  · rw [if_neg hset, if_neg hset]

theorem Alike.fcmClient (h : s.Alike s') :
    (s.fcmV1.client files).Alike (fun _ => ()) (fun _ => ()) (s'.fcmV1.client files) := by
  have hrest : s'.fcmV1.projectId = s.fcmV1.projectId ∧ s'.fcmV1.endpoint = s.fcmV1.endpoint := by
    rw [h.eq_withSecrets]
    exact ⟨rfl, rfl⟩
  unfold FcmV1Settings.client
  rcases cases_of_map_eq (h.fcmAccess files) with ⟨fault, he, he'⟩ | ⟨a, a', he, he', -⟩
  · rw [he, he']
    exact ⟨rfl, rfl⟩
  · rw [he, he', hrest.1, hrest.2]
    exact ⟨rfl, ofAccess?_made _ _ a a'⟩

theorem Alike.opened (h : s.Alike s') :
    (s.opened files).Alike GatewayRoutes.plan GatewayRoutes.plan (s'.opened files) := by
  have hclient : (s.ios.client files).Alike (fun _ => ()) (fun _ => ()) (s'.ios.client files) := by
    rw [h.iosClient]
    exact ⟨rfl, rfl⟩
  have hios := routeOf_alike s.ios.enabled .apns s.ios.call hclient
  have handroid := routeOf_alike s.android.enabled .gcm s.android.call h.androidClient
  have hfcm := routeOf_alike s.fcmV1.enabled .fcm s.fcmV1.call (h.fcmClient files)
  have hsame : s'.ios.enabled = s.ios.enabled ∧ s'.ios.call = s.ios.call ∧
      s'.android.enabled = s.android.enabled ∧ s'.android.call = s.android.call ∧
      s'.fcmV1.enabled = s.fcmV1.enabled ∧ s'.fcmV1.call = s.fcmV1.call := by
    rw [h.eq_withSecrets]
    exact ⟨rfl, rfl, rfl, rfl, rfl, rfl⟩
  obtain ⟨hi, hi', ha, ha', hf, hf'⟩ := hsame
  unfold Settings.opened
  rw [hi, hi', ha, ha', hf, hf']
  rcases hios.cases with ⟨told, fault, he, he'⟩ | ⟨told, ios, ios', he, he', hplan⟩
  · rw [he, he']
    exact ⟨rfl, rfl⟩
  rw [he, he']
  rcases handroid.cases with ⟨told', fault, he, he'⟩ | ⟨told', android, android', he, he', hplan'⟩
  · rw [he, he']
    exact ⟨rfl, rfl⟩
  rw [he, he']
  rcases hfcm.cases with ⟨told'', fault, he, he'⟩ | ⟨told'', fcm, fcm', he, he', hplan''⟩
  · rw [he, he']
    exact ⟨rfl, rfl⟩
  rw [he, he']
  refine ⟨rfl, ?_⟩
  simp only [Except.map, GatewayRoutes.plan, hplan, hplan', hplan'']

theorem isNone_get (routes : GatewayRoutes) (p : Platform) :
    (routes.get p).isNone = !(routes.plan.get p).enabled := by
  have hroute (r : Option GatewayRoute) : r.isNone = !(GatewayRoute.plan r).enabled := by
    cases r with
    | none => rfl
    | some r => rfl
  cases p with
  | ios | android | fcmV1 => exact hroute _

theorem Alike.routes (h : s.Alike s') :
    (s.routes files).Alike GatewayRoutes.plan GatewayRoutes.plan (s'.routes files) := by
  unfold Settings.routes
  rcases (h.opened files).cases with
    ⟨told, fault, he, he'⟩ | ⟨told, routes, routes', he, he', hplan⟩
  · rw [he, he']
    exact ⟨rfl, rfl⟩
  · rw [he, he']
    refine ⟨?_, congrArg Except.ok hplan⟩
    simp only [isNone_get, hplan]

end Settings

/-! ## Serving -/

namespace Relay
open Http Depot
variable {r r' : Relay}

structure Alike (r r' : Relay) : Prop where
  shown : r.settings.redacted = r'.settings.redacted
  others : { r' with settings := r.settings } = r

/-- The settings are read for one view only, and there as they are shown. -/
theorem Alike.view? (h : r.Alike r') (s : State) (path : String) :
    r.view? s path = r'.view? s path := by
  have hconfig : r.config s = r'.config s := by
    simp only [Relay.config, h.shown]
  rw [← h.others] at hconfig ⊢
  unfold Relay.view?
  split
  · rfl
  · rw [hconfig]
  · rfl
  · rfl
  · rfl
  · rfl

theorem Alike.respond (h : r.Alike r') (s : State) (q : Request) :
    r.respond s q = r'.respond s q := by
  have hpush : r.push s q = r'.push s q := by
    rw [← h.others]
    rfl
  simp only [Relay.respond, Relay.route, hpush, h.view?]

theorem Alike.happen (h : r.Alike r') (run : Run) (e : Happening) :
    r.happen run e = r'.happen run e := by
  cases e with
  | request q => simp only [Relay.happen, h.respond]
  | turn t ht =>
    rw [← h.others]
    rfl

theorem Alike.run (h : r.Alike r') (run : Run) (es : List Happening) :
    es.foldl r.happen run = es.foldl r'.happen run ∧ r.responses run es = r'.responses run es := by
  induction es generalizing run with
  | nil => exact ⟨rfl, rfl⟩
  | cons e es ih =>
    obtain ⟨hrun, hresponses⟩ := ih (r.happen run e)
    rw [List.foldl_cons, List.foldl_cons, ← h.happen]
    refine ⟨hrun, ?_⟩
    cases e with
    | request q => simp only [responses, hresponses, ← h.happen, h.respond]
    | turn t ht => simp only [responses, hresponses, ← h.happen]

end Relay

namespace Serve
open Depot

/-- Two starts that cannot be told apart: the same output, or relays that answer alike whatever
happens, and whose depots go through the same run. -/
inductive Start.Alike : Start → Start → Prop
  | finished (f : Finish) : Alike (.finished f) (.finished f)
  | listening {r r' : Ready} (hlimits : r.limits = r'.limits)
      (htimeout : r.shutdownTimeout = r'.shutdownTimeout)
      (hrun : ∀ ceiling es, r.relay.after ceiling es = r'.relay.after ceiling es ∧
        r.relay.responses (.start ceiling) es = r'.relay.responses (.start ceiling) es) :
      Alike (.listening r) (.listening r')

variable {s s' : Settings}

theorem relay_alike (h : s.Alike s') {routes routes' : GatewayRoutes}
    (hplan : routes.plan = routes'.plan) :
    (Ready.ofSettings s routes).relay.Alike (Ready.ofSettings s' routes').relay where
  shown := h.redacted
  others := by
    simp only [Ready.ofSettings, ← hplan]
    rw [h.eq_withSecrets]
    rfl

theorem start_alike (h : s.Alike s') (files : Files) (bind : String → Option String) :
    Start.Alike (start files bind s) (start files bind s') := by
  have hcore : s'.core = s.core := by
    rw [h.eq_withSecrets]
    rfl
  unfold start Settings.check
  rw [← h.defect?]
  cases hdefect : s.defect? with
  | some d => exact .finished _
  | none =>
    simp only [address, hcore]
    rcases cases_of_map_eq (h.routes files).results with ⟨fault, he, he'⟩ |
      ⟨routes, routes', he, he', hplan⟩
    · rw [he, he']
      exact .finished _
    rw [he, he']
    simp only
    split
    · exact .finished _
    split
    · exact .finished _
    · refine .listening ?_ ?_ fun ceiling es => (relay_alike h hplan).run _ es
      · simp only [Ready.ofSettings, hcore]
      · simp only [Ready.ofSettings, hcore]

/-- Of the secrets in settings nothing is shown but whether they are set. Settings that differ in
nothing else look the same, have the same defect, and are set up with the same notices to the same
fault, or to routes that a depot takes the same from; then whatever happens, with whatever answers
of the gateways, the same is answered, written down and counted. -/
theorem secrets_hidden (h : s.Alike s') (files : Files) :
    (s.redacted = s'.redacted ∧ s.redacted.withSecrets s.secrets = s ∧
      s.redacted.secrets = ⟨Settings.mask s.ios.pemKeyPassphrase, Settings.mask s.android.apikey,
        Settings.mask s.fcmV1.accessToken⟩) ∧
    s.defect? = s'.defect? ∧
    (s.routes files).Alike GatewayRoutes.plan GatewayRoutes.plan (s'.routes files) ∧
    (∀ routes routes', (s.routes files).2 = .ok routes → (s'.routes files).2 = .ok routes' →
      let r := (Ready.ofSettings s routes).relay
      let r' := (Ready.ofSettings s' routes').relay
      ∀ ceiling es, r.after ceiling es = r'.after ceiling es ∧
        r.responses (.start ceiling) es = r'.responses (.start ceiling) es) ∧
    ∀ bind, Start.Alike (start files bind s) (start files bind s') := by
  refine ⟨⟨h.redacted, rfl, rfl⟩, h.defect?, h.routes files, ?_, start_alike h files⟩
  intro routes routes' hr hr' r r' ceiling es
  have hplan := (h.routes files).results
  rw [hr, hr'] at hplan
  exact (relay_alike h (Except.ok.inj hplan)).run _ es

def secretSettings (secret : String) : Settings where
  core := { workers := 1 }
  ios := { pemKeyPassphrase := secret }
  android := { enabled := true, apikey := secret }
  fcmV1 := { enabled := true, projectId := "p", accessToken := secret }

theorem secrets_hidden_set :
    let s := secretSettings "a"
    let s' := secretSettings "b"
    let route (k : String) : GatewayRoutes := ⟨none,
      some ⟨.gcm ⟨"https://fcm.googleapis.com/fcm/send", k⟩, 1⟩,
      some ⟨.fcm ⟨"https://fcm.googleapis.com", "p", .fixed k⟩, 1⟩⟩
    let es : List Relay.Happening := [.request Relay.loneRequest,
      .turn (.act (.move 0 none)) rfl, .request { method := "GET", path := "/config/app" }]
    s.Alike s' ∧ s.redacted = s'.redacted ∧ s.redacted ≠ s ∧
      (Ready.ofSettings s (route "a")).relay.responses (.start 0) es =
        (Ready.ofSettings s' (route "b")).relay.responses (.start 0) es := by
  intro s s' route es
  have h : s.Alike s' := ⟨rfl, ⟨by decide, by decide, by decide⟩⟩
  obtain ⟨⟨hshown, -, -⟩, -, -, hrun, -⟩ := secrets_hidden h fun _ => .error .missing
  exact ⟨h, hshown, by decide, (hrun (route "a") (route "b") rfl rfl 0 es).2⟩

end Serve
end PushRelay
