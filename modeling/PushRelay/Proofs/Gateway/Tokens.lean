import Mathlib
import PushRelay.Gateway.Account
import PushRelay.Proofs.Gateway.Exchange

/-! Access tokens of a service account over any number of calls. A token is used up to a minute
before its end, in whole numbers, if that end is in the range of the clock's integers. An end beyond
them wraps around to the past. -/
namespace PushRelay

/-- The seconds of every date lie in this range. -/
def InTime (now : Int64) : Prop := -2 ^ 43 ≤ now.toInt ∧ now.toInt ≤ 2 ^ 43

instance (now : Int64) : Decidable (InTime now) :=
  inferInstanceAs (Decidable (_ ∧ _))

/-! ## Grants -/

structure Grant where
  text : String
  time : Int64
  lifetime : Int64
  deriving DecidableEq, Repr

namespace Grant
variable {g : Grant} {now : Int64}

def token (g : Grant) : AccessToken := ⟨g.text, g.time + g.lifetime⟩

/-- The second from which another token is wanted, in whole numbers. -/
def renewal (g : Grant) : Int := g.time.toInt + g.lifetime.toInt - 60

/-- Another token is asked for: from the renewal on, or at once where that is too late for the
clock's integers. One that is too early for them is not reached. -/
def IsOver (g : Grant) (now : Int64) : Prop :=
  -2 ^ 63 ≤ g.renewal ∧ (g.renewal ≤ now.toInt ∨ 2 ^ 63 ≤ g.renewal)

theorem isOver_iff (h : -2 ^ 63 ≤ g.renewal) (h' : g.renewal < 2 ^ 63) :
    g.IsOver now ↔ g.renewal ≤ now.toInt := by
  unfold IsOver
  omega

theorem toInt_expiresAt (g : Grant) :
    (g.token.expiresAt - AccountTokens.margin).toInt = g.renewal.bmod (2 ^ 64) := by
  have hmargin : AccountTokens.margin.toInt = 60 := rfl
  rw [token, Int64.toInt_sub, Int64.toInt_add, hmargin, renewal, Int.bmod_sub_bmod]

theorem not_lt_expiresAt (ht : InTime g.time) (hn : InTime now) :
    ¬now < g.token.expiresAt - AccountTokens.margin ↔ g.IsOver now := by
  have hlow := g.lifetime.le_toInt
  have hhigh := g.lifetime.toInt_lt
  have hrenewal : g.renewal = g.time.toInt + g.lifetime.toInt - 60 := rfl
  rw [Int64.lt_iff_toInt_lt, toInt_expiresAt, IsOver, Int.bmod_def]
  unfold InTime at ht hn
  omega

end Grant

/-! ## One call -/

namespace AccountTokens
variable {t : AccountTokens} {w : Surroundings} {last : Option Grant}

def assertion (t : AccountTokens) (second : Int) : Json :=
  .obj [("iss", .str t.account.clientEmail),
    ("scope", .str "https://www.googleapis.com/auth/firebase.messaging"),
    ("aud", .str t.account.tokenUri), ("iat", .int second), ("exp", .int (second + 3600))]

theorem claims_eq {now : Int64} (h : InTime now) : t.claims now = t.assertion now.toInt := by
  have hlifetime : assertionLifetime.toInt = 3600 := rfl
  have hexp : (now + assertionLifetime).toInt = now.toInt + 3600 := by
    unfold InTime at h
    rw [Int64.toInt_add, hlifetime, Int.bmod_def]
    omega
  rw [claims, hexp]
  rfl

def CanCall (t : AccountTokens) : Prop := ∃ url, (t.call "").url? = .ok url

theorem url?_call (t : AccountTokens) (signed : String) :
    (t.call signed).url? = (t.call "").url? := by
  unfold Http.Call.url?
  rfl

def Signs (t : AccountTokens) (w : Surroundings) : Prop :=
  ∀ octets, ∃ signature, w.sign t.key octets = .ok signature

theorem Signs.signed (h : t.Signs w) (claims : Json) :
    ∃ signed, t.key.token w.sign none claims = .ok signed := by
  obtain ⟨signature, hs⟩ := h (Utf8.encode
    (SigningKey.part (t.key.header none) ++ '.' :: SigningKey.part claims))
  exact ⟨_, by rw [SigningKey.token, hs]; rfl⟩

def grantIn? (now : Int64) (a : Http.Answer) : Option Grant :=
  if a.isSuccess then (a.draft?.bind grant?).map fun g => ⟨g.1, now, g.2⟩ else none

inductive Obtains (t : AccountTokens) (w : Surroundings) : Obtained → Prop
  /-- The token in use is given. -/
  | held {a : AccessToken} (current : t.current? w.now = some a) : Obtains t w ⟨t, [], .ok a.text⟩
  | unsigned {reason : String} (due : t.current? w.now = none)
      (signed : t.key.token w.sign none (t.claims w.now) = .error reason) :
      Obtains t w ⟨t, [], .error (.auth reason)⟩
  | unsent {signed : String} {fault : Http.CallFault} (due : t.current? w.now = none)
      (signs : t.key.token w.sign none (t.claims w.now) = .ok signed)
      (unfit : (t.call "").url? = .error fault) : Obtains t w ⟨t, [], .error (.ofFault fault)⟩
  | unanswered {signed : String} {fault : Http.CallFault} (due : t.current? w.now = none)
      (signs : t.key.token w.sign none (t.claims w.now) = .ok signed) (fit : t.CanCall)
      (silent : ∀ a, w.network (t.call signed) ≠ .answered a) :
      Obtains t w ⟨t, [t.call signed], .error (.ofFault fault)⟩
  | refused {signed : String} {a : Http.Answer} {f : Failure} (due : t.current? w.now = none)
      (signs : t.key.token w.sign none (t.claims w.now) = .ok signed) (fit : t.CanCall)
      (answered : w.network (t.call signed) = .answered a) (nothing : grantIn? w.now a = none)
      (failure : outcome w.now a = .error f) : Obtains t w ⟨t, [t.call signed], .error f⟩
  | granted {signed : String} {a : Http.Answer} {g : Grant} (due : t.current? w.now = none)
      (signs : t.key.token w.sign none (t.claims w.now) = .ok signed) (fit : t.CanCall)
      (answered : w.network (t.call signed) = .answered a) (grant : grantIn? w.now a = some g)
      (success : outcome w.now a = .ok g.token) :
      Obtains t w ⟨{ t with cached := some g.token }, [t.call signed], .ok g.text⟩

theorem outcome_cases (now : Int64) (a : Http.Answer) :
    (∃ g, grantIn? now a = some g ∧ outcome now a = .ok g.token) ∨
      grantIn? now a = none ∧ ∃ f, outcome now a = .error f := by
  unfold grantIn? outcome
  cases a.isSuccess with
  | false =>
    refine .inr ⟨rfl, ?_⟩
    rw [if_neg Bool.false_ne_true]
    split <;> exact ⟨_, rfl⟩
  | true =>
    cases a.draft?.bind grant? with
    | none => exact .inr ⟨rfl, _, rfl⟩
    | some granted => exact .inl ⟨_, rfl, rfl⟩

theorem outcome_unavailable {now : Int64} {a : Http.Answer}
    (h : (500 ≤ a.status ∧ a.status ≤ 599) ∨ a.status = 429) :
    outcome now a = .error (.unexpected a.status a.text) := by
  have hnot : ¬(200 ≤ a.status ∧ a.status ≤ 299) := by
    simp only [UInt16.le_iff_toNat_le, ← UInt16.toNat_inj] at h ⊢
    simp at h ⊢
    omega
  rw [outcome, if_neg (by rwa [a.isSuccess_iff]), if_pos (by simpa using h)]

theorem outcome_refused {now : Int64} {a : Http.Answer} (hnot : ¬(200 ≤ a.status ∧ a.status ≤ 299))
    (h : ¬((500 ≤ a.status ∧ a.status ≤ 599) ∨ a.status = 429)) :
    outcome now a = .error (.auth ("token exchange failed with status " ++
      Decimal.text a.status.toNat ++ ": " ++ a.text)) := by
  rw [outcome, if_neg (by rwa [a.isSuccess_iff]), if_neg (by simpa using h)]

theorem outcome_unreadable {now : Int64} {a : Http.Answer} (hgood : 200 ≤ a.status ∧ a.status ≤ 299)
    (hnone : grantIn? now a = none) :
    outcome now a = .error (.auth "invalid token response: error decoding response body") := by
  rw [← a.isSuccess_iff] at hgood
  rw [grantIn?, if_pos hgood, Option.map_eq_none_iff] at hnone
  rw [outcome, if_pos hgood, hnone]
  rfl

theorem obtains (t : AccountTokens) (w : Surroundings) : Obtains t w (t.obtain w) := by
  unfold obtain
  cases hcurrent : t.current? w.now with
  | some a => exact .held hcurrent
  | none =>
    cases hsigned : t.key.token w.sign none (t.claims w.now) with
    | error reason => exact .unsigned hcurrent hsigned
    | ok signed =>
      simp only [Surroundings.exchange, Http.Call.send, url?_call t signed]
      cases hurl : (t.call "").url? with
      | error fault => exact .unsent hcurrent hsigned hurl
      | ok url =>
        have hfit : t.CanCall := ⟨url, hurl⟩
        cases hreply : w.network (t.call signed) with
        | late => exact .unanswered hcurrent hsigned hfit (by simp [hreply])
        | unreachable causes => exact .unanswered hcurrent hsigned hfit (by simp [hreply])
        | broken causes => exact .unanswered hcurrent hsigned hfit (by simp [hreply])
        | answered a =>
          cases outcome_cases w.now a with
          | inl h =>
            obtain ⟨g, hg, ho⟩ := h
            simp only [ho]
            exact .granted hcurrent hsigned hfit hreply hg ho
          | inr h =>
            obtain ⟨hg, f, ho⟩ := h
            simp only [ho]
            exact .refused hcurrent hsigned hfit hreply hg ho

/-- Where a token is given, the rules leave one outcome. -/
theorem Obtains.eq_of_ok {o : Obtained} {token : String} (h : t.Obtains w o)
    (hgiven : o.result = .ok token) : t.obtain w = o := by
  cases h with
  | held current => simp only [obtain, current]
  | unsigned | unsent | unanswered | refused => cases hgiven
  | @granted signed a g due signs fit answered grant success =>
    obtain ⟨url, hurl⟩ := fit
    have hgoes : (t.call signed).GoesOut :=
      ⟨url, Http.Call.url?_eq_ok.mp ((t.url?_call signed).trans hurl)⟩
    simp only [obtain, due, signs, Surroundings.exchange_answered hgoes answered, success]
    rfl

theorem obtain_current {a : AccessToken} (h : t.current? w.now = some a) :
    t.obtain w = ⟨t, [], .ok a.text⟩ := by
  simp only [obtain, h]

theorem calls_obtain (t : AccountTokens) (w : Surroundings) :
    (t.obtain w).calls = [] ∨ ∃ signed, t.key.token w.sign none (t.claims w.now) = .ok signed ∧
      (t.obtain w).calls = [t.call signed] := by
  have h := t.obtains w
  generalize t.obtain w = o at h ⊢
  cases h with
  | held | unsigned | unsent => exact .inl rfl
  | unanswered due signs | refused due signs | granted due signs => exact .inr ⟨_, signs, rfl⟩

theorem calls_of_mem {c : Http.Call} (h : c ∈ (t.obtain w).calls) :
    (t.obtain w).calls = [c] ∧
      ∃ signed, t.key.token w.sign none (t.claims w.now) = .ok signed ∧ c = t.call signed := by
  cases t.calls_obtain w with
  | inl hnil => exact absurd h (by simp [hnil])
  | inr hone =>
    obtain ⟨signed, hs, hone⟩ := hone
    rw [hone, List.mem_singleton] at h
    exact ⟨h ▸ hone, signed, hs, h⟩

theorem calls_ne_nil (hsigns : t.Signs w) :
    (t.obtain w).calls ≠ [] ↔ t.current? w.now = none ∧ t.CanCall := by
  have h := t.obtains w
  generalize t.obtain w = o at h ⊢
  cases h with
  | held current => simp [current]
  | unsigned due signed =>
    obtain ⟨text, ht⟩ := hsigns.signed (t.claims w.now)
    exact nomatch signed.symm.trans ht
  | unsent due signs unfit => simp [CanCall, unfit]
  | unanswered due signs fit | refused due signs fit | granted due signs fit => simp [due, fit]

theorem result_answered {c : Http.Call} {a : Http.Answer} (hc : c ∈ (t.obtain w).calls)
    (ha : w.network c = .answered a) :
    (t.obtain w).result = (outcome w.now a).map AccessToken.text := by
  have h := t.obtains w
  generalize t.obtain w = o at h hc ⊢
  cases h with
  | held | unsigned | unsent => cases hc
  | unanswered due signs fit silent =>
    obtain rfl := List.mem_singleton.mp hc
    exact absurd ha (silent a)
  | refused due signs fit answered nothing failure =>
    obtain rfl := List.mem_singleton.mp hc
    obtain rfl := Http.Reply.answered.inj (answered.symm.trans ha)
    rw [failure]
    rfl
  | granted due signs fit answered grant success =>
    obtain rfl := List.mem_singleton.mp hc
    obtain rfl := Http.Reply.answered.inj (answered.symm.trans ha)
    rw [success]
    rfl

theorem result_unanswered (hsigns : t.Signs w)
    (hdue : t.current? w.now = none)
    (hnone : ∀ c ∈ (t.obtain w).calls, ∀ a, w.network c ≠ .answered a) :
    ∃ fault, (t.obtain w).result = .error (.ofFault fault) := by
  have h := t.obtains w
  generalize t.obtain w = o at h hnone ⊢
  cases h with
  | held current => exact nomatch hdue.symm.trans current
  | unsigned due signed =>
    obtain ⟨text, ht⟩ := hsigns.signed (t.claims w.now)
    exact nomatch signed.symm.trans ht
  | unsent | unanswered => exact ⟨_, rfl⟩
  | refused due signs fit answered | granted due signs fit answered =>
    exact absurd answered (hnone _ List.mem_cons_self _)

/-! ## Grants of a call -/

def granted? (t : AccountTokens) (w : Surroundings) : Option Grant :=
  match (t.obtain w).calls with
  | [c] =>
    match w.network c with
    | .answered a => grantIn? w.now a
    | _ => none
  | _ => none

theorem granted?_eq_none (h : ∀ c ∈ (t.obtain w).calls, ∀ a, w.network c ≠ .answered a) :
    t.granted? w = none := by
  unfold granted?
  split
  · next c hc =>
    split
    · next a ha => exact absurd ha (h c (hc ▸ List.mem_cons_self) a)
    · rfl
  · rfl

theorem granted?_answered {c : Http.Call} {a : Http.Answer} (hc : (t.obtain w).calls = [c])
    (ha : w.network c = .answered a) : t.granted? w = grantIn? w.now a := by
  simp only [granted?, hc, ha]

theorem time_of_granted? {g : Grant} (h : t.granted? w = some g) : g.time = w.now := by
  unfold granted? grantIn? at h
  split at h
  · split at h
    · split at h
      · obtain ⟨granted, -, rfl⟩ := Option.map_eq_some_iff.mp h
        rfl
      · cases h
    · cases h
  · cases h

/-- A grant, or its absence, is all that becomes of a call. -/
theorem obtain_granted? (t : AccountTokens) (w : Surroundings) :
    (t.obtain w).tokens = { t with cached := ((t.granted? w).map Grant.token).or t.cached } ∧
    (∀ g, t.granted? w = some g → (t.obtain w).result = .ok g.text) ∧
    (t.current? w.now = none → t.granted? w = none → ∃ f, (t.obtain w).result = .error f) := by
  have h := t.obtains w
  generalize ho : t.obtain w = o at h
  cases h with
  | held current =>
    rw [granted?_eq_none (by simp [ho]), current]
    exact ⟨rfl, nofun, nofun⟩
  | unsigned | unsent =>
    rw [granted?_eq_none (by simp [ho])]
    exact ⟨rfl, nofun, fun _ _ => ⟨_, rfl⟩⟩
  | unanswered due signs fit silent =>
    rw [granted?_eq_none (by simpa [ho] using silent)]
    exact ⟨rfl, nofun, fun _ _ => ⟨_, rfl⟩⟩
  | refused due signs fit answered nothing =>
    rw [granted?_answered (congrArg Obtained.calls ho) answered, nothing]
    exact ⟨rfl, nofun, fun _ _ => ⟨_, rfl⟩⟩
  | granted due signs fit answered grant =>
    rw [granted?_answered (congrArg Obtained.calls ho) answered, grant]
    exact ⟨rfl, fun g hg => by rw [Option.some.inj hg], nofun⟩

/-! ## Any number of calls -/

def after (t : AccountTokens) : List Surroundings → AccountTokens
  | [] => t
  | w :: ws => (t.obtain w).tokens.after ws

def grants (t : AccountTokens) : List Surroundings → List Grant
  | [] => []
  | w :: ws => (t.granted? w).toList ++ (t.obtain w).tokens.grants ws

theorem after_eq (t : AccountTokens) (ws : List Surroundings) :
    t.after ws = { t with cached := ((t.grants ws).getLast?.map Grant.token).or t.cached } := by
  induction ws generalizing t with
  | nil => rfl
  | cons w ws ih =>
    rw [after, ih, grants, List.getLast?_append, (t.obtain_granted? w).1]
    cases (grants _ ws).getLast? with
    | some g => rfl
    | none => cases t.granted? w <;> rfl

theorem time_of_mem_grants {ws : List Surroundings} {g : Grant} (h : g ∈ t.grants ws) :
    ∃ w ∈ ws, g.time = w.now := by
  induction ws generalizing t with
  | nil => cases h
  | cons w ws ih =>
    cases List.mem_append.mp h with
    | inl h => exact ⟨w, List.mem_cons_self, time_of_granted? (Option.mem_toList.mp h)⟩
    | inr h =>
      obtain ⟨v, hv, hg⟩ := ih h
      exact ⟨v, List.mem_cons_of_mem w hv, hg⟩

/-- A token is asked for: there is none yet, or the last one is over. -/
def IsDue (last : Option Grant) (now : Int64) : Prop := ∀ g, last = some g → g.IsOver now

theorem current?_eq_none {now : Int64} (hcached : t.cached = last.map Grant.token)
    (htime : ∀ g, last = some g → InTime g.time) (hnow : InTime now) :
    t.current? now = none ↔ IsDue last now := by
  rw [current?, hcached]
  cases last with
  | none => simp [IsDue]
  | some g =>
    simp only [IsDue, Option.map_some, Option.filter_eq_none_iff, Option.some.injEq,
      decide_eq_true_iff, forall_eq', Grant.not_lt_expiresAt (htime g rfl) hnow]

/-- What a call does after the grants so far. -/
structure Kept (t : AccountTokens) (last : Option Grant) (w : Surroundings) (o : Obtained) :
    Prop where
  /-- An assertion goes out just if a token is due, as far as the host can be called. -/
  contact : o.calls ≠ [] ↔ IsDue last w.now ∧ t.CanCall
  once : o.calls.length ≤ 1
  /-- The times in an assertion are exact. -/
  posts : ∀ c ∈ o.calls, ∃ signed, t.key.token w.sign none (t.assertion w.now.toInt) = .ok signed ∧
    c = t.call signed
  held : ¬IsDue last w.now → o.tokens = t ∧ ∃ g, last = some g ∧ o.result = .ok g.text
  renewed : ∀ g, t.granted? w = some g →
    o.tokens = { t with cached := some g.token } ∧ o.result = .ok g.text
  failed : IsDue last w.now → t.granted? w = none → o.tokens = t ∧ ∃ f, o.result = .error f
  unanswered : IsDue last w.now → (∀ c ∈ o.calls, ∀ a, w.network c ≠ .answered a) →
    ∃ fault, o.result = .error (.ofFault fault)
  unavailable : ∀ c ∈ o.calls, ∀ a, w.network c = .answered a →
    (500 ≤ a.status ∧ a.status ≤ 599) ∨ a.status = 429 →
    o.result = .error (.unexpected a.status a.text)
  refused : ∀ c ∈ o.calls, ∀ a, w.network c = .answered a → ¬(200 ≤ a.status ∧ a.status ≤ 299) →
    ¬((500 ≤ a.status ∧ a.status ≤ 599) ∨ a.status = 429) →
    o.result = .error (.auth ("token exchange failed with status " ++
      Decimal.text a.status.toNat ++ ": " ++ a.text))
  unreadable : ∀ c ∈ o.calls, ∀ a, w.network c = .answered a → 200 ≤ a.status → a.status ≤ 299 →
    t.granted? w = none →
    o.result = .error (.auth "invalid token response: error decoding response body")

theorem kept (hsigns : t.Signs w) (hcached : t.cached = last.map Grant.token)
    (htime : ∀ g, last = some g → InTime g.time) (hnow : InTime w.now) :
    Kept t last w (t.obtain w) := by
  have hdue := current?_eq_none hcached htime hnow
  obtain ⟨htokens, hresult, herror⟩ := t.obtain_granted? w
  refine
    { contact := by rw [calls_ne_nil hsigns, hdue]
      once := ?once
      posts := fun c hc => claims_eq hnow ▸ (calls_of_mem hc).2
      held := ?held
      renewed := fun g hg => ⟨by rw [htokens, hg]; rfl, hresult g hg⟩
      failed := fun h hg => ⟨by rw [htokens, hg]; rfl, herror (hdue.mpr h) hg⟩
      unanswered := fun h => result_unanswered hsigns (hdue.mpr h)
      unavailable := ?unavailable
      refused := ?refused
      unreadable := ?unreadable }
  case once =>
    cases t.calls_obtain w with
    | inl h => simp [h]
    | inr h =>
      obtain ⟨signed, -, h⟩ := h
      simp [h]
  case held =>
    intro hnot
    cases hcurrent : t.current? w.now with
    | none => exact absurd (hdue.mp hcurrent) hnot
    | some a =>
      have ha : last.map Grant.token = some a :=
        hcached ▸ (Option.filter_eq_some_iff.mp hcurrent).1
      obtain ⟨g, hg, rfl⟩ := Option.map_eq_some_iff.mp ha
      rw [obtain_current hcurrent]
      exact ⟨rfl, g, hg, rfl⟩
  case unavailable =>
    intro c hc a ha h
    rw [result_answered hc ha, outcome_unavailable h]
    rfl
  case refused =>
    intro c hc a ha hnot h
    rw [result_answered hc ha, outcome_refused hnot h]
    rfl
  case unreadable =>
    intro c hc a ha hlow hhigh hg
    rw [granted?_answered (calls_of_mem hc).1 ha] at hg
    rw [result_answered hc ha, outcome_unreadable ⟨hlow, hhigh⟩ hg]
    rfl

def fresh (account : Account) (key : SigningKey) : AccountTokens := { account, key }

/-- Whatever calls came before, and whatever was answered to them, a call goes by the last grant.
The end of a token is exact wherever it is in the range of the clock's integers. -/
theorem calls_kept (account : Account) (key : SigningKey) (ws : List Surroundings)
    (w : Surroundings) (htime : ∀ v ∈ ws, InTime v.now) (hnow : InTime w.now)
    (hsigns : (fresh account key).Signs w) :
    let t := (fresh account key).after ws
    let last := ((fresh account key).grants ws).getLast?
    t.account = account ∧ t.key = key ∧ Kept t last w (t.obtain w) ∧
    (last = none → IsDue last w.now) ∧
    ∀ g, last = some g → -2 ^ 63 ≤ g.renewal → g.renewal < 2 ^ 63 →
      (IsDue last w.now ↔ g.time.toInt + g.lifetime.toInt - 60 ≤ w.now.toInt) := by
  intro t last
  have ht : t = { fresh account key with cached := last.map Grant.token } := by
    simp only [t, last, after_eq, fresh, Option.or_none]
  have hlast : ∀ g, last = some g → InTime g.time := by
    intro g hg
    obtain ⟨v, hv, hgtime⟩ := time_of_mem_grants (List.mem_of_getLast? hg)
    exact hgtime ▸ htime v hv
  refine ⟨by rw [ht]; rfl, by rw [ht]; rfl, kept (ht ▸ hsigns) (by rw [ht]) hlast hnow, ?_, ?_⟩
  · intro hnone g hg
    exact nomatch hnone.symm.trans hg
  · intro g hg hlow hhigh
    rw [IsDue, hg]
    simp only [Option.some.injEq, forall_eq']
    exact Grant.isOver_iff hlow hhigh

def clerk : Account := ⟨"clerk", "", "https://h/token"⟩

def grantText (lifetime : String) : String :=
  "\x7b\"access_token\":\"A\",\"expires_in\":" ++ lifetime ++ "\x7d"

def granting (lifetime : String) (now : Int64) : Surroundings where
  now
  sign := fun _ _ => .ok []
  network := fun _ => .answered ⟨200, Utf8.encode (grantText lifetime).toList, true⟩

theorem calls_kept_hour :
    let t := (fresh clerk ⟨.rs256, []⟩).after [granting "3600" 1000]
    let last := ((fresh clerk ⟨.rs256, []⟩).grants [granting "3600" 1000]).getLast?
    last = some ⟨"A", 1000, 3600⟩ ∧ ¬IsDue last 4539 ∧ IsDue last 4540 ∧
    Kept t last (granting "3600" 4539) (t.obtain (granting "3600" 4539)) ∧
    Kept t last (granting "3600" 4540) (t.obtain (granting "3600" 4540)) := by
  intro t last
  have hlast : last = some ⟨"A", 1000, 3600⟩ := by decide +kernel
  have htime : ∀ v ∈ [granting "3600" 1000], InTime v.now := by
    intro v hv
    rw [List.mem_singleton.mp hv]
    decide
  obtain ⟨-, -, hheld, -, hexact⟩ := calls_kept clerk ⟨.rs256, []⟩ _ (granting "3600" 4539) htime
    (by decide) fun _ => ⟨[], rfl⟩
  obtain ⟨-, -, hdue, -, hexact'⟩ := calls_kept clerk ⟨.rs256, []⟩ _ (granting "3600" 4540) htime
    (by decide) fun _ => ⟨[], rfl⟩
  refine ⟨hlast, ?_, ?_, hheld, hdue⟩
  · exact fun h => absurd ((hexact _ hlast (by decide) (by decide)).mp h) (by decide)
  · exact (hexact' _ hlast (by decide) (by decide)).mpr (by decide)

/-- A token that is to hold for as long as can be is not used a second time: its end wraps. -/
theorem calls_kept_endless :
    let w := granting "9223372036854775807" 1700000000
    let t := fresh clerk ⟨.rs256, []⟩
    let g : Grant := ⟨"A", 1700000000, 9223372036854775807⟩
    (t.obtain w).result.toOption = some "A" ∧ t.granted? w = some g ∧
    g.token.expiresAt.toInt ≠ g.time.toInt + g.lifetime.toInt ∧
    ¬g.time.toInt + g.lifetime.toInt - 60 ≤ w.now.toInt ∧
    ((t.obtain w).tokens.obtain w).calls ≠ [] := by
  decide +kernel

end AccountTokens
end PushRelay
