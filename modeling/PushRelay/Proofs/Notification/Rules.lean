import PushRelay.Notification.Rules

/-! A notification meets the rules if each of its tokens and its content does; of the rules that it
breaks the first one is found. -/
namespace PushRelay

theorem Platform.code_eq {n : Int64} {p : Platform} (h : ofCode? n = some p) : p.code = n := by
  rw [ofCode?] at h
  have hp := List.find?_some h
  exact eq_of_beq hp

structure Content.Fits (c : Content) (policy : Policy) (p : Platform) : Prop where
  code : Platform.ofCode? c.platform = some p
  text : c.textViolation? policy p = none
  pushType : ∀ t, c.pushType = some t → (PushType.ofName? t).isSome

theorem Content.Fits.platform_eq {c : Content} {policy : Policy} {p : Platform}
    (h : c.Fits policy p) : c.platform = p.code := (Platform.code_eq h.code).symm

theorem Notification.check_eq_ok {n : Notification} {policy : Policy} {p : Platform} :
    n.check policy = .ok p ↔ (∀ t ∈ n.tokens, t.isEmpty = false) ∧ n.content.Fits policy p := by
  have hany : n.tokens.any String.isEmpty = false ↔ ∀ t ∈ n.tokens, t.isEmpty = false := by
    simp only [List.any_eq_false, Bool.not_eq_true]
  rw [← hany]
  constructor
  · intro h
    cases ha : n.tokens.any String.isEmpty with
    | true => simp [check, ha] at h
    | false =>
      cases hc : Platform.ofCode? n.content.platform with
      | none => simp [check, ha, hc] at h
      | some q =>
        cases ht : n.content.textViolation? policy q with
        | some v => simp [check, ha, hc, ht] at h
        | none =>
          cases hp : n.content.pushType with
          | none =>
            simp [check, ha, hc, ht, hp] at h
            subst h
            exact ⟨rfl, hc, ht, by simp [hp]⟩
          | some t =>
            cases hs : (PushType.ofName? t).isSome with
            | false => simp [check, ha, hc, ht, hp, hs] at h
            | true =>
              simp [check, ha, hc, ht, hp, hs] at h
              subst h
              exact ⟨rfl, hc, ht, by simp [hp, hs]⟩
  · rintro ⟨ha, hc, ht, hp⟩
    cases ho : n.content.pushType with
    | none => simp [check, ha, hc, ht, ho]
    | some t => simp [check, ha, hc, ht, ho, hp t ho]

/-- What it means to break a rule. -/
def Notification.Breaks (n : Notification) (policy : Policy) : Violation → Prop
  | .emptyToken => "" ∈ n.tokens
  | .invalidPlatform => n.content.platform ∉ [1, 2, 3]
  | .emptyMessage => n.content.platform ∈ [1, 2] ∧ n.content.message = "" ∧
      policy.allowsEmptyMessage = false
  | .emptyTitleOrBody => n.content.platform = 3 ∧ (n.content.title = "" ∨ n.content.body = "")
  | .invalidPushType => ∃ t ∈ n.content.pushType, t ∉ ["alert", "background"]

instance (n : Notification) (policy : Policy) : DecidablePred (n.Breaks policy) := fun v =>
  match v with
  | .emptyToken => inferInstanceAs (Decidable ("" ∈ n.tokens))
  | .invalidPlatform => inferInstanceAs (Decidable (n.content.platform ∉ [1, 2, 3]))
  | .emptyMessage => inferInstanceAs (Decidable (n.content.platform ∈ [1, 2] ∧
      n.content.message = "" ∧ policy.allowsEmptyMessage = false))
  | .emptyTitleOrBody => inferInstanceAs (Decidable (n.content.platform = 3 ∧
      (n.content.title = "" ∨ n.content.body = "")))
  | .invalidPushType => inferInstanceAs (Decidable (∃ t ∈ n.content.pushType,
      t ∉ ["alert", "background"]))

/-- The first of the rules that a notification breaks. -/
def Notification.broken? (n : Notification) (policy : Policy) : Option Violation :=
  Violation.all.find? fun v => n.Breaks policy v

theorem Platform.ofCode?_eq_none {n : Int64} : ofCode? n = none ↔ n ∉ [1, 2, 3] := by
  rw [ofCode?, List.find?_eq_none]
  simp [all, code, @eq_comm _ n]

theorem PushType.ofName?_isSome {t : String} :
    (ofName? t).isSome ↔ t ∈ ["alert", "background"] := by
  simp [ofName?, name, @eq_comm _ t]

namespace Notification
variable {n : Notification} {policy : Policy} {v : Violation} {p : Platform}

theorem textViolation?_eq (hp : n.content.platform = p.code) :
    n.content.textViolation? policy p =
      ([.emptyMessage, .emptyTitleOrBody] : List Violation).find? fun v => n.Breaks policy v := by
  have h1 : n.content.platform ∈ [1, 2] ↔ p = .ios ∨ p = .android := by
    rw [hp]
    cases p <;> decide
  have h3 : n.content.platform = 3 ↔ p = .fcmV1 := by
    rw [hp]
    cases p <;> decide
  cases p with
  | ios | android =>
    by_cases hm : n.content.message = "" ∧ policy.allowsEmptyMessage = false
    · simp [Content.textViolation?, Breaks, h1, hm]
    · have hm' : (n.content.message.isEmpty && !policy.allowsEmptyMessage) = false := by
        simpa using hm
      simp [Content.textViolation?, Breaks, h1, h3, hm, hm']
  | fcmV1 =>
    by_cases ht : n.content.title = "" ∨ n.content.body = ""
    · simp [Content.textViolation?, Breaks, h1, h3, ht]
    · simp [Content.textViolation?, Breaks, h1, h3, ht]

/-- A notification that breaks no rule is for the platform of its code; of the broken rules the
first one counts. -/
theorem check_cases (n : Notification) (policy : Policy) :
    (∃ v, n.check policy = .error v ∧ n.broken? policy = some v) ∨
      ∃ p, n.check policy = .ok p ∧ n.broken? policy = none ∧ n.content.platform = p.code := by
  have hany : n.tokens.any String.isEmpty = true ↔ n.Breaks policy .emptyToken := by simp [Breaks]
  by_cases h0 : n.Breaks policy .emptyToken
  · exact .inl ⟨.emptyToken, by simp [check, hany.mpr h0], by simp [broken?, Violation.all, h0]⟩
  have hclear : n.tokens.any String.isEmpty = false := Bool.eq_false_iff.mpr (mt hany.mp h0)
  cases hp : Platform.ofCode? n.content.platform with
  | none =>
    have h1 : n.Breaks policy .invalidPlatform := Platform.ofCode?_eq_none.mp hp
    exact .inl ⟨.invalidPlatform, by simp [check, hclear, hp],
      by simp [broken?, Violation.all, h0, h1]⟩
  | some p =>
    have hcode : n.content.platform = p.code := (Platform.code_eq hp).symm
    have h1 : ¬n.Breaks policy .invalidPlatform := fun h =>
      nomatch hp.symm.trans (Platform.ofCode?_eq_none.mpr h)
    have ht : n.content.textViolation? policy p = _ := textViolation?_eq hcode
    by_cases h2 : n.Breaks policy .emptyMessage
    · simp only [List.find?_cons, h2, decide_true] at ht
      exact .inl ⟨.emptyMessage, by simp [check, hclear, hp, ht],
        by simp [broken?, Violation.all, h0, h1, h2]⟩
    by_cases h3 : n.Breaks policy .emptyTitleOrBody
    · simp only [List.find?_cons, h2, h3, decide_true, decide_false] at ht
      exact .inl ⟨.emptyTitleOrBody, by simp [check, hclear, hp, ht],
        by simp [broken?, Violation.all, h0, h1, h2, h3]⟩
    simp only [List.find?_cons, List.find?_nil, h2, h3, decide_false] at ht
    by_cases h4 : n.Breaks policy .invalidPushType
    · have hnone : n.broken? policy = some .invalidPushType := by
        simp [broken?, Violation.all, h0, h1, h2, h3, h4]
      obtain ⟨t, htype, hname⟩ := h4
      have hn : (PushType.ofName? t).isSome = false :=
        Bool.eq_false_iff.mpr (mt PushType.ofName?_isSome.mp hname)
      have htype : n.content.pushType = some t := htype
      exact .inl ⟨.invalidPushType, by simp [check, hclear, hp, ht, htype, hn], hnone⟩
    · refine .inr ⟨p, ?_, by simp [broken?, Violation.all, h0, h1, h2, h3, h4], hcode⟩
      cases htype : n.content.pushType with
      | none => simp [check, hclear, hp, ht, htype]
      | some t =>
        have hn : (PushType.ofName? t).isSome :=
          PushType.ofName?_isSome.mpr (Decidable.of_not_not fun hname => h4 ⟨t, htype, hname⟩)
        simp [check, hclear, hp, ht, htype, hn]

theorem check_eq_error : n.check policy = .error v ↔ n.broken? policy = some v := by
  obtain ⟨w, hc, hb⟩ | ⟨p, hc, hb, -⟩ := check_cases n policy
  · simp [hc, hb]
  · simp [hc, hb]

end Notification
end PushRelay
