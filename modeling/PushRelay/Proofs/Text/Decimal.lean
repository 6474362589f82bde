import Mathlib.Algebra.Group.Nat.Defs
import PushRelay.Text.Numeral

/-! The digits of a number and the number of the digits. -/
namespace PushRelay.Decimal

theorem toNat_digit {d : Nat} (h : d < 10) : (digit d).toNat = 48 + d := by
  have hall : ∀ d < 10, (digit d).toNat = 48 + d := by decide
  exact hall d h

theorem isDigit_digit {d : Nat} (h : d < 10) : (digit d).isDigit = true := by
  have hall : ∀ d < 10, (digit d).isDigit = true := by decide
  exact hall d h

theorem digits_ne_nil (n : Nat) : digits n ≠ [] := by
  rw [digits]
  split <;> simp

theorem isDigit_of_mem_digits (n : Nat) : ∀ c ∈ digits n, c.isDigit = true := by
  induction n using digits.induct with
  | case1 n h =>
    intro c hc
    rw [digits, if_pos h] at hc
    rw [List.mem_singleton.mp hc]
    exact isDigit_digit h
  | case2 n h ih =>
    intro c hc
    rw [digits, if_neg h] at hc
    rcases List.mem_append.mp hc with hc | hc
    · exact ih c hc
    · rw [List.mem_singleton.mp hc]
      exact isDigit_digit (Nat.mod_lt n (by omega))

theorem value_append (ds : List Char) (c : Char) :
    value (ds ++ [c]) = 10 * value ds + (c.toNat - 48) := by
  rw [value, List.foldl_append]
  rfl

theorem value_digits (n : Nat) : value (digits n) = n := by
  induction n using digits.induct with
  | case1 n h =>
    rw [digits, if_pos h, value, List.foldl_cons, List.foldl_nil, toNat_digit h]
    omega
  | case2 n h ih =>
    have hd := toNat_digit (Nat.mod_lt n (show 0 < 10 by omega))
    rw [digits, if_neg h, value_append, ih, hd]
    omega

/-- Only zero begins with the digit zero. -/
theorem head?_digits {n : Nat} (h : (digits n).head? = some '0') : digits n = ['0'] := by
  induction n using digits.induct with
  | case1 n hn =>
    rw [digits, if_pos hn] at h ⊢
    rw [Option.some.inj h]
  | case2 n hn ih =>
    have hhead : (digits (n / 10)).head? = some '0' := by
      rw [digits, if_neg hn] at h
      cases hd : digits (n / 10) with
      | nil => exact absurd hd (digits_ne_nil _)
      | cons c cs => rwa [hd] at h
    have hz := congrArg value (ih hhead)
    rw [value_digits] at hz
    have : value ['0'] = 0 := by decide
    omega

theorem length_digits {n k : Nat} (h : n < 10 ^ (k + 1)) : (digits n).length ≤ k + 1 := by
  induction k generalizing n with
  | zero =>
    rw [digits, if_pos (by omega)]
    exact Nat.le_refl 1
  | succ k ih =>
    rw [digits]
    split
    · exact Nat.le_add_left 1 _
    · have := ih (n := n / 10) (by omega)
      rw [List.length_append, List.length_singleton]
      omega

/-! ## Numerals that are written -/

/-- Digits that can begin a number: a zero that leads stands alone. -/
structure Leads (ds : List Char) : Prop where
  ne_nil : ds ≠ []
  isDigit : ∀ c ∈ ds, c.isDigit = true
  zero : ds.head? = some '0' → ds = ['0']

theorem leads_digits (n : Nat) : Leads (digits n) :=
  ⟨digits_ne_nil n, isDigit_of_mem_digits n, head?_digits⟩

namespace Leads
variable {ds : List Char}

theorem exists_cons (h : Leads ds) : ∃ c cs, ds = c :: cs ∧ c.isDigit = true := by
  cases ds with
  | nil => exact absurd rfl h.ne_nil
  | cons c cs => exact ⟨c, cs, rfl, h.isDigit c List.mem_cons_self⟩

theorem append {es : List Char} (h : Leads ds) (hzero : ds ≠ ['0'])
    (hes : ∀ c ∈ es, c.isDigit = true) : Leads (ds ++ es) where
  ne_nil := List.append_ne_nil_of_left_ne_nil h.ne_nil es
  isDigit c hc := (List.mem_append.mp hc).elim (h.isDigit c) (hes c)
  zero hhead := by
    obtain ⟨c, cs, rfl, -⟩ := h.exists_cons
    exact absurd (h.zero hhead) hzero

theorem take {k : Nat} (h : Leads ds) (hk : 0 < k) : Leads (ds.take k) where
  ne_nil := by
    rw [ne_eq, List.take_eq_nil_iff, not_or]
    exact ⟨Nat.ne_of_gt hk, h.ne_nil⟩
  isDigit c hc := h.isDigit c (List.mem_of_mem_take hc)
  zero hhead := by
    rw [List.head?_take, if_neg (Nat.ne_of_gt hk)] at hhead
    rw [h.zero hhead, List.take_of_length_le hk]

end Leads

/-! ## Numerals that are read -/

/-- A run of digits and its number; zeros may lead. -/
def Spells (ds : List Char) (n : Nat) : Prop := ds ≠ [] ∧ (∀ c ∈ ds, c.isDigit) ∧ value ds = n

def Unsigned (s : List Char) (n : Nat) : Prop := ∃ ds, Spells ds n ∧ (s = ds ∨ s = '+' :: ds)

def Signed (s : List Char) (n : Int) : Prop :=
  (∃ m : Nat, Unsigned s m ∧ n = m) ∨
    ∃ (ds : List Char) (m : Nat), Spells ds m ∧ s = '-' :: ds ∧ n = -m

end PushRelay.Decimal

namespace PushRelay.Numeral
open Decimal (Leads digits)

structure Layout.Sound (l : Layout) : Prop where
  whole : Leads l.whole
  fraction : ∀ c ∈ l.fraction, c.isDigit = true

theorem layout_sound (n : Numeral) : n.layout.Sound := by
  unfold layout
  generalize trimZeros n.significand n.exponent = trimmed
  obtain ⟨units, e⟩ := trimmed
  have hleads := Decimal.leads_digits units
  have hzeros (k : Nat) : ∀ c ∈ List.replicate k '0', c.isDigit = true := by
    intro c hc
    rw [(List.mem_replicate.mp hc).2]
    rfl
  have hzero : Leads ['0'] := ⟨nofun, hzeros 1, fun _ => rfl⟩
  simp only
  by_cases hunits : units = 0
  · rw [if_pos hunits]
    exact ⟨hzero, hzeros 1⟩
  have hne : digits units ≠ ['0'] := by
    intro h
    have hvalue := Decimal.value_digits units
    rw [h] at hvalue
    exact hunits hvalue.symm
  rw [if_neg hunits]
  split
  · exact ⟨hleads.append hne (hzeros _), hzeros 1⟩
  split
  · exact ⟨hleads.take (by omega), fun c hc => hleads.isDigit c (List.mem_of_mem_drop hc)⟩
  split
  · exact ⟨hzero, fun c hc => (List.mem_append.mp hc).elim (hzeros _ c) (hleads.isDigit c)⟩
  · exact ⟨hleads.take Nat.one_pos, fun c hc => hleads.isDigit c (List.mem_of_mem_drop hc)⟩

end PushRelay.Numeral
