import Mathlib.Tactic.ByContra
import PushRelay.Json.Basic
import PushRelay.Json.Draft
import PushRelay.Proofs.Text.Decimal
import PushRelay.Proofs.Text.Utf8

/-! The text of a JSON value is read back as that value. -/
namespace PushRelay

namespace Json

/-- What a layout is read as. -/
def written (negative : Bool) (l : Numeral.Layout) : Numeral :=
  ⟨negative, Decimal.value (l.whole ++ l.fraction), l.exponent.getD 0 - l.fraction.length,
    l.fraction.isEmpty && l.exponent.isNone⟩

mutual

def draft : Json → Draft
  | null => .null
  | bool b => .bool b
  | int n => .num ⟨n < 0, n.natAbs, 0, true⟩
  | decimal units places => .num (written false (decimalLayout units places))
  | str s => .str (s.toList.map some)
  | arr items => .arr (itemDrafts items)
  | obj members => .obj (memberDrafts members)

def itemDrafts : List Json → List Draft
  | [] => []
  | v :: rest => v.draft :: itemDrafts rest

def memberDrafts : List (String × Json) → List (List Letter × Draft)
  | [] => []
  | (k, v) :: rest => (k.toList.map some, v.draft) :: memberDrafts rest

end
end Json

namespace Draft
variable {done : List Letter} {rest : List Letter}

theorem skip_cons {l : Letter} (h : isGap l = false) : skip (l :: rest) = l :: rest := by
  rw [skip, List.dropWhile_cons_of_neg (by simp [h])]

theorem string_plain {c : Char} (hb : c ≠ '\\') (hq : c ≠ '"') (hc : 32 ≤ c.toNat) :
    string done none (some c :: rest) = string (some c :: done) none rest := by
  have hlt : ¬c.toNat < 32 := by omega
  rw [string.eq_4 _ _ _ _ (fun _ _ _ _ _ _ he => hb he) (fun _ _ _ he => hb he) hq]
  simp [hlt, hb]

theorem string_simple {e c : Char} (hu : e ≠ 'u') (he : simpleEscape? e = some c) :
    string done none (some '\\' :: some e :: rest) = string (some c :: done) none rest := by
  rw [string.eq_2 _ _ _ _ (fun _ _ _ _ _ _ h => hu h), he]
  rfl

theorem string_control {c : Char} (hc : c.toNat < 32) :
    string done none (some '\\' :: some 'u' :: some '0' :: some '0' ::
      some (Json.hexDigit (c.toNat / 16)) :: some (Json.hexDigit (c.toNat % 16)) :: rest) =
      string (some c :: done) none rest := by
  have hall : ∀ n < 32, unit? (some '0') (some '0') (some (Json.hexDigit (n / 16)))
      (some (Json.hexDigit (n % 16))) = some n := by decide
  have hh : isHigh c.toNat = false := by
    simp only [isHigh, Bool.and_eq_false_iff, decide_eq_false_iff_not]
    omega
  have hl : isLow c.toNat = false := by
    simp only [isLow, Bool.and_eq_false_iff, decide_eq_false_iff_not]
    omega
  rw [string, hall _ hc]
  simp [hh, hl, ofUnit, Char.ofNat_toNat]

theorem string_escape (c : Char) :
    string done none ((Json.escape c).map some ++ rest) = string (some c :: done) none rest := by
  unfold Json.escape
  split
  case h_8 =>
    split
    · next hc => exact string_control hc
    · next hq hb _ _ _ _ _ hc => exact string_plain hb hq (by omega)
  all_goals exact string_simple (by decide) rfl

theorem string_quoted (cs : List Char) :
    string done none ((cs.flatMap Json.escape).map some ++ some '"' :: rest) =
      some (done.reverse ++ cs.map some, rest) := by
  induction cs generalizing done with
  | nil => simp [string]
  | cons c cs ih =>
    rw [List.flatMap_cons, List.map_append, List.append_assoc, string_escape, ih]
    simp

/-- The text goes on with nothing that could belong to a number. -/
def Ends (s : List Letter) : Prop :=
  ∀ l, s.head? = some l → isDigit l = false ∧ l ≠ some '.' ∧ l ≠ some 'e' ∧ l ≠ some 'E'

theorem ends_nil : Ends [] := fun _ h => nomatch h

theorem ends_cons {c : Char} (h : c ∈ [',', ']', '\x7d']) : Ends (some c :: rest) := by
  intro l hl
  cases hl
  simp only [List.mem_cons, List.not_mem_nil, or_false] at h
  rcases h with rfl | rfl | rfl <;> decide

theorem takeWhile_digits {ds : List Char} (hd : ∀ c ∈ ds, c.isDigit = true)
    (hr : ∀ l, rest.head? = some l → isDigit l = false) :
    (ds.map some ++ rest).takeWhile isDigit = ds.map some ∧
      (ds.map some ++ rest).dropWhile isDigit = rest := by
  have hall : ∀ l ∈ ds.map some, isDigit l = true := by
    intro l hl
    obtain ⟨c, hc, rfl⟩ := List.mem_map.mp hl
    exact hd c hc
  rw [List.takeWhile_append_of_pos hall, List.dropWhile_append_of_pos hall]
  cases rest with
  | nil => simp
  | cons l rest => simp [hr l rfl]

theorem digitsValue_map (ds : List Char) : digitsValue (ds.map some) = Decimal.value ds := by
  rw [digitsValue, List.filterMap_map]
  simp

theorem exponentDigits_digits (minus : Bool) (n : Nat) (h : Ends rest) :
    exponentDigits minus ((Decimal.digits n).map some ++ rest) =
      some (some (if minus then -(n : Int) else n), rest) := by
  obtain ⟨ht, hd⟩ := takeWhile_digits (Decimal.isDigit_of_mem_digits n) (fun l hl => (h l hl).1)
  simp [exponentDigits, ht, hd, digitsValue_map, Decimal.value_digits, Decimal.digits_ne_nil]

theorem exponent_ends (h : Ends rest) : exponent rest = some (none, rest) := by
  unfold exponent
  split
  · exact absurd rfl (h _ rfl).2.2.1
  · exact absurd rfl (h _ rfl).2.2.2
  · exact absurd rfl (h _ rfl).2.2.1
  · exact absurd rfl (h _ rfl).2.2.2
  · exact absurd rfl (h _ rfl).2.2.1
  · exact absurd rfl (h _ rfl).2.2.2
  · rfl

theorem exponent_written (e : Option Int) (h : Ends rest) :
    exponent ((e.elim [] fun e => 'e' :: Decimal.digitsInt e).map some ++ rest) =
      some (e, rest) := by
  cases e with
  | none => exact exponent_ends h
  | some e =>
    rw [Option.elim_some, Decimal.digitsInt]
    by_cases he : e < 0
    · have hread := exponentDigits_digits true e.natAbs h
      have hvalue : -(e.natAbs : Int) = e := by omega
      rw [if_pos he, List.map_cons, List.map_cons, List.cons_append, List.cons_append, exponent,
        hread, if_pos rfl, hvalue]
    · have hread := exponentDigits_digits false e.natAbs h
      have hvalue : (e.natAbs : Int) = e := by omega
      rw [if_neg Bool.false_ne_true, hvalue] at hread
      obtain ⟨c, cs, hd, hc⟩ := (Decimal.leads_digits e.natAbs).exists_cons
      rw [if_neg he, List.map_cons, List.cons_append, ← hread, hd, List.map_cons, List.cons_append]
      have hminus : c ≠ '-' := by
        rintro rfl
        cases hc
      have hplus : c ≠ '+' := by
        rintro rfl
        cases hc
      simp [exponent, hminus, hplus]

/-- The text goes on with nothing that could belong to a fraction. -/
def Stops (s : List Letter) : Prop := ∀ l, s.head? = some l → isDigit l = false ∧ l ≠ some '.'

theorem stops_exponent (e : Option Int) (h : Ends rest) :
    Stops ((e.elim [] fun e => 'e' :: Decimal.digitsInt e).map some ++ rest) := by
  cases e with
  | none => exact fun l hl => ⟨(h l hl).1, (h l hl).2.1⟩
  | some e =>
    intro l hl
    cases hl
    decide

theorem fraction_written {fs : List Char} {s : List Letter} (hfs : ∀ c ∈ fs, c.isDigit = true)
    (hs : Stops s) :
    fraction ((if fs.isEmpty then [] else '.' :: fs).map some ++ s) = some (fs.map some, s) := by
  cases fs with
  | nil =>
    show fraction s = some ([], s)
    unfold fraction
    split
    · exact absurd rfl (hs _ rfl).2
    · rfl
  | cons c cs =>
    obtain ⟨ht, hd⟩ := takeWhile_digits hfs (fun l hl => (hs l hl).1)
    rw [if_neg (by simp), List.map_cons, List.cons_append, fraction, ht, hd]
    simp

theorem fraction_head (fs : List Char) {s : List Letter} (hs : Stops s) :
    ∀ l, ((if fs.isEmpty then [] else '.' :: fs).map some ++ s).head? = some l →
      isDigit l = false := by
  intro l hl
  cases fs with
  | nil => exact (hs l hl).1
  | cons c cs =>
    cases hl
    rfl

theorem leading_digits {ds : List Char} (h : Decimal.Leads ds) :
    ((ds.map some).isEmpty ||
      ((ds.map some).head? == some (some '0') && decide (1 < (ds.map some).length))) = false := by
  obtain ⟨c, cs, rfl, -⟩ := h.exists_cons
  by_cases hc : c = '0'
  · subst hc
    rw [h.zero rfl]
    rfl
  · simp [hc]

theorem number_written {negative : Bool} {l : Numeral.Layout} (hl : l.Sound) (h : Ends rest) :
    number negative (l.chars.map some ++ rest) = some (num (Json.written negative l), rest) := by
  have hstops := stops_exponent l.exponent h
  obtain ⟨ht, hd⟩ := takeWhile_digits hl.whole.isDigit (fraction_head l.fraction hstops)
  simp only [Numeral.Layout.chars, List.map_append, List.append_assoc]
  simp only [number, ht, hd, leading_digits hl.whole, fraction_written hl.fraction hstops,
    exponent_written l.exponent h]
  rw [← List.map_append, digitsValue_map]
  simp [Json.written]

theorem number_int (negative : Bool) (n : Nat) (h : Ends rest) :
    number negative ((Decimal.digits n).map some ++ rest) =
      some (num ⟨negative, n, 0, true⟩, rest) := by
  have hsound : Numeral.Layout.Sound ⟨Decimal.digits n, [], none⟩ := ⟨Decimal.leads_digits n, nofun⟩
  have hread : number negative _ = _ := number_written hsound h
  simpa [Numeral.Layout.chars, Json.written, Decimal.value_digits] using hread

theorem not_isGap_of_isDigit {c : Char} (hc : c.isDigit = true) : isGap (some c) = false := by
  by_contra h
  simp only [isGap, Bool.not_eq_false, Bool.or_eq_true, beq_iff_eq] at h
  rcases h with ((rfl | rfl) | rfl) | rfl <;> cases hc

theorem value_leads {ds : List Char} (h : Decimal.Leads ds) (fuel : Nat) (s : List Letter) :
    value (fuel + 1) (ds.map some ++ s) = number false (ds.map some ++ s) := by
  obtain ⟨c, cs, rfl, hc⟩ := h.exists_cons
  rw [List.map_cons, List.cons_append, value, skip_cons (not_isGap_of_isDigit hc)]
  split <;> first | rfl | (next he => cases he; cases hc)

def Opens (c : Char) : Prop := isGap (some c) = false ∧ c ≠ ']'

theorem opens_of_isDigit {c : Char} (hc : c.isDigit = true) : Opens c := by
  refine ⟨not_isGap_of_isDigit hc, ?_⟩
  rintro rfl
  cases hc

theorem chars_head (v : Json) : ∃ c cs, v.chars = c :: cs ∧ Opens c := by
  cases v with
  | null | str | arr | obj =>
    rw [Json.chars]
    exact ⟨_, _, rfl, by decide, by decide⟩
  | bool b => cases b <;> exact ⟨_, _, rfl, by decide, by decide⟩
  | int n =>
    rw [Json.chars, Decimal.digitsInt]
    split
    · exact ⟨_, _, rfl, by decide, by decide⟩
    · obtain ⟨c, cs, hd, hc⟩ := (Decimal.leads_digits n.natAbs).exists_cons
      exact ⟨c, cs, hd, opens_of_isDigit hc⟩
  | decimal units places =>
    have hsound : (Json.decimalLayout units places).Sound := Numeral.layout_sound _
    obtain ⟨c, cs, hd, hc⟩ := hsound.whole.exists_cons
    exact ⟨c, _, by rw [Json.chars, Numeral.Layout.chars, hd, List.cons_append],
      opens_of_isDigit hc⟩

theorem itemsChars_head (v : Json) (vs : List Json) :
    ∃ c cs, Json.itemsChars (v :: vs) = c :: cs ∧ Opens c := by
  obtain ⟨c, cs, hc, ho⟩ := chars_head v
  cases vs with
  | nil => exact ⟨c, cs, hc, ho⟩
  | cons w vs =>
    refine ⟨c, cs ++ ',' :: Json.itemsChars (w :: vs), ?_, ho⟩
    rw [Json.itemsChars, hc]
    rfl

theorem value_items {c : Char} (ho : Opens c) (fuel : Nat) (s : List Letter) :
    value (fuel + 1) (some '[' :: some c :: s) = items fuel [] (some c :: s) := by
  rw [value, skip_cons rfl]
  simp only [skip_cons ho.1]
  split
  · next he =>
    cases he
    exact absurd rfl ho.2
  · rfl

theorem members_name (fuel : Nat) (done : List (List Letter × Draft)) (k : String)
    (s : List Letter) :
    members (fuel + 1) done ((Json.quote k.toList).map some ++ some ':' :: s) =
      match value fuel s with
      | none => none
      | some (v, s) =>
        match skip s with
        | some ',' :: s => members fuel ((k.toList.map some, v) :: done) s
        | some '\x7d' :: s => some (obj ((k.toList.map some, v) :: done).reverse, s)
        | _ => none := by
  have hq : (Json.quote k.toList).map some ++ some ':' :: s =
      some '"' :: ((k.toList.flatMap Json.escape).map some ++ some '"' :: some ':' :: s) := by
    simp [Json.quote]
  rw [hq, members, skip_cons rfl]
  simp only [string_quoted, List.reverse_nil, List.nil_append]
  rfl

mutual

theorem value_chars : (v : Json) → (fuel : Nat) → (rest : List Letter) → v.chars.length ≤ fuel →
    Ends rest → value fuel (v.chars.map some ++ rest) = some (v.draft, rest)
  | v, 0, rest, hf, _ => by
    obtain ⟨c, cs, hc, -⟩ := chars_head v
    rw [hc] at hf
    cases hf
  | .null, fuel + 1, rest, _, _ => by
    simp [Json.chars, value, skip, isGap, startsWith, Json.draft]
  | .bool b, fuel + 1, rest, _, _ => by
    cases b with
    | false => simp [Json.chars, value, skip, isGap, startsWith, Json.draft]
    | true => simp [Json.chars, value, skip, isGap, startsWith, Json.draft]
  | .int n, fuel + 1, rest, _, he => by
    rw [Json.chars, Decimal.digitsInt, Json.draft]
    by_cases hn : n < 0
    · rw [if_pos hn, List.map_cons, List.cons_append, value, skip_cons rfl]
      simp [number_int true n.natAbs he, hn]
    · rw [if_neg hn, value_leads (Decimal.leads_digits _), number_int false n.natAbs he]
      simp [hn]
  | .decimal units places, fuel + 1, rest, _, he => by
    have hsound : (Json.decimalLayout units places).Sound := Numeral.layout_sound _
    rw [Json.draft, ← number_written hsound he, Json.chars, Numeral.Layout.chars, List.map_append,
      List.append_assoc]
    exact value_leads hsound.whole fuel _
  | .str s, fuel + 1, rest, _, _ => by
    rw [Json.chars, Json.quote, List.map_cons, List.cons_append, value, skip_cons rfl]
    simp only [List.map_append, List.append_assoc, List.map_cons, List.map_nil, List.cons_append,
      List.nil_append, string_quoted]
    rfl
  | .arr [], fuel + 1, rest, _, _ => by
    simp [Json.chars, Json.itemsChars, value, skip, isGap, Json.draft, Json.itemDrafts]
  | .arr (v :: vs), fuel + 1, rest, hf, _ => by
    have hi := items_chars v vs [] fuel rest (by
      simp [Json.chars] at hf
      omega)
    obtain ⟨c, cs, hc, ho⟩ := itemsChars_head v vs
    have hs : (Json.chars (.arr (v :: vs))).map some ++ rest =
        some '[' :: some c :: (cs.map some ++ some ']' :: rest) := by
      simp [Json.chars, hc]
    rw [hc] at hi
    rw [hs, value_items ho]
    exact hi
  | .obj [], fuel + 1, rest, _, _ => by
    simp [Json.chars, Json.membersChars, value, skip, isGap, Json.draft, Json.memberDrafts]
  | .obj ((k, v) :: ms), fuel + 1, rest, hf, _ => by
    have hm := members_chars k v ms [] fuel rest (by
      simp [Json.chars] at hf
      omega)
    obtain ⟨cs, hc⟩ : ∃ cs, Json.membersChars ((k, v) :: ms) = '"' :: cs := by
      cases ms <;> exact ⟨_, rfl⟩
    have hs : (Json.chars (.obj ((k, v) :: ms))).map some ++ rest =
        some '\x7b' :: some '"' :: (cs.map some ++ some '\x7d' :: rest) := by
      simp [Json.chars, hc]
    rw [hc] at hm
    rw [hs, value, skip_cons rfl]
    exact hm

theorem items_chars : (v : Json) → (vs : List Json) → (done : List Draft) → (fuel : Nat) →
    (rest : List Letter) → (Json.itemsChars (v :: vs)).length < fuel →
      items fuel done ((Json.itemsChars (v :: vs)).map some ++ some ']' :: rest) =
        some (.arr (done.reverse ++ Json.itemDrafts (v :: vs)), rest)
  | _, _, _, 0, _, hf => nomatch hf
  | v, [], done, fuel + 1, rest, hf => by
    have hv := value_chars v fuel (some ']' :: rest) (by
      simp [Json.itemsChars] at hf
      omega) (ends_cons (by simp))
    rw [Json.itemsChars, items, hv]
    simp [skip_cons, isGap, Json.itemDrafts]
  | v, w :: vs, done, fuel + 1, rest, hf => by
    have hv := value_chars v fuel
      (some ',' :: ((Json.itemsChars (w :: vs)).map some ++ some ']' :: rest)) (by
      simp [Json.itemsChars] at hf
      omega) (ends_cons (by simp))
    have hw := items_chars w vs (v.draft :: done) fuel rest (by
      simp [Json.itemsChars] at hf ⊢
      omega)
    rw [Json.itemsChars, List.map_append, List.map_cons, List.append_assoc, List.cons_append,
      items, hv]
    simp only [skip_cons (show isGap (some ',') = false from rfl), hw]
    simp [Json.itemDrafts]

theorem members_chars : (k : String) → (v : Json) → (ms : List (String × Json)) →
    (done : List (List Letter × Draft)) → (fuel : Nat) → (rest : List Letter) →
      (Json.membersChars ((k, v) :: ms)).length < fuel →
        members fuel done ((Json.membersChars ((k, v) :: ms)).map some ++ some '\x7d' :: rest) =
          some (.obj (done.reverse ++ Json.memberDrafts ((k, v) :: ms)), rest)
  | _, _, _, _, 0, _, hf => nomatch hf
  | k, v, [], done, fuel + 1, rest, hf => by
    have hv := value_chars v fuel (some '\x7d' :: rest) (by
      simp [Json.membersChars] at hf
      omega) (ends_cons (by simp))
    rw [Json.membersChars, List.map_append, List.map_cons, List.append_assoc, List.cons_append,
      members_name, hv]
    simp [skip_cons, isGap, Json.memberDrafts]
  | k, v, (l, w) :: ms, done, fuel + 1, rest, hf => by
    have hv := value_chars v fuel
      (some ',' :: ((Json.membersChars ((l, w) :: ms)).map some ++ some '\x7d' :: rest)) (by
        simp [Json.membersChars] at hf
        omega) (ends_cons (by simp))
    have hw := members_chars l w ms ((k.toList.map some, v.draft) :: done) fuel rest (by
      simp [Json.membersChars] at hf ⊢
      omega)
    rw [Json.membersChars, List.map_append, List.map_cons, List.map_append, List.map_cons,
      List.append_assoc, List.cons_append, List.append_assoc, List.cons_append, members_name, hv]
    simp only [skip_cons (show isGap (some ',') = false from rfl), hw]
    simp [Json.memberDrafts]

end

theorem ofLetters?_chars (v : Json) : ofLetters? (v.chars.map some) = some v.draft := by
  have hv := value_chars v (2 * (v.chars.map some).length + 2) [] (by
    rw [List.length_map]
    omega) ends_nil
  rw [List.append_nil] at hv
  simp only [ofLetters?, hv]
  rfl

theorem ofText?_text (v : Json) : ofText? v.text = some v.draft := by
  rw [ofText?, Json.text, String.toList_ofList, ofLetters?_chars]

example : (Json.decimal 95 7).text = "9.5e-6" := by cbv

theorem ofOctets?_text (v : Json) : ofOctets? (Utf8.encode v.text.toList) = some v.draft := by
  rw [ofOctets?, Json.text, String.toList_ofList, Utf8.decode_encode, ofLetters?_chars]

end Draft

namespace Json

theorem le_hexDigit : ∀ n < 16, 32 ≤ (hexDigit n).toNat := by decide

theorem le_escape (c : Char) : ∀ d ∈ escape c, 32 ≤ d.toNat := by
  unfold escape
  split
  case h_8 =>
    split
    · intro d hd
      simp only [List.mem_cons, List.not_mem_nil, or_false] at hd
      rcases hd with rfl | rfl | rfl | rfl | rfl | rfl
      · decide
      · decide
      · decide
      · decide
      · exact le_hexDigit _ (by omega)
      · exact le_hexDigit _ (by omega)
    · intro d hd
      rw [List.mem_singleton.mp hd]
      omega
  all_goals simp

theorem le_quote (s : List Char) : ∀ d ∈ quote s, 32 ≤ d.toNat := by
  intro d hd
  simp only [quote, List.mem_cons, List.mem_append, List.mem_flatMap, List.not_mem_nil,
    or_false] at hd
  rcases hd with rfl | ⟨c, -, hd⟩ | rfl
  · decide
  · exact le_escape c d hd
  · decide

theorem le_of_isDigit {c : Char} (hc : c.isDigit = true) : 32 ≤ c.toNat := by
  simp only [Char.isDigit, Bool.and_eq_true, decide_eq_true_eq] at hc
  have := UInt32.le_iff_toNat_le.mp hc.1
  exact Nat.le_trans (by decide) this

theorem le_digitsInt (n : Int) : ∀ c ∈ Decimal.digitsInt n, 32 ≤ c.toNat := by
  intro c hc
  rw [Decimal.digitsInt] at hc
  split at hc
  · rcases List.mem_cons.mp hc with rfl | hc
    · decide
    · exact le_of_isDigit (Decimal.isDigit_of_mem_digits _ c hc)
  · exact le_of_isDigit (Decimal.isDigit_of_mem_digits _ c hc)

theorem le_layout {l : Numeral.Layout} (h : l.Sound) : ∀ c ∈ l.chars, 32 ≤ c.toNat := by
  intro c hc
  simp only [Numeral.Layout.chars, List.mem_append] at hc
  rcases hc with hc | hc | hc
  · exact le_of_isDigit (h.whole.isDigit c hc)
  · split at hc
    · cases hc
    · rcases List.mem_cons.mp hc with rfl | hc
      · decide
      · exact le_of_isDigit (h.fraction c hc)
  · cases he : l.exponent with
    | none =>
      rw [he] at hc
      cases hc
    | some e =>
      rw [he] at hc
      rcases List.mem_cons.mp hc with rfl | hc
      · decide
      · exact le_digitsInt e c hc

mutual

/-- No character of a value's text is a control character. -/
theorem le_chars : (v : Json) → ∀ c ∈ v.chars, 32 ≤ c.toNat
  | .null | .bool true | .bool false => by simp [chars]
  | .int n => le_digitsInt n
  | .decimal _ _ => le_layout (Numeral.layout_sound _)
  | .str s => le_quote s.toList
  | .arr items => by
    intro c hc
    simp only [chars, List.mem_cons, List.mem_append, List.not_mem_nil, or_false] at hc
    rcases hc with rfl | hc | rfl
    · decide
    · exact le_itemsChars items c hc
    · decide
  | .obj members => by
    intro c hc
    simp only [chars, List.mem_cons, List.mem_append, List.not_mem_nil, or_false] at hc
    rcases hc with rfl | hc | rfl
    · decide
    · exact le_membersChars members c hc
    · decide

theorem le_itemsChars : (vs : List Json) → ∀ c ∈ itemsChars vs, 32 ≤ c.toNat
  | [] => by simp [itemsChars]
  | [v] => le_chars v
  | v :: w :: vs => by
    intro c hc
    simp only [itemsChars, List.mem_append, List.mem_cons] at hc
    rcases hc with hc | rfl | hc
    · exact le_chars v c hc
    · decide
    · exact le_itemsChars (w :: vs) c hc

theorem le_membersChars : (ms : List (String × Json)) → ∀ c ∈ membersChars ms, 32 ≤ c.toNat
  | [] => by simp [membersChars]
  | [(k, v)] => by
    intro c hc
    simp only [membersChars, List.mem_append, List.mem_cons] at hc
    rcases hc with hc | rfl | hc
    · exact le_quote _ c hc
    · decide
    · exact le_chars v c hc
  | (k, v) :: m :: ms => by
    intro c hc
    simp only [membersChars, List.mem_append, List.mem_cons] at hc
    rcases hc with hc | rfl | hc | rfl | hc
    · exact le_quote _ c hc
    · decide
    · exact le_chars v c hc
    · decide
    · exact le_membersChars (m :: ms) c hc

end

end Json
end PushRelay
