import PushRelay.Text.Utf8

/-! Text as octets and back: what is encoded decodes to itself, and nothing else is read. -/
namespace PushRelay

section mapM
variable {α β γ : Type} {f : α → Option β}

theorem mapM_map_some {g : γ → α} {k : γ → β} (h : ∀ c, f (g c) = some (k c)) (cs : List γ) :
    (cs.map g).mapM f = some (cs.map k) := by
  induction cs with
  | nil => rfl
  | cons c cs ih => simp [h, ih]

theorem mapM_some {g : β → α} (h : ∀ b, f (g b) = some b) (bs : List β) :
    (bs.map g).mapM f = some bs := by
  rw [mapM_map_some (k := id) h, List.map_id]

end mapM

namespace Utf8
variable {done : List Letter} {rest : Octets}

theorem lead_two {b : Nat} (h : 0xC2 ≤ b) (h' : b < 0xE0) :
    lead b = .begun ⟨1, 0x80, 0xBF, b - 0xC0⟩ := by
  rw [lead, if_neg (by omega), if_neg (by omega), if_pos h']

/-- The bounds on the second octet in a character of three. -/
theorem lead_three {b : Nat} (h : 0xE0 ≤ b) (h' : b < 0xF0) :
    lead b = .begun ⟨2, if b = 0xE0 then 0xA0 else 0x80, if b = 0xED then 0x9F else 0xBF,
      b - 0xE0⟩ := by
  unfold lead
  rw [if_neg (by omega), if_neg (by omega), if_neg (by omega)]
  by_cases h0 : b = 0xE0
  · subst h0
    rfl
  by_cases hd : b = 0xED
  · subst hd
    rfl
  · rw [if_neg h0, if_neg hd, if_pos h', if_neg h0, if_neg hd]

theorem lead_four {b : Nat} (h : 0xF0 ≤ b) (h' : b ≤ 0xF4) :
    lead b = .begun ⟨3, if b = 0xF0 then 0x90 else 0x80, if b = 0xF4 then 0x8F else 0xBF,
      b - 0xF0⟩ := by
  unfold lead
  rw [if_neg (by omega), if_neg (by omega), if_neg (by omega), if_neg (by omega),
    if_neg (by omega), if_neg (by omega)]
  by_cases h0 : b = 0xF0
  · subst h0
    rfl
  by_cases h4 : b = 0xF4
  · subst h4
    rfl
  · rw [if_neg h0, if_pos (by omega), if_neg h0, if_neg h4]

theorem lead_none {b : Nat} (h : 0x80 ≤ b) (h' : b < 0xC2 ∨ 0xF4 < b) :
    lead b = .letter none := by
  unfold lead
  rcases h' with h' | h'
  · rw [if_neg (by omega), if_pos h']
  · iterate 9 rw [if_neg (by omega)]

theorem run_begun {b : Nat} {p : Partial} (hb : b < 256) (h : lead b = .begun p) :
    run done none (UInt8.ofNat b :: rest) = run done (some p) rest := by
  have hb : (UInt8.ofNat b).toNat = b := UInt8.toNat_ofNat_of_lt' hb
  simp only [run, feed, start, hb, h]

theorem run_more {owed low high bits b : Nat} (hb : b < 256) (hl : low ≤ b) (hh : b ≤ high) :
    run done (some ⟨owed + 2, low, high, bits⟩) (UInt8.ofNat b :: rest) =
      run done (some ⟨owed + 1, 0x80, 0xBF, bits * 64 + b % 64⟩) rest := by
  have hb : (UInt8.ofNat b).toNat = b := UInt8.toNat_ofNat_of_lt' hb
  simp [run, feed, hb, hl, hh]

theorem run_last {low high bits b : Nat} (hb : b < 256) (hl : low ≤ b) (hh : b ≤ high) :
    run done (some ⟨1, low, high, bits⟩) (UInt8.ofNat b :: rest) =
      run (some (Char.ofNat (bits * 64 + b % 64)) :: done) none rest := by
  have hb : (UInt8.ofNat b).toNat = b := UInt8.toNat_ofNat_of_lt' hb
  simp [run, feed, hb, hl, hh]

theorem run_char (c : Char) :
    run done none (String.utf8EncodeChar c ++ rest) = run (some c :: done) none rest := by
  have hv : c.val.toNat < 0xD800 ∨ 0xDFFF < c.val.toNat ∧ c.val.toNat < 0x110000 := c.valid
  have hc : Char.ofNat c.val.toNat = c := Char.ofNat_toNat c
  unfold String.utf8EncodeChar
  generalize c.val.toNat = v at hv hc
  subst hc
  by_cases h1 : v ≤ 0x7f
  · have hb : (UInt8.ofNat v).toNat = v := UInt8.toNat_ofNat_of_lt' (by simp [UInt8.size]; omega)
    have hl : lead v = .letter (some (Char.ofNat v)) := by rw [lead, if_pos (by omega)]
    simp only [if_pos h1, List.cons_append, List.nil_append, run, feed, start, hb, hl]
  by_cases h2 : v ≤ 0x7ff
  · have hl := lead_two (b := v / 64 % 0x20 + 0xc0) (by omega) (by omega)
    have hsum : (v / 64 % 0x20 + 0xc0 - 0xC0) * 64 + (v % 0x40 + 0x80) % 64 = v := by omega
    simp only [if_neg h1, if_pos h2, List.cons_append, List.nil_append]
    rw [run_begun (by omega) hl, run_last (by omega) (by omega) (by omega), hsum]
  by_cases h3 : v ≤ 0xffff
  · have hl := lead_three (b := v / 4096 % 0x10 + 0xe0) (by omega) (by omega)
    have hsum : ((v / 4096 % 0x10 + 0xe0 - 0xE0) * 64 + (v / 64 % 0x40 + 0x80) % 64) * 64 +
        (v % 0x40 + 0x80) % 64 = v := by omega
    simp only [if_neg h1, if_neg h2, if_pos h3, List.cons_append, List.nil_append]
    rw [run_begun (by omega) hl, run_more (by omega) (by split <;> omega) (by split <;> omega),
      run_last (by omega) (by omega) (by omega), hsum]
  · have hl := lead_four (b := v / 262144 % 0x08 + 0xf0) (by omega) (by omega)
    have hsum : (((v / 262144 % 0x08 + 0xf0 - 0xF0) * 64 + (v / 4096 % 0x40 + 0x80) % 64) * 64 +
        (v / 64 % 0x40 + 0x80) % 64) * 64 + (v % 0x40 + 0x80) % 64 = v := by omega
    simp only [if_neg h1, if_neg h2, if_neg h3, List.cons_append, List.nil_append]
    rw [run_begun (by omega) hl, run_more (by omega) (by split <;> omega) (by split <;> omega),
      run_more (by omega) (by omega) (by omega), run_last (by omega) (by omega) (by omega), hsum]

theorem run_encode (cs : List Char) (done : List Letter) :
    run done none (encode cs) = done.reverse ++ cs.map some := by
  induction cs generalizing done with
  | nil => simp [encode, run]
  | cons c cs ih =>
    rw [encode, List.flatMap_cons, run_char, ← encode, ih]
    simp

theorem decode_encode (cs : List Char) : decode (encode cs) = cs.map some := run_encode cs []

theorem read?_encode (s : String) : read? (encode s.toList) = some s := by
  have hm : (s.toList.map some).mapM id = some s.toList :=
    mapM_some (f := id) (fun _ => rfl) s.toList
  rw [read?, decode_encode, hm, Option.map_some, String.ofList_toList]

theorem mem_start {l : Letter} (h : l ∈ done) (b : Nat) : l ∈ (start done b).1 := by
  rw [start]
  cases lead b with
  | letter k => exact List.mem_cons_of_mem k h
  | begun p => exact h

theorem mem_run {l : Letter} (h : l ∈ done) (begun : Option Partial) (octets : Octets) :
    l ∈ run done begun octets := by
  induction octets generalizing done begun with
  | nil =>
    rw [run, List.mem_reverse]
    split
    · exact List.mem_cons_of_mem none h
    · exact h
  | cons b rest ih =>
    rw [run]
    refine ih ?_ _
    cases begun with
    | none => exact mem_start h b.toNat
    | some p =>
      simp only
      split
      · split
        · exact List.mem_cons_of_mem _ h
        · exact h
      · exact mem_start (List.mem_cons_of_mem none h) b.toNat

/-- Where no mark is left, a character begun goes on within its bounds. -/
theorem next_of_unmarked {p : Partial} {octets : Octets} (h : none ∉ run done (some p) octets) :
    ∃ b rest, octets = UInt8.ofNat b :: rest ∧ b < 256 ∧ p.low ≤ b ∧ b ≤ p.high := by
  cases octets with
  | nil => simp [run] at h
  | cons b rest =>
    by_cases hb : p.low ≤ b.toNat ∧ b.toNat ≤ p.high
    · exact ⟨b.toNat, rest, by rw [UInt8.ofNat_toNat], b.toNat_lt, hb⟩
    · rw [run, feed, if_neg hb] at h
      exact absurd (mem_run (mem_start List.mem_cons_self _) _ _) h

theorem toNat_char {v : Nat} (h : v < 0xD800 ∨ 0xDFFF < v ∧ v < 0x110000) :
    (Char.ofNat v).val.toNat = v := by
  have hv : v.isValidChar := h
  rw [Char.ofNat, dif_pos hv]
  rfl

theorem encode_one {v : Nat} (h : v < 0x80) :
    String.utf8EncodeChar (Char.ofNat v) = [UInt8.ofNat v] := by
  rw [String.utf8EncodeChar, toNat_char (by omega), if_pos (by omega)]

theorem encode_two {a b : Nat} (ha : 0xC2 ≤ a) (ha' : a < 0xE0) (hb : 0x80 ≤ b) (hb' : b ≤ 0xBF) :
    String.utf8EncodeChar (Char.ofNat ((a - 0xC0) * 64 + b % 64)) =
      [UInt8.ofNat a, UInt8.ofNat b] := by
  have hv := toNat_char (v := (a - 0xC0) * 64 + b % 64) (by omega)
  generalize hw : (a - 0xC0) * 64 + b % 64 = v at hv
  obtain ⟨rfl, rfl⟩ : a = v / 64 % 0x20 + 0xc0 ∧ b = v % 0x40 + 0x80 := by omega
  simp only [String.utf8EncodeChar, hv]
  rw [if_neg (by omega), if_pos (by omega)]

theorem encode_three {a b c : Nat} (ha : 0xE0 ≤ a) (ha' : a < 0xF0)
    (hb : (if a = 0xE0 then 0xA0 else 0x80) ≤ b) (hb' : b ≤ if a = 0xED then 0x9F else 0xBF)
    (hc : 0x80 ≤ c) (hc' : c ≤ 0xBF) :
    String.utf8EncodeChar (Char.ofNat (((a - 0xE0) * 64 + b % 64) * 64 + c % 64)) =
      [UInt8.ofNat a, UInt8.ofNat b, UInt8.ofNat c] := by
  have hv := toNat_char (v := ((a - 0xE0) * 64 + b % 64) * 64 + c % 64)
    (by split at hb <;> split at hb' <;> omega)
  generalize hw : ((a - 0xE0) * 64 + b % 64) * 64 + c % 64 = v at hv
  have hlow : 0x7ff < v := by split at hb <;> split at hb' <;> omega
  have hhigh : v ≤ 0xffff := by split at hb <;> split at hb' <;> omega
  have hab : a = v / 4096 % 0x10 + 0xe0 ∧ b = v / 64 % 0x40 + 0x80 ∧ c = v % 0x40 + 0x80 := by
    split at hb <;> split at hb' <;> omega
  simp only [String.utf8EncodeChar, hv]
  rw [if_neg (by omega), if_neg (by omega), if_pos hhigh, hab.1, hab.2.1, hab.2.2]

theorem encode_four {a b c d : Nat} (ha : 0xF0 ≤ a) (ha' : a ≤ 0xF4)
    (hb : (if a = 0xF0 then 0x90 else 0x80) ≤ b) (hb' : b ≤ if a = 0xF4 then 0x8F else 0xBF)
    (hc : 0x80 ≤ c) (hc' : c ≤ 0xBF) (hd : 0x80 ≤ d) (hd' : d ≤ 0xBF) :
    String.utf8EncodeChar
        (Char.ofNat ((((a - 0xF0) * 64 + b % 64) * 64 + c % 64) * 64 + d % 64)) =
      [UInt8.ofNat a, UInt8.ofNat b, UInt8.ofNat c, UInt8.ofNat d] := by
  have hv := toNat_char (v := (((a - 0xF0) * 64 + b % 64) * 64 + c % 64) * 64 + d % 64)
    (by split at hb <;> split at hb' <;> omega)
  generalize hw : (((a - 0xF0) * 64 + b % 64) * 64 + c % 64) * 64 + d % 64 = v at hv
  have hlow : 0xffff < v := by split at hb <;> split at hb' <;> omega
  have habcd : a = v / 262144 % 0x08 + 0xf0 ∧ b = v / 4096 % 0x40 + 0x80 ∧
      c = v / 64 % 0x40 + 0x80 ∧ d = v % 0x40 + 0x80 := by
    split at hb <;> split at hb' <;> omega
  simp only [String.utf8EncodeChar, hv]
  rw [if_neg (by omega), if_neg (by omega), if_neg (by omega), habcd.1, habcd.2.1, habcd.2.2.1,
    habcd.2.2.2]

theorem char_of_unmarked {b : Nat} (hb : b < 256)
    (h : none ∉ run done none (UInt8.ofNat b :: rest)) :
    ∃ c rest', UInt8.ofNat b :: rest = String.utf8EncodeChar c ++ rest' := by
  by_cases h1 : b < 0x80
  · exact ⟨_, rest, by rw [encode_one h1, List.singleton_append]⟩
  by_cases hnone : b < 0xC2 ∨ 0xF4 < b
  · have hfeed : (UInt8.ofNat b).toNat = b := UInt8.toNat_ofNat_of_lt' hb
    refine absurd ?_ h
    rw [run, feed, start, hfeed, lead_none (by omega) hnone]
    exact mem_run List.mem_cons_self _ _
  by_cases h2 : b < 0xE0
  · rw [run_begun hb (lead_two (by omega) h2)] at h
    obtain ⟨b1, rest, rfl, -, hl1, hh1⟩ := next_of_unmarked h
    exact ⟨_, rest, by rw [encode_two (by omega) h2 hl1 hh1]; rfl⟩
  by_cases h3 : b < 0xF0
  · rw [run_begun hb (lead_three (by omega) h3)] at h
    obtain ⟨b1, rest, rfl, hb1, hl1, hh1⟩ := next_of_unmarked h
    rw [run_more hb1 hl1 hh1] at h
    obtain ⟨b2, rest, rfl, -, hl2, hh2⟩ := next_of_unmarked h
    exact ⟨_, rest, by rw [encode_three (by omega) h3 hl1 hh1 hl2 hh2]; rfl⟩
  · rw [run_begun hb (lead_four (by omega) (by omega))] at h
    obtain ⟨b1, rest, rfl, hb1, hl1, hh1⟩ := next_of_unmarked h
    rw [run_more hb1 hl1 hh1] at h
    obtain ⟨b2, rest, rfl, hb2, hl2, hh2⟩ := next_of_unmarked h
    rw [run_more hb2 hl2 hh2] at h
    obtain ⟨b3, rest, rfl, -, hl3, hh3⟩ := next_of_unmarked h
    exact ⟨_, rest, by rw [encode_four (by omega) (by omega) hl1 hh1 hl2 hh2 hl3 hh3]; rfl⟩

theorem encode_of_unmarked {octets : Octets} (h : none ∉ run done none octets) :
    ∃ cs, octets = encode cs := by
  induction hn : octets.length using Nat.strongRecOn generalizing octets done with
  | ind n ih =>
    cases octets with
    | nil => exact ⟨[], rfl⟩
    | cons b rest =>
      rw [← UInt8.ofNat_toNat (x := b)] at h
      obtain ⟨c, rest', hrest⟩ := char_of_unmarked b.toNat_lt h
      rw [hrest, run_char] at h
      have hpos : 0 < (String.utf8EncodeChar c).length := by
        rw [String.length_utf8EncodeChar]
        exact c.utf8Size_pos
      rw [UInt8.ofNat_toNat] at hrest
      have hlen : rest'.length < n := by
        rw [← hn, hrest, List.length_append]
        omega
      obtain ⟨cs, rfl⟩ := ih _ hlen h rfl
      exact ⟨c :: cs, hrest⟩

theorem unmarked_of_read? {octets : Octets} {s : String} (h : read? octets = some s) :
    none ∉ decode octets := by
  obtain ⟨cs, hcs, -⟩ := Option.map_eq_some_iff.mp h
  generalize decode octets = letters at hcs
  induction letters generalizing cs with
  | nil => exact List.not_mem_nil
  | cons l letters ih =>
    cases l with
    | none => simp at hcs
    | some c =>
      obtain ⟨cs, hcs, -⟩ : ∃ cs', letters.mapM id = some cs' ∧ some (c :: cs') = some cs := by
        simpa [Option.bind_eq_some_iff] using hcs
      simpa using ih cs hcs

theorem read?_eq_some {octets : Octets} {s : String} :
    read? octets = some s ↔ octets = encode s.toList := by
  refine ⟨fun h => ?_, fun h => h ▸ read?_encode s⟩
  obtain ⟨cs, rfl⟩ := encode_of_unmarked (unmarked_of_read? h)
  have hs := read?_encode (String.ofList cs)
  rw [String.toList_ofList, h] at hs
  rw [Option.some.inj hs, String.toList_ofList]
/-- No octet of a character is a control character, unless the character is one. -/
theorem le_octet {c : Char} {b : UInt8} (hc : 32 ≤ c.toNat) (hb : b ∈ String.utf8EncodeChar c) :
    32 ≤ b.toNat := by
  have hof {n : Nat} (hl : 32 ≤ n) (hh : n < 256) : 32 ≤ (UInt8.ofNat n).toNat := by
    rw [UInt8.toNat_ofNat_of_lt' hh]
    exact hl
  have hc : 32 ≤ c.val.toNat := hc
  unfold String.utf8EncodeChar at hb
  generalize c.val.toNat = v at hb hc
  simp only at hb
  split at hb
  · rw [List.mem_singleton.mp hb]
    exact hof hc (by omega)
  split at hb
  · simp only [List.mem_cons, List.not_mem_nil, or_false] at hb
    rcases hb with rfl | rfl <;> exact hof (by omega) (by omega)
  split at hb
  · simp only [List.mem_cons, List.not_mem_nil, or_false] at hb
    rcases hb with rfl | rfl | rfl <;> exact hof (by omega) (by omega)
  · simp only [List.mem_cons, List.not_mem_nil, or_false] at hb
    rcases hb with rfl | rfl | rfl | rfl <;> exact hof (by omega) (by omega)

theorem le_octet_encode {cs : List Char} {b : UInt8} (hcs : ∀ c ∈ cs, 32 ≤ c.toNat)
    (hb : b ∈ encode cs) : 32 ≤ b.toNat := by
  obtain ⟨c, hc, hb⟩ := List.mem_flatMap.mp hb
  exact le_octet (hcs c hc) hb

end Utf8
end PushRelay
