import PushRelay.Text.Line

/-! Lines written one after the other are cut where they were joined, and all octets are such
lines. -/
namespace PushRelay.Line
variable {line rest : Octets}

theorem cut_line (begun : Octets) (h : 10 ∉ line) :
    cut begun (line ++ 10 :: rest) = ended (begun.reverse ++ line) :: cut [] rest := by
  induction line generalizing begun with
  | nil => simp [cut]
  | cons b line ih =>
    have hb : b ≠ 10 := fun he => h (he ▸ List.mem_cons_self)
    have hline : 10 ∉ line := fun hm => h (List.mem_cons_of_mem b hm)
    rw [List.cons_append, cut, if_neg hb, ih (b :: begun) hline]
    simp

theorem cut_append (begun octets rest : Octets) :
    cut begun (octets ++ 10 :: rest) = cut begun (octets ++ [10]) ++ cut [] rest := by
  induction octets generalizing begun with
  | nil => simp [cut]
  | cons b octets ih =>
    simp only [List.cons_append, cut]
    split
    · rw [ih, List.cons_append]
    · exact ih _

/-- Lines that are ended are cut apart from whatever follows. -/
theorem ofOctets_append {octets : Octets} (h : octets = [] ∨ octets.getLast? = some 10)
    (rest : Octets) : ofOctets (octets ++ rest) = ofOctets octets ++ ofOctets rest := by
  rcases h with rfl | h
  · rfl
  · obtain ⟨lines, rfl⟩ := List.getLast?_eq_some_iff.mp h
    rw [List.append_assoc]
    exact cut_append [] lines rest

theorem ofOctets_lines {lines : List Octets} (h : ∀ l ∈ lines, 10 ∉ l ∧ l.getLast? ≠ some 13) :
    ofOctets (lines.flatMap (· ++ [10])) = lines := by
  induction lines with
  | nil => rfl
  | cons l lines ih =>
    obtain ⟨hfeed, hreturn⟩ := h l List.mem_cons_self
    rw [ofOctets] at ih ⊢
    rw [List.flatMap_cons, List.append_assoc, List.singleton_append, cut_line [] hfeed,
      ih fun k hk => h k (List.mem_cons_of_mem l hk)]
    simp [ended, hreturn]

/-- Octets and their lines, each of them ended by a line feed, with or without a carriage return
before it, or by the end of all. -/
inductive Lines : Octets → List Octets → Prop
  | none : Lines [] []
  | last {line : Octets} (hne : line ≠ []) (h : 10 ∉ line) : Lines line [line]
  | feed {line rest : Octets} {lines : List Octets} (h : 10 ∉ line) (hend : line.getLast? ≠ some 13)
      (hrest : Lines rest lines) : Lines (line ++ 10 :: rest) (line :: lines)
  | returned {line rest : Octets} {lines : List Octets} (h : 10 ∉ line) (hrest : Lines rest lines) :
      Lines (line ++ 13 :: 10 :: rest) (line :: lines)

theorem cut_last (begun : Octets) (h : 10 ∉ line) :
    cut begun line = if begun.reverse ++ line = [] then [] else [begun.reverse ++ line] := by
  induction line generalizing begun with
  | nil => cases begun <;> simp [cut]
  | cons b line ih =>
    have hb : b ≠ 10 := fun he => h (he ▸ List.mem_cons_self)
    have hline : 10 ∉ line := fun hm => h (List.mem_cons_of_mem b hm)
    rw [cut, if_neg hb, ih (b :: begun) hline]
    simp

theorem exists_lines (octets : Octets) : ∃ lines, Lines octets lines := by
  induction hn : octets.length using Nat.strongRecOn generalizing octets with
  | ind n ih =>
    by_cases hfeed : 10 ∈ octets
    · obtain ⟨line, rest, rfl, hline⟩ := List.eq_append_cons_of_mem hfeed
      have hlen : rest.length < n := by
        rw [← hn, List.length_append, List.length_cons]
        omega
      obtain ⟨lines, hrest⟩ := ih _ hlen rest rfl
      by_cases hend : line.getLast? = some 13
      · obtain ⟨line, rfl⟩ := List.getLast?_eq_some_iff.mp hend
        rw [List.append_assoc]
        exact ⟨_, .returned (fun h => hline (List.mem_append_left _ h)) hrest⟩
      · exact ⟨_, .feed hline hend hrest⟩
    · by_cases hne : octets = []
      · exact ⟨[], hne ▸ .none⟩
      · exact ⟨_, .last hne hfeed⟩

theorem ofOctets_eq {octets : Octets} {lines : List Octets} (h : Lines octets lines) :
    ofOctets octets = lines := by
  rw [ofOctets]
  induction h with
  | none => rfl
  | last hne h => simp [cut_last [] h, hne]
  | feed h hend hrest ih => simp [cut_line [] h, ih, ended, hend]
  | @returned line rest lines h hrest ih =>
    have hreturn : 10 ∉ line ++ [13] := by simp [h]
    have hcut : cut [] (line ++ [13] ++ 10 :: rest) = ended (line ++ [13]) :: cut [] rest :=
      cut_line [] hreturn
    rw [List.append_assoc, List.singleton_append] at hcut
    simp [hcut, ih, ended]

theorem lines_iff {octets : Octets} {lines : List Octets} :
    Lines octets lines ↔ ofOctets octets = lines := by
  refine ⟨ofOctets_eq, ?_⟩
  rintro rfl
  obtain ⟨lines, h⟩ := exists_lines octets
  rwa [ofOctets_eq h]

end PushRelay.Line
