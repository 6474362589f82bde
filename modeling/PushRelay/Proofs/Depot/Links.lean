import PushRelay.Proofs.Depot.Change

/-! Deliveries and the dispatches that await them: each update that a move makes to the list of
tasks keeps them linked. -/
namespace PushRelay.Depot
variable {tasks : List Task} {id : Nat}

theorem getElem?_set_some {t u : Task} {j : Nat} (h : (tasks.set id t)[j]? = some u) :
    (j = id ∧ u = t) ∨ (j ≠ id ∧ tasks[j]? = some u) := by
  rw [List.getElem?_set] at h
  by_cases hj : id = j
  · rw [if_pos hj] at h
    by_cases hl : id < tasks.length
    · rw [if_pos hl] at h
      exact .inl ⟨hj.symm, (Option.some.inj h).symm⟩
    · rw [if_neg hl] at h
      cases h
  · rw [if_neg hj] at h
    exact .inr ⟨fun he => hj he.symm, h⟩

theorem getElem?_append_some {ts : List Task} {u : Task} {j : Nat}
    (h : (tasks ++ ts)[j]? = some u) : tasks[j]? = some u ∨ u ∈ ts := by
  by_cases hj : j < tasks.length
  · rw [List.getElem?_append_left hj] at h
    exact .inl h
  · rw [List.getElem?_append_right (Nat.le_of_not_lt hj)] at h
    exact .inr (List.mem_of_getElem? h)

theorem getElem?_append_of_some {ts : List Task} {u : Task} {j : Nat} (h : tasks[j]? = some u) :
    (tasks ++ ts)[j]? = some u := by
  obtain ⟨hj, _⟩ := List.getElem?_eq_some_iff.mp h
  rw [List.getElem?_append_left hj, h]

theorem ne_owner {owner : Nat} {desk : Desk} {p q : Parcel} {c : Bool}
    (h : tasks[id]? = some (.delivering p owner c)) (ho : tasks[owner]? = some (.awaiting desk q)) :
    id ≠ owner := by
  rintro rfl
  cases h.symm.trans ho

theorem Linked.set (hl : Linked tasks) {t t' : Task} (h : tasks[id]? = some t)
    (ht : ∀ desk q, t ≠ .awaiting desk q) (ht' : ∀ p owner c, t' ≠ .delivering p owner c) :
    Linked (tasks.set id t') where
  owned := by
    intro i owner p c hi
    rcases getElem?_set_some hi with ⟨-, he⟩ | ⟨-, hi⟩
    · exact absurd he.symm (ht' p owner c)
    · obtain ⟨desk, q, ho, hq⟩ := hl.owned hi
      have hne : id ≠ owner := by
        rintro rfl
        exact ht desk q (Option.some.inj (h.symm.trans ho))
      exact ⟨desk, q, by rw [List.getElem?_set_ne hne, ho], hq⟩
  alone := by
    intro i j owner p q c d hi hj
    rcases getElem?_set_some hi with ⟨-, he⟩ | ⟨-, hi⟩
    · exact absurd he.symm (ht' p owner c)
    rcases getElem?_set_some hj with ⟨-, he⟩ | ⟨-, hj⟩
    · exact absurd he.symm (ht' q owner d)
    exact hl.alone hi hj

theorem Linked.append (hl : Linked tasks) {ts : List Task}
    (hts : ∀ t ∈ ts, ∀ p owner c, t ≠ .delivering p owner c) : Linked (tasks ++ ts) where
  owned := by
    intro i owner p c hi
    rcases getElem?_append_some hi with hi | hm
    · obtain ⟨desk, q, ho, hq⟩ := hl.owned hi
      exact ⟨desk, q, getElem?_append_of_some ho, hq⟩
    · exact absurd rfl (hts _ hm p owner c)
  alone := by
    intro i j owner p q c d hi hj
    rcases getElem?_append_some hi with hi | hm
    · rcases getElem?_append_some hj with hj | hm
      · exact hl.alone hi hj
      · exact absurd rfl (hts _ hm q owner d)
    · exact absurd rfl (hts _ hm p owner c)

theorem Linked.deliver (hl : Linked tasks) {t : Task} {desk : Desk} {p : Parcel}
    (h : tasks[id]? = some t) (ht : ∀ desk q, t ≠ .awaiting desk q) :
    Linked (tasks.set id (.awaiting desk p) ++ [.delivering p id false]) := by
  have hs : Linked (tasks.set id (.awaiting desk p)) := hl.set h ht (fun _ _ _ he => nomatch he)
  obtain ⟨hid, _⟩ := List.getElem?_eq_some_iff.mp h
  have hnone (i : Nat) (q : Parcel) (c : Bool) :
      (tasks.set id (.awaiting desk p))[i]? ≠ some (.delivering q id c) := by
    intro hi
    rcases getElem?_set_some hi with ⟨-, he⟩ | ⟨-, hi⟩
    · cases he
    · obtain ⟨desk', q', ho, -⟩ := hl.owned hi
      exact ht desk' q' (Option.some.inj (h.symm.trans ho))
  have hlast (i owner : Nat) (q : Parcel) (c : Bool) (hi : (tasks.set id (.awaiting desk p) ++
      [.delivering p id false])[i]? = some (.delivering q owner c)) :
      (tasks.set id (.awaiting desk p))[i]? = some (.delivering q owner c) ∨
        (i = tasks.length ∧ q = p ∧ owner = id) := by
    by_cases hil : i < tasks.length
    · rw [List.getElem?_append_left (by simpa using hil)] at hi
      exact .inl hi
    · have hi' := hi
      rw [List.getElem?_append_right (by simpa using hil)] at hi'
      have hm := List.mem_of_getElem? hi'
      have hz := (List.getElem?_eq_some_iff.mp hi').1
      simp only [List.mem_singleton, Task.delivering.injEq] at hm
      simp only [List.length_set, List.length_singleton] at hz
      exact .inr ⟨by omega, hm.1, hm.2.1⟩
  constructor
  · intro i owner q c hi
    rcases hlast i owner q c hi with hi | ⟨-, rfl, rfl⟩
    · obtain ⟨desk', q', ho, hq⟩ := hs.owned hi
      exact ⟨desk', q', getElem?_append_of_some ho, hq⟩
    · exact ⟨desk, q, getElem?_append_of_some (by simp [hid]), rfl⟩
  · intro i j owner q q' c d hi hj
    rcases hlast i owner q c hi with hi | ⟨he, -, ho⟩
    · rcases hlast j owner q' d hj with hj | ⟨-, -, rfl⟩
      · exact hs.alone hi hj
      · exact absurd hi (hnone i q c)
    · subst ho
      rcases hlast j owner q' d hj with hj | ⟨hj, -, -⟩
      · exact absurd hj (hnone j q' d)
      · exact he.trans hj.symm

theorem Linked.goOn (hl : Linked tasks) {owner : Nat} {p q : Parcel} {c d : Bool}
    (h : tasks[id]? = some (.delivering p owner c)) (hq : q.fresh = p.fresh) :
    Linked (tasks.set id (.delivering q owner d)) := by
  obtain ⟨desk, o, ho, hof⟩ := hl.owned h
  have hback (i owner' : Nat) (q' : Parcel) (c' : Bool)
      (hi : (tasks.set id (.delivering q owner d))[i]? = some (.delivering q' owner' c')) :
      ∃ p' c'', tasks[i]? = some (.delivering p' owner' c'') ∧ q'.fresh = p'.fresh := by
    rcases getElem?_set_some hi with ⟨rfl, he⟩ | ⟨-, hi⟩
    · cases he
      exact ⟨p, c, h, hq⟩
    · exact ⟨q', c', hi, rfl⟩
  constructor
  · intro i owner' q' c' hi
    obtain ⟨p', c'', hi, hf⟩ := hback i owner' q' c' hi
    obtain ⟨desk', o', ho', hof'⟩ := hl.owned hi
    have hne : id ≠ owner' := by
      rintro rfl
      cases h.symm.trans ho'
    exact ⟨desk', o', by rw [List.getElem?_set_ne hne, ho'], hof'.trans hf.symm⟩
  · intro i j owner' q' q'' c' d' hi hj
    obtain ⟨p', c'', hi, -⟩ := hback i owner' q' c' hi
    obtain ⟨p'', d'', hj, -⟩ := hback j owner' q'' d' hj
    exact hl.alone hi hj

theorem Linked.comeBack (hl : Linked tasks) {owner : Nat} {p : Parcel} {c : Bool} {t : Task}
    (h : tasks[id]? = some (.delivering p owner c)) (ht : ∀ p owner c, t ≠ .delivering p owner c) :
    Linked ((tasks.set id .ended).set owner t) := by
  have hback (i owner' : Nat) (q : Parcel) (c' : Bool)
      (hi : ((tasks.set id .ended).set owner t)[i]? = some (.delivering q owner' c')) :
      i ≠ id ∧ tasks[i]? = some (.delivering q owner' c') := by
    rcases getElem?_set_some hi with ⟨-, he⟩ | ⟨-, hi⟩
    · exact absurd he.symm (ht q owner' c')
    rcases getElem?_set_some hi with ⟨-, he⟩ | ⟨hne, hi⟩
    · cases he
    · exact ⟨hne, hi⟩
  constructor
  · intro i owner' q c' hi
    obtain ⟨hne, hi⟩ := hback i owner' q c' hi
    obtain ⟨desk, o, ho, hof⟩ := hl.owned hi
    have hno : owner ≠ owner' := by
      rintro rfl
      exact hne (hl.alone hi h)
    have hid : id ≠ owner' := by
      rintro rfl
      cases h.symm.trans ho
    exact ⟨desk, o, by rw [List.getElem?_set_ne hno, List.getElem?_set_ne hid, ho], hof⟩
  · intro i j owner' q q' c' d' hi hj
    exact hl.alone (hback i owner' q c' hi).2 (hback j owner' q' d' hj).2

theorem afterDispatch_ne_delivering (desk : Desk) (p : Parcel) (owner : Nat) (c : Bool) :
    afterDispatch desk ≠ .delivering p owner c := by
  unfold afterDispatch
  split <;> exact fun h => nomatch h

theorem Change.linked {plan : Plan} {s s' : State} {answer : Option Answer} {calls : Nat}
    {note : Option Note} {called : Bool} (hc : Change plan s id answer calls s' note called)
    (hl : Linked s.tasks) : Linked s'.tasks := by
  cases hc with
  | idle | joined | turned => exact hl
  | placed h | offered h | accepted h | disabled h | rejected h | opened h | reported h
  | retired h | took h | concluded h | writtenOff h | released h | sampled h | drained h =>
    exact hl.set h (fun _ _ he => nomatch he) (fun _ _ _ he => nomatch he)
  | discarded h | closed h =>
    exact hl.set h (fun _ _ he => nomatch he) (afterDispatch_ne_delivering _)
  | detached h =>
    refine (hl.set h (fun _ _ he => nomatch he) (afterDispatch_ne_delivering _)).append ?_
    intro t ht p owner c he
    cases List.mem_singleton.mp (he ▸ ht)
  | inlined h | started h => exact hl.deliver h (fun _ _ he => nomatch he)
  | called h => exact hl.goOn h rfl
  | retried h => exact hl.goOn h rfl
  | delivered h | failed h | crashed h => exact hl.comeBack h (fun _ _ _ he => nomatch he)

end PushRelay.Depot
