import PushRelay.Proofs.Depot.Step

/-! Lines of tasks. Senders that wait for a place on the queue, or were given one, have an unplaced
parcel and stand there once. -/
namespace PushRelay.Depot

/-- In these lines stand tasks with the property `P`, each of them once. -/
structure Lined (P : Task → Prop) (tasks : List Task) (lines : List Nat) : Prop where
  nodup : lines.Nodup
  member {id : Nat} : id ∈ lines → ∃ t, tasks[id]? = some t ∧ P t

namespace Lined
variable {P : Task → Prop} {tasks : List Task} {lines : List Nat} {id : Nat} {t : Task}

theorem not_mem (hl : Lined P tasks lines) (h : tasks[id]? = some t) (ht : ¬P t) :
    id ∉ lines := by
  intro hm
  obtain ⟨u, hu, hp⟩ := hl.member hm
  cases h.symm.trans hu
  exact ht hp

theorem set (hl : Lined P tasks lines) (hid : id ∉ lines) (t' : Task) :
    Lined P (tasks.set id t') lines where
  nodup := hl.nodup
  member := by
    intro j hj
    have hne : id ≠ j := by
      rintro rfl
      exact hid hj
    rw [List.getElem?_set_ne hne]
    exact hl.member hj

theorem append (hl : Lined P tasks lines) (ts : List Task) : Lined P (tasks ++ ts) lines where
  nodup := hl.nodup
  member := by
    intro j hj
    obtain ⟨u, hu, hp⟩ := hl.member hj
    exact ⟨u, getElem?_append_of_some hu, hp⟩

theorem perm {lines' : List Nat} (hl : Lined P tasks lines) (hp : lines.Perm lines') :
    Lined P tasks lines' where
  nodup := hp.nodup_iff.mp hl.nodup
  member := fun hj => hl.member (hp.mem_iff.mpr hj)

theorem cons (hl : Lined P tasks lines) (hid : id ∉ lines) (h : tasks[id]? = some t)
    (ht : P t) : Lined P tasks (id :: lines) where
  nodup := List.nodup_cons.mpr ⟨hid, hl.nodup⟩
  member := by
    intro j hj
    rcases List.mem_cons.mp hj with rfl | hj
    · exact ⟨t, h, ht⟩
    · exact hl.member hj

theorem erase (hl : Lined P tasks lines) (id : Nat) : Lined P tasks (lines.erase id) where
  nodup := hl.nodup.erase id
  member := fun hj => hl.member (List.mem_of_mem_erase hj)

theorem not_mem_erase (hl : Lined P tasks lines) (id : Nat) : id ∉ lines.erase id :=
  fun h => (hl.nodup.mem_erase_iff.mp h).1 rfl

end Lined

def IsSender (t : Task) : Prop := t.unplaced ≠ []

def State.Lined (s : State) : Prop := Depot.Lined IsSender s.tasks (s.waiting ++ s.granted)

variable {plan : Plan} {s s' : State} {id : Nat} {answer : Option Answer} {calls : Nat}
  {note : Option Note} {called : Bool}

theorem State.Lined.not_mem {t : Task} (hl : s.Lined) (h : s.tasks[id]? = some t)
    (ht : t.unplaced = []) : id ∉ s.waiting ++ s.granted :=
  Depot.Lined.not_mem hl h (not_not_intro ht)

theorem State.Lined.place {granted : List TaskId} (hl : s.Lined) (hg : HasPlace plan s id granted)
    (t' : Task) : Depot.Lined IsSender (s.tasks.set id t') (s.waiting ++ granted) := by
  rcases hg with ⟨hm, rfl⟩ | ⟨hg, hw, -, rfl⟩
  · have hd := List.nodup_append.mp hl.nodup
    have hw : id ∉ s.waiting := fun h => hd.2.2 id h id hm rfl
    have he := Depot.Lined.erase hl id
    rw [List.erase_append_right _ hw] at he
    refine he.set ?_ t'
    rw [List.mem_append, not_or]
    exact ⟨hw, fun h => (hd.2.1.mem_erase_iff.mp h).1 rfl⟩
  · refine Depot.Lined.set hl ?_ t'
    rw [List.mem_append, not_or]
    exact ⟨hw, hg⟩

theorem State.Lined.free {waiting granted : List TaskId} (hl : s.Lined)
    (hf : Freed s waiting granted) : Depot.Lined IsSender s.tasks (waiting ++ granted) := by
  rcases hf with ⟨hs, rfl, rfl⟩ | ⟨w, hs, rfl⟩
  · have := hl
    rwa [State.Lined, hs] at this
  · refine Depot.Lined.perm hl ?_
    rw [hs, List.cons_append, ← List.append_assoc]
    exact (List.perm_append_singleton w (waiting ++ s.granted)).symm

theorem Change.lined (hc : Change plan s id answer calls s' note called) (hl : s.Lined) :
    s'.Lined := by
  cases hc with
  | idle | turned => exact hl
  | joined h hp hg hw =>
    have hid : id ∉ s.waiting ++ s.granted := by
      rw [List.mem_append, not_or]
      exact ⟨hw, hg⟩
    have hperm : (id :: (s.waiting ++ s.granted)).Perm ((s.waiting ++ [id]) ++ s.granted) := by
      rw [List.append_assoc]
      exact List.perm_middle.symm
    exact (Depot.Lined.cons hl hid h hp).perm hperm
  | placed h hp hg | offered h hg => exact hl.place hg _
  | accepted h hp | disabled h hp | rejected h hp | opened h hp | reported h hp =>
    exact Depot.Lined.set hl (hl.not_mem h (by simp [Task.unplaced, hp])) _
  | took h hs hi hf =>
    have hf := hl.free hf
    exact hf.set (hf.not_mem h (not_not_intro rfl)) _
  | detached h | inlined h | started h =>
    exact Depot.Lined.append (Depot.Lined.set hl (hl.not_mem h rfl) _) _
  | retired h | discarded h | called h | retried h | concluded h | writtenOff h | released h
  | closed h | sampled h | drained h => exact Depot.Lined.set hl (hl.not_mem h rfl) _
  | delivered h ha ho | crashed h ha ho | failed h ha hr ho =>
    exact Depot.Lined.set (Depot.Lined.set hl (hl.not_mem h rfl) _) (hl.not_mem ho rfl) _

namespace Run
variable {r r' : Run} {a : Act}

theorem Step.lined (hs : Step plan r a r') (hl : r.state.Lined) : r'.state.Lined := by
  cases hs with
  | moved hc => exact hc.lined hl
  | submitted | poolStarted | drainStarted => exact Depot.Lined.append hl _
  | poolStopped | ceilingSet | guardTaken | guardDropped | guardMissing => exact hl

theorem lined_ofActs (plan : Plan) (ceiling : Int64) (acts : List Act) :
    (ofActs plan ceiling acts).state.Lined :=
  (ofActs_rec (P := fun _ r => r.state.Lined) ⟨List.nodup_nil, fun h => nomatch h⟩
    (fun _ _ _ _ hs hl => hs.lined hl) acts).2

end Run
end PushRelay.Depot
