import Mathlib

/-! Sums over a list by weight, and how they change with one or two of its elements. Lists with the
same sum for every weight are the same up to order. -/
namespace PushRelay

/-- The weight of a list. -/
def total {α : Type} (f : α → Nat) (xs : List α) : Nat := (xs.map f).sum

section totals
variable {α β : Type} {xs : List α} {id : Nat} {a : α} (f : α → Nat)

@[simp] theorem total_nil : total f [] = 0 := rfl

@[simp] theorem total_cons (a : α) (xs : List α) : total f (a :: xs) = f a + total f xs := by
  simp only [total, List.map_cons, List.sum_cons]

@[simp] theorem total_append (xs ys : List α) : total f (xs ++ ys) = total f xs + total f ys := by
  simp only [total, List.map_append, List.sum_append]

@[simp] theorem total_replicate (n : Nat) (a : α) : total f (List.replicate n a) = n * f a := by
  simp only [total, List.map_replicate, List.sum_replicate_nat]

theorem total_map (g : β → α) (ys : List β) : total f (ys.map g) = total (fun b => f (g b)) ys := by
  simp only [total, List.map_map, Function.comp_def]

theorem total_flatMap (g : β → List α) (ys : List β) :
    total f (ys.flatMap g) = total (fun b => total f (g b)) ys := by
  induction ys with
  | nil => rfl
  | cons b ys ih => simp only [List.flatMap_cons, total_append, total_cons, ih]

theorem total_add (g : α → Nat) (xs : List α) :
    total (fun a => f a + g a) xs = total f xs + total g xs := by
  induction xs with
  | nil => rfl
  | cons a xs ih =>
    simp only [total_cons, ih]
    omega

theorem total_eq_zero {f : α → Nat} (h : ∀ a ∈ xs, f a = 0) : total f xs = 0 := by
  induction xs with
  | nil => rfl
  | cons a xs ih =>
    rw [total_cons, h a List.mem_cons_self, ih fun b hb => h b (List.mem_cons_of_mem a hb)]

theorem total_le_total {f g : α → Nat} (h : ∀ a, f a ≤ g a) : total f xs ≤ total g xs := by
  induction xs with
  | nil => exact Nat.le_refl 0
  | cons a xs ih =>
    rw [total_cons, total_cons]
    exact Nat.add_le_add (h a) ih

theorem total_pos_iff {f : α → Nat} : 0 < total f xs ↔ ∃ a ∈ xs, 0 < f a := by
  induction xs with
  | nil => simp
  | cons a xs ih => simp [ih]

theorem total_toNat (f : α → Bool) (xs : List α) :
    total (fun a => (f a).toNat) xs = xs.countP f := by
  induction xs with
  | nil => rfl
  | cons a xs ih =>
    rw [total_cons, List.countP_cons, ih]
    cases f a with
    | false => simp
    | true => simp [Nat.add_comm]

theorem total_count [DecidableEq α] (a : α) (xs : List α) :
    total (fun b => (b == a).toNat) xs = xs.count a := total_toNat _ xs

theorem total_length (f : α → List β) (xs : List α) :
    total (fun a => (f a).length) xs = (xs.flatMap f).length := by
  rw [total, List.length_flatMap]

theorem perm_of_total [DecidableEq α] {ys : List α} (h : ∀ f, total f xs = total f ys) :
    xs.Perm ys := by
  rw [List.perm_iff_count]
  intro a
  rw [← total_count, ← total_count]
  exact h _

theorem subperm_of_total [DecidableEq α] {ys : List α} (h : ∀ f, total f xs ≤ total f ys) :
    xs.Subperm ys := by
  rw [List.subperm_ext_iff]
  intro a _
  rw [← total_count, ← total_count]
  exact h _

theorem le_total (h : xs[id]? = some a) : f a ≤ total f xs := by
  induction xs generalizing id with
  | nil => cases h
  | cons b xs ih =>
    rw [total_cons]
    cases id with
    | zero =>
      cases h
      omega
    | succ id =>
      have := ih h
      omega

theorem total_set (h : xs[id]? = some a) (a' : α) :
    total f (xs.set id a') = total f xs - f a + f a' := by
  induction xs generalizing id with
  | nil => cases h
  | cons b xs ih =>
    cases id with
    | zero =>
      cases h
      simp only [List.set_cons_zero, total_cons]
      omega
    | succ id =>
      have hle : f a ≤ total f xs := le_total f h
      simp only [List.set_cons_succ, total_cons, ih h]
      omega

section two
variable {b : α} {other : Nat}

theorem add_le_total (h : xs[id]? = some a) (ho : xs[other]? = some b) (hne : id ≠ other) :
    f a + f b ≤ total f xs := by
  induction xs generalizing id other with
  | nil => cases h
  | cons c xs ih =>
    rw [total_cons]
    cases id with
    | zero =>
      cases h
      cases other with
      | zero => exact absurd rfl hne
      | succ other =>
        have hle : f b ≤ total f xs := le_total f ho
        omega
    | succ id =>
      cases other with
      | zero =>
        cases ho
        have hle : f a ≤ total f xs := le_total f h
        omega
      | succ other =>
        have := ih h ho (fun he => hne (congrArg _ he))
        omega

/-- Two elements replaced, as when a delivery ends and its dispatch learns of it. -/
theorem total_set_set (h : xs[id]? = some a) (ho : xs[other]? = some b) (hne : id ≠ other)
    (a' b' : α) :
    total f ((xs.set id a').set other b') = total f xs - f a - f b + f a' + f b' := by
  have ho' : (xs.set id a')[other]? = some b := by
    rw [List.getElem?_set_ne hne, ho]
  have hle := add_le_total f h ho hne
  rw [total_set f ho', total_set f h]
  omega

end two
end totals
end PushRelay
