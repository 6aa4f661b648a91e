namespace CodeSurvey

def sumOf {α : Type} (f : α → Nat) : List α → Nat
  | [] => 0
  | a :: rest => f a + sumOf f rest

theorem sumOf_append {α : Type} (f : α → Nat) (as bs : List α) :
    sumOf f (as ++ bs) = sumOf f as + sumOf f bs := by
  induction as with
  | nil => exact (Nat.zero_add _).symm
  | cons a as ih => rw [List.cons_append, sumOf, sumOf, ih, Nat.add_assoc]

theorem sumOf_congr {α : Type} {f g : α → Nat} {as : List α} (h : ∀ a ∈ as, f a = g a) :
    sumOf f as = sumOf g as := by
  induction as with
  | nil => rfl
  | cons a as ih =>
    rw [sumOf, sumOf, h a List.mem_cons_self, ih fun b hb => h b (List.mem_cons_of_mem _ hb)]

theorem sumOf_filter_add {α : Type} (f : α → Nat) (p : α → Bool) (as : List α) :
    sumOf f (as.filter p) + sumOf f (as.filter fun a => !p a) = sumOf f as := by
  induction as with
  | nil => rfl
  | cons a as ih =>
    cases h : p a with
    | true =>
      rw [List.filter_cons_of_pos h, List.filter_cons_of_neg (by simp [h]), sumOf, sumOf, ← ih]
      omega
    | false =>
      rw [List.filter_cons_of_neg (by simp [h]), List.filter_cons_of_pos (by simp [h]), sumOf, sumOf,
        ← ih]
      omega

end CodeSurvey
