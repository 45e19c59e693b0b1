import Mathlib.Data.List.Sort

/-! Sorting by an order that does not separate all elements.  `insertionSort` is stable: it keeps
the order of elements that compare as equal.  Another sorted permutation differs from it in that
order only. -/

namespace Sorting

variable {α : Type} {r : α → α → Prop} [DecidableRel r] {l l₁ l₂ : List α} {p : α → Bool}

theorem filter_insertionSort (h : (l.filter p).Pairwise r) :
    (l.insertionSort r).filter p = l.filter p := by
  have hsublist : (l.filter p).Sublist ((l.insertionSort r).filter p) := by
    have hfilter := (List.sublist_insertionSort h List.filter_sublist).filter p
    rwa [List.filter_filter, funext fun a => Bool.and_self (p a)] at hfilter
  exact (hsublist.eq_of_length ((List.perm_insertionSort r l).filter p).length_eq.symm).symm

omit [DecidableRel r] in
theorem eq_of_filter_eq (hperm : l₁.Perm l₂) (h₁ : l₁.Pairwise r) (h₂ : l₂.Pairwise r)
    (hfilter : l₁.filter p = l₂.filter p)
    (hsep : ∀ a ∈ l₁, ∀ b ∈ l₁, r a b → r b a → a = b ∨ p a = true ∧ p b = true) : l₁ = l₂ := by
  induction l₁ generalizing l₂ with
  | nil => exact (List.nil_perm.mp hperm).symm
  | cons a t₁ ih =>
    cases l₂ with
    | nil => exact List.perm_nil.mp hperm
    | cons b t₂ =>
      obtain ⟨ha, ht₁⟩ := List.pairwise_cons.mp h₁
      obtain ⟨hb, ht₂⟩ := List.pairwise_cons.mp h₂
      have hab : a = b := by
        rcases List.mem_cons.mp (hperm.mem_iff.mp List.mem_cons_self) with hab | hat
        · exact hab
        rcases List.mem_cons.mp (hperm.mem_iff.mpr List.mem_cons_self) with hba | hbt
        · exact hba.symm
        rcases hsep a List.mem_cons_self b (List.mem_cons_of_mem _ hbt) (ha b hbt) (hb a hat) with
          hab | ⟨hpa, hpb⟩
        · exact hab
        · rw [List.filter_cons_of_pos hpa, List.filter_cons_of_pos hpb] at hfilter
          exact (List.cons.inj hfilter).1
      subst hab
      refine congrArg _ (ih hperm.cons_inv ht₁ ht₂ ?_ fun x hx y hy => ?_)
      · by_cases hpa : p a = true
        · rw [List.filter_cons_of_pos hpa, List.filter_cons_of_pos hpa] at hfilter
          exact (List.cons.inj hfilter).2
        · rwa [List.filter_cons_of_neg hpa, List.filter_cons_of_neg hpa] at hfilter
      · exact hsep x (List.mem_cons_of_mem _ hx) y (List.mem_cons_of_mem _ hy)

theorem exists_other_sorted [DecidableEq α] [Std.Total r] [IsTrans α r] {u v : α} (hu : u ∈ l)
    (hv : v ∈ l) (hne : u ≠ v) (huv : r u v) (hvu : r v u) :
    ∃ l' : List α, l'.Perm l ∧ l'.Pairwise r ∧ l' ≠ l := by
  have hrefl : r u u := (Std.Total.total (r := r) u u).elim id id
  -- the elements that compare as equal to `u`, with one of them moved to the front
  have hfirst : ∀ a ∈ l, r u a → r a u → ∃ l' : List α, l'.Perm l ∧ l'.Pairwise r ∧
      (l'.filter fun x => decide (r u x ∧ r x u)).head? = some a := by
    intro a ha hua hau
    refine ⟨(a :: l.erase a).insertionSort r, ?_, List.pairwise_insertionSort r _, ?_⟩
    · exact (List.perm_insertionSort r _).trans (List.perm_cons_erase ha).symm
    · rw [filter_insertionSort, List.filter_cons_of_pos (by simp [hua, hau]), List.head?_cons]
      refine List.Pairwise.imp_of_mem ?_ (List.pairwise_of_forall fun _ _ => trivial)
      · intro x y hx hy _
        have hx := of_decide_eq_true (List.mem_filter.mp hx).2
        have hy := of_decide_eq_true (List.mem_filter.mp hy).2
        exact IsTrans.trans _ _ _ hx.2 hy.1
  obtain ⟨lu, hperm, hsorted, hhead⟩ := hfirst u hu hrefl hrefl
  obtain ⟨lv, hperm', hsorted', hhead'⟩ := hfirst v hv huv hvu
  by_cases heq : lu = l
  · refine ⟨lv, hperm', hsorted', fun heq' => hne ?_⟩
    rw [heq] at hhead
    rw [heq', hhead] at hhead'
    exact Option.some.inj hhead'
  · exact ⟨lu, hperm, hsorted, heq⟩

end Sorting
