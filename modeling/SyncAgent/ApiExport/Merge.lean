import SyncAgent.ApiExport.Reconciler
import SyncAgent.Lib.Sorting

/-! The order of the merged schemas.  They are sorted by group and resource, which does not separate
two schemas of the same resource. -/

namespace Projection.SortFunc

/-- A list that is sorted stays as it is. -/
def KeepsSorted (F : SortFunc) : Prop :=
  ∀ {α : Type} (cmp : α → α → Ordering) (l : List α),
    (l.Pairwise fun a b => (cmp a b).isLE = true) → F.sort cmp l = l

theorem keepsSorted_insertion : insertion.KeepsSorted := fun _ _ h => h.insertionSort_eq

open Classical in
/-- A sort that is not stable: it returns another sorted permutation than `insertion`, if there is
one and the list is not sorted already. -/
noncomputable def unstable : SortFunc where
  sort cmp l :=
    if l.Pairwise fun a b => (cmp a b).isLE = true then l
    else if h : ∃ l' : List _, l'.Perm l ∧ (l'.Pairwise fun a b => (cmp a b).isLE = true) ∧
        l' ≠ insertion.sort cmp l then h.choose
    else insertion.sort cmp l
  perm cmp l := by
    split
    · exact .refl l
    · split
      · next h => exact h.choose_spec.1
      · exact insertion.perm cmp l
  sorted cmp _ l := by
    split
    · next h => exact h
    · split
      · next h => exact h.choose_spec.2.1
      · exact insertion.sorted cmp l

theorem keepsSorted_unstable : unstable.KeepsSorted := fun _ _ h => if_pos h

/-- On a list that is not sorted it differs from `insertion` if it can. -/
theorem unstable_ne {α : Type} {cmp : α → α → Ordering} {l : List α}
    (hunsorted : ¬ l.Pairwise fun a b => (cmp a b).isLE = true)
    (h : ∃ l' : List α, l'.Perm l ∧ (l'.Pairwise fun a b => (cmp a b).isLE = true) ∧
      l' ≠ insertion.sort cmp l) : unstable.sort cmp l ≠ insertion.sort cmp l := by
  change (if _ then _ else _) ≠ _
  rw [if_neg hunsorted, dif_pos h]
  exact h.choose_spec.2.2

end Projection.SortFunc

namespace ApiExport

open Projection

variable {L : Libraries} {existing configured order₁ order₂ : List String} {x y : String}

variable (L) in
/-- The order by group and resource. -/
def Precedes (x y : String) : Prop :=
  (compare (parseResourceGroup L x) (parseResourceGroup L y)).isLE = true

instance : DecidableRel (Precedes L) := fun x y =>
  inferInstanceAs
    (Decidable ((compare (parseResourceGroup L x) (parseResourceGroup L y)).isLE = true))

instance : Std.TransCmp fun x y => compare (parseResourceGroup L x) (parseResourceGroup L y) :=
  inferInstanceAs (Std.TransCmp (compareOn (parseResourceGroup L)))

instance : Std.Total (Precedes L) := ⟨fun x y => by
  unfold Precedes
  have hswap : compare (parseResourceGroup L y) (parseResourceGroup L x) =
      (compare (parseResourceGroup L x) (parseResourceGroup L y)).swap := Std.OrientedCmp.eq_swap
  rw [hswap]
  cases compare (parseResourceGroup L x) (parseResourceGroup L y) <;> decide⟩

instance : IsTrans String (Precedes L) := ⟨fun _ _ _ => Std.TransCmp.isLE_trans⟩

theorem Precedes.antisymm (h : Precedes L x y) (h' : Precedes L y x) :
    parseResourceGroup L x = parseResourceGroup L y :=
  Std.LawfulEqCmp.eq_of_compare (Std.OrientedCmp.isLE_antisymm h h')

theorem Precedes.of_eq (h : parseResourceGroup L x = parseResourceGroup L y) : Precedes L x y := by
  have hself : compare (parseResourceGroup L y) (parseResourceGroup L y) = .eq :=
    Std.ReflCmp.compare_self
  rw [Precedes, h, hself]
  rfl

variable (L existing configured) in
/-- The existing schemas of other resources than the configured ones. -/
def keptSchemas : List String :=
  existing.filter fun schema =>
    !(configured.map (parseResourceGroup L)).contains (parseResourceGroup L schema)

variable (L) in
/-- Different schemas in the list have different groups or resources. -/
def Separated (l : List String) : Prop :=
  ∀ x ∈ l, ∀ y ∈ l, parseResourceGroup L x = parseResourceGroup L y → x = y

/-! ### The elements -/

theorem mem_keptSchemas : x ∈ keptSchemas L existing configured ↔
    x ∈ existing ∧ ∀ y ∈ configured, parseResourceGroup L y ≠ parseResourceGroup L x := by
  simp [keptSchemas]

theorem keptSchemas_congr (h : order₁.Perm configured) :
    keptSchemas L existing order₁ = keptSchemas L existing configured := by
  refine List.filter_congr fun x _ => ?_
  rw [List.contains_eq_mem, List.contains_eq_mem, decide_eq_decide.mpr (h.map _).mem_iff]

theorem merge_perm (h : order₁.Perm configured) : (mergeResourceSchemas L existing order₁).Perm
    (configured ++ keptSchemas L existing configured) := by
  rw [← keptSchemas_congr h]
  exact (L.slices.perm _ _).trans (h.append_right _)

theorem merge_sorted : (mergeResourceSchemas L existing order₁).Pairwise (Precedes L) :=
  L.slices.sorted _ _

theorem mem_merge_iff (h : order₁.Perm configured) : x ∈ mergeResourceSchemas L existing order₁ ↔
    x ∈ configured ∨ x ∈ existing ∧
      ∀ y ∈ configured, parseResourceGroup L y ≠ parseResourceGroup L x := by
  rw [(merge_perm h).mem_iff, List.mem_append, mem_keptSchemas]

theorem keptSchemas_merge_perm (h : order₁.Perm configured) :
    (keptSchemas L (mergeResourceSchemas L existing order₁) configured).Perm
      (keptSchemas L existing configured) := by
  refine ((merge_perm h).filter _).trans (.of_eq ?_)
  rw [List.filter_append]
  have hnone : (configured.filter fun schema =>
      !(configured.map (parseResourceGroup L)).contains (parseResourceGroup L schema)) = [] :=
    List.filter_eq_nil_iff.mpr fun x hx => by simpa using ⟨x, hx, rfl⟩
  rw [hnone, List.nil_append, keptSchemas, List.filter_filter]
  exact congrArg (fun q => List.filter q existing) (funext fun _ => Bool.and_self _)

theorem again_perm (h₁ : order₁.Perm configured) (h₂ : order₂.Perm configured) :
    (order₂ ++ keptSchemas L (mergeResourceSchemas L existing order₁) configured).Perm
      (mergeResourceSchemas L existing order₁) :=
  (h₂.append (keptSchemas_merge_perm h₁)).trans (merge_perm h₁).symm

theorem merge_again (h₂ : order₂.Perm configured) :
    mergeResourceSchemas L (mergeResourceSchemas L existing order₁) order₂ =
      L.slices.sort (fun x y => compare (parseResourceGroup L x) (parseResourceGroup L y))
        (order₂ ++ keptSchemas L (mergeResourceSchemas L existing order₁) configured) := by
  rw [← keptSchemas_congr h₂]
  rfl

/-! ### When the result is the same -/

variable (L existing configured) in
/-- The order in which the configured schemas are enumerated makes no difference, and the same merge
once more changes nothing. -/
def MergesAlike : Prop :=
  ∀ order₁ order₂, order₁.Perm configured → order₂.Perm configured →
    mergeResourceSchemas L existing order₁ = mergeResourceSchemas L existing order₂ ∧
    (∀ x, x ∈ mergeResourceSchemas L existing order₁ ↔ x ∈ configured ∨ x ∈ existing ∧
      ∀ y ∈ configured, parseResourceGroup L y ≠ parseResourceGroup L x) ∧
    mergeResourceSchemas L (mergeResourceSchemas L existing order₁) order₂ =
      mergeResourceSchemas L existing order₁

theorem merge_separated (hconfigured : Separated L configured)
    (hkept : Separated L (keptSchemas L existing configured)) :
    MergesAlike L existing configured := by
  have hunique : ∀ {l l' : List String}, l.Perm (configured ++ keptSchemas L existing configured) →
      l'.Perm (configured ++ keptSchemas L existing configured) → l.Pairwise (Precedes L) →
      l'.Pairwise (Precedes L) → l = l' := by
    intro l l' hl hl' hsorted hsorted'
    refine List.Perm.eq_of_pairwise (fun a b ha hb hab hba => ?_) hsorted
      hsorted' (hl.trans hl'.symm)
    have heq := Precedes.antisymm hab hba
    rcases List.mem_append.mp (hl.mem_iff.mp ha) with ha | ha <;>
      rcases List.mem_append.mp (hl'.mem_iff.mp hb) with hb | hb
    · exact hconfigured a ha b hb heq
    · exact absurd heq ((mem_keptSchemas.mp hb).2 a ha)
    · exact absurd heq.symm ((mem_keptSchemas.mp ha).2 b hb)
    · exact hkept a ha b hb heq
  intro order₁ order₂ h₁ h₂
  refine ⟨?_, fun x => mem_merge_iff h₁, ?_⟩
  · exact hunique (merge_perm h₁) (merge_perm h₂) merge_sorted merge_sorted
  · refine hunique ?_ (merge_perm h₁) merge_sorted merge_sorted
    rw [merge_again h₂]
    exact (L.slices.perm _ _).trans ((again_perm h₁ h₂).trans (merge_perm h₁))

theorem merge_first (hkeeps : L.slices.KeepsSorted) (h : configured = [] ∨ ∃ x, configured = [x] ∧
      ∀ y ∈ keptSchemas L existing configured,
        compare (parseResourceGroup L x) (parseResourceGroup L y) = .lt) :
    MergesAlike L existing configured := by
  have hsorted :
      configured ++ keptSchemas L (mergeResourceSchemas L existing configured) configured =
      mergeResourceSchemas L existing configured := by
    rcases h with rfl | ⟨x, rfl, hfirst⟩
    · simp [keptSchemas]
    · have hperm : (mergeResourceSchemas L existing [x]).Perm ([x] ++ keptSchemas L existing [x]) :=
        merge_perm (.refl _)
      have hsorted : (mergeResourceSchemas L existing [x]).Pairwise (Precedes L) := merge_sorted
      -- the configured schema comes first in the sorted list
      cases hmerged : mergeResourceSchemas L existing [x] with
      | nil =>
        rw [hmerged] at hperm
        cases List.nil_perm.mp hperm
      | cons z rest =>
        have hz : z = x := by
          rw [hmerged] at hperm hsorted
          rcases List.mem_cons.mp (hperm.mem_iff.mp List.mem_cons_self) with hz | hz
          · exact hz
          · rcases List.mem_cons.mp (hperm.mem_iff.mpr List.mem_cons_self) with hx | hx
            · exact hx.symm
            · have hle := (List.pairwise_cons.mp hsorted).1 x hx
              have hlt := hfirst z hz
              have heq := Precedes.antisymm hle (by rw [Precedes, hlt]; rfl)
              exact absurd heq.symm ((mem_keptSchemas.mp hz).2 x List.mem_cons_self)
        subst hz
        rw [hmerged] at hperm
        have hrest : rest.Perm (keptSchemas L existing [z]) := hperm.cons_inv
        have hkept : keptSchemas L (z :: rest) [z] = rest := by
          unfold keptSchemas
          rw [List.filter_cons_of_neg (by simp), List.filter_eq_self]
          intro y hy
          have hother := (mem_keptSchemas.mp (hrest.mem_iff.mp hy)).2 z List.mem_cons_self
          simpa using hother.symm
        rw [hkept]
        rfl
  have horder : ∀ order : List String, order.Perm configured → order = configured := by
    intro order horder
    rcases h with rfl | ⟨x, rfl, -⟩
    · exact List.perm_nil.mp horder
    · exact List.perm_singleton.mp horder
  intro order₁ order₂ h₁ h₂
  obtain rfl := horder order₁ h₁
  obtain rfl := horder order₂ h₂
  refine ⟨rfl, fun x => mem_merge_iff (.refl _), ?_⟩
  rw [merge_again (.refl _), hsorted]
  exact hkeeps _ _ merge_sorted

/-! ### When it is not -/

theorem separated_of_insertion (hslices : L.slices = .insertion)
    (h : MergesAlike L existing configured) : Separated L configured := by
  intro x hx y hy heq
  by_contra hne
  have hperm : (x :: y :: (configured.erase x).erase y).Perm configured := by
    refine ((List.perm_cons_erase ?_).symm.cons x).trans (List.perm_cons_erase hx).symm
    exact (List.mem_erase_of_ne (Ne.symm hne)).mpr hy
  have hfilter : ∀ order, (mergeResourceSchemas L existing order).filter
      (fun z => decide (parseResourceGroup L z = parseResourceGroup L x)) =
      (order ++ keptSchemas L existing order).filter
        fun z => decide (parseResourceGroup L z = parseResourceGroup L x) := by
    intro order
    rw [mergeResourceSchemas, hslices]
    refine Sorting.filter_insertionSort (List.Pairwise.imp_of_mem ?_
      (List.pairwise_of_forall fun _ _ => trivial))
    intro z z' hz hz' _
    have hz := of_decide_eq_true (List.mem_filter.mp hz).2
    have hz' := of_decide_eq_true (List.mem_filter.mp hz').2
    exact Precedes.of_eq (hz.trans hz'.symm)
  have hsame := congrArg (fun l => l.filter fun z =>
    decide (parseResourceGroup L z = parseResourceGroup L x))
    (h _ _ hperm ((List.Perm.swap x y _).trans hperm)).1
  rw [hfilter, hfilter] at hsame
  simp only [List.cons_append, List.filter_cons, heq, decide_true, if_true] at hsame
  exact hne (List.cons.inj hsame).1

theorem exists_unsorted {kept : List String} (hset : configured.Nodup)
    (hseparated : Separated L configured) (hempty : configured ≠ [])
    (hkept : ∀ x ∈ configured, ∀ y ∈ kept, parseResourceGroup L x ≠ parseResourceGroup L y)
    (hfirst : ¬ ∃ x, configured = [x] ∧ ∀ y ∈ kept,
      compare (parseResourceGroup L x) (parseResourceGroup L y) = .lt) :
    ∃ order, order.Perm configured ∧ ¬ (order ++ kept).Pairwise (Precedes L) := by
  match configured with
  | [] => exact absurd rfl hempty
  | [x] =>
    refine ⟨[x], .refl _, fun hsorted => hfirst ⟨x, rfl, fun y hy => ?_⟩⟩
    have hle : Precedes L x y := (List.pairwise_cons.mp hsorted).1 y hy
    cases hcompare : compare (parseResourceGroup L x) (parseResourceGroup L y) with
    | lt => rfl
    | eq => exact absurd (Std.LawfulEqCmp.eq_of_compare hcompare) (hkept x List.mem_cons_self y hy)
    | gt =>
      rw [Precedes, hcompare] at hle
      cases hle
  | x :: y :: rest =>
    by_cases hsorted : (x :: y :: rest ++ kept).Pairwise (Precedes L)
    · refine ⟨y :: x :: rest, .swap _ _ _, fun hsorted' => ?_⟩
      have hxy := (List.pairwise_cons.mp hsorted).1 y List.mem_cons_self
      have hyx := (List.pairwise_cons.mp hsorted').1 x List.mem_cons_self
      have heq := hseparated x List.mem_cons_self y (by simp) (Precedes.antisymm hxy hyx)
      exact (List.nodup_cons.mp hset).1 (heq ▸ List.mem_cons_self)
    · exact ⟨_, .refl _, hsorted⟩

theorem insertion_again {again : List String} (hseparated : Separated L configured)
    (horder : order₂.Perm configured)
    (hagain : keptSchemas L (mergeResourceSchemas L existing configured) configured = again) :
    SortFunc.insertion.sort
      (fun x y => compare (parseResourceGroup L x) (parseResourceGroup L y)) (order₂ ++ again) =
      mergeResourceSchemas L existing configured := by
  have hperm : (order₂ ++ again).Perm (mergeResourceSchemas L existing configured) :=
    hagain ▸ again_perm (.refl configured) horder
  have hsorted : again.Pairwise (Precedes L) := hagain ▸ merge_sorted.filter _
  have hfilter : ((order₂ ++ again).filter fun schema =>
      !(configured.map (parseResourceGroup L)).contains (parseResourceGroup L schema)) = again := by
    rw [List.filter_append, List.filter_eq_nil_iff.mpr, List.nil_append, List.filter_eq_self]
    · subst hagain
      exact fun x hx => (List.mem_filter.mp hx).2
    · exact fun x hx => by simpa using ⟨x, horder.mem_iff.mp hx, rfl⟩
  refine Sorting.eq_of_filter_eq (r := Precedes L) (p := fun schema =>
    !(configured.map (parseResourceGroup L)).contains (parseResourceGroup L schema))
    ((SortFunc.insertion.perm _ _).trans hperm) (SortFunc.insertion.sorted _ _) merge_sorted ?_ ?_
  · refine (Sorting.filter_insertionSort ?_).trans (hfilter.trans hagain.symm)
    exact hfilter.symm ▸ hsorted
  · have hmem : ∀ x ∈ SortFunc.insertion.sort
        (fun x y => compare (parseResourceGroup L x) (parseResourceGroup L y)) (order₂ ++ again),
        x ∈ configured ∨ (!(configured.map (parseResourceGroup L)).contains
          (parseResourceGroup L x)) = true := by
      intro x hx
      rcases List.mem_append.mp ((SortFunc.insertion.perm _ _).mem_iff.mp hx) with hx | hx
      · exact .inl (horder.mem_iff.mp hx)
      · subst hagain
        exact .inr (List.mem_filter.mp hx).2
    intro x hx y hy hxy hyx
    have heq := Precedes.antisymm hxy hyx
    rcases hmem x hx with hx | hx <;> rcases hmem y hy with hy | hy
    · exact .inl (hseparated x hx y hy heq)
    · rw [← heq] at hy
      exact absurd hy (by simpa using ⟨x, hx, rfl⟩)
    · rw [heq] at hx
      exact absurd hx (by simpa using ⟨y, hy, rfl⟩)
    · exact .inr ⟨hx, hy⟩

theorem separated_of_unstable (hslices : L.slices = .unstable) (hset : configured.Nodup)
    (hseparated : Separated L configured) (h : MergesAlike L existing configured) :
    Separated L (keptSchemas L existing configured) ∨ configured = [] ∨
      ∃ x, configured = [x] ∧ ∀ y ∈ keptSchemas L existing configured,
        compare (parseResourceGroup L x) (parseResourceGroup L y) = .lt := by
  by_contra hcontra
  obtain ⟨hties, hcontra⟩ := not_or.mp hcontra
  obtain ⟨hempty, hfirst⟩ := not_or.mp hcontra
  have hkept : (keptSchemas L (mergeResourceSchemas L existing configured) configured).Perm
      (keptSchemas L existing configured) := keptSchemas_merge_perm (.refl _)
  have hmerged : (mergeResourceSchemas L existing configured).Perm
      (configured ++ keptSchemas L existing configured) := merge_perm (.refl _)
  generalize hagain : keptSchemas L (mergeResourceSchemas L existing configured) configured = again
    at hkept
  obtain ⟨order, horder, hunsorted⟩ := exists_unsorted hset hseparated hempty
    (fun x hx y hy => (mem_keptSchemas.mp (hkept.mem_iff.mp hy)).2 x hx)
    (fun ⟨x, hx, hlt⟩ => hfirst ⟨x, hx, fun y hy => hlt y (hkept.mem_iff.mpr hy)⟩)
  have hperm : (order ++ again).Perm (mergeResourceSchemas L existing configured) :=
    hagain ▸ again_perm (.refl configured) horder
  have hstable := insertion_again hseparated horder hagain
  obtain ⟨u, hu, v, hv, heq, hne⟩ : ∃ u ∈ keptSchemas L existing configured,
      ∃ v ∈ keptSchemas L existing configured,
        parseResourceGroup L u = parseResourceGroup L v ∧ u ≠ v := by
    simpa [Separated] using hties
  have hmem : ∀ {z}, z ∈ keptSchemas L existing configured →
      z ∈ mergeResourceSchemas L existing configured :=
    fun hz => hmerged.mem_iff.mpr (List.mem_append_right _ hz)
  obtain ⟨other, hother, hsorted, hdiffer⟩ := Sorting.exists_other_sorted (hmem hu) (hmem hv) hne
    (Precedes.of_eq heq) (Precedes.of_eq heq.symm)
  refine SortFunc.unstable_ne hunsorted ⟨other, hother.trans hperm.symm, hsorted, ?_⟩ ?_
  · rwa [hstable]
  · have hsame := (h configured order (.refl _) horder).2.2
    rw [merge_again horder, hagain, hslices] at hsame
    rw [hstable]
    exact hsame

/-- The merge does not depend on the order of the set, and it is idempotent, for every sort that
leaves sorted lists alone: exactly if no two configured schemas have the same resource, and no two
of the others that are kept, unless at most one schema is configured and it comes before these. -/
theorem mergesAlike_iff (L : Libraries) {existing configured : List String}
    (hset : configured.Nodup) :
    (∀ F : SortFunc, F.KeepsSorted → MergesAlike { L with slices := F } existing configured) ↔
      Separated L configured ∧ (Separated L (keptSchemas L existing configured) ∨ configured = [] ∨
        ∃ x, configured = [x] ∧ ∀ y ∈ keptSchemas L existing configured,
          compare (parseResourceGroup L x) (parseResourceGroup L y) = .lt) := by
  constructor
  · intro h
    have hseparated : Separated L configured := separated_of_insertion
      (L := { L with slices := .insertion }) rfl (h _ SortFunc.keepsSorted_insertion)
    exact ⟨hseparated,
      separated_of_unstable (L := { L with slices := .unstable }) rfl hset hseparated
      (h _ SortFunc.keepsSorted_unstable)⟩
  · rintro ⟨hseparated, hkept | hfirst⟩ F hkeeps
    · exact merge_separated (L := { L with slices := F }) hseparated hkept
    · exact merge_first (L := { L with slices := F }) hkeeps hfirst

/-- Sorting by insertion, with plain quotes. -/
def plainLibraries : Libraries := ⟨.insertion, compare, id, id⟩

theorem mergesAlike_single : SortFunc.insertion.KeepsSorted ∧
    MergesAlike { plainLibraries with slices := .insertion }
      ["v1.widgets.example.com", "v2.widgets.example.com"] ["v1.crontabs.example.com"] := by
  refine ⟨SortFunc.keepsSorted_insertion, (mergesAlike_iff plainLibraries
    (List.nodup_singleton _)).mpr ⟨?_, .inr (.inr ⟨_, rfl, ?_⟩)⟩ _ SortFunc.keepsSorted_insertion⟩
  · intro x hx y hy _
    rw [List.mem_singleton.mp hx, List.mem_singleton.mp hy]
  · decide +kernel

/-- Two schemas of CronTabs come in the order in which the set is enumerated, which is random. -/
theorem merge_depends_on_order : SortFunc.insertion.KeepsSorted ∧
    mergeResourceSchemas plainLibraries [] ["v1.crontabs.example.com", "v2.crontabs.example.com"] ≠
      mergeResourceSchemas plainLibraries [] ["v2.crontabs.example.com",
        "v1.crontabs.example.com"] ∧
    mergeResourceSchemas plainLibraries (mergeResourceSchemas plainLibraries []
        ["v1.crontabs.example.com", "v2.crontabs.example.com"])
        ["v2.crontabs.example.com", "v1.crontabs.example.com"] ≠
      mergeResourceSchemas plainLibraries []
        ["v1.crontabs.example.com", "v2.crontabs.example.com"] :=
  ⟨SortFunc.keepsSorted_insertion, by decide +kernel, by decide +kernel⟩

end ApiExport
