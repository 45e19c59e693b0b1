import Mathlib.Data.List.Infix
import Mathlib.Logic.Function.Defs

/-! Replacing words in a text.  `LongestScan` says what a scan from left to right returns when it
takes the longest word at each place; the lemmas say that the scan has one result, and that a list
of words in which no word stands before one that it starts finds the longest one first. -/

namespace Replacer

variable {ι α : Type} (word value : ι → List α)

/-- The text is read from left to right.  Where words start, the longest of them is replaced by its
value and the scan goes on behind it; other elements are copied.  Values are not read again. -/
inductive LongestScan : List α → List α → Prop
  | nil : LongestScan [] []
  | replace {i : ι} {rest out : List α}
      (longest : ∀ j, word j <+: word i ++ rest → (word j).length ≤ (word i).length)
      (scan : LongestScan rest out) : LongestScan (word i ++ rest) (value i ++ out)
  | copy {a : α} {rest out : List α} (absent : ∀ j, ¬ word j <+: a :: rest)
      (scan : LongestScan rest out) : LongestScan (a :: rest) (a :: out)

variable {word value}

theorem LongestScan.unique (hinj : Function.Injective word) (hne : ∀ i, word i ≠ [])
    {s out out' : List α} (h : LongestScan word value s out) (h' : LongestScan word value s out') :
    out = out' := by
  induction h generalizing out' with
  | nil =>
    generalize hs : ([] : List α) = s at h'
    cases h' with
    | nil => rfl
    | @replace i rest out longest scan =>
      exact absurd (List.append_eq_nil_iff.mp hs.symm).1 (hne i)
    | copy absent scan => cases hs
  | @replace i rest out longest scan ih =>
    generalize hs : word i ++ rest = s at h'
    cases h' with
    | nil => exact absurd (List.append_eq_nil_iff.mp hs).1 (hne i)
    | @replace j rest' out' longest' scan' =>
      have hj : word j <+: word i ++ rest := hs ▸ List.prefix_append _ _
      have hi : word i <+: word j ++ rest' := hs ▸ List.prefix_append _ _
      have hlen := Nat.le_antisymm (longest' i hi) (longest j hj)
      obtain ⟨hword, rfl⟩ := List.append_inj hs hlen
      rw [hinj hword, ih scan']
    | copy absent scan' => exact absurd (hs ▸ List.prefix_append _ _) (absent i)
  | @copy a rest out absent scan ih =>
    generalize hs : a :: rest = s at h'
    cases h' with
    | nil => cases hs
    | @replace j rest' out' longest' scan' =>
      exact absurd (hs ▸ List.prefix_append _ _) (absent j)
    | copy absent' scan' =>
      obtain ⟨rfl, rfl⟩ := List.cons.inj hs
      rw [ih scan']

theorem length_le_of_find? [DecidableEq α] {order : List ι} (hall : ∀ i, i ∈ order)
    (horder : order.Pairwise fun i j => ¬ word i <+: word j) {s : List α} {i : ι}
    (hfind : (order.find? fun i => (word i).isPrefixOf s) = some i) {j : ι} (hj : word j <+: s) :
    (word j).length ≤ (word i).length := by
  obtain ⟨hi, before, after, rfl, hbefore⟩ := List.find?_eq_some_iff_append.mp hfind
  rw [List.isPrefixOf_iff_prefix] at hi
  by_contra hlt
  rcases List.mem_append.mp (hall j) with hmem | hmem
  · have hnot := hbefore j hmem
    rw [List.isPrefixOf_iff_prefix.mpr hj] at hnot
    cases hnot
  · rcases List.mem_cons.mp hmem with rfl | hmem
    · exact hlt le_rfl
    · have hafter := (List.pairwise_cons.mp (List.pairwise_append.mp horder).2.1).1 j hmem
      exact hafter (List.prefix_of_prefix_length_le hi hj (Nat.le_of_not_le hlt))

end Replacer
