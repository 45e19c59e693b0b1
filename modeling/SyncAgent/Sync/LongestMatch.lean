import SyncAgent.Lib.Replacer
import SyncAgent.Sync.LegacyNaming

/-! Naming patterns with `$remote…` variables are expanded from left to right, the longest variable
first, and what stands for a variable is not expanded again (`generateLocalObjectIdentifier` in
`internal/sync/templating/naming.go`). -/

namespace Sync

open Kube Replacer

namespace Placeholder

theorem text_injective : Function.Injective fun p : Placeholder => p.text.toList := by
  intro p q h
  cases p <;> cases q <;> first | rfl | exact absurd h (by decide)

theorem text_ne_nil (p : Placeholder) : p.text.toList ≠ [] := by
  cases p <;> decide

theorem all_pairwise : all.Pairwise fun p q => ¬ p.text.toList <+: q.text.toList := by
  decide

end Placeholder

section Scan

variable (value : Placeholder → List Char)

theorem replaceAll_longestScan {fuel : Nat} {s : List Char} (hfuel : s.length ≤ fuel) :
    LongestScan (fun p : Placeholder => p.text.toList) value s
      (replaceAll (Placeholder.all.map fun p => (p.text.toList, value p)) fuel s) := by
  rw [replaceAll_eq_flatMap]
  induction fuel generalizing s with
  | zero =>
    rw [List.length_eq_zero_iff.mp (Nat.le_zero.mp hfuel)]
    exact .nil
  | succ fuel ih =>
    cases s with
    | nil => exact .nil
    | cons c rest =>
      rw [tokens]
      cases hfind : Placeholder.all.find? fun p => p.text.toList.isPrefixOf (c :: rest) with
      | none =>
        refine .copy (fun p hp => ?_) (ih (Nat.le_of_succ_le_succ hfuel))
        exact List.find?_eq_none.mp hfind p p.mem_all (List.isPrefixOf_iff_prefix.mpr hp)
      | some p =>
        have hlongest : ∀ q : Placeholder, q.text.toList <+: c :: rest →
            q.text.toList.length ≤ p.text.toList.length :=
          fun q hq => length_le_of_find? Placeholder.mem_all Placeholder.all_pairwise hfind hq
        have hpos := List.length_pos_iff.mpr p.text_ne_nil
        obtain ⟨behind, hbehind⟩ := Placeholder.prefix_of_find hfind
        rw [← hbehind] at hfuel hlongest ⊢
        rw [List.length_append] at hfuel
        simp only [List.drop_left, List.flatMap_cons, Token.render]
        exact .replace hlongest (ih (by omega))

end Scan

variable (hash : Hash) (engine : GoTemplate.Engine)

/-- A pattern that is no template is expanded to the one result of the scan for the longest
variables: the values are put in as they are, whatever they contain. -/
theorem generateLocalObjectIdentifier_longestScan {pattern : String}
    (hpattern : contains pattern "\x7b\x7b" = false) (object : Unstructured)
    (clusterName workspacePath : String) :
    ∃ out, generateLocalObjectIdentifier hash engine pattern object clusterName workspacePath =
        .ok out ∧
      LongestScan (fun p : Placeholder => p.text.toList)
        (fun p => (p.value hash object clusterName).toList) pattern.toList out.toList ∧
      ∀ out', LongestScan (fun p : Placeholder => p.text.toList)
        (fun p => (p.value hash object clusterName).toList) pattern.toList out' →
          out' = out.toList := by
  have hscan := replaceAll_longestScan (fun p => (p.value hash object clusterName).toList)
    (le_refl pattern.toList.length)
  refine ⟨String.ofList (replaceAll (Placeholder.all.map fun p =>
    (p.text.toList, (p.value hash object clusterName).toList)) pattern.toList.length
      pattern.toList), ?_, ?_, ?_⟩
  · rw [generateLocalObjectIdentifier, if_neg (by simp [hpattern])]
    rfl
  · rwa [String.toList_ofList]
  · intro out' h
    rw [String.toList_ofList]
    exact h.unique Placeholder.text_injective Placeholder.text_ne_nil hscan

/-- Three variables start at the beginning of the pattern.  The longest one is replaced, and the
name, which is the text of a variable, stays as it is. -/
theorem longestScan_namespaceHash :
    contains "$remoteNamespaceHash-$remoteName" "\x7b\x7b" = false ∧
    LongestScan (fun p : Placeholder => p.text.toList)
      (fun p => (p.value .plain ⟨crontabType, { name := "$remoteClusterName", ns := "team-a" },
        default⟩ "c1").toList) "$remoteNamespaceHash-$remoteName".toList
        "team-a-$remoteClusterName".toList := by
  have hpattern : contains "$remoteNamespaceHash-$remoteName" "\x7b\x7b" = false := by
    decide +kernel
  obtain ⟨out, hout, hscan, -⟩ :=
    generateLocalObjectIdentifier_longestScan .plain sampleEngine hpattern
    ⟨crontabType, { name := "$remoteClusterName", ns := "team-a" }, default⟩ "c1" ""
  obtain rfl : "team-a-$remoteClusterName" = out := Except.ok.inj hout
  exact ⟨hpattern, hscan⟩

end Sync
