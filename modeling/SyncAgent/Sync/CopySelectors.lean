import SyncAgent.Sync.Meta

/-! The labels of the copies of related objects and the selector that finds them
(`relatedCopyLabels`, `relatedOwnerHash` and `relatedCopySelector` in `internal/sync/meta.go`).  The
selector is used on a cluster that all tenants share, so it must match the copies of one owner and
no others. -/

namespace Sync

open Kube

theorem intercalate_inj {c : Char} {l l' : List String} (hl : ∀ s ∈ l, c ∉ s.toList)
    (hl' : ∀ s ∈ l', c ∉ s.toList) (hne : l ≠ []) (hne' : l' ≠ [])
    (h : (String.singleton c).intercalate l = (String.singleton c).intercalate l') : l = l' := by
  have hlists := congrArg (fun s => s.toList.splitOn c) h
  simp only [String.toList_intercalate, String.toList_singleton] at hlists
  rw [List.splitOn_intercalate, List.splitOn_intercalate] at hlists
  · exact (List.map_inj_right fun a b hab => String.toList_inj.mp hab).mp hlists
  · simpa using hl'
  · simpa using hne'
  · simpa using hl
  · simpa using hne

/-- What the labels of a copy are made from. -/
structure CopyOwner where
  clusterName : String
  publishedResourceName : String
  ns : String
  name : String
  identifier : String
  agentName : String
deriving DecidableEq

namespace CopyOwner

def ofPrimary (primary : Unstructured)
    (clusterName publishedResourceName identifier agentName : String) : CopyOwner :=
  { clusterName, publishedResourceName, ns := primary.metadata.ns, name := primary.metadata.name,
    identifier, agentName }

/-- The texts that are hashed together. -/
def hashed (t : CopyOwner) : List String := [t.clusterName, t.publishedResourceName, t.ns, t.name]

/-- None of the hashed texts contains the separator. -/
def NulFree (t : CopyOwner) : Prop := ∀ s ∈ t.hashed, '\x00' ∉ s.toList

instance (t : CopyOwner) : Decidable t.NulFree := inferInstanceAs (Decidable (∀ s ∈ t.hashed, _))

end CopyOwner

section Selector

variable {hash : Hash} {primary primary' : Unstructured}
  {clusterName publishedResourceName identifier agentName : String}
  {clusterName' publishedResourceName' identifier' agentName' : String}

theorem relatedOwnerHash_inj (hhash : ∀ s t, hash (.text s) = hash (.text t) → s = t)
    {t t' : CopyOwner} (ht : t.NulFree) (ht' : t'.NulFree)
    (h : relatedOwnerHash hash t.clusterName t.publishedResourceName t.ns t.name =
      relatedOwnerHash hash t'.clusterName t'.publishedResourceName t'.ns t'.name) :
    t.hashed = t'.hashed :=
  intercalate_inj ht ht' (List.cons_ne_nil _ _) (List.cons_ne_nil _ _) (hhash _ _ h)

theorem contains_relatedCopyLabels_iff (hagent : agentName ≠ "") {labels : StringMap} :
    labels.Contains (relatedCopyLabels hash primary clusterName publishedResourceName identifier
        agentName) ↔
      labels.get? relatedOwnerLabel = some (relatedOwnerHash hash clusterName publishedResourceName
        primary.metadata.ns primary.metadata.name) ∧
      labels.get? relatedIdentifierLabel = some identifier ∧
      labels.get? agentNameLabel = some agentName := by
  have hidentifier : relatedIdentifierLabel ≠ relatedOwnerLabel := by decide
  have hname : agentNameLabel ≠ relatedOwnerLabel := by decide
  have hname' : agentNameLabel ≠ relatedIdentifierLabel := by decide
  unfold relatedCopyLabels SortedMap.Contains
  simp only [ne_eq, hagent, not_false_eq_true, if_true, SortedMap.get?_insert, SortedMap.get?_empty]
  constructor
  · intro h
    refine ⟨h _ _ ?_, h _ _ ?_, h _ _ ?_⟩
    · rw [if_neg hname.symm, if_neg hidentifier.symm, if_pos rfl]
    · rw [if_neg hname'.symm, if_pos rfl]
    · rw [if_pos rfl]
  · rintro ⟨howner, hid, hagent⟩ k v hk
    split at hk
    · next heq => rw [heq, hagent, hk]
    · split at hk
      · next heq => rw [heq, hid, hk]
      · split at hk
        · next heq => rw [heq, howner, hk]
        · cases hk

/-- The selector of a copy's owner matches the labels of another one's copies, whatever other labels
these carry, exactly if the owners are the same. -/
theorem relatedCopySelector_iff (hhash : ∀ s t, hash (.text s) = hash (.text t) → s = t)
    (hnul : (CopyOwner.ofPrimary primary clusterName publishedResourceName identifier
      agentName).NulFree)
    (hnul' : (CopyOwner.ofPrimary primary' clusterName' publishedResourceName' identifier'
      agentName').NulFree)
    (hagent : agentName ≠ "") (hagent' : agentName' ≠ "") (labels : StringMap) :
    relatedCopySelector hash primary clusterName publishedResourceName identifier agentName
        (labels.insertAll (relatedCopyLabels hash primary' clusterName' publishedResourceName'
          identifier' agentName')) = true ↔
      CopyOwner.ofPrimary primary clusterName publishedResourceName identifier agentName =
        CopyOwner.ofPrimary primary' clusterName' publishedResourceName'
        identifier' agentName' := by
  obtain ⟨howner, hidentifier, hname⟩ := (contains_relatedCopyLabels_iff hagent').mp
    (SortedMap.contains_insertAll labels (relatedCopyLabels hash primary' clusterName'
      publishedResourceName' identifier' agentName'))
  unfold relatedCopySelector
  rw [selectorFromSet_iff, contains_relatedCopyLabels_iff hagent, howner, hidentifier, hname]
  constructor
  · rintro ⟨hhashed, hid, hagent⟩
    have htexts := relatedOwnerHash_inj hhash hnul hnul' (Option.some.inj hhashed).symm
    simp only [CopyOwner.hashed, CopyOwner.ofPrimary, List.cons.injEq, and_true] at htexts
    obtain ⟨hcluster, hresource, hns, hprimary⟩ := htexts
    simp only [CopyOwner.ofPrimary, CopyOwner.mk.injEq]
    exact ⟨hcluster, hresource, hns, hprimary, (Option.some.inj hid).symm,
      (Option.some.inj hagent).symm⟩
  · intro h
    simp only [CopyOwner.ofPrimary, CopyOwner.mk.injEq] at h
    obtain ⟨rfl, rfl, hns, hprimary, rfl, rfl⟩ := h
    rw [hns, hprimary]
    exact ⟨rfl, rfl, rfl⟩

/-- A cluster-scoped owner does not select the copies of a namespaced one with the same name. -/
theorem relatedCopySelector_clusterScoped :
    (CopyOwner.ofPrimary ⟨.configMap, { name := "daily" }, default⟩ "c1" "crontabs" "credentials"
      "agent").NulFree ∧
    relatedCopySelector .plain ⟨.configMap, { name := "daily" }, default⟩ "c1"
      "crontabs" "credentials"
      "agent" ((SortedMap.insert ∅ "team" "a").insertAll (relatedCopyLabels .plain
        ⟨.configMap, { name := "daily", ns := "team-a" }, default⟩ "c1" "crontabs" "credentials"
          "agent")) = false := by
  refine ⟨by decide, Bool.eq_false_iff.mpr fun hmatches => ?_⟩
  have hsame := (relatedCopySelector_iff (fun _ _ h => h) (by decide) (by decide)
    (by decide) (by decide) _).mp hmatches
  exact absurd hsame (by decide)

end Selector

end Sync
