import SyncAgent.Sync.Outcome
import SyncAgent.Sync.Related
import SyncAgent.Lib.Paths

/-! `syncObjectSpec` as a three-way merge of the last-known state of the source object, its current
state and the destination object. -/

namespace Sync

open Kube

namespace ObjectSyncer

variable {S : Server} {L : Libraries} {scope : Scope} {σ : ObjectSyncer}
  {sourceSide destSide : SyncSide} {source dest last cur cur' o : Unstructured} {requeue : Bool}
  {w w' : World}

/-- `o` is what a server has made of `next`, an object that was written over `cur`. -/
structure Settled (S : Server) (client : Client) (cur next o : Unstructured) : Prop where
  labels : o.metadata.labels = next.metadata.labels
  annotations : o.metadata.annotations = next.metadata.annotations
  content : ∀ k, (S.hasStatus client cur.typeMeta = true → k ≠ "status") →
    o.content.fields.get? k = next.content.fields.get? k
  status : S.hasStatus client cur.typeMeta = true →
    o.content.field "status" = cur.content.field "status"
  unset : S.hasStatus client cur.typeMeta = true → cur.content.fields.get? "status" = none →
    o.content.fields.get? "status" = none

theorem Settled.refl (S : Server) (client : Client) (cur : Unstructured) :
    Settled S client cur cur cur :=
  ⟨rfl, rfl, fun _ _ => rfl, fun _ => rfl, fun _ h => h⟩

theorem Settled.of_becomes {client : Client} {id : ObjectId} {next : Unstructured}
    (h : w'.Becomes id (S.settle client cur next) o) : Settled S client cur next o := by
  obtain ⟨rv, hmeta⟩ := h.metadata
  have hcontent := h.content
  rw [Server.content_settle] at hcontent
  refine ⟨by rw [hmeta]; rfl, by rw [hmeta]; rfl, fun k hk => ?_, fun hs => ?_, fun hs hnone => ?_⟩
  · rw [hcontent, Server.get?_mainContent hk]
  · rw [hcontent, Server.mainContent, if_pos hs, Content.field_setStatus]
  · have hnull : cur.content.field "status" = .null := by rw [Content.field, hnone]; rfl
    rw [hcontent, Server.mainContent, if_pos hs, hnull, Content.setStatus, if_pos rfl,
      Content.get?_without, if_pos (by simp)]

/-- The destination object after `syncObjectSpec` with a last-known state, whether it was patched or
there was nothing to patch. -/
theorem spec_known
    (h : Returns S (σ.syncObjectSpec L scope sourceSide destSide source dest) w (requeue, o) w')
    (hlast : σ.lastKnown L sourceSide source w = some last)
    (hcur : w.object? (dest.idOn destSide.client) = some cur)
    (hcur' : w'.object? (dest.idOn destSide.client) = some cur') :
    Settled S destSide.client cur (afterPatch L σ sourceSide last source dest cur) cur' := by
  cases syncObjectSpec_returns h with
  | updated hnone =>
    rw [hlast] at hnone
    cases hnone
  | @clean last' hlast' hclean =>
    obtain rfl : last = last' := Option.some.inj (hlast.symm.trans hlast')
    obtain rfl : cur = cur' := Option.some.inj (hcur.symm.trans hcur')
    have hsame := Unstructured.toFields_injective (L.diff.create_eq_empty_iff.mp hclean)
    have hafter : afterPatch L σ sourceSide last source dest cur = cur := by
      rw [afterPatch, hsame, Unstructured.patched_self]
    rw [hafter]
    exact .refl S destSide.client cur
  | @patched last' _ w₁ _ hlast' hdirty hexec hstores =>
    obtain rfl : last = last' := Option.some.inj (hlast.symm.trans hlast')
    rcases does_afterPatch (.inl hexec) with ⟨e, he, -⟩ | ⟨cur₁, o₁, hcur₁, -, -, hrew⟩
    · cases he
    · obtain rfl : cur = cur₁ := Option.some.inj (hcur.symm.trans hcur₁)
      rw [hstores.objects] at hcur'
      obtain rfl := hrew.eq_of_object hcur'
      exact .of_becomes hrew.becomes

theorem spec_unknown
    (h : Returns S (σ.syncObjectSpec L scope sourceSide destSide source dest) w (requeue, o) w')
    (hlast : σ.lastKnown L sourceSide source w = none)
    (hcur : w.object? (dest.idOn destSide.client) = some cur)
    (hcur' : w'.object? (dest.idOn destSide.client) = some cur') :
    Settled S destSide.client cur (σ.fullUpdate source dest) cur' := by
  cases syncObjectSpec_returns h with
  | clean hsome => rw [hlast] at hsome; cases hsome
  | patched hsome => rw [hlast] at hsome; cases hsome
  | @updated _ w₁ _ _ hexec hstores =>
    have hid : (σ.fullUpdate source dest).idOn destSide.client = dest.idOn destSide.client := rfl
    rcases World.Does.update (.inl hexec) with ⟨e, he, -⟩ | ⟨cur₁, o₁, hcur₁, -, -, -, hrew⟩
    · cases he
    · rw [hid] at hcur₁ hrew
      obtain rfl : cur = cur₁ := Option.some.inj (hcur.symm.trans hcur₁)
      rw [hstores.objects] at hcur'
      obtain rfl := hrew.eq_of_object hcur'
      exact .of_becomes hrew.becomes

/-! ### Labels and annotations of other parties -/

variable (L σ sourceSide source) in
/-- The labels that link the destination object to its source. -/
def linkLabels : StringMap :=
  if σ.metadataOnDestination then (keyOf sourceSide source).labels L.hash else ∅

variable (σ sourceSide source) in
/-- The annotations that link the destination object to its source. -/
def linkAnnotations : StringMap :=
  if σ.metadataOnDestination then (keyOf sourceSide source).annotations else ∅

theorem addMissing_empty (base current : StringMap) : addMissing base current ∅ = base :=
  addMissing_of_contains fun _ _ h => by cases h

theorem labels_desiredState : (σ.desiredState L sourceSide source dest).metadata.labels =
    addMissing (filterUnsyncableLabels source.metadata.labels) dest.metadata.labels
      (σ.linkLabels L sourceSide source) := by
  unfold desiredState linkLabels
  split
  · rfl
  · rw [addMissing_empty]
    rfl

theorem annotations_desiredState : (σ.desiredState L sourceSide source dest).metadata.annotations =
    addMissing (filterUnsyncableAnnotations source.metadata.annotations) dest.metadata.annotations
      (σ.linkAnnotations sourceSide source) := by
  unfold desiredState linkAnnotations
  split
  · rfl
  · rw [addMissing_empty]
    rfl

theorem addMissing_eq_empty_iff {base current desired : StringMap} :
    addMissing base current desired = ∅ ↔ base = ∅ ∧ current.Contains desired := by
  constructor
  · intro h
    have hget : ∀ k, (addMissing base current desired).get? k = none := fun k => by
      rw [h, SortedMap.get?_empty]
    have hbase : base = ∅ := by_contra fun hne => addMissing_ne_empty hne h
    refine ⟨hbase, fun k v hk => by_contra fun hne => ?_⟩
    have hk' := hget k
    simp [addMissing, hk, hne, Option.filter] at hk'
  · rintro ⟨rfl, hcontains⟩
    exact addMissing_of_contains hcontains

variable (L σ sourceSide source) in
/-- The metadata that the syncer itself puts on a destination object. -/
def ownMetadata : ObjectMeta :=
  (σ.ensureDestMetadata
    (σ.linkMetadata L sourceSide source { source with metadata := {} })).metadata

theorem linkLabels_of_own {k : String}
    (h : (σ.ownMetadata L sourceSide source).labels.get? k = none) :
    (σ.linkLabels L sourceSide source).get? k = none := by
  unfold linkLabels
  unfold ownMetadata ensureDestMetadata linkMetadata labelWithAgent at h
  split
  · next hlink =>
    rw [if_pos hlink] at h
    split at h <;> simp_all [ensureLabels, ensureAnnotations, keyOf]
  · rfl

theorem linkAnnotations_of_own {k : String}
    (h : (σ.ownMetadata L sourceSide source).annotations.get? k = none) :
    (σ.linkAnnotations sourceSide source).get? k = none := by
  unfold linkAnnotations
  unfold ownMetadata ensureDestMetadata linkMetadata labelWithAgent at h
  split
  · next hlink =>
    rw [if_pos hlink] at h
    split at h <;> simp_all [ensureLabels, ensureAnnotations, keyOf]
  · rfl

/-- A key of another party: the source object does not have it, did not have it when it was last
synced, and the syncer does not set it itself. -/
structure Foreign (last source own : StringMap) (k : String) : Prop where
  last : last.get? k = none
  source : source.get? k = none
  own : own.get? k = none

/-- The source had entries that are copied, it has none any more, nothing of the link is missing,
and the destination object has an entry of another party. -/
structure Emptied (syncable : String → Bool) (last source link own dest cur : StringMap) :
    Prop where
  had : last ≠ ∅
  removed : source.filterKeys syncable = ∅
  linked : dest.Contains link
  foreign : ∃ k, Foreign last source own k ∧ cur.get? k ≠ none

/-- A patch keeps the entries of other parties, unless it removes the whole map. -/
theorem patchMap_foreign_iff {syncable : String → Bool} {last source link own dest cur : StringMap}
    (hlink : ∀ k, own.get? k = none → link.get? k = none) :
    (∀ k, Foreign last source own k →
      (patchMap last (addMissing (source.filterKeys syncable) dest link) cur).get? k = cur.get? k) ↔
    ¬ Emptied syncable last source link own dest cur := by
  have hdesired : ∀ k, Foreign last source own k →
      (addMissing (source.filterKeys syncable) dest link).get? k = none := by
    intro k hk
    simp [addMissing, hk.source, hlink k hk.own]
  by_cases hwiped : last ≠ ∅ ∧ addMissing (source.filterKeys syncable) dest link = ∅
  · -- the patch has `null` for the whole map
    obtain ⟨hlast, hempty⟩ := hwiped
    obtain ⟨hremoved, hlinked⟩ := addMissing_eq_empty_iff.mp hempty
    have hget :
        ∀ k, (patchMap last (addMissing (source.filterKeys syncable) dest link) cur).get? k =
        none := by
      intro k
      rw [get?_patchMap, hempty, if_neg hlast, if_pos rfl]
    constructor
    · rintro hkept ⟨-, -, -, k, hk, hne⟩
      exact hne ((hkept k hk).symm.trans (hget k))
    · intro hnot k hk
      rw [hget k]
      by_contra hne
      exact hnot ⟨hlast, hremoved, hlinked, k, hk, fun h => hne h.symm⟩
  · refine iff_of_true (fun k hk => ?_) fun h => hwiped ⟨h.had, addMissing_eq_empty_iff.mpr
      ⟨h.removed, h.linked⟩⟩
    rw [get?_patchMap, hdesired k hk, hk.last, if_pos rfl]
    by_cases heq : last = addMissing (source.filterKeys syncable) dest link
    · rw [if_pos heq]
    · rw [if_neg heq, if_neg fun hempty => hwiped ⟨fun h => heq (h.trans hempty.symm), hempty⟩]

/-- The labels and annotations of other parties stay on the destination object as they are if and
only if neither map is emptied. -/
theorem foreign_metadata_kept_iff
    (h : Returns S (σ.syncObjectSpec L scope sourceSide destSide source dest) w (requeue, o) w')
    (hlast : σ.lastKnown L sourceSide source w = some last)
    (hcur : w.object? (dest.idOn destSide.client) = some cur)
    (hcur' : w'.object? (dest.idOn destSide.client) = some cur') :
    ((∀ k, Foreign last.metadata.labels source.metadata.labels
        (σ.ownMetadata L sourceSide source).labels k →
        cur'.metadata.labels.get? k = cur.metadata.labels.get? k) ∧
      ∀ k, Foreign last.metadata.annotations source.metadata.annotations
        (σ.ownMetadata L sourceSide source).annotations k →
        cur'.metadata.annotations.get? k = cur.metadata.annotations.get? k) ↔
    ¬ Emptied syncableLabel last.metadata.labels source.metadata.labels
        (σ.linkLabels L sourceSide source) (σ.ownMetadata L sourceSide source).labels
        dest.metadata.labels cur.metadata.labels ∧
      ¬ Emptied syncableAnnotation last.metadata.annotations source.metadata.annotations
        (σ.linkAnnotations sourceSide source) (σ.ownMetadata L sourceSide source).annotations
        dest.metadata.annotations cur.metadata.annotations := by
  have hsettled := spec_known h hlast hcur hcur'
  have hlabels : cur'.metadata.labels = patchMap last.metadata.labels
      (σ.desiredState L sourceSide source dest).metadata.labels cur.metadata.labels :=
    hsettled.labels
  have hannotations : cur'.metadata.annotations = patchMap last.metadata.annotations
      (σ.desiredState L sourceSide source dest).metadata.annotations cur.metadata.annotations :=
    hsettled.annotations
  rw [hlabels, hannotations, labels_desiredState, annotations_desiredState]
  exact and_congr (patchMap_foreign_iff fun _ => linkLabels_of_own)
    (patchMap_foreign_iff fun _ => linkAnnotations_of_own)

/-- A syncer without options that keeps the names. -/
def plainSyncer : ObjectSyncer where
  destCreator := .ok
  stateStore := ⟨⟨"kcp-system", "state"⟩, ∅⟩

/-- The CronTab with labels and content. -/
def crontabWith (labels : StringMap) (content : Fields) : Unstructured :=
  { crontab "team-a" with metadata.labels := labels, content := .ofFields content }

abbrev crontabSource : SyncSide := { client := .remoteClient "c1", clusterName := "c1" }

abbrev crontabDest : SyncSide := { client := .localClient }

/-- A world with a remembered state and a destination object. -/
def rememberedWorld (last cur : Unstructured) : World :=
  (Fallible.eval (exec .setting) (ObjectStateStore.put Libraries.sample.hash plainSyncer.stateStore
    ⟨"c1", "team-a", "daily", none⟩ last "c1" []) (World.empty.put .localClient cur)).2

/-- `syncObjectSpec` of a source object and the destination object. -/
def specResult (σ : ObjectSyncer) (source cur : Unstructured) (w : World) :
    Except Error (Bool × Unstructured) × World :=
  Fallible.eval (exec .setting) (σ.syncObjectSpec .sample ⟨"c1", "team-a", "daily", none⟩
    crontabSource crontabDest source cur) w

theorem specResult_returns (σ : ObjectSyncer) (source cur : Unstructured) (w : World)
    (h : (specResult σ source cur w).1.toOption.isSome) : ∃ requeue o,
      Returns .setting (σ.syncObjectSpec .sample ⟨"c1", "team-a", "daily", none⟩
        crontabSource crontabDest source cur) w (requeue, o) (specResult σ source cur w).2 := by
  obtain ⟨⟨requeue, o⟩, hr⟩ := Option.isSome_iff_exists.mp h
  exact ⟨requeue, o, Returns.of_eval (Returns.ok_of_toOption hr)⟩

theorem foreign_metadata_kept_crontab :
    let team := SortedMap.insert ∅ "team" "a"
    let cur := crontabWith (team.insert "cost" "7") ∅
    let w := rememberedWorld (crontabWith team ∅) cur
    let source := crontabWith (SortedMap.insert ∅ "team" "b") ∅
    ∃ cur', (specResult plainSyncer source cur w).2.object? (cur.idOn .localClient) = some cur' ∧
      cur'.metadata.labels.get? "cost" = some "7" := by
  intro team cur w source
  obtain ⟨requeue, o, hret⟩ := specResult_returns plainSyncer source cur w (by decide +kernel)
  obtain ⟨cur', hcur'⟩ := Option.isSome_iff_exists.mp
    (show ((specResult plainSyncer source cur w).2.object? (cur.idOn .localClient)).isSome by
      decide +kernel)
  refine ⟨cur', hcur', ?_⟩
  have hlast : plainSyncer.lastKnown .sample crontabSource source w =
    some (crontabWith team ∅) := by
    decide +kernel
  have hcur : w.object? (cur.idOn .localClient) = some cur := by decide +kernel
  have hkept := ((foreign_metadata_kept_iff hret hlast hcur hcur').mpr
    ⟨fun h => absurd h.removed (by decide +kernel), fun h => absurd rfl h.had⟩).1
  exact (hkept "cost" ⟨by decide +kernel, by decide +kernel, by decide +kernel⟩).trans
    (by decide +kernel)

/-- When the last label of the source is removed, the destination object loses the labels of other
parties as well. -/
theorem foreign_label_lost :
    let team := SortedMap.insert ∅ "team" "a"
    let cur := crontabWith (team.insert "cost" "7") ∅
    let source := crontabWith ∅ ∅
    ∃ w requeue o w' cur',
      Returns .setting (plainSyncer.syncObjectSpec .sample ⟨"c1", "team-a", "daily", none⟩
        crontabSource crontabDest source cur) w (requeue, o) w' ∧
      plainSyncer.lastKnown .sample crontabSource source w = some (crontabWith team ∅) ∧
      w.object? (cur.idOn .localClient) = some cur ∧
      w'.object? (cur.idOn .localClient) = some cur' ∧
      Foreign (crontabWith team ∅).metadata.labels source.metadata.labels
        (plainSyncer.ownMetadata .sample crontabSource source).labels "cost" ∧
      cur.metadata.labels.get? "cost" = some "7" ∧ cur'.metadata.labels.get? "cost" = none := by
  intro team cur source
  have hafter :
      (((specResult plainSyncer source cur (rememberedWorld (crontabWith team ∅) cur)).2.object?
      (cur.idOn .localClient)).map fun o => o.metadata.labels.get? "cost") = some none := by
    decide +kernel
  obtain ⟨cur', hcur', hlost⟩ := Option.map_eq_some_iff.mp hafter
  obtain ⟨requeue, o, hret⟩ := specResult_returns plainSyncer source cur
    (rememberedWorld (crontabWith team ∅) cur) (by decide +kernel)
  exact ⟨_, requeue, o, _, cur', hret, by decide +kernel, by decide +kernel, hcur',
    ⟨by decide +kernel, by decide +kernel, by decide +kernel⟩, by decide +kernel, hlost⟩

/-! ### Content -/

variable (σ) in
/-- The content that is synced: the top-level fields but the envelope and the subresources. -/
def contentOf (o : Unstructured) : Fields := (o.content.without σ.subresources).fields

theorem get?_contentOf (o : Unstructured) (k : String) :
    (σ.contentOf o).get? k = if k ∈ σ.subresources then none else o.content.fields.get? k :=
  Content.get?_without _ _ _

/-- The content of `D'` is that of `D` merged: it has what `S` says, nothing that was removed since
`L`, and everything else as it was. -/
structure Merged (L S D D' : Fields) : Prop where
  covers : D'.Covers S
  removed : ∀ p u, L.valueAt p = some u → S.valueAt p = none → D'.valueAt p = none
  kept : ∀ p v, p ≠ [] → D.valueAt p = some v → L.valueAt p = none → S.valueAt p = none →
    (∀ q, Fields.Ancestor q p → ¬ ((∃ u, L.valueAt q = some u) ∧ S.valueAt q = none)) →
    (∀ q, Fields.Ancestor q p → ∀ u, S.valueAt q = some u → ∃ g, u = .obj g) →
    D'.valueAt p = some v

theorem merged_of_create (D : MergeDiff) {a b c : Fields} (ha : a.NullFree) (hb : b.NullFree)
    (hc : c.Covers a) : Merged a b c (c.merge (D.create a b)) where
  covers := hc.merge ha hb (D.merge_create hb)
  removed _ _ hpa hpb := D.valueAt_removed hpa hpb
  kept p v hp hpc hpa hpb hgone hopen := by
    rw [D.valueAt_kept hp hpa hpb (fun q hq hu => ?_) hopen, hpc]
    cases hb : b.valueAt q with
    | none => exact absurd ⟨hu, hb⟩ (hgone q hq)
    | some u => exact ⟨u, rfl⟩

theorem get?_afterPatch (k : String) :
    (afterPatch L σ sourceSide last source dest cur).content.fields.get? k =
      (cur.content.fields.merge (L.diff.create (σ.contentOf last) (σ.contentOf source))).get?
      k := by
  obtain ⟨hcontent, -⟩ := desiredState_rest L σ sourceSide source dest
  show (cur.content.fields.merge (L.diff.create (σ.contentOf last) (((σ.desiredState L sourceSide
    source dest).content.without σ.subresources).fields))).get? k = _
  rw [hcontent]
  rfl

/-- The content of the destination object is merged with the change of the source, and the
subresources are left alone. -/
theorem content_merged
    (h : Returns S (σ.syncObjectSpec L scope sourceSide destSide source dest) w (requeue, o) w')
    (hlast : σ.lastKnown L sourceSide source w = some last)
    (hcur : w.object? (dest.idOn destSide.client) = some cur)
    (hcur' : w'.object? (dest.idOn destSide.client) = some cur')
    (hstatus : S.hasStatus destSide.client cur.typeMeta = true → "status" ∈ σ.subresources)
    (hL : (σ.contentOf last).NullFree) (hS : (σ.contentOf source).NullFree)
    (hD : (σ.contentOf cur).Covers (σ.contentOf last)) :
    Merged (σ.contentOf last) (σ.contentOf source) (σ.contentOf cur) (σ.contentOf cur') ∧
      ∀ k ∈ σ.subresources, cur'.content.field k = cur.content.field k := by
  have hsettled := spec_known h hlast hcur hcur'
  have houtside : ∀ k ∈ σ.subresources,
      (σ.contentOf last).get? k = (σ.contentOf source).get? k := by
    intro k hk
    rw [get?_contentOf, get?_contentOf, if_pos hk, if_pos hk]
  constructor
  · have hmerge : σ.contentOf cur' =
        (σ.contentOf cur).merge (L.diff.create (σ.contentOf last) (σ.contentOf source)) := by
      refine SortedMap.ext_get? fun k => ?_
      rw [L.diff.get?_merge_create]
      by_cases hk : k ∈ σ.subresources
      · rw [if_pos (houtside k hk), get?_contentOf, get?_contentOf, if_pos hk, if_pos hk]
      · have hchild : (σ.contentOf cur).child k = cur.content.fields.child k := by
          unfold Fields.child
          rw [get?_contentOf, if_neg hk]
        have hne : S.hasStatus destSide.client cur.typeMeta = true → k ≠ "status" :=
          fun hs heq => hk (heq ▸ hstatus hs)
        rw [get?_contentOf, if_neg hk, hsettled.content k hne, get?_afterPatch,
          L.diff.get?_merge_create, hchild]
        rw [get?_contentOf cur, if_neg hk]
    rw [hmerge]
    exact merged_of_create L.diff hL hS hD
  · intro k hk
    by_cases hne : S.hasStatus destSide.client cur.typeMeta = true → k ≠ "status"
    · rw [Content.field, hsettled.content k hne, get?_afterPatch, L.diff.get?_merge_create,
        if_pos (houtside k hk), Content.field]
    · obtain ⟨hs, rfl⟩ := Classical.not_imp.mp hne |>.imp_right not_not.mp
      exact hsettled.status hs

/-- An object with the value at `spec` and at `status`. -/
def specAndStatus (spec status : Fields) : Fields :=
  (SortedMap.insert ∅ "spec" (.obj spec)).insert "status" (.obj status)

theorem content_merged_crontab :
    let σ : ObjectSyncer := { plainSyncer with subresources := ["status"] }
    let one : Fields := SortedMap.insert ∅ "schedule" (.str "1 * * * *")
    let source := crontabWith ∅ (SortedMap.insert ∅ "spec"
      (.obj (SortedMap.insert ∅ "schedule" (.str "2 * * * *"))))
    let last := crontabWith ∅ (SortedMap.insert ∅ "spec" (.obj one))
    let cur := crontabWith ∅ (specAndStatus (one.insert "zone" (.str "utc")) ∅)
    ∃ cur', (specResult σ source cur (rememberedWorld last cur)).2.object?
        (cur.idOn .localClient) = some cur' ∧
      Merged (σ.contentOf last) (σ.contentOf source) (σ.contentOf cur) (σ.contentOf cur') ∧
      ∀ k ∈ σ.subresources, cur'.content.field k = cur.content.field k := by
  intro σ one source last cur
  obtain ⟨requeue, o, hret⟩ := specResult_returns σ source cur (rememberedWorld last cur)
    (by decide +kernel)
  obtain ⟨cur', hcur'⟩ := Option.isSome_iff_exists.mp
    (show ((specResult σ source cur (rememberedWorld last cur)).2.object?
      (cur.idOn .localClient)).isSome by decide +kernel)
  have hlast : σ.lastKnown .sample crontabSource source (rememberedWorld last cur) = some last := by
    decide +kernel
  have hcur : (rememberedWorld last cur).object? (cur.idOn .localClient) = some cur := by
    decide +kernel
  exact ⟨cur', hcur', content_merged hret hlast hcur hcur' (fun _ => by decide) (by decide +kernel)
    (by decide +kernel) (by decide +kernel)⟩

/-! ### The full update -/

/-- The destination objects are copies: they have the content, labels and annotations of the
source. -/
def Copies (σ : ObjectSyncer) : Prop :=
  ∀ source destObj, σ.destCreator source = .ok destObj → destObj.content = source.content ∧
    destObj.metadata.labels = source.metadata.labels ∧
    destObj.metadata.annotations = source.metadata.annotations

variable (S L scope σ sourceSide destSide) in
/-- The destination object is as the syncer has created it from the source. -/
def CreatedFrom (source dest : Unstructured) : Prop :=
  ∃ destObj w w', σ.destCreator source = .ok destObj ∧
    exec S ⟨scope, .create destSide.client (σ.newDestination L sourceSide source destObj)⟩ w =
      (.ok dest, w')

theorem get?_ownLabels (obj : Unstructured) (k : String) :
    (σ.ensureDestMetadata (σ.linkMetadata L sourceSide source obj)).metadata.labels.get? k =
      ((σ.ownMetadata L sourceSide source).labels.get? k).or (obj.metadata.labels.get? k) := by
  unfold ownMetadata ensureDestMetadata linkMetadata labelWithAgent
  split
  · split <;> simp [ensureLabels, ensureAnnotations, Option.or_assoc]
  · simp [ensureLabels, ensureAnnotations]

theorem get?_ownAnnotations (obj : Unstructured) (k : String) :
    (σ.ensureDestMetadata (σ.linkMetadata L sourceSide source obj)).metadata.annotations.get? k =
      ((σ.ownMetadata L sourceSide source).annotations.get? k).or
        (obj.metadata.annotations.get? k) := by
  unfold ownMetadata ensureDestMetadata linkMetadata labelWithAgent
  split
  · split <;> simp [ensureLabels, ensureAnnotations, Option.or_assoc]
  · simp [ensureLabels, ensureAnnotations]

theorem ownMetadata_congr {source₀ : Unstructured} (hns : source.metadata.ns = source₀.metadata.ns)
    (hname : source.metadata.name = source₀.metadata.name) :
    σ.ownMetadata L sourceSide source = σ.ownMetadata L sourceSide source₀ := by
  unfold ownMetadata ensureDestMetadata linkMetadata labelWithAgent newObjectKey
  rw [hns, hname]
  split
  · split <;> rfl
  · rfl

variable (S σ) in
/-- The top-level fields that `syncObjectSpec` can write. -/
def written (client : Client) (typeMeta : TypeMeta) (o : Unstructured) : Fields :=
  ((S.initialContent client typeMeta o.content).without σ.subresources).fields

/-- What a created destination object has of its source. -/
structure CopyOf (S : Server) (L : Libraries) (σ : ObjectSyncer) (sourceSide : SyncSide)
    (client : Client) (source dest : Unstructured) : Prop where
  content : dest.content = S.initialContent client dest.typeMeta source.content
  labels : ∀ k, (σ.ownMetadata L sourceSide source).labels.get? k = none →
    dest.metadata.labels.get? k = (filterUnsyncableLabels source.metadata.labels).get? k
  annotations : ∀ k, (σ.ownMetadata L sourceSide source).annotations.get? k = none →
    dest.metadata.annotations.get? k =
      (filterUnsyncableAnnotations source.metadata.annotations).get? k

theorem CreatedFrom.copyOf (h : CreatedFrom S L scope σ sourceSide destSide source dest)
    (hσ : σ.Copies) : CopyOf S L σ sourceSide destSide.client source dest := by
  obtain ⟨destObj, w, w', hdest, hexec⟩ := h
  obtain ⟨hcontent, hlabels, hannotations⟩ := hσ source destObj hdest
  rcases World.Does.create (.inl hexec) with ⟨e, he, -⟩ | ⟨o, ho, hplaced, -⟩
  · cases he
  · obtain rfl : dest = o := Except.ok.inj ho
    have htype : dest.typeMeta = (σ.newDestination L sourceSide source destObj).typeMeta := by
      rw [hplaced]
      rfl
    have hnew : (σ.newDestination L sourceSide source destObj).content = source.content := by
      rw [← hcontent]
      unfold newDestination linkMetadata labelWithAgent
      split
      · split <;> rfl
      · rfl
    refine ⟨?_, fun k hk => ?_, fun k hk => ?_⟩
    · rw [htype, ← hnew, hplaced]
      rfl
    · rw [hplaced]
      show (σ.newDestination L sourceSide source destObj).metadata.labels.get? k = _
      rw [newDestination, get?_ownLabels, hk, ← hlabels]
      rfl
    · rw [hplaced]
      show (σ.newDestination L sourceSide source destObj).metadata.annotations.get? k = _
      rw [newDestination, get?_ownAnnotations, hk, ← hannotations]
      rfl

/-- Setting the new entries over a map and patching it agree, away from the syncer's own keys, if
and only if no old entry has been removed. -/
theorem insertAll_patchMap_iff (new : StringMap) {old cur link own : StringMap}
    (hlink : ∀ k, own.get? k = none → link.get? k = none)
    (hcur : ∀ k, own.get? k = none → cur.get? k = old.get? k) :
    (∀ k, own.get? k = none →
      (cur.insertAll new).get? k = (patchMap old (addMissing new cur link) cur).get? k) ↔
    ∀ k, own.get? k = none → old.get? k ≠ none → new.get? k ≠ none := by
  refine forall_congr' fun k => forall_congr' fun hk => ?_
  have hdesired : (addMissing new cur link).get? k = new.get? k := by simp [addMissing, hlink k hk]
  rw [SortedMap.get?_insertAll, get?_patchMap, hdesired, hcur k hk]
  by_cases hsame : old = addMissing new cur link
  · have hnew : old.get? k = new.get? k := by rw [hsame, hdesired]
    simp [← hsame, hnew]
  rw [if_neg hsame]
  by_cases hempty : addMissing new cur link = ∅
  · have hnew : new.get? k = none := by rw [← hdesired, hempty, SortedMap.get?_empty]
    simp [hempty, hnew]
  rw [if_neg hempty]
  by_cases hk' : old.get? k = new.get? k
  · simp [hk']
  rw [if_neg hk']
  cases hnew : new.get? k with
  | none => simp
  | some v => simp

/-- Setting the new members over an object and merging the patch into it agree if and only if no
member has been removed and the patch can express the change. -/
theorem overlay_merge_iff (D : MergeDiff) {f g : Fields} :
    (∀ k, (g.get? k).or (f.get? k) = (f.merge (D.create f g)).get? k) ↔
    (∀ k, f.get? k ≠ none → g.get? k ≠ none) ∧ f.NullsShared g := by
  rw [← D.merge_create_iff]
  constructor
  · intro h
    have hkept : ∀ k, f.get? k ≠ none → g.get? k ≠ none := by
      intro k hf hg
      have hk := h k
      rw [D.get?_merge_create, if_neg (by rw [hg]; exact hf), hg] at hk
      exact hf hk
    refine ⟨hkept, SortedMap.ext_get? fun k => ?_⟩
    rw [← h k]
    cases hg : g.get? k with
    | some v => rfl
    | none =>
      rw [Option.none_or]
      by_contra hf
      exact hkept k hf hg
  · rintro ⟨hkept, hmerge⟩ k
    rw [hmerge]
    cases hg : g.get? k with
    | some v => rfl
    | none =>
      rw [Option.none_or]
      by_contra hf
      exact hkept k hf hg

theorem get?_written {client : Client} {typeMeta : TypeMeta} (o : Unstructured) (k : String) :
    (written S σ client typeMeta o).get? k =
      if k ∈ σ.subresources ∨ S.hasStatus client typeMeta = true ∧ k = "status" then none
      else o.content.fields.get? k := by
  unfold written Server.initialContent
  rw [Content.get?_without]
  by_cases hk : k ∈ σ.subresources
  · rw [if_pos hk, if_pos (.inl hk)]
  · by_cases hs : S.hasStatus client typeMeta = true
    · rw [if_pos hs, if_neg hk, Content.get?_without]
      simp [hk, hs]
    · rw [if_neg hs, if_neg hk, if_neg (by simp [hk, hs])]

/-- The content after a full update and after a patch, of a destination object that has been created
from `source₀`. -/
theorem content_agree_iff {client : Client} {source₀ o₁ o₂ : Unstructured}
    (hcopy : dest.content = S.initialContent client dest.typeMeta source₀.content)
    (h₁ : Settled S client dest (σ.fullUpdate source dest) o₁)
    (h₂ : Settled S client dest
      (afterPatch L σ sourceSide (snapshotObject source₀ σ.subresources) source dest dest) o₂) :
    o₁.content = o₂.content ↔
      (∀ k, (written S σ client dest.typeMeta source₀).get? k ≠ none →
        (written S σ client dest.typeMeta source).get? k ≠ none) ∧
      (written S σ client dest.typeMeta source₀).NullsShared
        (written S σ client dest.typeMeta source) := by
  rw [← overlay_merge_iff L.diff]
  have hfields : o₁.content = o₂.content ↔
      ∀ k, o₁.content.fields.get? k = o₂.content.fields.get? k :=
    ⟨fun h k => by rw [h], fun h => Content.ext_get? fun k _ => h k⟩
  rw [hfields]
  refine forall_congr' fun k => ?_
  have hsnapshot : (σ.contentOf (snapshotObject source₀ σ.subresources)) = σ.contentOf source₀ :=
    congrArg Content.fields (Content.without_without source₀.content σ.subresources)
  have hdest : ∀ k, dest.content.fields.get? k =
      if S.hasStatus client dest.typeMeta = true ∧ k = "status" then none
      else source₀.content.fields.get? k := by
    intro k
    rw [hcopy, Server.initialContent]
    split
    · next hs => simp [Content.get?_without, hs]
    · next hs => simp [hs]
  rw [L.diff.get?_merge_create, get?_written, get?_written]
  by_cases hstatus : S.hasStatus client dest.typeMeta = true ∧ k = "status"
  · -- the server keeps the status apart, and the created object has none
    obtain ⟨hs, rfl⟩ := hstatus
    have hnone : dest.content.fields.get? "status" = none := by rw [hdest, if_pos ⟨hs, rfl⟩]
    simp [h₁.unset hs hnone, h₂.unset hs hnone, hs]
  have hne : S.hasStatus client dest.typeMeta = true → k ≠ "status" := fun hs hk => hstatus ⟨hs, hk⟩
  rw [h₁.content k hne, h₂.content k hne, get?_afterPatch, hsnapshot, L.diff.get?_merge_create,
    get?_contentOf, get?_contentOf]
  have hupdate : (σ.fullUpdate source dest).content.fields.get? k =
      (if k ∈ σ.subresources then none else source.content.fields.get? k).or
        (dest.content.fields.get? k) := by
    show (dest.content.overlay (source.content.without σ.subresources)).fields.get? k = _
    rw [Content.get?_overlay, Content.get?_without]
  rw [hupdate, hdest, if_neg hstatus]
  by_cases hk : k ∈ σ.subresources
  · simp [hk]
  · have hcond : ¬ (k ∈ σ.subresources ∨ S.hasStatus client dest.typeMeta = true ∧ k = "status") :=
      fun h => h.elim hk hstatus
    have hchild : (written S σ client dest.typeMeta source₀).child k =
      dest.content.fields.child k := by
      unfold Fields.child
      rw [get?_written, if_neg hcond, hdest, if_neg hstatus]
    rw [if_neg hk, if_neg hk, if_neg hcond, if_neg hcond, hchild]

variable (S L σ sourceSide) in
/-- From one state of the source to a later one, no field, label or annotation that is copied has
been removed, and every `null` was there before. -/
structure Additive (client : Client) (typeMeta : TypeMeta)
    (source₀ source : Unstructured) : Prop where
  fields : ∀ k, (written S σ client typeMeta source₀).get? k ≠ none →
    (written S σ client typeMeta source).get? k ≠ none
  nulls : (written S σ client typeMeta source₀).NullsShared (written S σ client typeMeta source)
  labels : ∀ k, (σ.ownMetadata L sourceSide source).labels.get? k = none →
    (filterUnsyncableLabels source₀.metadata.labels).get? k ≠ none →
    (filterUnsyncableLabels source.metadata.labels).get? k ≠ none
  annotations : ∀ k, (σ.ownMetadata L sourceSide source).annotations.get? k = none →
    (filterUnsyncableAnnotations source₀.metadata.annotations).get? k ≠ none →
    (filterUnsyncableAnnotations source.metadata.annotations).get? k ≠ none

/-- The two objects have the same content, and the same labels and annotations but for those of the
syncer itself. -/
structure Agree (own : ObjectMeta) (o₁ o₂ : Unstructured) : Prop where
  content : o₁.content = o₂.content
  labels : ∀ k, own.labels.get? k = none →
    o₁.metadata.labels.get? k = o₂.metadata.labels.get? k
  annotations : ∀ k, own.annotations.get? k = none →
    o₁.metadata.annotations.get? k = o₂.metadata.annotations.get? k

variable (S L scope σ sourceSide destSide) in
/-- With `last` as the last-known state of the source, `syncObjectSpec` makes `o` of `dest`. -/
def SpecLeads (last : Option Unstructured) (source dest o : Unstructured) : Prop :=
  ∃ w requeue d w', w.object? (dest.idOn destSide.client) = some dest ∧
    σ.lastKnown L sourceSide source w = last ∧
    Returns S (σ.syncObjectSpec L scope sourceSide destSide source dest) w (requeue, d) w' ∧
    w'.object? (dest.idOn destSide.client) = some o

variable (S L scope σ sourceSide destSide) in
/-- What becomes of the destination object that was created from `source₀` when the source has
become `source`: `o₁` if the last-known state is missing or corrupt, `o₂` if it is the one of
`source₀`. -/
structure BothPaths (source₀ source dest o₁ o₂ : Unstructured) : Prop where
  copies : σ.Copies
  created : CreatedFrom S L scope σ sourceSide destSide source₀ dest
  ns : source.metadata.ns = source₀.metadata.ns
  name : source.metadata.name = source₀.metadata.name
  updated : SpecLeads S L scope σ sourceSide destSide none source dest o₁
  patched : SpecLeads S L scope σ sourceSide destSide
    (some (snapshotObject source₀ σ.subresources)) source dest o₂

/-- The full update and the patch of a destination object that has been created from `source₀` agree
if and only if nothing has been removed from the source since. -/
theorem fallback_agrees_iff {source₀ o₁ o₂ : Unstructured}
    (h : BothPaths S L scope σ sourceSide destSide source₀ source dest o₁ o₂) :
    Agree (σ.ownMetadata L sourceSide source) o₁ o₂ ↔
      Additive S L σ sourceSide destSide.client dest.typeMeta source₀ source := by
  have hcopy := h.created.copyOf h.copies
  have hown : σ.ownMetadata L sourceSide source = σ.ownMetadata L sourceSide source₀ :=
    ownMetadata_congr h.ns h.name
  obtain ⟨w₁, _, _, _, hdest₁, hmissing, h₁, ho₁⟩ := h.updated
  obtain ⟨w₂, _, _, _, hdest₂, hknown, h₂, ho₂⟩ := h.patched
  have hupdated := spec_unknown h₁ hmissing hdest₁ ho₁
  have hpatched := spec_known h₂ hknown hdest₂ ho₂
  have hlabels₁ : o₁.metadata.labels =
      dest.metadata.labels.insertAll (filterUnsyncableLabels source.metadata.labels) := by
    rw [hupdated.labels, ← filterUnsyncableLabels_idem]
    rfl
  have hlabels₂ : o₂.metadata.labels = patchMap (filterUnsyncableLabels source₀.metadata.labels)
      (addMissing (filterUnsyncableLabels source.metadata.labels) dest.metadata.labels
        (σ.linkLabels L sourceSide source)) dest.metadata.labels := by
    rw [hpatched.labels, ← labels_desiredState]
    rfl
  have hannotations₁ : o₁.metadata.annotations =
      dest.metadata.annotations.insertAll
        (filterUnsyncableAnnotations source.metadata.annotations) := by
    rw [hupdated.annotations, ← filterUnsyncableAnnotations_idem]
    rfl
  have hannotations₂ : o₂.metadata.annotations =
      patchMap (filterUnsyncableAnnotations source₀.metadata.annotations)
      (addMissing (filterUnsyncableAnnotations source.metadata.annotations)
        dest.metadata.annotations (σ.linkAnnotations sourceSide source))
      dest.metadata.annotations := by
    rw [hpatched.annotations, ← annotations_desiredState]
    rfl
  have hcontent := content_agree_iff hcopy.content hupdated hpatched
  have hlabels := insertAll_patchMap_iff (filterUnsyncableLabels source.metadata.labels)
    (fun _ => linkLabels_of_own) fun k hk => hcopy.labels k (hown ▸ hk)
  have hannotations := insertAll_patchMap_iff
    (filterUnsyncableAnnotations source.metadata.annotations)
    (fun _ => linkAnnotations_of_own) fun k hk => hcopy.annotations k (hown ▸ hk)
  constructor
  · rintro ⟨hc, hl, ha⟩
    rw [hlabels₁, hlabels₂] at hl
    rw [hannotations₁, hannotations₂] at ha
    exact ⟨(hcontent.mp hc).1, (hcontent.mp hc).2, hlabels.mp hl, hannotations.mp ha⟩
  · rintro ⟨hfields, hnulls, hl, ha⟩
    refine ⟨hcontent.mpr ⟨hfields, hnulls⟩, ?_, ?_⟩
    · rw [hlabels₁, hlabels₂]
      exact hlabels.mpr hl
    · rw [hannotations₁, hannotations₂]
      exact hannotations.mpr ha

/-- The destination object that `plainSyncer` creates. -/
def createdCrontab (source : Unstructured) : Unstructured :=
  World.empty.placed { plainSyncer.newDestination .sample crontabSource source source with
    content := Server.setting.initialContent .localClient source.typeMeta source.content }

theorem createdFrom_createdCrontab {source : Unstructured}
    (h : (World.empty.createObject .setting .localClient ⟨"c1", "team-a", "daily", none⟩
      (plainSyncer.newDestination .sample crontabSource source source)).1.toOption.isSome) :
    CreatedFrom .setting .sample ⟨"c1", "team-a", "daily", none⟩ plainSyncer crontabSource
      crontabDest source (createdCrontab source) := by
  rcases World.createObject_cases .setting .empty .localClient ⟨"c1", "team-a", "daily", none⟩
    (plainSyncer.newDestination .sample crontabSource source source) with
    ⟨e, he, -⟩ | ⟨-, o, w', ho, rfl, -⟩
  · rw [he] at h
    cases h
  · exact ⟨source, .empty, w', rfl, ho⟩

/-- The object that `syncObjectSpec` leaves at the place of the destination object. -/
def specLeaves (source dest : Unstructured) (w : World) : Option Unstructured :=
  (specResult plainSyncer source dest w).2.object? (dest.idOn .localClient)

theorem specLeads_of_leaves {source dest o : Unstructured} {last : Option Unstructured} {w : World}
    (hdest : w.object? (dest.idOn .localClient) = some dest)
    (hlast : plainSyncer.lastKnown .sample crontabSource source w = last)
    (hok : (specResult plainSyncer source dest w).1.toOption.isSome)
    (ho : specLeaves source dest w = some o) :
    SpecLeads .setting .sample ⟨"c1", "team-a", "daily", none⟩ plainSyncer crontabSource crontabDest
      last source dest o := by
  obtain ⟨requeue, d, hret⟩ := specResult_returns plainSyncer source dest w hok
  exact ⟨w, requeue, d, _, hdest, hlast, hret, ho⟩

theorem copies_plainSyncer : plainSyncer.Copies := by
  intro source destObj h
  cases h
  exact ⟨rfl, rfl, rfl⟩

/-- A CronTab with a schedule. -/
def scheduled : Unstructured := crontabWith ∅ (SortedMap.insert ∅ "spec" (.str "daily"))

/-- What the full update and the patch make of the object that was created from `source₀`. -/
theorem bothPaths_crontab (source₀ source : Unstructured) {α : Type} (f : Unstructured → α)
    {a₁ a₂ : α} (hns : source.metadata.ns = source₀.metadata.ns)
    (hname : source.metadata.name = source₀.metadata.name)
    (hcreate : (World.empty.createObject .setting .localClient ⟨"c1", "team-a", "daily", none⟩
      (plainSyncer.newDestination .sample crontabSource source₀ source₀)).1.toOption.isSome)
    (hdest : (rememberedWorld source₀ (createdCrontab source₀)).object?
      ((createdCrontab source₀).idOn .localClient) = some (createdCrontab source₀))
    (hmissing : plainSyncer.lastKnown .sample crontabSource source
      (World.empty.put .localClient (createdCrontab source₀)) = none)
    (hknown : plainSyncer.lastKnown .sample crontabSource source
      (rememberedWorld source₀ (createdCrontab source₀)) =
        some (snapshotObject source₀ plainSyncer.subresources))
    (h₁ : (specResult plainSyncer source (createdCrontab source₀)
      (World.empty.put .localClient (createdCrontab source₀))).1.toOption.isSome)
    (h₂ : (specResult plainSyncer source (createdCrontab source₀)
      (rememberedWorld source₀ (createdCrontab source₀))).1.toOption.isSome)
    (ho₁ : (specLeaves source (createdCrontab source₀)
      (World.empty.put .localClient (createdCrontab source₀))).map f = some a₁)
    (ho₂ : (specLeaves source (createdCrontab source₀)
      (rememberedWorld source₀ (createdCrontab source₀))).map f = some a₂) :
    ∃ o₁ o₂, BothPaths .setting .sample ⟨"c1", "team-a", "daily", none⟩ plainSyncer crontabSource
      crontabDest source₀ source (createdCrontab source₀) o₁ o₂ ∧ f o₁ = a₁ ∧ f o₂ = a₂ := by
  obtain ⟨o₁, ho₁, hf₁⟩ := Option.map_eq_some_iff.mp ho₁
  obtain ⟨o₂, ho₂, hf₂⟩ := Option.map_eq_some_iff.mp ho₂
  exact ⟨o₁, o₂, ⟨copies_plainSyncer, createdFrom_createdCrontab hcreate, hns, hname,
    specLeads_of_leaves (by simp) hmissing h₁ ho₁, specLeads_of_leaves hdest hknown h₂ ho₂⟩,
    hf₁, hf₂⟩

theorem fallback_agrees_crontab : ∃ o₁ o₂,
    BothPaths .setting .sample ⟨"c1", "team-a", "daily", none⟩ plainSyncer crontabSource crontabDest
      (crontabWith ∅ ∅) scheduled (createdCrontab (crontabWith ∅ ∅)) o₁ o₂ ∧
    Agree (plainSyncer.ownMetadata .sample crontabSource scheduled) o₁ o₂ := by
  have hnulls : (written .setting plainSyncer .localClient crontabType
      (crontabWith ∅ ∅)).NullsShared (written .setting plainSyncer .localClient crontabType
        scheduled) := (MergeDiff.merge_create_iff .rfc7386).mp (by decide +kernel)
  have hfields : written .setting plainSyncer .localClient crontabType (crontabWith ∅ ∅) = ∅ := by
    decide +kernel
  obtain ⟨o₁, o₂, hboth, -⟩ := bothPaths_crontab (crontabWith ∅ ∅) scheduled (fun _ => ())
    rfl rfl (by decide +kernel) (by decide +kernel)
    (by decide +kernel) (by decide +kernel) (by decide +kernel) (by decide +kernel)
    (show _ = some () by decide +kernel) (show _ = some () by decide +kernel)
  refine ⟨o₁, o₂, hboth, (fallback_agrees_iff hboth).mpr ⟨fun k hk => ?_, hnulls,
    fun k _ hk => absurd rfl hk, fun k _ hk => absurd rfl hk⟩⟩
  exact absurd (congrArg (·.get? k) hfields) hk

/-- A field that has been removed from the source stays on the destination object when the
last-known state is missing. -/
theorem removed_field_kept : ∃ o₁ o₂,
    BothPaths .setting .sample ⟨"c1", "team-a", "daily", none⟩ plainSyncer crontabSource crontabDest
      scheduled (crontabWith ∅ ∅) (createdCrontab scheduled) o₁ o₂ ∧
    o₁.content.fields.get? "spec" = some (.str "daily") ∧ o₂.content.fields.get? "spec" = none ∧
    ¬ Agree (plainSyncer.ownMetadata .sample crontabSource (crontabWith ∅ ∅)) o₁ o₂ := by
  obtain ⟨o₁, o₂, hboth, hkept, hgone⟩ := bothPaths_crontab scheduled (crontabWith ∅ ∅)
    (fun o => o.content.fields.get? "spec") rfl rfl (by decide +kernel) (by decide +kernel)
    (by decide +kernel) (by decide +kernel) (by decide +kernel) (by decide +kernel)
    (show _ = some (some (Doc.str "daily")) by decide +kernel)
    (show _ = some none by decide +kernel)
  refine ⟨o₁, o₂, hboth, hkept, hgone, fun hagree => ?_⟩
  rw [hagree.content, hgone] at hkept
  cases hkept

end ObjectSyncer

end Sync
