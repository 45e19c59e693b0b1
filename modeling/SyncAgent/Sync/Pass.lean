import SyncAgent.Sync.Calls

/-! A proof outline of `Process`: the local object is found by its labels, the related resources are
cleaned up first if the primary object is being deleted, then the primary object is synced, and at
last its related resources are processed. -/

namespace Sync

open Kube

namespace ResourceSyncer

variable (s : ResourceSyncer) (clusterName workspacePath : String) (r : Unstructured)
  (S : Server) (E : Environment api World) (G : Guarantee api World)

/-- The syncer of the primary object `r`. -/
def syncerOf : ObjectSyncer :=
  s.primarySyncer (s.stateStore clusterName workspacePath r) clusterName workspacePath r

/-- The selector of the local copies of `r`. -/
def copySelector : Selector :=
  selectorFromSet ((newObjectKey r clusterName workspacePath).labels s.libs.hash)

/-- The local objects that are found for `r`; more than one is an error. -/
def copies (w : World) : List Unstructured :=
  w.listObjects .localClient s.destType "" (s.copySelector clusterName workspacePath r) 2

/-- The assertions of `Process`: `J` at the start, `Q` of the result and `R` after a failure, with
an outline of `Sync` for every local object that can be found. -/
structure PassOutline (J : World → Prop) (Q : Bool → World → Prop) (R : World → Prop) where
  outline : Option Unstructured → (s.syncerOf clusterName workspacePath r).Outline S E G
  conditions : ∀ dest, (outline dest).Conditions s.libs (primaryScope clusterName r)
    (remoteSide clusterName workspacePath) localSide r dest
  stable : Fallible.Stable E J
  sound : ∀ c w r w', E.does c w r w' → World.Does S c w r w'
  always : ∀ w, J w → G.always w
  before : ∀ c : Call, c.failure = none → ∀ w, J w → G.before c w
  found : ∀ w, J w → match s.copies clusterName workspacePath r w with
    | [] => (outline none).holds .found w
    | [d] => (outline (some d)).holds .found w
    | _ => R w
  related : ∀ dest p, p = .found ∧ r.metadata.deletionTimestamp.isSome = true ∨ p = .ended false →
    ∀ o : Unstructured,
    o.metadata.ns = r.metadata.ns → o.metadata.name = r.metadata.name →
    ∀ c, RelatedCall s (primaryScope clusterName r) ⟨remoteSide clusterName workspacePath, o⟩ c →
    (outline dest).Leads c p fun _ => p
  failed : ∀ dest p, p = .failed ∨ p = .found ∨ p = .ended false →
    ∀ w, (outline dest).holds p w → R w
  cleaning : ∀ d w, r.metadata.deletionTimestamp.isSome = true →
    (outline (some d)).holds .found w → Q true w
  requeued : ∀ dest w, (outline dest).holds (.ended true) w → Q true w
  ended : ∀ dest w, (outline dest).holds (.ended false) w → ∀ requeue, Q requeue w

variable {s clusterName workspacePath r S E G} {J : World → Prop} {Q : Bool → World → Prop}
  {R : World → Prop}

theorem findLocalObject_keeps {K : Option Unstructured → World → Prop}
    (hstable : Fallible.Stable E J)
    (hsound : ∀ c w r w', E.does c w r w' → World.Does S c w r w') (halways : ∀ w, J w → G.always w)
    (hbefore : ∀ c : Call, c.failure = none → ∀ w, J w → G.before c w)
    (hfound : ∀ w, J w → match s.copies clusterName workspacePath r w with
      | [] => K none w
      | [d] => K (some d) w
      | _ => R w) {w : World} (hw : J w) :
    Fallible.Keeps E G (s.findLocalObject (primaryScope clusterName r)
      (newObjectKey r clusterName workspacePath)) K R w := by
  refine .seq (P := fun items w => J w ∧ items = s.copies clusterName workspacePath r w)
    (.mapError (.sendE fun w₁ hr => ?_)) fun items w h => ?_
  · have hw₁ := hstable w w₁ hw hr
    refine ⟨hbefore _ rfl w₁ hw₁, fun resp w₂ hd => ?_⟩
    obtain ⟨rfl, rfl⟩ := (hsound _ _ _ _ hd).list
    exact ⟨halways _ hw₁, hw₁, rfl⟩
  · obtain ⟨hw, rfl⟩ := h
    have hfound := hfound w hw
    split
    · next heq => rw [heq] at hfound; exact .pure hfound
    · next d heq => rw [heq] at hfound; exact .pure hfound
    · next hnil hone =>
      refine .throw ?_
      split at hfound
      · next heq => exact absurd heq hnil
      · next d heq => exact absurd heq (hone d)
      · exact hfound

variable (O : PassOutline s clusterName workspacePath r S E G J Q R)

namespace PassOutline

/-- The related resources keep what holds before and after `Sync`. -/
theorem processRelatedResources_keeps {dest : Option Unstructured} {p : ObjectSyncer.Point}
    (hp : p = .found ∧ r.metadata.deletionTimestamp.isSome = true ∨ p = .ended false)
    {o l : Unstructured} (hns : o.metadata.ns = r.metadata.ns)
    (hname : o.metadata.name = r.metadata.name) {deleting : Bool} {w : World}
    (hw : (O.outline dest).holds p w) :
    Fallible.Keeps E G (s.processRelatedResources (primaryScope clusterName r)
      (s.stateStore clusterName workspacePath r) ⟨remoteSide clusterName workspacePath, o⟩
      ⟨localSide, l⟩ deleting) (fun _ => (O.outline dest).holds p)
      ((O.outline dest).holds p) w := by
  have hcall := O.related dest p hp o hns hname
  exact .of_allCalls processRelatedResources_allCalls ((O.outline dest).always p)
    ((O.outline dest).stable p) (fun c hc w hw => (hcall c hc w hw).1)
    (fun c hc w r w' hw hd => (hcall c hc w hw).2 r w' hd) hw

include O in
/-- The outline is enough for `Process`. -/
theorem process_keeps {w : World} (hw : J w) :
    Fallible.Keeps E G (s.process clusterName workspacePath r) Q R w := by
  refine .seq (.mapError (findLocalObject_keeps (K := fun dest => (O.outline dest).holds .found)
    O.stable O.sound O.always O.before O.found hw)) fun dest w hw => ?_
  refine .seq (P := fun cleaning w =>
    if cleaning then Q true w else (O.outline dest).holds .found w) ?_ fun cleaning w hw => ?_
  -- the clean-up of the related objects, where the primary object is being deleted
  · cases dest with
    | none => exact .pure hw
    | some l =>
      dsimp only
      split
      · next hdel =>
        refine .mapError (.mono (O.processRelatedResources_keeps (.inl ⟨rfl, hdel⟩) rfl rfl hw) ?_
          fun w hw => O.failed _ .found (.inr (.inl rfl)) w hw)
        intro cleaning w hw
        cases cleaning with
        | true => exact O.cleaning l w hdel hw
        | false => exact hw
      · exact .pure hw
  cases cleaning with
  | true => exact .pure hw
  | false =>
    refine .seq (.mono ((O.conditions dest).sync_keeps hw) (fun _ _ h => h)
      fun w hw => O.failed dest .failed (.inl rfl) w hw) fun result w h => ?_
    obtain ⟨requeue, o⟩ := result
    obtain ⟨hended, hsame⟩ := h
    cases requeue with
    | true => exact .pure (O.requeued dest w hended)
    | false =>
      cases dest with
      | none => exact .pure (O.ended none w hended false)
      | some l =>
        obtain ⟨hns, hname⟩ := hsame rfl
        exact .mono (O.processRelatedResources_keeps (.inr rfl) hns hname hended)
          (fun b w hw => O.ended _ w hw b)
          fun w hw => O.failed _ (.ended false) (.inr (.inr rfl)) w hw

end PassOutline

end ResourceSyncer

end Sync
