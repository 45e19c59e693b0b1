import SyncAgent.Sync.ObjectSyncer
import SyncAgent.Kube.Effects

/-! A proof outline of `Sync`.  The points of the program where a call has just returned are named,
and an `Outline` gives the assertion that holds at each of them, together with one condition for
each call: it leads from the assertion before it to the one after it.  `Outline.sync_keeps` says
that these conditions are enough, whatever the other parties do between the calls. -/

namespace Sync

open Kube

/-- The rule for a result that is already known. -/
theorem wrapE_keeps {E : Environment api World} {G : Guarantee api World} {α : Type} {text : String}
    {r : Except Error α} {Q : α → World → Prop} {R : World → Prop} {w : World}
    (hok : ∀ a, r = .ok a → Q a w) (herror : ∀ e, r = .error e → R w) :
    Fallible.Keeps E G (wrapE text r) Q R w := by
  cases r with
  | ok a => exact hok a rfl
  | error e => exact herror e rfl

namespace KubernetesBackend

/-- A new state has been stored for a key, and nothing else has changed. -/
structure Stores (b : KubernetesBackend) (key : String) (data : Fields) (w w' : World) : Prop where
  entries : b.entries w' = (b.entries w).insert key (some data)
  objects : ∀ id, w'.object? id = w.object? id
  secrets : ∀ id, id ≠ b.secretName → w'.secret? id = w.secret? id
  created : w'.created = w.created
  clock : w.clock ≤ w'.clock

variable {S : Server} {E : Environment api World} {G : Guarantee api World}
  {hash : Hash} {b : KubernetesBackend} {scope : Scope} {P : World → Prop}

theorem stores_putSecret {w : World} {key : String} {data : Fields} {secret : StateSecret}
    (hdata : secret.data = (b.entries w).insert key (some data)) :
    b.Stores key data w (w.putSecret b.secretName secret).tick where
  entries := by
    rw [← hdata]
    simp [entries]
  objects _ := rfl
  secrets id hid := by simp [hid]
  created := rfl
  clock := Nat.le_succ _

theorem secret_keeps (hstable : Fallible.Stable E P)
    (hsound : ∀ c w r w', E.does c w r w' → World.Does S c w r w')
    (hread : Fallible.Triple E G ⟨scope, .getSecret b.secretName⟩ P fun _ => P) {R : World → Prop}
    {w : World} (hw : P w) :
    Fallible.Keeps E G (b.secret scope) (fun found w => P w ∧ found = w.secret? b.secretName) R
      w := by
  refine .bind (.request fun w₁ hr => ?_)
  obtain ⟨hbefore, hdoes⟩ := hread w₁ (hstable w w₁ hw hr)
  refine ⟨hbefore, fun r w₂ hd => ?_⟩
  obtain ⟨halways, hP⟩ := hdoes r w₂ hd
  obtain ⟨rfl, selectors, rfl⟩ := (hsound _ _ _ _ hd).read rfl
  refine ⟨halways, ?_⟩
  have hsame : World.secret? { w₁ with selectors := selectors } b.secretName =
      w₁.secret? b.secretName := rfl
  simp only [exec]
  cases hs : w₁.secret? b.secretName with
  | none => exact .pure ⟨hP, by rw [hsame, hs]⟩
  | some secret => exact .pure ⟨hP, by rw [hsame, hs]⟩

theorem put_keeps (hstable : Fallible.Stable E P)
    (hsecret : ∀ w w', E.rely w w' → w'.secret? b.secretName = w.secret? b.secretName)
    (hsound : ∀ c w r w', E.does c w r w' → World.Does S c w r w')
    (hread : Fallible.Triple E G ⟨scope, .getSecret b.secretName⟩ P fun _ => P)
    {obj : Unstructured} {clusterName : String} {data : Fields} {Q R : World → Prop}
    (hwrite : ∀ c : Call, c.scope = scope → c.verb.secretTarget = some b.secretName → ∀ w, P w →
      G.before c w ∧ ∀ r w', E.does c w r w' →
        (c.isError r = true → w' = w → G.always w' ∧ R w') ∧
        (b.Stores (sourceKey hash obj clusterName) data w w' → G.always w' ∧ Q w'))
    {w : World} (hw : P w) :
    Fallible.Keeps E G (b.put hash scope obj clusterName (some data)) (fun _ => Q) R w := by
  refine .bind (.mono (secret_keeps hstable hsound hread hw) (fun found w₁ h => ?_) fun _ h => h)
  obtain ⟨hP, rfl⟩ := h
  cases hs : w₁.secret? b.secretName with
  | none =>
    refine .sendE fun w₂ hr => ?_
    have hs₂ := (hsecret w₁ w₂ hr).trans hs
    have hP₂ := hstable w₁ w₂ hP hr
    refine ⟨(hwrite _ (by rfl) (by rfl) w₂ hP₂).1, fun r w₃ hd => ?_⟩
    obtain ⟨hfail, hstore⟩ := (hwrite _ (by rfl) (by rfl) w₂ hP₂).2 r w₃ hd
    rcases (hsound _ _ _ _ hd).createSecret with ⟨e, rfl, rfl⟩ | ⟨-, rfl, rfl⟩
    · exact hfail rfl rfl
    · exact hstore (stores_putSecret (by simp [entries, hs₂]))
  | some secret =>
    refine .sendE fun w₂ hr => ?_
    have hs₂ := (hsecret w₁ w₂ hr).trans hs
    have hP₂ := hstable w₁ w₂ hP hr
    refine ⟨(hwrite _ (by rfl) (by rfl) w₂ hP₂).1, fun r w₃ hd => ?_⟩
    obtain ⟨hfail, hstore⟩ := (hwrite _ (by rfl) (by rfl) w₂ hP₂).2 r w₃ hd
    rcases (hsound _ _ _ _ hd).updateSecret with ⟨e, rfl, rfl⟩ | ⟨rfl, rfl⟩
    · exact hfail rfl rfl
    · exact hstore (stores_putSecret (by simp [entries, hs₂]))

end KubernetesBackend

namespace ObjectSyncer

/-- The points of `Sync` between two calls. -/
inductive Point where
  /-- The source and the destination object, if there is one, were read. -/
  | found
  /-- The destination object was in the way of a new one, and it was read. -/
  | adopting (existing : Unstructured)
  /-- The destination object was created or adopted; its state is not stored yet. -/
  | placed
  /-- The last-known state was read. -/
  | known (last : Option Unstructured)
  /-- The destination object was updated as a whole; the state is not stored yet. -/
  | updated
  /-- The destination object was patched; the state is not stored yet. -/
  | patched (last : Unstructured)
  | stored
  /-- There was no difference to the last-known state. -/
  | clean
  | applied
  | ended (requeue : Bool)
  | failed

/-- The point after a call that can fail. -/
def Point.after {α : Type} (p : Point) : Except ApiError α → Point
  | .ok _ => p
  | .error _ => .failed

/-- The point after an attempt to create the destination object. -/
def Point.afterCreate : Except ApiError Unstructured → Point
  | .ok _ => .placed
  | .error .alreadyExists => .found
  | .error _ => .failed

/-- The point after a status update on the destination side, where a missing subresource is no
failure. -/
def Point.afterForward (p : Point) : Except ApiError Unstructured → Point
  | .ok _ => p
  | .error .notFound => p
  | .error _ => .failed

variable (L : Libraries) (scope : Scope) (s : ObjectSyncer) (sourceSide destSide : SyncSide)
  (source : Unstructured) (dest : Option Unstructured) (S : Server) (E : Environment api World)
  (G : Guarantee api World)

/-- The deletion of the source object is to be handled. -/
def Deleting : Prop := source.metadata.deletionTimestamp.isSome = true ∨ s.forceDelete = true

/-- The source object is to be synced, and it is protected by the finalizer if it has to be. -/
structure Live : Prop where
  notDeleting : source.metadata.deletionTimestamp = none
  notForced : s.forceDelete = false
  guarded : s.blockSourceDeletion = true →
    source.metadata.finalizers.contains deletionFinalizer = true

/-- The last-known state of a source object. -/
def lastKnown (source : Unstructured) (w : World) : Option Unstructured :=
  ((s.stateStore.entries w).get?
    (KubernetesBackend.sourceKey L.hash source sourceSide.clusterName)).join.bind
    Unstructured.ofFields

/-- The assertions at the points of `Sync`, for a source object and what was found of its
destination object.  Each call leads from one point to another. -/
structure Outline where
  holds : Point → World → Prop
  stable : ∀ p, Fallible.Stable E (holds p)
  always : ∀ p w, holds p w → G.always w
  sound : ∀ c w r w', E.does c w r w' → World.Does S c w r w'
  secret : ∀ w w', E.rely w w' → w'.secret? s.stateStore.secretName =
    w.secret? s.stateStore.secretName

namespace Outline

variable {L scope s sourceSide destSide source dest S E G} (O : Outline s S E G)

/-- A call leads from one point to another, which depends on the response. -/
def Leads (c : Call) (p : Point) (q : c.verb.Resp → Point) : Prop :=
  ∀ w, O.holds p w → G.before c w ∧ ∀ r w', E.does c w r w' → O.holds (q r) w'

/-- A new state can be stored. -/
def Puts (L : Libraries) (scope : Scope) (clusterName : String) (obj : Unstructured)
    (p q : Point) : Prop :=
  ∀ c : Call, c.scope = scope → c.verb.secretTarget = some s.stateStore.secretName →
    ∀ w, O.holds p w → G.before c w ∧ ∀ r w', E.does c w r w' →
      (c.isError r = true → w' = w → O.holds .failed w') ∧
      (s.stateStore.Stores (KubernetesBackend.sourceKey L.hash obj clusterName)
        (snapshotObject obj s.subresources).toFields w w' → O.holds q w')

theorem Leads.triple {O : Outline s S E G} {c : Call} {p : Point} {q : c.verb.Resp → Point}
    (h : O.Leads c p q) : Fallible.Triple E G c (O.holds p) fun r w => O.holds (q r) w := by
  intro w hw
  obtain ⟨hbefore, hdoes⟩ := h w hw
  exact ⟨hbefore, fun r w' hd => ⟨O.always _ _ (hdoes r w' hd), hdoes r w' hd⟩⟩

variable (L scope sourceSide destSide)

/-- The Namespace of the destination object can be created. -/
def Namespaces (source : Unstructured) : Prop :=
  ∀ destObj, s.destCreator source = .ok destObj → destObj.metadata.ns ≠ "" →
    O.Leads ⟨scope, .create destSide.client
      ⟨namespaceType, { name := destObj.metadata.ns }, default⟩⟩ .found fun _ => .found

/-- The conditions on a destination object that does not exist yet. -/
structure CreateConditions (source : Unstructured) : Prop where
  namespaces : O.Namespaces scope destSide source
  create : ∀ destObj, s.destCreator source = .ok destObj →
    O.Leads ⟨scope, .create destSide.client (s.newDestination L sourceSide source destObj)⟩ .found
      .afterCreate
  occupied : ∀ destObj existing w, s.destCreator source = .ok destObj → O.holds .found w →
    w.object? ((s.newDestination L sourceSide source destObj).idOn destSide.client) =
    some existing →
    O.holds (.adopting existing) w
  adopt : ∀ existing, O.Leads ⟨scope, .update destSide.client (s.adopted L existing
    (newObjectKey source sourceSide.clusterName sourceSide.workspacePath))⟩ (.adopting existing)
    (Point.after .placed)
  dying : ∀ destObj w, s.destCreator source = .ok destObj →
    (s.newDestination L sourceSide source destObj).metadata.deletionTimestamp.isSome = true →
    O.holds .found w → O.holds .placed w
  put : O.Puts L scope sourceSide.clusterName source .placed .stored

/-- The conditions on a destination object that exists. -/
structure UpdateConditions (source dest : Unstructured) : Prop where
  restamp : (s.ensureDestMetadata dest).metadata.labels ≠ dest.metadata.labels ∨
      (s.ensureDestMetadata dest).metadata.annotations ≠ dest.metadata.annotations →
    O.Leads ⟨scope, .patch ((s.ensureDestMetadata dest).idOn destSide.client)
      (L.diff.create dest.toFields (s.ensureDestMetadata dest).toFields)⟩ .found
      (Point.after (.ended true))
  known : ∀ w, O.holds .found w → O.holds (.known (s.lastKnown L sourceSide source w)) w
  clean : ∀ last w, s.createMergePatch L { last with typeMeta := source.typeMeta }
      (s.desiredState L sourceSide source dest) = ∅ →
    O.holds (.known (some last)) w → O.holds .clean w
  patch : ∀ last, s.createMergePatch L { last with typeMeta := source.typeMeta }
      (s.desiredState L sourceSide source dest) ≠ ∅ →
    O.Leads ⟨scope, .patch (dest.idOn destSide.client)
      (s.createMergePatch L { last with typeMeta := source.typeMeta }
        (s.desiredState L sourceSide source dest))⟩ (.known (some last))
      (Point.after (.patched last))
  putPatched : ∀ last, O.Puts L scope sourceSide.clusterName
    (s.desiredState L sourceSide source dest) (.patched last) .stored
  update : O.Leads ⟨scope, .update destSide.client (s.fullUpdate source dest)⟩ (.known none)
    (Point.after .updated)
  putUpdated : O.Puts L scope sourceSide.clusterName (stripMetadata source) .updated .stored
  forward : s.syncStatusForward = true → ∀ p, p = .stored ∨ p = .clean → ∀ dest' : Unstructured,
    O.Leads ⟨scope, .updateStatus destSide.client { dest' with
      content := dest'.content.setStatus (source.content.field "status") }⟩ p p.afterForward

/-- The conditions on a server-side apply. -/
structure ApplyConditions (source : Unstructured) : Prop where
  namespaces : O.Namespaces scope destSide source
  apply : ∀ destObj, s.destCreator source = .ok destObj →
    O.Leads ⟨scope, .apply destSide.client (s.applyPayload L sourceSide source destObj)
      s.fieldManager⟩ .found (Point.after .applied)

/-- The conditions of an outline, for a source object and what was found of its destination. -/
structure Conditions (source : Unstructured) (dest : Option Unstructured) : Prop where
  read : ∀ p (c : Call), c.scope = scope → c.failure = none → O.Leads c p fun _ => p
  giveUp : ∀ w, O.holds .found w → O.holds .failed w
  ignore : s.Deleting source → s.blockSourceDeletion = false →
    ∀ w, O.holds .found w → O.holds (.ended false) w
  wait : s.Deleting source → s.blockSourceDeletion = true →
    ∀ d, dest = some d → d.metadata.deletionTimestamp.isSome = true →
    ∀ w, O.holds .found w → O.holds (.ended true) w
  delete : s.Deleting source → s.blockSourceDeletion = true →
    ∀ d, dest = some d → d.metadata.deletionTimestamp.isSome = false →
    O.Leads ⟨scope, .delete (d.idOn destSide.client)
      (normalizeDeletionPropagationPolicy s.deletionPropagationPolicy)⟩ .found
      (Point.after (.ended true))
  release : s.Deleting source → s.blockSourceDeletion = true → dest = none →
    source.metadata.finalizers.contains deletionFinalizer = true →
    O.Leads ⟨scope, .patch ((withoutFinalizer source).idOn sourceSide.client)
      (L.diff.create source.toFields (withoutFinalizer source).toFields)⟩ .found
      (Point.after (.ended true))
  released : s.Deleting source → s.blockSourceDeletion = true → dest = none →
    source.metadata.finalizers.contains deletionFinalizer = false →
    ∀ w, O.holds .found w → O.holds (.ended false) w
  finalize : ¬ s.Deleting source → s.blockSourceDeletion = true →
    source.metadata.finalizers.contains deletionFinalizer = false →
    O.Leads ⟨scope, .patch ((withFinalizer source).idOn sourceSide.client)
      (L.diff.create source.toFields (withFinalizer source).toFields)⟩ .found
      (Point.after (.ended true))
  create : s.Live source → s.useServerSideApply = false →
    ∀ source', s.applyMutations source dest = .ok (source', none) →
    O.CreateConditions L scope sourceSide destSide source'
  update : s.Live source → s.useServerSideApply = false →
    ∀ source' d, s.applyMutations source dest = .ok (source', some d) →
    d.metadata.deletionTimestamp.isSome = false →
    O.UpdateConditions L scope sourceSide destSide source' d
  apply : s.Live source → s.useServerSideApply = true →
    ∀ source' dest', s.applyMutations source dest = .ok (source', dest') →
    (∀ d, dest' = some d → d.metadata.deletionTimestamp.isSome = false) →
    O.ApplyConditions L scope sourceSide destSide source'
  skip : s.Live source → ∀ source' d, s.applyMutations source dest = .ok (source', some d) →
    d.metadata.deletionTimestamp.isSome = true →
    (s.useServerSideApply = true → O.Namespaces scope destSide source') ∧
      ∀ w, O.holds .found w → O.holds (.ended false) w
  status : s.Live source → s.syncStatusBack = true → ∀ p, p = .clean ∨ p = .applied →
    ∀ source' dest', s.applyMutations source dest = .ok (source', dest') → ∀ status,
    O.Leads ⟨scope, .updateStatus sourceSide.client { source' with
      content := source'.content.setStatus status }⟩ p (Point.after p)
  endStored : ∀ w, O.holds .stored w → O.holds (.ended true) w
  endSynced : ∀ p, p = .clean ∨ p = .applied → ∀ w, O.holds p w → O.holds (.ended false) w

/-! ### The calls in turn -/

variable {O} {L scope sourceSide destSide} {source : Unstructured} {dest : Option Unstructured}
  {w : World}

theorem Leads.sendE {X : Type} {c : api.Call} {h : api.Resp c → Except Error X} {p : Point}
    {q : c.verb.Resp → Point} {Q : X → World → Prop} {R : World → Prop} (hc : O.Leads c p q)
    (hout : ∀ r w, O.holds (q r) w → Fallible.Outcome Q R (h r) w) (hw : O.holds p w) :
    Fallible.Keeps E G (Fallible.sendE c h) Q R w := by
  refine .sendE_of_triple (fun w hw => ?_) (O.stable p) hw
  obtain ⟨hbefore, hdoes⟩ := hc.triple w hw
  exact ⟨hbefore, fun r w' hd => ⟨(hdoes r w' hd).1, hout r w' (hdoes r w' hd).2⟩⟩

theorem Leads.request {verb : Verb} {p : Point} {q : verb.Resp → Point} {R : World → Prop}
    (hc : O.Leads ⟨scope, verb⟩ p q) (hw : O.holds p w) :
    Fallible.Keeps E G (request scope verb) (fun r w => O.holds (q r) w) R w :=
  .request_of_triple hc.triple (O.stable p) hw

theorem outcome_after {X : Type} {p : Point} (r : Except ApiError X) (w : World)
    (h : O.holds (p.after r) w) :
    Fallible.Outcome (fun _ w => O.holds p w) (O.holds .failed) (r.mapError Error.api) w := by
  cases r with
  | ok a => exact h
  | error e => exact h

theorem Conditions.put_keeps (hO : O.Conditions L scope sourceSide destSide source dest)
    {clusterName : String} {obj : Unstructured} {p q : Point}
    (hput : O.Puts L scope clusterName obj p q) (hw : O.holds p w) :
    Fallible.Keeps E G (ObjectStateStore.put L.hash s.stateStore scope obj clusterName
      s.subresources) (fun _ => O.holds q) (O.holds .failed) w := by
  refine KubernetesBackend.put_keeps (O.stable p) O.secret O.sound
    (hO.read p _ rfl rfl).triple ?_ hw
  intro c hscope htarget w hw
  obtain ⟨hbefore, hdoes⟩ := hput c hscope htarget w hw
  refine ⟨hbefore, fun r w' hd => ?_⟩
  obtain ⟨hfail, hstore⟩ := hdoes r w' hd
  exact ⟨fun hr hw' => ⟨O.always _ _ (hfail hr hw'), hfail hr hw'⟩,
    fun hs => ⟨O.always _ _ (hstore hs), hstore hs⟩⟩

theorem UpdateConditions.syncObjectStatusForward_keeps {source' d d' : Unstructured}
    (hC : O.UpdateConditions L scope sourceSide destSide source' d) {p : Point}
    (hp : p = .stored ∨ p = .clean) (hw : O.holds p w) :
    Fallible.Keeps E G (s.syncObjectStatusForward scope destSide source' d') (fun _ => O.holds p)
      (O.holds .failed) w := by
  unfold syncObjectStatusForward
  split
  · exact .pure hw
  · next hforward =>
    split
    · exact .pure hw
    · refine .seq ((hC.forward (by simpa using hforward) p hp d').request hw) fun r w hw => ?_
      split
      · exact .pure hw
      · exact .pure hw
      · next e hne =>
        refine .throw ?_
        cases e with
        | notFound => exact absurd rfl hne
        | _ => exact hw

theorem UpdateConditions.ensureDestMetadataPersisted_keeps {source' d : Unstructured}
    (hC : O.UpdateConditions L scope sourceSide destSide source' d) (hw : O.holds .found w) :
    Fallible.Keeps E G (s.ensureDestMetadataPersisted L scope destSide d)
      (fun r w => if r.1 then O.holds (.ended true) w else O.holds .found w ∧ r.2 = d)
      (O.holds .failed) w := by
  unfold ensureDestMetadataPersisted
  split
  · exact .pure ⟨hw, rfl⟩
  · dsimp only
    split
    · exact .pure ⟨hw, rfl⟩
    · next hdiff =>
      rw [not_and_or] at hdiff
      exact .seq (.mapError ((hC.restamp hdiff).sendE outcome_after hw)) fun _ w hw => .pure hw

section Walk

variable (hO : O.Conditions L scope sourceSide destSide source dest)

include hO

theorem Conditions.handleDeletion_keeps (hdel : s.Deleting source) (hw : O.holds .found w) :
    Fallible.Keeps E G (s.handleDeletion L scope sourceSide destSide source dest)
      (fun requeue => O.holds (.ended requeue)) (O.holds .failed) w := by
  unfold handleDeletion
  cases hblock : s.blockSourceDeletion with
  | false => exact .pure (hO.ignore hdel hblock w hw)
  | true =>
    rw [if_neg (by simp)]
    cases hdest : dest with
    | some d =>
      dsimp only
      split
      · next hd => exact .pure (hO.wait hdel hblock d hdest hd w hw)
      · next hd =>
        have hdelete := hO.delete hdel hblock d hdest (by simpa using hd)
        exact .seq (.mapError (hdelete.sendE outcome_after hw)) fun _ w hw => .pure hw
    | none =>
      refine .seq (.mapError ?_) fun r w (hw : O.holds (.ended r.1) w) => .pure hw
      unfold removeFinalizer
      split
      · next hfin => exact .pure (hO.released hdel hblock hdest (by simpa using hfin) w hw)
      · next hfin =>
        have hrelease := hO.release hdel hblock hdest (by simpa using hfin)
        exact .seq (hrelease.sendE outcome_after hw) fun _ w hw => .pure hw

theorem Conditions.ensureFinalizer_keeps (hdel : ¬ s.Deleting source)
    (hblock : s.blockSourceDeletion = true) (hw : O.holds .found w) :
    Fallible.Keeps E G (ensureFinalizer L.diff scope sourceSide.client source)
      (fun r w => if r.1 then O.holds (.ended true) w else O.holds .found w ∧ r.2 = source ∧
        source.metadata.finalizers.contains deletionFinalizer = true) (O.holds .failed) w := by
  unfold ensureFinalizer
  split
  · next hfin => exact .pure ⟨hw, rfl, hfin⟩
  · next hfin =>
    have hfinalize := hO.finalize hdel hblock (by simpa using hfin)
    exact .seq (hfinalize.sendE outcome_after hw) fun _ w hw => .pure hw

theorem Conditions.ensureNamespace_keeps {source' destObj : Unstructured}
    (hns : O.Namespaces scope destSide source') (hdest : s.destCreator source' = .ok destObj)
    (hw : O.holds .found w) :
    Fallible.Keeps E G (ensureNamespace scope destSide.client destObj.metadata.ns)
      (fun _ => O.holds .found) (O.holds .failed) w := by
  unfold ensureNamespace
  split
  · exact .pure hw
  · next hne =>
    refine .seq ((hO.read .found _ rfl rfl).request hw) fun found w hw => ?_
    split
    · exact .pure hw
    · refine .seq ((hns destObj hdest hne).request hw) fun created w hw => ?_
      split
      · exact .pure hw
      · exact .pure hw
      · exact .throw (hO.giveUp w hw)
    · exact .throw (hO.giveUp w hw)

theorem Conditions.adopt_keeps {source' destObj : Unstructured}
    (hC : O.CreateConditions L scope sourceSide destSide source')
    (hdest : s.destCreator source' = .ok destObj) (hw : O.holds .found w) :
    Fallible.Keeps E G (s.adoptExistingDestinationObject L scope destSide
      (s.newDestination L sourceSide source' destObj)
      (newObjectKey source' sourceSide.clusterName sourceSide.workspacePath))
      (fun _ => O.holds .placed) (O.holds .failed) w := by
  unfold adoptExistingDestinationObject
  split
  · next hdying => exact .pure (hC.dying destObj w hdest hdying hw)
  · refine .seq (P := fun existing => O.holds (.adopting existing))
      (.mapError (.sendE fun w₁ hr => ?_)) fun existing w hw => ?_
    · have hw₁ := O.stable .found w w₁ hw hr
      refine ⟨(hO.read .found _ (by rfl) (by rfl) w₁ hw₁).1, fun r w₂ hd => ?_⟩
      have hw₂ := (hO.read .found _ (by rfl) (by rfl) w₁ hw₁).2 r w₂ hd
      refine ⟨O.always _ _ hw₂, ?_⟩
      obtain ⟨rfl, selectors, rfl⟩ := (O.sound _ _ _ _ hd).read rfl
      simp only [exec]
      cases hobj : w₁.object? ((s.newDestination L sourceSide source' destObj).idOn
        destSide.client) with
      | none => exact hO.giveUp _ hw₂
      | some existing => exact hC.occupied destObj existing _ hdest hw₂ hobj
    · exact .seq (.mapError ((hC.adopt existing).sendE outcome_after hw)) fun _ w hw => .pure hw

theorem Conditions.ensureDestinationObject_keeps {source' : Unstructured}
    (hC : O.CreateConditions L scope sourceSide destSide source') (hw : O.holds .found w) :
    Fallible.Keeps E G (s.ensureDestinationObject L scope sourceSide destSide source')
      (fun _ => O.holds .stored) (O.holds .failed) w := by
  unfold ensureDestinationObject
  refine .seq (P := fun d w => s.destCreator source' = .ok d ∧ O.holds .found w)
    (wrapE_keeps (fun d h => ⟨h, hw⟩) fun _ _ => hO.giveUp w hw) fun d w h => ?_
  obtain ⟨hdest, hw⟩ := h
  refine .seq (.mapError (hO.ensureNamespace_keeps hC.namespaces hdest hw)) fun _ w hw => ?_
  refine .seq ((hC.create d hdest).request hw) fun created w hw => ?_
  have hput : ∀ w, O.holds .placed w → Fallible.Keeps E G (wrap "failed to update sync state"
      (ObjectStateStore.put L.hash s.stateStore scope source' sourceSide.clusterName
        s.subresources)) (fun _ => O.holds .stored) (O.holds .failed) w :=
    fun w hw => .mapError (hO.put_keeps hC.put hw)
  split
  · exact hput w hw
  · exact .seq (.mapError (hO.adopt_keeps hC hdest hw)) fun _ => hput
  · next e hne =>
    have hfailed : O.holds .failed w := by
      cases e with
      | alreadyExists => exact absurd rfl hne
      | _ => exact hw
    exact .seq (P := fun _ _ => False) (.throw hfailed) fun _ _ h => h.elim

theorem Conditions.get_keeps {source' d : Unstructured}
    (hC : O.UpdateConditions L scope sourceSide destSide source' d) (hw : O.holds .found w) :
    Fallible.Keeps E G
      (ObjectStateStore.get L.hash s.stateStore scope source' sourceSide.clusterName)
      (fun last => O.holds (.known last)) (O.holds .failed) w := by
  have hsecret := KubernetesBackend.secret_keeps (b := s.stateStore) (R := O.holds .failed)
    (O.stable .found) O.sound (hO.read .found _ rfl rfl).triple hw
  refine .seq (.seq hsecret fun found w h => ?_) fun data w h => .pure h
  obtain ⟨hw, rfl⟩ := h
  exact .pure (hC.known w hw)

/-- What is left after the synchronization of the spec: the state was stored, or nothing
differed. -/
theorem Conditions.syncObjectSpec_keeps {source' d : Unstructured}
    (hC : O.UpdateConditions L scope sourceSide destSide source' d) (hw : O.holds .found w) :
    Fallible.Keeps E G (s.syncObjectSpec L scope sourceSide destSide source' d)
      (fun r => O.holds (if r.1 then .stored else .clean)) (O.holds .failed) w := by
  refine .seq (.mapError (hO.get_keeps hC hw)) fun last w hw => ?_
  cases last with
  | some last =>
    dsimp only
    split
    · next hempty => exact .pure (hC.clean last w hempty hw)
    · next hne =>
      refine .seq (.mapError ((hC.patch last hne).sendE outcome_after hw)) fun d' w hw => ?_
      exact .seq (.mapError (hO.put_keeps (hC.putPatched last) hw)) fun _ w hw => .pure hw
  | none =>
    refine .seq (.mapError (hC.update.sendE outcome_after hw)) fun d' w hw => ?_
    exact .seq (.mapError (hO.put_keeps hC.putUpdated hw)) fun _ w hw => .pure hw

theorem Conditions.syncObjectStatus_keeps (hlive : s.Live source) {source' d : Unstructured}
    {dest' : Option Unstructured} (hmut : s.applyMutations source dest = .ok (source', dest'))
    {p : Point} (hp : p = .clean ∨ p = .applied) (hw : O.holds p w) :
    Fallible.Keeps E G (s.syncObjectStatus scope sourceSide source' d)
      (fun o w => O.holds p w ∧ o.metadata.ns = source'.metadata.ns ∧
        o.metadata.name = source'.metadata.name) (O.holds .failed) w := by
  unfold syncObjectStatus
  split
  · exact .pure ⟨hw, rfl, rfl⟩
  · next hback =>
    split
    · exact .pure ⟨hw, rfl, rfl⟩
    · refine .bind (.request fun w₁ hr => ?_)
      have hw₁ := O.stable p w w₁ hw hr
      have hstatus := hO.status hlive (by simpa using hback) p hp source' dest' hmut
        (d.content.field "status") w₁ hw₁
      refine ⟨hstatus.1, fun r w₂ hd => ?_⟩
      have hw₂ := hstatus.2 r w₂ hd
      refine ⟨O.always _ _ hw₂, ?_⟩
      rcases (O.sound _ _ _ _ hd).updateStatus with ⟨e, rfl, -⟩ | ⟨cur, o, hcur, rfl, -, -, hrew⟩
      · exact .throw hw₂
      · obtain ⟨rv, hmeta⟩ := hrew.becomes.metadata
        have hid := World.idOn_of_object? hcur
        simp only [Unstructured.idOn, ObjectId.mk.injEq] at hid
        exact .pure ⟨hw₂, by rw [hmeta]; exact hid.2.2.1, by rw [hmeta]; exact hid.2.2.2⟩

/-- The result of `Sync`: the source object of a finished pass has kept its namespace and name. -/
def Ended (O : Outline s S E G) (source : Unstructured) (r : Bool × Unstructured) (w : World) :
    Prop :=
  O.holds (.ended r.1) w ∧ (r.1 = false → r.2.metadata.ns = source.metadata.ns ∧
    r.2.metadata.name = source.metadata.name)

theorem Conditions.syncObjectContents_keeps (hlive : s.Live source) {source' d : Unstructured}
    (hmut : s.applyMutations source dest = .ok (source', some d))
    (hC : O.UpdateConditions L scope sourceSide destSide source' d) (hw : O.holds .found w) :
    Fallible.Keeps E G (s.syncObjectContents L scope sourceSide destSide source' d)
      (Ended O source') (O.holds .failed) w := by
  refine .seq (hO.syncObjectSpec_keeps hC hw) fun r w hw => ?_
  obtain ⟨requeue, d'⟩ := r
  cases requeue with
  | true =>
    refine .seq (hC.syncObjectStatusForward_keeps (.inl rfl) hw) fun _ w hw => ?_
    exact .pure ⟨hO.endStored w hw, fun h => by cases h⟩
  | false =>
    refine .seq (hC.syncObjectStatusForward_keeps (.inr rfl) hw) fun _ w hw => ?_
    refine .seq (hO.syncObjectStatus_keeps hlive hmut (.inl rfl) hw) fun o w h => ?_
    exact .pure ⟨hO.endSynced .clean (.inl rfl) w h.1, fun _ => h.2⟩

theorem Conditions.applyServerSide_keeps (hlive : s.Live source)
    (hssa : s.useServerSideApply = true) {source' : Unstructured} {dest' : Option Unstructured}
    (hmut : s.applyMutations source dest = .ok (source', dest')) (hw : O.holds .found w) :
    Fallible.Keeps E G (s.applyServerSide L scope sourceSide destSide source' dest')
      (fun d w => O.holds .applied w ∨
        O.holds (.ended false) w ∧ ∃ d', d = some d' ∧ d'.metadata.deletionTimestamp.isSome = true)
      (O.holds .failed) w := by
  -- a destination object in deletion is left alone
  have hdying : (∃ d, dest' = some d ∧ d.metadata.deletionTimestamp.isSome = true) ∨
      ∀ d, dest' = some d → d.metadata.deletionTimestamp.isSome = false := by
    cases dest' with
    | none => exact .inr fun d h => by cases h
    | some d =>
      cases hd : d.metadata.deletionTimestamp.isSome with
      | true => exact .inl ⟨d, rfl, hd⟩
      | false =>
        refine .inr fun d' h => ?_
        cases h
        exact hd
  have hns : O.Namespaces scope destSide source' := by
    rcases hdying with ⟨d, rfl, hd⟩ | hall
    · exact (hO.skip hlive source' d hmut hd).1 hssa
    · exact (hO.apply hlive hssa source' dest' hmut hall).namespaces
  unfold applyServerSide
  refine .seq (P := fun d w => s.destCreator source' = .ok d ∧ O.holds .found w)
    (wrapE_keeps (fun d h => ⟨h, hw⟩) fun _ _ => hO.giveUp w hw) fun destObj w h => ?_
  obtain ⟨hdest, hw⟩ := h
  refine .seq (.mapError (hO.ensureNamespace_keeps hns hdest hw)) fun _ w hw => ?_
  have happly : (∀ d, dest' = some d → d.metadata.deletionTimestamp.isSome = false) →
      Fallible.Keeps E G (wrap "failed to server-side apply destination object"
        (Sync.apply scope destSide.client (s.applyPayload L sourceSide source' destObj)
          s.fieldManager)) (fun _ => O.holds .applied) (O.holds .failed) w :=
    fun hall => .mapError (((hO.apply hlive hssa source' dest' hmut hall).apply destObj hdest).sendE
      outcome_after hw)
  cases dest' with
  | none => exact .seq (happly fun d h => by cases h) fun _ w hw => .pure (.inl hw)
  | some d =>
    dsimp only
    split
    · next hd => exact .pure (.inr ⟨(hO.skip hlive source' d hmut hd).2 w hw, d, rfl, hd⟩)
    · next hd =>
      refine .seq (happly fun d' h => ?_) fun _ w hw => .pure (.inl hw)
      cases h
      simpa using hd

theorem Conditions.syncMutated_keeps (hlive : s.Live source) {source' : Unstructured}
    {dest' : Option Unstructured} (hmut : s.applyMutations source dest = .ok (source', dest'))
    (hw : O.holds .found w) :
    Fallible.Keeps E G (s.syncMutated L scope sourceSide destSide source' dest') (Ended O source')
      (O.holds .failed) w := by
  unfold syncMutated
  split
  · next hssa =>
    refine .seq (.mapError (hO.applyServerSide_keeps hlive hssa hmut hw)) fun d w h => ?_
    rcases h with hw | ⟨hw, d', rfl, hd⟩
    · have hend := hO.endSynced .applied (.inr rfl)
      split
      · exact .pure ⟨hend w hw, fun _ => ⟨rfl, rfl⟩⟩
      · split
        · exact .pure ⟨hend w hw, fun _ => ⟨rfl, rfl⟩⟩
        · refine .seq (hO.syncObjectStatus_keeps hlive hmut (.inr rfl) hw) fun o w h => ?_
          exact .pure ⟨hend w h.1, fun _ => h.2⟩
    · dsimp only
      rw [if_pos hd]
      exact .pure ⟨hw, fun _ => ⟨rfl, rfl⟩⟩
  · next hssa =>
    have hmerge : s.useServerSideApply = false := by simpa using hssa
    cases dest' with
    | none =>
      refine .seq (.mapError (hO.ensureDestinationObject_keeps
        (hO.create hlive hmerge source' hmut) hw)) fun _ w hw => ?_
      exact .pure ⟨hO.endStored w hw, fun h => by cases h⟩
    | some d =>
      dsimp only
      split
      · next hd =>
        exact .pure ⟨(hO.skip hlive source' d hmut hd).2 w hw, fun _ => ⟨rfl, rfl⟩⟩
      · next hd =>
        have hC := hO.update hlive hmerge source' d hmut (by simpa using hd)
        refine .seq (.mapError (hC.ensureDestMetadataPersisted_keeps hw)) fun r w h => ?_
        obtain ⟨restamped, d'⟩ := r
        cases restamped with
        | true => exact .pure ⟨h, fun h => by cases h⟩
        | false =>
          obtain ⟨hw, rfl⟩ := h
          exact .mapError (hO.syncObjectContents_keeps hlive hmut hC hw)

/-- The conditions of an outline are enough for `Sync`. -/
theorem Conditions.sync_keeps (hw : O.holds .found w) :
    Fallible.Keeps E G (s.sync L scope sourceSide destSide source dest) (Ended O source)
      (O.holds .failed) w := by
  unfold sync
  split
  · next hdel =>
    have hdeleting : s.Deleting source := by simpa [Deleting] using hdel
    refine .seq (hO.handleDeletion_keeps hdeleting hw) fun requeue w hw => ?_
    exact .pure ⟨hw, fun _ => ⟨rfl, rfl⟩⟩
  · next hdel =>
    have hdeleting : ¬ s.Deleting source := by simpa [Deleting] using hdel
    -- the source object as it goes on: unchanged, and protected if it has to be
    have hfinalizer : Fallible.Keeps E G (if s.blockSourceDeletion then
          wrap "failed to add cleanup finalizer to source object"
            (ensureFinalizer L.diff scope sourceSide.client source)
        else pure (false, source))
        (fun r w => if r.1 then O.holds (.ended true) w else
          O.holds .found w ∧ r.2 = source ∧ (s.blockSourceDeletion = true →
            source.metadata.finalizers.contains deletionFinalizer = true)) (O.holds .failed) w := by
      split
      · next hblock =>
        refine .mono (.mapError (hO.ensureFinalizer_keeps hdeleting hblock hw)) (fun r w h => ?_)
          fun _ h => h
        obtain ⟨updated, o⟩ := r
        cases updated with
        | true => exact h
        | false => exact ⟨h.1, h.2.1, fun _ => h.2.2⟩
      · next hblock => exact .pure ⟨hw, rfl, fun h => absurd h hblock⟩
    refine .seq hfinalizer fun r w h => ?_
    obtain ⟨updated, o⟩ := r
    cases updated with
    | true => exact .pure ⟨h, fun h => by cases h⟩
    | false =>
      obtain ⟨hw, rfl, hguarded⟩ := h
      have hlive : s.Live o :=
        ⟨by simpa [Deleting] using fun h => hdeleting (.inl h), by
          simpa [Deleting] using fun h => hdeleting (.inr h), hguarded⟩
      refine .seq (P := fun m w => s.applyMutations o dest = .ok m ∧ O.holds .found w)
        (wrapE_keeps (fun m h => ⟨h, hw⟩) fun _ _ => hO.giveUp w hw) fun m w h => ?_
      obtain ⟨hmut, hw⟩ := h
      refine .seq (hO.syncMutated_keeps hlive hmut hw) fun r w h => .pure ⟨h.1, fun hr => ?_⟩
      -- without a mutator, the mutated object is the object itself
      cases hs : s.mutator with
      | some m => exact ⟨rfl, rfl⟩
      | none =>
        rw [applyMutations, hs] at hmut
        cases hmut
        exact h.2 hr

end Walk

end Outline

end ObjectSyncer

end Sync
