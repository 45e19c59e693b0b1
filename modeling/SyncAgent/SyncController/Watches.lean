import SyncAgent.Kube.Effects
import SyncAgent.Projection.Crd
import SyncAgent.SyncController.Reconciler

/-! The watches on related objects (`setupRelatedResourceWatches` in
`internal/controller/sync/controller.go` and `related_handlers.go`).  A changed related object is
mapped to requests for primaries, by its owner references or by a selector for the primaries.  The
result is about the keys under which the owners of an object in kcp are enqueued. -/

namespace SyncController

open Kube Sync
open Projection (GroupVersionKind parseGroupVersion)

/-! ### Owner references -/

/-- `GroupVersionKind` of a dummy: empty if the `apiVersion` cannot be parsed. -/
def groupVersionKind (t : TypeMeta) : GroupVersionKind :=
  match parseGroupVersion t.apiVersion with
  | .ok gv => ⟨gv.group, gv.version, t.kind⟩
  | .error _ => ⟨"", "", ""⟩

structure OwnerReference where
  apiVersion : String
  kind : String
  name : String
deriving DecidableEq

/-- A reference as `extractOwnerReference` reads it: what is not a string is empty. -/
def extractOwnerReference (ref : Fields) : OwnerReference where
  apiVersion := ((ref.get? "apiVersion").bind Doc.str?).getD ""
  kind := ((ref.get? "kind").bind Doc.str?).getD ""
  name := ((ref.get? "name").bind Doc.str?).getD ""

/-- `GetOwnerReferences`: nothing if an entry is not an object. -/
def getOwnerReferences (obj : Unstructured) : List OwnerReference :=
  ((obj.metadata.ownerReferences.mapM Doc.fields?).getD []).map extractOwnerReference

/-- The reference has the group, the version and the kind. -/
def OwnerReference.isOf (ref : OwnerReference) (gvk : GroupVersionKind) : Bool :=
  match parseGroupVersion ref.apiVersion with
  | .error _ => false
  | .ok gv => gv.group = gvk.group ∧ gv.version = gvk.version ∧ ref.kind = gvk.kind

/-- The reference that the loops of the handlers stop at. -/
def findOwner (ownerGVK : GroupVersionKind) (obj : Unstructured) : Option OwnerReference :=
  (getOwnerReferences obj).find? (·.isOf ownerGVK)

theorem exists_isOf (t : TypeMeta) (name : String) :
    ∃ ref : OwnerReference, ref.isOf (groupVersionKind t) = true ∧ ref.name = name := by
  have hempty : parseGroupVersion "" = .ok ⟨"", ""⟩ := rfl
  cases h : parseGroupVersion t.apiVersion with
  | ok gv =>
    exact ⟨⟨t.apiVersion, t.kind, name⟩, by simp [OwnerReference.isOf, groupVersionKind, h], rfl⟩
  | error e =>
    exact ⟨⟨"", "", name⟩, by simp [OwnerReference.isOf, groupVersionKind, h, hempty], rfl⟩

/-- A reference as it is written in the metadata. -/
def OwnerReference.fields (ref : OwnerReference) : Fields :=
  ((SortedMap.insert ∅ "apiVersion" (Doc.str ref.apiVersion)).insert "kind" (.str ref.kind)).insert
    "name" (.str ref.name)

/-- An object of a type with nothing but a namespace and owner references. -/
def referring (t : TypeMeta) (ns : String) (refs : List OwnerReference) : Unstructured :=
  ⟨t, { ns, ownerReferences := refs.map fun ref => .obj ref.fields }, default⟩

@[simp] theorem getOwnerReferences_referring (t : TypeMeta) (ns : String)
    (refs : List OwnerReference) : getOwnerReferences (referring t ns refs) = refs := by
  have hfields : (refs.map fun ref => Doc.obj ref.fields).mapM Doc.fields? =
      some (refs.map OwnerReference.fields) := by
    induction refs with
    | nil => rfl
    | cons ref refs ih => simp [ih]
  have hread : extractOwnerReference ∘ OwnerReference.fields = id := funext fun ref => by
    simp [extractOwnerReference, OwnerReference.fields]
  simp [getOwnerReferences, referring, hfields, hread]

/-! ### Handlers -/

inductive Event where
  | create (obj : Unstructured)
  | update (objectOld objectNew : Unstructured)
  | delete (obj : Unstructured)
  | generic (obj : Unstructured)

namespace Event

/-- The object that the handlers of `related_handlers.go` look at. -/
def object : Event → Unstructured
  | create obj | update _ obj | delete obj | generic obj => obj

/-- The objects that `TypedEnqueueRequestsFromMapFunc` maps. -/
def mapped : Event → List Unstructured
  | create obj | delete obj | generic obj => [obj]
  | update objectOld objectNew => [objectOld, objectNew]

theorem object_mem_mapped (ev : Event) : ev.object ∈ ev.mapped := by
  cases ev <;> simp [object, mapped]

end Event

/-- What the handler of a watch enqueues.  The name of the cluster only matters for watches in
kcp. -/
abbrev Handler := String → Event → Prog api (List Request)

/-- The key of the watch on the primaries themselves, `TypedEnqueueRequestForObject`. -/
def requestForObject (clusterName : String) (primary : Unstructured) : Request :=
  ⟨clusterName, primary.metadata.ns, primary.metadata.name⟩

/-- The request for the remote object that a local object belongs to. -/
def remoteRequest (localPrimary : Unstructured) : Option Request :=
  (remoteNameForLocalObject localPrimary).map fun n => ⟨n.clusterName, n.ns, n.name⟩

/-- A read is made on behalf of the changed object. -/
def eventScope (clusterName : String) (obj : Unstructured) : Scope :=
  { cluster := clusterName, ns := obj.metadata.ns, name := obj.metadata.name }

/-- `byOwnerEventHandler.enqueue` -/
def byOwnerEnqueue (clusterName : String) (ownerGVK : GroupVersionKind) (obj : Unstructured) :
    List Request :=
  match findOwner ownerGVK obj with
  | some ref => [⟨clusterName, obj.metadata.ns, ref.name⟩]
  | none => []

structure RelatedResourceWatch where
  byOwner : Bool := false
  bySelector : Option LabelSelector := none
deriving DecidableEq

structure WatchedResource extends RelatedResourceSpec where
  watch : Option RelatedResourceWatch := none
deriving DecidableEq

/-- What the setup of the watches depends on: the types of the two dummies, the REST mappers of both
sides, and whether the controller accepts a watch. -/
structure WatchSetup where
  libs : Libraries
  localDummy : TypeMeta
  remoteDummy : TypeMeta
  kindFor : RelatedResourceOrigin → GroupVersionResource → Except Error TypeMeta
  accepts : RelatedResourceOrigin → TypeMeta → Except Error Unit

namespace WatchSetup

variable (C : WatchSetup)

/-- `bySelectorEventHandler.enqueue`.  The selector is converted for every event. -/
def bySelectorEnqueue (labelSelector : LabelSelector) (clusterName : String) (obj : Unstructured) :
    Prog api (List Request) :=
  match C.libs.labelSelectorAsSelector labelSelector with
  | .error _ => .pure []
  | .ok selector =>
    (Prog.send (I := api) ⟨eventScope clusterName obj,
      .list (.remoteClient clusterName) C.remoteDummy "" selector 0 false⟩).bind fun r =>
      .pure ((r.toOption.getD []).map (requestForObject clusterName))

/-- The function that maps a local related object by its owner references. -/
def mapByOwner (obj : Unstructured) : Prog api (List Request) :=
  match findOwner (groupVersionKind C.localDummy) obj with
  | none => .pure []
  | some ref =>
    (Prog.send (I := api) ⟨eventScope "" obj,
      .get ⟨.localClient, C.localDummy, obj.metadata.ns, ref.name⟩ false⟩).bind fun r =>
      .pure (r.toOption.bind remoteRequest).toList

/-- The function that maps a local related object by a selector for the local primaries. -/
def mapBySelector (selector : Selector) (obj : Unstructured) : Prog api (List Request) :=
  (Prog.send (I := api) ⟨eventScope "" obj,
    .list .localClient C.localDummy "" selector 0 false⟩).bind fun r =>
    .pure ((r.toOption.getD []).filterMap remoteRequest)

end WatchSetup

/-- `TypedEnqueueRequestsFromMapFunc`.  It adds a request once, which does not matter for the
set. -/
def enqueueRequestsFromMapFunc (f : Unstructured → Prog api (List Request)) :
    List Unstructured → Prog api (List Request)
  | [] => .pure []
  | obj :: rest => (f obj).bind fun requests =>
    (enqueueRequestsFromMapFunc f rest).bind fun others => .pure (requests ++ others)

/-! ### Setup -/

def originText : RelatedResourceOrigin → String
  | .kcp => "kcp"
  | .service => "service"

def gvrText (gvr : GroupVersionResource) : String :=
  gvr.group ++ "/" ++ gvr.version ++ ", Resource=" ++ gvr.resource

def gvkText (gvk : GroupVersionKind) : String :=
  gvk.group ++ "/" ++ gvk.version ++ ", Kind=" ++ gvk.kind

def noRuleError (origin : RelatedResourceOrigin) (gvk : TypeMeta) : Error :=
  .new ("related resource " ++ gvkText (groupVersionKind gvk) ++
    " (origin: " ++ originText origin ++
    ") has Watch set but neither byOwner nor bySelector configured")

structure Watch where
  origin : RelatedResourceOrigin
  gvk : TypeMeta
  handler : Handler

namespace WatchSetup

variable (C : WatchSetup)

def buildKcpRelatedHandler (watch : RelatedResourceWatch) (gvk : TypeMeta) : Except Error Handler :=
  if watch.byOwner then
    .ok fun clusterName ev =>
      .pure (byOwnerEnqueue clusterName (groupVersionKind C.remoteDummy) ev.object)
  else
    match watch.bySelector with
    | some labelSelector =>
      .ok fun clusterName ev => C.bySelectorEnqueue labelSelector clusterName ev.object
    | none => .error (noRuleError .kcp gvk)

def buildServiceRelatedHandler (watch : RelatedResourceWatch) (gvk : TypeMeta) :
    Except Error Handler :=
  if watch.byOwner then .ok fun _ ev => enqueueRequestsFromMapFunc C.mapByOwner ev.mapped
  else
    match watch.bySelector with
    | some labelSelector =>
      match C.libs.labelSelectorAsSelector labelSelector with
      | .error e =>
        .error (.wrapped ("failed to convert bySelector for service-origin related resource " ++
          gvkText (groupVersionKind gvk)) (.new e))
      | .ok selector =>
        .ok fun _ ev => enqueueRequestsFromMapFunc (C.mapBySelector selector) ev.mapped
    | none => .error (noRuleError .service gvk)

def buildRelatedHandler : RelatedResourceOrigin → RelatedResourceWatch → TypeMeta →
    Except Error Handler
  | .kcp => C.buildKcpRelatedHandler
  | .service => C.buildServiceRelatedHandler

/-- The kind of a related resource on the side it comes from. -/
def relatedKind (relRes : WatchedResource) : Except Error TypeMeta :=
  (C.kindFor relRes.origin relRes.gvr).mapError
    (.wrapped ("failed to determine Kind for related resource " ++ gvrText relRes.gvr ++
      " (origin: " ++ originText relRes.origin ++ ")"))

/-- The loop of `setupRelatedResourceWatches`.  `watched` holds the kinds of both sides that have a
watch; the rule of a related resource whose kind is among them is not looked at. -/
def setupRelatedResourceWatches (watched : List (RelatedResourceOrigin × TypeMeta)) :
    List WatchedResource → Except Error (List Watch)
  | [] => .ok []
  | relRes :: rest =>
    match relRes.watch with
    | none => setupRelatedResourceWatches watched rest
    | some watch => do
      let gvk ← C.relatedKind relRes
      if (relRes.origin, gvk) ∈ watched then setupRelatedResourceWatches watched rest
      else
        let handler ← C.buildRelatedHandler relRes.origin watch gvk
        (C.accepts relRes.origin gvk).mapError
          (.wrapped ("failed to setup watch for " ++ originText relRes.origin ++
            "-origin related resource " ++ gvkText (groupVersionKind gvk)))
        let watches ← setupRelatedResourceWatches ((relRes.origin, gvk) :: watched) rest
        return ⟨relRes.origin, gvk, handler⟩ :: watches

end WatchSetup

/-! ### The keys of owners -/

/-- The reference has the group and the kind, in any version. -/
def OwnerReference.isOfKind (ref : OwnerReference) (gvk : GroupVersionKind) : Bool :=
  match parseGroupVersion ref.apiVersion with
  | .error _ => false
  | .ok gv => gv.group = gvk.group ∧ ref.kind = gvk.kind

theorem OwnerReference.isOfKind_of_isOf {ref : OwnerReference} {gvk : GroupVersionKind}
    (h : ref.isOf gvk = true) : ref.isOfKind gvk = true := by
  unfold isOf at h
  unfold isOfKind
  split at h
  · cases h
  · simp only [decide_eq_true_eq] at h ⊢
    exact ⟨h.1, h.2.2⟩

/-- The primary of type `t` is an owner of the object: a reference names its group and kind, and it
is where the references of the object lead to, in the same namespace or, if the primaries are
cluster-scoped, in none. -/
structure Owns (t : TypeMeta) (scope : ResourceScope) (primary obj : Unstructured) : Prop where
  typeMeta : primary.typeMeta = t
  referred : ∃ ref ∈ getOwnerReferences obj,
    ref.isOfKind (groupVersionKind t) = true ∧ ref.name = primary.metadata.name
  inScope : primary.metadata.ns = "" ↔ scope = .clusterScoped
  placed : primary.metadata.ns = "" ∨ primary.metadata.ns = obj.metadata.ns

/-- The object has no reference to the group and kind; or one in the watched version, all with the
same name, from the namespace in which the primaries are; or it is cluster-scoped, the primaries are
not, and no reference has the watched version. -/
def NamesOneOwner (gvk : GroupVersionKind) (scope : ResourceScope) (obj : Unstructured) : Prop :=
  (∀ ref ∈ getOwnerReferences obj, ref.isOfKind gvk = false) ∨
  ((obj.metadata.ns = "" ↔ scope = .clusterScoped) ∧
    (∃ ref ∈ getOwnerReferences obj, ref.isOf gvk = true) ∧
    ∀ ref ∈ getOwnerReferences obj, ref.isOfKind gvk = true →
      ∀ ref' ∈ getOwnerReferences obj, ref'.isOfKind gvk = true → ref.name = ref'.name) ∨
  (scope = .namespaceScoped ∧ obj.metadata.ns = "" ∧
    ∀ ref ∈ getOwnerReferences obj, ref.isOf gvk = false)

/-- The namespace of the owners, if the references lead anywhere. -/
def ownerNamespace (scope : ResourceScope) (obj : Unstructured) : Option String :=
  match scope with
  | .clusterScoped => some ""
  | .namespaceScoped => if obj.metadata.ns = "" then none else some obj.metadata.ns

theorem owner_key_iff {t : TypeMeta} {scope : ResourceScope} {obj : Unstructured}
    {clusterName : String} {request : Request} :
    (∃ primary, Owns t scope primary obj ∧ requestForObject clusterName primary = request) ↔
      ∃ ns, ownerNamespace scope obj = some ns ∧ ∃ ref ∈ getOwnerReferences obj,
        ref.isOfKind (groupVersionKind t) = true ∧ request = ⟨clusterName, ns, ref.name⟩ := by
  constructor
  · rintro ⟨primary, ⟨-, ⟨ref, hmem, hkind, hname⟩, hscoped, hplaced⟩, rfl⟩
    refine ⟨primary.metadata.ns, ?_, ref, hmem, hkind, by rw [requestForObject, hname]⟩
    cases scope with
    | clusterScoped => rw [ownerNamespace, hscoped.mpr rfl]
    | namespaceScoped =>
      have hne : primary.metadata.ns ≠ "" := fun h => nomatch hscoped.mp h
      have hsame := hplaced.resolve_left hne
      rw [ownerNamespace, ← hsame, if_neg hne]
  · rintro ⟨ns, hns, ref, hmem, hkind, rfl⟩
    refine ⟨⟨t, { name := ref.name, ns }, default⟩, ⟨rfl, ⟨ref, hmem, hkind, rfl⟩, ?_, ?_⟩, rfl⟩
    · cases scope with
      | clusterScoped => simpa [ownerNamespace] using hns
      | namespaceScoped =>
        simp only [ownerNamespace, Option.ite_none_left_eq_some, Option.some.injEq] at hns
        simpa [← hns.2] using hns.1
    · cases scope with
      | clusterScoped => exact .inl (Option.some.inj hns).symm
      | namespaceScoped =>
        simp only [ownerNamespace, Option.ite_none_left_eq_some, Option.some.injEq] at hns
        exact .inr hns.2.symm

theorem mem_byOwnerEnqueue {clusterName : String} {gvk : GroupVersionKind} {obj : Unstructured}
    {request : Request} : request ∈ byOwnerEnqueue clusterName gvk obj ↔
      ∃ ref, findOwner gvk obj = some ref ∧ request = ⟨clusterName, obj.metadata.ns, ref.name⟩ := by
  unfold byOwnerEnqueue
  split
  · next ref h => simp [h]
  · next h => simp [h]

theorem findOwner_eq_none {gvk : GroupVersionKind} {obj : Unstructured} :
    findOwner gvk obj = none ↔ ∀ ref ∈ getOwnerReferences obj, ref.isOf gvk = false := by
  simp [findOwner]

theorem mem_of_findOwner {gvk : GroupVersionKind} {obj : Unstructured} {ref : OwnerReference}
    (h : findOwner gvk obj = some ref) : ref ∈ getOwnerReferences obj ∧ ref.isOf gvk = true := by
  unfold findOwner at h
  exact ⟨List.mem_of_find?_eq_some h, by simpa using List.find?_some h⟩

theorem ownerNamespace_self_iff {scope : ResourceScope} {obj : Unstructured} :
    ownerNamespace scope obj = some obj.metadata.ns ↔
      (obj.metadata.ns = "" ↔ scope = .clusterScoped) := by
  cases scope with
  | clusterScoped => simp [ownerNamespace]
  | namespaceScoped => simp [ownerNamespace]

/-- The handler enqueues exactly the owners, under the keys of the watch on the primaries, if and
only if the object names one owner in the way that the handler expects. -/
theorem byOwnerEnqueue_exact_iff (t : TypeMeta) (scope : ResourceScope) (clusterName : String)
    (obj : Unstructured) :
    (∀ request, request ∈ byOwnerEnqueue clusterName (groupVersionKind t) obj ↔
      ∃ primary, Owns t scope primary obj ∧ requestForObject clusterName primary = request) ↔
      NamesOneOwner (groupVersionKind t) scope obj := by
  simp only [mem_byOwnerEnqueue, owner_key_iff]
  generalize groupVersionKind t = gvk
  cases hfind : findOwner gvk obj with
  | none =>
    have hnone := findOwner_eq_none.mp hfind
    constructor
    · intro h
      -- without a request there is no owner, so the references name nothing or lead nowhere
      cases hns : ownerNamespace scope obj with
      | some ns =>
        refine .inl fun ref hmem => Bool.eq_false_iff.mpr fun hkind => ?_
        obtain ⟨_, hsome, -⟩ := (h ⟨clusterName, ns, ref.name⟩).mpr ⟨ns, hns, ref, hmem, hkind, rfl⟩
        cases hsome
      | none =>
        cases scope with
        | clusterScoped => cases hns
        | namespaceScoped => exact .inr (.inr ⟨rfl, by simpa [ownerNamespace] using hns, hnone⟩)
    · rintro (hfree | ⟨-, ⟨ref, hmem, hof⟩, -⟩ | ⟨rfl, hns, -⟩) request
      · refine ⟨fun h => (by obtain ⟨_, h, -⟩ := h; cases h), ?_⟩
        rintro ⟨_, -, ref, hmem, hkind, -⟩
        rw [hfree ref hmem] at hkind
        cases hkind
      · rw [hnone ref hmem] at hof
        cases hof
      · simp [ownerNamespace, hns]
  | some found =>
    obtain ⟨hmem, hof⟩ := mem_of_findOwner hfind
    have hkind := OwnerReference.isOfKind_of_isOf hof
    constructor
    · intro h
      obtain ⟨ns, hns, ref, -, -, heq⟩ :=
        (h ⟨clusterName, obj.metadata.ns, found.name⟩).mp ⟨found, rfl, rfl⟩
      have hsame : obj.metadata.ns = ns := congrArg Request.ns heq
      subst hsame
      -- every owner is the one that was found
      have hname : ∀ ref ∈ getOwnerReferences obj, ref.isOfKind gvk = true →
          ref.name = found.name := by
        intro ref hmem' hkind'
        obtain ⟨_, hsome, heq⟩ := (h ⟨clusterName, obj.metadata.ns, ref.name⟩).mpr
          ⟨_, hns, ref, hmem', hkind', rfl⟩
        cases hsome
        exact congrArg Request.name heq
      exact .inr (.inl ⟨ownerNamespace_self_iff.mp hns, ⟨found, hmem, hof⟩,
        fun ref h₁ h₂ ref' h₃ h₄ => (hname ref h₁ h₂).trans (hname ref' h₃ h₄).symm⟩)
    · rintro (hfree | ⟨hns, -, hname⟩ | ⟨-, -, hnone⟩) request
      · rw [hfree found hmem] at hkind
        cases hkind
      · rw [← ownerNamespace_self_iff] at hns
        constructor
        · rintro ⟨_, hsome, rfl⟩
          cases hsome
          exact ⟨_, hns, found, hmem, hkind, rfl⟩
        · rintro ⟨_, hns', ref, hmem', hkind', rfl⟩
          rw [hns] at hns'
          cases hns'
          exact ⟨found, rfl, by rw [hname ref hmem' hkind' found hmem hkind]⟩
      · rw [hnone found hmem] at hof
        cases hof

def backendType : TypeMeta := ⟨"example.com/v1", "Backend", by decide⟩

def backendReference (version name : String) : OwnerReference :=
  ⟨"example.com/" ++ version, "Backend", name⟩

/-- A Secret that belongs to a cluster-scoped primary enqueues a key that the primary does not have;
of two owners only the first is enqueued; and a reference in another version is skipped. -/
theorem byOwnerEnqueue_misses :
    (byOwnerEnqueue "c1" (groupVersionKind backendType)
        (referring .secret "team" [backendReference "v1" "main"]) = [⟨"c1", "team", "main"⟩] ∧
      ∃ primary, Owns backendType .clusterScoped primary
          (referring .secret "team" [backendReference "v1" "main"]) ∧
        requestForObject "c1" primary = ⟨"c1", "", "main"⟩) ∧
    (byOwnerEnqueue "c1" (groupVersionKind backendType) (referring .secret "team"
        [backendReference "v1" "main", backendReference "v1" "spare"]) = [⟨"c1", "team", "main"⟩] ∧
      ∃ primary, Owns backendType .namespaceScoped primary (referring .secret "team"
          [backendReference "v1" "main", backendReference "v1" "spare"]) ∧
        requestForObject "c1" primary = ⟨"c1", "team", "spare"⟩) ∧
    byOwnerEnqueue "c1" (groupVersionKind backendType)
        (referring .secret "team" [backendReference "v2" "main"]) = [] ∧
      ∃ primary, Owns backendType .namespaceScoped primary
          (referring .secret "team" [backendReference "v2" "main"]) ∧
        requestForObject "c1" primary = ⟨"c1", "team", "main"⟩ := by
  refine ⟨⟨?_, ?_⟩, ⟨?_, ?_⟩, ?_, ?_⟩
  · simp only [byOwnerEnqueue, findOwner, getOwnerReferences_referring]
    rfl
  · simp only [owner_key_iff, getOwnerReferences_referring]
    exact ⟨_, rfl, _, .head _, by decide, rfl⟩
  · simp only [byOwnerEnqueue, findOwner, getOwnerReferences_referring]
    rfl
  · simp only [owner_key_iff, getOwnerReferences_referring]
    exact ⟨_, rfl, _, .tail _ (.head _), by decide, rfl⟩
  · simp only [byOwnerEnqueue, findOwner, getOwnerReferences_referring]
    rfl
  · simp only [owner_key_iff, getOwnerReferences_referring]
    exact ⟨_, rfl, _, .head _, by decide, rfl⟩

end SyncController
