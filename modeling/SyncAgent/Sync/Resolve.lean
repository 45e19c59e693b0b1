import SyncAgent.Sync.ObjectSyncer
import SyncAgent.Kube.Effects

/-! How the objects of a related resource are found on their origin side (the resolving half of
`syncer_related.go`): by a reference, by a label selector or by a template, for their namespaces and
for their names. -/

namespace Sync

open Kube

/-- One side of a synchronization with the primary object on it. -/
structure ObjectSide extends SyncSide where
  object : Unstructured

/-- The result of following the configuration of a related resource: the object on the origin side
and the name of its copy. -/
structure ResolvedObject where
  original : Unstructured
  destination : NamespacedName
deriving DecidableEq

/-! ### Templates -/

def RelatedResourceOrigin.text : RelatedResourceOrigin → String
  | .kcp => "kcp"
  | .service => "service"

def newRelatedObjectContext (object : Unstructured) (side : RelatedResourceOrigin)
    (clusterName clusterPath : String) : Fields :=
  SortedMap.ofOptions [
    ("ClusterName", some (.str clusterName)),
    ("ClusterPath", some (.str clusterPath)),
    ("Object", some (.obj object.toFields)),
    ("Side", some (.str side.text))]
    (show List.Pairwise (· < ·) ["ClusterName", "ClusterPath", "Object", "Side"] by decide)

def newRelatedObjectLabelContext (localObject remoteObject : Unstructured)
    (clusterName clusterPath : String) : Fields :=
  SortedMap.ofOptions [
    ("ClusterName", some (.str clusterName)),
    ("ClusterPath", some (.str clusterPath)),
    ("LocalObject", some (.obj localObject.toFields)),
    ("RemoteObject", some (.obj remoteObject.toFields))]
    (show List.Pairwise (· < ·) ["ClusterName", "ClusterPath", "LocalObject", "RemoteObject"]
      by decide)

def newRelatedObjectLabelRewriteContext (value : String) (localObject remoteObject : Unstructured)
    (relatedObject : Option Unstructured) (clusterName clusterPath : String) : Fields :=
  SortedMap.ofOptions [
    ("ClusterName", some (.str clusterName)),
    ("ClusterPath", some (.str clusterPath)),
    ("LocalObject", some (.obj localObject.toFields)),
    ("RelatedObject", some (.obj (relatedObject.elim ∅ Unstructured.toFields))),
    ("RemoteObject", some (.obj remoteObject.toFields)),
    ("Value", some (.str value))]
    (show List.Pairwise (· < ·) ["ClusterName", "ClusterPath", "LocalObject", "RelatedObject",
      "RemoteObject", "Value"] by decide)

/-- The local and the remote one of an origin and a destination side. -/
def remapSyncSides (relatedOrigin relatedDest : ObjectSide) (origin : RelatedResourceOrigin) :
    ObjectSide × ObjectSide :=
  match origin with
  | .kcp => (relatedDest, relatedOrigin)
  | .service => (relatedOrigin, relatedDest)

def oppositeSide : RelatedResourceOrigin → RelatedResourceOrigin
  | .kcp => .service
  | .service => .kcp

variable (L : Libraries)

def applyRegularExpression (value : String) (re : RegularExpression) : Except Error String :=
  if re.pattern = "" then .ok re.replacement
  else (L.regexReplace re.pattern value re.replacement).mapError fun e =>
    .wrapped ("invalid pattern " ++ re.pattern) (.new e)

/-- `resolveReference` on the JSON form of an object. -/
def resolveObjectReference (object : Unstructured) (ref : RelatedResourceObjectReference) :
    Except Error (List String) :=
  match L.gjson object.toFields ref.path with
  | none => .ok []
  | some found =>
    let values := found.map GoTemplate.trimSpace
    match ref.regex with
    | none => .ok values
    | some re => values.mapM fun value => applyRegularExpression L value re

/-- The pairs of equal positions in two lists; a pair with an empty string is ignored. -/
def mapSlices (a b : List String) : StringMap :=
  SortedMap.ofList ((a.zip b).filter fun p => p.1 ≠ "" && p.2 ≠ "")

section Sides

variable (relatedOrigin relatedDest : ObjectSide) (origin : RelatedResourceOrigin)

def applyTemplate (tpl : TemplateExpression) (value : String)
    (originRelatedObject : Option Unstructured) : Except Error String :=
  let (localSide, remoteSide) := remapSyncSides relatedOrigin relatedDest origin
  renderTemplate L.engine tpl.template (newRelatedObjectLabelRewriteContext value localSide.object
    remoteSide.object originRelatedObject remoteSide.clusterName remoteSide.workspacePath)

def applyTemplateBothSides (tpl : TemplateExpression) : Except Error (String × String) :=
  let (_, remoteSide) := remapSyncSides relatedOrigin relatedDest origin
  match renderTemplate L.engine tpl.template (newRelatedObjectContext relatedOrigin.object origin
    remoteSide.clusterName remoteSide.workspacePath) with
  | .error e => .error (.wrapped "failed to evaluate template on origin side" e)
  | .ok originValue =>
    match renderTemplate L.engine tpl.template (newRelatedObjectContext relatedDest.object
      (oppositeSide origin) remoteSide.clusterName remoteSide.workspacePath) with
    | .error e => .error (.wrapped "failed to evaluate template on destination side" e)
    | .ok destValue => .ok (originValue, destValue)

def applySelectorRewrites (value : String) (originRelatedObject : Option Unstructured)
    (rewrite : RelatedResourceSelectorRewrite) : Except Error String :=
  match rewrite.regex, rewrite.template with
  | some re, _ => applyRegularExpression L value re
  | none, some tpl => applyTemplate L relatedOrigin relatedDest origin tpl value originRelatedObject
  | none, none => .error (.new "invalid rewrite: no mechanism configured")

/-- A key or value of a label selector: a template if it looks like one. -/
def renderLabel (text : String) (data : Fields) : Except Error String :=
  if contains text "\x7b\x7b" then renderTemplate L.engine text data else .ok text

/-- The labels of a selector with all templates evaluated; an empty key is dropped.  The entries are
taken in the order of their keys, where the source has no order: that matters only if two keys
become one. -/
def templateMatchLabels (matchLabels : StringMap) : Except Error StringMap :=
  let (localSide, remoteSide) := remapSyncSides relatedOrigin relatedDest origin
  let data := newRelatedObjectLabelContext localSide.object remoteSide.object
    remoteSide.clusterName remoteSide.workspacePath
  matchLabels.entries.foldlM (fun acc e => do
    let key ← (renderLabel L e.1 data).mapError (.wrapped "failed to evaluate key as template")
    let value ← (renderLabel L e.2 data).mapError (.wrapped "failed to evaluate value as template")
    return if key ≠ "" then acc.insert key value else acc) ∅

variable (scope : Scope) (live : Bool)

/-- Evaluates the templates of a label selector.  The result is written into the selector itself,
which all syncers of a PublishedResource share. -/
def templateLabelSelector (pointer : Nat) : SyncM LabelSelector := do
  let selector ← request scope (.loadSelector pointer)
  match templateMatchLabels L relatedOrigin relatedDest origin selector.matchLabels with
  | .error e => throw e
  | .ok newMatchLabels =>
    let selector := { selector with matchLabels := newMatchLabels }
    request scope (.storeSelector pointer selector)
    return selector

/-- The selector of a related resource, ready for a List call. -/
def resolveSelector (pointer : Nat) : SyncM Selector := do
  let labelSelector ← wrap "failed to apply templates to label selector"
    (templateLabelSelector L relatedOrigin relatedDest origin scope pointer)
  wrapE "invalid selector configured"
    ((L.labelSelectorAsSelector labelSelector).mapError .new)

/-- What `reference` and `template` resolve to, the same for namespaces and for names. -/
def resolveByReference (what : String) (ref : RelatedResourceObjectReference) :
    Except Error StringMap := do
  let originNames ← resolveObjectReference L relatedOrigin.object ref
  if originNames = [] then return ∅
  else
    let destNames ← resolveObjectReference L relatedDest.object ref
    if destNames.length ≠ originNames.length then
      throw (.new ("cannot sync related resources: found " ++ toString originNames.length ++ " " ++
        what ++ " on the origin, but " ++ toString destNames.length ++ " on the destination side"))
    else return mapSlices originNames destNames

def resolveByTemplate (tpl : TemplateExpression) : Except Error StringMap :=
  match applyTemplateBothSides L relatedOrigin relatedDest origin tpl with
  | .error e => .error (.wrapped "failed to apply template" e)
  | .ok (originValue, destValue) =>
    if originValue = "" ∨ destValue = "" then .ok ∅
    else .ok (SortedMap.insert ∅ originValue destValue)

/-- The found objects with their names rewritten for the destination side. -/
def rewriteNames (what : String) (rewrite : RelatedResourceSelectorRewrite)
    (related : Unstructured → Option Unstructured) (found : List Unstructured) :
    Except Error StringMap :=
  found.foldlM (fun acc o => do
    let name ← (applySelectorRewrites L relatedOrigin relatedDest origin o.metadata.name (related o)
      rewrite).mapError (.wrapped ("failed to rewrite origin " ++ what))
    return acc.insert o.metadata.name name) ∅

def resolveRelatedResourceOriginNamespaces (spec : RelatedResourceObjectSpec) : SyncM StringMap :=
  match spec.reference, spec.selector, spec.template with
  | some ref, _, _ =>
    ExceptT.mk (.pure (resolveByReference L relatedOrigin relatedDest "namespaces" ref))
  | none, some sel, _ => do
    let selector ← resolveSelector L relatedOrigin relatedDest origin scope sel.labelSelector
    let namespaces ← wrap "failed to evaluate label selector"
      (list scope relatedOrigin.client ObjectSyncer.namespaceType "" selector 0 live)
    ExceptT.mk (.pure (rewriteNames L relatedOrigin relatedDest origin "namespace" sel.rewrite
      (fun _ => none) namespaces))
  | none, none, some tpl =>
    ExceptT.mk (.pure (resolveByTemplate L relatedOrigin relatedDest origin tpl))
  | none, none, none => throw (.new "invalid sourceSpec: no mechanism configured")

variable (relRes : RelatedResourceSpec)

/-- The type of the objects on the origin side. -/
def originType : SyncM TypeMeta :=
  wrapE "failed to lookup" ((L.kindFor relatedOrigin.client relRes.gvr).mapError .api)

def resolveRelatedResourceObjectsInNamespace (ns : String) : SyncM StringMap :=
  let spec := relRes.object.object
  match spec.reference, spec.selector, spec.template with
  | some ref,
      _, _ => ExceptT.mk (.pure (resolveByReference L relatedOrigin relatedDest "names" ref))
  | none, some sel, _ => do
    let originGVK ← originType L relatedOrigin relRes
    let selector ← resolveSelector L relatedOrigin relatedDest relRes.origin scope sel.labelSelector
    let originObjects ← wrap "failed to select origin objects based on label selector"
      (list scope relatedOrigin.client originGVK ns selector 0 live)
    ExceptT.mk
      (.pure (rewriteNames L relatedOrigin relatedDest relRes.origin "name" sel.rewrite some
      originObjects))
  | none, none, some tpl =>
    ExceptT.mk (.pure (resolveByTemplate L relatedOrigin relatedDest relRes.origin tpl))
  | none, none, none => throw (.new "invalid objectSpec: no mechanism configured")

/-- The origin object of a resolved name; an object that does not exist is skipped. -/
def resolveName (originNamespace destNamespace : String) (name : String × String) :
    SyncM (Option ResolvedObject) := do
  let originGVK ← originType L relatedOrigin relRes
  match ← request scope (.get ⟨relatedOrigin.client, originGVK, originNamespace, name.1⟩ live) with
  | .ok original => return some { original, destination := ⟨destNamespace, name.2⟩ }
  | .error .notFound => return none
  | .error e => throw (.wrapped "failed to get origin object" (.api e))

def resolveRelatedResourceObjectsInNamespaces (namespaceMap : StringMap) :
    SyncM (List ResolvedObject) := do
  let found ← Fallible.forEach (fun ns : String × String => do
    let nameMap ← wrap "failed to find objects on origin side"
      (resolveRelatedResourceObjectsInNamespace L relatedOrigin relatedDest scope live relRes ns.1)
    Fallible.forEach (resolveName L relatedOrigin scope live relRes ns.1 ns.2) nameMap.entries)
    namespaceMap.entries
  return found.flatten.filterMap id

def resolveRelatedResourceObjects : SyncM (List ResolvedObject) :=
  let originNamespace := relatedOrigin.object.metadata.ns
  let destNamespace := relatedDest.object.metadata.ns
  let resolveIn (namespaceMap : StringMap) := wrap "failed to resolve objects"
    (resolveRelatedResourceObjectsInNamespaces L relatedOrigin relatedDest scope live relRes
      namespaceMap)
  match relRes.object.ns with
  | some nsSpec => do
    let namespaceMap ← wrap "failed to resolve namespace" (resolveRelatedResourceOriginNamespaces L
      relatedOrigin relatedDest relRes.origin scope live nsSpec)
    if namespaceMap = ∅ then return [] else resolveIn namespaceMap
  | none =>
    if originNamespace = "" then throw (.new
      "primary object is cluster-scoped and no source namespace configuration was provided")
    else if destNamespace = "" then throw (.new
      "primary object copy is cluster-scoped and no source namespace configuration was provided")
    else resolveIn (SortedMap.insert ∅ originNamespace destNamespace)

/-! ### The calls of a resolution -/

/-- What follows a result that is already known. -/
theorem wrapE_allCalls {α β : Type} {P : Call → Prop} {text : String} {result : Except Error α}
    {f : α → SyncM β} (h : ∀ a, result = .ok a → (f a).AllCalls P) :
    (wrapE text result >>= f).AllCalls P := by
  cases result with
  | error e => exact Fallible.AllCalls.throw (e := Error.wrapped text e)
  | ok a => exact h a rfl

theorem wrapE_obeys {α β : Type} {V : (c : api.Call) → api.Resp c → Prop} {P : Call → Prop}
    {Q : β → Prop} {text : String} {result : Except Error α} {f : α → SyncM β}
    (h : ∀ a, result = .ok a → (f a).Obeys V P Q) : (wrapE text result >>= f).Obeys V P Q := by
  cases result with
  | error e => exact Fallible.Obeys.throw (e := Error.wrapped text e)
  | ok a => exact h a rfl

/-- A call of a resolution: on behalf of the given object, no write to an API server, and to the
origin side alone, for namespaces and objects of the resource. -/
structure ResolveCall (originClient : Client) (c : Call) : Prop where
  scope : c.scope = scope
  read : c.failure = none
  secret : c.verb.secret = none
  client : ∀ client, c.verb.client = some client → client = originClient
  opens : ∀ client t, c.verb.opens = some (client, t) →
    t = ObjectSyncer.namespaceType ∨ L.kindFor originClient relRes.gvr = .ok t

variable {L relatedOrigin relatedDest origin scope live relRes}

namespace ResolveCall

variable {originClient : Client} {c : Call}

theorem load {pointer : Nat} : ResolveCall L scope relRes originClient
    ⟨scope, .loadSelector pointer⟩ :=
  ⟨rfl, rfl, rfl, fun _ h => (by cases h), fun _ _ h => (by cases h)⟩

theorem store {pointer : Nat} {selector : LabelSelector} :
    ResolveCall L scope relRes originClient ⟨scope, .storeSelector pointer selector⟩ :=
  ⟨rfl, rfl, rfl, fun _ h => (by cases h), fun _ _ h => (by cases h)⟩

theorem object {t : TypeMeta} (hscope : c.scope = scope) (hread : c.failure = none)
    (hclient : c.verb.client = some originClient) (hopens : c.verb.opens = some (originClient, t))
    (ht : t = ObjectSyncer.namespaceType ∨ L.kindFor originClient relRes.gvr = .ok t) :
    ResolveCall L scope relRes originClient c := by
  refine ⟨hscope, hread, ?_, fun client h => ?_, fun client t' h => ?_⟩
  · exact c.verb.client_or_secret.resolve_left fun h => by cases hclient.symm.trans h
  · exact (Option.some.inj (hclient.symm.trans h)).symm
  · cases hopens.symm.trans h
    exact ht

end ResolveCall

theorem resolveSelector_allCalls {P : Call → Prop}
    (hload : ∀ pointer, P ⟨scope, .loadSelector pointer⟩)
    (hstore : ∀ pointer selector, P ⟨scope, .storeSelector pointer selector⟩) {pointer : Nat} :
    (resolveSelector L relatedOrigin relatedDest origin scope pointer).AllCalls P := by
  refine .bind (.mapError (.bind (.request (hload _)) fun selector => ?_)) fun _ => trivial
  split
  · exact .throw
  · exact .bind (.request (hstore _ _)) fun _ => .pure

variable (relRes) in
theorem resolveRelatedResourceOriginNamespaces_allCalls {spec : RelatedResourceObjectSpec} :
    (resolveRelatedResourceOriginNamespaces L relatedOrigin relatedDest origin scope live
      spec).AllCalls (ResolveCall L scope relRes relatedOrigin.client) := by
  unfold resolveRelatedResourceOriginNamespaces
  split
  · trivial
  · exact .bind (resolveSelector_allCalls (fun _ => .load) fun _ _ => .store) fun _ =>
      .bind (.mapError (.sendE (.object rfl rfl rfl rfl (.inl rfl)))) fun _ => trivial
  · trivial
  · exact .throw

theorem resolveRelatedResourceObjectsInNamespace_allCalls {ns : String} :
    (resolveRelatedResourceObjectsInNamespace L relatedOrigin relatedDest scope live relRes
      ns).AllCalls (ResolveCall L scope relRes relatedOrigin.client) := by
  unfold resolveRelatedResourceObjectsInNamespace
  dsimp only
  split
  · trivial
  · refine wrapE_allCalls fun gvk hgvk => .bind
      (resolveSelector_allCalls (fun _ => .load) fun _ _ => .store) fun _ => ?_
    exact .bind (.mapError (.sendE (.object rfl rfl rfl rfl (.inr (ok_of_mapError hgvk)))))
      fun _ => trivial
  · trivial
  · exact .throw

section Results

variable {V : (c : api.Call) → api.Resp c → Prop} {R : Unstructured → Prop}
  (hR : ∀ id o, id.client = relatedOrigin.client → V ⟨scope, .get id live⟩ (.ok o) → R o)

include hR

theorem resolveName_obeys {originNamespace destNamespace : String} {name : String × String} :
    (resolveName L relatedOrigin scope live relRes originNamespace destNamespace name).Obeys V
      (ResolveCall L scope relRes relatedOrigin.client)
      fun found => ∀ resolved, found = some resolved → R resolved.original := by
  refine wrapE_obeys fun gvk hgvk =>
    .bind (request_obeys (.object rfl rfl rfl rfl (.inr (ok_of_mapError hgvk))))
      fun found hfound => ?_
  split
  · refine .pure fun resolved h => ?_
    cases h
    exact hR _ _ rfl hfound
  · exact .pure fun resolved h => by cases h
  · exact .throw

theorem resolveRelatedResourceObjects_obeys :
    (resolveRelatedResourceObjects L relatedOrigin relatedDest scope live relRes).Obeys V
      (ResolveCall L scope relRes relatedOrigin.client)
      fun found => ∀ resolved ∈ found, R resolved.original := by
  have hresolveIn : ∀ namespaceMap : StringMap, (wrap "failed to resolve objects"
      (resolveRelatedResourceObjectsInNamespaces L relatedOrigin relatedDest scope live relRes
        namespaceMap)).Obeys V (ResolveCall L scope relRes relatedOrigin.client)
        fun found => ∀ resolved ∈ found, R resolved.original := by
    intro namespaceMap
    refine .mapError (.bind (.forEach fun ns _ => .bind (.mapError
      resolveRelatedResourceObjectsInNamespace_allCalls.obeys) fun nameMap _ =>
        .forEach fun name _ => resolveName_obeys hR) fun found hfound =>
          .pure fun resolved hmem => ?_)
    obtain ⟨_, hflat, rfl⟩ := List.mem_filterMap.mp hmem
    obtain ⟨inNamespace, hin, hresolved⟩ := List.mem_flatten.mp hflat
    exact hfound inNamespace hin _ hresolved resolved rfl
  unfold resolveRelatedResourceObjects
  dsimp only
  split
  · refine .bind (.mapError (resolveRelatedResourceOriginNamespaces_allCalls relRes).obeys)
      fun namespaceMap _ => ?_
    split
    · exact .pure fun resolved h => by cases h
    · exact hresolveIn namespaceMap
  · split
    · exact .throw
    · split
      · exact .throw
      · exact hresolveIn _

end Results

theorem resolveName_allCalls {originNamespace destNamespace : String} {name : String × String} :
    (resolveName L relatedOrigin scope live relRes originNamespace destNamespace name).AllCalls
      (ResolveCall L scope relRes relatedOrigin.client) :=
  (resolveName_obeys (R := fun _ => True) fun _ _ _ _ => trivial).allCalls

theorem resolveRelatedResourceObjects_allCalls :
    (resolveRelatedResourceObjects L relatedOrigin relatedDest scope live relRes).AllCalls
      (ResolveCall L scope relRes relatedOrigin.client) :=
  (resolveRelatedResourceObjects_obeys (R := fun _ => True) fun _ _ _ _ => trivial).allCalls

end Sides

end Sync
