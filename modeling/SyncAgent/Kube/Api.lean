import SyncAgent.Kube.Object
import SyncAgent.Lib.Interaction
import Mathlib.Data.List.AList

/-! The API servers that the agent talks to: the service cluster and the kcp workspaces.  `World`
holds their objects, the Secrets with the agent's states and the label selectors that the agent's
goroutines share in memory.  `exec` is what a call does when it goes through; `World.Does` adds that
a write can also fail and change nothing. -/

namespace Kube

/-- Which API server a client talks to. -/
inductive Client where
  | localClient
  | remoteClient (cluster : String)
deriving DecidableEq

structure ObjectId where
  client : Client
  typeMeta : TypeMeta
  ns : String
  name : String
deriving DecidableEq

/-- Where a client finds the object. -/
def Unstructured.idOn (o : Unstructured) (client : Client) : ObjectId :=
  ⟨client, o.typeMeta, o.metadata.ns, o.metadata.name⟩

/-- The reasons of a failed call that the agent tells apart. -/
inductive ApiError where
  | notFound
  | alreadyExists
  | conflict
  | invalid
  | other
deriving DecidableEq

inductive DeletionPropagation where
  | background
  | foreground
  | orphan
deriving DecidableEq

/-- On whose behalf a call is made: a primary object, or one of its related resources. -/
structure Scope where
  cluster : String
  ns : String
  name : String
  identifier : Option String := none
deriving DecidableEq

inductive LabelSelectorOperator where
  | opIn
  | opNotIn
  | opExists
  | opDoesNotExist
deriving DecidableEq

structure LabelSelectorRequirement where
  key : String
  operator : LabelSelectorOperator
  values : List String := []
deriving DecidableEq

structure LabelSelector where
  matchLabels : StringMap := ∅
  matchExpressions : List LabelSelectorRequirement := []
deriving DecidableEq

/-- A selector that is ready to be evaluated on the labels of an object. -/
abbrev Selector := StringMap → Bool

/-- The selector that asks for every label of a set. -/
def selectorFromSet (set : StringMap) : Selector := fun labels =>
  set.entries.all fun e => labels.get? e.1 = some e.2

theorem selectorFromSet_iff {set labels : StringMap} :
    selectorFromSet set labels = true ↔ labels.Contains set := by
  simp only [selectorFromSet, SortedMap.Contains, List.all_eq_true, decide_eq_true_eq, Prod.forall,
    SortedMap.mem_entries]

structure SecretId where
  ns : String
  name : String
deriving DecidableEq

/-- A Secret with object states.  The bytes of an entry are the JSON object that they hold, `none`
if they hold no JSON object. -/
structure StateSecret where
  labels : StringMap := ∅
  data : SortedMap String (Option Fields) := ∅
  resourceVersion : Nat := 0
deriving DecidableEq

/-- A request to an API server, or an access to a label selector in memory. -/
inductive Verb where
  | get (id : ObjectId) (live : Bool)
  | list (client : Client) (typeMeta : TypeMeta) (ns : String) (selector : Selector) (limit : Nat)
      (live : Bool)
  | create (client : Client) (obj : Unstructured)
  | update (client : Client) (obj : Unstructured)
  | updateStatus (client : Client) (obj : Unstructured)
  | patch (id : ObjectId) (patch : Fields)
  | apply (client : Client) (obj : Unstructured) (fieldManager : String)
  | delete (id : ObjectId) (policy : DeletionPropagation)
  | getSecret (id : SecretId)
  | createSecret (id : SecretId) (secret : StateSecret)
  | updateSecret (id : SecretId) (secret : StateSecret)
  | loadSelector (pointer : Nat)
  | storeSelector (pointer : Nat) (selector : LabelSelector)

abbrev Verb.Resp : Verb → Type
  | .get .. | .create .. | .update .. | .updateStatus .. | .patch .. | .apply .. =>
    Except ApiError Unstructured
  | .list .. => Except ApiError (List Unstructured)
  | .delete .. | .createSecret .. | .updateSecret .. => Except ApiError Unit
  | .getSecret .. => Except ApiError StateSecret
  | .loadSelector .. => LabelSelector
  | .storeSelector .. => Unit

/-- A request together with the object that it serves. -/
structure Call where
  scope : Scope
  verb : Verb

abbrev api : Interface := ⟨Call, fun c => c.verb.Resp⟩

/-- The objects on all API servers, the state Secrets and the selectors in memory.  `clock` counts
the writes; it gives resource versions, UIDs and times.  `created` records the UID of every object
that a call created, with the scope of the call. -/
structure World where
  objects : AList fun _ : ObjectId => Unstructured
  keyed : ∀ {id o}, objects.lookup id = some o → o.idOn id.client = id
  secrets : AList fun _ : SecretId => StateSecret
  selectors : Nat → LabelSelector
  clock : Nat
  created : List (Nat × Scope)

namespace World

/-- The world without any object. -/
def empty : World := ⟨∅, by simp, ∅, fun _ => {}, 0, []⟩

def object? (w : World) (id : ObjectId) : Option Unstructured := w.objects.lookup id

def secret? (w : World) (id : SecretId) : Option StateSecret := w.secrets.lookup id

/-- The world with the object stored as it is. -/
def put (w : World) (client : Client) (o : Unstructured) : World :=
  { w with
    objects := w.objects.insert (o.idOn client) o
    keyed := by
      intro id o' h
      by_cases hid : id = o.idOn client
      · subst hid
        rw [AList.lookup_insert] at h
        cases h
        rfl
      · rw [AList.lookup_insert_ne hid] at h
        exact w.keyed h }

/-- The world without the object. -/
def remove (w : World) (id : ObjectId) : World :=
  { w with
    objects := w.objects.erase id
    keyed := by
      intro id' o' h
      by_cases hid : id' = id
      · subst hid
        simp at h
      · rw [AList.lookup_erase_ne hid] at h
        exact w.keyed h }

def putSecret (w : World) (id : SecretId) (secret : StateSecret) : World :=
  { w with secrets := w.secrets.insert id secret }

/-- The world one write later. -/
def tick (w : World) : World := { w with clock := w.clock + 1 }

/-- The world with the UID of a new object recorded. -/
def record (w : World) (uid : Nat) (scope : Scope) : World :=
  { w with created := (uid, scope) :: w.created }

def setSelector (w : World) (pointer : Nat) (selector : LabelSelector) : World :=
  { w with selectors := Function.update w.selectors pointer selector }

theorem idOn_of_object? {w : World} {id : ObjectId} {o : Unstructured} (h : w.object? id = some o) :
    o.idOn id.client = id := w.keyed h

@[simp] theorem object?_put (w : World) (client : Client) (o : Unstructured) (id : ObjectId) :
    (w.put client o).object? id = if id = o.idOn client then some o else w.object? id := by
  by_cases h : id = o.idOn client
  · subst h
    simp [put, object?]
  · simp [put, object?, h, AList.lookup_insert_ne h]

@[simp] theorem object?_remove (w : World) (id id' : ObjectId) :
    (w.remove id').object? id = if id = id' then none else w.object? id := by
  by_cases h : id = id'
  · subst h
    simp [remove, object?]
  · simp [remove, object?, h, AList.lookup_erase_ne h]

@[simp] theorem secret?_put (w : World) (client : Client) (o : Unstructured) (id : SecretId) :
    (w.put client o).secret? id = w.secret? id := rfl

@[simp] theorem secret?_remove (w : World) (id' : ObjectId) (id : SecretId) :
    (w.remove id').secret? id = w.secret? id := rfl

@[simp] theorem object?_putSecret (w : World) (id' : SecretId) (s : StateSecret) (id : ObjectId) :
    (w.putSecret id' s).object? id = w.object? id := rfl

@[simp] theorem secret?_putSecret (w : World) (id' id : SecretId) (s : StateSecret) :
    (w.putSecret id' s).secret? id = if id = id' then some s else w.secret? id := by
  by_cases h : id = id'
  · subst h
    simp [putSecret, secret?]
  · simp [putSecret, secret?, h, AList.lookup_insert_ne h]

@[simp] theorem object?_tick (w : World) (id : ObjectId) : w.tick.object? id = w.object? id := rfl

@[simp] theorem secret?_tick (w : World) (id : SecretId) : w.tick.secret? id = w.secret? id := rfl

@[simp] theorem object?_record (w : World) (uid : Nat) (scope : Scope) (id : ObjectId) :
    (w.record uid scope).object? id = w.object? id := rfl

@[simp] theorem secret?_record (w : World) (uid : Nat) (scope : Scope) (id : SecretId) :
    (w.record uid scope).secret? id = w.secret? id := rfl

@[simp] theorem object?_setSelector (w : World) (p : Nat) (sel : LabelSelector) (id : ObjectId) :
    (w.setSelector p sel).object? id = w.object? id := rfl

@[simp] theorem secret?_setSelector (w : World) (p : Nat) (sel : LabelSelector) (id : SecretId) :
    (w.setSelector p sel).secret? id = w.secret? id := rfl

end World

/-! ### What the servers do -/

/-- The fields of an object that a server-side apply decides. -/
structure Applied where
  labels : StringMap
  annotations : StringMap
  content : Content

/-- What the agent's API servers decide: which types have a status subresource, and how a
server-side apply that takes ownership merges its payload into an object, if there is one. -/
structure Server where
  hasStatus : Client → TypeMeta → Bool
  applied : (fieldManager : String) → Option Unstructured → Unstructured → Applied
  labels_applied : ∀ fm cur payload k v, payload.metadata.labels.get? k = some v →
    (applied fm cur payload).labels.get? k = some v
  annotations_applied : ∀ fm cur payload k v, payload.metadata.annotations.get? k = some v →
    (applied fm cur payload).annotations.get? k = some v

namespace Server

/-- A server on which every type has a status subresource, and whose server-side apply sets the
fields of the payload over those of the object. -/
def setting : Server where
  hasStatus _ _ := true
  applied _ cur payload :=
    { labels := (cur.elim ∅ (·.metadata.labels)).insertAll payload.metadata.labels
      annotations := (cur.elim ∅ (·.metadata.annotations)).insertAll payload.metadata.annotations
      content := (cur.elim default (·.content)).overlay payload.content }
  labels_applied := by
    intro fm cur payload k v h
    simp [h]
  annotations_applied := by
    intro fm cur payload k v h
    simp [h]

variable (S : Server)

/-- A write to the object itself does not change a status that is a subresource. -/
def mainContent (client : Client) (cur next : Unstructured) : Content :=
  if S.hasStatus client cur.typeMeta then next.content.setStatus (cur.content.field "status")
  else next.content

/-- The new version of an object: what the server manages stays as it is. -/
def settle (client : Client) (cur next : Unstructured) : Unstructured :=
  let content := S.mainContent client cur next
  { next with
    metadata := { next.metadata with
      uid := cur.metadata.uid
      creationTimestamp := cur.metadata.creationTimestamp
      deletionTimestamp := cur.metadata.deletionTimestamp
      generation := cur.metadata.generation + if content = cur.content then 0 else 1
      resourceVersion := cur.metadata.resourceVersion
      selfLink := cur.metadata.selfLink }
    content := content }

/-- The content of a new object: a status that is a subresource is dropped. -/
def initialContent (client : Client) (typeMeta : TypeMeta) (content : Content) : Content :=
  if S.hasStatus client typeMeta then content.without ["status"] else content

/-- An object in deletion gets no new finalizers. -/
def finalizersAllowed (cur next : Unstructured) : Bool :=
  cur.metadata.deletionTimestamp.isNone ||
    next.metadata.finalizers.all fun f => cur.metadata.finalizers.contains f

end Server

namespace World

/-- The object stored as a new version. -/
def write (w : World) (client : Client) (o : Unstructured) : Unstructured × World :=
  let o' := { o with metadata := { o.metadata with resourceVersion := w.clock + 1 } }
  (o', (w.put client o').tick)

/-- The next version of an object: no change is no write, and an object in deletion whose last
finalizer is gone disappears. -/
def store (w : World) (client : Client) (cur next : Unstructured) : Unstructured × World :=
  if next = cur then (cur, w)
  else if next.metadata.deletionTimestamp.isSome ∧ next.metadata.finalizers = [] then
    (next, w.remove (cur.idOn client))
  else w.write client next

/-- The object stored for the first time. -/
def place (w : World) (client : Client) (scope : Scope) (o : Unstructured) : Unstructured × World :=
  let (o', w') := w.write client { o with
    metadata := { o.metadata with
      uid := w.clock + 1
      creationTimestamp := some (w.clock + 1)
      deletionTimestamp := none
      generation := 1 } }
  (o', w'.record (w.clock + 1) scope)

variable (S : Server) (w : World)

def createObject (client : Client) (scope : Scope) (obj : Unstructured) :
    Except ApiError Unstructured × World :=
  if obj.metadata.name = "" ∨ obj.metadata.resourceVersion ≠ 0 then (.error .invalid, w)
  else if (w.object? (obj.idOn client)).isSome then (.error .alreadyExists, w)
  else
    let (o, w') := w.place client scope
      { obj with content := S.initialContent client obj.typeMeta obj.content }
    (.ok o, w')

def updateObject (client : Client) (obj : Unstructured) : Except ApiError Unstructured × World :=
  match w.object? (obj.idOn client) with
  | none => (.error .notFound, w)
  | some cur =>
    if obj.metadata.resourceVersion = 0 then (.error .invalid, w)
    else if obj.metadata.resourceVersion ≠ cur.metadata.resourceVersion ∨
        obj.metadata.uid ≠ cur.metadata.uid then (.error .conflict, w)
    else if !Server.finalizersAllowed cur obj then (.error .invalid, w)
    else
      let (o, w') := w.store client cur (S.settle client cur obj)
      (.ok o, w')

def updateObjectStatus (client : Client) (obj : Unstructured) :
    Except ApiError Unstructured × World :=
  match w.object? (obj.idOn client) with
  | none => (.error .notFound, w)
  | some cur =>
    if !S.hasStatus client cur.typeMeta then (.error .notFound, w)
    else if obj.metadata.resourceVersion = 0 then (.error .invalid, w)
    else if obj.metadata.resourceVersion ≠ cur.metadata.resourceVersion ∨
        obj.metadata.uid ≠ cur.metadata.uid then (.error .conflict, w)
    else
      let (o, w') := w.store client cur
        { cur with content := cur.content.setStatus (obj.content.field "status") }
      (.ok o, w')

/-- A JSON merge patch. -/
def patchObject (id : ObjectId) (patch : Fields) : Except ApiError Unstructured × World :=
  match w.object? id with
  | none => (.error .notFound, w)
  | some cur =>
    match Unstructured.ofFields (cur.toFields.merge patch) with
    | none => (.error .invalid, w)
    | some next =>
      if next.idOn id.client ≠ id then (.error .invalid, w)
      else if next.metadata.resourceVersion ≠ cur.metadata.resourceVersion ∨
          next.metadata.uid ≠ cur.metadata.uid then (.error .conflict, w)
      else if !Server.finalizersAllowed cur next then (.error .invalid, w)
      else
        let (o, w') := w.store id.client cur (S.settle id.client cur next)
        (.ok o, w')

/-- A server-side apply that takes the ownership of every field in its payload. -/
def applyObject (client : Client) (scope : Scope) (obj : Unstructured) (fieldManager : String) :
    Except ApiError Unstructured × World :=
  if obj.metadata.name = "" then (.error .invalid, w)
  else
    let cur? := w.object? (obj.idOn client)
    let applied := S.applied fieldManager cur? obj
    let meta' (m : ObjectMeta) : ObjectMeta :=
      { m with labels := applied.labels, annotations := applied.annotations }
    match cur? with
    | none =>
      let (o, w') := w.place client scope
        ⟨obj.typeMeta, meta' { name := obj.metadata.name, ns := obj.metadata.ns },
          S.initialContent client obj.typeMeta applied.content⟩
      (.ok o, w')
    | some cur =>
      let (o, w') := w.store client cur
        (S.settle client cur
          { cur with metadata := meta' cur.metadata, content := applied.content })
      (.ok o, w')

/-- The finalizer that makes the garbage collector carry out a deletion policy. -/
def policyFinalizers : DeletionPropagation → List String
  | .background => []
  | .foreground => ["foregroundDeletion"]
  | .orphan => ["orphan"]

def deleteObject (id : ObjectId) (policy : DeletionPropagation) : Except ApiError Unit × World :=
  match w.object? id with
  | none => (.error .notFound, w)
  | some cur =>
    if cur.metadata.deletionTimestamp.isSome then (.ok (), w)
    else
      let finalizers := cur.metadata.finalizers ++ policyFinalizers policy
      if finalizers = [] then (.ok (), w.remove id)
      else (.ok (), (w.write id.client { cur with
        metadata := { cur.metadata with
          finalizers := finalizers
          deletionTimestamp := some (w.clock + 1) } }).2)

def createStateSecret (id : SecretId) (secret : StateSecret) : Except ApiError Unit × World :=
  if (w.secret? id).isSome then (.error .alreadyExists, w)
  else (.ok (), (w.putSecret id { secret with resourceVersion := w.clock + 1 }).tick)

def updateStateSecret (id : SecretId) (secret : StateSecret) : Except ApiError Unit × World :=
  match w.secret? id with
  | none => (.error .notFound, w)
  | some cur =>
    if secret.resourceVersion ≠ cur.resourceVersion then (.error .conflict, w)
    else (.ok (), (w.putSecret id { secret with resourceVersion := w.clock + 1 }).tick)

/-- The objects of a type in a namespace, or in all if it is empty, that a selector admits. -/
def listObjects (client : Client) (typeMeta : TypeMeta) (ns : String) (selector : Selector)
    (limit : Nat) : List Unstructured :=
  let all := (w.objects.entries.filter fun e =>
    e.1.client = client ∧ e.1.typeMeta = typeMeta ∧ (ns = "" ∨ e.1.ns = ns) ∧
      selector e.2.metadata.labels = true).map Sigma.snd
  if limit = 0 then all else all.take limit

end World

/-- What a call does when it goes through. -/
def exec (S : Server) : (c : api.Call) → World → api.Resp c × World
  | ⟨_, .get id _⟩, w => ((w.object? id).elim (.error .notFound) .ok, w)
  | ⟨_, .list client typeMeta ns selector limit _⟩, w =>
    (.ok (w.listObjects client typeMeta ns selector limit), w)
  | ⟨scope, .create client obj⟩, w => w.createObject S client scope obj
  | ⟨_, .update client obj⟩, w => w.updateObject S client obj
  | ⟨_, .updateStatus client obj⟩, w => w.updateObjectStatus S client obj
  | ⟨_, .patch id patch⟩, w => w.patchObject S id patch
  | ⟨scope, .apply client obj fieldManager⟩, w => w.applyObject S client scope obj fieldManager
  | ⟨_, .delete id policy⟩, w => w.deleteObject id policy
  | ⟨_, .getSecret id⟩, w => ((w.secret? id).elim (.error .notFound) .ok, w)
  | ⟨_, .createSecret id secret⟩, w => w.createStateSecret id secret
  | ⟨_, .updateSecret id secret⟩, w => w.updateStateSecret id secret
  | ⟨_, .loadSelector pointer⟩, w => (w.selectors pointer, w)
  | ⟨_, .storeSelector pointer selector⟩, w =>
    ((), w.setSelector pointer selector)

/-- The response to a write that fails, and no response for a call that writes nothing. -/
def Call.failure : (c : Call) → Option c.verb.Resp
  | ⟨_, .create ..⟩ | ⟨_, .update ..⟩ | ⟨_, .updateStatus ..⟩ | ⟨_, .patch ..⟩ | ⟨_, .apply ..⟩ =>
    some (.error .other)
  | ⟨_, .delete ..⟩ | ⟨_, .createSecret ..⟩ | ⟨_, .updateSecret ..⟩ => some (.error .other)
  | ⟨_, .get ..⟩ | ⟨_, .list ..⟩ | ⟨_, .getSecret ..⟩ | ⟨_, .loadSelector ..⟩
  | ⟨_, .storeSelector ..⟩ => none

/-- Whether a response says that the call failed. -/
def Call.isError : (c : Call) → c.verb.Resp → Bool
  | ⟨_, .get ..⟩, r | ⟨_, .create ..⟩, r | ⟨_, .update ..⟩, r | ⟨_, .updateStatus ..⟩, r
  | ⟨_, .patch ..⟩, r | ⟨_, .apply ..⟩, r | ⟨_, .list ..⟩, r | ⟨_, .delete ..⟩, r
  | ⟨_, .createSecret ..⟩, r | ⟨_, .updateSecret ..⟩, r | ⟨_, .getSecret ..⟩, r => !r.isOk
  | ⟨_, .loadSelector ..⟩, _ | ⟨_, .storeSelector ..⟩, _ => false

theorem exec_of_failure_eq_none {S : Server} {c : Call} (hc : c.failure = none) (w : World) :
    ∃ selectors, (exec S c w).2 = { w with selectors := selectors } := by
  obtain ⟨scope, verb⟩ := c
  cases verb with
  | get id live => exact ⟨w.selectors, rfl⟩
  | list client typeMeta ns selector limit live => exact ⟨w.selectors, rfl⟩
  | getSecret id => exact ⟨w.selectors, rfl⟩
  | loadSelector pointer => exact ⟨w.selectors, rfl⟩
  | storeSelector pointer selector => exact ⟨_, rfl⟩
  | _ => cases hc

/-- A call goes through, or it is a write that fails without any effect. -/
def World.Does (S : Server) (c : Call) (w : World) (r : c.verb.Resp) (w' : World) : Prop :=
  exec S c w = (r, w') ∨ (c.failure = some r ∧ w' = w)

end Kube
