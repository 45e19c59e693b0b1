import SyncAgent.Sync.Meta
import Mathlib.Data.List.Induction

/-! The store of last-known states (`state_store.go`): one Secret for a primary object holds the
states of the primary and of its related objects. -/

namespace Sync

open Kube

variable (hash : Hash)

/-- The backing Secret of a primary object's store. -/
structure KubernetesBackend where
  secretName : SecretId
  labels : StringMap

/-- Where a state Secret is, seen as an object of the service cluster. -/
def StatePlace (id : ObjectId) : Prop :=
  id.client = .localClient ∧ id.typeMeta = .secret ∧ hasPrefix id.name "obj-state-" = true

instance : DecidablePred StatePlace := fun _ => inferInstanceAs (Decidable (_ ∧ _ ∧ _))

theorem referenceKeys_sorted :
    List.Pairwise (· < ·) ["apiVersion", "kind", "name", "namespace"] := by decide

def hashObject (obj : Unstructured) : String :=
  shortHash hash (.json (SortedMap.ofOptions [
    ("apiVersion", some (.str obj.typeMeta.apiVersion)),
    ("kind", some (.str obj.typeMeta.kind)),
    ("name", some (.str obj.metadata.name)),
    ("namespace", some (.str obj.metadata.ns))] referenceKeys_sorted))

def newKubernetesBackend (ns : String) (primaryObject : Unstructured)
    (clusterName workspacePath : String) : KubernetesBackend where
  secretName :=
    { ns, name := "obj-state-" ++ clusterName ++ "-" ++ hashObject hash primaryObject }
  labels := ((newObjectKey primaryObject clusterName workspacePath).labels hash).insert
    objectStateLabelName objectStateLabelValue

namespace KubernetesBackend

variable (b : KubernetesBackend) (scope : Scope)

/-- The Secret, `none` if it does not exist. -/
def secret : SyncM (Option StateSecret) := do
  match ← request scope (.getSecret b.secretName) with
  | .ok secret => return some secret
  | .error .notFound => return none
  | .error e => throw (.api e)

/-- The key of a source object in the Secret. -/
def sourceKey (obj : Unstructured) (clusterName : String) : String :=
  (newObjectKey obj clusterName "").key hash

def get (obj : Unstructured) (clusterName : String) : SyncM (Option (Option Fields)) := do
  let secret ← b.secret scope
  return (secret.getD {}).data.get? (sourceKey hash obj clusterName)

def put (obj : Unstructured) (clusterName : String) (data : Option Fields) : SyncM Unit := do
  let found ← b.secret scope
  let secret := found.getD {}
  let secret := { secret with
    data := secret.data.insert (sourceKey hash obj clusterName) data
    labels := b.labels }
  match found with
  | none => createSecret scope b.secretName secret
  | some _ => updateSecret scope b.secretName secret

end KubernetesBackend

/-- What the store remembers of an object. -/
def snapshotObject (obj : Unstructured) (subresources : List String) : Unstructured :=
  let obj := stripMetadata obj
  { obj with content := obj.content.without subresources }

namespace ObjectStateStore

variable (b : KubernetesBackend) (scope : Scope)

/-- The last-known state of a source object.  Data that holds no object counts as none, and so does
an object with malformed metadata, which the source decodes as long as it has a kind. -/
def get (source : Unstructured) (clusterName : String) : SyncM (Option Unstructured) := do
  let data ← b.get hash scope source clusterName
  return data.join.bind Unstructured.ofFields

def put (obj : Unstructured) (clusterName : String) (subresources : List String) : SyncM Unit :=
  b.put hash scope obj clusterName (some (snapshotObject obj subresources).toFields)

end ObjectStateStore

/-! ### What the store returns -/

section Contents

variable {hash} (S : Server) (b : KubernetesBackend) (scope : Scope)

/-- The entries of the backing Secret, none if there is no Secret. -/
def KubernetesBackend.entries (w : World) : SortedMap String (Option Fields) :=
  ((w.secret? b.secretName).getD {}).data

theorem secret_eval (w : World) :
    Fallible.eval (exec S) (b.secret scope) w = (.ok (w.secret? b.secretName), w) := by
  unfold KubernetesBackend.secret
  rw [Fallible.eval_bind]
  unfold request
  rw [Fallible.eval_request]
  cases h : w.secret? b.secretName <;> simp only [exec, h] <;> rfl

theorem get_eval (w : World) (o : Unstructured) (clusterName : String) :
    Fallible.eval (exec S) (ObjectStateStore.get hash b scope o clusterName) w =
      (.ok (((b.entries w).get? (KubernetesBackend.sourceKey hash o clusterName)).join.bind
        Unstructured.ofFields), w) := by
  simp only [ObjectStateStore.get, KubernetesBackend.get, Fallible.eval_bind, secret_eval,
    Fallible.eval_pure, KubernetesBackend.entries]

theorem put_eval (w : World) (o : Unstructured) (clusterName : String)
    (subresources : List String) :
    ∃ w', Fallible.eval (exec S) (ObjectStateStore.put hash b scope o clusterName subresources) w =
        (.ok (), w') ∧
      b.entries w' = (b.entries w).insert (KubernetesBackend.sourceKey hash o clusterName)
        (some (snapshotObject o subresources).toFields) := by
  simp only [ObjectStateStore.put, KubernetesBackend.put, Fallible.eval_bind, secret_eval]
  unfold KubernetesBackend.entries
  cases h : w.secret? b.secretName with
  | none =>
    simp only [createSecret, Fallible.eval_sendE, exec, World.createStateSecret, h]
    exact ⟨_, rfl, by simp⟩
  | some secret =>
    simp only [updateSecret, Fallible.eval_sendE, exec,
      World.updateStateSecret, h, Option.getD_some,
      ne_eq, not_true_eq_false, if_false]
    exact ⟨_, rfl, by simp⟩

/-- A call of `Put`. -/
structure PutCall where
  obj : Unstructured
  clusterName : String
  subresources : List String := []

namespace PutCall

/-- The put object has the logical cluster, namespace and name of `o`. -/
def SameKey (p : PutCall) (o : Unstructured) (clusterName : String) : Prop :=
  p.clusterName = clusterName ∧ p.obj.metadata.ns = o.metadata.ns ∧
    p.obj.metadata.name = o.metadata.name

instance (p : PutCall) (o : Unstructured) (clusterName : String) :
    Decidable (p.SameKey o clusterName) := inferInstanceAs (Decidable (_ ∧ _ ∧ _))

/-- The put object is also of the same type as `o`. -/
def SameObject (p : PutCall) (o : Unstructured) (clusterName : String) : Prop :=
  p.SameKey o clusterName ∧ p.obj.typeMeta = o.typeMeta

instance (p : PutCall) (o : Unstructured) (clusterName : String) :
    Decidable (p.SameObject o clusterName) := inferInstanceAs (Decidable (_ ∧ _))

def snapshot (p : PutCall) : Unstructured := snapshotObject p.obj p.subresources

end PutCall

variable (hash) in
/-- The world after a sequence of `Put` calls through one store. -/
def runPuts (puts : List PutCall) (w : World) : World :=
  puts.foldl (fun w p => (Fallible.eval (exec S)
    (ObjectStateStore.put hash b scope p.obj p.clusterName p.subresources) w).2) w

/-- The last call of a sequence with a property. -/
def lastPut (P : PutCall → Prop) [DecidablePred P] (puts : List PutCall) : Option PutCall :=
  puts.reverse.find? fun p => P p

theorem lastPut_snoc (P : PutCall → Prop) [DecidablePred P] (puts : List PutCall) (p : PutCall) :
    lastPut P (puts ++ [p]) = if P p then some p else lastPut P puts := by
  by_cases h : P p <;> simp [lastPut, h]

theorem lastPut_spec {P : PutCall → Prop} [DecidablePred P] {puts : List PutCall} {p : PutCall}
    (h : lastPut P puts = some p) : P p := by
  simpa using List.find?_some h

theorem lastPut_of_imp {P P' : PutCall → Prop} [DecidablePred P] [DecidablePred P']
    (himp : ∀ p, P' p → P p) {puts : List PutCall} {p : PutCall} (h : lastPut P puts = some p)
    (hp : P' p) : lastPut P' puts = some p := by
  induction puts using List.reverseRecOn with
  | nil => simp [lastPut] at h
  | append_singleton puts q ih =>
    rw [lastPut_snoc] at h ⊢
    by_cases hq : P q
    · rw [if_pos hq, Option.some.injEq] at h
      subst h
      rw [if_pos hp]
    · rw [if_neg hq] at h
      rw [if_neg fun hq' => hq (himp q hq'), ih h]

section Injective

variable (hinj : ∀ k k' : ObjectKey, k.key hash = k'.key hash → k = k')

include hinj

theorem sourceKey_eq_iff {p : PutCall} {o : Unstructured} {clusterName : String} :
    KubernetesBackend.sourceKey hash o clusterName =
      KubernetesBackend.sourceKey hash p.obj p.clusterName ↔ p.SameKey o clusterName := by
  constructor
  · intro h
    have hkey := hinj _ _ h
    simp only [newObjectKey, ObjectKey.mk.injEq] at hkey
    exact ⟨hkey.1.symm, hkey.2.2.1.symm, hkey.2.2.2.symm⟩
  · rintro ⟨hcluster, hns, hname⟩
    simp [KubernetesBackend.sourceKey, newObjectKey, hcluster, hns, hname]

/-- The Secret holds, under the key of `o`, the snapshot of the last object that was put with the
same logical cluster, namespace and name, whatever its type. -/
theorem entries_runPuts (puts : List PutCall) (w : World) (hw : w.secret? b.secretName = none)
    (o : Unstructured) (clusterName : String) :
    (b.entries (runPuts hash S b scope puts w)).get?
        (KubernetesBackend.sourceKey hash o clusterName) =
      (lastPut (·.SameKey o clusterName) puts).map fun p => some p.snapshot.toFields := by
  induction puts using List.reverseRecOn with
  | nil => simp [runPuts, lastPut, KubernetesBackend.entries, hw]
  | append_singleton puts p ih =>
    obtain ⟨w', heval, hentries⟩ := @put_eval hash S b scope
      (runPuts hash S b scope puts w) p.obj p.clusterName p.subresources
    have hrun : runPuts hash S b scope (puts ++ [p]) w = w' := by
      rw [runPuts, List.foldl_append]
      exact congrArg Prod.snd heval
    rw [hrun, hentries, SortedMap.get?_insert, lastPut_snoc]
    by_cases hp : p.SameKey o clusterName
    · rw [if_pos ((sourceKey_eq_iff hinj).mpr hp), if_pos hp]
      rfl
    · rw [if_neg (mt (sourceKey_eq_iff hinj).mp hp), if_neg hp, ih]

theorem get_runPuts (puts : List PutCall) (w : World) (hw : w.secret? b.secretName = none)
    (o : Unstructured) (clusterName : String) :
    (Fallible.eval (exec S) (ObjectStateStore.get hash b scope o clusterName)
        (runPuts hash S b scope puts w)).1 =
      .ok ((lastPut (·.SameKey o clusterName) puts).map PutCall.snapshot) := by
  rw [get_eval, entries_runPuts S b scope hinj puts w hw]
  cases lastPut (·.SameKey o clusterName) puts <;> simp [Unstructured.ofFields_toFields]

/-- `Get` returns the snapshot of the last object put with the same logical cluster, type, namespace
and name exactly when the last object put with the same logical cluster, namespace and name, if
there is one, is of the same type. -/
theorem get_eq_lastPut_iff (ns : String) (primary : Unstructured)
    (primaryCluster primaryPath : String) (puts : List PutCall) (w : World)
    (hw : w.secret? (newKubernetesBackend hash ns primary primaryCluster primaryPath).secretName =
      none) (o : Unstructured) (clusterName : String) :
    let b := newKubernetesBackend hash ns primary primaryCluster primaryPath
    (Fallible.eval (exec S) (ObjectStateStore.get hash b scope o clusterName)
        (runPuts hash S b scope puts w)).1 =
      .ok ((lastPut (·.SameObject o clusterName) puts).map PutCall.snapshot) ↔
    ∀ p, lastPut (·.SameKey o clusterName) puts = some p → p.obj.typeMeta = o.typeMeta := by
  intro b
  rw [get_runPuts S b scope hinj puts w hw, Except.ok.injEq]
  have hkey : ∀ p, PutCall.SameObject p o clusterName → p.SameKey o clusterName := fun _ h => h.1
  constructor
  · intro heq p hp
    rw [hp] at heq
    obtain ⟨q, hq, hsnap⟩ := Option.map_eq_some_iff.mp heq.symm
    -- a snapshot keeps the type of its object
    have htype := congrArg Unstructured.typeMeta hsnap
    exact htype.symm.trans (lastPut_spec hq).2
  · intro htype
    cases hlast : lastPut (·.SameKey o clusterName) puts with
    | some p => rw [lastPut_of_imp hkey hlast ⟨lastPut_spec hlast, htype p hlast⟩]
    | none =>
      cases hobj : lastPut (·.SameObject o clusterName) puts with
      | none => rfl
      | some q =>
        have hmem := List.mem_of_find?_eq_some hobj
        have hnone := List.find?_eq_none.mp hlast q hmem
        exact absurd (lastPut_spec hobj).1 (by simpa using hnone)

end Injective

/-- A Secret and a ConfigMap of one name. -/
def credentials : Unstructured :=
  ⟨.secret, { name := "creds", ns := "default" }, default⟩

def settings : Unstructured :=
  ⟨.configMap, { name := "creds", ns := "default" }, default⟩

/-- Two Secrets are kept apart: each is returned as it was put last. -/
theorem get_eq_lastPut_iff_credentials :
    (Fallible.eval (exec .setting)
        (ObjectStateStore.get .plain (newKubernetesBackend .plain "kcp-system" settings "c1" "")
          ⟨"c1", "default", "creds", none⟩ credentials "c1")
        (runPuts .plain .setting (newKubernetesBackend .plain "kcp-system" settings "c1" "")
          ⟨"c1", "default", "creds", none⟩
          [⟨credentials, "c1", []⟩, ⟨settings, "c2", []⟩] World.empty)).1 =
      .ok (some (snapshotObject credentials [])) :=
  (get_eq_lastPut_iff .setting ⟨"c1", "default", "creds", none⟩
    (fun _ _ => ObjectKey.key_plain_injective) "kcp-system" settings "c1" ""
    [⟨credentials, "c1", []⟩, ⟨settings, "c2", []⟩] World.empty rfl credentials "c1").mpr (by
      intro p hp
      have : p = ⟨credentials, "c1", []⟩ := (Option.some.inj hp).symm
      rw [this])

/-- After a Secret and a ConfigMap of the same name were put, `Get` does not return the snapshot of
the Secret for the Secret. -/
theorem get_mixes_types :
    (∀ k k' : ObjectKey, k.key .plain = k'.key .plain → k = k') ∧
    (Fallible.eval (exec .setting)
        (ObjectStateStore.get .plain (newKubernetesBackend .plain "kcp-system" settings "c1" "")
          ⟨"c1", "default", "creds", none⟩ credentials "c1")
        (runPuts .plain .setting (newKubernetesBackend .plain "kcp-system" settings "c1" "")
          ⟨"c1", "default", "creds", none⟩
          [⟨credentials, "c1", []⟩, ⟨settings, "c1", []⟩] World.empty)).1 ≠
      .ok ((lastPut (·.SameObject credentials "c1")
        [⟨credentials, "c1", []⟩, ⟨settings, "c1", []⟩]).map PutCall.snapshot) := by
  refine ⟨fun _ _ => ObjectKey.key_plain_injective, ?_⟩
  rw [get_runPuts .setting _ _ (fun _ _ => ObjectKey.key_plain_injective)
    [⟨credentials, "c1", []⟩, ⟨settings, "c1", []⟩] World.empty rfl credentials "c1"]
  intro h
  have hsnap : snapshotObject settings [] = snapshotObject credentials [] :=
    Option.some.inj (Except.ok.inj h)
  exact absurd (congrArg Unstructured.typeMeta hsnap) (by decide)

end Contents

end Sync
