import SyncAgent.Lib.Pool
import SyncAgent.Sync.Opened

/-! One agent serves many workspaces.  A reconciliation for one of them sends its requests to that
workspace and to the service cluster, and it uses one state Secret there, whose name contains the
logical cluster.  So the objects of a workspace and its state Secrets stay as they are while the
agent works for other workspaces, and nothing in those has an influence on a reconciliation, as long
as no synced object is itself one of the state Secrets. -/

namespace Sync

open Kube

/-- The call goes to one of these API servers, or it is for one of these Secrets. -/
structure Confined (A : Client → Prop) (B : SecretId → Prop) (c : Call) : Prop where
  client : ∀ client, c.verb.client = some client → A client
  secret : ∀ id, c.verb.secret = some id → B id

variable {A : Client → Prop} {B : SecretId → Prop} {L : Libraries} {scope : Scope}

theorem Confined.on {c : Call} {client : Client} (hc : c.verb.client = some client)
    (h : A client) : Confined A B c := by
  refine ⟨fun client' hclient => ?_, fun id hid => ?_⟩
  · cases hc.symm.trans hclient
    exact h
  · rcases c.verb.client_or_secret with hnone | hnone
    · cases hc.symm.trans hnone
    · cases hid.symm.trans hnone

theorem Confined.store {c : Call} {id : SecretId} (hc : c.verb.secret = some id) (h : B id) :
    Confined A B c := by
  refine ⟨fun client hclient => ?_, fun id' hid => ?_⟩
  · rcases c.verb.client_or_secret with hnone | hnone
    · cases hclient.symm.trans hnone
    · cases hc.symm.trans hnone
  · cases hc.symm.trans hid
    exact h

variable {c : Call} {sourceClient destClient : Client} {V : (c : api.Call) → api.Resp c → Prop}

theorem ObjectSyncer.SyncCall.confined {s : ObjectSyncer} {source : Unstructured}
    {dest : Option Unstructured}
    (h : s.SyncCall V L scope sourceClient destClient source dest c) (hsource : A sourceClient)
    (hdest : A destClient) (hb : B s.stateStore.secretName) : Confined A B c := by
  cases h with
  | dest _ hc =>
    rcases hc.server with hsecret | hclient
    · exact .store hsecret hb
    · exact .on hclient hdest
  | delete policy _ _ _ => exact .on rfl hdest
  | _ => exact .on rfl hsource

theorem ResourceSyncer.ResourceCall.confined {s : ResourceSyncer} {stateStore : KubernetesBackend}
    {remote : ObjectSide} {relRes : RelatedResourceSpec}
    (h : s.ResourceCall V scope stateStore remote relRes sourceClient destClient c)
    (hremote : A remote.client) (hsource : A sourceClient) (hdest : A destClient)
    (hb : B stateStore.secretName) : Confined A B c := by
  cases h with
  | resolve hc =>
    refine ⟨fun client hclient => ?_, fun id hid => ?_⟩
    · rw [hc.client client hclient]
      exact hsource
    · cases hc.secret.symm.trans hid
  | copies _ _ hclient _ _ => exact .on hclient hdest
  | sync _ _ _ _ hc => exact hc.confined hsource hdest hb
  | delete policy _ _ _ => exact .on rfl hdest
  | remember resolvedObjects _ _ => exact .on rfl hremote

/-- `Process` works on the service cluster, in one workspace, and with the state Secret of its
object. -/
theorem ResourceSyncer.process_confined {s : ResourceSyncer} {clusterName workspacePath : String}
    {r : Unstructured} (hlocal : A .localClient) (hremote : A (.remoteClient clusterName))
    (hb : B (s.stateStore clusterName workspacePath r).secretName) :
    (s.process clusterName workspacePath r).Obeys V (Confined A B) fun _ => True := by
  refine process_obeys (fun _ => .on rfl hlocal) fun dest _ c hc => ?_
  cases hc with
  | sync hc => exact hc.confined hremote hlocal hb
  | @related relRes o l _ _ hc =>
    refine hc.confined hremote ?_ ?_ hb
    · unfold relatedSides
      split
      · exact hlocal
      · exact hremote
    · unfold relatedSides
      split
      · exact hremote
      · exact hlocal

end Sync

namespace SyncController

open Kube Sync

/-- The hashes are long enough for all short hashes to be of the same length. -/
def LongHashes (hash : Hash) : Prop := ∀ x, 20 ≤ (hash x).toList.length

/-- The Secrets with the states of the objects in a workspace. -/
def StateOf (clusterName : String) (id : SecretId) : Prop :=
  ∃ suffix : String, suffix.toList.length = 20 ∧
    id.name = "obj-state-" ++ clusterName ++ "-" ++ suffix

theorem StateOf.cluster_eq {c c' : String} {id : SecretId} (h : StateOf c id) (h' : StateOf c' id) :
    c = c' := by
  obtain ⟨suffix, hlen, hname⟩ := h
  obtain ⟨suffix', hlen', hname'⟩ := h'
  have hchars := congrArg String.toList (hname.symm.trans hname')
  simp only [String.toList_append, List.append_assoc] at hchars
  have hrest := List.append_cancel_left hchars
  rw [← List.append_assoc, ← List.append_assoc] at hrest
  have hprefix := (List.append_inj' hrest (hlen.trans hlen'.symm)).1
  exact String.toList_injective (List.append_cancel_right hprefix)

theorem stateOf_stateStore {s : ResourceSyncer} (hlong : LongHashes s.libs.hash)
    (clusterName workspacePath : String) (r : Unstructured) :
    StateOf clusterName (s.stateStore clusterName workspacePath r).secretName := by
  refine ⟨hashObject s.libs.hash r, ?_, rfl⟩
  simp only [hashObject, shortHash, String.toList_ofList, List.length_take]
  exact Nat.min_eq_left (hlong _)

/-- The API servers that the agent talks to for one workspace. -/
def ServerOf (clusterName : String) (client : Client) : Prop :=
  client = .localClient ∨ client = .remoteClient clusterName

instance (clusterName : String) : DecidablePred (ServerOf clusterName) :=
  fun _ => inferInstanceAs (Decidable (_ ∨ _))

/-- The servers and the Secrets that the agent uses for one workspace. -/
def ForTenant (clusterName : String) : Call → Prop :=
  Confined (ServerOf clusterName) (StateOf clusterName)

namespace Reconciler

variable {R : Reconciler} {request : Request}

/-- The syncers of the reconciler use long hashes. -/
def HashesLong (R : Reconciler) : Prop := ∀ s, R.newResourceSyncer = .ok s → LongHashes s.libs.hash

theorem reconcile_forTenant (hR : R.HashesLong) :
    (R.reconcile request).AllCalls (ForTenant request.clusterName) := by
  refine (reconcile_obeys (.on rfl (.inr rfl)) (fun _ _ => .on rfl (.inr rfl))
    (fun _ => .on rfl (.inr rfl)) fun syncer path remoteObj hsyncer => ?_).allCalls
  exact ResourceSyncer.process_confined (.inl rfl) (.inr rfl)
    (stateOf_stateStore (hR syncer hsyncer) _ _ _)

end Reconciler

/-! ### What other workspaces can do to one -/

/-- The objects of a workspace and its state Secrets have not changed, nor has anything else at the
places of state Secrets. -/
structure Untouched (clusterName : String) (w w' : World) : Prop where
  objects : ∀ id : ObjectId, id.client = .remoteClient clusterName ∨ StatePlace id →
    w'.object? id = w.object? id
  secrets : ∀ id, StateOf clusterName id → w'.secret? id = w.secret? id

namespace Untouched

variable {clusterName : String} {w w' w'' : World}

theorem refl (w : World) : Untouched clusterName w w := ⟨fun _ _ => rfl, fun _ _ => rfl⟩

theorem trans (h : Untouched clusterName w w') (h' : Untouched clusterName w' w'') :
    Untouched clusterName w w'' :=
  ⟨fun id hid => (h'.objects id hid).trans (h.objects id hid),
    fun id hid => (h'.secrets id hid).trans (h.secrets id hid)⟩

theorem of_forTenant {c : Call} {c' : String} (hc : ForTenant c' c) (hne : c' ≠ clusterName)
    (hplace : ∀ id, c.verb.target = some id → ¬ StatePlace id) (hf : w.Frames c w') :
    Untouched clusterName w w' := by
  refine ⟨fun id hid => hf.objects id fun htarget => ?_,
    fun id hid => hf.secrets id fun htarget => ?_⟩
  · rcases hid with hid | hid
    · rcases hc.client _ (Verb.client_of_target htarget) with hlocal | hother
      · cases hlocal.symm.trans hid
      · cases hother.symm.trans hid
        exact hne rfl
    · exact hplace id htarget hid
  · exact hne ((hc.secret _ (Verb.secret_of_secretTarget htarget)).cluster_eq hid)

end Untouched

/-- The API servers, any answers of which can get lost on the way, while no synced object is at the
place of a state Secret, and other parties that leave a workspace and its state Secrets alone. -/
def sparing (S : Server) (clusterName : String) : Environment api World where
  rely := Untouched clusterName
  refl := Untouched.refl
  trans := Untouched.trans
  does c w _ w' := (∃ answer, World.Does S c w answer w') ∧
    ∀ id, c.verb.target = some id → ¬ StatePlace id

/-- Reconciliations for other workspaces, with any controllers. -/
def OthersStart (clusterName : String) (_ : World) (p : Prog api (Except Error Result)) : Prop :=
  ∃ (R : Reconciler) (request : Request), R.HashesLong ∧ request.clusterName ≠ clusterName ∧
    p = (R.reconcile request).run

/-- Whatever the agent does for other workspaces at the same time, with any failures and in any
order, the objects of a workspace and its state Secrets stay as they are. -/
theorem others_leave_untouched {S : Server} {clusterName : String} {w w' : World}
    {running : List (Prog api (Except Error Result))}
    (h : Pool.Reaches (sparing S clusterName) (OthersStart clusterName) (w, []) (w', running)) :
    Untouched clusterName w w' := by
  let G : Guarantee api World := .ofCall fun c _ => ∃ c', c' ≠ clusterName ∧ ForTenant c' c
  refine (Pool.Reaches.keeps (F := sparing S clusterName)
    (G := G) ?_ ?_ ?_ ?_ ?_ h (.nil trivial)).2
  · exact fun w w' _ hr => hr
  · rintro c w r w' - ⟨c', hne, hc⟩ ⟨⟨answer, hd⟩, hplace⟩
    exact .of_forTenant hc hne hplace hd.frames
  · exact fun c w r w' hd => hd
  · exact fun w w' _ _ => trivial
  · rintro w p - ⟨R, request, hR, hne, rfl⟩
    refine Prog.Keeps.of_allCalls (Reconciler.reconcile_forTenant hR) (J := fun _ => True)
      (fun _ _ => trivial) (fun _ _ _ _ => trivial) ?_ (fun _ _ _ _ _ _ _ => trivial) trivial
    exact fun c hc w _ => ⟨request.clusterName, hne, hc⟩

/-- Hashes without collisions that are long enough. -/
def paddedHash : Hash := fun x => Hash.plain x ++ "00000000000000000000"

/-- The controller for the CronTabs of all workspaces. -/
def Reconciler.crontabs : Reconciler :=
  { Reconciler.sample with
    filter := none
    newResourceSyncer := .ok { (Primary.sample []).syncer with
      libs := { Libraries.sample with hash := paddedHash } } }

theorem Reconciler.hashesLong_crontabs : Reconciler.crontabs.HashesLong := by
  intro s hs x
  cases hs
  show 20 ≤ (Hash.plain x ++ "00000000000000000000").toList.length
  rw [String.toList_append, List.length_append]
  exact Nat.le_add_left 20 _

/-- Two workspaces with a CronTab each, before anything was synced. -/
def twoTenants : World :=
  (Primary.sampleWorld ∅ default).put (.remoteClient "c2") (Primary.sampleObject ∅ default)

/-- The CronTab of one workspace is synced, and the other workspace stays as it was. -/
theorem others_leave_untouched_sample : ∃ w',
    Pool.Reaches (sparing .setting "c2") (OthersStart "c2") (twoTenants, []) (w', []) ∧
    (w'.object? Primary.sampleCopy).isSome = true ∧ Untouched "c2" twoTenants w' := by
  let execApart : (c : api.Call) → World → Option (api.Resp c × World) := fun c w =>
    if c.verb.target.any (fun id => StatePlace id) then none else some (exec .setting c w)
  have hsynced : ((Reconciler.crontabs.reconcile Reconciler.sampleRequest).run.evalSome
      execApart twoTenants).any
      (fun result => (result.2.object? Primary.sampleCopy).isSome) = true := by decide +kernel
  rw [Option.any_eq_true] at hsynced
  obtain ⟨⟨result, w'⟩, heval, hcopy⟩ := hsynced
  have hdoes : ∀ (c : api.Call) (w : World) r w', execApart c w = some (r, w') →
      (sparing .setting "c2").does c w r w' := by
    intro c w r w' h
    simp only [execApart, Option.any_eq_true, decide_eq_true_eq] at h
    split at h
    · cases h
    · next hplace =>
      exact ⟨⟨r, .inl (Option.some.inj h)⟩, fun id hid hstate => hplace ⟨id, hid, hstate⟩⟩
  have hreaches : Pool.Reaches (sparing .setting "c2") (OthersStart "c2")
    (twoTenants, []) (w', []) :=
    .evalSome hdoes ⟨_, _, Reconciler.hashesLong_crontabs, by decide, rfl⟩ heval
  exact ⟨w', hreaches, hcopy, others_leave_untouched hreaches⟩

/-! ### What a reconciliation can see -/

section Entries

variable {α : Type} {β : α → Type} [DecidableEq α] {p : α → Bool} {a : α}

theorem dlookup_filter (ha : p a = true) (l : List (Sigma β)) :
    (l.filter fun e => p e.1).dlookup a = l.dlookup a := by
  induction l with
  | nil => rfl
  | cons e rest ih =>
    obtain ⟨a', b⟩ := e
    by_cases haa : a = a'
    · subst haa
      simp [ha]
    · rw [List.dlookup_cons_ne rest ⟨a', b⟩ haa, ← ih, List.filter_cons]
      split
      · exact List.dlookup_cons_ne _ ⟨a', b⟩ haa
      · rfl

theorem filter_kerase (ha : p a = true) (l : List (Sigma β)) :
    (l.kerase a).filter (fun e => p e.1) = (l.filter fun e => p e.1).kerase a := by
  induction l with
  | nil => rfl
  | cons e rest ih =>
    obtain ⟨a', b⟩ := e
    by_cases haa : a = a'
    · subst haa
      simp [ha]
    · rw [List.kerase_cons_ne (s := ⟨a', b⟩) haa, List.filter_cons, List.filter_cons, ih]
      split
      · exact (List.kerase_cons_ne (s := ⟨a', b⟩) haa).symm
      · rfl

end Entries

/-- The object is on the service cluster or in the workspace, and not at the place of a state
Secret. -/
def inSight (clusterName : String) (id : ObjectId) : Bool :=
  ServerOf clusterName id.client ∧ ¬ StatePlace id

/-- The objects that can be seen for one workspace, in the order of the store. -/
def visible (clusterName : String) (w : World) : List (Sigma fun _ : ObjectId => Unstructured) :=
  w.objects.entries.filter fun e => inSight clusterName e.1

/-- Two worlds that differ in other workspaces and their state Secrets, and at the places of state
Secrets, only. -/
structure LooksAlike (clusterName : String) (w w' : World) : Prop where
  objects : visible clusterName w = visible clusterName w'
  secrets : ∀ id, StateOf clusterName id → w.secret? id = w'.secret? id
  selectors : w.selectors = w'.selectors
  clock : w.clock = w'.clock

/-- Two outcomes of a call that cannot be told apart. -/
def SameOutcome (clusterName : String) {X : Type} (result result' : X × World) : Prop :=
  result.1 = result'.1 ∧ LooksAlike clusterName result.2 result'.2

namespace LooksAlike

variable {clusterName : String} {w w' : World} (h : LooksAlike clusterName w w') {S : Server}
  {client : Client} {id : ObjectId}

include h

theorem object? (hid : inSight clusterName id = true) : w.object? id = w'.object? id := by
  have hlookup : ∀ w : World, (visible clusterName w).dlookup id = w.object? id :=
    fun w => dlookup_filter (p := inSight clusterName) hid w.objects.entries
  rw [← hlookup, ← hlookup, h.objects]

theorem tick : LooksAlike clusterName w.tick w'.tick :=
  ⟨h.objects, h.secrets, h.selectors, congrArg (· + 1) h.clock⟩

theorem record (uid : Nat) (scope : Scope) :
    LooksAlike clusterName (w.record uid scope) (w'.record uid scope) :=
  ⟨h.objects, h.secrets, h.selectors, h.clock⟩

theorem setSelector (pointer : Nat) (selector : LabelSelector) :
    LooksAlike clusterName (w.setSelector pointer selector) (w'.setSelector pointer selector) := by
  refine ⟨h.objects, h.secrets, ?_, h.clock⟩
  simp only [World.setSelector, h.selectors]

theorem putSecret (id : SecretId) (secret : StateSecret) :
    LooksAlike clusterName (w.putSecret id secret) (w'.putSecret id secret) := by
  refine ⟨h.objects, fun id' hid => ?_, h.selectors, h.clock⟩
  rw [World.secret?_putSecret, World.secret?_putSecret, h.secrets id' hid]

theorem remove (hid : inSight clusterName id = true) :
    LooksAlike clusterName (w.remove id) (w'.remove id) := by
  have hvisible : ∀ w : World, visible clusterName (w.remove id) =
      (visible clusterName w).kerase id :=
    fun w => filter_kerase (p := inSight clusterName) hid w.objects.entries
  refine ⟨?_, h.secrets, h.selectors, h.clock⟩
  rw [hvisible, hvisible, h.objects]

theorem listObjects {typeMeta : TypeMeta} {ns : String} (hsight : ∀ id : ObjectId,
      id.client = client ∧ id.typeMeta = typeMeta ∧ (ns = "" ∨ id.ns = ns) →
        inSight clusterName id = true) (selector : Selector) (limit : Nat) :
    w.listObjects client typeMeta ns selector limit =
      w'.listObjects client typeMeta ns selector limit := by
  have hfilter : ∀ w : World, (w.objects.entries.filter fun e =>
      e.1.client = client ∧ e.1.typeMeta = typeMeta ∧ (ns = "" ∨ e.1.ns = ns) ∧
        selector e.2.metadata.labels = true) =
      (visible clusterName w).filter fun e =>
        e.1.client = client ∧ e.1.typeMeta = typeMeta ∧ (ns = "" ∨ e.1.ns = ns) ∧
          selector e.2.metadata.labels = true := by
    intro w
    rw [visible, List.filter_filter]
    refine List.filter_congr fun e _ => ?_
    by_cases he : e.1.client = client ∧ e.1.typeMeta = typeMeta ∧ (ns = "" ∨ e.1.ns = ns)
    · simp [hsight e.1 he]
    · rw [Bool.eq_iff_iff]
      simp only [decide_eq_true_eq, Bool.and_eq_true]
      exact iff_of_false (fun h => he ⟨h.1, h.2.1, h.2.2.1⟩)
        fun h => he ⟨h.1.1, h.1.2.1, h.1.2.2.1⟩
  unfold World.listObjects
  rw [hfilter, hfilter, h.objects]

variable {o n : Unstructured} (ho : inSight clusterName (o.idOn client) = true)

include ho

theorem put : LooksAlike clusterName (w.put client o) (w'.put client o) := by
  have hvisible : ∀ w : World, visible clusterName (w.put client o) =
      ⟨o.idOn client, o⟩ :: (visible clusterName w).kerase (o.idOn client) := by
    intro w
    rw [visible, visible, ← filter_kerase ho]
    exact List.filter_cons_of_pos ho
  refine ⟨?_, h.secrets, h.selectors, h.clock⟩
  rw [hvisible, hvisible, h.objects]

theorem write : SameOutcome clusterName (w.write client o) (w'.write client o) := by
  unfold World.write
  rw [h.clock]
  exact ⟨rfl, (h.put (o := { o with metadata.resourceVersion := w'.clock + 1 }) ho).tick⟩

theorem store (hn : n.idOn client = o.idOn client) :
    SameOutcome clusterName (w.store client o n) (w'.store client o n) := by
  unfold World.store
  split
  · exact ⟨rfl, h⟩
  · split
    · exact ⟨rfl, h.remove ho⟩
    · exact h.write (hn ▸ ho)

theorem place (scope : Scope) :
    SameOutcome clusterName (w.place client scope o) (w'.place client scope o) := by
  obtain ⟨hresp, hafter⟩ := h.write (o := { o with
    metadata := { o.metadata with
      uid := w'.clock + 1
      creationTimestamp := some (w'.clock + 1)
      deletionTimestamp := none
      generation := 1 } }) ho
  unfold World.place
  rw [h.clock]
  exact ⟨hresp, hafter.record _ _⟩

end LooksAlike

namespace SameOutcome

variable {clusterName : String} {w w' : World}

theorem same {X : Type} (h : LooksAlike clusterName w w') (x : X) :
    SameOutcome clusterName (x, w) (x, w') := ⟨rfl, h⟩

theorem ok {X : Type} {result result' : X × World} (h : SameOutcome clusterName result result') :
    SameOutcome clusterName ((.ok result.1, result.2) : Except ApiError X × World)
      (.ok result'.1, result'.2) :=
  ⟨congrArg Except.ok h.1, h.2⟩

end SameOutcome

section Exec

variable {clusterName : String} {w w' : World} {S : Server} {client : Client} {obj : Unstructured}
  (h : LooksAlike clusterName w w') (hobj : inSight clusterName (obj.idOn client) = true)

include h hobj

theorem createObject_same (scope : Scope) :
    SameOutcome clusterName (w.createObject S client scope obj)
      (w'.createObject S client scope obj) := by
  unfold World.createObject
  rw [h.object? hobj]
  split
  · exact .same h _
  · split
    · exact .same h _
    · refine (h.place ?_ scope).ok
      exact hobj

theorem updateObject_same :
    SameOutcome clusterName (w.updateObject S client obj) (w'.updateObject S client obj) := by
  unfold World.updateObject
  rw [h.object? hobj]
  split
  · exact .same h _
  · next cur hcur =>
    have hid : cur.idOn client = obj.idOn client := World.idOn_of_object? hcur
    split
    · exact .same h _
    · split
      · exact .same h _
      · split
        · exact .same h _
        · exact (h.store (n := S.settle client cur obj) (hid ▸ hobj) hid.symm).ok

theorem updateObjectStatus_same :
    SameOutcome clusterName (w.updateObjectStatus S client obj)
      (w'.updateObjectStatus S client obj) := by
  unfold World.updateObjectStatus
  rw [h.object? hobj]
  split
  · exact .same h _
  · next cur hcur =>
    have hid : cur.idOn client = obj.idOn client := World.idOn_of_object? hcur
    split
    · exact .same h _
    · split
      · exact .same h _
      · split
        · exact .same h _
        · refine (h.store ?_ ?_).ok
          · exact hid ▸ hobj
          · rfl

theorem applyObject_same (scope : Scope) (fieldManager : String) :
    SameOutcome clusterName (w.applyObject S client scope obj fieldManager)
      (w'.applyObject S client scope obj fieldManager) := by
  unfold World.applyObject
  rw [h.object? hobj]
  split
  · exact .same h _
  · dsimp only
    split
    · refine (h.place ?_ scope).ok
      exact hobj
    · next cur hcur =>
      have hid : cur.idOn client = obj.idOn client := World.idOn_of_object? hcur
      refine (h.store ?_ ?_).ok
      · exact hid ▸ hobj
      · rfl

omit hobj

variable {id : ObjectId} (hid : inSight clusterName id = true)

include hid

theorem patchObject_same (patch : Fields) :
    SameOutcome clusterName (w.patchObject S id patch) (w'.patchObject S id patch) := by
  unfold World.patchObject
  rw [h.object? hid]
  split
  · exact .same h _
  · next cur hcur =>
    have hcur : cur.idOn id.client = id := World.idOn_of_object? hcur
    split
    · exact .same h _
    · split
      · exact .same h _
      · next hsame =>
        split
        · exact .same h _
        · split
          · exact .same h _
          · exact (h.store (n := S.settle id.client cur _) (hcur.symm ▸ hid)
              ((not_not.mp hsame).trans hcur.symm)).ok

theorem deleteObject_same (policy : DeletionPropagation) :
    SameOutcome clusterName (w.deleteObject id policy) (w'.deleteObject id policy) := by
  unfold World.deleteObject
  rw [h.object? hid]
  split
  · exact .same h _
  · next cur hcur =>
    have hcur : cur.idOn id.client = id := World.idOn_of_object? hcur
    split
    · exact .same h _
    · dsimp only
      split
      · exact .same (h.remove hid) _
      · rw [h.clock]
        refine .same (h.write ?_).2 _
        exact hcur.symm ▸ hid

omit hid

theorem exec_same {c : Call} (hsight : ∀ id, c.verb.Reaches id → inSight clusterName id = true)
    (hsecret : ∀ id, c.verb.secret = some id → StateOf clusterName id) :
    SameOutcome clusterName (exec S c w) (exec S c w') := by
  obtain ⟨scope, verb⟩ := c
  cases verb with
  | get id live =>
    simp only [exec, h.object? (hsight id rfl)]
    exact .same h _
  | list client typeMeta ns selector limit live =>
    simp only [exec, h.listObjects hsight]
    exact .same h _
  | create client obj => exact createObject_same h (hsight _ rfl) scope
  | update client obj => exact updateObject_same h (hsight _ rfl)
  | updateStatus client obj => exact updateObjectStatus_same h (hsight _ rfl)
  | patch id patch => exact patchObject_same h (hsight id rfl) patch
  | apply client obj fieldManager => exact applyObject_same h (hsight _ rfl) scope fieldManager
  | delete id policy => exact deleteObject_same h (hsight id rfl) policy
  | getSecret id =>
    simp only [exec, h.secrets id (hsecret _ rfl)]
    exact .same h _
  | createSecret id secret =>
    simp only [exec, World.createStateSecret, h.secrets id (hsecret _ rfl), h.clock]
    split
    · exact .same h _
    · exact .same (h.putSecret _ _).tick _
  | updateSecret id secret =>
    simp only [exec, World.updateStateSecret, h.secrets id (hsecret _ rfl), h.clock]
    split
    · exact .same h _
    · split
      · exact .same h _
      · exact .same (h.putSecret _ _).tick _
  | loadSelector pointer =>
    simp only [exec, h.selectors]
    exact .same h _
  | storeSelector pointer selector => exact .same (h.setSelector pointer selector) ()

end Exec

/-- The call neither reads nor writes objects at the places of state Secrets. -/
def Apart (c : Call) : Prop := ∀ id, StatePlace id → ¬ c.verb.Reaches id

/-- A reconciliation that stays apart from the state Secrets gives the same result in two worlds
that look alike for its workspace, and they look alike after it: what other tenants keep in their
workspaces has no influence. -/
theorem reconcile_ignores_others {R : Reconciler} (hR : R.HashesLong) {S : Server}
    {request : Request} {w w' : World} (h : LooksAlike request.clusterName w w')
    (hapart : ∀ c ∈ (R.reconcile request).run.calls (exec S) w, Apart c) :
    SameOutcome request.clusterName (Fallible.eval (exec S) (R.reconcile request) w)
      (Fallible.eval (exec S) (R.reconcile request) w') := by
  refine Prog.eval_congr (P := fun c => ForTenant request.clusterName c ∧ Apart c) ?_ ?_ h
  · exact fun c hc =>
      ⟨Prog.AllCalls.of_mem_calls (Reconciler.reconcile_forTenant hR) hc, hapart c hc⟩
  · rintro c ⟨hc, hplace⟩ w w' h
    refine exec_same h (fun id hid => ?_) hc.secret
    exact decide_eq_true ⟨hc.client _ (Verb.client_of_reaches hid),
      fun hstate => hplace id hstate hid⟩

/-- The reconciliation for one workspace does not depend on the CronTab of the other one. -/
theorem reconcile_ignores_others_sample :
    (∃ id : ObjectId, ((Primary.sampleWorld ∅ default).object? id).isSome = false ∧
      (twoTenants.object? id).isSome = true) ∧
    SameOutcome "c1"
      (Fallible.eval (exec .setting) (Reconciler.crontabs.reconcile Reconciler.sampleRequest)
        (Primary.sampleWorld ∅ default))
      (Fallible.eval (exec .setting) (Reconciler.crontabs.reconcile Reconciler.sampleRequest)
        twoTenants) := by
  refine ⟨⟨⟨.remoteClient "c2", crontabType, "team-a", "daily"⟩, by decide, by decide⟩, ?_⟩
  have halike : LooksAlike Reconciler.sampleRequest.clusterName (Primary.sampleWorld ∅ default)
      twoTenants := ⟨by rfl, fun _ _ => rfl, rfl, rfl⟩
  refine reconcile_ignores_others Reconciler.hashesLong_crontabs halike
    fun c hc id hid hreaches => ?_
  -- no call is for Secrets among the objects
  have htypes : ((Reconciler.crontabs.reconcile Reconciler.sampleRequest).run.calls (exec .setting)
      (Primary.sampleWorld ∅ default)).all (fun c => decide (c.verb.target.map (·.typeMeta) ≠
        some .secret ∧ c.verb.opens.map (·.2) ≠ some .secret)) = true := by
    decide +kernel
  obtain ⟨htarget, hopens⟩ := of_decide_eq_true (List.all_eq_true.mp htypes c hc)
  rcases Verb.target_or_opens hreaches with h | h
  · exact htarget (h ▸ congrArg some hid.2.1)
  · exact hopens (h ▸ congrArg some hid.2.1)

end SyncController
