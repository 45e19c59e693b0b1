import SyncAgent.Sync.Resolve

/-! Whether the resolution of related objects for one primary object depends on the primary objects
that were resolved before.  All syncers of a PublishedResource share its label selectors, and a
resolution writes the evaluated templates back into them. -/

namespace Sync

open Kube

/-- One call of `resolveRelatedResourceObjects`, for some primary object. -/
structure Resolution where
  relatedOrigin : ObjectSide
  relatedDest : ObjectSide
  scope : Scope
  live : Bool := false
  relRes : RelatedResourceSpec

section Histories

variable (L : Libraries) (S : Server)

def Resolution.run (r : Resolution) (w : World) : Except Error (List ResolvedObject) × World :=
  Fallible.eval (exec S)
    (resolveRelatedResourceObjects L r.relatedOrigin r.relatedDest r.scope r.live r.relRes) w

variable (related : List RelatedResourceSpec) (configured : Nat → LabelSelector)

/-- The worlds after any sequence of resolutions for any primary objects.  In between, the contents
of the clusters may change in any way. -/
inductive History : World → Prop where
  | start {w} : w.selectors = configured → History w
  | edit {w w'} : History w → w'.selectors = w.selectors → History w'
  | resolve {w} {r : Resolution} : History w → r.relRes ∈ related → History (r.run L S w).2

/-- A resolution gives the same objects after every history that leaves the same contents of the
clusters, and it leaves the selectors as they were configured. -/
def Isolated : Prop :=
  ∀ w w', History L S related configured w → History L S related configured w' →
    w.objects = w'.objects → w.secrets = w'.secrets →
    ∀ r : Resolution, r.relRes ∈ related →
      (r.run L S w).1 = (r.run L S w').1 ∧ (r.run L S w).2.selectors = configured

end Histories

/-- The label selector that an object specification uses; a reference goes first. -/
def RelatedResourceObjectSpec.usedSelector (spec : RelatedResourceObjectSpec) : Option Nat :=
  match spec.reference, spec.selector with
  | none, some sel => some sel.labelSelector
  | _, _ => none

/-- The label selectors that a related resource uses, for its namespaces and for its objects. -/
def RelatedResourceSpec.usedSelectors (relRes : RelatedResourceSpec) : List Nat :=
  relRes.object.object.usedSelector.toList ++
    (relRes.object.ns.bind RelatedResourceObjectSpec.usedSelector).toList

/-- No key is empty, and neither keys nor values look like templates. -/
def LiteralSelector (selector : LabelSelector) : Prop :=
  ∀ e ∈ selector.matchLabels.entries,
    e.1 ≠ "" ∧ contains e.1 "\x7b\x7b" = false ∧ contains e.2 "\x7b\x7b" = false

/-- All labels in the selectors of the related resources are literal. -/
def LiteralSelectors (related : List RelatedResourceSpec) (configured : Nat → LabelSelector) :
    Prop :=
  ∀ relRes ∈ related, ∀ pointer ∈ relRes.usedSelectors,
    LiteralSelector (configured pointer)

section Literal

variable {L : Libraries} {S : Server} {relatedOrigin relatedDest : ObjectSide}
  {origin : RelatedResourceOrigin} {scope : Scope} {live : Bool}

theorem templateMatchLabels_literal {selector : LabelSelector}
    (h : LiteralSelector selector) :
    templateMatchLabels L relatedOrigin relatedDest origin selector.matchLabels =
      .ok selector.matchLabels := by
  have hfold : ∀ (data : Fields) (l : List (String × String)) (acc : StringMap),
      (∀ e ∈ l, e.1 ≠ "" ∧ contains e.1 "\x7b\x7b" = false ∧ contains e.2 "\x7b\x7b" = false) →
      l.foldlM (fun (acc : StringMap) (e : String × String) => do
        let key ← (renderLabel L e.1 data).mapError (.wrapped "failed to evaluate key as template")
        let value ← (renderLabel L e.2 data).mapError
          (.wrapped "failed to evaluate value as template")
        return if key ≠ "" then acc.insert key value else acc) acc =
      (.ok (l.foldl (fun acc e => acc.insert e.1 e.2) acc) : Except Error StringMap) := by
    intro data l
    induction l with
    | nil => intro acc _; rfl
    | cons e rest ih =>
      intro acc hl
      obtain ⟨hkey, hktext, hvtext⟩ := hl e (by simp)
      rw [List.foldlM_cons, List.foldl_cons, ← ih _ fun e' he' => hl e' (by simp [he'])]
      simp only [renderLabel, hktext, hvtext, Bool.false_eq_true, if_false]
      simp only [Except.mapError, bind, Except.bind, pure, Except.pure, if_pos hkey]
  have hrebuild : selector.matchLabels.entries.foldl (fun acc e => acc.insert e.1 e.2) ∅ =
      selector.matchLabels := by
    apply SortedMap.ext_get?
    intro k
    exact (SortedMap.get?_insertAll ∅ selector.matchLabels k).trans (by simp)
  exact (hfold _ _ ∅ h).trans (congrArg Except.ok hrebuild)

theorem resolveSelector_leaves {pointer : Nat} {w : World}
    (h : LiteralSelector (w.selectors pointer)) :
    (resolveSelector L relatedOrigin relatedDest origin scope pointer).Leaves (exec S) w := by
  refine .bind (.mapError ?_) fun _ _ => rfl
  refine .bind rfl fun selector hselector => ?_
  obtain rfl : w.selectors pointer = selector := Except.ok.inj hselector
  rw [templateMatchLabels_literal h]
  show (exec S ⟨scope, .storeSelector pointer (w.selectors pointer)⟩ w).2 = w
  simp [exec, World.setSelector, Function.update_eq_self]

variable {relRes : RelatedResourceSpec}

theorem resolveRelatedResourceOriginNamespaces_leaves {spec : RelatedResourceObjectSpec} {w : World}
    (h : ∀ pointer ∈ spec.usedSelector, LiteralSelector (w.selectors pointer)) :
    (resolveRelatedResourceOriginNamespaces L relatedOrigin relatedDest origin scope live
      spec).Leaves (exec S) w := by
  unfold resolveRelatedResourceOriginNamespaces
  split
  · rfl
  · next sel hsel href =>
    have hused : spec.usedSelector = some sel.labelSelector := by
      simp only [RelatedResourceObjectSpec.usedSelector, href, hsel]
    exact .bind (resolveSelector_leaves (h _ hused)) fun _ _ => .bind rfl fun _ _ => rfl
  · rfl
  · rfl

theorem resolveRelatedResourceObjectsInNamespace_leaves {ns : String} {w : World}
    (h : ∀ pointer ∈ relRes.object.object.usedSelector,
      LiteralSelector (w.selectors pointer)) :
    (resolveRelatedResourceObjectsInNamespace L relatedOrigin relatedDest scope live relRes
      ns).Leaves (exec S) w := by
  unfold resolveRelatedResourceObjectsInNamespace
  dsimp only
  split
  · rfl
  · next sel hsel href =>
    have hused : relRes.object.object.usedSelector = some sel.labelSelector := by
      simp only [RelatedResourceObjectSpec.usedSelector, href, hsel]
    exact .bind rfl fun _ _ => .bind (resolveSelector_leaves (h _ hused)) fun _ _ =>
      .bind rfl fun _ _ => rfl
  · rfl
  · rfl

theorem resolveName_leaves {originNamespace destNamespace : String} {name : String × String}
    {w : World} :
    (resolveName L relatedOrigin scope live relRes originNamespace destNamespace name).Leaves
      (exec S) w := by
  refine .bind rfl fun _ _ => .bind rfl fun found _ => ?_
  split
  · rfl
  · rfl
  · rfl

theorem resolveRelatedResourceObjects_leaves {w : World}
    (h : ∀ pointer ∈ relRes.usedSelectors, LiteralSelector (w.selectors pointer)) :
    (resolveRelatedResourceObjects L relatedOrigin relatedDest scope live relRes).Leaves
      (exec S) w := by
  have hobject : ∀ pointer ∈ relRes.object.object.usedSelector,
      LiteralSelector (w.selectors pointer) := by
    intro pointer hp
    exact h pointer (List.mem_append_left _ (Option.mem_toList.mpr hp))
  have hresolveIn : ∀ namespaceMap : StringMap, (wrap "failed to resolve objects"
      (resolveRelatedResourceObjectsInNamespaces L relatedOrigin relatedDest scope live relRes
        namespaceMap)).Leaves (exec S) w := by
    intro namespaceMap
    refine .mapError (.bind (.forEach fun ns _ => ?_) fun _ _ => rfl)
    exact .bind (.mapError (resolveRelatedResourceObjectsInNamespace_leaves hobject)) fun _ _ =>
      .forEach fun name _ => resolveName_leaves
  unfold resolveRelatedResourceObjects
  dsimp only
  split
  · next nsSpec hns =>
    have hnamespaces : ∀ pointer ∈ nsSpec.usedSelector,
        LiteralSelector (w.selectors pointer) := by
      intro pointer hp
      refine h pointer (List.mem_append_right _ (Option.mem_toList.mpr ?_))
      rw [hns]
      exact hp
    refine .bind (.mapError (resolveRelatedResourceOriginNamespaces_leaves hnamespaces))
      fun namespaceMap _ => ?_
    split
    · rfl
    · exact hresolveIn namespaceMap
  · split
    · rfl
    · split
      · rfl
      · exact hresolveIn _

theorem Resolution.run_congr (r : Resolution) {w w' : World} (hobjects : w.objects = w'.objects)
    (hsecrets : w.secrets = w'.secrets) (hselectors : w.selectors = w'.selectors) :
    (r.run L S w).1 = (r.run L S w').1 := by
  refine (Prog.eval_congr (R := fun w w' : World => w.objects = w'.objects ∧
      w.secrets = w'.secrets ∧ w.selectors = w'.selectors) (fun c hc =>
    (Prog.AllCalls.of_mem_calls resolveRelatedResourceObjects_allCalls hc).read) ?_
    ⟨hobjects, hsecrets, hselectors⟩).1
  rintro ⟨_, verb⟩ hread ⟨objects, _, secrets, selectors, clock, created⟩
    ⟨objects', _, secrets', selectors', clock', created'⟩ ⟨rfl, rfl, rfl⟩
  cases verb with
  | get id live => exact ⟨rfl, rfl, rfl, rfl⟩
  | list client typeMeta ns selector limit live => exact ⟨rfl, rfl, rfl, rfl⟩
  | getSecret id => exact ⟨rfl, rfl, rfl, rfl⟩
  | loadSelector pointer => exact ⟨rfl, rfl, rfl, rfl⟩
  | storeSelector pointer selector => exact ⟨rfl, rfl, rfl, rfl⟩
  | _ => cases hread

end Literal

variable {L : Libraries} {S : Server} {related : List RelatedResourceSpec}
  {configured : Nat → LabelSelector}

theorem Resolution.run_selectors (h : LiteralSelectors related configured) {w : World}
    (hw : w.selectors = configured) {r : Resolution} (hr : r.relRes ∈ related) :
    (r.run L S w).2 = w :=
  resolveRelatedResourceObjects_leaves fun pointer hp => hw ▸ h r.relRes hr pointer hp

theorem History.selectors_eq (h : LiteralSelectors related configured) {w : World}
    (hw : History L S related configured w) : w.selectors = configured := by
  induction hw with
  | start hstart => exact hstart
  | edit _ hedit ih => exact hedit.trans ih
  | resolve _ hr ih => rw [Resolution.run_selectors h ih hr, ih]

/-- With literal labels in all selectors, resolutions do not interfere, whatever was resolved
before. -/
theorem isolated_of_literal (L : Libraries) (S : Server) (h : LiteralSelectors related configured) :
    Isolated L S related configured := by
  intro w w' hw hw' hobjects hsecrets r hr
  have hsel := hw.selectors_eq h
  refine ⟨r.run_congr hobjects hsecrets (hsel.trans (hw'.selectors_eq h).symm), ?_⟩
  rw [Resolution.run_selectors h hsel hr, hsel]

/-- Secrets of the service cluster that are selected by the name of the tenant's logical cluster. -/
def tenantSecrets : RelatedResourceSpec :=
  { identifier := "creds", origin := .service, kind := "Secret"
    object := { object := { selector := some ⟨0, { regex := some {} }⟩ } } }

/-- The selector with one label, which is a template or a plain text. -/
def tenantSelector (value : String) : Nat → LabelSelector :=
  fun _ => { matchLabels := SortedMap.insert ∅ "tenant" value }

/-- The value that stands for the tenant's logical cluster. -/
def clusterTemplate : String := "\x7b\x7b .ClusterName \x7d\x7d"

/-- With a plain text in place of the template, no tenant sees the Secrets of another one. -/
theorem isolated_plain_tenant :
    Isolated .sample .setting [tenantSecrets] (tenantSelector "acme") :=
  isolated_of_literal .sample .setting (by
    intro relRes hrel pointer _ e he
    have hentries : e ∈ [("tenant", "acme")] := he
    obtain rfl := List.mem_singleton.mp hentries
    decide)

def tenantSecret (name tenant : String) : Unstructured :=
  ⟨.secret,
    { name, ns := "tenants", labels := SortedMap.insert ∅ "tenant" tenant }, default⟩

/-- A service cluster with one Secret for each of two tenants. -/
def tenantWorld : World :=
  { (World.empty.put .localClient (tenantSecret "creds-1" "c1")).put .localClient
      (tenantSecret "creds-2" "c2") with
    selectors := tenantSelector clusterTemplate }

/-- The resolution for the primary object of a tenant. -/
def tenantResolution (cluster : String) : Resolution where
  relatedOrigin :=
    ⟨⟨.localClient, "", ""⟩, ⟨crontabType, { name := cluster, ns := "tenants" }, default⟩⟩
  relatedDest := ⟨⟨.remoteClient cluster, cluster, ""⟩, crontab "team-a"⟩
  scope := { cluster, ns := "team-a", name := "daily" }
  relRes := tenantSecrets

/-- The names of the objects that a resolution found. -/
def foundNames (r : Except Error (List ResolvedObject)) : Option (List String) :=
  r.toOption.map fun found => found.map (·.original.metadata.name)

/-- After the resolution for one tenant, the resolution for another one finds the Secrets of the
first. -/
theorem tenants_not_isolated :
    ¬ Isolated .sample .setting [tenantSecrets] (tenantSelector clusterTemplate) := by
  intro hiso
  have hspec : ∀ cluster, (tenantResolution cluster).relRes ∈ [tenantSecrets] :=
    fun _ => List.mem_singleton_self _
  have hstart : History .sample .setting [tenantSecrets] (tenantSelector clusterTemplate)
      tenantWorld := .start rfl
  have hlater := hstart.resolve (hspec "c1")
  have hsame := congrArg foundNames
    (hiso _ _ hstart hlater (by rfl) (by rfl) (tenantResolution "c2") (hspec "c2")).1
  have hfirst : foundNames ((tenantResolution "c2").run .sample .setting tenantWorld).1 =
      some ["creds-2"] := by decide +kernel
  have hsecond : foundNames ((tenantResolution "c2").run .sample .setting
      ((tenantResolution "c1").run .sample .setting tenantWorld).2).1 = some ["creds-1"] := by
    decide +kernel
  rw [hfirst, hsecond] at hsame
  exact absurd hsame (by decide)

end Sync
