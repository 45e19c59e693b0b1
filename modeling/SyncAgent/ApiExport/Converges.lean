import SyncAgent.ApiExport.Claims
import SyncAgent.ApiExport.Merge
import SyncAgent.Projection.Versions

/-! The controllers that publish resources come to rest.  Whatever the PublishedResources, the
schemas and the APIExport are at first: once every PublishedResource has been reconciled and then
the APIExport, in any order and any number of times, all schemas are there and listed, and nothing
changes any more. -/

namespace ApiExport

open Kube Projection
open Sync (Error)

variable {R : Config} {discover : GroupKind → Except ApiError Crd} {s s' : Store}

/-- A reconciliation of one of the two controllers. -/
inductive Task where
  | resourceSchema (name : String)
  | apiExport (order : Config.SetOrder)

def Task.prog (R : Config) : Task → M Unit
  | .resourceSchema name => R.schemaReconcile name
  | .apiExport order => R.exportReconcile order

/-- Reconciliations one after the other, all of which have to go through. -/
def Config.runTasks (R : Config) (discover : GroupKind → Except ApiError Crd) :
    List Task → Store → Except Error Store
  | [], s => .ok s
  | task :: rest, s =>
    match Fallible.eval (execWith discover) (task.prog R) s with
    | (.ok (), s') => R.runTasks discover rest s'
    | (.error e, _) => .error e

theorem runTasks_cons {task : Task} {rest : List Task}
    (h : Fallible.eval (execWith discover) (task.prog R) s = (.ok (), s')) :
    R.runTasks discover (task :: rest) s = R.runTasks discover rest s' := by
  rw [Config.runTasks, h]

theorem runTasks_append {before after : List Task}
    (h : R.runTasks discover before s = .ok s') :
    R.runTasks discover (before ++ after) s = R.runTasks discover after s' := by
  induction before generalizing s with
  | nil =>
    cases h
    rfl
  | cons task rest ih =>
    rw [List.cons_append, Config.runTasks]
    rw [Config.runTasks] at h
    split at h
    · exact ih h
    · cases h

/-! ### Names of schemas -/

theorem append_of_splitDot {l a b : List Char} (h : splitDot l = some (a, b)) :
    l = a ++ '.' :: b := by
  induction l generalizing a with
  | nil => cases h
  | cons c rest ih =>
    rw [splitDot] at h
    split at h
    · next hc =>
      cases h
      rw [hc, List.nil_append]
    · obtain ⟨⟨a', b'⟩, hrest, hparts⟩ := Option.map_eq_some_iff.mp h
      cases hparts
      rw [ih hrest, List.cons_append]

theorem exists_splitDot {l : List Char} (h : '.' ∈ l) : ∃ a b, splitDot l = some (a, b) := by
  induction l with
  | nil => cases h
  | cons c rest ih =>
    rw [splitDot]
    split
    · exact ⟨_, _, rfl⟩
    · next hc =>
      obtain ⟨a, b, hrest⟩ := ih ((List.mem_cons.mp h).resolve_left fun heq => hc heq.symm)
      exact ⟨c :: a, b, by rw [hrest, Option.map_some]⟩

theorem exists_groupResource {L : Libraries} {name : String} (h : 2 ≤ name.toList.count '.') :
    ∃ gr, groupResource? L name = some gr := by
  have hpos : 0 < name.toList.count '.' := by omega
  obtain ⟨version, rest, hrest⟩ := exists_splitDot (List.count_pos_iff.mp hpos)
  have hcount : 1 ≤ rest.count '.' := by
    have hnone := List.count_eq_zero.mpr (not_mem_of_splitDot hrest)
    rw [append_of_splitDot hrest, List.count_append, List.count_cons_self, hnone] at h
    omega
  obtain ⟨resource, group, hgroup⟩ := exists_splitDot (List.count_pos_iff.mp hcount)
  refine ⟨⟨String.ofList group, String.ofList resource⟩, ?_⟩
  have hparts : (splitDot name.toList >>= fun first =>
      splitDot first.2 >>= fun second => some (first.1, second.1, second.2)) =
      some (version, resource, group) := by
    simp [hrest, hgroup]
  unfold groupResource? parseSchemaName
  dsimp only
  split
  · next hnone => exact absurd (hparts.symm.trans hnone) (by simp)
  · next version' resource' group' hsome =>
    cases hparts.symm.trans hsome
    rfl

theorem schemaName_parses (L : Libraries) (hash : CrdSpec → String) (crd : Crd) :
    ∃ gr, groupResource? L (getAPIResourceSchemaName hash crd) = some gr := by
  refine exists_groupResource ?_
  simp only [getAPIResourceSchemaName, String.toList_append, List.count_append]
  have hdot : ".".toList.count '.' = 1 := by decide
  omega

theorem schemaName_ne_empty (hash : CrdSpec → String) (crd : Crd) :
    getAPIResourceSchemaName hash crd ≠ "" := by
  intro h
  have hlist := congrArg String.toList h
  simp [getAPIResourceSchemaName] at hlist

/-! ### What a reconciliation starts from -/

variable (R discover) in
/-- All CRDs can be discovered, projected and converted; the names of the schemas can be parsed, and
there is an APIExport. -/
structure Publishable (s : Store) : Prop where
  keyed : ∀ name pr, s.published.get? name = some pr → pr.name = name
  schemasKeyed : ∀ name ars, s.schemas.get? name = some ars → ars.name = name
  projects : ∀ name pr, s.published.get? name = some pr →
    ∃ crd spec, R.projectedCRD discover pr = .ok crd ∧ R.convert crd = .ok spec
  parses : ∀ name pr, s.published.get? name = some pr → pr.resourceSchemaName ≠ "" →
    ∃ gr, groupResource? R.libs pr.resourceSchemaName = some gr
  exported : ∃ e, s.exports.get? R.apiExportName = some e ∧ e.Parses R.libs

variable (R discover) in
/-- The name of the schema that the PublishedResource is to have. -/
def PublishedResource.Named (pr : PublishedResource) (schemaName : String) : Prop :=
  ∃ crd, R.projectedCRD discover pr = .ok crd ∧ schemaName = getAPIResourceSchemaName R.hash crd

theorem PublishedResource.Named.unique {pr : PublishedResource} {n m : String}
    (h : pr.Named R discover n) (h' : pr.Named R discover m) : n = m := by
  obtain ⟨crd, hcrd, rfl⟩ := h
  obtain ⟨crd', hcrd', rfl⟩ := h'
  cases hcrd.symm.trans hcrd'
  rfl

variable (R) in
/-- The schema is there and has the name of the agent. -/
def HasSchema (s : Store) (schemaName : String) : Prop :=
  ∃ ars, s.schemas.get? schemaName = some ars ∧ R.validAgentName ars = true

variable (R discover) in
/-- The status is right. -/
structure PublishedResource.Settled (s : Store) (pr : PublishedResource) : Prop where
  named : pr.Named R discover pr.resourceSchemaName
  schema : HasSchema R s pr.resourceSchemaName

variable (R discover) in
/-- What the reconciliations of PublishedResources do: a status that changes becomes right, and
schemas that are right stay so. -/
structure Advances (s s' : Store) : Prop where
  published : ∀ name, s'.published.get? name = s.published.get? name ∨
    ∃ pr n, s.published.get? name = some pr ∧ pr.Named R discover n ∧
      s'.published.get? name = some { pr with resourceSchemaName := n }
  schemas : ∀ n, HasSchema R s n → HasSchema R s' n

namespace Advances

theorem refl (s : Store) : Advances R discover s s := ⟨fun _ => .inl rfl, fun _ h => h⟩

theorem trans {s₁ s₂ s₃ : Store} (h : Advances R discover s₁ s₂) (h' : Advances R discover s₂ s₃) :
    Advances R discover s₁ s₃ := by
  refine ⟨fun name => ?_, fun n hn => h'.schemas n (h.schemas n hn)⟩
  rcases h'.published name with hsame | ⟨pr, n, hpr, hnamed, hn⟩
  · rw [hsame]
    exact h.published name
  · rcases h.published name with hsame | ⟨pr₁, n₁, hpr₁, hnamed₁, hn₁⟩
    · exact .inr ⟨pr, n, hsame ▸ hpr, hnamed, hn⟩
    · cases hn₁.symm.trans hpr
      exact .inr ⟨pr₁, n, hpr₁, hnamed, hn⟩

theorem settled (h : Advances R discover s s') {name : String} {pr : PublishedResource}
    (hpr : s.published.get? name = some pr) (hsettled : pr.Settled R discover s) :
    s'.published.get? name = some pr ∧ pr.Settled R discover s' := by
  refine ⟨?_, hsettled.named, h.schemas _ hsettled.schema⟩
  rcases h.published name with hsame | ⟨pr', n, hpr', hnamed, hn⟩
  · rw [hsame, hpr]
  · cases hpr.symm.trans hpr'
    rw [hn, hnamed.unique hsettled.named]

end Advances

/-! ### A reconciliation of a PublishedResource -/

theorem validAgentName_fix (ars : APIResourceSchema) :
    R.validAgentName (R.fixAgentName ars) = true := by
  simp [Config.validAgentName, Config.fixAgentName]

theorem validAgentName_create {crd : Crd} {name : String} {ars : APIResourceSchema}
    (h : createAPIResourceSchema R.convert crd name R.agentName = .ok ars) :
    R.validAgentName ars = true := by
  unfold createAPIResourceSchema at h
  split at h
  · cases h
  · cases h
    simp [Config.validAgentName]

theorem insertSchema_keeps {n : String} {ars : APIResourceSchema}
    (hvalid : R.validAgentName ars = true)
    (hname : ars.name = n) (hkeyed : ∀ name ars, s.schemas.get? name = some ars → ars.name = name) :
    HasSchema R { s with schemas := s.schemas.insert n ars } n ∧
      (∀ m, HasSchema R s m → HasSchema R { s with schemas := s.schemas.insert n ars } m) ∧
      ∀ name ars', (s.schemas.insert n ars).get? name = some ars' → ars'.name = name := by
  have hhas : HasSchema R { s with schemas := s.schemas.insert n ars } n :=
    ⟨ars, by rw [SortedMap.get?_insert, if_pos rfl], hvalid⟩
  refine ⟨hhas, ?_, ?_⟩
  · rintro m ⟨ars', hars', hvalid'⟩
    by_cases hm : m = n
    · exact hm ▸ hhas
    · exact ⟨ars', by rw [SortedMap.get?_insert, if_neg hm, hars'], hvalid'⟩
  · intro name ars' hars'
    rw [SortedMap.get?_insert] at hars'
    split at hars'
    · next heq =>
      cases hars'
      rw [hname, heq]
    · exact hkeyed name ars' hars'

/-- What `ensureSchema` does once it knows the schema. -/
def Config.ensureFound (R : Config) (crd : Crd) (n : String) : Option APIResourceSchema → M Unit
  | none => do
    let ars ← wrapE "failed to construct APIResourceSchema"
      (createAPIResourceSchema R.convert crd n R.agentName)
    call (.createSchema ars) "failed to create APIResourceSchema"
  | some ars =>
    if R.validAgentName ars then return ()
    else call (.updateSchema (R.fixAgentName ars)) "failed to update APIResourceSchema"

theorem eval_ensureSchema_eq (crd : Crd) (n : String) :
    Fallible.eval (execWith discover) (R.ensureSchema crd n) s =
      Fallible.eval (execWith discover) (R.ensureFound crd n (s.schemas.get? n)) s := by
  have hget : Fallible.eval (execWith discover) (attempt (.getSchema n)) s =
      (.ok ((s.schemas.get? n).elim (.error .notFound) .ok), s) := rfl
  rw [Config.ensureSchema, Fallible.eval_bind, hget]
  cases s.schemas.get? n <;> rfl

theorem eval_ensureSchema_done {crd : Crd} {n : String} (h : HasSchema R s n) :
    Fallible.eval (execWith discover) (R.ensureSchema crd n) s = (.ok (), s) := by
  obtain ⟨ars, hars, hvalid⟩ := h
  rw [eval_ensureSchema_eq, hars, Config.ensureFound, if_pos hvalid]
  rfl

variable (discover) in
/-- After `ensureSchema` the schema is there. -/
theorem eval_ensureSchema {crd : Crd} (n : String) {spec : SchemaSpec}
    (hconvert : R.convert crd = .ok spec)
    (hkeyed : ∀ name ars, s.schemas.get? name = some ars → ars.name = name) :
    ∃ schemas, Fallible.eval (execWith discover) (R.ensureSchema crd n) s =
        (.ok (), { s with schemas }) ∧ HasSchema R { s with schemas } n ∧
      (∀ m, HasSchema R s m → HasSchema R { s with schemas } m) ∧
      ∀ name ars, schemas.get? name = some ars → ars.name = name := by
  cases hars : s.schemas.get? n with
  | none =>
    obtain ⟨ars, hcreate⟩ :
        ∃ ars, createAPIResourceSchema R.convert crd n R.agentName = .ok ars := by
      rw [createAPIResourceSchema, hconvert]
      exact ⟨_, rfl⟩
    have hname := name_of_create hcreate
    refine ⟨s.schemas.insert n ars, ?_,
      insertSchema_keeps (validAgentName_create hcreate) hname hkeyed⟩
    rw [eval_ensureSchema_eq, hars, Config.ensureFound, Fallible.eval_bind, wrapE, hcreate]
    change ((exec (.createSchema ars) s).1.mapError _, (exec (.createSchema ars) s).2) = _
    simp only [exec, hname, hars]
    rfl
  | some ars =>
    by_cases hvalid : R.validAgentName ars = true
    · exact ⟨s.schemas, eval_ensureSchema_done ⟨ars, hars, hvalid⟩, ⟨ars, hars, hvalid⟩,
        fun _ h => h, hkeyed⟩
    · have hname : (R.fixAgentName ars).name = n := hkeyed n ars hars
      refine ⟨s.schemas.insert n { R.fixAgentName ars with
        resourceVersion := ars.resourceVersion + 1 }, ?_,
        insertSchema_keeps (validAgentName_fix ars) hname hkeyed⟩
      rw [eval_ensureSchema_eq, hars, Config.ensureFound, if_neg hvalid]
      change ((exec (.updateSchema (R.fixAgentName ars)) s).1.mapError _,
        (exec (.updateSchema (R.fixAgentName ars)) s).2) = _
      simp only [exec, hname, hars]
      rw [if_neg fun hne => hne rfl]
      rfl

/-- A PublishedResource that is there is reconciled, unless it is being deleted. -/
theorem eval_schemaReconcile (name : String) :
    Fallible.eval (execWith discover) (R.schemaReconcile name) s =
      match s.published.get? name with
      | none => (.ok (), s)
      | some pr => if pr.deleting then (.ok (), s)
        else Fallible.eval (execWith discover) (R.reconcileSchema pr) s := by
  have hget : Fallible.eval (execWith discover) (attempt (.getPublishedResource name)) s =
      (.ok ((s.published.get? name).elim (.error .notFound) .ok), s) := rfl
  rw [Config.schemaReconcile, Fallible.eval_bind, hget]
  cases s.published.get? name with
  | none => rfl
  | some pr =>
    dsimp only [Option.elim]
    split <;> rfl

theorem eval_reconcileSchema {pr : PublishedResource} {crd : Crd}
    (hcrd : R.projectedCRD discover pr = .ok crd) {s₁ : Store}
    (hensure : Fallible.eval (execWith discover)
      (R.ensureSchema crd (getAPIResourceSchemaName R.hash crd)) s = (.ok (), s₁)) :
    Fallible.eval (execWith discover) (R.reconcileSchema pr) s =
      if pr.resourceSchemaName ≠ getAPIResourceSchemaName R.hash crd then
        Fallible.eval (execWith discover) (call (.patchStatus pr.name
          (getAPIResourceSchemaName R.hash crd)) "failed to update PublishedResource status") s₁
      else (.ok (), s₁) := by
  rw [Config.reconcileSchema, Fallible.eval_bind, Fallible.eval_mapError,
    eval_projectPublishedResource, hcrd]
  dsimp only [Except.mapError]
  rw [Fallible.eval_bind, hensure]
  dsimp only
  split <;> rfl

theorem schemaReconcile_settled {name : String}
    (h : ∀ pr, s.published.get? name = some pr → pr.deleting = false → pr.Settled R discover s) :
    Fallible.eval (execWith discover) (R.schemaReconcile name) s = (.ok (), s) := by
  rw [eval_schemaReconcile]
  cases hpr : s.published.get? name with
  | none => rfl
  | some pr =>
    dsimp only
    split
    · rfl
    · next hlive =>
      obtain ⟨⟨crd, hcrd, hname⟩, hschema⟩ := h pr hpr (by simpa using hlive)
      rw [hname] at hschema
      rw [eval_reconcileSchema hcrd (eval_ensureSchema_done hschema), if_neg (not_not.mpr hname)]

/-- The store with a right status. -/
def Store.settle (s : Store) (schemas : SortedMap String APIResourceSchema) (name : String)
    (pr : PublishedResource) (n : String) : Store :=
  { s with schemas, published := s.published.insert name { pr with resourceSchemaName := n } }

theorem get?_settle (schemas : SortedMap String APIResourceSchema) (name name' : String)
    (pr : PublishedResource) (n : String) :
    (s.settle schemas name pr n).published.get? name' =
      if name' = name then some { pr with resourceSchemaName := n } else s.published.get? name' :=
  SortedMap.get?_insert ..

section Settle

variable {schemas : SortedMap String APIResourceSchema} {name n : String} {pr : PublishedResource}
  (hpr : s.published.get? name = some pr) (hnamed : pr.Named R discover n)

include hpr hnamed

theorem publishable_settle (hs : Publishable R discover s)
    (hkeyed : ∀ name ars, schemas.get? name = some ars → ars.name = name) :
    Publishable R discover (s.settle schemas name pr n) := by
  refine ⟨fun name' pr' h => ?_, hkeyed, fun name' pr' h => ?_,
    fun name' pr' h hne => ?_, hs.exported⟩ <;>
    rw [get?_settle] at h <;> split at h
  · next heq =>
    cases h
    exact (hs.keyed name pr hpr).trans heq.symm
  · exact hs.keyed name' pr' h
  · cases h
    exact hs.projects name pr hpr
  · exact hs.projects name' pr' h
  · cases h
    obtain ⟨crd, -, rfl⟩ := hnamed
    exact schemaName_parses ..
  · exact hs.parses name' pr' h hne

theorem advances_settle (hschemas : ∀ m, HasSchema R s m → HasSchema R { s with schemas } m) :
    Advances R discover s (s.settle schemas name pr n) := by
  refine ⟨fun name' => ?_, hschemas⟩
  rw [get?_settle]
  split
  · next heq =>
    subst heq
    exact .inr ⟨pr, n, hpr, hnamed, rfl⟩
  · exact .inl rfl

end Settle

theorem schemaReconcile_settles (hs : Publishable R discover s) (name : String) :
    ∃ s', Fallible.eval (execWith discover) (R.schemaReconcile name) s = (.ok (), s') ∧
      Publishable R discover s' ∧ Advances R discover s s' ∧
      ∀ pr, s'.published.get? name = some pr → pr.deleting = false → pr.Settled R discover s' := by
  rw [eval_schemaReconcile]
  cases hpr : s.published.get? name with
  | none => exact ⟨s, rfl, hs, .refl s, fun pr h => by rw [hpr] at h; cases h⟩
  | some pr =>
    dsimp only
    split
    · next hdeleting =>
      refine ⟨s, rfl, hs, .refl s, fun pr' hpr' hlive => ?_⟩
      cases hpr.symm.trans hpr'
      rw [hdeleting] at hlive
      cases hlive
    · obtain ⟨crd, spec, hcrd, hconvert⟩ := hs.projects name pr hpr
      have hnamed : pr.Named R discover (getAPIResourceSchemaName R.hash crd) := ⟨crd, hcrd, rfl⟩
      obtain ⟨schemas, hensure, hhas, hschemas, hkeyed⟩ := eval_ensureSchema discover
        (getAPIResourceSchemaName R.hash crd) hconvert hs.schemasKeyed
      refine ⟨s.settle schemas name pr (getAPIResourceSchemaName R.hash crd), ?_,
        publishable_settle hpr hnamed hs hkeyed, advances_settle hpr hnamed hschemas, ?_⟩
      · rw [eval_reconcileSchema hcrd hensure]
        split
        · rw [hs.keyed name pr hpr]
          change ((exec _ { s with schemas }).1.mapError _, (exec _ { s with schemas }).2) = _
          simp only [exec, hpr]
          rfl
        · next hsame =>
          -- the status is right already: writing it once more changes nothing
          have hstatus :
              { pr with resourceSchemaName := getAPIResourceSchemaName R.hash crd } = pr := by
            rw [← not_not.mp hsame]
          have hpublished : s.published.insert name pr = s.published := SortedMap.insert_eq_self hpr
          rw [Store.settle, hstatus, hpublished]
      · intro pr' hpr' _
        rw [get?_settle, if_pos rfl] at hpr'
        cases hpr'
        exact ⟨hnamed, hhas⟩

/-! ### A reconciliation of the APIExport -/

theorem exists_of_listed {pr : PublishedResource} (h : pr ∈ R.listed s) :
    ∃ name, s.published.get? name = some pr := by
  obtain ⟨entry, hentry, rfl⟩ := List.mem_map.mp (List.mem_filter.mp h).1
  exact ⟨entry.1, SortedMap.mem_entries.mp hentry⟩

theorem listed_of_get? {name : String} {pr : PublishedResource}
    (h : s.published.get? name = some pr) (hfilter : R.prFilter pr.labels = true) :
    pr ∈ R.listed s :=
  List.mem_filter.mpr ⟨List.mem_map.mpr ⟨_, SortedMap.mem_entries.mpr h, rfl⟩, hfilter⟩

theorem Publishable.schemaName {name : String} {pr : PublishedResource}
    (hs : Publishable R discover s)
    (h : s.published.get? name = some pr) :
    ∃ n, R.schemaName discover pr = .ok n ∧ ∃ gr, groupResource? R.libs n = some gr := by
  by_cases hne : pr.resourceSchemaName ≠ ""
  · exact ⟨_, if_pos hne, hs.parses name pr h hne⟩
  · obtain ⟨crd, spec, hcrd, -⟩ := hs.projects name pr h
    refine ⟨getAPIResourceSchemaName R.hash crd, ?_, schemaName_parses ..⟩
    rw [Config.schemaName, if_neg hne, hcrd]
    rfl

theorem Publishable.schemaNames (hs : Publishable R discover s) :
    ∃ names : List String, (R.listed s).map (R.schemaName discover) = names.map .ok ∧
      ∀ n ∈ names, ∃ gr, groupResource? R.libs n = some gr := by
  have hlisted : ∀ pr ∈ R.listed s, ∃ n, R.schemaName discover pr = .ok n ∧
      ∃ gr, groupResource? R.libs n = some gr := by
    intro pr hpr
    obtain ⟨name, hname⟩ := exists_of_listed hpr
    exact hs.schemaName hname
  generalize R.listed s = prs at hlisted ⊢
  induction prs with
  | nil => exact ⟨[], rfl, by simp⟩
  | cons pr rest ih =>
    obtain ⟨n, hn, hparses⟩ := hlisted pr List.mem_cons_self
    obtain ⟨names, hnames, hall⟩ := ih fun pr' hpr' => hlisted pr' (List.mem_cons_of_mem _ hpr')
    refine ⟨n :: names, by rw [List.map_cons, hn, hnames, List.map_cons], ?_⟩
    exact List.forall_mem_cons.mpr ⟨hparses, hall⟩

variable (R discover) in
/-- The APIExport is the result of a reconciliation with the PublishedResources as they are. -/
def Exported (s : Store) (e : APIExport) : Prop :=
  ∃ (e₀ : APIExport) (order : Config.SetOrder) (names : List String) (own : List GroupResource),
    e₀.Parses R.libs ∧ (R.listed s).map (R.schemaName discover) = names.map .ok ∧
    (mergeResourceSchemas R.libs e₀.latestResourceSchemas (order.list names)).map
      (groupResource? R.libs) = own.map some ∧
    e = R.reconciled order (R.listed s) own e₀

theorem Exported.parses {e : APIExport} (h : Exported R discover s e) : e.Parses R.libs := by
  obtain ⟨e₀, order, names, own, hparses, hnames, hown, rfl⟩ := h
  intro x hx
  rcases mem_or_of_mem_merge hx with hx | hx
  · have hmem := ready_subset hnames (order.mem_list.mp hx)
    exact parse_of_own hown (mem_merge_of_configured (order.mem_list.mpr hmem))
  · exact hparses x hx

theorem exportReconcile_exports (hs : Publishable R discover s) (order : Config.SetOrder) :
    ∃ e, Fallible.eval (execWith discover) (R.exportReconcile order) s =
        (.ok (), { s with exports := s.exports.insert R.apiExportName e }) ∧
      Exported R discover s e := by
  obtain ⟨e₀, he₀, hparses⟩ := hs.exported
  obtain ⟨names, hnames, hall⟩ := hs.schemaNames
  have hmerged : ∀ x ∈ mergeResourceSchemas R.libs e₀.latestResourceSchemas (order.list names),
      ∃ gr, groupResource? R.libs x = some gr := by
    intro x hx
    rcases mem_or_of_mem_merge hx with hx | hx
    · exact hall x (order.mem_list.mp hx)
    · exact hparses x hx
  obtain ⟨own, hown⟩ := exists_own hmerged
  exact ⟨_, (eval_exportReconcile_iff he₀).mpr ⟨names, own, hnames, hown, rfl⟩,
    e₀, order, names, own, hparses, hnames, hown, rfl⟩

theorem Publishable.insertExport (hs : Publishable R discover s) {e : APIExport}
    (he : e.Parses R.libs) :
    Publishable R discover { s with exports := s.exports.insert R.apiExportName e } where
  keyed := hs.keyed
  schemasKeyed := hs.schemasKeyed
  projects := hs.projects
  parses := hs.parses
  exported := ⟨e, by rw [SortedMap.get?_insert, if_pos rfl], he⟩

/-! ### The order of what is listed -/

instance : Std.TransCmp fun a b : PermissionClaim =>
    compareClaims (a.group, a.resource) (b.group, b.resource) := by
  have heq :
      (fun a b : PermissionClaim => compareClaims (a.group, a.resource) (b.group, b.resource)) =
      compareLex (compareOn (·.group)) (compareOn (·.resource)) := by
    funext a b
    unfold compareClaims compareLex compareOn
    dsimp only
    split
    · next hne =>
      cases hcompare : compare a.group b.group with
      | eq => exact absurd (Std.LawfulEqCmp.eq_of_compare hcompare) hne
      | _ => rfl
    · next heq =>
      have hself : compare a.group b.group = .eq :=
        Std.LawfulEqCmp.compare_eq_iff_eq.mpr (not_not.mp heq)
      rw [hself]
      rfl
  rw [heq]
  infer_instance

theorem compareClaims_antisymm {a b : PermissionClaim}
    (hab : (compareClaims (a.group, a.resource) (b.group, b.resource)).isLE = true)
    (hba : (compareClaims (b.group, b.resource) (a.group, a.resource)).isLE = true) :
    a.group = b.group ∧ a.resource = b.resource := by
  have h : compareClaims (a.group, a.resource) (b.group, b.resource) = .eq :=
    @Std.OrientedCmp.isLE_antisymm _ (fun a b : PermissionClaim =>
      compareClaims (a.group, a.resource) (b.group, b.resource)) _ a b hab hba
  unfold compareClaims at h
  dsimp only at h
  split at h
  · next hne => exact absurd (Std.LawfulEqCmp.eq_of_compare h) hne
  · next heq => exact ⟨not_not.mp heq, Std.LawfulEqCmp.eq_of_compare h⟩

variable (R) in
/-- No two schemas of the APIExport have the same group and resource, and no two claims. -/
structure APIExport.Distinct (e : APIExport) : Prop where
  schemas : Separated R.libs e.latestResourceSchemas
  claims : ∀ a ∈ e.permissionClaims, ∀ b ∈ e.permissionClaims,
    a.group = b.group → a.resource = b.resource → a = b

theorem reconciled_fixed {prs : List PublishedResource} {own own' : List GroupResource}
    {e : APIExport} {order order' : Config.SetOrder} (hown : ∀ gr ∈ own, gr ∈ own')
    (hdistinct : (R.reconciled order prs own e).Distinct R) :
    R.reconciled order' prs own' (R.reconciled order prs own e) = R.reconciled order prs own e := by
  have hannotations : (R.reconciled order' prs own' (R.reconciled order prs own e)).annotations =
      (R.reconciled order prs own e).annotations :=
    SortedMap.insert_eq_self (by simp [Config.reconciled, createAPIExportReconciler])
  have hschemas :
      (R.reconciled order' prs own' (R.reconciled order prs own e)).latestResourceSchemas =
        (R.reconciled order prs own e).latestResourceSchemas := by
    have hperm₂ := order'.perm (Config.readySchemaNames prs)
    have hperm : (R.reconciled order' prs own'
        (R.reconciled order prs own e)).latestResourceSchemas.Perm
        (R.reconciled order prs own e).latestResourceSchemas := by
      refine (List.Perm.of_eq (merge_again hperm₂)).trans ((R.libs.slices.perm _ _).trans ?_)
      exact again_perm (order.perm _) hperm₂
    refine hperm.eq_of_pairwise (fun a b ha hb hab hba => ?_) merge_sorted merge_sorted
    exact hdistinct.schemas a (hperm.mem_iff.mp ha) b hb (Precedes.antisymm hab hba)
  have hclaims : (R.reconciled order' prs own' (R.reconciled order prs own e)).permissionClaims =
      (R.reconciled order prs own e).permissionClaims := by
    have hperm : (R.reconciled order' prs own'
        (R.reconciled order prs own e)).permissionClaims.Perm
        (R.reconciled order prs own e).permissionClaims := reconciled_again hown
    refine hperm.eq_of_pairwise (fun a b ha hb hab hba => ?_) (R.libs.slices.sorted _ _)
      (R.libs.slices.sorted _ _)
    obtain ⟨hgroup, hresource⟩ := compareClaims_antisymm hab hba
    exact hdistinct.claims a (hperm.mem_iff.mp ha) b hb hgroup hresource
  generalize R.reconciled order prs own e = e₁ at *
  generalize R.reconciled order' prs own' e₁ = e₂ at *
  cases e₁
  cases e₂
  simp_all

theorem exportReconcile_fixed {e : APIExport} (he : s.exports.get? R.apiExportName = some e)
    (hexported : Exported R discover s e) (hdistinct : e.Distinct R) (order : Config.SetOrder) :
    Fallible.eval (execWith discover) (R.exportReconcile order) s = (.ok (), s) := by
  obtain ⟨e₀, order₀, names, own, hparses, hnames, hown, rfl⟩ := hexported
  obtain ⟨own', hown', hsubset⟩ := own_again hown hparses hnames order
  refine (eval_exportReconcile_iff he).mpr ⟨names, own', hnames, hown', ?_⟩
  rw [reconciled_fixed hsubset hdistinct, SortedMap.insert_eq_self he]

/-! ### Any number of reconciliations -/

variable (R discover) in
/-- The status of every PublishedResource is right, unless it is being deleted. -/
def AllSettled (s : Store) : Prop :=
  ∀ name pr, s.published.get? name = some pr → pr.deleting = false → pr.Settled R discover s

theorem AllSettled.withExports (h : AllSettled R discover s)
    (exports : SortedMap String APIExport) :
    AllSettled R discover { s with exports } := fun name pr hpr hlive =>
  ⟨(h name pr hpr hlive).named, (h name pr hpr hlive).schema⟩

theorem runTasks_settles (tasks : List Task) (hs : Publishable R discover s) :
    ∃ s', R.runTasks discover tasks s = .ok s' ∧ Publishable R discover s' ∧
      Advances R discover s s' ∧
      ∀ name pr, .resourceSchema name ∈ tasks → s'.published.get? name = some pr →
        pr.deleting = false → pr.Settled R discover s' := by
  induction tasks generalizing s with
  | nil => exact ⟨s, rfl, hs, .refl s, fun name pr h => absurd h List.not_mem_nil⟩
  | cons task rest ih =>
    -- the first reconciliation, and what it is about
    obtain ⟨s₁, heval, hs₁, hadvances₁, htask⟩ : ∃ s₁,
        Fallible.eval (execWith discover) (task.prog R) s = (.ok (), s₁) ∧
        Publishable R discover s₁ ∧ Advances R discover s s₁ ∧
        ∀ name pr, task = .resourceSchema name → s₁.published.get? name = some pr →
          pr.deleting = false → pr.Settled R discover s₁ := by
      cases task with
      | resourceSchema name =>
        obtain ⟨s₁, heval, hs₁, hadvances, hsettled⟩ := schemaReconcile_settles hs name
        refine ⟨s₁, heval, hs₁, hadvances, fun name' pr hname => ?_⟩
        cases hname
        exact hsettled pr
      | apiExport order =>
        obtain ⟨e, heval, hexported⟩ := exportReconcile_exports hs order
        exact ⟨_, heval, hs.insertExport hexported.parses, ⟨fun _ => .inl rfl, fun _ h => h⟩, nofun⟩
    obtain ⟨s', hrun, hs', hadvances, hrest⟩ := ih hs₁
    refine ⟨s', (runTasks_cons heval).trans hrun, hs', hadvances₁.trans hadvances, ?_⟩
    intro name pr hmem hpr hlive
    rcases List.mem_cons.mp hmem with heq | hmem
    · -- settled by the first one; it stays
      rcases hadvances.published name with hsame | ⟨pr₁, n, hpr₁, hnamed, hn⟩
      · have hpr₁ := hsame.symm.trans hpr
        exact (hadvances.settled hpr₁ (htask name pr heq.symm hpr₁ hlive)).2
      · cases hpr.symm.trans hn
        have hsettled := htask name pr₁ heq.symm hpr₁ hlive
        rw [← hsettled.named.unique hnamed]
        exact (hadvances.settled hpr₁ hsettled).2
    · exact hrest name pr hmem hpr hlive

theorem runTasks_exports (tasks : List Task) (hs : Publishable R discover s)
    (hsettled : AllSettled R discover s) :
    ∃ exports, R.runTasks discover tasks s = .ok { s with exports } ∧
      (((∃ order, .apiExport order ∈ tasks) ∨
          ∃ e, s.exports.get? R.apiExportName = some e ∧ Exported R discover s e) →
        ∃ e, exports.get? R.apiExportName = some e ∧ Exported R discover s e) := by
  induction tasks generalizing s with
  | nil => exact ⟨s.exports, rfl, fun h => h.resolve_left (by simp)⟩
  | cons task rest ih =>
    cases task with
    | resourceSchema name =>
      obtain ⟨exports, hrun, hexports⟩ := ih hs hsettled
      refine ⟨exports, (runTasks_cons (schemaReconcile_settled (hsettled name))).trans hrun, ?_⟩
      intro h
      refine hexports (h.imp_left fun ⟨order, hmem⟩ => ⟨order, ?_⟩)
      exact (List.mem_cons.mp hmem).resolve_left nofun
    | apiExport order =>
      obtain ⟨e, heval, hexported⟩ := exportReconcile_exports hs order
      obtain ⟨exports, hrun, hexports⟩ := ih (hs.insertExport hexported.parses)
        (hsettled.withExports _)
      refine ⟨exports, (runTasks_cons heval).trans hrun,
        fun _ => hexports (.inr ⟨e, ?_, hexported⟩)⟩
      rw [SortedMap.get?_insert, if_pos rfl]

theorem runTasks_fixed {tasks : List Task} {e : APIExport} (hsettled : AllSettled R discover s)
    (he : s.exports.get? R.apiExportName = some e) (hexported : Exported R discover s e)
    (hdistinct : e.Distinct R) : R.runTasks discover tasks s = .ok s := by
  induction tasks with
  | nil => rfl
  | cons task rest ih =>
    refine (runTasks_cons ?_).trans ih
    cases task with
    | resourceSchema name => exact schemaReconcile_settled (hsettled name)
    | apiExport order => exact exportReconcile_fixed he hexported hdistinct order

/-- Reconcile every PublishedResource and then the APIExport, with any other reconciliations before,
between and after: all of them go through.  Then each PublishedResource that is not being deleted
has its status and its schema, and the APIExport lists it.  If the APIExport has no two schemas and
no two claims for the same resource then nothing changes any more. -/
theorem publishing_converges (hs : Publishable R discover s) (before after : List Task)
    (hall : ∀ name pr, s.published.get? name = some pr → pr.deleting = false →
      .resourceSchema name ∈ before)
    (hexport : ∃ order, .apiExport order ∈ after) :
    ∃ s' e, R.runTasks discover (before ++ after) s = .ok s' ∧
      s'.exports.get? R.apiExportName = some e ∧
      (∀ name pr, s.published.get? name = some pr → pr.deleting = false → ∃ n,
        pr.Named R discover n ∧
        s'.published.get? name = some { pr with resourceSchemaName := n } ∧ HasSchema R s' n ∧
        (R.prFilter pr.labels = true → n ∈ e.latestResourceSchemas)) ∧
      (e.Distinct R → ∀ tasks, R.runTasks discover tasks s' = .ok s') := by
  obtain ⟨s₁, hbefore, hs₁, hadvances, htasks⟩ := runTasks_settles before hs
  have hsettled : AllSettled R discover s₁ := by
    intro name pr hpr hlive
    rcases hadvances.published name with hsame | ⟨pr₀, n, hpr₀, -, hn⟩
    · exact htasks name pr (hall name pr (hsame.symm.trans hpr) hlive) hpr hlive
    · cases hpr.symm.trans hn
      exact htasks name _ (hall name pr₀ hpr₀ hlive) hpr hlive
  obtain ⟨exports, hafter, hexports⟩ := runTasks_exports after hs₁ hsettled
  obtain ⟨e, he, hexported⟩ := hexports (.inl hexport)
  refine ⟨{ s₁ with exports }, e, (runTasks_append hbefore).trans hafter, he,
    ?_, fun hdistinct tasks =>
    runTasks_fixed (hsettled.withExports _) he hexported hdistinct⟩
  intro name pr hpr hlive
  obtain ⟨n, hn⟩ : ∃ n, s₁.published.get? name = some { pr with resourceSchemaName := n } := by
    rcases hadvances.published name with hsame | ⟨pr₀, n, hpr₀, -, hn⟩
    · exact ⟨pr.resourceSchemaName, hsame.trans hpr⟩
    · cases hpr.symm.trans hpr₀
      exact ⟨n, hn⟩
  obtain ⟨hnamed, hhas⟩ := hsettled name _ hn hlive
  refine ⟨n, hnamed, hn, hhas, fun hfilter => ?_⟩
  obtain ⟨e₀, order, names, own, -, -, -, rfl⟩ := hexported
  refine mem_merge_of_configured (order.mem_list.mpr (List.mem_filter.mpr ⟨?_, ?_⟩))
  · exact List.mem_map.mpr ⟨_, listed_of_get? hn hfilter, rfl⟩
  · obtain ⟨crd, -, rfl⟩ : pr.Named R discover n := hnamed
    exact decide_eq_true (schemaName_ne_empty _ _)

theorem publishable_unpublishedStore :
    Publishable sampleConfig (fun _ => .ok sampleCrd) unpublishedStore := by
  have hget : ∀ name pr, unpublishedStore.published.get? name = some pr →
      name = "publish-crontabs" ∧ pr = { sampleResource with resourceSchemaName := "" } := by
    intro name pr h
    simp only [unpublishedStore, SortedMap.get?_insert] at h
    split at h
    · next heq => exact ⟨heq, (Option.some.inj h).symm⟩
    · cases h
  refine ⟨fun name pr h => ?_, fun _ _ h => (by cases h), fun name pr h => ?_,
    fun name pr h hne => ?_, sampleExport, rfl, ?_⟩
  · obtain ⟨rfl, rfl⟩ := hget name pr h
    rfl
  · obtain ⟨rfl, rfl⟩ := hget name pr h
    have hok : (sampleConfig.projectedCRD (fun _ => .ok sampleCrd)
        { sampleResource with resourceSchemaName := "" }).toOption.isSome =
        true := by decide +kernel
    cases hcrd : sampleConfig.projectedCRD (fun _ => .ok sampleCrd)
        { sampleResource with resourceSchemaName := "" } with
    | error e =>
      rw [hcrd] at hok
      cases hok
    | ok crd => exact ⟨crd, _, rfl, rfl⟩
  · obtain ⟨rfl, rfl⟩ := hget name pr h
    exact absurd rfl hne
  · intro x hx
    rw [← Option.isSome_iff_exists]
    revert x
    decide +kernel

theorem publishing_converges_sample : ∃ s' e n,
    sampleConfig.runTasks (fun _ => .ok sampleCrd)
      [.resourceSchema "publish-crontabs", .apiExport sampleOrder] unpublishedStore = .ok s' ∧
    s'.exports.get? "example.com" = some e ∧ n ∈ e.latestResourceSchemas ∧
    ∀ tasks, sampleConfig.runTasks (fun _ => .ok sampleCrd) tasks s' = .ok s' := by
  obtain ⟨s', e, hrun, he, hpublished, hfixed⟩ := publishing_converges publishable_unpublishedStore
    [.resourceSchema "publish-crontabs"] [.apiExport sampleOrder] (by
      intro name pr h _
      simp only [unpublishedStore, SortedMap.get?_insert] at h
      split at h
      · next heq => exact heq ▸ List.mem_singleton_self _
      · cases h) ⟨sampleOrder, List.mem_singleton_self _⟩
  obtain ⟨n, -, -, -, hlisted⟩ := hpublished "publish-crontabs" _ rfl rfl
  refine ⟨s', e, n, hrun, he, hlisted rfl, hfixed ?_⟩
  have hdistinct : ((sampleConfig.runTasks (fun _ => .ok sampleCrd)
      ([.resourceSchema "publish-crontabs"] ++ [.apiExport sampleOrder])
      unpublishedStore).toOption.bind (·.exports.get? "example.com")).all (fun e =>
      decide (∀ x ∈ e.latestResourceSchemas, ∀ y ∈ e.latestResourceSchemas,
        parseResourceGroup sampleConfig.libs x = parseResourceGroup sampleConfig.libs y → x = y) &&
      decide (∀ a ∈ e.permissionClaims, ∀ b ∈ e.permissionClaims,
        a.group = b.group → a.resource = b.resource → a = b)) = true := by decide +kernel
  have hexport : s'.exports.get? "example.com" = some e := he
  rw [hrun, Except.toOption, Option.bind_some, hexport, Option.all_some, Bool.and_eq_true_iff,
    decide_eq_true_iff, decide_eq_true_iff] at hdistinct
  exact ⟨hdistinct.1, hdistinct.2⟩

end ApiExport
