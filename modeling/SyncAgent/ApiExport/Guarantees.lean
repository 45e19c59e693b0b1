import SyncAgent.ApiExport.Controllers
import SyncAgent.Projection.Versions

/-! What the two controllers guarantee over whole runs: a group and resource that is in the
APIExport stays there, and the APIExport never refers to a schema that does not exist. -/

namespace ApiExport

open Kube Projection
open Sync (Error)

/-- An invariant of the store and a relation between an earlier and a later one.  The other parties
and the requests of the controllers have to keep to both. -/
structure Law where
  inv : Store → Prop
  rel : Store → Store → Prop
  refl : ∀ s, rel s s
  trans : ∀ {s₁ s₂ s₃}, rel s₁ s₂ → rel s₂ s₃ → rel s₁ s₃

namespace Law

variable (W : Law)

def environment : Environment api Store where
  rely s s' := (W.inv s → W.inv s') ∧ W.rel s s'
  refl s := ⟨id, W.refl s⟩
  trans h h' := ⟨h'.1 ∘ h.1, W.trans h.2 h'.2⟩
  does := Does

/-- Every request keeps the invariant and the relation, and `harmless` holds of what it does. -/
def guarantee (harmless : Store → Store → Prop) : Guarantee api Store where
  always := W.inv
  before c s := ∀ r s', Does c s r s' → W.environment.rely s s' ∧ harmless s s'

variable {W} {harmless : Store → Store → Prop} (hrefl : ∀ s, harmless s s)

/-- A condition that implies the invariant and that nobody breaks. -/
structure Stable (J : Store → Prop) : Prop where
  inv : ∀ s, J s → W.inv s
  kept : ∀ s s', J s → W.environment.rely s s' → J s'

theorem stable_inv : W.Stable W.inv := ⟨fun _ h => h, fun _ _ h hr => hr.1 h⟩

theorem Stable.and {J : Store → Prop} (hJ : W.Stable J) {K : Store → Prop}
    (hK : ∀ s s', K s → W.rel s s' → K s') : W.Stable fun s => J s ∧ K s :=
  ⟨fun s h => hJ.inv s h.1, fun s s' h hr => ⟨hJ.kept s s' h.1 hr, hK s s' h.2 hr.2⟩⟩

variable {J : Store → Prop} (hJ : W.Stable J)

include hJ

theorem write_keeps {c : Request} (text : String) {s : Store} (hs : J s)
    (hc : ∀ s₁, J s₁ → ∀ r s', Does c s₁ r s' → W.environment.rely s₁ s' ∧ harmless s₁ s') :
    Fallible.Keeps W.environment (W.guarantee harmless) (call c text)
      (fun v s' => J s' ∧ ∃ s₁, J s₁ ∧ Does c s₁ (.ok v) s') W.inv s := by
  refine .sendE fun s₁ hrely => ⟨fun r s' hd => ?_, fun r s₂ hd => ?_⟩
  · exact hc s₁ (hJ.kept s s₁ hs hrely) r s' hd
  · have hs₁ := hJ.kept s s₁ hs hrely
    have hs₂ := hJ.kept s₁ s₂ hs₁ (hc s₁ hs₁ r s₂ hd).1
    refine ⟨hJ.inv s₂ hs₂, ?_⟩
    cases r with
    | error e => exact hJ.inv s₂ hs₂
    | ok v => exact ⟨hs₂, s₁, hs₁, hd⟩

theorem wrapE_keeps {α : Type} {text : String} {r : Except Error α} {Q : α → Store → Prop}
    {s : Store} (hs : J s) (hr : ∀ a, r = .ok a → Q a s) :
    Fallible.Keeps W.environment (W.guarantee harmless) (wrapE text r) Q W.inv s := by
  cases r with
  | error e => exact hJ.inv s hs
  | ok a => exact hr a rfl

include hrefl

/-- A read, and what is known after it: the response is the one of the current store. -/
theorem attempt_keeps {c : Request} (hc : c.Reads) {s : Store} (hs : J s) :
    Fallible.Keeps W.environment (W.guarantee harmless) (attempt c)
      (fun r s' => J s' ∧ Does c s' r s') W.inv s := by
  refine .request fun s₁ hrely => ⟨fun r s' hd => ?_, fun r s₂ hd => ?_⟩
  · rw [Does.of_reads hc hd]
    exact ⟨W.environment.refl s₁, hrefl s₁⟩
  · obtain rfl := Does.of_reads hc hd
    have hs₂ := hJ.kept s s₂ hs hrely
    exact ⟨hJ.inv s₂ hs₂, hs₂, hd⟩

theorem call_keeps {c : Request} (hc : c.Reads) (text : String) {s : Store} (hs : J s) :
    Fallible.Keeps W.environment (W.guarantee harmless) (call c text)
      (fun v s' => J s' ∧ Does c s' (.ok v) s') W.inv s := by
  refine .sendE fun s₁ hrely => ⟨fun r s' hd => ?_, fun r s₂ hd => ?_⟩
  · rw [Does.of_reads hc hd]
    exact ⟨W.environment.refl s₁, hrefl s₁⟩
  · obtain rfl := Does.of_reads hc hd
    have hs₂ := hJ.kept s s₂ hs hrely
    refine ⟨hJ.inv s₂ hs₂, ?_⟩
    cases r with
    | error e => exact hJ.inv s₂ hs₂
    | ok v => exact ⟨hs₂, hd⟩

theorem projectPublishedResource_keeps (R : Config) (pubRes : PublishedResource) {s : Store}
    (hs : J s) :
    Fallible.Keeps W.environment (W.guarantee harmless) (R.projectPublishedResource pubRes)
      (fun _ => J) W.inv s := by
  have hcrd := call_keeps hrefl hJ (c := .retrieveCRD pubRes.rules.sourceGK) trivial
    "failed to discover resource defined in PublishedResource" hs
  refine .seq hcrd fun crd s₁ h₁ => ?_
  exact wrapE_keeps hJ h₁.1 fun _ _ => h₁.1

/-- A schema that is there already gets the name that it has. -/
theorem getSchemaName_keeps (R : Config) (pubRes : PublishedResource) {s : Store} (hs : J s) :
    Fallible.Keeps W.environment (W.guarantee harmless) (R.getSchemaName pubRes)
      (fun name s' => J s' ∧ (pubRes.resourceSchemaName ≠ "" → name = pubRes.resourceSchemaName))
      W.inv s := by
  unfold Config.getSchemaName
  split
  · exact .pure ⟨hs, fun _ => rfl⟩
  · next hname =>
    refine .seq (.mapError (projectPublishedResource_keeps hrefl hJ R pubRes hs))
      fun crd s₁ h₁ => ?_
    exact .pure ⟨h₁, fun h => absurd h hname⟩

theorem schemaNames_keeps (R : Config) (pubResources : List PublishedResource) {s : Store}
    (hs : J s) :
    Fallible.Keeps W.environment (W.guarantee harmless) (R.schemaNames pubResources)
      (fun names s' => J s' ∧ ∀ name ∈ Config.readySchemaNames pubResources, name ∈ names)
      W.inv s := by
  unfold Config.schemaNames
  induction pubResources generalizing s with
  | nil => exact .pure ⟨hs, fun name h => by cases h⟩
  | cons pr rest ih =>
    refine .seq (.mapError (getSchemaName_keeps hrefl hJ R pr hs)) fun name s₁ h₁ => ?_
    refine .seq (ih h₁.1) fun names s₂ h₂ => .pure ⟨h₂.1, fun x hx => ?_⟩
    simp only [Config.readySchemaNames, List.map_cons, List.mem_filter, List.mem_cons,
      decide_eq_true_eq] at hx
    obtain ⟨rfl | hx, hne⟩ := hx
    · rw [h₁.2 hne]
      exact List.mem_cons_self
    · exact List.mem_cons_of_mem _ (h₂.2 x (List.mem_filter.mpr ⟨hx, by simpa using hne⟩))

end Law

theorem ownResources_ok_iff {R : Config} {schemas : List String} {own : List GroupResource} :
    R.ownResources schemas = .ok own ↔ schemas.map (groupResource? R.libs) = own.map some := by
  unfold Config.ownResources
  induction schemas generalizing own with
  | nil =>
    rw [List.mapM_nil]
    cases own with
    | nil => exact ⟨fun _ => rfl, fun _ => rfl⟩
    | cons gr rest => constructor <;> intro h <;> cases h
  | cons schema rest ih =>
    rw [List.mapM_cons, List.map_cons, groupResource?]
    cases parseSchemaName R.libs schema with
    | error e => cases own <;> constructor <;> intro h <;> cases h
    | ok gvr =>
      constructor
      · intro h
        obtain ⟨gr, hgr, h⟩ := Sync.exists_of_bind_eq_ok h
        obtain ⟨others, hothers, h⟩ := Sync.exists_of_bind_eq_ok h
        cases hgr
        cases h
        exact congrArg _ (ih.mp hothers)
      · intro hmap
        cases own with
        | nil => cases hmap
        | cons gr others =>
          obtain ⟨hgr, hothers⟩ := List.cons.inj hmap
          cases hgr
          change (do let bs ← _; pure (_ :: bs) : Except Error (List GroupResource)) = _
          rw [ih.mpr hothers]
          rfl

theorem parse_of_own {R : Config} {schemas : List String} {own : List GroupResource}
    (h : schemas.map (groupResource? R.libs) = own.map some) {x : String} (hx : x ∈ schemas) :
    ∃ gr, groupResource? R.libs x = some gr := by
  have hmem := List.mem_map_of_mem (f := groupResource? R.libs) hx
  rw [h] at hmem
  obtain ⟨gr, -, hgr⟩ := List.mem_map.mp hmem
  exact ⟨gr, hgr.symm⟩

theorem Does.listed {selector : Selector} {s s' : Store} {pubResources : List PublishedResource}
    (h : Does (.listPublishedResources selector) s (.ok pubResources) s') {pr : PublishedResource}
    (hpr : pr ∈ pubResources) : ∃ name, s.published.get? name = some pr := by
  rcases h with h | ⟨⟨e, he⟩, -⟩ | ⟨⟨gk, hgk⟩, -⟩
  · cases h
    obtain ⟨⟨name, pr'⟩, hmem, rfl⟩ := List.mem_map.mp (List.mem_of_mem_filter hpr)
    exact ⟨name, SortedMap.mem_entries.mp hmem⟩
  · cases he
  · cases hgk

/-- What the reconciler of the APIExport writes, it has read: every schema that it adds was the one
of a PublishedResource at the time of the list, and its name is well formed.  `good` is what is
known of such a schema, then and later. -/
theorem exportReconcile_keeps {W : Law} {harmless : Store → Store → Prop}
    (hrefl : ∀ s, harmless s s) {R : Config} {order : Config.SetOrder}
    (good : String → Store → Prop)
    (hlist : ∀ s, W.inv s → ∀ name pr, s.published.get? name = some pr →
      pr.resourceSchemaName ≠ "" →
      good pr.resourceSchemaName s)
    (hgood : ∀ name s s', good name s → W.rel s s' → good name s')
    (hwrite : ∀ available claimed s, W.inv s →
      (∀ x ∈ available, good x s ∧ ∃ gr, groupResource? R.libs x = some gr) → ∀ r s',
      Does (.ensureExport R.apiExportName
        (createAPIExportReconciler R.libs available claimed R.agentName)) s r s' →
      W.environment.rely s s' ∧ harmless s s')
    {s : Store} (hs : W.inv s) :
    Fallible.Keeps W.environment (W.guarantee harmless) (R.exportReconcile order)
      (fun _ => W.inv) W.inv s := by
  have hinv := W.stable_inv
  refine .seq (Law.attempt_keeps hrefl hinv (c := .getExport R.apiExportName) trivial hs)
    fun r s₁ h₁ => ?_
  split
  · exact .pure h₁.1
  · exact .throw h₁.1
  · next apiExport =>
    refine .seq (Law.call_keeps hrefl hinv (c := .listPublishedResources R.prFilter) trivial
      "failed to list PublishedResources" h₁.1) fun pubResources s₂ h₂ => ?_
    -- From the list on, the ready schemas are known to be good.
    have hJ : W.Stable fun s => W.inv s ∧
        ∀ x ∈ Config.readySchemaNames pubResources, good x s :=
      hinv.and fun s s' h hr x hx => hgood x s s' (h x hx) hr
    have hready : ∀ x ∈ Config.readySchemaNames pubResources, good x s₂ := by
      intro x hx
      obtain ⟨hmem, hne⟩ := List.mem_filter.mp hx
      obtain ⟨pr, hpr, rfl⟩ := List.mem_map.mp hmem
      obtain ⟨name, hname⟩ := h₂.2.listed hpr
      exact hlist s₂ h₂.1 name pr hname (by simpa using hne)
    refine .seq (Law.schemaNames_keeps hrefl hJ R pubResources ⟨h₂.1, hready⟩)
      fun allSchemaNames s₃ h₃ => ?_
    have hown : Fallible.Keeps W.environment (W.guarantee harmless)
        (wrapE "failed to assemble own resources" (R.ownResources (mergeResourceSchemas R.libs
          apiExport.latestResourceSchemas (order.list allSchemaNames))))
        (fun _ s' => (W.inv s' ∧ ∀ x ∈ Config.readySchemaNames pubResources, good x s') ∧
          ∀ x ∈ Config.readySchemaNames pubResources, ∃ gr, groupResource? R.libs x = some gr)
        W.inv s₃ := by
      refine Law.wrapE_keeps hJ h₃.1 fun own howneq => ⟨h₃.1, fun x hx => ?_⟩
      refine parse_of_own (ownResources_ok_iff.mp howneq) (mem_merge_of_configured ?_)
      exact order.mem_list.mpr (h₃.2 x hx)
    refine .seq hown fun own s₄ h₄ => .mapError ?_
    refine (Law.write_keeps hJ _ h₄.1 fun s₅ h₅ r s' hd => ?_).mono
      (fun _ _ h => h.1.1) fun _ h => h
    refine hwrite _ _ s₅ h₅.1 (fun x hx => ?_) r s' hd
    have hx' := order.mem_list.mp hx
    exact ⟨h₅.2 x hx', h₄.2 x hx'⟩

/-! ### A published group and resource is never withdrawn -/

section Published

variable (L : Libraries) (P : GroupResource → Prop)

/-- Every schema of the APIExport has a well-formed name. -/
def APIExport.Parses (e : APIExport) : Prop :=
  ∀ x ∈ e.latestResourceSchemas, ∃ gr, groupResource? L x = some gr

/-- The APIExport still has every group and resource and every permission claim, and it has the
schemas whose group and resource is not in `P` as they were. -/
structure APIExport.Extends (e e' : APIExport) : Prop where
  groups : ∀ x ∈ e.latestResourceSchemas, ∃ y ∈ e'.latestResourceSchemas,
    groupResource? L y = groupResource? L x
  kept : ∀ x ∈ e.latestResourceSchemas, (∀ gr, groupResource? L x = some gr → ¬ P gr) →
    e'.latestResourceSchemas.count x = e.latestResourceSchemas.count x
  claims : e.permissionClaims.Subperm e'.permissionClaims

variable {L P}

theorem APIExport.Extends.refl (e : APIExport) : e.Extends L P e :=
  ⟨fun x hx => ⟨x, hx, rfl⟩, fun _ _ _ => rfl, List.Subperm.refl _⟩

theorem APIExport.Extends.trans {e₁ e₂ e₃ : APIExport} (h : e₁.Extends L P e₂)
    (h' : e₂.Extends L P e₃) : e₁.Extends L P e₃ where
  groups x hx := by
    obtain ⟨y, hy, hyx⟩ := h.groups x hx
    obtain ⟨z, hz, hzy⟩ := h'.groups y hy
    exact ⟨z, hz, hzy.trans hyx⟩
  kept x hx hP := by
    have hcount := h.kept x hx hP
    have hx₂ : x ∈ e₂.latestResourceSchemas :=
      List.count_pos_iff.mp (hcount ▸ List.count_pos_iff.mpr hx)
    exact (h'.kept x hx₂ hP).trans hcount
  claims := h.claims.trans h'.claims

/-- The reconciler extends the APIExport, if the available schemas are those of `P`. -/
theorem createAPIExportReconciler_extends {available : List String} {claimed : List ClaimKey}
    {agentName : String} {e : APIExport} (he : e.Parses L)
    (havailable : ∀ x ∈ available, ∃ gr, groupResource? L x = some gr ∧ P gr) :
    e.Extends L P (createAPIExportReconciler L available claimed agentName e) ∧
      (createAPIExportReconciler L available claimed agentName e).Parses L := by
  have hparses : (createAPIExportReconciler L available claimed agentName e).Parses L := by
    intro x hx
    rcases mem_or_of_mem_merge hx with hx | hx
    · obtain ⟨gr, hgr, -⟩ := havailable x hx
      exact ⟨gr, hgr⟩
    · exact he x hx
  refine ⟨⟨fun x hx => ?_, fun x hx hP => ?_, ?_⟩, hparses⟩
  · obtain ⟨y, hy, htext⟩ := exists_mem_merge (L := L) available hx
    obtain ⟨a, ha⟩ := he x hx
    obtain ⟨b, hb⟩ := hparses y hy
    exact ⟨y, hy, by rw [ha, hb, parseResourceGroup_inj hb ha htext]⟩
  · obtain ⟨a, ha⟩ := he x hx
    refine count_merge fun y hy htext => ?_
    obtain ⟨b, hb, hPb⟩ := havailable y hy
    exact hP b (by rw [ha, parseResourceGroup_inj hb ha htext]) hPb
  · have hadded : e.permissionClaims.Subperm (e.permissionClaims ++
        (claimsToAdd claimed e.permissionClaims).map ClaimKey.claim) :=
      (List.sublist_append_left _ _).subperm
    exact hadded.trans (L.slices.perm _ _).symm.subperm

end Published

section Withdrawn

variable (R : Config) (P : GroupResource → Prop)

/-- `P` holds of the groups and resources that PublishedResources provide. -/
def Provided (s : Store) : Prop :=
  ∀ name pr, s.published.get? name = some pr → pr.resourceSchemaName ≠ "" →
    ∀ gr, groupResource? R.libs pr.resourceSchemaName = some gr → P gr

/-- The APIExport of the agent is there and has been extended. -/
def ExportKept (s s' : Store) : Prop :=
  ∀ e, s.exports.get? R.apiExportName = some e → e.Parses R.libs →
    ∃ e', s'.exports.get? R.apiExportName = some e' ∧ e.Extends R.libs P e' ∧ e'.Parses R.libs

/-- PublishedResources come, change and go, as long as they provide nothing outside of `P`, and the
APIExport is only extended. -/
def publishing : Law where
  inv := Provided R P
  rel := ExportKept R P
  refl s e he hparses := ⟨e, he, .refl e, hparses⟩
  trans h h' e he hparses := by
    obtain ⟨e₂, he₂, hext, hparses₂⟩ := h e he hparses
    obtain ⟨e₃, he₃, hext', hparses₃⟩ := h' e₂ he₂ hparses₂
    exact ⟨e₃, he₃, hext.trans hext', hparses₃⟩

/-- The reconciler of the APIExport starts at any time. -/
def exportStarts (_ : Store) (p : Prog api (Except Error Unit)) : Prop :=
  ∃ order, p = (R.exportReconcile order).run

variable {R P}

theorem published_rely_of_ensureExport {available : List String} {claimed : List ClaimKey}
    {s s' : Store} {r : Except ApiError Unit}
    (havailable : ∀ x ∈ available, ∃ gr, groupResource? R.libs x = some gr ∧ P gr)
    (h : Does (.ensureExport R.apiExportName
      (createAPIExportReconciler R.libs available claimed R.agentName)) s r s') :
    (publishing R P).environment.rely s s' := by
  rcases h.state with rfl | rfl
  · exact (publishing R P).environment.refl _
  · refine ⟨fun hs => hs, fun e he hparses => ?_⟩
    refine ⟨createAPIExportReconciler R.libs available claimed R.agentName e, by
      simp [exec, he], ?_⟩
    exact createAPIExportReconciler_extends hparses havailable

/-- In every run of the reconciler, whatever happens to the PublishedResources in between: the
APIExport keeps every group and resource, every schema whose group and resource no PublishedResource
provides, and every permission claim. -/
theorem never_withdrawn {s s' : Store} {ps : List (Prog api (Except Error Unit))}
    (h : Pool.Reaches (publishing R P).environment (exportStarts R) (s, []) (s', ps))
    (hs : Provided R P s) {e : APIExport} (he : s.exports.get? R.apiExportName = some e)
    (hparses : e.Parses R.libs) :
    ∃ e', s'.exports.get? R.apiExportName = some e' ∧ e.Extends R.libs P e' ∧
      e'.Parses R.libs := by
  have hrely : (publishing R P).environment.rely s s' := by
    refine (Pool.Reaches.keeps (G := (publishing R P).guarantee fun _ _ => True)
      (F := (publishing R P).environment) ?_ ?_ ?_ ?_ ?_ h (.nil hs)).2
    · exact fun s s' _ hr => hr
    · exact fun c s r s' _ hbefore hd => (hbefore r s' hd).1
    · exact fun c s r s' hd => hd
    · exact fun s s' hinv hr => hr.1 hinv
    · rintro s p hinv ⟨order, rfl⟩
      refine Prog.Keeps.mono (exportReconcile_keeps (fun _ => trivial)
        (fun x _ => ∀ gr, groupResource? R.libs x = some gr → P gr) ?_ ?_ ?_ hinv)
        fun _ _ _ => trivial
      · exact fun s hs name pr hpr hne gr hgr => hs name pr hpr hne gr hgr
      · exact fun name s s' hgood _ => hgood
      · intro available claimed s _ havailable r s' hd
        refine ⟨published_rely_of_ensureExport (fun x hx => ?_) hd, trivial⟩
        obtain ⟨hP, gr, hgr⟩ := havailable x hx
        exact ⟨gr, hgr, hP gr hgr⟩
  exact hrely.2 e he hparses

end Withdrawn

/-! A sample: the schema of CronTabs is replaced by a new one. -/

/-- The configuration of the sample; the checksum of every CRD is the same text. -/
def sampleConfig : Config where
  libs := ⟨.insertion, compare, id, id⟩
  hash _ := "0a1b2c3d4e"
  convert crd := .ok { crd.spec with conversion := none }
  prFilter _ := true
  apiExportName := "example.com"
  agentName := "agent"

def sampleResource : PublishedResource where
  name := "publish-crontabs"
  rules := { resource := { apiGroup := "example.com", kind := "CronTab" } }
  resourceSchemaName := "v0a1b2c3d.crontabs.example.com"

def sampleSchemas : SortedMap String APIResourceSchema :=
  SortedMap.insert ∅ "v0a1b2c3d.crontabs.example.com"
    { name := "v0a1b2c3d.crontabs.example.com"
      spec := ⟨"example.com", ⟨"crontabs", "crontab", "CronTab", "CronTabList", [], []⟩,
        .namespaceScoped, [], none⟩ }

def sampleExport : APIExport where
  latestResourceSchemas := ["v1.crontabs.example.com", "v7.widgets.other.org"]
  permissionClaims := [{ group := "", resource := "secrets", all := true, identityHash := "h" }]

def sampleStore : Store where
  published := SortedMap.insert ∅ "publish-crontabs" sampleResource
  schemas := sampleSchemas
  exports := SortedMap.insert ∅ "example.com" sampleExport

def sampleOrder : Config.SetOrder where
  list l := l.dedup
  perm _ := .refl _

/-- Requests that go through. -/
def execSample (c : api.Call) (s : Store) : Option (api.Resp c × Store) :=
  some (execWith (fun _ => .ok sampleCrd) c s)

theorem does_of_execSample {c : api.Call} {s s' : Store} {r : api.Resp c}
    (h : execSample c s = some (r, s')) : Does c s r s' := does_of_execWith (Option.some.inj h)

theorem never_withdrawn_sample : ∃ s' e',
    Pool.Reaches (publishing sampleConfig (· = ⟨"example.com", "crontabs"⟩)).environment
      (exportStarts sampleConfig) (sampleStore, []) (s', []) ∧
    s'.exports.get? "example.com" = some e' ∧
    sampleExport.Extends sampleConfig.libs (· = ⟨"example.com", "crontabs"⟩) e' := by
  have hisSome : ((sampleConfig.exportReconcile sampleOrder).run.evalSome execSample
      sampleStore).isSome = true := by decide +kernel
  obtain ⟨⟨a, s'⟩, heval⟩ := Option.isSome_iff_exists.mp hisSome
  have hreaches : Pool.Reaches
      (publishing sampleConfig (· = ⟨"example.com", "crontabs"⟩)).environment
      (exportStarts sampleConfig) (sampleStore, []) (s', []) :=
    .evalSome (fun _ _ _ _ => does_of_execSample) ⟨sampleOrder, rfl⟩ heval
  have hprovided : Provided sampleConfig (· = ⟨"example.com", "crontabs"⟩) sampleStore := by
    intro name pr hpr _ gr hgr
    simp only [sampleStore, SortedMap.get?_insert] at hpr
    split at hpr
    · cases hpr
      have hsome : groupResource? sampleConfig.libs sampleResource.resourceSchemaName =
          some ⟨"example.com", "crontabs"⟩ := by decide +kernel
      exact (Option.some.inj (hsome.symm.trans hgr)).symm
    · cases hpr
  have hparses : sampleExport.Parses sampleConfig.libs := by
    intro x hx
    rw [← Option.isSome_iff_exists]
    revert x
    decide +kernel
  obtain ⟨e', he', hext, -⟩ := never_withdrawn hreaches hprovided (by simp [sampleStore,
    sampleConfig]) hparses
  exact ⟨s', e', hreaches, he', hext⟩

/-! ### The schemas that are referred to exist -/

/-- Every schema that the status of a PublishedResource names is there. -/
structure Consistent (s : Store) : Prop where
  exist : ∀ name pr, s.published.get? name = some pr → pr.resourceSchemaName ≠ "" →
    ∃ ars, s.schemas.get? pr.resourceSchemaName = some ars
  keyed : ∀ name ars, s.schemas.get? name = some ars → ars.name = name

/-- A schema at a later time: it may be a new version, but it is not gone. -/
def Later (name : String) (ars : APIResourceSchema) (s : Store) : Prop :=
  ∃ ars', s.schemas.get? name = some ars' ∧ ars.resourceVersion ≤ ars'.resourceVersion ∧
    (ars.resourceVersion = ars'.resourceVersion → ars' = ars)

/-- No schema is gone. -/
def SchemasKept (s s' : Store) : Prop :=
  ∀ name ars, s.schemas.get? name = some ars → Later name ars s'

theorem Later.kept {name : String} {ars : APIResourceSchema} {s s' : Store} (h : Later name ars s)
    (hkept : SchemasKept s s') : Later name ars s' := by
  obtain ⟨ars₁, h₁, hle₁, heq₁⟩ := h
  obtain ⟨ars₂, h₂, hle₂, heq₂⟩ := hkept name ars₁ h₁
  refine ⟨ars₂, h₂, hle₁.trans hle₂, fun heq => ?_⟩
  have hsame : ars.resourceVersion = ars₁.resourceVersion := by omega
  rw [heq₂ (by omega), heq₁ hsame]

theorem SchemasKept.refl (s : Store) : SchemasKept s s :=
  fun _ ars h => ⟨ars, h, le_refl _, fun _ => rfl⟩

def naming : Law where
  inv := Consistent
  rel := SchemasKept
  refl := .refl
  trans h h' name ars hars := (h name ars hars).kept h'

/-- What a request of the controllers does no harm to: the specification of a schema stays as it is,
and a schema that is added to an APIExport is there. -/
structure Harmless (s s' : Store) : Prop where
  specs : ∀ name ars, s.schemas.get? name = some ars →
    ∃ ars', s'.schemas.get? name = some ars' ∧ ars'.spec = ars.spec
  added : ∀ name e', s'.exports.get? name = some e' → ∀ x ∈ e'.latestResourceSchemas,
    x ∉ ((s.exports.get? name).getD {}).latestResourceSchemas → ∃ ars, s'.schemas.get? x = some ars

theorem Harmless.of_schemas {s s' : Store} (hschemas : s'.schemas = s.schemas)
    (hadded : ∀ name e', s'.exports.get? name = some e' → ∀ x ∈ e'.latestResourceSchemas,
      x ∉ ((s.exports.get? name).getD {}).latestResourceSchemas →
      ∃ ars, s.schemas.get? x = some ars) : Harmless s s' :=
  ⟨fun name ars h => ⟨ars, by rw [hschemas, h], rfl⟩, fun name e' he x hx hnew => by
    rw [hschemas]
    exact hadded name e' he x hx hnew⟩

theorem Harmless.of_exports {s s' : Store} (hexports : s'.exports = s.exports)
    (hspecs : ∀ name ars, s.schemas.get? name = some ars →
      ∃ ars', s'.schemas.get? name = some ars' ∧ ars'.spec = ars.spec) : Harmless s s' :=
  ⟨hspecs, fun name e' he x hx hnew => by
    rw [hexports] at he
    rw [he] at hnew
    exact absurd hx hnew⟩

theorem Harmless.refl (s : Store) : Harmless s s :=
  .of_exports rfl fun _ ars h => ⟨ars, h, rfl⟩

/-- The rule for a request that puts a schema under its name. -/
theorem naming_of_insert {s : Store} (ars : APIResourceSchema)
    (hspec : ∀ cur, s.schemas.get? ars.name = some cur → ars.spec = cur.spec ∧
      cur.resourceVersion < ars.resourceVersion) :
    naming.environment.rely s { s with schemas := s.schemas.insert ars.name ars } ∧
      Harmless s { s with schemas := s.schemas.insert ars.name ars } := by
  have hget : ∀ name cur, s.schemas.get? name = some cur →
      ∃ next, (s.schemas.insert ars.name ars).get? name = some next ∧ next.spec = cur.spec ∧
        cur.resourceVersion ≤ next.resourceVersion ∧
        (cur.resourceVersion = next.resourceVersion → next = cur) := by
    intro name cur hcur
    rw [SortedMap.get?_insert]
    split
    · next hname =>
      subst hname
      obtain ⟨hsame, hlt⟩ := hspec cur hcur
      exact ⟨ars, rfl, hsame, hlt.le, fun heq => by omega⟩
    · exact ⟨cur, hcur, rfl, le_refl _, fun _ => rfl⟩
  refine ⟨⟨fun hs => ⟨fun name pr hpr hne => ?_, fun name a ha => ?_⟩, fun name cur hcur => ?_⟩, ?_⟩
  · obtain ⟨cur, hcur⟩ := hs.exist name pr hpr hne
    obtain ⟨next, hnext, -⟩ := hget _ cur hcur
    exact ⟨next, hnext⟩
  · rw [SortedMap.get?_insert] at ha
    split at ha
    · next hname =>
      cases ha
      exact hname.symm
    · exact hs.keyed name a ha
  · obtain ⟨next, hnext, -, hlater⟩ := hget name cur hcur
    exact ⟨next, hnext, hlater⟩
  · refine .of_exports rfl fun name cur hcur => ?_
    obtain ⟨next, hnext, hsame, -⟩ := hget name cur hcur
    exact ⟨next, hnext, hsame⟩

theorem naming_of_createSchema {s s' : Store} {r : Except ApiError Unit} {ars : APIResourceSchema}
    (h : Does (.createSchema ars) s r s') :
    naming.environment.rely s s' ∧ Harmless s s' := by
  rcases h.state with rfl | rfl
  · exact ⟨naming.environment.refl _, .refl _⟩
  · simp only [exec]
    split
    · exact ⟨naming.environment.refl _, .refl _⟩
    · next hnone => exact naming_of_insert ars fun cur hcur => by rw [hnone] at hcur; cases hcur

/-- The update of a schema that was read before: if it goes through, the schema has not changed
since, so only its metadata changes. -/
theorem naming_of_updateSchema {R : Config} {s s' : Store} {r : Except ApiError Unit}
    {ars : APIResourceSchema} (hlater : Later ars.name ars s)
    (h : Does (.updateSchema (R.fixAgentName ars)) s r s') :
    naming.environment.rely s s' ∧ Harmless s s' := by
  rcases h.state with rfl | rfl
  · exact ⟨naming.environment.refl _, .refl _⟩
  · obtain ⟨cur, hcur, -, heq⟩ := hlater
    have hcur' : s.schemas.get? (R.fixAgentName ars).name = some cur := hcur
    simp only [exec, hcur']
    split
    · exact ⟨naming.environment.refl _, .refl _⟩
    · next hversion =>
      obtain rfl := heq (not_not.mp hversion)
      let next := { R.fixAgentName cur with resourceVersion := cur.resourceVersion + 1 }
      refine naming_of_insert next fun cur' h' => ?_
      obtain rfl : cur = cur' := Option.some.inj (hcur.symm.trans h')
      exact ⟨rfl, Nat.lt_succ_self _⟩

theorem naming_of_patchStatus {s s' : Store} {r : Except ApiError Unit} {name schemaName : String}
    {ars : APIResourceSchema} (hars : s.schemas.get? schemaName = some ars)
    (h : Does (.patchStatus name schemaName) s r s') :
    naming.environment.rely s s' ∧ Harmless s s' := by
  rcases h.state with rfl | rfl
  · exact ⟨naming.environment.refl _, .refl _⟩
  · simp only [exec]
    split
    · exact ⟨naming.environment.refl _, .refl _⟩
    · next cur hcur =>
      refine ⟨⟨fun hs => ⟨fun n pr hpr hne => ?_, hs.keyed⟩, .refl s⟩,
        .of_exports rfl fun _ a ha => ⟨a, ha, rfl⟩⟩
      rw [SortedMap.get?_insert] at hpr
      split at hpr
      · cases hpr
        exact ⟨ars, hars⟩
      · exact hs.exist n pr hpr hne

theorem naming_of_ensureExport {R : Config} {s s' : Store} {r : Except ApiError Unit}
    {available : List String} {claimed : List ClaimKey}
    (havailable : ∀ x ∈ available, ∃ ars, s.schemas.get? x = some ars)
    (h : Does (.ensureExport R.apiExportName
      (createAPIExportReconciler R.libs available claimed R.agentName)) s r s') :
    naming.environment.rely s s' ∧ Harmless s s' := by
  rcases h.state with rfl | rfl
  · exact ⟨naming.environment.refl _, .refl _⟩
  · refine ⟨⟨fun hs => ⟨hs.exist, hs.keyed⟩, .refl s⟩,
      .of_schemas rfl fun name e' he x hx hnew => ?_⟩
    simp only [exec, SortedMap.get?_insert] at he
    split at he
    · next hname =>
      subst hname
      cases he
      rcases mem_or_of_mem_merge hx with hx | hx
      · exact havailable x hx
      · exact absurd hx hnew
    · rw [he] at hnew
      exact absurd hx hnew

theorem Does.schema {name : String} {s s' : Store} {ars : APIResourceSchema}
    (h : Does (.getSchema name) s (.ok ars) s') : s.schemas.get? name = some ars := by
  rcases h with h | ⟨⟨e, he⟩, -⟩ | ⟨⟨gk, hgk⟩, -⟩
  · simp only [exec] at h
    cases hget : s.schemas.get? name with
    | none =>
      rw [hget] at h
      cases h
    | some ars' =>
      rw [hget] at h
      cases h
      rfl
  · cases he
  · cases hgk

theorem Does.created {ars : APIResourceSchema} {s s' : Store}
    (h : Does (.createSchema ars) s (.ok ()) s') : s'.schemas.get? ars.name = some ars := by
  rcases h with h | ⟨⟨e, he⟩, -⟩ | ⟨⟨gk, hgk⟩, -⟩
  · simp only [exec] at h
    split at h
    · cases h
    · cases h
      simp
  · cases he
  · cases hgk

theorem name_of_create {convert : Crd → Except Error SchemaSpec} {crd : Crd}
    {name agentName : String}
    {ars : APIResourceSchema} (h : createAPIResourceSchema convert crd name agentName = .ok ars) :
    ars.name = name := by
  unfold createAPIResourceSchema at h
  split at h
  · cases h
  · cases h
    rfl

theorem stable_exists (name : String) :
    naming.Stable fun s => Consistent s ∧ ∃ ars, s.schemas.get? name = some ars :=
  naming.stable_inv.and fun s s' ⟨ars, hars⟩ hkept => by
    obtain ⟨ars', hars', -⟩ := hkept name ars hars
    exact ⟨ars', hars'⟩

section Reconcile

variable {R : Config} {s : Store}

theorem ensureSchema_keeps (projectedCRD : Crd) (arsName : String) (hs : Consistent s) :
    Fallible.Keeps naming.environment (naming.guarantee Harmless)
      (R.ensureSchema projectedCRD arsName)
      (fun _ s' => Consistent s' ∧ ∃ ars, s'.schemas.get? arsName = some ars) Consistent s := by
  have hinv := naming.stable_inv
  refine .seq (Law.attempt_keeps .refl hinv (c := .getSchema arsName) trivial hs) fun r s₁ h₁ => ?_
  split
  · have hnew : Fallible.Keeps naming.environment (naming.guarantee Harmless)
        (wrapE "failed to construct APIResourceSchema"
          (createAPIResourceSchema R.convert projectedCRD arsName R.agentName))
        (fun ars s' => Consistent s' ∧ ars.name = arsName) Consistent s₁ :=
      Law.wrapE_keeps hinv h₁.1 fun ars hars => ⟨h₁.1, name_of_create hars⟩
    refine .seq hnew fun ars s₂ h₂ => ?_
    refine (Law.write_keeps hinv _ h₂.1 fun s₃ _ r s' hd => naming_of_createSchema hd).mono
      ?_ fun _ h => h
    rintro u s₄ ⟨hs₄, s₃, -, hd⟩
    exact ⟨hs₄, ars, h₂.2 ▸ hd.created⟩
  · exact .throw h₁.1
  · next ars =>
    have hars : s₁.schemas.get? arsName = some ars := h₁.2.schema
    split
    · exact .pure ⟨h₁.1, ars, hars⟩
    · -- The schema that is written may be out of date, but then the server refuses it.
      have hname : ars.name = arsName := h₁.1.keyed arsName ars hars
      have hlater : Later ars.name ars s₁ := ⟨ars, hname ▸ hars, le_refl _, fun _ => rfl⟩
      have hJ : naming.Stable fun s => (Consistent s ∧ ∃ a, s.schemas.get? arsName = some a) ∧
          Later ars.name ars s :=
        (stable_exists arsName).and fun s s' h hkept => h.kept hkept
      refine (Law.write_keeps hJ _ ⟨⟨h₁.1, ars, hars⟩, hlater⟩ fun s₂ h₂ r s' hd =>
        naming_of_updateSchema h₂.2 hd).mono (fun _ _ h => h.1.1) fun _ h => h

theorem reconcileSchema_keeps (pubResource : PublishedResource) (hs : Consistent s) :
    Fallible.Keeps naming.environment (naming.guarantee Harmless) (R.reconcileSchema pubResource)
      (fun _ => Consistent) Consistent s := by
  refine .seq
    (.mapError (Law.projectPublishedResource_keeps .refl naming.stable_inv R pubResource hs))
    fun crd s₁ h₁ => ?_
  refine .seq (ensureSchema_keeps crd _ h₁) fun u s₂ h₂ => ?_
  split
  · refine (Law.write_keeps (stable_exists _) _ h₂ fun s₃ h₃ r s' hd => ?_).mono
      (fun _ _ h => h.1.1) fun _ h => h
    obtain ⟨ars, hars⟩ := h₃.2
    exact naming_of_patchStatus hars hd
  · exact .pure h₂.1

theorem schemaReconcile_keeps (name : String) (hs : Consistent s) :
    Fallible.Keeps naming.environment (naming.guarantee Harmless) (R.schemaReconcile name)
      (fun _ => Consistent) Consistent s := by
  refine .seq
    (Law.attempt_keeps .refl naming.stable_inv (c := .getPublishedResource name) trivial hs)
    fun r s₁ h₁ => ?_
  split
  · exact .pure h₁.1
  · exact .throw h₁.1
  · split
    · exact .pure h₁.1
    · exact reconcileSchema_keeps _ h₁.1

end Reconcile

/-- What the other parties do: they delete no schemas and edit no status. -/
structure OthersKeep (s s' : Store) : Prop where
  schemas : SchemasKept s s'
  keyed : (∀ name ars, s.schemas.get? name = some ars → ars.name = name) →
    ∀ name ars, s'.schemas.get? name = some ars → ars.name = name
  statuses : ∀ name pr', s'.published.get? name = some pr' → pr'.resourceSchemaName ≠ "" →
    ∃ pr, s.published.get? name = some pr ∧ pr.resourceSchemaName = pr'.resourceSchemaName

def schemaEnvironment : Environment api Store where
  rely := OthersKeep
  refl s := ⟨.refl s, id, fun _ pr hpr _ => ⟨pr, hpr, rfl⟩⟩
  trans h h' := {
    schemas := fun name ars hars => (h.schemas name ars hars).kept h'.schemas
    keyed := h'.keyed ∘ h.keyed
    statuses := fun name pr₃ hpr₃ hne => by
      obtain ⟨pr₂, hpr₂, heq₂⟩ := h'.statuses name pr₃ hpr₃ hne
      obtain ⟨pr₁, hpr₁, heq₁⟩ := h.statuses name pr₂ hpr₂ (heq₂ ▸ hne)
      exact ⟨pr₁, hpr₁, heq₁.trans heq₂⟩ }
  does := Does

theorem OthersKeep.consistent {s s' : Store} (h : OthersKeep s s') (hs : Consistent s) :
    Consistent s' := by
  refine ⟨fun name pr' hpr' hne => ?_, h.keyed hs.keyed⟩
  obtain ⟨pr, hpr, heq⟩ := h.statuses name pr' hpr' hne
  obtain ⟨ars, hars⟩ := hs.exist name pr hpr (heq ▸ hne)
  obtain ⟨ars', hars', -⟩ := h.schemas _ ars hars
  exact ⟨ars', heq ▸ hars'⟩

/-- Both controllers start at any time. -/
def starts (R : Config) (_ : Store) (p : Prog api (Except Error Unit)) : Prop :=
  (∃ name, p = (R.schemaReconcile name).run) ∨ ∃ order, p = (R.exportReconcile order).run

/-- In every interleaving of the two controllers, with any failing request: every schema that a
status names exists, and whatever request a controller makes next, it changes the specification of
no schema and adds only schemas that exist to an APIExport. -/
theorem schemas_exist {R : Config} {s s' : Store} {ps : List (Prog api (Except Error Unit))}
    (h : Pool.Reaches schemaEnvironment (starts R) (s, []) (s', ps)) (hs : Consistent s) :
    Consistent s' ∧ ∀ c k, Prog.call c k ∈ ps → ∀ r s'', Does c s' r s'' → Harmless s' s'' := by
  have hkept : Pool.Kept naming.environment (naming.guarantee Harmless) (s', ps) := by
    refine (Pool.Reaches.keeps ?_ ?_ ?_ ?_ ?_ h (.nil hs)).1
    · exact fun s s' _ hr => ⟨hr.consistent, hr.schemas⟩
    · exact fun c s r s' _ hbefore hd => (hbefore r s' hd).1
    · exact fun c s r s' hd => hd
    · exact fun s s' hinv hr => hr.1 hinv
    · rintro s p hinv (⟨name, rfl⟩ | ⟨order, rfl⟩)
      · exact Prog.Keeps.mono (schemaReconcile_keeps name hinv) fun _ _ _ => trivial
      · refine Prog.Keeps.mono (exportReconcile_keeps .refl
          (fun x s => ∃ ars, s.schemas.get? x = some ars) ?_ ?_ ?_ hinv) fun _ _ _ => trivial
        · exact fun s hs name pr hpr hne => hs.exist name pr hpr hne
        · rintro name s s' ⟨ars, hars⟩ hkept
          obtain ⟨ars', hars', -⟩ := hkept name ars hars
          exact ⟨ars', hars'⟩
        · exact fun available claimed s _ havailable r s' hd =>
            naming_of_ensureExport (fun x hx => (havailable x hx).1) hd
  refine ⟨hkept.1, fun c k hmem r s'' hd => ?_⟩
  exact ((hkept.2 _ hmem s' (naming.environment.refl s')).1 r s'' hd).2

/-- Nothing is published yet. -/
def unpublishedStore : Store where
  published :=
    SortedMap.insert ∅ "publish-crontabs" { sampleResource with resourceSchemaName := "" }
  schemas := ∅
  exports := SortedMap.insert ∅ "example.com" sampleExport

/-- The first controller creates the schema and puts its name into the status, and the second one is
about to add it to the APIExport. -/
theorem schemas_exist_sample : ∃ s' name reconciler k,
    Pool.Reaches schemaEnvironment (starts sampleConfig) (unpublishedStore, [])
      (s', [.call (.ensureExport name reconciler) k]) ∧
    (∃ pr ars, s'.published.get? "publish-crontabs" = some pr ∧
      s'.schemas.get? pr.resourceSchemaName = some ars) ∧
    Consistent s' ∧ ∀ r s'', Does (.ensureExport name reconciler) s' r s'' → Harmless s' s'' := by
  have hconsistent : Consistent unpublishedStore := by
    refine ⟨fun name pr hpr hne => ?_, fun name ars hars => by cases hars⟩
    simp only [unpublishedStore, SortedMap.get?_insert] at hpr
    split at hpr
    · cases hpr
      exact absurd rfl hne
    · cases hpr
  -- the whole run by evaluation: one controller up to its end, the other one up to its last request
  have heval : ((sampleConfig.schemaReconcile "publish-crontabs").run.evalSome execSample
      unpublishedStore).any (fun result => ((sampleConfig.exportReconcile sampleOrder).run.steps
        execSample 2 result.2).any fun q => match q.1 with
          | .call (.ensureExport _ _) _ => (q.2.published.get? "publish-crontabs").any fun pr =>
              (q.2.schemas.get? pr.resourceSchemaName).isSome
          | _ => false) = true := by decide +kernel
  obtain ⟨⟨result, s₁⟩, hfirst, heval⟩ := (Option.any_eq_true _ _).mp heval
  obtain ⟨⟨p, s'⟩, hsteps, htest⟩ := (Option.any_eq_true _ _).mp heval
  have hreaches : Pool.Reaches schemaEnvironment (starts sampleConfig) (unpublishedStore, [])
      (s', [p]) :=
    .trans (Pool.Reaches.evalSome (fun _ _ _ _ => does_of_execSample) (.inl ⟨_, rfl⟩) hfirst)
      (Pool.Reaches.steps (fun _ _ _ _ => does_of_execSample)
        (.single (.start (.inr ⟨_, rfl⟩))) hsteps)
  obtain ⟨hkept, hcalls⟩ := schemas_exist hreaches hconsistent
  split at htest
  · next name reconciler k heq =>
    obtain rfl : p = .call (.ensureExport name reconciler) k := heq
    obtain ⟨pr, hpr, hsome⟩ := (Option.any_eq_true _ _).mp htest
    obtain ⟨ars, hars⟩ := Option.isSome_iff_exists.mp hsome
    exact ⟨s', name, reconciler, k, hreaches, ⟨pr, ars, hpr, hars⟩, hkept,
      hcalls _ _ (List.mem_singleton.mpr rfl)⟩
  · cases htest

end ApiExport
