import SyncAgent.Sync.PublishedResource

/-! The names of local objects (`internal/sync/templating/naming.go`) and the creation of local
objects from remote ones (`newLocalObjectCreator` in `syncer.go`). -/

namespace Sync

open Kube

structure NamespacedName where
  ns : String
  name : String
deriving DecidableEq

/-- The data of a naming template. -/
def newLocalObjectNamingContext (object : Unstructured) (clusterName workspacePath : String) :
    Fields :=
  SortedMap.ofOptions [
    ("ClusterName", some (.str clusterName)),
    ("ClusterPath", some (.str workspacePath)),
    ("Object", some (.obj object.toFields))]
    (show List.Pairwise (· < ·) ["ClusterName", "ClusterPath", "Object"] by decide)

def defaultNamingScheme : ResourceNaming where
  ns := "\x7b\x7b .ClusterName \x7d\x7d"
  name := "\x7b\x7b .Object.metadata.namespace | sha3short \x7d\x7d-" ++
    "\x7b\x7b .Object.metadata.name | sha3short \x7d\x7d"

/-- `strings.NewReplacer(pairs).Replace`: at each place the first pair that matches is used. -/
def replaceAll (pairs : List (List Char × List Char)) : Nat → List Char → List Char
  | 0, s => s
  | _, [] => []
  | fuel + 1, c :: rest =>
    match pairs.find? fun p => p.1.isPrefixOf (c :: rest) with
    | some p => p.2 ++ replaceAll pairs fuel ((c :: rest).drop p.1.length)
    | none => c :: replaceAll pairs fuel rest

variable (hash : Hash) (engine : GoTemplate.Engine)

def generateLocalObjectIdentifier (pattern : String) (object : Unstructured)
    (clusterName workspacePath : String) : Except Error String :=
  if contains pattern "\x7b\x7b" then
    renderTemplate engine pattern (newLocalObjectNamingContext object clusterName workspacePath)
  else
    -- the legacy variables; a variable stands before those it starts with
    let pairs := [("$remoteClusterName", clusterName),
      ("$remoteNamespaceHash", shortHash hash (.text object.metadata.ns)),
      ("$remoteNamespace", object.metadata.ns),
      ("$remoteNameHash", shortHash hash (.text object.metadata.name)),
      ("$remoteName", object.metadata.name)]
    .ok (String.ofList (replaceAll (pairs.map fun p => (p.1.toList, p.2.toList))
      pattern.toList.length pattern.toList))

def generateLocalObjectName (pr : PublishedResource) (object : Unstructured)
    (clusterName workspacePath : String) : Except Error NamespacedName :=
  let naming := pr.naming.getD {}
  let identifier (pattern default : String) :=
    generateLocalObjectIdentifier hash engine (if pattern = "" then default else pattern) object
      clusterName workspacePath
  match identifier naming.ns defaultNamingScheme.ns with
  | .error e => .error (.wrapped "invalid namespace naming" e)
  | .ok ns =>
    match identifier naming.name defaultNamingScheme.name with
    | .error e => .error (.wrapped "invalid name naming" e)
    | .ok name => .ok { ns, name }

/-- The local object for a remote one: the local type, and the generated name for the scope of the
local CRD. -/
def newLocalObjectCreator (pr : PublishedResource) (destType : TypeMeta) (destScope : ResourceScope)
    (clusterName workspacePath : String) (remoteObj : Unstructured) : Except Error Unstructured :=
  match generateLocalObjectName hash engine pr remoteObj clusterName workspacePath with
  | .error e => .error (.wrapped "failed to generate local object name" e)
  | .ok mappedName =>
    let destObj := { remoteObj with typeMeta := destType }
    match destScope with
    | .clusterScoped =>
      .ok { destObj with metadata := { destObj.metadata with ns := "", name := mappedName.name } }
    | .namespaceScoped =>
      .ok { destObj with
        metadata := { destObj.metadata with ns := mappedName.ns, name := mappedName.name } }

/-! ### The default names -/

section Default

variable (sha : Sha3) (print : Doc → String) (other : String → Fields → Except String String)

theorem parse_default_ns : GoTemplate.parse defaultNamingScheme.ns =
    some [.text [], .action ["ClusterName"] [], .text []] := by
  decide +kernel

theorem parse_default_name : GoTemplate.parse defaultNamingScheme.name =
    some [.text [], .action ["Object", "metadata", "namespace"] ["sha3short"], .text ['-'],
      .action ["Object", "metadata", "name"] ["sha3short"], .text []] := by
  decide +kernel

/-- `sha3short` without a length. -/
def short (s : String) : String := String.ofList ((sha.sum s).toList.take 20)

theorem sha3short_nil (s : String) : sha3short sha s [] = .ok (short sha s) := rfl

theorem length_short (s : String) : (short sha s).toList.length = 20 := by
  simp [short, sha.length_sum]

theorem isSpace_short {s : String} {c : Char} (h : c ∈ (short sha s).toList) :
    GoTemplate.isSpace c = false := by
  have hmem : c ∈ (sha.sum s).toList := by
    simp only [short, String.toList_ofList] at h
    exact List.mem_of_mem_take h
  -- `List.all`, since a quantifier over `Char` can be decided by running over the whole type
  have hhex : ("0123456789abcdef".toList.all fun c => !GoTemplate.isSpace c) = true := by decide
  simpa using List.all_eq_true.mp hhex c (sha.hex_sum s c hmem)

theorem evalChain_object (o : Unstructured) (clusterName path field : String) :
    GoTemplate.evalChain (newLocalObjectNamingContext o clusterName path)
        ["Object", "metadata", field] = GoTemplate.walk (.obj o.metadata.toFields) [field] := by
  have hcontext : (newLocalObjectNamingContext o clusterName path).get? "Object" =
      some (.obj o.toFields) := by
    simp [newLocalObjectNamingContext, Assoc.get?]
  have hmeta : o.toFields.get? "metadata" = some (.obj o.metadata.toFields) := by
    simp [Unstructured.toFields]
  simp only [GoTemplate.evalChain, hcontext]
  rw [GoTemplate.walk, Doc.fields?_obj]
  simp only [hmeta]

theorem walk_metadata {m : ObjectMeta} {field value : String}
    (h : m.toFields.get? field = Codec.string.encode value) :
    GoTemplate.walk (.obj m.toFields) [field] =
      .ok (if value = "" then none else some (.str value)) := by
  rw [GoTemplate.walk, Doc.fields?_obj]
  by_cases hv : value = ""
  · simp [h, hv, Codec.string]
  · simp [h, hv, Codec.string, GoTemplate.walk]

theorem get?_metadata_ns (m : ObjectMeta) :
    m.toFields.get? "namespace" = Codec.string.encode m.ns := by
  simp [ObjectMeta.toFields, Assoc.get?]

theorem get?_metadata_name (m : ObjectMeta) :
    m.toFields.get? "name" = Codec.string.encode m.name := by
  simp [ObjectMeta.toFields, Assoc.get?]

theorem render_default_ns (o : Unstructured) (clusterName path : String) :
    GoTemplate.render (templateEngine sha print other) defaultNamingScheme.ns
      (newLocalObjectNamingContext o clusterName path) = .ok clusterName := by
  have hcontext : (newLocalObjectNamingContext o clusterName path).get? "ClusterName" =
      some (.str clusterName) := by
    simp [newLocalObjectNamingContext, Assoc.get?]
  simp [GoTemplate.render, parse_default_ns, GoTemplate.evalNodes, GoTemplate.evalNode,
    GoTemplate.evalChain, GoTemplate.walk, hcontext, GoTemplate.applyFuncs, GoTemplate.printValue,
    Except.map]

theorem render_default_name (o : Unstructured) (clusterName path : String)
    (hname : o.metadata.name ≠ "") :
    GoTemplate.render (templateEngine sha print other) defaultNamingScheme.name
        (newLocalObjectNamingContext o clusterName path) =
      if o.metadata.ns = "" then .error "invalid value; expected string"
      else .ok (short sha o.metadata.ns ++ "-" ++ short sha o.metadata.name) := by
  have hfunc : ["sha3short"].mapM (templateEngine sha print other).func =
      some [fun s => sha3short sha s []] := by simp [templateEngine]
  by_cases hns : o.metadata.ns = ""
  · simp [GoTemplate.render, parse_default_name, GoTemplate.evalNodes, GoTemplate.evalNode, hfunc,
      evalChain_object, walk_metadata (get?_metadata_ns _), walk_metadata (get?_metadata_name _),
      hname, hns, GoTemplate.applyFuncs, GoTemplate.applyFunc, sha3short_nil, Except.map]
  · simp [GoTemplate.render, parse_default_name, GoTemplate.evalNodes, GoTemplate.evalNode, hfunc,
      evalChain_object, walk_metadata (get?_metadata_ns _), walk_metadata (get?_metadata_name _),
      hname, hns, GoTemplate.applyFuncs, GoTemplate.applyFunc, sha3short_nil, Except.map,
      GoTemplate.printValue, String.append_assoc]

theorem trimSpace_name (a b : String) :
    GoTemplate.trimSpace (short sha a ++ "-" ++ short sha b) =
      short sha a ++ "-" ++ short sha b := by
  have hchars : (short sha a ++ "-" ++ short sha b).toList =
      (short sha a).toList ++ '-' :: (short sha b).toList := by simp
  have hne : ∀ s, (short sha s).toList ≠ [] := by
    intro s h
    have := length_short sha s
    simp [h] at this
  unfold GoTemplate.trimSpace
  rw [GoTemplate.trimList_eq_self, String.ofList_toList]
  · intro c hc
    rw [hchars, List.head?_append_of_ne_nil _ (hne a)] at hc
    exact isSpace_short sha (List.mem_of_mem_head? hc)
  · intro c hc
    rw [hchars, List.getLast?_append_of_ne_nil _ (by simp),
      List.getLast?_cons_of_ne_nil (hne b)] at hc
    exact isSpace_short sha (List.mem_of_mem_getLast? hc)

/-- Two generated names are equal only if the hashes of both parts are. -/
theorem name_inj {a b a' b' : String}
    (h : short sha a ++ "-" ++ short sha b = short sha a' ++ "-" ++ short sha b') :
    short sha a = short sha a' ∧ short sha b = short sha b' := by
  have hlists := congrArg String.toList h
  simp only [String.toList_append] at hlists
  obtain ⟨hleft, hright⟩ := List.append_inj hlists (by simp [length_short])
  obtain ⟨hleft, -⟩ := List.append_inj hleft (by simp [length_short])
  exact ⟨String.toList_inj.mp hleft, String.toList_inj.mp hright⟩

/-- The creation of a local object under the default names: it fails for a remote object without a
namespace. -/
theorem newLocalObjectCreator_default {pr : PublishedResource} (hpr : pr.naming.getD {} = {})
    (destType : TypeMeta) (destScope : ResourceScope) (clusterName path : String) (o : Unstructured)
    (hname : o.metadata.name ≠ "") :
    if o.metadata.ns = "" then
      ∃ e, newLocalObjectCreator hash (templateEngine sha print other) pr destType destScope
        clusterName path o = .error e
    else
      ∃ d, newLocalObjectCreator hash (templateEngine sha print other) pr destType destScope
        clusterName path o = .ok d ∧
        d.metadata.name = short sha o.metadata.ns ++ "-" ++ short sha o.metadata.name ∧
        d.metadata.ns = match destScope with
          | .clusterScoped => ""
          | .namespaceScoped => GoTemplate.trimSpace clusterName := by
  have hns : contains defaultNamingScheme.ns "\x7b\x7b" = true := by decide +kernel
  have hnm : contains defaultNamingScheme.name "\x7b\x7b" = true := by decide +kernel
  by_cases hempty : o.metadata.ns = ""
  · rw [if_pos hempty]
    simp [newLocalObjectCreator, generateLocalObjectName, hpr, generateLocalObjectIdentifier, hns,
      hnm, renderTemplate, render_default_ns, render_default_name sha print other o _ _ hname,
      hempty]
  · rw [if_neg hempty]
    cases destScope <;>
      simp [newLocalObjectCreator, generateLocalObjectName, hpr, generateLocalObjectIdentifier, hns,
        hnm, renderTemplate, render_default_ns, render_default_name sha print other o _ _ hname,
        hempty, trimSpace_name]

/-- Without naming rules, the creation of local objects succeeds for two remote objects and keeps
them apart exactly when both are namespaced and either the local objects are namespaced as well, or
the remote objects differ in their namespace or name or live in one logical cluster. -/
theorem default_names_distinct_iff {pr : PublishedResource} (hpr : pr.naming.getD {} = {})
    (destType : TypeMeta) (destScope : ResourceScope) (o₁ o₂ : Unstructured)
    (cluster₁ path₁ cluster₂ path₂ : String)
    (hname₁ : o₁.metadata.name ≠ "") (hname₂ : o₂.metadata.name ≠ "")
    (hcluster₁ : GoTemplate.trimSpace cluster₁ = cluster₁)
    (hcluster₂ : GoTemplate.trimSpace cluster₂ = cluster₂)
    (hns : short sha o₁.metadata.ns = short sha o₂.metadata.ns → o₁.metadata.ns = o₂.metadata.ns)
    (hname : short sha o₁.metadata.name = short sha o₂.metadata.name →
      o₁.metadata.name = o₂.metadata.name) :
    (∃ d₁ d₂,
      newLocalObjectCreator hash (templateEngine sha print other) pr destType destScope cluster₁
        path₁ o₁ = .ok d₁ ∧
      newLocalObjectCreator hash (templateEngine sha print other) pr destType destScope cluster₂
        path₂ o₂ = .ok d₂ ∧
      (d₁.metadata.ns = d₂.metadata.ns → d₁.metadata.name = d₂.metadata.name →
        cluster₁ = cluster₂ ∧ o₁.metadata.ns = o₂.metadata.ns ∧
          o₁.metadata.name = o₂.metadata.name)) ↔
    (o₁.metadata.ns ≠ "" ∧ o₂.metadata.ns ≠ "") ∧
      (destScope = .namespaceScoped ∨ cluster₁ = cluster₂ ∨
        ¬ (o₁.metadata.ns = o₂.metadata.ns ∧ o₁.metadata.name = o₂.metadata.name)) := by
  have h₁ :=
    newLocalObjectCreator_default hash sha print other hpr destType destScope cluster₁ path₁
    o₁ hname₁
  have h₂ :=
    newLocalObjectCreator_default hash sha print other hpr destType destScope cluster₂ path₂
    o₂ hname₂
  constructor
  · rintro ⟨d₁, d₂, hd₁, hd₂, hkept⟩
    have hne₁ : o₁.metadata.ns ≠ "" := by
      intro hempty
      rw [if_pos hempty, hd₁] at h₁
      obtain ⟨e, he⟩ := h₁
      cases he
    have hne₂ : o₂.metadata.ns ≠ "" := by
      intro hempty
      rw [if_pos hempty, hd₂] at h₂
      obtain ⟨e, he⟩ := h₂
      cases he
    refine ⟨⟨hne₁, hne₂⟩, ?_⟩
    rw [if_neg hne₁, hd₁] at h₁
    rw [if_neg hne₂, hd₂] at h₂
    obtain ⟨d, hd, hn₁, hs₁⟩ := h₁
    obtain ⟨d', hd', hn₂, hs₂⟩ := h₂
    cases hd
    cases hd'
    cases destScope with
    | namespaceScoped => exact .inl rfl
    | clusterScoped =>
      refine .inr (or_iff_not_imp_right.mpr fun hsame => ?_)
      obtain ⟨hsn, hsm⟩ := not_not.mp hsame
      exact (hkept (hs₁.trans hs₂.symm) (by rw [hn₁, hn₂, hsn, hsm])).1
  · rintro ⟨⟨hne₁, hne₂⟩, hscope⟩
    rw [if_neg hne₁] at h₁
    rw [if_neg hne₂] at h₂
    obtain ⟨d₁, hd₁, hn₁, hs₁⟩ := h₁
    obtain ⟨d₂, hd₂, hn₂, hs₂⟩ := h₂
    refine ⟨d₁, d₂, hd₁, hd₂, fun hsn hsm => ?_⟩
    rw [hn₁, hn₂] at hsm
    obtain ⟨hshort, hshort'⟩ := name_inj sha hsm
    refine ⟨?_, hns hshort, hname hshort'⟩
    rcases hscope with rfl | hcluster | hdiffer
    · rw [hs₁, hs₂] at hsn
      exact hcluster₁.symm.trans (hsn.trans hcluster₂)
    · exact hcluster
    · exact absurd ⟨hns hshort, hname hshort'⟩ hdiffer

/-- A hash with two values, enough to tell the names of the examples apart. -/
def Sha3.twoValued : Sha3 where
  sum s := String.ofList (List.replicate 64 (if s = "team-a" then '0' else '1'))
  length_sum s := by simp
  hex_sum s c hc := by
    simp only [String.toList_ofList, List.mem_replicate] at hc
    rw [hc.2]
    split <;> decide

def crontabType : TypeMeta := ⟨"example.com/v1", "CronTab", by decide⟩

/-- A remote object in a namespace. -/
def crontab (ns : String) : Unstructured := ⟨crontabType, { name := "daily", ns }, default⟩

/-- Two objects of different namespaces stay apart even as cluster-scoped local objects. -/
theorem default_names_distinct_crontabs :
    ∃ d₁ d₂,
      newLocalObjectCreator .plain (templateEngine .twoValued (fun _ => "") fun _ _ => .ok "")
        ⟨"crontabs", none, []⟩ crontabType .clusterScoped "c1" "" (crontab "team-a") = .ok d₁ ∧
      newLocalObjectCreator .plain (templateEngine .twoValued (fun _ => "") fun _ _ => .ok "")
        ⟨"crontabs", none, []⟩ crontabType .clusterScoped "c2" "" (crontab "team-b") = .ok d₂ ∧
      (d₁.metadata.ns = d₂.metadata.ns → d₁.metadata.name = d₂.metadata.name →
        "c1" = "c2" ∧ "team-a" = "team-b" ∧ "daily" = "daily") :=
  (default_names_distinct_iff .plain .twoValued (fun _ => "") (fun _ _ => .ok "") rfl crontabType
    .clusterScoped (crontab "team-a") (crontab "team-b") "c1" "" "c2" "" (by decide) (by decide)
    (by decide) (by decide) (by decide +kernel) (fun _ => rfl)).mpr (by decide)

/-- As cluster-scoped local objects, equally named objects of two logical clusters become one. -/
theorem default_names_collide :
    ¬ ∃ d₁ d₂,
      newLocalObjectCreator .plain (templateEngine .twoValued (fun _ => "") fun _ _ => .ok "")
        ⟨"crontabs", none, []⟩ crontabType .clusterScoped "c1" "" (crontab "team-a") = .ok d₁ ∧
      newLocalObjectCreator .plain (templateEngine .twoValued (fun _ => "") fun _ _ => .ok "")
        ⟨"crontabs", none, []⟩ crontabType .clusterScoped "c2" "" (crontab "team-a") = .ok d₂ ∧
      (d₁.metadata.ns = d₂.metadata.ns → d₁.metadata.name = d₂.metadata.name →
        "c1" = "c2" ∧ "team-a" = "team-a" ∧ "daily" = "daily") := by
  rintro ⟨d₁, d₂, hd₁, hd₂, hkept⟩
  have h : ∀ cluster, ∃ d, newLocalObjectCreator .plain
      (templateEngine .twoValued (fun _ => "") fun _ _ => .ok "") ⟨"crontabs", none, []⟩ crontabType
      .clusterScoped cluster "" (crontab "team-a") = .ok d ∧ d.metadata.name =
        short .twoValued "team-a" ++ "-" ++ short .twoValued "daily" ∧ d.metadata.ns = "" :=
    fun cluster => newLocalObjectCreator_default .plain .twoValued (fun _ => "") (fun _ _ => .ok "")
      rfl crontabType .clusterScoped cluster "" (crontab "team-a") (by decide)
  obtain ⟨d₁', h₁, hn₁, hs₁⟩ := h "c1"
  obtain ⟨d₂', h₂, hn₂, hs₂⟩ := h "c2"
  obtain rfl : d₁ = d₁' := Except.ok.inj (hd₁.symm.trans h₁)
  obtain rfl : d₂ = d₂' := Except.ok.inj (hd₂.symm.trans h₂)
  exact absurd (hkept (hs₁.trans hs₂.symm) (hn₁.trans hn₂.symm)).1 (by decide)

end Default

end Sync
