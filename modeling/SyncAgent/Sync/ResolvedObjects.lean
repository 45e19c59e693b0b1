import SyncAgent.Sync.RelatedOutcome

/-! What the resolution of a related resource returns: for each pair of an origin and a destination
namespace, and each pair of names, the origin object if it exists.  References give lists of such
pairs, of which a map keeps one for each origin value; a selector gives the names of the objects
that it admits, rewritten for the destination side. -/

namespace Sync

open Kube

section Resolution

variable {S : Server} {L : Libraries} {origin dest : ObjectSide} {scope : Scope} {live : Bool}
  {relRes : RelatedResourceSpec} {w w' : World}

/-- An origin object that exists, with its destination. -/
structure FoundAt (L : Libraries) (origin : ObjectSide) (relRes : RelatedResourceSpec) (w : World)
    (ns name : String × String) (resolved : ResolvedObject) : Prop where
  original : ∃ gvk, L.kindFor origin.client relRes.gvr = .ok gvk ∧
    w.object? ⟨origin.client, gvk, ns.1, name.1⟩ = some resolved.original
  destination : resolved.destination = ⟨ns.2, name.2⟩

theorem foundAt_selectors {selectors : Nat → LabelSelector} {ns name : String × String}
    {resolved : ResolvedObject} :
    FoundAt L origin relRes { w with selectors := selectors } ns name resolved ↔
      FoundAt L origin relRes w ns name resolved :=
  ⟨fun h => ⟨h.original, h.destination⟩, fun h => ⟨h.original, h.destination⟩⟩

theorem resolveName_returns {ns name : String × String} {found : Option ResolvedObject}
    (h : Returns S (resolveName L origin scope live relRes ns.1 ns.2 name) w found w')
    (resolved : ResolvedObject) :
    found = some resolved ↔ FoundAt L origin relRes w ns name resolved := by
  obtain ⟨gvk, w₁, hkind, hrest⟩ := h.bind
  obtain ⟨hok, rfl⟩ := hkind.wrapE
  have hgvk := ok_of_mapError hok
  obtain ⟨r, w₂, hget, hend⟩ := hrest.bind
  obtain ⟨rfl, rfl⟩ := World.Does.get (.inl hget.request)
  cases hobj : w₂.object? ⟨origin.client, gvk, ns.1, name.1⟩ with
  | none =>
    rw [hobj] at hend
    obtain ⟨rfl, -⟩ := hend.pure
    constructor
    · rintro ⟨⟩
    · rintro ⟨⟨gvk', hgvk', hobj'⟩, -⟩
      cases hgvk.symm.trans hgvk'
      cases hobj.symm.trans hobj'
  | some original =>
    rw [hobj] at hend
    obtain ⟨rfl, -⟩ := hend.pure
    constructor
    · rintro ⟨⟩
      exact ⟨⟨gvk, hgvk, hobj⟩, rfl⟩
    · rintro ⟨⟨gvk', hgvk', hobj'⟩, hdest⟩
      cases hgvk.symm.trans hgvk'
      obtain rfl := Option.some.inj (hobj.symm.trans hobj')
      rw [← hdest]

theorem resolveNames_returns {ns : String × String} {nameMap : StringMap}
    {found : List (Option ResolvedObject)}
    (h : Returns S (Fallible.forEach (resolveName L origin scope live relRes ns.1 ns.2)
      nameMap.entries) w found w') (resolved : ResolvedObject) :
    some resolved ∈ found ↔ ∃ name ∈ nameMap.entries,
      FoundAt L origin relRes w ns name resolved := by
  have heach := h.forEach.forall₂ fun name => .mono resolveName_allCalls fun c hc => hc.read
  generalize nameMap.entries = names at heach
  clear h
  induction heach with
  | nil => simp
  | cons hname _ ih =>
    obtain ⟨selectors, w₁, hname⟩ := hname
    have hhead := (resolveName_returns hname resolved).trans foundAt_selectors
    refine (List.mem_cons.trans (or_congr (eq_comm.trans hhead) ih)).trans ?_
    simp only [List.mem_cons, exists_eq_or_imp]

variable (S L origin dest scope live relRes w) in
/-- For each origin namespace, the names that map from the origin to the destination side. -/
def NameMaps (namespaces : List (String × String)) (nameMaps : List StringMap) : Prop :=
  List.Forall₂ (fun ns nameMap => ∃ selectors w₁, Returns S
    (resolveRelatedResourceObjectsInNamespace L origin dest scope live relRes ns.1)
    { w with selectors := selectors } nameMap w₁) namespaces nameMaps

theorem resolveInNamespaces_returns {namespaceMap : StringMap} {found : List ResolvedObject}
    (h : Returns S (resolveRelatedResourceObjectsInNamespaces L origin dest scope live relRes
      namespaceMap) w found w') :
    ∃ nameMaps, NameMaps S L origin dest scope live relRes w namespaceMap.entries nameMaps ∧
      ∀ resolved, resolved ∈ found ↔
        ∃ ns nameMap, (ns, nameMap) ∈ namespaceMap.entries.zip nameMaps ∧
          ∃ name ∈ nameMap.entries, FoundAt L origin relRes w ns name resolved := by
  obtain ⟨lists, w₁, heach, hend⟩ := h.bind
  obtain ⟨rfl, rfl⟩ := hend.pure
  have hreads : ∀ c : Call, ResolveCall L scope relRes origin.client c → c.failure = none :=
    fun c hc => hc.read
  have hall := heach.forEach.forall₂ fun ns => .bind
    (.mapError (.mono resolveRelatedResourceObjectsInNamespace_allCalls hreads))
    fun nameMap => .forEach fun name _ => .mono resolveName_allCalls hreads
  clear h heach hend
  generalize namespaceMap.entries = namespaces at hall ⊢
  have hmem : ∀ resolved : ResolvedObject, resolved ∈ lists.flatten.filterMap id ↔
      ∃ list ∈ lists, some resolved ∈ list := by
    intro resolved
    simp [List.mem_filterMap, List.mem_flatten]
  simp only [hmem]
  clear hmem
  induction hall with
  | nil => exact ⟨[], .nil, by simp⟩
  | @cons ns list _ _ hns _ ih =>
    obtain ⟨nameMaps, hmaps, hresolved⟩ := ih
    obtain ⟨selectors, w₂, hns⟩ := hns
    obtain ⟨nameMap, w₃, hmap, hnames⟩ := hns.bind
    obtain ⟨selectors', rfl⟩ := hmap.wrap.of_reads
      (.mono resolveRelatedResourceObjectsInNamespace_allCalls hreads)
    refine ⟨nameMap :: nameMaps, .cons ⟨selectors, _, hmap.wrap⟩ hmaps, fun resolved => ?_⟩
    have hhead := resolveNames_returns hnames resolved
    simp only [foundAt_selectors] at hhead
    simp only [List.mem_cons, exists_eq_or_imp, hhead, hresolved, List.zip_cons_cons, Prod.mk.injEq]
    constructor
    · rintro (hfirst | ⟨ns', nameMap', hrest⟩)
      · exact ⟨ns, nameMap, .inl ⟨rfl, rfl⟩, hfirst⟩
      · exact ⟨ns', nameMap', .inr hrest.1, hrest.2⟩
    · rintro ⟨ns', nameMap', ⟨rfl, rfl⟩ | hrest, hfound⟩
      · exact .inl hfound
      · exact .inr ⟨ns', nameMap', hrest, hfound⟩

/-! ### References -/

/-- The values of a reference on the two sides, as many on the one as on the other. -/
structure ReferenceValues (L : Libraries) (origin dest : ObjectSide)
    (ref : RelatedResourceObjectReference) (origins dests : List String) : Prop where
  onOrigin : resolveObjectReference L origin.object ref = .ok origins
  onDest : resolveObjectReference L dest.object ref = .ok dests
  length : dests.length = origins.length

/-- The namespaces of a related resource: the values of a reference, or the namespaces of the
primary objects if nothing is configured. -/
inductive NamespaceValues (L : Libraries) (origin dest : ObjectSide)
    (relRes : RelatedResourceSpec) :
    List String → List String → Prop
  | reference {spec : RelatedResourceObjectSpec} {ref : RelatedResourceObjectReference}
      {origins dests : List String} : relRes.object.ns = some spec → spec.reference = some ref →
      ReferenceValues L origin dest ref origins dests →
      NamespaceValues L origin dest relRes origins dests
  | primary : relRes.object.ns = none →
      NamespaceValues L origin dest relRes [origin.object.metadata.ns] [dest.object.metadata.ns]

/-- The values at one index, none of them empty. -/
def IsPair (origins dests : List String) (pair : String × String) : Prop :=
  (∃ i : Nat, origins[i]? = some pair.1 ∧ dests[i]? = some pair.2) ∧ pair.1 ≠ "" ∧ pair.2 ≠ ""

theorem isPair_iff {origins dests : List String} {pair : String × String} :
    IsPair origins dests pair ↔
      pair ∈ (origins.zip dests).filter fun p => p.1 ≠ "" && p.2 ≠ "" := by
  rw [List.mem_filter, List.mem_iff_getElem?]
  simp only [IsPair, List.getElem?_zip_eq_some]
  simp

theorem isPair_of_mem_mapSlices {origins dests : List String} {pair : String × String}
    (h : pair ∈ (mapSlices origins dests).entries) : IsPair origins dests pair :=
  isPair_iff.mpr (SortedMap.mem_of_get?_ofList (SortedMap.mem_entries.mp h))

theorem exists_mem_mapSlices {origins dests : List String} {pair : String × String}
    (h : IsPair origins dests pair) : ∃ d, (pair.1, d) ∈ (mapSlices origins dests).entries := by
  obtain ⟨d, hd⟩ := SortedMap.exists_get?_ofList (isPair_iff.mp h)
  exact ⟨d, SortedMap.mem_entries.mpr hd⟩

theorem eq_of_mem_entries {m : StringMap} {k v v' : String} (h : (k, v) ∈ m.entries)
    (h' : (k, v') ∈ m.entries) : v = v' :=
  Option.some.inj ((SortedMap.mem_entries.mp h).symm.trans (SortedMap.mem_entries.mp h'))

theorem ReferenceValues.resolve {ref : RelatedResourceObjectReference} {origins dests : List String}
    (h : ReferenceValues L origin dest ref origins dests) (what : String) :
    resolveByReference L origin dest what ref = .ok (mapSlices origins dests) := by
  simp only [resolveByReference, h.onOrigin, h.onDest, bind, Except.bind]
  by_cases hnil : origins = []
  · subst hnil
    obtain rfl := List.length_eq_zero_iff.mp h.length
    rfl
  · rw [if_neg hnil, if_neg (not_not.mpr h.length)]
    rfl

theorem NamespaceValues.resolve {originNamespaces destNamespaces : List String}
    (h : NamespaceValues L origin dest relRes originNamespaces destNamespaces) :
    resolveRelatedResourceObjects L origin dest scope live relRes = wrap "failed to resolve objects"
      (resolveRelatedResourceObjectsInNamespaces L origin dest scope live relRes
        (mapSlices originNamespaces destNamespaces)) ∨
    mapSlices originNamespaces destNamespaces = ∅ ∧ ∀ {S : Server} {w w' : World}
      {found : List ResolvedObject},
      Returns S (resolveRelatedResourceObjects L origin dest scope live relRes) w found w' →
      found = [] := by
  unfold resolveRelatedResourceObjects
  dsimp only
  cases h with
  | @reference spec nsRef _ _ hconfigured href hvalues =>
    have hmap : resolveRelatedResourceOriginNamespaces L origin dest relRes.origin scope live spec =
        pure (mapSlices originNamespaces destNamespaces) := by
      unfold resolveRelatedResourceOriginNamespaces
      simp only [href, hvalues.resolve]
      rfl
    rw [hconfigured]
    dsimp only
    rw [hmap]
    by_cases hempty : mapSlices originNamespaces destNamespaces = ∅
    · refine .inr ⟨hempty, fun hfound => ?_⟩
      obtain ⟨namespaceMap, w₁, hpure, hrest⟩ := hfound.bind
      obtain ⟨rfl, -⟩ := hpure.wrap.pure
      rw [if_pos hempty] at hrest
      exact hrest.pure.1
    · exact .inl (if_neg hempty)
  | primary hnone =>
    rw [hnone]
    dsimp only
    by_cases horigin : origin.object.metadata.ns = ""
    · rw [if_pos horigin]
      exact .inr ⟨by simp [mapSlices, horigin, SortedMap.ofList], fun hfound => hfound.throw.elim⟩
    · rw [if_neg horigin]
      by_cases hdest : dest.object.metadata.ns = ""
      · rw [if_pos hdest]
        exact .inr ⟨by simp [mapSlices, hdest, SortedMap.ofList], fun hfound => hfound.throw.elim⟩
      · rw [if_neg hdest]
        refine .inl ?_
        simp [mapSlices, horigin, hdest, SortedMap.ofList]

section References

variable {ref : RelatedResourceObjectReference} {origins dests : List String}
  (hobject : relRes.object.object.reference = some ref)
  (hnames : ReferenceValues L origin dest ref origins dests)

include hobject hnames

theorem resolveInNamespace_reference (ns : String) :
    resolveRelatedResourceObjectsInNamespace L origin dest scope live relRes ns =
      pure (mapSlices origins dests) := by
  unfold resolveRelatedResourceObjectsInNamespace
  simp only [hobject, hnames.resolve]
  rfl

theorem resolveInNamespaces_total {gvk : TypeMeta} (namespaceMap : StringMap)
    (hkind : L.kindFor origin.client relRes.gvr = .ok gvk) :
    ∃ found, Returns S (resolveRelatedResourceObjectsInNamespaces L origin dest scope live relRes
      namespaceMap) w found w := by
  have hname : ∀ ns name : String × String, Fallible.eval (exec S)
      (resolveName L origin scope live relRes ns.1 ns.2 name) w =
        (.ok ((w.object? ⟨origin.client, gvk, ns.1, name.1⟩).map fun original =>
          { original, destination := ⟨ns.2, name.2⟩ }), w) := by
    intro ns name
    have hgvk : originType L origin relRes = pure gvk := by
      rw [originType, wrapE, hkind]
      rfl
    rw [resolveName, hgvk, Fallible.eval_bind, Fallible.eval_pure]
    dsimp only
    rw [Fallible.eval_bind, request, Fallible.eval_request]
    simp only [exec]
    cases w.object? ⟨origin.client, gvk, ns.1, name.1⟩ with
    | none => rfl
    | some original => rfl
  have hns : ∀ ns ∈ namespaceMap.entries, Fallible.eval (exec S) (do
      let nameMap ← wrap "failed to find objects on origin side"
        (resolveRelatedResourceObjectsInNamespace L origin dest scope live relRes ns.1)
      Fallible.forEach (resolveName L origin scope live relRes ns.1 ns.2) nameMap.entries) w =
        (.ok ((mapSlices origins dests).entries.map fun name =>
          (w.object? ⟨origin.client, gvk, ns.1, name.1⟩).map fun original =>
            { original, destination := ⟨ns.2, name.2⟩ }), w) := by
    intro ns _
    rw [resolveInNamespace_reference hobject hnames]
    exact Fallible.eval_forEach _ fun name _ => hname ns name
  have hall := Fallible.eval_forEach (exec S) hns
  unfold Returns resolveRelatedResourceObjectsInNamespaces
  rw [Fallible.eval_bind, hall]
  exact ⟨_, rfl⟩

theorem returnedIn_iff (namespaceMap : StringMap) (resolved : ResolvedObject) :
    (∃ found w', Returns S (wrap "failed to resolve objects"
      (resolveRelatedResourceObjectsInNamespaces L origin dest scope live relRes namespaceMap)) w
      found w' ∧ resolved ∈ found) ↔
    ∃ ns ∈ namespaceMap.entries, ∃ name ∈ (mapSlices origins dests).entries,
      FoundAt L origin relRes w ns name resolved := by
  have hmaps : ∀ {nameMaps : List StringMap}, NameMaps S L origin dest scope live relRes w
      namespaceMap.entries nameMaps → nameMaps = namespaceMap.entries.map fun _ =>
        mapSlices origins dests := by
    intro nameMaps hmaps
    refine (List.forall₂_eq_eq_eq ▸ List.forall₂_map_left_iff.mpr (hmaps.imp ?_)).symm
    rintro ns nameMap ⟨selectors, w₁, hmap⟩
    rw [resolveInNamespace_reference hobject hnames] at hmap
    exact hmap.pure.1.symm
  have hpairs : ∀ {found : List ResolvedObject} {w' : World}, Returns S
      (resolveRelatedResourceObjectsInNamespaces L origin dest scope live relRes namespaceMap) w
      found w' → (resolved ∈ found ↔ ∃ ns ∈ namespaceMap.entries,
        ∃ name ∈ (mapSlices origins dests).entries,
        FoundAt L origin relRes w ns name resolved) := by
    intro found w' hfound
    obtain ⟨nameMaps, hall, hmem⟩ := resolveInNamespaces_returns hfound
    rw [hmem, hmaps hall, ← List.map_prod_left_eq_zip]
    simp
  constructor
  · rintro ⟨found, w', hfound, hresolved⟩
    exact (hpairs hfound.wrap).mp hresolved
  · intro hlead
    obtain ⟨ns, hns, name, hname, hat⟩ := hlead
    obtain ⟨gvk, hkind, -⟩ := hat.original
    obtain ⟨found, hfound⟩ : ∃ found, Returns S (resolveRelatedResourceObjectsInNamespaces L origin
        dest scope live relRes namespaceMap) w found w :=
      resolveInNamespaces_total hobject hnames namespaceMap hkind
    have hwrapped : Returns S (wrap "failed to resolve objects"
        (resolveRelatedResourceObjectsInNamespaces L origin dest scope live relRes namespaceMap)) w
        found w := by
      rw [Returns, wrap, Fallible.eval_mapError, hfound]
      rfl
    exact ⟨found, w, hwrapped, (hpairs hfound).mpr ⟨ns, hns, name, hname, hat⟩⟩

theorem returned_iff {originNamespaces destNamespaces : List String}
    (hns : NamespaceValues L origin dest relRes originNamespaces destNamespaces)
    (resolved : ResolvedObject) :
    (∃ found w', Returns S (resolveRelatedResourceObjects L origin dest scope live relRes) w found
      w' ∧ resolved ∈ found) ↔
    ∃ ns ∈ (mapSlices originNamespaces destNamespaces).entries,
      ∃ name ∈ (mapSlices origins dests).entries, FoundAt L origin relRes w ns name resolved := by
  have hcases : resolveRelatedResourceObjects L origin dest scope live relRes = _ ∨ _ := hns.resolve
  rcases hcases with heq | ⟨hempty, hnothing⟩
  · rw [heq]
    exact returnedIn_iff hobject hnames _ resolved
  · constructor
    · rintro ⟨found, w', hfound, hresolved⟩
      rw [hnothing hfound] at hresolved
      cases hresolved
    · rintro ⟨ns, hmem, -⟩
      rw [hempty] at hmem
      cases hmem

/-- Where an origin object exists, its namespace and its name have one partner each. -/
def Unambiguous (L : Libraries) (origin : ObjectSide) (relRes : RelatedResourceSpec) (w : World)
    (originNamespaces destNamespaces origins dests : List String) : Prop :=
  ∀ gvk n o, L.kindFor origin.client relRes.gvr = .ok gvk →
    (w.object? ⟨origin.client, gvk, n, o⟩).isSome = true →
    ∀ m m' d d', IsPair originNamespaces destNamespaces (n, m) →
      IsPair originNamespaces destNamespaces (n, m') → IsPair origins dests (o, d) →
      IsPair origins dests (o, d') → m = m' ∧ d = d'

/-- The resolution returns exactly the objects of all pairs of namespaces and names if and only if
no origin object has two destinations. -/
theorem reference_pairs_iff {originNamespaces destNamespaces : List String}
    (hns : NamespaceValues L origin dest relRes originNamespaces destNamespaces) :
    (∀ resolved, (∃ found w', Returns S
        (resolveRelatedResourceObjects L origin dest scope live relRes) w found w' ∧
        resolved ∈ found) ↔
      ∃ ns name, IsPair originNamespaces destNamespaces ns ∧ IsPair origins dests name ∧
        FoundAt L origin relRes w ns name resolved) ↔
    Unambiguous L origin relRes w originNamespaces destNamespaces origins dests := by
  simp only [returned_iff hobject hnames hns]
  constructor
  · intro hall gvk n o hkind hexists m m' d d' hm hm' hd hd'
    obtain ⟨original, horiginal⟩ := Option.isSome_iff_exists.mp hexists
    -- both destinations are returned, and the maps give the object one
    have hone : ∀ m d, IsPair originNamespaces destNamespaces (n, m) → IsPair origins dests (o, d) →
        (n, m) ∈ (mapSlices originNamespaces destNamespaces).entries ∧
          (o, d) ∈ (mapSlices origins dests).entries := by
      intro m d hm hd
      obtain ⟨⟨n', m'⟩, hnsmem, ⟨o', d'⟩, hnamemem, hat⟩ := (hall ⟨original, ⟨m, d⟩⟩).mpr
        ⟨(n, m), (o, d), hm, hd, ⟨gvk, hkind, horiginal⟩, rfl⟩
      obtain ⟨gvk', -, horiginal'⟩ := hat.original
      have hthere : original.idOn origin.client = ⟨origin.client, gvk', n', o'⟩ :=
        World.idOn_of_object? horiginal'
      have hid := (World.idOn_of_object? horiginal).symm.trans hthere
      obtain rfl : n = n' := congrArg ObjectId.ns hid
      obtain rfl : o = o' := congrArg ObjectId.name hid
      cases hat.destination
      exact ⟨hnsmem, hnamemem⟩
    obtain ⟨hnm, hod⟩ := hone m d hm hd
    obtain ⟨hnm', hod'⟩ := hone m' d' hm' hd'
    exact ⟨eq_of_mem_entries hnm hnm', eq_of_mem_entries hod hod'⟩
  · intro hone resolved
    constructor
    · rintro ⟨ns, hnsmem, name, hname, hat⟩
      exact ⟨ns, name, isPair_of_mem_mapSlices hnsmem, isPair_of_mem_mapSlices hname, hat⟩
    · rintro ⟨⟨n, m⟩, ⟨o, d⟩, hm, hd, hat⟩
      obtain ⟨gvk, hkind, horiginal⟩ := hat.original
      obtain ⟨m', hm'⟩ := exists_mem_mapSlices hm
      obtain ⟨d', hd'⟩ := exists_mem_mapSlices hd
      obtain ⟨rfl, rfl⟩ := hone gvk n o hkind (by rw [horiginal]; rfl) m m' d d' hm
        (isPair_of_mem_mapSlices hm') hd (isPair_of_mem_mapSlices hd')
      exact ⟨(n, m), hm', (o, d), hd', hat⟩

end References

/-! ### Empty destinations -/

/-- The selector that finds the namespaces or the objects, if this is the mechanism in use. -/
def RelatedResourceObjectSpec.selectorInUse (spec : RelatedResourceObjectSpec) :
    Option RelatedResourceObjectSelector :=
  if spec.reference.isNone then spec.selector else none

theorem exists_of_mem_rewriteNames {what : String} {rewrite : RelatedResourceSelectorRewrite}
    {related : Unstructured → Option Unstructured} {side : RelatedResourceOrigin}
    {listed : List Unstructured} {names : StringMap}
    (h : rewriteNames L origin dest side what rewrite related listed = .ok names)
    {entry : String × String} (hentry : entry ∈ names.entries) :
    ∃ o ∈ listed, o.metadata.name = entry.1 ∧
      applySelectorRewrites L origin dest side o.metadata.name
      (related o) rewrite = .ok entry.2 := by
  have hfold : ∀ (listed : List Unstructured) (acc : StringMap),
      listed.foldlM (m := Except Error) (fun acc o => do
        let name ← (applySelectorRewrites L origin dest side o.metadata.name (related o)
          rewrite).mapError (.wrapped ("failed to rewrite origin " ++ what))
        return acc.insert o.metadata.name name) acc = .ok names →
      acc.get? entry.1 = some entry.2 ∨ ∃ o ∈ listed, o.metadata.name = entry.1 ∧
        applySelectorRewrites L origin dest side o.metadata.name (related o) rewrite =
          .ok entry.2 := by
    intro listed
    induction listed with
    | nil =>
      intro acc h
      cases h
      exact .inl (SortedMap.mem_entries.mp hentry)
    | cons o rest ih =>
      intro acc h
      rw [List.foldlM_cons] at h
      cases hname : applySelectorRewrites L origin dest side o.metadata.name
        (related o) rewrite with
      | error e =>
        rw [hname] at h
        cases h
      | ok name =>
        rw [hname] at h
        rcases ih _ h with hacc | ⟨o', ho', hrest⟩
        · rw [SortedMap.get?_insert] at hacc
          split at hacc
          · next heq =>
            cases hacc
            exact .inr ⟨o, by simp, heq.symm, hname⟩
          · exact .inl hacc
        · exact .inr ⟨o', by simp [ho'], hrest⟩
  rcases hfold listed ∅ h with hnone | hsome
  · cases hnone
  · exact hsome

theorem resolveByReference_nonempty {what : String} {ref : RelatedResourceObjectReference}
    {names : StringMap} (h : resolveByReference L origin dest what ref = .ok names)
    {entry : String × String} (hentry : entry ∈ names.entries) : entry.1 ≠ "" ∧ entry.2 ≠ "" := by
  obtain ⟨originNames, -, h⟩ := exists_of_bind_eq_ok h
  split at h
  · cases h
    cases hentry
  · obtain ⟨destNames, -, h⟩ := exists_of_bind_eq_ok h
    split at h
    · cases h
    · cases h
      exact (isPair_of_mem_mapSlices hentry).2

theorem resolveByTemplate_nonempty {side : RelatedResourceOrigin} {tpl : TemplateExpression}
    {names : StringMap} (h : resolveByTemplate L origin dest side tpl = .ok names)
    {entry : String × String} (hentry : entry ∈ names.entries) : entry.1 ≠ "" ∧ entry.2 ≠ "" := by
  unfold resolveByTemplate at h
  split at h
  · cases h
  · next originValue destValue _ =>
    split at h
    · cases h
      cases hentry
    · next hne =>
      cases h
      obtain ⟨k, v⟩ := entry
      have hget := SortedMap.mem_entries.mp hentry
      rw [SortedMap.get?_insert] at hget
      split at hget
      · next heq =>
        cases hget
        subst heq
        exact not_or.mp hne
      · cases hget

/-- A name that a selector has found: it is the rewritten name of an object that the selector
admits. -/
theorem selected_entry {pointer : Nat} {gvk : TypeMeta} {ns text what : String}
    {side : RelatedResourceOrigin} {rewrite : RelatedResourceSelectorRewrite}
    {related : Unstructured → Option Unstructured} {names : StringMap}
    (h : Returns S (do
      let selector ← resolveSelector L origin dest side scope pointer
      let found ← wrap text (list scope origin.client gvk ns selector 0 live)
      ExceptT.mk (.pure (rewriteNames L origin dest side what rewrite related found))) w names w')
    {entry : String × String} (hentry : entry ∈ names.entries) :
    ∃ selector o, w.Listed origin.client gvk ns selector o ∧ o.metadata.name = entry.1 ∧
      applySelectorRewrites L origin dest side o.metadata.name (related o) rewrite =
        .ok entry.2 := by
  obtain ⟨selector, w₁, hselector, hrest⟩ := h.bind
  obtain ⟨selectors, rfl⟩ :=
    hselector.of_reads (resolveSelector_allCalls (fun _ => rfl) fun _ _ => rfl)
  obtain ⟨found, w₂, hfound, hrewrite⟩ := hrest.bind
  obtain ⟨rfl, rfl⟩ := hfound.wrap.list
  obtain ⟨o, ho, hname, hvalue⟩ := exists_of_mem_rewriteNames (Returns.ofExcept hrewrite).1 hentry
  have hlisted := World.listed_of_mem ho
  exact ⟨selector, o, ⟨hlisted.object, hlisted.typeMeta, hlisted.ns, hlisted.selector⟩, hname,
    hvalue⟩

/-- A name that a resolution has found in a namespace: it is not empty on the destination side, or
it is the rewritten name of an object that a selector admits. -/
theorem resolveInNamespace_entry {ns : String} {nameMap : StringMap}
    (h : Returns S (resolveRelatedResourceObjectsInNamespace L origin dest scope live relRes ns) w
      nameMap w') {entry : String × String} (hentry : entry ∈ nameMap.entries) :
    (relRes.object.object.selectorInUse = none ∧ entry.2 ≠ "") ∨
    ∃ sel gvk selector o, relRes.object.object.selectorInUse = some sel ∧
      L.kindFor origin.client relRes.gvr = .ok gvk ∧ w.Listed origin.client gvk ns selector o ∧
      o.metadata.name = entry.1 ∧ applySelectorRewrites L origin dest relRes.origin o.metadata.name
        (some o) sel.rewrite = .ok entry.2 := by
  unfold resolveRelatedResourceObjectsInNamespace at h
  dsimp only at h
  split at h
  · next href => exact .inl ⟨by simp [RelatedResourceObjectSpec.selectorInUse, href],
      (resolveByReference_nonempty (Returns.ofExcept h).1 hentry).2⟩
  · next sel href hsel =>
    obtain ⟨gvk, w₁, hkind, hrest⟩ := h.bind
    obtain ⟨hok, rfl⟩ := hkind.wrapE
    obtain ⟨selector, o, hlisted, hname, hvalue⟩ := selected_entry hrest hentry
    exact .inr
      ⟨sel, gvk, selector, o, by simp [RelatedResourceObjectSpec.selectorInUse, href, hsel],
      ok_of_mapError hok, hlisted, hname, hvalue⟩
  · next href hsel _ => exact .inl ⟨by simp [RelatedResourceObjectSpec.selectorInUse, href, hsel],
      (resolveByTemplate_nonempty (Returns.ofExcept h).1 hentry).2⟩
  · exact h.throw.elim

theorem resolveNamespaces_entry {spec : RelatedResourceObjectSpec} {namespaceMap : StringMap}
    (h : Returns S (resolveRelatedResourceOriginNamespaces L origin dest relRes.origin scope live
      spec) w namespaceMap w') {entry : String × String} (hentry : entry ∈ namespaceMap.entries) :
    (spec.selectorInUse = none ∧ entry.1 ≠ "" ∧ entry.2 ≠ "") ∨
    ∃ sel selector o, spec.selectorInUse = some sel ∧
      w.Listed origin.client ObjectSyncer.namespaceType "" selector o ∧
      o.metadata.name = entry.1 ∧ applySelectorRewrites L origin dest relRes.origin o.metadata.name
        none sel.rewrite = .ok entry.2 := by
  unfold resolveRelatedResourceOriginNamespaces at h
  split at h
  · next href => exact .inl ⟨by simp [RelatedResourceObjectSpec.selectorInUse, href],
      resolveByReference_nonempty (Returns.ofExcept h).1 hentry⟩
  · next sel href hsel =>
    obtain ⟨selector, o, hlisted, hname, hvalue⟩ := selected_entry h hentry
    exact .inr ⟨sel, selector, o, by simp [RelatedResourceObjectSpec.selectorInUse, href, hsel],
      hlisted, hname, hvalue⟩
  · next href hsel _ => exact .inl ⟨by simp [RelatedResourceObjectSpec.selectorInUse, href, hsel],
      resolveByTemplate_nonempty (Returns.ofExcept h).1 hentry⟩
  · exact h.throw.elim

/-- The selector of the namespaces, if they are found by one. -/
def RelatedResourceObject.nsSelector (object : RelatedResourceObject) :
    Option RelatedResourceObjectSelector :=
  object.ns.bind RelatedResourceObjectSpec.selectorInUse

/-- A selector's rewrite leaves nothing of the namespace or of the name of an origin object. -/
def RewrittenAway (L : Libraries) (origin dest : ObjectSide) (relRes : RelatedResourceSpec)
    (o : Unstructured) : Prop :=
  (∃ sel, relRes.object.nsSelector = some sel ∧
    applySelectorRewrites L origin dest relRes.origin o.metadata.ns none sel.rewrite = .ok "") ∨
  ∃ sel, relRes.object.object.selectorInUse = some sel ∧
    applySelectorRewrites L origin dest relRes.origin o.metadata.name (some o) sel.rewrite = .ok ""

/-- The objects are found in pairs of namespaces, neither of them empty unless by a selector. -/
theorem exists_resolveIn {found : List ResolvedObject} {resolved : ResolvedObject}
    (h : Returns S (resolveRelatedResourceObjects L origin dest scope live relRes) w found w')
    (hresolved : resolved ∈ found) :
    ∃ selectors namespaceMap,
    Returns S (resolveRelatedResourceObjectsInNamespaces L origin dest scope
        live relRes namespaceMap) { w with selectors := selectors } found w' ∧
      ∀ entry ∈ namespaceMap.entries,
        (relRes.object.nsSelector = none ∧ entry.1 ≠ "" ∧ entry.2 ≠ "") ∨
        ∃ sel selector o, relRes.object.nsSelector = some sel ∧
          w.Listed origin.client ObjectSyncer.namespaceType "" selector o ∧
          o.metadata.name = entry.1 ∧ applySelectorRewrites L origin dest relRes.origin
            o.metadata.name none sel.rewrite = .ok entry.2 := by
  unfold resolveRelatedResourceObjects at h
  dsimp only at h
  split at h
  · next spec hspec =>
    obtain ⟨namespaceMap, w₁, hmap, hrest⟩ := h.bind
    obtain ⟨selectors, rfl⟩ := hmap.wrap.of_reads
      (.mono (resolveRelatedResourceOriginNamespaces_allCalls relRes) fun c hc => hc.read)
    split at hrest
    · rw [hrest.pure.1] at hresolved
      cases hresolved
    · have hused : relRes.object.nsSelector = spec.selectorInUse := by
        simp [RelatedResourceObject.nsSelector, hspec]
      rw [hused]
      exact ⟨selectors, namespaceMap, hrest.wrap, fun entry => resolveNamespaces_entry hmap.wrap⟩
  · next hspec =>
    split at h
    · exact h.throw.elim
    · next horigin =>
      split at h
      · exact h.throw.elim
      · next hdest =>
        refine ⟨w.selectors, _, h.wrap, fun entry hentry => .inl ⟨?_, ?_⟩⟩
        · simp [RelatedResourceObject.nsSelector, hspec]
        · obtain ⟨k, v⟩ := entry
          have hget := SortedMap.mem_entries.mp hentry
          rw [SortedMap.get?_insert] at hget
          split at hget
          · next heq =>
            cases hget
            exact ⟨heq ▸ horigin, hdest⟩
          · cases hget

theorem kindFor_of_resolved {found : List ResolvedObject} {resolved : ResolvedObject}
    (h : Returns S (resolveRelatedResourceObjects L origin dest scope live relRes) w found w')
    (hresolved : resolved ∈ found) :
    L.kindFor origin.client relRes.gvr = .ok resolved.original.typeMeta := by
  obtain ⟨selectors, namespaceMap, hin, -⟩ := exists_resolveIn h hresolved
  obtain ⟨nameMaps, -, hmem⟩ := resolveInNamespaces_returns hin
  obtain ⟨ns, nameMap, -, name, -, hat⟩ := (hmem resolved).mp hresolved
  obtain ⟨gvk, hgvk, hobj⟩ := hat.original
  have hid := World.idOn_of_object? hobj
  rw [hgvk, show resolved.original.typeMeta = gvk from congrArg ObjectId.typeMeta hid]

/-- Every object is returned with a name and a namespace for its copy if and only if no rewrite
leaves one of them empty. -/
theorem destinations_named_iff {found : List ResolvedObject}
    (hnamespaces : ∀ ns, w.object? ⟨origin.client, ObjectSyncer.namespaceType, ns, ""⟩ = none)
    (h : Returns S (resolveRelatedResourceObjects L origin dest scope live relRes) w found w') :
    (∀ resolved ∈ found, resolved.destination.name ≠ "" ∧ resolved.destination.ns ≠ "") ↔
      ∀ resolved ∈ found, ¬ RewrittenAway L origin dest relRes resolved.original := by
  refine forall₂_congr fun resolved hresolved => ?_
  obtain ⟨selectors, namespaceMap, hin, hentries⟩ := exists_resolveIn h hresolved
  obtain ⟨nameMaps, hmaps, hmem⟩ := resolveInNamespaces_returns hin
  obtain ⟨ns, nameMap, hzip, name, hname, hat⟩ := (hmem resolved).mp hresolved
  obtain ⟨selectors', w₁, hmap⟩ := List.forall₂_zip hmaps hzip
  obtain ⟨gvk, hgvk, hobj⟩ := hat.original
  have hid := World.idOn_of_object? hobj
  have hns : resolved.original.metadata.ns = ns.1 := congrArg ObjectId.ns hid
  have hnamed : resolved.original.metadata.name = name.1 := congrArg ObjectId.name hid
  have hnsEmpty : ns.2 = "" ↔ ∃ sel, relRes.object.nsSelector = some sel ∧
      applySelectorRewrites L origin dest relRes.origin resolved.original.metadata.ns none
        sel.rewrite = .ok "" := by
    rw [hns]
    rcases hentries ns (List.of_mem_zip hzip).1 with ⟨hnone, -, hne⟩ | ⟨sel,
      _, o, hsel, -, ho, hvalue⟩
    · simp [hnone, hne]
    · rw [ho] at hvalue
      simp [hsel, hvalue]
  have hnameEmpty : name.2 = "" ↔ ∃ sel, relRes.object.object.selectorInUse = some sel ∧
      applySelectorRewrites L origin dest relRes.origin resolved.original.metadata.name
        (some resolved.original) sel.rewrite = .ok "" := by
    rcases resolveInNamespace_entry hmap hname with ⟨hnone, hne⟩ |
      ⟨sel, gvk', _, o, hsel, hgvk', hlisted, ho, hvalue⟩
    · simp [hnone, hne]
    · -- the listed object of this name is the one that was read, in a namespace that is not empty
      have hne : ns.1 ≠ "" := by
        rcases hentries ns (List.of_mem_zip hzip).1 with ⟨-, hne, -⟩ | ⟨_, _, x, -, hx, hxname, -⟩
        · exact hne
        · intro hempty
          have hnone := hnamespaces x.metadata.ns
          rw [← hempty, ← hxname, ← hx.typeMeta] at hnone
          cases hnone.symm.trans hx.object
      cases hgvk.symm.trans hgvk'
      have hsame : o.idOn origin.client = ⟨origin.client, gvk, ns.1, name.1⟩ := by
        rw [Unstructured.idOn, hlisted.typeMeta, hlisted.ns.resolve_left hne, ho]
      obtain rfl : o = resolved.original :=
        Option.some.inj (hlisted.object.symm.trans (hsame ▸ hobj))
      simp [hsel, hvalue]
  rw [hat.destination, RewrittenAway, ← hnsEmpty, ← hnameEmpty]
  tauto

end Resolution

namespace ReferenceSample

/-- Libraries whose JSON paths are the names of top-level fields with a list of strings. -/
def libs : Libraries :=
  { Libraries.sample with
    gjson := fun f path => (f.get? path).bind fun d => Codec.strings.decode d }

/-- A primary object that names Secrets. -/
def naming (ns : String) (secrets : List String) : Unstructured :=
  { crontab ns with
    content :=
      .ofFields (SortedMap.insert ∅ "secrets" ((Codec.strings.encode secrets).getD .null)) }

def origin (secrets : List String) : ObjectSide :=
  ⟨ResourceSyncer.remoteSide "c1" "root", naming "team-a" secrets⟩

def dest (secrets : List String) : ObjectSide := ⟨ResourceSyncer.localSide, naming "tenant" secrets⟩

/-- The Secrets that the primary object names. -/
def named : RelatedResourceSpec :=
  { identifier := "creds", origin := .kcp, kind := "Secret"
    object := { object := { reference := some { path := "secrets" } } } }

def scope : Scope :=
    { cluster := "c1", ns := "team-a", name := "daily", identifier := some "creds" }

/-- A workspace with one Secret. -/
def world : World :=
  World.empty.put (.remoteClient "c1") ⟨.secret, { name := "creds", ns := "team-a" }, default⟩

theorem values (origins dests : List String) (h : dests.length = origins.length)
    (horigins : (resolveObjectReference libs (naming "team-a" origins) ⟨"secrets", none⟩).toOption =
      some origins)
    (hdests : (resolveObjectReference libs (naming "tenant" dests) ⟨"secrets", none⟩).toOption =
      some dests) :
    ReferenceValues libs (origin origins) (dest dests) ⟨"secrets", none⟩ origins dests :=
  ⟨Returns.ok_of_toOption horigins, Returns.ok_of_toOption hdests, h⟩

theorem reference_pairs_renamed :
    ReferenceValues libs (origin ["creds", "tls"]) (dest ["creds-1", "tls-1"]) ⟨"secrets", none⟩
      ["creds", "tls"] ["creds-1", "tls-1"] ∧
    ∀ resolved, (∃ found w', Returns .setting (resolveRelatedResourceObjects libs
        (origin ["creds", "tls"]) (dest ["creds-1", "tls-1"]) scope false named) world found w' ∧
        resolved ∈ found) ↔
      ∃ ns name, IsPair ["team-a"] ["tenant"] ns ∧
        IsPair ["creds", "tls"] ["creds-1", "tls-1"] name ∧
        FoundAt libs (origin ["creds", "tls"]) named world ns name resolved := by
  have hvalues := values ["creds", "tls"] ["creds-1", "tls-1"] rfl (by decide +kernel)
    (by decide +kernel)
  refine ⟨hvalues, (reference_pairs_iff rfl hvalues (.primary rfl)).mpr ?_⟩
  intro gvk n o _ _ m m' d d' hm hm' hd hd'
  rw [isPair_iff] at hm hm' hd hd'
  simp at hm hm' hd hd'
  grind

/-- The name of a Secret occurs twice on the origin side, for two copies.  Only one of them is
returned. -/
theorem repeated_name_lost :
    ReferenceValues libs (origin ["creds", "creds"]) (dest ["creds", "backup"]) ⟨"secrets", none⟩
      ["creds", "creds"] ["creds", "backup"] ∧
    ∃ resolved, (∃ ns name, IsPair ["team-a"] ["tenant"] ns ∧
        IsPair ["creds", "creds"] ["creds", "backup"] name ∧
        FoundAt libs (origin ["creds", "creds"]) named world ns name resolved) ∧
      ¬ ∃ found w', Returns .setting (resolveRelatedResourceObjects libs
        (origin ["creds", "creds"]) (dest ["creds", "backup"]) scope false named) world found w' ∧
        resolved ∈ found := by
  have hvalues := values ["creds", "creds"] ["creds", "backup"] rfl (by decide +kernel)
    (by decide +kernel)
  refine ⟨hvalues, ⟨⟨.secret, { name := "creds", ns := "team-a" }, default⟩, ⟨"tenant", "creds"⟩⟩,
    ⟨("team-a", "tenant"), ("creds", "creds"), ⟨⟨0, rfl, rfl⟩, by decide, by decide⟩,
      ⟨⟨0, rfl, rfl⟩, by decide, by decide⟩, ⟨.secret, rfl, ?_⟩, rfl⟩, ?_⟩
  · decide +kernel
  · rw [returned_iff rfl hvalues (.primary rfl)]
    rintro ⟨ns, -, name, hname, hat⟩
    have hentries : (mapSlices ["creds", "creds"] ["creds", "backup"]).entries =
        [("creds", "backup")] := by decide +kernel
    rw [hentries, List.mem_singleton] at hname
    subst hname
    have hdest : "creds" = "backup" := congrArg NamespacedName.name hat.destination
    exact absurd hdest (by decide)

end ReferenceSample

namespace SelectorSample

/-- All Secrets of the primary object's namespace, renamed by a rule. -/
def selected (regex : RegularExpression) : RelatedResourceSpec :=
  { identifier := "creds", origin := .kcp, kind := "Secret"
    object.object.selector := some { labelSelector := 0, rewrite := { regex := some regex } } }

/-- What the rule finds for a primary object. -/
def resolve (regex : RegularExpression) : SyncM (List ResolvedObject) :=
  resolveRelatedResourceObjects .sample (ReferenceSample.origin []) (ReferenceSample.dest [])
    ReferenceSample.scope false (selected regex)

def copied (name : String) : ResolvedObject :=
  ⟨⟨.secret, { name := "creds", ns := "team-a" }, default⟩, ⟨"tenant", name⟩⟩

theorem resolve_returns (replacement : String) (h : (Fallible.eval (exec .setting)
      (resolve ⟨"", replacement⟩) ReferenceSample.world).1.toOption = some [copied replacement]) :
    ∃ w', Returns .setting (resolve ⟨"", replacement⟩) ReferenceSample.world
      [copied replacement] w' :=
  ⟨_, Prod.ext (Returns.ok_of_toOption h) rfl⟩

theorem namespaces_named (ns : String) : ReferenceSample.world.object?
    ⟨(ReferenceSample.origin []).client, ObjectSyncer.namespaceType, ns, ""⟩ = none := by
  rw [ReferenceSample.world, World.object?_put, if_neg]
  · rfl
  · intro heq
    have hname : "" = "creds" := congrArg ObjectId.name heq
    exact absurd hname (by decide)

/-- With a replacement that is not empty, the copy has a name. -/
theorem destinations_named_renamed :
    ∃ w', Returns .setting (resolve ⟨"", "copy"⟩) ReferenceSample.world [copied "copy"] w' ∧
      ∀ resolved ∈ [copied "copy"], resolved.destination.name ≠ "" ∧
      resolved.destination.ns ≠ "" := by
  obtain ⟨w', hreturns⟩ := resolve_returns "copy" (by decide +kernel)
  refine ⟨w', hreturns, (destinations_named_iff namespaces_named hreturns).mpr ?_⟩
  intro resolved hresolved
  rw [List.mem_singleton.mp hresolved]
  rintro (⟨sel, hsel, -⟩ | ⟨sel, hsel, hempty⟩)
  · cases hsel
  · cases hsel
    exact absurd (Except.ok.inj hempty) (by decide)

/-- A rule that removes the whole name gives a copy without one. -/
theorem nameless_destination :
    ∃ w' resolved, Returns .setting (resolve ⟨"", ""⟩) ReferenceSample.world [resolved] w' ∧
      resolved.destination.name = "" := by
  obtain ⟨w', hreturns⟩ := resolve_returns "" (by decide +kernel)
  exact ⟨w', copied "", hreturns, rfl⟩

end SelectorSample

end Sync
