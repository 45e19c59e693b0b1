import SyncAgent.Lib.SortedMap
import Mathlib.Data.Rat.Defs

/-! JSON documents and JSON merge patches (RFC 7386).  `Json` is the bare syntax; `Doc` adds that
the members of every object are in increasing key order, so that equality of documents is equality
of their contents.  `Fields` is an object's members as a map to documents.  The lemmas after the
definition of `Doc` reason about `Fields` through lookups only and never look at the syntax. -/

/-- A JSON value.  The members of an object are listed with their keys. -/
inductive Json where
  | null
  | bool (value : Bool)
  | num (value : Rat)
  | str (value : String)
  | arr (items : List Json)
  | obj (members : List (String × Json))

namespace Json

mutual

def decEq : (a b : Json) → Decidable (a = b)
  | .null, .null => isTrue rfl
  | .bool x, .bool y => if h : x = y then isTrue (by rw [h]) else isFalse (by simp [h])
  | .num x, .num y => if h : x = y then isTrue (by rw [h]) else isFalse (by simp [h])
  | .str x, .str y => if h : x = y then isTrue (by rw [h]) else isFalse (by simp [h])
  | .arr x, .arr y =>
    match decEqItems x y with
    | isTrue h => isTrue (by rw [h])
    | isFalse h => isFalse (by simp [h])
  | .obj x, .obj y =>
    match decEqMembers x y with
    | isTrue h => isTrue (by rw [h])
    | isFalse h => isFalse (by simp [h])
  | .null, .bool _ | .null, .num _ | .null, .str _ | .null, .arr _ | .null, .obj _
  | .bool _, .null | .bool _, .num _ | .bool _, .str _ | .bool _, .arr _ | .bool _, .obj _
  | .num _, .null | .num _, .bool _ | .num _, .str _ | .num _, .arr _ | .num _, .obj _
  | .str _, .null | .str _, .bool _ | .str _, .num _ | .str _, .arr _ | .str _, .obj _
  | .arr _, .null | .arr _, .bool _ | .arr _, .num _ | .arr _, .str _ | .arr _, .obj _
  | .obj _, .null | .obj _, .bool _ | .obj _, .num _ | .obj _, .str _ | .obj _, .arr _ =>
    isFalse nofun

def decEqItems : (a b : List Json) → Decidable (a = b)
  | [], [] => isTrue rfl
  | x :: xs, y :: ys =>
    match decEq x y, decEqItems xs ys with
    | isTrue h, isTrue h' => isTrue (by rw [h, h'])
    | isFalse h, _ => isFalse (by simp [h])
    | _, isFalse h => isFalse (by simp [h])
  | [], _ :: _ | _ :: _, [] => isFalse nofun

def decEqMembers : (a b : List (String × Json)) → Decidable (a = b)
  | [], [] => isTrue rfl
  | (k, x) :: xs, (l, y) :: ys =>
    if hk : k = l then
      match decEq x y, decEqMembers xs ys with
      | isTrue h, isTrue h' => isTrue (by rw [hk, h, h'])
      | isFalse h, _ => isFalse (by simp [h])
      | _, isFalse h => isFalse (by simp [h])
    else isFalse (by simp [hk])
  | [], _ :: _ | _ :: _, [] => isFalse nofun

end

instance : DecidableEq Json := decEq

/-- The members of an object; any other value has none. -/
def members : Json → List (String × Json)
  | .obj ms => ms
  | _ => []

mutual

/-- RFC 7386, section 2: `MergePatch(target, patch)`. -/
def mergePatch (target : Json) : Json → Json
  | .obj patch => .obj (mergeMembers target.members patch)
  | .null => .null
  | .bool b => .bool b
  | .num n => .num n
  | .str s => .str s
  | .arr l => .arr l

/-- The members of a target after the members of a patch: a `null` deletes, anything else merges
into the target's value. -/
def mergeMembers (target : List (String × Json)) : List (String × Json) → List (String × Json)
  | [] => target
  | (k, v) :: rest =>
    if v = .null then mergeMembers (Assoc.erase k target) rest
    else mergeMembers
      (Assoc.insert k (mergePatch ((Assoc.get? k target).getD .null) v) target) rest

end

mutual

/-- The members of every object are in increasing key order. -/
def WF : Json → Prop
  | .arr items => WFItems items
  | .obj members => Assoc.Sorted members ∧ WFMembers members
  | _ => True

def WFItems : List Json → Prop
  | [] => True
  | v :: rest => v.WF ∧ WFItems rest

def WFMembers : List (String × Json) → Prop
  | [] => True
  | (_, v) :: rest => v.WF ∧ WFMembers rest

end

mutual

/-- A patch that turns `base` into the given value: for two objects the patch of their members,
otherwise the value itself. -/
def createPatch (base : Json) : Json → Json
  | .obj revision =>
    match base with
    | .obj ms => .obj (createMembers ms revision
        (ms.filterMap fun e =>
          if (Assoc.get? e.1 revision).isNone then some (e.1, .null) else none))
    | _ => .obj revision
  | .null => .null
  | .bool b => .bool b
  | .num n => .num n
  | .str s => .str s
  | .arr l => .arr l

/-- The members of a patch from `base` to the given members, added to `deleted`, the deletions of
the members that only `base` has. -/
def createMembers (base : List (String × Json)) :
    List (String × Json) → List (String × Json) → List (String × Json)
  | [], deleted => deleted
  | (k, v) :: rest, deleted =>
    match Assoc.get? k base with
    | none => Assoc.insert k v (createMembers base rest deleted)
    | some u =>
      if u = v then createMembers base rest deleted
      else Assoc.insert k (createPatch u v) (createMembers base rest deleted)

end

theorem wfItems_iff {items : List Json} : WFItems items ↔ ∀ v ∈ items, v.WF := by
  induction items with
  | nil => simp [WFItems]
  | cons v rest ih => simp [WFItems, ih]

theorem wfMembers_iff {ms : List (String × Json)} : WFMembers ms ↔ ∀ e ∈ ms, e.2.WF := by
  induction ms with
  | nil => simp [WFMembers]
  | cons e rest ih =>
    obtain ⟨k, v⟩ := e
    simp [WFMembers, ih]

theorem WFMembers.insert {ms : List (String × Json)} (h : WFMembers ms) (k : String) {v : Json}
    (hv : v.WF) : WFMembers (Assoc.insert k v ms) := by
  rw [wfMembers_iff] at h ⊢
  intro e he
  rcases Assoc.mem_insert he with rfl | he
  · exact hv
  · exact h e he

theorem WFMembers.erase {ms : List (String × Json)} (h : WFMembers ms) (k : String) :
    WFMembers (Assoc.erase k ms) := by
  rw [wfMembers_iff] at h ⊢
  exact fun e he => h e (List.mem_of_mem_filter he)

theorem WFMembers.get? {ms : List (String × Json)} (h : WFMembers ms) {k : String} {v : Json}
    (hv : Assoc.get? k ms = some v) : v.WF :=
  wfMembers_iff.mp h (k, v) (Assoc.mem_of_get? hv)

theorem wf_members {j : Json} (h : j.WF) : Assoc.Sorted j.members ∧ WFMembers j.members := by
  cases j with
  | obj ms => exact h
  | _ => exact ⟨List.Pairwise.nil, trivial⟩

theorem wf_getD_null {ms : List (String × Json)} (h : WFMembers ms) (k : String) :
    ((Assoc.get? k ms).getD .null).WF := by
  cases hk : Assoc.get? k ms with
  | none => trivial
  | some v => exact h.get? hk

mutual

theorem mergePatch_wf {target : Json} (ht : target.WF) :
    (patch : Json) → patch.WF → (mergePatch target patch).WF
  | .obj patch, hp => mergeMembers_wf (wf_members ht) patch hp.2
  | .null, _ | .bool _, _ | .num _, _ | .str _, _ => trivial
  | .arr _, hp => hp

theorem mergeMembers_wf {target : List (String × Json)}
    (ht : Assoc.Sorted target ∧ WFMembers target) :
    (patch : List (String × Json)) → WFMembers patch →
      Assoc.Sorted (mergeMembers target patch) ∧ WFMembers (mergeMembers target patch)
  | [], _ => ht
  | (k, v) :: rest, hp => by
    simp only [mergeMembers]
    split
    · exact mergeMembers_wf ⟨ht.1.filter _, ht.2.erase k⟩ rest hp.2
    · exact mergeMembers_wf ⟨ht.1.insert _ _,
        ht.2.insert k (mergePatch_wf (wf_getD_null ht.2 k) v hp.1)⟩ rest hp.2

end

/-- A member of a merge result: one that the patch does not mention stays, a `null` deletes it, and
any other value merges into it. -/
theorem get?_mergeMembers {patch : List (String × Json)} (hp : Assoc.Sorted patch)
    (target : List (String × Json)) (k : String) :
    Assoc.get? k (mergeMembers target patch) =
      match Assoc.get? k patch with
      | none => Assoc.get? k target
      | some v =>
        if v = .null then none
        else some (mergePatch ((Assoc.get? k target).getD .null) v) := by
  induction patch generalizing target with
  | nil => simp [mergeMembers, Assoc.get?]
  | cons e rest ih =>
    obtain ⟨k', v⟩ := e
    have hrest := (List.pairwise_cons.mp hp).2
    have habsent : Assoc.get? k' rest = none :=
      Assoc.get?_eq_none_of_lt (List.pairwise_cons.mp hp).1
    by_cases h : k = k'
    · subst h
      by_cases hv : v = .null
      · simp [mergeMembers, hv, ih hrest, habsent, Assoc.get?_erase, Assoc.get?]
      · simp [mergeMembers, hv, ih hrest, habsent, Assoc.get?_insert, Assoc.get?]
    · by_cases hv : v = .null
      · simp [mergeMembers, hv, ih hrest, Assoc.get?_erase, Assoc.get?, h]
      · simp [mergeMembers, hv, ih hrest, Assoc.get?_insert, Assoc.get?, h]

theorem deletions_sorted {base : List (String × Json)} (hb : Assoc.Sorted base)
    (revision : List (String × Json)) :
    Assoc.Sorted (base.filterMap fun e =>
      if (Assoc.get? e.1 revision).isNone then some (e.1, Json.null) else none) := by
  refine List.Pairwise.filterMap _ ?_ hb
  intro a a' hlt b hb b' hb'
  split at hb
  · split at hb'
    · cases hb
      cases hb'
      exact hlt
    · cases hb'
  · cases hb

theorem get?_deletions {base : List (String × Json)} (hb : Assoc.Sorted base)
    (revision : List (String × Json)) (k : String) :
    Assoc.get? k (base.filterMap fun e =>
      if (Assoc.get? e.1 revision).isNone then some (e.1, Json.null) else none) =
      if (Assoc.get? k base).isSome ∧ (Assoc.get? k revision).isNone then some .null
      else none := by
  split
  · next h =>
    obtain ⟨u, hu⟩ := Option.isSome_iff_exists.mp h.1
    refine (deletions_sorted hb revision).get?_eq_some ?_
    exact List.mem_filterMap.mpr ⟨(k, u), Assoc.mem_of_get? hu, by simp [h.2]⟩
  · next h =>
    refine Option.eq_none_iff_forall_ne_some.mpr fun v hv => h ?_
    obtain ⟨⟨k', u⟩, hmem, heq⟩ := List.mem_filterMap.mp (Assoc.mem_of_get? hv)
    split at heq
    · next hnone =>
      cases heq
      exact ⟨by rw [hb.get?_eq_some hmem]; rfl, hnone⟩
    · cases heq

theorem get?_createMembers {base revision : List (String × Json)} (hr : Assoc.Sorted revision)
    (deleted : List (String × Json)) (k : String) :
    Assoc.get? k (createMembers base revision deleted) =
      match Assoc.get? k revision with
      | none => Assoc.get? k deleted
      | some v =>
        match Assoc.get? k base with
        | none => some v
        | some u => if u = v then Assoc.get? k deleted else some (createPatch u v) := by
  induction revision with
  | nil => simp [createMembers, Assoc.get?]
  | cons e rest ih =>
    obtain ⟨k', v⟩ := e
    have hrest := (List.pairwise_cons.mp hr).2
    have habsent : Assoc.get? k' rest = none :=
      Assoc.get?_eq_none_of_lt (List.pairwise_cons.mp hr).1
    by_cases h : k = k'
    · subst h
      cases hb : Assoc.get? k base with
      | none => simp [createMembers, hb, Assoc.get?_insert, Assoc.get?]
      | some u =>
        by_cases hu : u = v
        · simp [createMembers, hb, hu, ih hrest, habsent, Assoc.get?]
        · simp [createMembers, hb, hu, Assoc.get?_insert, Assoc.get?]
    · cases hb : Assoc.get? k' base with
      | none => simp [createMembers, hb, Assoc.get?_insert, ih hrest, Assoc.get?, h]
      | some u =>
        by_cases hu : u = v
        · simp [createMembers, hb, hu, ih hrest, Assoc.get?, h]
        · simp [createMembers, hb, hu, Assoc.get?_insert, ih hrest, Assoc.get?, h]

mutual

theorem createPatch_wf {base : Json} (hb : base.WF) :
    (revision : Json) → revision.WF → (createPatch base revision).WF
  | .obj revision, hr => by
    cases base with
    | obj ms =>
      refine createMembers_wf hb revision hr.2 ⟨deletions_sorted hb.1 revision, ?_⟩
      rw [wfMembers_iff]
      intro e he
      obtain ⟨e', _, heq⟩ := List.mem_filterMap.mp he
      split at heq
      · cases heq
        trivial
      · cases heq
    | _ => exact hr
  | .null, _ | .bool _, _ | .num _, _ | .str _, _ => trivial
  | .arr _, hr => hr

theorem createMembers_wf {base : List (String × Json)}
    (hb : Assoc.Sorted base ∧ WFMembers base) {deleted : List (String × Json)} :
    (revision : List (String × Json)) → WFMembers revision →
      Assoc.Sorted deleted ∧ WFMembers deleted →
      Assoc.Sorted (createMembers base revision deleted) ∧
        WFMembers (createMembers base revision deleted)
  | [], _, hd => hd
  | (k, v) :: rest, hr, hd => by
    have ih := createMembers_wf hb rest hr.2 hd
    simp only [createMembers]
    split
    · exact ⟨ih.1.insert _ _, ih.2.insert k hr.1⟩
    · next u hu =>
      split
      · exact ih
      · exact ⟨ih.1.insert _ _, ih.2.insert k (createPatch_wf (hb.2.get? hu) v hr.1)⟩

end

end Json

/-- A JSON document whose objects list their members in increasing key order. -/
@[ext] structure Doc where
  json : Json
  wf : json.WF

/-- The members of a JSON object. -/
abbrev Fields := SortedMap String Doc

namespace Doc

instance : DecidableEq Doc := fun a b => decidable_of_iff (a.json = b.json) Doc.ext_iff.symm

def null : Doc := ⟨.null, trivial⟩

def str (s : String) : Doc := ⟨.str s, trivial⟩

def num (n : Rat) : Doc := ⟨.num n, trivial⟩

def arr (items : List Doc) : Doc :=
  ⟨.arr (items.map Doc.json), Json.wfItems_iff.mpr fun v hv => by
    obtain ⟨d, _, rfl⟩ := List.mem_map.mp hv
    exact d.wf⟩

/-- The members of a map of documents, as bare JSON. -/
def rawMembers (f : Fields) : List (String × Json) := f.entries.map fun e => (e.1, e.2.json)

theorem rawMembers_wf (f : Fields) :
    Assoc.Sorted (rawMembers f) ∧ Json.WFMembers (rawMembers f) := by
  refine ⟨f.sorted.map fun _ d => d.json, Json.wfMembers_iff.mpr fun e he => ?_⟩
  obtain ⟨e', _, rfl⟩ := List.mem_map.mp he
  exact e'.2.wf

/-- The object with the members `f`. -/
def obj (f : Fields) : Doc := ⟨.obj (rawMembers f), rawMembers_wf f⟩

/-- The entries of well-formed members as documents. -/
def docEntries : (ms : List (String × Json)) → Json.WFMembers ms → List (String × Doc)
  | [], _ => []
  | (k, v) :: rest, h => (k, ⟨v, h.1⟩) :: docEntries rest h.2

theorem docEntries_raw : (ms : List (String × Json)) → (h : Json.WFMembers ms) →
    ((docEntries ms h).map fun e => (e.1, e.2.json)) = ms
  | [], _ => rfl
  | (k, v) :: rest, h => by
    simp only [docEntries, List.map_cons]
    rw [docEntries_raw rest h.2]

/-- The map of documents with the given members. -/
def ofMembers (ms : List (String × Json)) (h : Assoc.Sorted ms ∧ Json.WFMembers ms) : Fields :=
  ⟨docEntries ms h.2, by
    have hs := h.1
    rw [← docEntries_raw ms h.2] at hs
    have hentries := List.pairwise_map.mp hs
    exact hentries⟩

/-- The members of a document that is an object. -/
def fields? : Doc → Option Fields
  | ⟨.obj ms, h⟩ => some (ofMembers ms h)
  | _ => none

/-- Well-formed items as documents. -/
def docItems : (items : List Json) → Json.WFItems items → List Doc
  | [], _ => []
  | v :: rest, h => ⟨v, h.1⟩ :: docItems rest h.2

/-- The items of a document that is an array. -/
def items? : Doc → Option (List Doc)
  | ⟨.arr items, h⟩ => some (docItems items h)
  | _ => none

/-- The text of a document that is a string. -/
def str? : Doc → Option String
  | ⟨.str s, _⟩ => some s
  | _ => none

@[simp] theorem str?_str (s : String) : (str s).str? = some s := rfl

@[simp] theorem str_ne_null (s : String) : str s ≠ null := fun h =>
  Json.noConfusion (congrArg Doc.json h)

theorem rawMembers_ofMembers (ms : List (String × Json)) (h) : rawMembers (ofMembers ms h) = ms :=
  docEntries_raw ms h.2

theorem get?_rawMembers (f : Fields) (k : String) :
    Assoc.get? k (rawMembers f) = (f.get? k).map Doc.json :=
  Assoc.get?_map (fun _ (d : Doc) => d.json) k f.entries

theorem rawMembers_injective {f g : Fields} (h : rawMembers f = rawMembers g) : f = g := by
  refine SortedMap.ext_get? fun k => ?_
  have := congrArg (Assoc.get? k) h
  rw [get?_rawMembers, get?_rawMembers] at this
  exact Option.map_injective (fun _ _ h => Doc.ext h) this

@[simp] theorem fields?_obj (f : Fields) : (obj f).fields? = some f :=
  congrArg some (rawMembers_injective (rawMembers_ofMembers _ _))

theorem eq_obj_of_fields? {d : Doc} {f : Fields} (h : d.fields? = some f) : d = obj f := by
  obtain ⟨j, hj⟩ := d
  cases j with
  | obj ms =>
    simp only [fields?, Option.some.injEq] at h
    subst h
    exact Doc.ext (congrArg Json.obj (rawMembers_ofMembers ms hj).symm)
  | _ => simp [fields?] at h

theorem obj_injective {f g : Fields} (h : obj f = obj g) : f = g := by
  have := congrArg fields? h
  simpa using this

@[simp] theorem fields?_null : null.fields? = none := rfl

@[simp] theorem obj_ne_null (f : Fields) : obj f ≠ null := by
  intro h
  have := congrArg fields? h
  simp at this

/-- Induction on members: what holds of a map of documents when it holds of every object among its
values holds of every map. -/
theorem fieldsInduction {P : Fields → Prop}
    (step : ∀ f : Fields, (∀ k g, f.get? k = some (obj g) → P g) → P f) (f : Fields) : P f := by
  -- on the size of the members as bare JSON
  induction hn : sizeOf (rawMembers f) using Nat.strong_induction_on generalizing f with
  | _ n ih =>
    refine step f fun k g hg => ih (sizeOf (rawMembers g)) ?_ g rfl
    have hraw : Assoc.get? k (rawMembers f) = some (.obj (rawMembers g)) := by
      rw [get?_rawMembers, hg]
      rfl
    have := List.sizeOf_lt_of_mem (Assoc.mem_of_get? hraw)
    simp only [Prod.mk.sizeOf_spec, Json.obj.sizeOf_spec] at this
    omega

end Doc

/-! ### Merge patches on documents -/

/-- A document with a merge patch applied. -/
def Doc.merge (target patch : Doc) : Doc :=
  ⟨target.json.mergePatch patch.json, Json.mergePatch_wf target.wf patch.json patch.wf⟩

/-- The members of an object with the members of a merge patch applied. -/
def Fields.merge (target patch : Fields) : Fields :=
  Doc.ofMembers (Json.mergeMembers (Doc.rawMembers target) (Doc.rawMembers patch))
    (Json.mergeMembers_wf (Doc.rawMembers_wf target) (Doc.rawMembers patch)
      (Doc.rawMembers_wf patch).2)

namespace Doc

@[simp] theorem fields?_getD_obj (f g : Fields) : ((obj f).fields?).getD g = f := by simp

theorem members_json (d : Doc) : d.json.members = rawMembers (d.fields?.getD ∅) := by
  obtain ⟨j, hj⟩ := d
  cases j with
  | obj ms => exact (rawMembers_ofMembers ms hj).symm
  | _ => rfl

/-- An object merges into the target's members; a target that is no object counts as empty. -/
theorem merge_obj (t : Doc) (p : Fields) : t.merge (obj p) = obj ((t.fields?.getD ∅).merge p) := by
  refine Doc.ext (congrArg Json.obj ?_)
  rw [members_json]
  exact (rawMembers_ofMembers _ _).symm

theorem merge_of_fields?_eq_none {t p : Doc} (h : p.fields? = none) : t.merge p = p := by
  obtain ⟨j, hj⟩ := p
  cases j with
  | obj ms => simp [fields?] at h
  | _ => rfl

/-- A document is an object or it replaces whatever it is merged into. -/
theorem obj_or_replaces (p : Doc) : (∃ f, p = obj f) ∨ ∀ t : Doc, t.merge p = p := by
  cases h : p.fields? with
  | some f => exact .inl ⟨f, eq_obj_of_fields? h⟩
  | none => exact .inr fun t => merge_of_fields?_eq_none h

end Doc

namespace Fields

theorem get?_merge (t p : Fields) (k : String) :
    (t.merge p).get? k =
      match p.get? k with
      | none => t.get? k
      | some v => if v = .null then none else some (((t.get? k).getD .null).merge v) := by
  have hraw := Doc.get?_rawMembers (t.merge p) k
  have hmerge : Doc.rawMembers (t.merge p) =
      Json.mergeMembers (Doc.rawMembers t) (Doc.rawMembers p) := Doc.rawMembers_ofMembers _ _
  rw [hmerge, Json.get?_mergeMembers (Doc.rawMembers_wf p).1, Doc.get?_rawMembers,
    Doc.get?_rawMembers] at hraw
  apply Option.map_injective (fun _ _ h => Doc.ext h)
  rw [← hraw]
  cases hp : p.get? k with
  | none => rfl
  | some v =>
    by_cases hv : v = .null
    · subst hv
      rfl
    · have hjson : v.json ≠ .null := fun h => hv (Doc.ext h)
      simp only [Option.map_some, if_neg hv, if_neg hjson]
      cases t.get? k <;> rfl

theorem merge_empty (t : Fields) : t.merge ∅ = t :=
  SortedMap.ext_get? fun k => by simp [get?_merge]

end Fields

mutual

/-- No member of an object is `null`, at any depth of nested objects. -/
def Json.nullFree : Json → Bool
  | .obj members => Json.nullFreeMembers members
  | _ => true

def Json.nullFreeMembers : List (String × Json) → Bool
  | [] => true
  | (_, v) :: rest => v ≠ .null && v.nullFree && Json.nullFreeMembers rest

end

theorem Json.nullFreeMembers_iff {ms : List (String × Json)} :
    nullFreeMembers ms = true ↔ ∀ e ∈ ms, e.2 ≠ .null ∧ e.2.nullFree = true := by
  induction ms with
  | nil => simp [nullFreeMembers]
  | cons e rest ih =>
    obtain ⟨k, v⟩ := e
    simp [nullFreeMembers, ih]

namespace Fields

/-- No member is `null`, at any depth of nested objects. -/
def NullFree (f : Fields) : Prop := Json.nullFreeMembers (Doc.rawMembers f) = true

instance (f : Fields) : Decidable f.NullFree := inferInstanceAs (Decidable (_ = true))

theorem NullFree.ne_null {f : Fields} (h : f.NullFree) {k : String} {v : Doc}
    (hv : f.get? k = some v) : v ≠ .null := by
  rintro rfl
  have hraw : Assoc.get? k (Doc.rawMembers f) = some .null := by
    rw [Doc.get?_rawMembers, hv]
    rfl
  exact (Json.nullFreeMembers_iff.mp h _ (Assoc.mem_of_get? hraw)).1 rfl

theorem NullFree.nested {f g : Fields} (h : f.NullFree) {k : String}
    (hv : f.get? k = some (.obj g)) : g.NullFree := by
  have hraw : Assoc.get? k (Doc.rawMembers f) = some (.obj (Doc.rawMembers g)) := by
    rw [Doc.get?_rawMembers, hv]
    rfl
  exact (Json.nullFreeMembers_iff.mp h _ (Assoc.mem_of_get? hraw)).2

/-- Applying `a` as a merge patch to `d` changes nothing: `d` already has everything `a` says. -/
def Covers (d a : Fields) : Prop := d.merge a = d

instance (d a : Fields) : Decidable (d.Covers a) := inferInstanceAs (Decidable (_ = _))

theorem covers_empty (d : Fields) : d.Covers ∅ := merge_empty d

theorem covers_iff {d a : Fields} (ha : a.NullFree) :
    d.Covers a ↔ ∀ k v, a.get? k = some v → ∃ u, d.get? k = some u ∧ u.merge v = u := by
  constructor
  · intro h k v hv
    have hk := congrArg (fun f => SortedMap.get? f k) h
    simp only [get?_merge, hv, if_neg (ha.ne_null hv)] at hk
    cases hd : d.get? k with
    | none => simp [hd] at hk
    | some u => exact ⟨u, rfl, by simpa [hd] using hk⟩
  · intro h
    refine SortedMap.ext_get? fun k => ?_
    rw [get?_merge]
    cases hv : a.get? k with
    | none => rfl
    | some v =>
      obtain ⟨u, hu, hm⟩ := h k v hv
      simp [ha.ne_null hv, hu, hm]

theorem covers_refl {a : Fields} (ha : a.NullFree) : a.Covers a := by
  induction a using Doc.fieldsInduction with
  | step f ih =>
    refine (covers_iff ha).mpr fun k v hv => ⟨v, hv, ?_⟩
    rcases v.obj_or_replaces with ⟨g, rfl⟩ | hv'
    · rw [Doc.merge_obj, Doc.fields?_getD_obj, ih k g hv (ha.nested hv)]
    · exact hv' v

/-- Only the members that `a` has matter. -/
theorem Covers.congr {d d' a : Fields} (h : d.Covers a) (ha : a.NullFree)
    (hget : ∀ k v, a.get? k = some v → d'.get? k = d.get? k) : d'.Covers a := by
  refine (covers_iff ha).mpr fun k v hv => ?_
  rw [hget k v hv]
  exact (covers_iff ha).mp h k v hv

theorem covers_of_get? {d a : Fields} (ha : a.NullFree)
    (h : ∀ k v, a.get? k = some v → d.get? k = some v) : d.Covers a :=
  (covers_refl ha).congr ha fun k v hv => (h k v hv).trans hv.symm

/-- A document without `null` is its own patch from nothing. -/
theorem empty_merge {a : Fields} (ha : a.NullFree) : Fields.merge ∅ a = a := by
  induction a using Doc.fieldsInduction with
  | step f ih =>
    refine SortedMap.ext_get? fun k => ?_
    rw [get?_merge]
    cases hv : f.get? k with
    | none => rfl
    | some v =>
      rcases v.obj_or_replaces with ⟨g, rfl⟩ | hv'
      · have hg : Fields.merge ∅ g = g := ih k g hv (ha.nested hv)
        simp [Doc.merge_obj, hg]
      · simp [ha.ne_null hv, hv']

/-- The members of the object at `k`, none if there is no object. -/
def child (f : Fields) (k : String) : Fields := ((f.get? k).getD .null).fields?.getD ∅

theorem child_of_get?_obj {f g : Fields} {k : String} (h : f.get? k = some (.obj g)) :
    f.child k = g := by simp [child, h]

theorem child_eq_empty {f : Fields} {k : String} (h : ∀ g, f.get? k ≠ some (.obj g)) :
    f.child k = ∅ := by
  unfold child
  cases hv : f.get? k with
  | none => rfl
  | some v =>
    cases hf : v.fields? with
    | none => simp [hf]
    | some g => exact absurd (hv.trans (congrArg some (Doc.eq_obj_of_fields? hf))) (h g)

theorem NullFree.child {f : Fields} (h : f.NullFree) (k : String) : (f.child k).NullFree := by
  by_cases hk : ∃ g, f.get? k = some (.obj g)
  · obtain ⟨g, hg⟩ := hk
    rw [child_of_get?_obj hg]
    exact h.nested hg
  · rw [child_eq_empty (not_exists.mp hk)]
    rfl

theorem Covers.child {d a : Fields} (h : d.Covers a) (ha : a.NullFree) (k : String) :
    (d.child k).Covers (a.child k) := by
  by_cases hk : ∃ g, a.get? k = some (.obj g)
  · obtain ⟨g, hg⟩ := hk
    obtain ⟨u, hu, hm⟩ := (covers_iff ha).mp h k _ hg
    rw [Doc.merge_obj] at hm
    have hd : d.get? k = some (.obj ((u.fields?.getD ∅).merge g)) := by rw [hu, hm]
    have hfields : u.fields?.getD ∅ = (u.fields?.getD ∅).merge g := by
      conv_lhs => rw [← hm]
      simp
    rw [child_of_get?_obj hg, child_of_get?_obj hd]
    unfold Covers
    rw [← hfields, ← hfields]
  · rw [child_eq_empty (not_exists.mp hk)]
    exact covers_empty _

/-- A document that covers an old version and receives a patch from the old version to a new one
covers the new version. -/
theorem Covers.merge {d a b p : Fields} (hd : d.Covers a) (ha : a.NullFree) (hb : b.NullFree)
    (hp : a.merge p = b) : (d.merge p).Covers b := by
  -- on the new version; the nested patch of a member turns the old member into the new one
  induction b using Doc.fieldsInduction generalizing d a p with
  | step b ih =>
    subst hp
    refine (covers_iff hb).mpr fun k v hv => ?_
    have hget := hv
    rw [get?_merge] at hget ⊢
    cases hpk : p.get? k with
    | none =>
      rw [hpk] at hget
      exact (covers_iff ha).mp hd k v hget
    | some w =>
      simp only [hpk] at hget
      by_cases hw : w = .null
      · simp [hw] at hget
      · simp only [if_neg hw, Option.some.injEq] at hget
        refine ⟨_, if_neg hw, ?_⟩
        subst hget
        rcases w.obj_or_replaces with ⟨q, rfl⟩ | hw'
        · simp only [Doc.merge_obj, Doc.fields?_getD_obj] at hv ⊢
          exact congrArg Doc.obj (ih k _ hv (hd.child ha k) (ha.child k) (hb.nested hv) rfl)
        · simp [hw']

end Fields
