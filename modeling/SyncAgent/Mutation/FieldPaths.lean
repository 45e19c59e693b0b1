import SyncAgent.Mutation.Transformer

/-! Libraries for paths through the fields of objects, such as `spec.image`, for templates that
insert fields of their data, and for no regular expressions and no CEL.  They meet everything that
the transformers rely on, and they can be run. -/

namespace Mutation

open Float64 GoTemplate Sync

/-! ### Updates along a path -/

/-- The members of an object, none for other values. -/
def objectMembers : DataTree ℚ → List (String × DataTree ℚ)
  | .obj members => members
  | _ => []

/-- The members with one of them set, or removed if there is no value. -/
def putMember (k : String) (value : Option (DataTree ℚ)) (members : List (String × DataTree ℚ)) :
    List (String × DataTree ℚ) :=
  match value with
  | none => Assoc.erase k members
  | some v => Assoc.insert k v members

/-- The value at a path set, or removed if there is no value.  Objects on the way are made for a
value that is set. -/
def alterAt (value : Option (DataTree ℚ)) : List String → DataTree ℚ → Except String (DataTree ℚ)
  | [], _ => .error "path cannot be empty"
  | _ :: _, .arr _ => .error "cannot set array element for non-numeric key"
  | [k], t => .ok (.obj (putMember k value (objectMembers t)))
  | k :: rest, t =>
    match Assoc.get? k (objectMembers t), value with
    | none, none => .ok t
    | child, _ => (alterAt value rest (child.getD .null)).map fun c =>
        .obj (Assoc.insert k c (objectMembers t))

/-- Whether one of the locations is inside the other. -/
def Overlap (keys : List String) (loc : List DataTree.Key) : Prop :=
  keys.map DataTree.Key.field <+: loc ∨ loc <+: keys.map DataTree.Key.field

theorem get?_putMember (k name : String) (value : Option (DataTree ℚ))
    (members : List (String × DataTree ℚ)) (h : name ≠ k) :
    Assoc.get? name (putMember k value members) = Assoc.get? name members := by
  cases value with
  | none => rw [putMember, Assoc.get?_erase, if_neg h]
  | some v => rw [putMember, Assoc.get?_insert, if_neg h]

theorem overlap_cons {k : String} {rest : List String} {loc : List DataTree.Key}
    (h : ¬ Overlap (k :: rest) (.field k :: loc)) : ¬ Overlap rest loc := by
  refine fun hrest => h ?_
  rcases hrest with hrest | hrest
  · exact .inl (by simpa using hrest)
  · exact .inr (by simpa using hrest)

theorem alterAt_cons_eq_ok {value : Option (DataTree ℚ)} {k : String} {rest : List String}
    {t t' : DataTree ℚ} (h : alterAt value (k :: rest) t = .ok t') :
    (∀ items, t ≠ .arr items) ∧
      (rest = [] ∧ t' = .obj (putMember k value (objectMembers t)) ∨ t' = t ∨
        ∃ c, alterAt value rest ((Assoc.get? k (objectMembers t)).getD .null) = .ok c ∧
          t' = .obj (Assoc.insert k c (objectMembers t))) := by
  unfold alterAt at h
  split at h
  · cases h
  · cases h
  · next hkeys hne =>
    cases hkeys
    cases h
    exact ⟨hne, .inl ⟨rfl, rfl⟩⟩
  · next hkeys hne =>
    cases hkeys
    refine ⟨hne, .inr ?_⟩
    split at h
    · cases h
      exact .inl rfl
    · obtain ⟨c, hc, rfl⟩ := exists_of_map_eq_ok h
      exact .inr ⟨c, hc, rfl⟩

theorem at?_alterAt {value : Option (DataTree ℚ)} {keys : List String} {t t' : DataTree ℚ}
    (h : alterAt value keys t = .ok t') {loc : List DataTree.Key} {q : ℚ}
    (hloc : ¬ Overlap keys loc) (hq : t.at? loc = some (.num q)) :
    t'.at? loc = some (.num q) := by
  induction keys generalizing t t' loc with
  | nil => cases h
  | cons k rest ih =>
    cases loc with
    | nil => exact absurd (.inr List.nil_prefix) hloc
    | cons key loc =>
      obtain ⟨harr, h⟩ := alterAt_cons_eq_ok h
      obtain ⟨c, hc, hnum⟩ := Option.bind_eq_some_iff.mp hq
      obtain ⟨members, name, rfl, rfl, hget⟩ := DataTree.child?_eq_some harr hc
      suffices hchild : ∃ c', t'.child? (.field name) = some c' ∧ c'.at? loc = some (.num q) by
        obtain ⟨c', hc', hat⟩ := hchild
        rw [DataTree.at?, hc', Option.bind_some, hat]
      by_cases hname : name = k
      · subst hname
        rcases h with ⟨rfl, -⟩ | rfl | ⟨c', hc', rfl⟩
        · exact absurd (.inl (by simp)) hloc
        · exact ⟨c, hc, hnum⟩
        · rw [objectMembers, hget, Option.getD_some] at hc'
          refine ⟨c', ?_, ih hc' (overlap_cons hloc) hnum⟩
          rw [DataTree.child?, objectMembers, Assoc.get?_insert, if_pos rfl]
      · refine ⟨c, ?_, hnum⟩
        rcases h with ⟨-, rfl⟩ | rfl | ⟨c', -, rfl⟩
        · rw [DataTree.child?, get?_putMember _ _ _ _ hname]
          exact hget
        · exact hc
        · rw [DataTree.child?, Assoc.get?_insert, if_neg hname]
          exact hget

theorem wf_objectMembers {t : DataTree ℚ} (h : t.WF) : (DataTree.obj (objectMembers t)).WF := by
  cases t with
  | obj members => exact h
  | null | bool | num | str | arr => exact ⟨List.Pairwise.nil, trivial⟩

theorem wf_insert {k : String} {v : DataTree ℚ} {members : List (String × DataTree ℚ)}
    (h : (DataTree.obj members).WF) (hv : v.WF) : (DataTree.obj (Assoc.insert k v members)).WF := by
  refine ⟨h.1.insert k v, DataTree.wfMembers_iff.mpr fun e he => ?_⟩
  rcases Assoc.mem_insert he with rfl | he
  · exact hv
  · exact DataTree.wfMembers_iff.mp h.2 e he

theorem wf_alterAt {value : Option (DataTree ℚ)} (hvalue : ∀ v, value = some v → v.WF)
    {keys : List String} {t t' : DataTree ℚ} (ht : t.WF) (h : alterAt value keys t = .ok t') :
    t'.WF := by
  induction keys generalizing t t' with
  | nil => cases h
  | cons k rest ih =>
    have hmembers := wf_objectMembers ht
    rcases (alterAt_cons_eq_ok h).2 with ⟨-, rfl⟩ | rfl | ⟨c, hc, rfl⟩
    · cases value with
      | none =>
        refine ⟨hmembers.1.filter _, DataTree.wfMembers_iff.mpr fun e he => ?_⟩
        exact DataTree.wfMembers_iff.mp hmembers.2 e (List.mem_of_mem_filter he)
      | some v => exact wf_insert hmembers (hvalue v rfl)
    · exact ht
    · refine wf_insert hmembers (ih ?_ hc)
      cases hget : Assoc.get? k (objectMembers t) with
      | none => exact trivial
      | some c' => exact DataTree.wfMembers_iff.mp hmembers.2 _ (Assoc.mem_of_get? hget)

/-- The keys of a path. -/
def pathKeys (path : String) : List String :=
  if path = "" then [] else (path.toList.splitOn '.').map String.ofList

/-- The document with the value at a path set, or removed if there is no value. -/
def Document.alter (doc : Document) (path : String) (value : Option Document) :
    Except String Document :=
  match h : alterAt (value.map Document.tree) (pathKeys path) doc.tree with
  | .error e => .error e
  | .ok t => .ok ⟨t, wf_alterAt (fun v hv => by
      obtain ⟨d, -, rfl⟩ := Option.map_eq_some_iff.mp hv
      exact d.wf) doc.wf h⟩

theorem Document.at?_alter {doc : Document} {path : String} {value : Option Document}
    {doc' : Document} (h : doc.alter path value = .ok doc') {loc : List DataTree.Key} {q : ℚ}
    (hloc : ¬ Overlap (pathKeys path) loc) (hq : doc.tree.at? loc = some (.num q)) :
    doc'.tree.at? loc = some (.num q) := by
  unfold Document.alter at h
  split at h
  · cases h
  · next t ht =>
    cases h
    exact at?_alterAt ht hloc hq

/-! ### The libraries -/

/-- The value of an action: a field of the template's data, or what is below it. -/
def evalField (node : Node) (data : TemplateMutationContext (Option (DataTree ℚ))) :
    Except String (Option Value) :=
  match node with
  | .action ["Value"] [] => .ok (data.value.bind fun t => t.mapM decodeNumber)
  | .action ("LocalObject" :: rest) [] => .ok (data.localObject.tree.at? (rest.map .field))
  | .action ("RemoteObject" :: rest) [] =>
    .ok (data.remoteObject.bind fun o => o.tree.at? (rest.map .field))
  | _ => .error "can't evaluate field"

def Value.string? : Option Value → Option String
  | some (.str s) => some s
  | _ => none

/-- Doubles are written exactly. -/
def NumberFormat.exactly : NumberFormat := ⟨Double.value, nearest_value⟩

def fieldTemplates :
    Package Node (TemplateMutationContext (Option (DataTree ℚ))) (Option Value) where
  parse := parseParts
  eval := evalField
  string? := Value.string?
  print _ := "<no value>"
  parse_append := parseParts_append

def fieldLibraries : Libraries where
  Result := Option (DataTree ℚ)
  get doc path := doc.tree.at? ((pathKeys path).map .field)
  resultString
    | some (.str s) => s
    | _ => ""
  resultValue r := (r.bind fun t => t.mapM decodeNumber).getD .null
  set doc path value := doc.alter path (some value)
  delete doc path := doc.alter path none
  addresses path loc := Overlap (pathKeys path) loc
  set_other h hloc hq := Document.at?_alter h hloc hq
  delete_other h hloc hq := Document.at?_alter h hloc hq
  Regex := Empty
  compileRegex _ := .error "missing argument to repetition operator"
  replaceAllString expr := Empty.elim expr
  Ast := Empty
  Program := Empty
  Scalar := Empty
  compileCEL _ := .error "Syntax error"
  program expr := Empty.elim expr
  evalCEL prg := Empty.elim prg
  native v := Empty.elim v
  nativeKey v := Empty.elim v
  Pipeline := Node
  TemplateValue := Option Value
  templates := fieldTemplates
  html :=
    { escape := .go
      escaped := Node.escaped
      print := fun _ => ""
      tags := fun _ _ => .error "ends in a non-text context" }
  sprig := []
  json := .exactly

end Mutation
