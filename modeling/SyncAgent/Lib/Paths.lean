import SyncAgent.Lib.MergePatch

/-! Paths into JSON documents, and what a merge patch that was made from two objects does to the
paths of a third one: a three-way merge. -/

namespace Doc

/-- The value at a path of member names. -/
def valueAt : List String → Doc → Option Doc
  | [], d => some d
  | k :: rest, d => (d.fields?.bind (·.get? k)).bind (valueAt rest)

theorem valueAt_cons (k : String) (rest : List String) (d : Doc) :
    d.valueAt (k :: rest) = (d.fields?.bind (·.get? k)).bind (valueAt rest) := rfl

theorem valueAt_of_fields?_eq_none {d : Doc} (h : d.fields? = none)
    {p : List String} (hp : p ≠ []) :
    d.valueAt p = none := by
  cases p with
  | nil => exact absurd rfl hp
  | cons k rest => rw [valueAt_cons, h, Option.bind_none, Option.bind_none]

end Doc

namespace Fields

/-- The value at a path that starts at the members of an object. -/
def valueAt (f : Fields) (p : List String) : Option Doc := (Doc.obj f).valueAt p

theorem valueAt_cons (f : Fields) (k : String) (rest : List String) :
    f.valueAt (k :: rest) = (f.get? k).bind (Doc.valueAt rest) := by
  rw [valueAt, Doc.valueAt_cons, Doc.fields?_obj, Option.bind_some]

theorem valueAt_empty {p : List String} (hp : p ≠ []) : Fields.valueAt ∅ p = none := by
  cases p with
  | nil => exact absurd rfl hp
  | cons k rest => rw [valueAt_cons, SortedMap.get?_empty, Option.bind_none]

theorem valueAt_getD (d : Doc) {p : List String} (hp : p ≠ []) :
    (d.fields?.getD ∅).valueAt p = d.valueAt p := by
  cases hd : d.fields? with
  | none => rw [Option.getD_none, valueAt_empty hp, Doc.valueAt_of_fields?_eq_none hd hp]
  | some f => rw [Option.getD_some, valueAt, ← Doc.eq_obj_of_fields? hd]

theorem valueAt_child (f : Fields) (k : String) {p : List String} (hp : p ≠ []) :
    (f.child k).valueAt p = f.valueAt (k :: p) := by
  rw [child, valueAt_getD _ hp, valueAt_cons]
  cases f.get? k with
  | none => exact Doc.valueAt_of_fields?_eq_none rfl hp
  | some d => rfl

theorem valueAt_singleton (f : Fields) (k : String) : f.valueAt [k] = f.get? k := by
  rw [valueAt_cons]
  cases f.get? k <;> rfl

/-- `q` is the path of an object that contains the value at `p`, but not the whole document. -/
def Ancestor (q p : List String) : Prop := q ≠ [] ∧ ∃ k rest, p = q ++ k :: rest

theorem Ancestor.cons {q p : List String} (k : String) (h : Ancestor q p) :
    Ancestor (k :: q) (k :: p) := by
  obtain ⟨-, k', rest, rfl⟩ := h
  exact ⟨List.cons_ne_nil _ _, k', rest, rfl⟩

theorem ancestor_singleton (k : String) {p : List String} (hp : p ≠ []) :
    Ancestor [k] (k :: p) := by
  cases p with
  | nil => exact absurd rfl hp
  | cons k' rest => exact ⟨List.cons_ne_nil _ _, k', rest, rfl⟩

/-- Every value of `f` on the way to `p` is an object. -/
def Open (f : Fields) (p : List String) : Prop :=
  ∀ q, Ancestor q p → ∀ v, f.valueAt q = some v → ∃ g, v = .obj g

theorem Open.of_cons {f g : Fields} {k : String} {p : List String} (h : f.Open (k :: p))
    (hk : f.get? k = some (.obj g)) : g.Open p := by
  intro q hq v hv
  refine h (k :: q) (hq.cons k) v ?_
  rw [valueAt_cons, hk]
  exact hv

theorem valueAt_merge {d a : Fields} {p : List String} (hp : p ≠ []) (ha : a.valueAt p = none)
    (hopen : a.Open p) : (d.merge a).valueAt p = d.valueAt p := by
  induction p generalizing d a with
  | nil => exact absurd rfl hp
  | cons k rest ih =>
    rw [valueAt_cons, get?_merge, valueAt_cons]
    cases hk : a.get? k with
    | none => rfl
    | some v =>
      have hrest : rest ≠ [] := by
        rintro rfl
        rw [valueAt_cons, hk] at ha
        cases ha
      have hvalue : a.valueAt [k] = some v := by rw [valueAt_cons, hk]; rfl
      obtain ⟨g, rfl⟩ := hopen [k] (ancestor_singleton k hrest) v hvalue
      have hg : g.valueAt rest = none := by
        rw [valueAt_cons, hk] at ha
        exact ha
      simp only [if_neg (Doc.obj_ne_null g), Doc.merge_obj, Option.bind_some]
      refine (ih hrest hg (hopen.of_cons hk)).trans ?_
      rw [valueAt_getD _ hrest]
      cases d.get? k with
      | none => exact Doc.valueAt_of_fields?_eq_none rfl hrest
      | some u => rfl

/-- Every `null` of `g` lies in a value that `f` has at the same place. -/
def NullsShared (f g : Fields) : Prop :=
  ∀ p, g.valueAt p = some .null → ∃ q, q ≠ [] ∧ q <+: p ∧ f.valueAt q = g.valueAt q

theorem nullsShared_iff {f g : Fields} : f.NullsShared g ↔ ∀ k, f.get? k = g.get? k ∨
    g.get? k ≠ some .null ∧ ∀ g', g.get? k = some (.obj g') → (f.child k).NullsShared g' := by
  constructor
  · intro h k
    by_cases hk : f.get? k = g.get? k
    · exact .inl hk
    have hhead : f.valueAt [k] ≠ g.valueAt [k] := by
      rwa [valueAt_singleton, valueAt_singleton]
    refine .inr ⟨fun hnull => ?_, fun g' hg' p hp => ?_⟩
    · obtain ⟨q, hq, hprefix, hsame⟩ := h [k] (by rw [valueAt_singleton, hnull])
      obtain rfl : q = [k] := by
        rcases List.prefix_concat_iff.mp (show q <+: [] ++ [k] from hprefix) with h | h
        · exact h
        · exact absurd (List.prefix_nil.mp h) hq
      exact hhead hsame
    · have hunder : ∀ q, g.valueAt (k :: q) = g'.valueAt q := fun q => by
        rw [valueAt_cons, hg']
        rfl
      obtain ⟨q, hq, hprefix, hsame⟩ := h (k :: p) (by rw [hunder, hp])
      cases q with
      | nil => exact absurd rfl hq
      | cons k' q =>
        obtain ⟨rfl, hrest⟩ := List.cons_prefix_cons.mp hprefix
        have hne : q ≠ [] := by
          rintro rfl
          exact hhead hsame
        exact ⟨q, hne, hrest, by rw [valueAt_child _ _ hne, hsame, hunder]⟩
  · intro h p hp
    cases p with
    | nil => exact absurd (Option.some.inj hp) (Doc.obj_ne_null g)
    | cons k rest =>
      rcases h k with hsame | ⟨hnull, hnested⟩
      · exact ⟨[k], List.cons_ne_nil _ _, ⟨rest, rfl⟩, by
          rw [valueAt_singleton, valueAt_singleton, hsame]⟩
      rw [valueAt_cons] at hp
      obtain ⟨v, hv, hrest⟩ := Option.bind_eq_some_iff.mp hp
      cases hfields : v.fields? with
      | none =>
        cases rest with
        | nil => exact absurd (hv.trans hrest) hnull
        | cons k' rest =>
          rw [Doc.valueAt_of_fields?_eq_none hfields (List.cons_ne_nil _ _)] at hrest
          cases hrest
      | some g' =>
        obtain rfl := Doc.eq_obj_of_fields? hfields
        obtain ⟨q, hq, hprefix, hsame⟩ := hnested g' hv rest hrest
        refine ⟨k :: q, List.cons_ne_nil _ _, List.cons_prefix_cons.mpr ⟨rfl, hprefix⟩, ?_⟩
        rw [← valueAt_child _ _ hq, hsame, valueAt_cons, hv]
        rfl

end Fields

namespace MergeDiff

variable (D : MergeDiff) {a b c : Fields} {p : List String}

theorem valueAt_removed {u : Doc} (ha : a.valueAt p = some u) (hb : b.valueAt p = none) :
    (c.merge (D.create a b)).valueAt p = none := by
  induction p generalizing a b c with
  | nil => cases hb
  | cons k rest ih =>
    rw [Fields.valueAt_cons] at ha hb ⊢
    obtain ⟨x, hx, hxu⟩ := Option.bind_eq_some_iff.mp ha
    have hne : a.get? k ≠ b.get? k := by
      intro heq
      rw [← heq, hx] at hb
      rw [Option.bind_some] at hb
      rw [hb] at hxu
      cases hxu
    rw [D.get?_merge_create, if_neg hne, hx]
    cases hy : b.get? k with
    | none => rfl
    | some y =>
      rw [hy, Option.bind_some] at hb
      have hrest : rest ≠ [] := by
        rintro rfl
        cases hb
      cases hyf : y.fields? with
      | none =>
        -- a value that is no object takes the place of the old one
        have hmerge : ∀ t : Doc, t.merge y = y := fun t => Doc.merge_of_fields?_eq_none hyf
        cases hxf : x.fields? <;> by_cases hnull : y = .null <;>
          simp [hxf, hyf, hnull, hmerge, Doc.valueAt_of_fields?_eq_none _ hrest]
      | some g =>
        cases hxf : x.fields? with
        | none =>
          rw [Doc.valueAt_of_fields?_eq_none hxf hrest] at hxu
          cases hxu
        | some f =>
          obtain rfl := Doc.eq_obj_of_fields? hxf
          obtain rfl := Doc.eq_obj_of_fields? hyf
          simp only [Option.getD_some, Doc.fields?_obj, Option.bind_some]
          exact ih hxu hb

/-- A path that neither version has keeps its value, unless the patch removes or replaces an object
that contains it. -/
theorem valueAt_kept (hp : p ≠ []) (ha : a.valueAt p = none) (hb : b.valueAt p = none)
    (hgone : ∀ q, Fields.Ancestor q p → (∃ u, a.valueAt q = some u) → ∃ v, b.valueAt q = some v)
    (hopen : b.Open p) : (c.merge (D.create a b)).valueAt p = c.valueAt p := by
  induction p generalizing a b c with
  | nil => exact absurd rfl hp
  | cons k rest ih =>
    have hmember := D.get?_merge_create a b c k
    rw [Fields.valueAt_cons, hmember, Fields.valueAt_cons]
    by_cases heq : a.get? k = b.get? k
    · rw [if_pos heq]
    rw [if_neg heq]
    have hrest : rest ≠ [] := by
      rintro rfl
      rw [Fields.valueAt_cons] at ha hb
      cases hak : a.get? k with
      | some u => rw [hak] at ha; cases ha
      | none =>
        cases hbk : b.get? k with
        | some v => rw [hbk] at hb; cases hb
        | none => exact heq (by rw [hak, hbk])
    cases hbk : b.get? k with
    | none =>
      cases hak : a.get? k with
      | none => exact absurd (by rw [hak, hbk]) heq
      | some u =>
        obtain ⟨v, hv⟩ := hgone [k] (Fields.ancestor_singleton k hrest)
          ⟨u, by rw [Fields.valueAt_singleton, hak]⟩
        rw [Fields.valueAt_singleton, hbk] at hv
        cases hv
    | some y =>
      obtain ⟨g, rfl⟩ := hopen [k] (Fields.ancestor_singleton k hrest) y
        (by rw [Fields.valueAt_singleton, hbk])
      have hg : g.valueAt rest = none := by
        rw [Fields.valueAt_cons, hbk] at hb
        exact hb
      have hchild : (c.child k).valueAt rest = (c.get? k).bind (Doc.valueAt rest) := by
        rw [Fields.valueAt_child _ _ hrest, Fields.valueAt_cons]
      cases haf : ((a.get? k).getD .null).fields? with
      | none =>
        -- the object is new, so its members are set over those that are there
        have hfields : (((c.get? k).getD .null).fields?).getD ∅ = c.child k := rfl
        simp only [if_neg (Doc.obj_ne_null g), Doc.merge_obj, Option.bind_some, hfields]
        rw [← hchild]
        exact Fields.valueAt_merge hrest hg (hopen.of_cons hbk)
      | some f =>
        simp only [Doc.fields?_obj, Option.bind_some]
        rw [← hchild]
        have hak : a.get? k = some (.obj f) := by
          cases hak : a.get? k with
          | none => rw [hak] at haf; cases haf
          | some x => rw [hak] at haf; exact congrArg some (Doc.eq_obj_of_fields? haf)
        have hunder : ∀ q, a.valueAt (k :: q) = f.valueAt q ∧ b.valueAt (k :: q) = g.valueAt q :=
          fun q => ⟨by rw [Fields.valueAt_cons, hak]; rfl, by rw [Fields.valueAt_cons, hbk]; rfl⟩
        refine ih hrest ((hunder rest).1 ▸ ha) hg (fun q hq hu => ?_) (hopen.of_cons hbk)
        rw [← (hunder q).1] at hu
        rw [← (hunder q).2]
        exact hgone (k :: q) (hq.cons k) hu

theorem create_empty (b : Fields) : D.create ∅ b = b :=
  SortedMap.ext_get? fun k => by
    rw [D.get?_create, SortedMap.get?_empty]
    cases b.get? k <;> rfl

/-- A patch leads from the one object to the other if and only if it needs to set no `null`. -/
theorem merge_create_iff : a.merge (D.create a b) = b ↔ a.NullsShared b := by
  induction b using Doc.fieldsInduction generalizing a with
  | step b ih =>
    have hmembers : a.merge (D.create a b) = b ↔
        ∀ k, (a.merge (D.create a b)).get? k = b.get? k :=
      ⟨fun h k => by rw [h], SortedMap.ext_get?⟩
    rw [hmembers, Fields.nullsShared_iff]
    refine forall_congr' fun k => ?_
    rw [D.get?_merge_create]
    by_cases hk : a.get? k = b.get? k
    · simp [hk]
    rw [if_neg hk, or_iff_right hk]
    cases hb : b.get? k with
    | none => simp
    | some v =>
      cases hv : v.fields? with
      | none =>
        have hobj : ∀ g, v ≠ .obj g := by
          rintro g rfl
          cases hv
        by_cases hnull : v = .null
        · cases ((a.get? k).getD .null).fields? <;> simp [hnull]
        · cases ((a.get? k).getD .null).fields? <;>
            simp [hnull, hobj, hv, Doc.merge_of_fields?_eq_none hv]
      | some g =>
        obtain rfl := Doc.eq_obj_of_fields? hv
        have hinj : ∀ f, Doc.obj f = .obj g ↔ f = g :=
          fun f => ⟨fun h => Doc.obj_injective h, congrArg Doc.obj⟩
        have hnested : ∀ f : Fields, (∀ g', some (Doc.obj g) = some (.obj g') → f.NullsShared g') ↔
            f.merge (D.create f g) = g := by
          intro f
          rw [ih k g hb]
          refine ⟨fun h => h g rfl, fun h g' hg' => ?_⟩
          obtain rfl := Doc.obj_injective (Option.some.inj hg')
          exact h
        cases ha : ((a.get? k).getD .null).fields? with
        | none =>
          -- the nested object is new: the patch has it as it is
          have hchild : a.child k = ∅ := by simp [Fields.child, ha]
          rw [hchild, hnested, D.create_empty]
          simp [Doc.merge_obj, ha, hinj, Doc.obj_ne_null]
        | some f =>
          have hchild : a.child k = f := by simp [Fields.child, ha]
          rw [hchild, hnested]
          simp [hinj, Doc.obj_ne_null]

end MergeDiff
