import SyncAgent.Lib.Json

/-! Differences of JSON objects as merge patches, and typed values in the members of an object.
`MergeDiff` is what a library that computes merge patches promises.  The lemmas at the end say what
a patch made from two typed values does to a third one. -/

/-- A way to compute a merge patch from one object to another that mentions only what differs. -/
structure MergeDiff where
  create : Fields → Fields → Fields
  get?_create : ∀ base revision k, (create base revision).get? k =
    match base.get? k, revision.get? k with
    | none, none => none
    | some _, none => some .null
    | none, some v => some v
    | some u, some v =>
      if u = v then none
      else
        match u.fields?, v.fields? with
        | some f, some g => some (.obj (create f g))
        | _, _ => some v

namespace MergeDiff

variable (D : MergeDiff)

/-- The patch turns the base into the revision, if the revision has no `null` that the patch would
read as a deletion. -/
theorem merge_create {base revision : Fields} (h : revision.NullFree) :
    base.merge (D.create base revision) = revision := by
  induction revision using Doc.fieldsInduction generalizing base with
  | step revision ih =>
    refine SortedMap.ext_get? fun k => ?_
    rw [Fields.get?_merge, D.get?_create]
    cases hr : revision.get? k with
    | none => cases hb : base.get? k <;> simp
    | some v =>
      have hv := h.ne_null hr
      cases hb : base.get? k with
      | none =>
        rcases v.obj_or_replaces with ⟨g, rfl⟩ | hrep
        · simp [Doc.merge_obj, Fields.empty_merge (h.nested hr)]
        · simp [hv, hrep]
      | some u =>
        by_cases huv : u = v
        · simp [huv]
        · cases hv' : v.fields? with
          | none =>
            cases hu : u.fields? <;>
              simp [huv, hv, hv', hu, Doc.merge_of_fields?_eq_none hv']
          | some g =>
            obtain rfl := Doc.eq_obj_of_fields? hv'
            cases hu : u.fields? with
            | none => simp [huv, Doc.merge_obj, hu, Fields.empty_merge (h.nested hr)]
            | some f => simp [huv, Doc.merge_obj, hu, ih k g hr (h.nested hr)]

theorem create_self (a : Fields) : D.create a a = ∅ :=
  SortedMap.ext_get? fun k => by
    rw [D.get?_create]
    cases a.get? k <;> simp

theorem create_eq_empty_iff {base revision : Fields} :
    D.create base revision = ∅ ↔ base = revision := by
  constructor
  · intro h
    refine SortedMap.ext_get? fun k => ?_
    have hk := D.get?_create base revision k
    rw [h] at hk
    revert hk
    cases base.get? k with
    | none => cases revision.get? k <;> simp
    | some u =>
      cases revision.get? k with
      | none => simp
      | some v =>
        by_cases huv : u = v
        · simp [huv]
        · cases hu : u.fields? <;> cases hv : v.fields? <;> simp [huv, hu, hv]
  · rintro rfl
    exact D.create_self base

/-- The patch from one document to another as bare JSON computes it. -/
def patchDoc (base revision : Doc) : Doc :=
  ⟨base.json.createPatch revision.json, Json.createPatch_wf base.wf _ revision.wf⟩

theorem fields?_patchDoc_obj (f g : Fields) : ∃ h, patchDoc (.obj f) (.obj g) = .obj h := by
  cases hp : (patchDoc (.obj f) (.obj g)).fields? with
  | none => simp [patchDoc, Doc.obj, Json.createPatch, Doc.fields?] at hp
  | some h => exact ⟨h, Doc.eq_obj_of_fields? hp⟩

theorem patchDoc_of_not_obj {u v : Doc} (h : u.fields? = none ∨ v.fields? = none) :
    patchDoc u v = v := by
  obtain ⟨ju, hu⟩ := u
  obtain ⟨jv, hv⟩ := v
  cases jv with
  | obj ms =>
    cases ju with
    | obj ms' => simp [Doc.fields?] at h
    | _ => rfl
  | _ => rfl

/-- The difference of two objects, computed on bare JSON. -/
def rfc7386 : MergeDiff where
  create base revision := ((patchDoc (.obj base) (.obj revision)).fields?).getD ∅
  get?_create base revision k := by
    obtain ⟨p, hp⟩ := fields?_patchDoc_obj base revision
    have hraw : Doc.rawMembers p = Json.createMembers (Doc.rawMembers base)
        (Doc.rawMembers revision) ((Doc.rawMembers base).filterMap fun e =>
          if (Assoc.get? e.1 (Doc.rawMembers revision)).isNone then some (e.1, .null)
          else none) := Json.obj.inj (congrArg Doc.json hp).symm
    have hget := congrArg (Assoc.get? k) hraw
    rw [Doc.get?_rawMembers, Json.get?_createMembers (Doc.rawMembers_wf revision).1,
      Json.get?_deletions (Doc.rawMembers_wf base).1, Doc.get?_rawMembers,
      Doc.get?_rawMembers] at hget
    rw [hp, Doc.fields?_getD_obj]
    apply Option.map_injective (fun _ _ h => Doc.ext h)
    rw [hget]
    cases hr : revision.get? k with
    | none => cases hb : base.get? k <;> simp [Doc.null]
    | some v =>
      cases hb : base.get? k with
      | none => rfl
      | some u =>
        by_cases huv : u = v
        · simp [huv]
        · have hjson : u.json ≠ v.json := fun h => huv (Doc.ext h)
          have hpatch : u.json.createPatch v.json = (patchDoc u v).json := rfl
          simp only [Option.map_some, if_neg hjson, if_neg huv, hpatch]
          cases hu : u.fields? with
          | none => simp [patchDoc_of_not_obj (.inl hu)]
          | some f =>
            cases hv : v.fields? with
            | none => simp [patchDoc_of_not_obj (.inr hv)]
            | some g =>
              obtain rfl := Doc.eq_obj_of_fields? hu
              obtain rfl := Doc.eq_obj_of_fields? hv
              obtain ⟨q, hq⟩ := fields?_patchDoc_obj f g
              simp [hq]

end MergeDiff

/-! ### Codecs -/

namespace Doc

/-- The value of a document that is a number. -/
def num? : Doc → Option Rat
  | ⟨.num n, _⟩ => some n
  | _ => none

@[simp] theorem num?_num (n : Rat) : (num n).num? = some n := rfl

theorem docItems_map_json : (items : List Doc) → (h : Json.WFItems (items.map Doc.json)) →
    docItems (items.map Doc.json) h = items
  | [], _ => rfl
  | d :: rest, h => congrArg (d :: ·) (docItems_map_json rest h.2)

@[simp] theorem items?_arr (items : List Doc) : (arr items).items? = some items :=
  congrArg some (docItems_map_json items _)

end Doc

/-- How a member of an object holds a value of type `α`; a member can be absent. -/
structure Codec (α : Type) where
  encode : α → Option Doc
  decode : Option Doc → Option α
  decode_encode : ∀ a, decode (encode a) = some a

namespace Codec

/-- A string, absent when it is empty. -/
def string : Codec String where
  encode s := if s = "" then none else some (.str s)
  decode
    | none => some ""
    | some d => d.str?
  decode_encode s := by by_cases h : s = "" <;> simp [h]

theorem decode_natCast {α : Type} (n : Nat) (f : Nat → α) :
    (if (n : ℚ).den = 1 ∧ 0 ≤ (n : ℚ).num then some (f (n : ℚ).num.toNat) else none) =
      some (f n) := by
  rw [Rat.den_natCast, Rat.num_natCast, Int.toNat_natCast]
  exact if_pos ⟨rfl, Int.natCast_nonneg n⟩

/-- A natural number, absent when it is zero. -/
def nat : Codec Nat where
  encode n := if n = 0 then none else some (.num n)
  decode
    | none => some 0
    | some d => (d.num?).bind fun q => if q.den = 1 ∧ 0 ≤ q.num then some q.num.toNat else none
  decode_encode n := by
    by_cases h : n = 0
    · simp [h]
    · rw [if_neg h]
      exact decode_natCast n id

/-- A natural number that can be absent. -/
def natOption : Codec (Option Nat) where
  encode n := n.map fun n => .num n
  decode
    | none => some none
    | some d => (d.num?).bind fun q =>
        if q.den = 1 ∧ 0 ≤ q.num then some (some q.num.toNat) else none
  decode_encode n := by
    cases n with
    | none => rfl
    | some n => exact decode_natCast n some

/-- A list of documents, absent when it is empty. -/
def docs : Codec (List Doc) where
  encode l := if l = [] then none else some (.arr l)
  decode
    | none => some []
    | some d => d.items?
  decode_encode l := by by_cases h : l = [] <;> simp [h]

/-- A list of strings, absent when it is empty. -/
def strings : Codec (List String) where
  encode l := docs.encode (l.map .str)
  decode d := (docs.decode d).bind fun l => l.mapM Doc.str?
  decode_encode l := by
    rw [docs.decode_encode, Option.bind_some]
    induction l with
    | nil => rfl
    | cons s rest ih => simp [ih]

/-- A map of strings, absent when it is empty. -/
def stringMap : Codec (SortedMap String String) where
  encode m := if m = ∅ then none else some (.obj (m.mapValues fun _ s => .str s))
  decode
    | none => some ∅
    | some d => (d.fields?).bind fun f =>
        if f.entries.all fun e => e.2.str?.isSome then some (f.filterMapValues Doc.str?) else none
  decode_encode m := by
    by_cases h : m = ∅
    · simp [h]
    · have hall : (m.mapValues fun _ s => Doc.str s).entries.all (fun e => e.2.str?.isSome) := by
        simp [SortedMap.mapValues]
      simp only [if_neg h, Doc.fields?_obj, Option.bind_some, hall, if_true, Option.some.injEq]
      refine SortedMap.ext_get? fun k => ?_
      simp [Option.bind_map, Function.comp_def]

/-- An object whose members are strings, also an empty one, is read as the map of these strings. -/
theorem decode_stringMap_obj {f : Fields} {m : SortedMap String String}
    (h : ∀ k, f.get? k = (m.get? k).map .str) : stringMap.decode (some (.obj f)) = some m := by
  obtain rfl : f = m.mapValues fun _ s => .str s := SortedMap.ext_get? fun k => by simp [h]
  by_cases hm : m = ∅
  · subst hm
    rfl
  · have hencode : stringMap.encode m = some (.obj (m.mapValues fun _ s => .str s)) := if_neg hm
    rw [← hencode, stringMap.decode_encode]

theorem get?_child_of_stringMap {f : Fields} {key : String} {m : SortedMap String String}
    (h : f.get? key = stringMap.encode m) (k : String) :
    (f.child key).get? k = (m.get? k).map .str := by
  by_cases hm : m = ∅
  · have hnone : f.get? key = none := h.trans (if_pos hm)
    rw [Fields.child_eq_empty (by simp [hnone]), hm]
    rfl
  · rw [Fields.child_of_get?_obj (h.trans (if_neg hm)), SortedMap.get?_mapValues]

end Codec

/-! ### Patched values -/

namespace MergeDiff

variable (D : MergeDiff)

theorem get?_merge_create (a b c : Fields) (k : String) :
    (c.merge (D.create a b)).get? k =
      if a.get? k = b.get? k then c.get? k
      else
        match b.get? k with
        | none => none
        | some v =>
          match ((a.get? k).getD .null).fields?, v.fields? with
          | some f, some g => some (.obj ((c.child k).merge (D.create f g)))
          | _, _ => if v = .null then none else some (((c.get? k).getD .null).merge v) := by
  rw [Fields.get?_merge, D.get?_create]
  cases ha : a.get? k with
  | none => cases hb : b.get? k <;> simp
  | some u =>
    cases hb : b.get? k with
    | none => simp
    | some v =>
      by_cases huv : u = v
      · simp [huv]
      · cases hu : u.fields? <;> cases hv : v.fields? <;>
          simp [huv, hu, hv, Doc.merge_obj, Fields.child]

theorem child_merge_create {a b f g : Fields} {k : String} (ha : a.get? k = some (.obj f))
    (hb : b.get? k = some (.obj g)) (c : Fields) :
    (c.merge (D.create a b)).child k = (c.child k).merge (D.create f g) := by
  have hget := D.get?_merge_create a b c k
  by_cases hfg : f = g
  · rw [ha, hb, hfg, if_pos rfl] at hget
    rw [hfg, D.create_self, Fields.merge_empty]
    unfold Fields.child
    rw [hget]
  · rw [ha, hb, if_neg fun h => hfg (Doc.obj_injective (Option.some.inj h))] at hget
    exact Fields.child_of_get?_obj (by simpa using hget)

end MergeDiff

/-- What becomes of a value when a patch from `a` to `b` replaces it. -/
def patchValue {α : Type} [DecidableEq α] (a b c : α) : α := if a = b then c else b

/-- What becomes of a map of strings under a patch from `a` to `b`: it is emptied if `b` is empty,
and otherwise patched key by key. -/
def patchMap (a b c : SortedMap String String) : SortedMap String String :=
  if a = b then c
  else if b = ∅ then ∅
  else (c.filterKeys fun k => a.get? k = b.get? k).insertAll (b.filter fun k v => a.get? k ≠ some v)

theorem get?_patchMap (a b c : SortedMap String String) (k : String) :
    (patchMap a b c).get? k =
      if a = b then c.get? k
      else if b = ∅ then none
      else if a.get? k = b.get? k then c.get? k else b.get? k := by
  unfold patchMap
  by_cases hab : a = b
  · simp [hab]
  · by_cases hb : b = ∅
    · rw [if_neg hab, if_pos hb, if_neg hab, if_pos hb]
      rfl
    · rw [if_neg hab, if_neg hb, if_neg hab, if_neg hb, SortedMap.get?_insertAll,
        SortedMap.get?_filter, SortedMap.get?_filterKeys]
      cases hbk : b.get? k with
      | none => by_cases hak : a.get? k = none <;> simp [hak]
      | some v => by_cases hak : a.get? k = some v <;> simp [hak, Option.filter]

/-- A patch keeps entries that it does not mention or mentions with the right values, unless it
empties the map. -/
theorem patchMap_contains {a b c want : SortedMap String String} (hc : c.Contains want)
    (hempty : b = ∅ → a = ∅)
    (hwant : ∀ k v, want.get? k = some v → a.get? k = b.get? k ∨ b.get? k = some v) :
    (patchMap a b c).Contains want := by
  intro k v hk
  rw [get?_patchMap]
  by_cases hab : a = b
  · rw [if_pos hab]
    exact hc k v hk
  · have hb : b ≠ ∅ := fun h => hab ((hempty h).trans h.symm)
    rw [if_neg hab, if_neg hb]
    rcases hwant k v hk with hsame | hright
    · rw [if_pos hsame]
      exact hc k v hk
    · split
      · exact hc k v hk
      · exact hright

namespace Codec

/-- The encoded values are neither objects nor `null`. -/
def Flat {α : Type} (C : Codec α) : Prop :=
  ∀ a v, C.encode a = some v → v.fields? = none ∧ v ≠ .null

theorem encode_injective {α : Type} (C : Codec α) {a b : α} (h : C.encode a = C.encode b) :
    a = b := by
  have hdecode := congrArg C.decode h
  rwa [C.decode_encode, C.decode_encode, Option.some.injEq] at hdecode

theorem string_flat : string.Flat := by
  intro s v h
  by_cases hs : s = ""
  · simp [string, hs] at h
  · simp only [string, if_neg hs, Option.some.injEq] at h
    subst h
    exact ⟨rfl, Doc.str_ne_null s⟩

theorem nat_flat : nat.Flat := by
  intro n v h
  by_cases hn : n = 0
  · simp [nat, hn] at h
  · simp only [nat, if_neg hn, Option.some.injEq] at h
    subst h
    exact ⟨rfl, fun h => by cases congrArg Doc.json h⟩

theorem natOption_flat : natOption.Flat := by
  intro n v h
  cases n with
  | none => cases h
  | some n =>
    cases h
    exact ⟨rfl, fun h => by cases congrArg Doc.json h⟩

theorem docs_flat : docs.Flat := by
  intro l v h
  by_cases hl : l = []
  · simp [docs, hl] at h
  · simp only [docs, if_neg hl, Option.some.injEq] at h
    subst h
    exact ⟨rfl, fun h => by cases congrArg Doc.json h⟩

theorem strings_flat : strings.Flat := fun l => docs_flat (l.map .str)

variable (D : MergeDiff) {a b c : Fields} {k : String}

theorem decode_patched {α : Type} [DecidableEq α] {C : Codec α} (hC : C.Flat) {x y z : α}
    (ha : a.get? k = C.encode x) (hb : b.get? k = C.encode y) (hc : c.get? k = C.encode z) :
    C.decode ((c.merge (D.create a b)).get? k) = some (patchValue x y z) := by
  rw [D.get?_merge_create, ha, hb, hc]
  unfold patchValue
  by_cases hxy : x = y
  · simp [hxy, C.decode_encode]
  · rw [if_neg fun h => hxy (C.encode_injective h), if_neg hxy, ← C.decode_encode y]
    cases hy : C.encode y with
    | none => rfl
    | some v =>
      obtain ⟨hfields, hnull⟩ := hC y v hy
      cases ((C.encode x).getD .null).fields? <;>
        simp [hfields, hnull, Doc.merge_of_fields?_eq_none hfields]

theorem decode_patched_stringMap {x y z : SortedMap String String}
    (ha : a.get? k = stringMap.encode x) (hb : b.get? k = stringMap.encode y)
    (hc : c.get? k = stringMap.encode z) :
    stringMap.decode ((c.merge (D.create a b)).get? k) = some (patchMap x y z) := by
  have hchild := get?_child_of_stringMap hc
  rw [D.get?_merge_create, ha, hb, hc]
  by_cases hxy : x = y
  · rw [if_pos (by rw [hxy]), stringMap.decode_encode]
    simp [patchMap, hxy]
  rw [if_neg fun h => hxy (stringMap.encode_injective h)]
  by_cases hy : y = ∅
  · have hnone : stringMap.encode y = none := if_pos hy
    have hempty : patchMap x y z = ∅ := by rw [patchMap, if_neg hxy, if_pos hy]
    rw [hnone, hempty]
    rfl
  have hsome : stringMap.encode y = some (.obj (y.mapValues fun _ s => .str s)) := if_neg hy
  by_cases hx : x = ∅
  · -- the whole map is new
    have hnone : stringMap.encode x = none := if_pos hx
    have hmerge : ((stringMap.encode z).getD .null).merge (.obj (y.mapValues fun _ s => .str s)) =
        .obj ((c.child k).merge (y.mapValues fun _ s => .str s)) := by
      rw [Doc.merge_obj, ← hc]
      rfl
    simp only [hsome, hnone, Option.getD_none, Doc.fields?_null, if_neg (Doc.obj_ne_null _), hmerge]
    refine decode_stringMap_obj fun k' => ?_
    rw [Fields.get?_merge, SortedMap.get?_mapValues, hchild, get?_patchMap, if_neg hxy, if_neg hy,
      hx, SortedMap.get?_empty]
    cases hyk : y.get? k' with
    | none => simp
    | some v =>
      have hrep : ∀ t : Doc, t.merge (.str v) = .str v :=
        fun t => Doc.merge_of_fields?_eq_none rfl
      simp [hrep]
  · have hsome' : stringMap.encode x = some (.obj (x.mapValues fun _ s => .str s)) := if_neg hx
    simp only [hsome, hsome', Option.getD_some, Doc.fields?_obj]
    refine decode_stringMap_obj fun k' => ?_
    rw [D.get?_merge_create, SortedMap.get?_mapValues, SortedMap.get?_mapValues, hchild,
      get?_patchMap, if_neg hxy, if_neg hy]
    cases hyk : y.get? k' with
    | none => cases hxk : x.get? k' <;> simp
    | some v =>
      have hrep : ∀ t : Doc, t.merge (.str v) = .str v :=
        fun t => Doc.merge_of_fields?_eq_none rfl
      have hflat : (Doc.str v).fields? = none := rfl
      by_cases hxk : x.get? k' = some v
      · simp [hxk]
      · cases hxk' : x.get? k' with
        | none => simp [hrep, hflat]
        | some u =>
          have huv : u ≠ v := fun h => hxk (by rw [hxk', h])
          have hne : Doc.str u ≠ Doc.str v := fun h => huv (by simpa using congrArg Doc.str? h)
          simp [hrep, hflat, hne, huv]

end Codec
