import SyncAgent.Lib.SortedMap

/-! Trees of maps, lists and scalars, with numbers of any type.  A JSON document and a decoded value
are such trees, with different numbers; reading and writing one are maps over the numbers. -/

/-- A tree whose numbers are of type `ν`.  The members of an object are listed with their keys. -/
inductive DataTree (ν : Type) where
  | null
  | bool (value : Bool)
  | num (value : ν)
  | str (value : String)
  | arr (items : List (DataTree ν))
  | obj (members : List (String × DataTree ν))

namespace DataTree

variable {ν μ ω : Type}

theorem induct {P : DataTree ν → Prop} (null : P .null) (bool : ∀ b, P (.bool b))
    (num : ∀ n, P (.num n)) (str : ∀ s, P (.str s))
    (arr : ∀ items, (∀ t ∈ items, P t) → P (.arr items))
    (obj : ∀ members, (∀ e ∈ members, P e.2) → P (.obj members)) (t : DataTree ν) : P t :=
  @DataTree.rec ν P (fun items => ∀ t ∈ items, P t) (fun members => ∀ e ∈ members, P e.2)
    (fun e => P e.2) null bool num str arr obj
    (List.forall_mem_nil _) (fun _ _ ht ih => List.forall_mem_cons.mpr ⟨ht, ih⟩)
    (List.forall_mem_nil _) (fun _ _ he ih => List.forall_mem_cons.mpr ⟨he, ih⟩)
    (fun _ _ h => h) t

mutual

/-- The tree with other numbers. -/
def map (f : ν → μ) : DataTree ν → DataTree μ
  | .null => .null
  | .bool b => .bool b
  | .num n => .num (f n)
  | .str s => .str s
  | .arr items => .arr (mapItems f items)
  | .obj members => .obj (mapMembers f members)

def mapItems (f : ν → μ) : List (DataTree ν) → List (DataTree μ)
  | [] => []
  | t :: rest => t.map f :: mapItems f rest

def mapMembers (f : ν → μ) : List (String × DataTree ν) → List (String × DataTree μ)
  | [] => []
  | (k, t) :: rest => (k, t.map f) :: mapMembers f rest

end

mutual

/-- The tree with other numbers, if all of them can be converted. -/
def mapM (f : ν → Option μ) : DataTree ν → Option (DataTree μ)
  | .null => some .null
  | .bool b => some (.bool b)
  | .num n => (f n).map .num
  | .str s => some (.str s)
  | .arr items => (mapMItems f items).map .arr
  | .obj members => (mapMMembers f members).map .obj

def mapMItems (f : ν → Option μ) : List (DataTree ν) → Option (List (DataTree μ))
  | [] => some []
  | t :: rest => (t.mapM f).bind fun t' => (mapMItems f rest).map (t' :: ·)

def mapMMembers (f : ν → Option μ) : List (String × DataTree ν) →
    Option (List (String × DataTree μ))
  | [] => some []
  | (k, t) :: rest => (t.mapM f).bind fun t' => (mapMMembers f rest).map ((k, t') :: ·)

end

mutual

/-- The numbers in the tree. -/
def numbers : DataTree ν → List ν
  | .num n => [n]
  | .arr items => numbersItems items
  | .obj members => numbersMembers members
  | .null | .bool _ | .str _ => []

def numbersItems : List (DataTree ν) → List ν
  | [] => []
  | t :: rest => t.numbers ++ numbersItems rest

def numbersMembers : List (String × DataTree ν) → List ν
  | [] => []
  | (_, t) :: rest => t.numbers ++ numbersMembers rest

end

mutual

/-- The keys of every object increase. -/
def WF : DataTree ν → Prop
  | .arr items => WFItems items
  | .obj members => Assoc.Sorted members ∧ WFMembers members
  | .null | .bool _ | .num _ | .str _ => True

def WFItems : List (DataTree ν) → Prop
  | [] => True
  | t :: rest => t.WF ∧ WFItems rest

def WFMembers : List (String × DataTree ν) → Prop
  | [] => True
  | (_, t) :: rest => t.WF ∧ WFMembers rest

end

/-- A step into a tree. -/
inductive Key where
  | field (name : String)
  | index (i : Nat)
deriving DecidableEq

def child? (t : DataTree ν) (k : Key) : Option (DataTree ν) :=
  match t, k with
  | .obj members, .field name => Assoc.get? name members
  | .arr items, .index i => items[i]?
  | _, _ => none

/-- The tree at a location. -/
def at? (t : DataTree ν) : List Key → Option (DataTree ν)
  | [] => some t
  | k :: rest => (t.child? k).bind (at? · rest)

theorem exists_of_forall₂ {α β : Type} {R : α → β → Prop} {l : List α} {l' : List β}
    (h : List.Forall₂ R l l') {b : β} (hb : b ∈ l') : ∃ a ∈ l, R a b := by
  induction h with
  | nil => cases hb
  | cons hab _ ih =>
    rcases List.mem_cons.mp hb with rfl | hb
    · exact ⟨_, List.mem_cons_self, hab⟩
    · obtain ⟨a, ha, hR⟩ := ih hb
      exact ⟨a, List.mem_cons_of_mem _ ha, hR⟩

/-! ### The numbers in lists and objects -/

theorem mem_numbersItems {n : ν} {items : List (DataTree ν)} :
    n ∈ numbersItems items ↔ ∃ t ∈ items, n ∈ t.numbers := by
  induction items with
  | nil => simp [numbersItems]
  | cons t rest ih => simp [numbersItems, ih]

theorem mem_numbersMembers {n : ν} {members : List (String × DataTree ν)} :
    n ∈ numbersMembers members ↔ ∃ e ∈ members, n ∈ e.2.numbers := by
  induction members with
  | nil => simp [numbersMembers]
  | cons e rest ih =>
    obtain ⟨k, t⟩ := e
    simp [numbersMembers, ih]

theorem wfItems_iff {items : List (DataTree ν)} : WFItems items ↔ ∀ t ∈ items, t.WF := by
  induction items with
  | nil => simp [WFItems]
  | cons t rest ih => simp [WFItems, ih]

theorem wfMembers_iff {members : List (String × DataTree ν)} :
    WFMembers members ↔ ∀ e ∈ members, e.2.WF := by
  induction members with
  | nil => simp [WFMembers]
  | cons e rest ih =>
    obtain ⟨k, t⟩ := e
    simp [WFMembers, ih]

theorem child?_eq_some {t c : DataTree ν} {k : Key} (harr : ∀ items, t ≠ .arr items)
    (h : t.child? k = some c) :
    ∃ members name, t = .obj members ∧ k = .field name ∧ Assoc.get? name members = some c := by
  cases t with
  | null | bool | num | str => cases k <;> cases h
  | arr items => exact absurd rfl (harr items)
  | obj members =>
    cases k with
    | index i => cases h
    | field name => exact ⟨members, name, rfl, rfl, h⟩

theorem mem_numbers_of_child? {t c : DataTree ν} {k : Key} (h : t.child? k = some c) {n : ν}
    (hn : n ∈ c.numbers) : n ∈ t.numbers := by
  cases t with
  | null | bool | num | str => cases k <;> cases h
  | arr items =>
    cases k with
    | field name => cases h
    | index i => exact mem_numbersItems.mpr ⟨c, List.mem_of_getElem? h, hn⟩
  | obj members =>
    cases k with
    | index i => cases h
    | field name => exact mem_numbersMembers.mpr ⟨(name, c), Assoc.mem_of_get? h, hn⟩

theorem mem_numbers_of_at? {t : DataTree ν} {loc : List Key} {n : ν}
    (h : t.at? loc = some (.num n)) : n ∈ t.numbers := by
  induction loc generalizing t with
  | nil =>
    cases h
    exact List.mem_singleton.mpr rfl
  | cons k rest ih =>
    obtain ⟨c, hc, hn⟩ := Option.bind_eq_some_iff.mp h
    exact mem_numbers_of_child? hc (ih hn)

/-! ### Conversions of all numbers -/

section MapM

variable {f : ν → Option μ}

theorem mapM_map (f : μ → Option ω) (g : ν → μ) (t : DataTree ν) :
    (t.map g).mapM f = t.mapM fun n => f (g n) := by
  induction t using induct with
  | null | bool | num | str => rfl
  | arr items ih =>
    have hitems : mapMItems f (mapItems g items) = mapMItems (fun n => f (g n)) items := by
      induction items with
      | nil => rfl
      | cons t rest hrest =>
        obtain ⟨ht, ih⟩ := List.forall_mem_cons.mp ih
        rw [mapItems, mapMItems, mapMItems, ht, hrest ih]
    rw [map, mapM, mapM, hitems]
  | obj members ih =>
    have hmembers : mapMMembers f (mapMembers g members) =
        mapMMembers (fun n => f (g n)) members := by
      induction members with
      | nil => rfl
      | cons e rest hrest =>
        obtain ⟨k, t⟩ := e
        obtain ⟨ht, ih⟩ := List.forall_mem_cons.mp ih
        rw [mapMembers, mapMMembers, mapMMembers, ht, hrest ih]
    rw [map, mapM, mapM, hmembers]

theorem mapM_eq_self {f : ν → Option ν} {t : DataTree ν} (h : ∀ n ∈ t.numbers, f n = some n) :
    t.mapM f = some t := by
  induction t using induct with
  | null | bool | str => rfl
  | num n => rw [mapM, h n (by simp [numbers]), Option.map_some]
  | arr items ih =>
    have hitems : mapMItems f items = some items := by
      rw [numbers] at h
      induction items with
      | nil => rfl
      | cons t rest hrest =>
        obtain ⟨ht, ih⟩ := List.forall_mem_cons.mp ih
        rw [numbersItems, List.forall_mem_append] at h
        rw [mapMItems, ht h.1, Option.bind_some, hrest ih h.2, Option.map_some]
    rw [mapM, hitems, Option.map_some]
  | obj members ih =>
    have hmembers : mapMMembers f members = some members := by
      rw [numbers] at h
      induction members with
      | nil => rfl
      | cons e rest hrest =>
        obtain ⟨k, t⟩ := e
        obtain ⟨ht, ih⟩ := List.forall_mem_cons.mp ih
        rw [numbersMembers, List.forall_mem_append] at h
        rw [mapMMembers, ht h.1, Option.bind_some, hrest ih h.2, Option.map_some]
    rw [mapM, hmembers, Option.map_some]

theorem forall₂_mapMItems {items : List (DataTree ν)} {items' : List (DataTree μ)}
    (h : mapMItems f items = some items') :
    List.Forall₂ (fun t t' => t.mapM f = some t') items items' := by
  induction items generalizing items' with
  | nil =>
    cases h
    exact .nil
  | cons t rest ih =>
    rw [mapMItems] at h
    obtain ⟨t', ht, h⟩ := Option.bind_eq_some_iff.mp h
    obtain ⟨rest', hrest, rfl⟩ := Option.map_eq_some_iff.mp h
    exact .cons ht (ih hrest)

theorem forall₂_mapMMembers {members : List (String × DataTree ν)}
    {members' : List (String × DataTree μ)} (h : mapMMembers f members = some members') :
    List.Forall₂ (fun e e' => e.1 = e'.1 ∧ e.2.mapM f = some e'.2) members members' := by
  induction members generalizing members' with
  | nil =>
    cases h
    exact .nil
  | cons e rest ih =>
    obtain ⟨k, t⟩ := e
    rw [mapMMembers] at h
    obtain ⟨t', ht, h⟩ := Option.bind_eq_some_iff.mp h
    obtain ⟨rest', hrest, rfl⟩ := Option.map_eq_some_iff.mp h
    exact .cons ⟨rfl, ht⟩ (ih hrest)

theorem mapM_arr_eq_some {items : List (DataTree ν)} {t' : DataTree μ}
    (h : (DataTree.arr items).mapM f = some t') : ∃ items', t' = .arr items' ∧
      List.Forall₂ (fun t t' => t.mapM f = some t') items items' := by
  rw [mapM] at h
  obtain ⟨items', hitems, rfl⟩ := Option.map_eq_some_iff.mp h
  exact ⟨items', rfl, forall₂_mapMItems hitems⟩

theorem mapM_obj_eq_some {members : List (String × DataTree ν)} {t' : DataTree μ}
    (h : (DataTree.obj members).mapM f = some t') : ∃ members', t' = .obj members' ∧
      List.Forall₂ (fun e e' => e.1 = e'.1 ∧ e.2.mapM f = some e'.2) members members' := by
  rw [mapM] at h
  obtain ⟨members', hmembers, rfl⟩ := Option.map_eq_some_iff.mp h
  exact ⟨members', rfl, forall₂_mapMMembers hmembers⟩

theorem exists_of_mem_numbers_mapM {t : DataTree ν} {t' : DataTree μ}
    (h : t.mapM f = some t') {n' : μ}
    (hn : n' ∈ t'.numbers) : ∃ n ∈ t.numbers, f n = some n' := by
  induction t using induct generalizing t' with
  | null | bool | str =>
    cases h
    cases hn
  | num n =>
    obtain ⟨m, hm, rfl⟩ := Option.map_eq_some_iff.mp h
    obtain rfl := List.mem_singleton.mp hn
    exact ⟨n, by simp [numbers], hm⟩
  | arr items ih =>
    obtain ⟨items', rfl, hforall⟩ := mapM_arr_eq_some h
    obtain ⟨c', hc', hn⟩ := mem_numbersItems.mp hn
    obtain ⟨c, hc, hmap⟩ := exists_of_forall₂ hforall hc'
    obtain ⟨n, hmem, hf⟩ := ih c hc hmap hn
    exact ⟨n, mem_numbersItems.mpr ⟨c, hc, hmem⟩, hf⟩
  | obj members ih =>
    obtain ⟨members', rfl, hforall⟩ := mapM_obj_eq_some h
    obtain ⟨e', he', hn⟩ := mem_numbersMembers.mp hn
    obtain ⟨e, he, -, hmap⟩ := exists_of_forall₂ hforall he'
    obtain ⟨n, hmem, hf⟩ := ih e he hmap hn
    exact ⟨n, mem_numbersMembers.mpr ⟨e, he, hmem⟩, hf⟩

theorem wf_mapM {t : DataTree ν} {t' : DataTree μ} (hwf : t.WF)
    (h : t.mapM f = some t') : t'.WF := by
  induction t using induct generalizing t' with
  | null | bool | str =>
    cases h
    trivial
  | num n =>
    obtain ⟨n', -, rfl⟩ := Option.map_eq_some_iff.mp h
    trivial
  | arr items ih =>
    obtain ⟨items', rfl, hforall⟩ := mapM_arr_eq_some h
    refine wfItems_iff.mpr fun c' hc' => ?_
    obtain ⟨c, hc, hmap⟩ := exists_of_forall₂ hforall hc'
    exact ih c hc (wfItems_iff.mp hwf c hc) hmap
  | obj members ih =>
    obtain ⟨members', rfl, hforall⟩ := mapM_obj_eq_some h
    have hkeys : members'.map Prod.fst = members.map Prod.fst := by
      clear h ih hwf
      induction hforall with
      | nil => rfl
      | cons he _ ih => rw [List.map_cons, List.map_cons, ih, he.1]
    refine ⟨?_, wfMembers_iff.mpr fun e' he' => ?_⟩
    · have hsorted := List.pairwise_map.mpr hwf.1
      rw [← hkeys] at hsorted
      exact List.pairwise_map.mp hsorted
    · obtain ⟨e, he, -, hmap⟩ := exists_of_forall₂ hforall he'
      exact ih e he (wfMembers_iff.mp hwf.2 e he) hmap

end MapM

/-! ### Maps of all numbers -/

theorem mapM_some (g : ν → μ) (t : DataTree ν) : (t.mapM fun n => some (g n)) = some (t.map g) :=
  (mapM_map some g t).symm.trans (mapM_eq_self fun _ _ => rfl)

theorem wf_map (g : ν → μ) {t : DataTree ν} (h : t.WF) : (t.map g).WF := wf_mapM h (mapM_some g t)

end DataTree
