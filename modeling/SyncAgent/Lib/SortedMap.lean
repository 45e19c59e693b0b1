import Mathlib.Data.String.Basic
import Mathlib.Data.List.Basic
import Mathlib.Order.Basic

/-! Finite maps as association lists in strictly increasing key order.  The order makes the
representation canonical: two maps with the same lookups are equal, so a test for equality of maps
is a test for equality of lists.  The operations on plain association lists come first, since an
inductive type can hold a list of its own values but not a structure that carries a proof about
them. -/

namespace Assoc

variable {κ ν ω : Type*}

/-- The value of the first entry with key `k`. -/
def get? [DecidableEq κ] (k : κ) : List (κ × ν) → Option ν
  | [] => none
  | (k', v) :: rest => if k = k' then some v else get? k rest

/-- The entries with `k` set to `v`, at the place that the key order gives it. -/
def insert [LinearOrder κ] (k : κ) (v : ν) : List (κ × ν) → List (κ × ν)
  | [] => [(k, v)]
  | (k', v') :: rest =>
    if k < k' then (k, v) :: (k', v') :: rest
    else if k = k' then (k, v) :: rest
    else (k', v') :: insert k v rest

/-- The entries whose key is not `k`. -/
def erase [DecidableEq κ] (k : κ) (l : List (κ × ν)) : List (κ × ν) :=
  l.filter fun e => e.1 ≠ k

/-- The keys increase strictly. -/
def Sorted [LT κ] (l : List (κ × ν)) : Prop := l.Pairwise fun a b => a.1 < b.1

section Lookup

variable [DecidableEq κ]

theorem get?_map (g : κ → ν → ω) (k : κ) (l : List (κ × ν)) :
    get? k (l.map fun e => (e.1, g e.1 e.2)) = (get? k l).map (g k) := by
  induction l with
  | nil => rfl
  | cons e rest ih =>
    obtain ⟨k', v⟩ := e
    by_cases h : k = k'
    · subst h
      simp [get?]
    · simp [get?, h, ih]

theorem get?_filter_key (p : κ → Bool) (k : κ) (l : List (κ × ν)) :
    get? k (l.filter fun e => p e.1) = if p k then get? k l else none := by
  induction l with
  | nil => simp [get?]
  | cons e rest ih =>
    obtain ⟨k', v⟩ := e
    by_cases hp : p k' <;> by_cases h : k = k'
    · subst h
      simp [get?, hp]
    · simp [get?, hp, h, ih]
    · subst h
      simp [hp, ih]
    · simp [get?, hp, h, ih]

theorem get?_erase (k k' : κ) (l : List (κ × ν)) :
    get? k (erase k' l) = if k = k' then none else get? k l := by
  rw [erase, get?_filter_key (fun x => decide (x ≠ k'))]
  by_cases h : k = k' <;> simp [h]

theorem mem_of_get? {k : κ} {v : ν} {l : List (κ × ν)} (h : get? k l = some v) : (k, v) ∈ l := by
  induction l with
  | nil => simp [get?] at h
  | cons e rest ih =>
    obtain ⟨k', v'⟩ := e
    by_cases hk : k = k'
    · subst hk
      simp only [get?, ite_true, Option.some.injEq] at h
      simp [h]
    · simp only [get?, hk, ite_false] at h
      exact List.mem_cons_of_mem _ (ih h)

end Lookup

section Order

variable [LinearOrder κ]

theorem get?_insert (k k' : κ) (v : ν) (l : List (κ × ν)) :
    get? k (insert k' v l) = if k = k' then some v else get? k l := by
  induction l with
  | nil => simp [insert, get?]
  | cons e rest ih =>
    obtain ⟨k'', w⟩ := e
    by_cases hlt : k' < k''
    · simp [insert, hlt, get?]
    · by_cases heq : k' = k''
      · subst heq
        by_cases h : k = k' <;> simp [insert, get?, h]
      · simp only [insert, hlt, heq, ite_false, get?, ih]
        by_cases h : k = k''
        · subst h
          simp [Ne.symm heq]
        · simp [h]

theorem mem_insert {k : κ} {v : ν} {e : κ × ν} {l : List (κ × ν)} (h : e ∈ insert k v l) :
    e = (k, v) ∨ e ∈ l := by
  induction l with
  | nil => simpa [insert] using h
  | cons e' rest ih =>
    obtain ⟨k', v'⟩ := e'
    simp only [insert] at h
    split_ifs at h with h1 h2
    · rcases List.mem_cons.mp h with rfl | h
      · exact .inl rfl
      · exact .inr h
    · rcases List.mem_cons.mp h with rfl | h
      · exact .inl rfl
      · exact .inr (List.mem_cons_of_mem _ h)
    · rcases List.mem_cons.mp h with rfl | h
      · exact .inr (List.mem_cons_self ..)
      · exact (ih h).imp_right (List.mem_cons_of_mem _)

theorem Sorted.insert {l : List (κ × ν)} (h : Sorted l) (k : κ) (v : ν) :
    Sorted (Assoc.insert k v l) := by
  induction l with
  | nil => simp [Assoc.insert, Sorted]
  | cons e rest ih =>
    obtain ⟨k', v'⟩ := e
    have hhead := (List.pairwise_cons.mp h).1
    have htail : Sorted rest := (List.pairwise_cons.mp h).2
    simp only [Assoc.insert]
    split_ifs with h1 h2
    · refine List.pairwise_cons.mpr ⟨fun e he => ?_, h⟩
      rcases List.mem_cons.mp he with rfl | he
      · exact h1
      · exact h1.trans (hhead e he)
    · subst h2
      exact List.pairwise_cons.mpr ⟨hhead, htail⟩
    · refine List.pairwise_cons.mpr ⟨fun e he => ?_, ih htail⟩
      rcases mem_insert he with rfl | he
      · exact lt_of_le_of_ne (not_lt.mp h1) (Ne.symm h2)
      · exact hhead e he

theorem Sorted.filter {l : List (κ × ν)} (h : Sorted l) (p : κ × ν → Bool) :
    Sorted (l.filter p) :=
  List.Pairwise.sublist List.filter_sublist h

theorem Sorted.map {l : List (κ × ν)} (h : Sorted l) (g : κ → ν → ω) :
    Sorted (l.map fun e => (e.1, g e.1 e.2)) :=
  List.Pairwise.map _ (fun _ _ hlt => hlt) h

theorem get?_eq_none_of_lt {k : κ} {l : List (κ × ν)} (h : ∀ e ∈ l, k < e.1) :
    get? k l = none := by
  induction l with
  | nil => rfl
  | cons e rest ih =>
    obtain ⟨k', v⟩ := e
    have hk : k ≠ k' := (h (k', v) (List.mem_cons_self ..)).ne
    simp only [get?, hk, ite_false]
    exact ih fun e he => h e (List.mem_cons_of_mem _ he)

theorem Sorted.get?_eq_some {l : List (κ × ν)} (h : Sorted l) {k : κ} {v : ν} (hm : (k, v) ∈ l) :
    get? k l = some v := by
  induction l with
  | nil => simp at hm
  | cons e rest ih =>
    obtain ⟨k', v'⟩ := e
    rcases List.mem_cons.mp hm with heq | hm
    · cases heq
      simp [get?]
    · have hlt : k' < k := (List.pairwise_cons.mp h).1 (k, v) hm
      simp only [get?, hlt.ne', ite_false]
      exact ih (List.pairwise_cons.mp h).2 hm

/-- Sorted lists with the same lookups are equal: their heads agree, since the smaller of two
different head keys would be missing in the other list. -/
theorem Sorted.ext {l l' : List (κ × ν)} (h : Sorted l) (h' : Sorted l')
    (heq : ∀ k, get? k l = get? k l') : l = l' := by
  induction l generalizing l' with
  | nil =>
    cases l' with
    | nil => rfl
    | cons e rest => simpa [get?] using heq e.1
  | cons e rest ih =>
    obtain ⟨k, v⟩ := e
    cases l' with
    | nil => simpa [get?] using heq k
    | cons e' rest' =>
      obtain ⟨k', v'⟩ := e'
      have hhead := (List.pairwise_cons.mp h).1
      have hhead' := (List.pairwise_cons.mp h').1
      have hkey : k = k' := by
        rcases lt_trichotomy k k' with hlt | heq' | hgt
        · have hnone : get? k ((k', v') :: rest') = none := get?_eq_none_of_lt fun e he => by
            rcases List.mem_cons.mp he with rfl | he
            · exact hlt
            · exact hlt.trans (hhead' e he)
          have := heq k
          rw [hnone] at this
          simp [get?] at this
        · exact heq'
        · have hnone : get? k' ((k, v) :: rest) = none := get?_eq_none_of_lt fun e he => by
            rcases List.mem_cons.mp he with rfl | he
            · exact hgt
            · exact hgt.trans (hhead e he)
          have := heq k'
          rw [hnone] at this
          simp [get?] at this
      subst hkey
      have hval : v = v' := by simpa [get?] using heq k
      subst hval
      have htail : rest = rest' := by
        refine ih (List.pairwise_cons.mp h).2 (List.pairwise_cons.mp h').2 fun x => ?_
        by_cases hx : x = k
        · subst hx
          rw [get?_eq_none_of_lt hhead, get?_eq_none_of_lt hhead']
        · simpa [get?, hx] using heq x
      rw [htail]

end Order

end Assoc

/-- A finite map from `κ` to `ν`. -/
@[ext] structure SortedMap (κ ν : Type) [LinearOrder κ] where
  entries : List (κ × ν)
  sorted : Assoc.Sorted entries

namespace SortedMap

variable {κ ν ω : Type} [LinearOrder κ]

instance [DecidableEq ν] : DecidableEq (SortedMap κ ν) := fun a b =>
  decidable_of_iff (a.entries = b.entries) SortedMap.ext_iff.symm

def empty : SortedMap κ ν := ⟨[], List.Pairwise.nil⟩

instance : EmptyCollection (SortedMap κ ν) := ⟨empty⟩

instance : Inhabited (SortedMap κ ν) := ⟨empty⟩

def get? (m : SortedMap κ ν) (k : κ) : Option ν := Assoc.get? k m.entries

def insert (m : SortedMap κ ν) (k : κ) (v : ν) : SortedMap κ ν :=
  ⟨Assoc.insert k v m.entries, m.sorted.insert k v⟩

def erase (m : SortedMap κ ν) (k : κ) : SortedMap κ ν :=
  ⟨Assoc.erase k m.entries, m.sorted.filter _⟩

/-- The entries whose key satisfies `p`. -/
def filterKeys (m : SortedMap κ ν) (p : κ → Bool) : SortedMap κ ν :=
  ⟨m.entries.filter fun e => p e.1, m.sorted.filter _⟩

/-- The entries that satisfy `p`. -/
def filter (m : SortedMap κ ν) (p : κ → ν → Bool) : SortedMap κ ν :=
  ⟨m.entries.filter fun e => p e.1 e.2, m.sorted.filter _⟩

def mapValues (m : SortedMap κ ν) (g : κ → ν → ω) : SortedMap κ ω :=
  ⟨m.entries.map fun e => (e.1, g e.1 e.2), m.sorted.map g⟩

/-- The entries of `m` with those of `other` set over them. -/
def insertAll (m other : SortedMap κ ν) : SortedMap κ ν :=
  other.entries.foldl (fun acc e => acc.insert e.1 e.2) m

def ofList (l : List (κ × ν)) : SortedMap κ ν :=
  l.foldl (fun acc e => acc.insert e.1 e.2) ∅

@[simp] theorem get?_empty (k : κ) : (∅ : SortedMap κ ν).get? k = none := rfl

@[simp] theorem get?_insert (m : SortedMap κ ν) (k k' : κ) (v : ν) :
    (m.insert k' v).get? k = if k = k' then some v else m.get? k :=
  Assoc.get?_insert k k' v m.entries

@[simp] theorem get?_erase (m : SortedMap κ ν) (k k' : κ) :
    (m.erase k').get? k = if k = k' then none else m.get? k :=
  Assoc.get?_erase k k' m.entries

@[simp] theorem get?_filterKeys (m : SortedMap κ ν) (p : κ → Bool) (k : κ) :
    (m.filterKeys p).get? k = if p k then m.get? k else none :=
  Assoc.get?_filter_key p k m.entries

@[simp] theorem get?_mapValues (m : SortedMap κ ν) (g : κ → ν → ω) (k : κ) :
    (m.mapValues g).get? k = (m.get? k).map (g k) :=
  Assoc.get?_map g k m.entries

/-- The map with the entries of `l` that are present; the keys of `l` increase. -/
def ofOptions (l : List (κ × Option ν)) (h : (l.map Prod.fst).Pairwise (· < ·)) : SortedMap κ ν :=
  ⟨l.filterMap fun e => e.2.map fun v => (e.1, v), by
    refine List.Pairwise.filterMap _ ?_ (List.pairwise_map.mp h)
    intro a a' hlt b hb b' hb'
    obtain ⟨v, -, rfl⟩ := Option.map_eq_some_iff.mp hb
    obtain ⟨v', -, rfl⟩ := Option.map_eq_some_iff.mp hb'
    exact hlt⟩

@[simp] theorem get?_ofOptions (l : List (κ × Option ν)) (h) (k : κ) :
    (ofOptions l h).get? k = (Assoc.get? k l).join := by
  unfold ofOptions get?
  induction l with
  | nil => rfl
  | cons e rest ih =>
    obtain ⟨k', v⟩ := e
    have hrest := List.pairwise_cons.mp h
    have hnone :
        k = k' → Assoc.get? k (rest.filterMap fun e => e.2.map fun v => (e.1, v)) = none := by
      rintro rfl
      refine Assoc.get?_eq_none_of_lt fun e he => ?_
      obtain ⟨e', he', heq⟩ := List.mem_filterMap.mp he
      obtain ⟨v', -, rfl⟩ := Option.map_eq_some_iff.mp heq
      exact hrest.1 _ (List.mem_map_of_mem he')
    cases v with
    | none =>
      by_cases hk : k = k'
      · have hfilter := hnone hk
        subst hk
        simp [Assoc.get?, hfilter]
      · simp [Assoc.get?, hk, ih hrest.2]
    | some v =>
      by_cases hk : k = k'
      · simp [Assoc.get?, hk]
      · simp [Assoc.get?, hk, ih hrest.2]

/-- The entries that `g` gives a value. -/
def filterMapValues (m : SortedMap κ ν) (g : ν → Option ω) : SortedMap κ ω :=
  ⟨m.entries.filterMap fun e => (g e.2).map fun v => (e.1, v), by
    refine List.Pairwise.filterMap _ ?_ m.sorted
    intro a a' hlt b hb b' hb'
    obtain ⟨v, -, rfl⟩ := Option.map_eq_some_iff.mp hb
    obtain ⟨v', -, rfl⟩ := Option.map_eq_some_iff.mp hb'
    exact hlt⟩

theorem ext_get? {m m' : SortedMap κ ν} (h : ∀ k, m.get? k = m'.get? k) : m = m' :=
  SortedMap.ext (m.sorted.ext m'.sorted h)

/-- To insert what is there already changes nothing. -/
theorem insert_eq_self {m : SortedMap κ ν} {k : κ} {v : ν} (h : m.get? k = some v) :
    m.insert k v = m := by
  refine ext_get? fun k' => ?_
  rw [get?_insert]
  split
  · next heq => rw [heq, h]
  · rfl

theorem mem_entries {m : SortedMap κ ν} {k : κ} {v : ν} :
    (k, v) ∈ m.entries ↔ m.get? k = some v :=
  ⟨m.sorted.get?_eq_some, Assoc.mem_of_get?⟩

@[simp] theorem get?_filter (m : SortedMap κ ν) (p : κ → ν → Bool) (k : κ) :
    (m.filter p).get? k = (m.get? k).filter (p k) := by
  refine Option.ext fun v => ?_
  rw [← mem_entries, Option.filter_eq_some_iff, ← mem_entries]
  simp [filter]

@[simp] theorem get?_filterMapValues (m : SortedMap κ ν) (g : ν → Option ω) (k : κ) :
    (m.filterMapValues g).get? k = (m.get? k).bind g := by
  refine Option.ext fun v => ?_
  rw [← mem_entries, Option.bind_eq_some_iff]
  simp only [filterMapValues, List.mem_filterMap, Option.map_eq_some_iff, Prod.mk.injEq]
  constructor
  · rintro ⟨⟨k', u⟩, hmem, v', hv', rfl, rfl⟩
    exact ⟨u, mem_entries.mp hmem, hv'⟩
  · rintro ⟨u, hu, hv⟩
    exact ⟨(k, u), mem_entries.mpr hu, v, hv, rfl, rfl⟩

/-- A fold of insertions over sorted entries, as lookups: the entries win over the start. -/
theorem get?_foldl_insert {l : List (κ × ν)} (hl : Assoc.Sorted l) (m : SortedMap κ ν) (k : κ) :
    (l.foldl (fun acc e => acc.insert e.1 e.2) m).get? k = (Assoc.get? k l).or (m.get? k) := by
  induction l generalizing m with
  | nil => simp [Assoc.get?]
  | cons e rest ih =>
    obtain ⟨k', v⟩ := e
    have hhead := (List.pairwise_cons.mp hl).1
    rw [List.foldl_cons, ih (List.pairwise_cons.mp hl).2]
    by_cases h : k = k'
    · subst h
      simp [Assoc.get?, Assoc.get?_eq_none_of_lt hhead]
    · simp [Assoc.get?, h]

theorem mem_of_get?_ofList {l : List (κ × ν)} {k : κ} {v : ν} (h : (ofList l).get? k = some v) :
    (k, v) ∈ l := by
  have hfold : ∀ (l : List (κ × ν)) (m : SortedMap κ ν),
      (l.foldl (fun acc e => acc.insert e.1 e.2) m).get? k = some v →
      (k, v) ∈ l ∨ m.get? k = some v := by
    intro l
    induction l with
    | nil => exact fun m h => .inr h
    | cons e rest ih =>
      intro m h
      rcases ih _ h with hrest | hm
      · exact .inl (List.mem_cons_of_mem _ hrest)
      · rw [get?_insert] at hm
        split at hm
        · next heq =>
          cases hm
          exact .inl (by simp [heq])
        · exact .inr hm
  rcases hfold l ∅ h with hl | hnone
  · exact hl
  · cases hnone

theorem exists_get?_ofList {l : List (κ × ν)} {k : κ} {v : ν} (h : (k, v) ∈ l) :
    ∃ v', (ofList l).get? k = some v' := by
  have hfold : ∀ (l : List (κ × ν)) (m : SortedMap κ ν),
      (k, v) ∈ l ∨ (m.get? k).isSome = true →
      ((l.foldl (fun acc e => acc.insert e.1 e.2) m).get? k).isSome = true := by
    intro l
    induction l with
    | nil => exact fun m h => h.resolve_left (by simp)
    | cons e rest ih =>
      intro m h
      refine ih _ ?_
      rw [get?_insert, List.mem_cons] at *
      rcases h with (rfl | hrest) | hm
      · exact .inr (by simp)
      · exact .inl hrest
      · refine .inr ?_
        split
        · rfl
        · exact hm
  exact Option.isSome_iff_exists.mp (hfold l ∅ (.inl h))

@[simp] theorem get?_insertAll (m other : SortedMap κ ν) (k : κ) :
    (m.insertAll other).get? k = (other.get? k).or (m.get? k) :=
  get?_foldl_insert other.sorted m k

/-- Every entry of `other` is one of `m`. -/
def Contains (m other : SortedMap κ ν) : Prop := ∀ k v, other.get? k = some v → m.get? k = some v

theorem contains_insertAll (m other : SortedMap κ ν) : (m.insertAll other).Contains other := by
  intro k v h
  rw [get?_insertAll, h]
  rfl

theorem Contains.insertAll {m want other : SortedMap κ ν} (h : m.Contains want)
    (hother : ∀ k v, want.get? k = some v → other.get? k = none) :
    (m.insertAll other).Contains want := by
  intro k v hk
  rw [get?_insertAll, hother k v hk]
  exact h k v hk

end SortedMap
