import SyncAgent.Mutation.FieldPaths

/-! What the steps of a mutation do to numbers that they do not address.  The decoder knows only
doubles, so the first step turns every integer of the object into the nearest double; later steps
keep it. -/

namespace Mutation

open Float64 Sync

/-! ### Decoded objects -/

theorem decodeObject_of_mapM {d : Document} {o : Object}
    (h : d.tree.mapM decodeNumber = some o.tree) : decodeObject d = .ok o := by
  unfold decodeObject
  split
  · next members hm =>
    rw [hm] at h
    cases h
    rfl
  · next hm =>
    rw [hm] at h
    cases h
  · next t hobj _ hm =>
    rw [hm] at h
    exact absurd (Option.some.inj h) (hobj o.members)
  · next hm =>
    rw [hm] at h
    cases h

/-- A decoded object is the conversion of the document, unless the document is `null`. -/
theorem decodeObject_eq_ok {d : Document} {o : Object} (h : decodeObject d = .ok o) :
    d.tree.mapM decodeNumber = some o.tree ∨
      d.tree.mapM decodeNumber = some .null ∧ o.members = [] := by
  unfold decodeObject at h
  split at h
  · next members hm =>
    cases h
    exact .inl hm
  · next hm =>
    cases h
    exact .inr ⟨hm, rfl⟩
  · cases h
  · cases h

/-- All numbers of the object are doubles. -/
def Object.OnlyDoubles (o : Object) : Prop := ∀ n ∈ o.tree.numbers, ∃ x, n = .double x

theorem onlyDoubles_of_decodeObject {d : Document} {o : Object} (h : decodeObject d = .ok o) :
    o.OnlyDoubles := by
  intro n hn
  rcases decodeObject_eq_ok h with hm | ⟨-, hempty⟩
  · obtain ⟨q, -, hq⟩ := DataTree.exists_of_mem_numbers_mapM hm hn
    obtain ⟨x, -, rfl⟩ := Option.map_eq_some_iff.mp hq
    exact ⟨x, rfl⟩
  · rw [Object.tree, hempty] at hn
    cases hn

theorem decodeObject_encodeObject_iff (F : NumberFormat) (o : Object) :
    decodeObject (encodeObject F o) = .ok o ↔ o.OnlyDoubles := by
  refine ⟨onlyDoubles_of_decodeObject, fun h => decodeObject_of_mapM ?_⟩
  unfold encodeObject
  rw [DataTree.mapM_map]
  refine DataTree.mapM_eq_self fun n hn => ?_
  obtain ⟨x, rfl⟩ := h n hn
  rw [decodeNumber, NumberFormat.literal, F.nearest_print, Option.map_some]

/-! ### Steps and runs -/

section Runs

variable {L : Libraries}

theorem Transformer.onlyDoubles_of_apply {t : Transformer L} {o o' : Object} {other : Option Object}
    (h : t.apply o other = .ok o') : o'.OnlyDoubles := by
  obtain ⟨d, -, hdecode⟩ := exists_of_bind_eq_ok h
  exact onlyDoubles_of_decodeObject hdecode

theorem applyAll_cons_eq_ok {t : Transformer L} {rest : List (Transformer L)} {o o' : Object}
    {other : Option Object} (h : applyAll (t :: rest) o other = .ok o') :
    ∃ o₁, t.apply o other = .ok o₁ ∧ applyAll rest o₁ other = .ok o' := by
  rw [applyAll] at h
  split at h
  · cases h
  · next o₁ hstep => exact ⟨o₁, hstep, h⟩

theorem applyAll_append (ts ts' : List (Transformer L)) (o : Object) (other : Option Object) :
    applyAll (ts ++ ts') o other = (applyAll ts o other).bind fun o' => applyAll ts' o' other := by
  induction ts generalizing o with
  | nil => rfl
  | cons t rest ih =>
    rw [List.cons_append, applyAll, applyAll]
    cases t.apply o other with
    | error e => rfl
    | ok o' => exact ih o'

theorem onlyDoubles_of_applyAll {ts : List (Transformer L)} {o o' : Object} {other : Option Object}
    (ho : o.OnlyDoubles) (h : applyAll ts o other = .ok o') : o'.OnlyDoubles := by
  induction ts generalizing o with
  | nil =>
    cases h
    exact ho
  | cons t rest ih =>
    obtain ⟨o₁, hstep, hrest⟩ := applyAll_cons_eq_ok h
    exact ih (Transformer.onlyDoubles_of_apply hstep) hrest

end Runs

/-! ### When mutations leave the rest of an object unchanged -/

/-- The object comes back from its document; a run of steps leaves the integers that no step
addresses; and a step that does not change the document can be inserted anywhere. -/
structure LeavesRest (L : Libraries) (o : Object) : Prop where
  roundTrip : decodeObject (encodeObject L.json o) = .ok o
  integers : ∀ (ts : List (Transformer L)) (other : Option Object) (o' : Object),
    AggregateTransformer.apply (some ts) o other = .ok o' →
    ∀ (loc : List DataTree.Key) (n : Int64), o.tree.at? loc = some (.num (.int n)) →
      (∀ t ∈ ts, ¬ L.addresses t.path loc) → o'.tree.at? loc = some (.num (.int n))
  neutral : ∀ (before after : List (Transformer L)) (t : Transformer L) (other : Option Object)
    (o₁ : Object), AggregateTransformer.apply (some before) o other = .ok o₁ →
    t.updated o₁ other = .ok (encodeObject L.json o₁) →
    AggregateTransformer.apply (some (before ++ t :: after)) o other =
      AggregateTransformer.apply (some (before ++ after)) o other

/-- Mutations leave the rest of an object unchanged exactly if it has no integers. -/
theorem leavesRest_iff (L : Libraries) (o : Object) : LeavesRest L o ↔ o.OnlyDoubles := by
  refine ⟨fun h => (decodeObject_encodeObject_iff L.json o).mp h.roundTrip, fun ho => ?_⟩
  refine ⟨(decodeObject_encodeObject_iff L.json o).mpr ho, fun ts other o' _ loc n hn _ => ?_,
    fun before after t other o₁ hbefore hsame => ?_⟩
  · obtain ⟨x, hx⟩ := ho _ (DataTree.mem_numbers_of_at? hn)
    cases hx
  · -- before the inserted step there are no integers either, so it changes nothing
    have ho₁ := onlyDoubles_of_applyAll ho hbefore
    have hstep : t.apply o₁ other = .ok o₁ := by
      rw [Transformer.apply, hsame]
      exact (decodeObject_encodeObject_iff L.json o₁).mpr ho₁
    simp only [AggregateTransformer.apply] at hbefore ⊢
    rw [applyAll_append, applyAll_append, hbefore]
    simp only [Except.bind, applyAll, hstep]

/-- The first integer that is no double lies in the middle of two, and the one with the even
significand is taken. -/
theorem nearest_two_pow_53_add_one :
    (nearest 9007199254740993).map Double.value = some 9007199254740992 := by
  have hlog : Int.log 2 |(9007199254740993 : ℚ)| = 53 := by
    have hnat : Nat.log 2 9007199254740993 = 53 :=
      Nat.log_eq_of_pow_le_of_lt_pow (by norm_num) (by norm_num)
    rw [abs_of_pos (by norm_num)]
    exact_mod_cast (Int.log_natCast (R := ℚ) 2 9007199254740993).trans (congrArg Nat.cast hnat)
  have hexponent : exponent 9007199254740993 = 1 := by
    rw [exponent, hlog]
    norm_num
  have hfloor : ⌊(9007199254740993 / 2 : ℚ)⌋ = 4503599627370496 := by
    rw [Int.floor_eq_iff]
    norm_num
  have hrounded : rounded 9007199254740993 = 9007199254740992 := by
    rw [rounded, hexponent, zpow_one, roundEven, hfloor]
    norm_num
  have hrange : |rounded 9007199254740993| < 2 ^ (1024 : ℤ) := by
    rw [hrounded]
    exact (show |(9007199254740992 : ℚ)| < 2 ^ (64 : ℤ) by norm_num).trans
      (zpow_lt_zpow_right₀ (by norm_num) (by norm_num))
  rw [nearest, dif_pos hrange, Option.map_some]
  exact congrArg some hrounded

/-- An object with a number in its specification. -/
def withNumber (n : Number) : Object where
  members := [("spec", .obj [("id", .num n)])]
  wf := by simp [DataTree.WF, DataTree.WFMembers, Assoc.Sorted]

def idLocation : List DataTree.Key := [.field "spec", .field "id"]

theorem decodeObject_withNumber {F : NumberFormat} {n : Number} {x : Double}
    (h : nearest (F.literal n) = some x) :
    decodeObject (encodeObject F (withNumber n)) = .ok (withNumber (.double x)) := by
  refine decodeObject_of_mapM ?_
  simp [encodeObject, withNumber, Object.tree, DataTree.map, DataTree.mapMembers, DataTree.mapM,
    DataTree.mapMMembers, decodeNumber, h]

/-- A step that deletes a field that is not there turns the integer 2^53 + 1 into 2^53. -/
theorem large_integer_changed :
    (withNumber (.int 9007199254740993)).tree.at? idLocation =
      some (.num (.int 9007199254740993)) ∧
    ¬ fieldLibraries.addresses "spec.unused" idLocation ∧
    (∃ x : Double, AggregateTransformer.apply (L := fieldLibraries) (some [.delete "spec.unused"])
        (withNumber (.int 9007199254740993)) (some (withNumber (.int 9007199254740993))) =
          .ok (withNumber (.double x)) ∧ x.value = 9007199254740992) ∧
    ¬ LeavesRest fieldLibraries (withNumber (.int 9007199254740993)) := by
  have hloc : ¬ (List.map DataTree.Key.field (pathKeys "spec.unused") <+: idLocation ∨
      idLocation <+: List.map DataTree.Key.field (pathKeys "spec.unused")) := by decide
  obtain ⟨x, hx, hvalue⟩ := Option.map_eq_some_iff.mp nearest_two_pow_53_add_one
  have hliteral : NumberFormat.exactly.literal (.int 9007199254740993) = 9007199254740993 := by
    have hint : (9007199254740993 : Int64).toInt = 9007199254740993 := by decide
    rw [NumberFormat.literal, hint]
    norm_num
  have hdecode := decodeObject_withNumber ((congrArg nearest hliteral).trans hx)
  have hupdated : Transformer.updated (L := fieldLibraries) (.delete "spec.unused")
      (withNumber (.int 9007199254740993)) (some (withNumber (.int 9007199254740993))) =
        .ok (encodeObject .exactly (withNumber (.int 9007199254740993))) := rfl
  refine ⟨rfl, hloc, ⟨x, ?_, hvalue⟩, fun h => ?_⟩
  · simp only [AggregateTransformer.apply, applyAll, Transformer.apply, hupdated, Except.bind,
      hdecode]
  · have hsame := Except.ok.inj (hdecode.symm.trans h.roundTrip)
    simpa [withNumber] using congrArg Object.members hsame

end Mutation
