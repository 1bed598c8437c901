import LinkedNotes.Json.Basic
import Mathlib.Data.List.Nodup

/-!
# Fields of JSON objects

An object that was read, or that is laid over another one, holds its fields in the order of their
names and each name once. Main statements: setting, removing and merging fields keep this order, and
a merged object has, for each name, the older value, the newer one, or both merged.
-/

namespace LinkedNotes.Text

/-- Of two texts one comes first. -/
theorem le_total {first second : Text} (h : le first second ≠ true) : le second first = true := by
  fun_induction le first second with
  | case1 => exact absurd rfl h
  | case2 => rfl
  | case3 a s b t ih =>
    simp only [ne_eq, Bool.or_eq_true, Bool.and_eq_true, decide_eq_true_eq, beq_iff_eq, not_or,
      not_and] at h
    simp only [le, Bool.or_eq_true, Bool.and_eq_true, decide_eq_true_eq, beq_iff_eq]
    by_cases hab : a = b
    · exact .inr ⟨hab.symm, ih (h.2 hab)⟩
    · have hne : a.toNat ≠ b.toNat := fun heq => hab (Char.toNat_inj.mp heq)
      exact .inl (by omega)

/-- A text before another one comes before all that follow this one. -/
theorem le_trans {first second third : Text} (h : le first second = true)
    (h' : le second third = true) : le first third = true := by
  fun_induction le first second generalizing third with
  | case1 => cases third <;> rfl
  | case2 => cases h
  | case3 a s b t ih =>
    cases third with
    | nil => cases h'
    | cons c u =>
      simp only [le, Bool.or_eq_true, Bool.and_eq_true, decide_eq_true_eq, beq_iff_eq] at h h' ⊢
      rcases h with h | ⟨rfl, h⟩
      · rcases h' with h' | ⟨rfl, -⟩
        · exact .inl (Nat.lt_trans h h')
        · exact .inl h
      · rcases h' with h' | ⟨rfl, h'⟩
        · exact .inl h'
        · exact .inr ⟨rfl, ih h h'⟩

/-- Texts that come before each other are the same. -/
theorem le_antisymm {first second : Text} (h : le first second = true)
    (h' : le second first = true) : first = second := by
  fun_induction le first second with
  | case1 second => cases second with
    | nil => rfl
    | cons => cases h'
  | case2 => cases h
  | case3 a s b t ih =>
    simp only [le, Bool.or_eq_true, Bool.and_eq_true, decide_eq_true_eq, beq_iff_eq] at h h'
    rcases h with h | ⟨rfl, h⟩
    · rcases h' with h' | ⟨rfl, -⟩ <;> omega
    · rw [ih h (h'.resolve_left (Nat.lt_irrefl _)).2]

end LinkedNotes.Text

namespace LinkedNotes.Json

namespace Fields

variable {name other : Text} {value : Json} {fields : Fields}

/-- Whether fields stand in the order of their names, and each name once. -/
def Ordered (fields : Fields) : Prop :=
  fields.Pairwise fun first second => Text.le first.1 second.1 = true ∧ first.1 ≠ second.1

/-! ## Lookups -/

/-- A name without a value is none of the names. -/
theorem get?_eq_none_iff : get? name fields = none ↔ name ∉ fields.map (·.1) := by
  induction fields with
  | nil => simp [get?]
  | cons field rest ih =>
    by_cases h : field.1 = name
    · simp [get?, h]
    · simp [get?, h, ih, Ne.symm h]

/-- A value that is found is that of a field. -/
theorem mem_of_get? (h : get? name fields = some value) : (name, value) ∈ fields := by
  induction fields with
  | nil => cases h
  | cons field rest ih =>
    simp only [get?] at h
    split at h
    · next heq =>
      cases h
      exact heq ▸ List.mem_cons_self
    · exact List.mem_cons_of_mem _ (ih h)

/-- The value of a field is found, if no name is given twice. -/
theorem get?_of_mem (h : (fields.map (·.1)).Nodup) (hmem : (name, value) ∈ fields) :
    get? name fields = some value := by
  induction fields with
  | nil => cases hmem
  | cons field rest ih =>
    obtain ⟨hfirst, hrest⟩ := List.nodup_cons.mp h
    rcases List.mem_cons.mp hmem with rfl | hmem
    · rw [get?, if_pos rfl]
    · have hne : field.1 ≠ name := fun heq =>
        hfirst (List.mem_map.mpr ⟨_, hmem, heq.symm⟩)
      rw [get?, if_neg hne, ih hrest hmem]

/-- Removing a field leaves the others alone. -/
theorem get?_erase (name other : Text) (fields : Fields) :
    get? other (erase name fields) = if other = name then none else get? other fields := by
  induction fields with
  | nil => simp [erase, get?]
  | cons field rest ih =>
    simp only [erase] at ih
    by_cases hname : field.1 = name
    · by_cases hother : field.1 = other <;> simp_all [erase, get?]
    · by_cases hother : field.1 = other <;> simp_all [erase, get?]

/-- Setting a field leaves the others alone. -/
theorem get?_set (name other : Text) (value : Json) (fields : Fields) :
    get? other (set name value fields) =
      if other = name then some value else get? other fields := by
  split
  · next h => rw [h, get?_set_self]
  · next h => exact get?_set_of_ne h value fields

/-! ## Order -/

namespace Ordered

/-- Ordered fields have different names. -/
theorem nodup (h : fields.Ordered) : (fields.map (·.1)).Nodup :=
  List.pairwise_map.mpr (h.imp And.right)

/-- The first name does not occur again. -/
theorem get?_rest {field : Text × Json} {rest : Fields} (h : Ordered (field :: rest)) :
    get? field.1 rest = none :=
  get?_eq_none_iff.mpr (List.nodup_cons.mp h.nodup).1

/-- What follows a field is ordered. -/
theorem tail {field : Text × Json} {rest : Fields} (h : Ordered (field :: rest)) :
    Ordered rest :=
  (List.pairwise_cons.mp h).2

/-- Removing a field keeps the order of the others. -/
theorem erase (h : fields.Ordered) (name : Text) : (Fields.erase name fields).Ordered :=
  h.sublist List.filter_sublist

/-- A field is set in its place. -/
theorem set (h : fields.Ordered) (name : Text) (value : Json) :
    (Fields.set name value fields).Ordered := by
  induction fields with
  | nil => exact List.pairwise_singleton _ _
  | cons field rest ih =>
    obtain ⟨hfirst, hrest⟩ := List.pairwise_cons.mp h
    simp only [Fields.set]
    split
    · next heq =>
      subst heq
      exact List.pairwise_cons.mpr ⟨hfirst, hrest⟩
    next hne =>
    split
    · next hle =>
      refine List.pairwise_cons.mpr ⟨fun later hlater => ?_, h⟩
      rcases List.mem_cons.mp hlater with rfl | hlater
      · exact ⟨hle, Ne.symm hne⟩
      · have hafter := hfirst later hlater
        refine ⟨Text.le_trans hle hafter.1, ?_⟩
        rintro rfl
        exact hne (Text.le_antisymm hafter.1 hle)
    · next hle =>
      refine List.pairwise_cons.mpr ⟨fun later hlater => ?_, ih hrest⟩
      -- A field behind this one is the new one, or it was there before.
      by_cases hnew : later.1 = name
      · rw [hnew]
        exact ⟨Text.le_total hle, hne⟩
      · have hsome : get? later.1 (Fields.set name value rest) ≠ none := by
          rw [Ne, get?_eq_none_iff, not_not]
          exact List.mem_map_of_mem hlater
        rw [get?_set_of_ne hnew, Ne, get?_eq_none_iff, not_not, List.mem_map] at hsome
        obtain ⟨old, hold, heq⟩ := hsome
        rw [← heq]
        exact hfirst old hold

end Ordered

/-- The fields of the object that is made of given ones. -/
def ofList (fields : Fields) : Fields :=
  fields.foldl (fun done (name, value) => set name value done) []

/-- An object that is made of given fields has them in order. -/
theorem ordered_ofList (fields : Fields) : (ofList fields).Ordered := by
  have hstart (start : Fields) (h : start.Ordered) :
      (fields.foldl (fun done (name, value) => set name value done) start).Ordered := by
    induction fields generalizing start with
    | nil => exact h
    | cons field rest ih => exact ih _ (h.set _ _)
  exact hstart [] .nil

/-- An object has the fields that it is made of, if no name is given twice. -/
theorem get?_ofList (h : (fields.map (·.1)).Nodup) (name : Text) :
    get? name (ofList fields) = get? name fields := by
  have hstart (start : Fields) :
      get? name (fields.foldl (fun done (name, value) => set name value done) start) =
        (get? name fields).or (get? name start) := by
    induction fields generalizing start with
    | nil => rfl
    | cons field rest ih =>
      obtain ⟨hfirst, hrest⟩ := List.nodup_cons.mp h
      rw [List.foldl_cons, ih hrest, get?_set]
      by_cases hname : name = field.1
      · rw [if_pos hname, hname, get?_eq_none_iff.mpr hfirst]
        simp [get?]
      · rw [if_neg hname]
        simp [get?, Ne.symm hname]
  exact (hstart []).trans (Option.or_none)

end Fields

/-- Whether all objects in a value have their fields in order. -/
inductive WellFormed : Json → Prop where
  | null : WellFormed .null
  | bool (value : Bool) : WellFormed (.bool value)
  | int (value : Int) : WellFormed (.int value)
  | decimal (value : Decimal) : WellFormed (.decimal value)
  | str (value : Text) : WellFormed (.str value)
  | arr {items : List Json} (inside : ∀ item ∈ items, WellFormed item) : WellFormed (.arr items)
  | obj {fields : Fields} (ordered : fields.Ordered)
    (inside : ∀ field ∈ fields, WellFormed field.2) : WellFormed (.obj fields)

/-- The fields of a well-formed object are in order. -/
theorem WellFormed.ordered {fields : Fields} (h : WellFormed (.obj fields)) : fields.Ordered := by
  cases h
  assumption

/-- The values of a well-formed object are well-formed. -/
theorem WellFormed.get? {fields : Fields} {name : Text} {value : Json}
    (h : WellFormed (.obj fields)) (hvalue : Fields.get? name fields = some value) :
    value.WellFormed := by
  cases h with
  | obj _ inside => exact inside _ (Fields.mem_of_get? hvalue)

/-! ## Merging -/

/-- Only objects are joined; anything else is replaced. -/
theorem merge_of_not_obj {base : Json} (h : ∀ fields, base ≠ .obj fields) (value : Json) :
    merge base value = value := by
  cases value with
  | obj overrides =>
    cases base with
    | obj fields => exact absurd rfl (h fields)
    | _ => rfl
  | _ => rfl

/-- Only an object is joined with what was there; anything else replaces it. -/
theorem merge_not_obj {value : Json} (h : ∀ fields, value ≠ .obj fields) (base : Json) :
    merge base value = value := by
  cases value with
  | obj fields => exact absurd rfl (h fields)
  | _ => rfl

/-- Each field of one object is laid over the field with its name in the other. -/
theorem get?_mergeFields {overrides : Fields} (h : overrides.Ordered) (base : Fields)
    (name : Text) :
    Fields.get? name (mergeFields base overrides) =
      match Fields.get? name overrides, Fields.get? name base with
      | none, old => old
      | some value, none => some value
      | some value, some old => some (merge old value) := by
  induction overrides generalizing base with
  | nil => rfl
  | cons field rest ih =>
    have hmerge : mergeFields base (field :: rest) =
        mergeFields (Fields.set field.1
          (((Fields.get? field.1 base).map (merge · field.2)).getD field.2) base) rest := by
      rw [mergeFields]
      cases Fields.get? field.1 base <;> rfl
    rw [hmerge, ih h.tail, Fields.get?_set]
    by_cases hname : name = field.1
    · subst hname
      rw [h.get?_rest, if_pos rfl]
      cases Fields.get? field.1 base <;> simp [Fields.get?]
    · rw [if_neg hname]
      simp only [Fields.get?, if_neg (Ne.symm hname)]

/-- Merging keeps the order of the fields. -/
theorem ordered_mergeFields {base : Fields} (h : base.Ordered) (overrides : Fields) :
    (mergeFields base overrides).Ordered := by
  induction overrides generalizing base with
  | nil => exact h
  | cons field rest ih =>
    rw [mergeFields]
    cases Fields.get? field.1 base with
    | none => exact ih (h.set _ _)
    | some old => exact ih (h.set _ _)

end LinkedNotes.Json
