import LinkedNotes.Json.Misfit
import LinkedNotes.Proofs.Json.Fields

/-!
# Records read part by part

A record is read from the fields of an object one after the other. When each part of the record has
a name of its own, and its own way to be read, the order of the fields does not matter. Main
statements: a record that is read has the parts that are given, as they are read, and the parts of
the start otherwise; it can be read exactly when every given part can; and the same holds of fields
that are laid over those of a record that was written. Which misfit is told first is outside this
module.
-/

namespace LinkedNotes.Json

/-- A record that is read by its parts. -/
structure RecordReader.Parts {α : Type} (reader : RecordReader α) (Part : Type)
    (Value : Part → Type) where
  /-- The name under which a part stands. -/
  name : Part → Text
  /-- A part of a record. -/
  get : (part : Part) → α → Value part
  /-- A record with another part. -/
  put : (part : Part) → α → Value part → α
  /-- How a part is read. -/
  read : (part : Part) → Json → Except Misfit (Value part)
  /-- No two parts have one name. -/
  name_injective : Function.Injective name
  /-- A record is known by its parts. -/
  ext : ∀ {first second}, (∀ part, get part first = get part second) → first = second
  /-- What was put is there. -/
  get_put_self : ∀ part record value, get part (put part record value) = value
  /-- The other parts are left alone. -/
  get_put_of_ne : ∀ part other record value, other ≠ part →
    get other (put part record value) = get other record
  /-- The reader sets the part of a name to what is read. -/
  set_name : ∀ part record value,
    reader.set record (name part) value = (read part value).map (put part record)
  /-- The reader passes over any other name. -/
  set_unknown : ∀ record other value, (∀ part, name part ≠ other) →
    reader.set record other value = .ok record

/-- Whether a value is what some JSON gives, as it is read, or the old value if nothing is given. -/
def Lays {α : Type} (read : Json → Except Misfit α) (given : Option Json) (old new : α) : Prop :=
  match given with
  | none => new = old
  | some value => read value = .ok new

/-- Whether what is given, if anything is, can be read. -/
def Fits {α : Type} (read : Json → Except Misfit α) (given : Option Json) : Prop :=
  ∀ value, given = some value → ∃ found, read value = .ok found

namespace RecordReader

variable {α : Type} (reader : RecordReader α) {start record : α}

/-- A record with the parts set that some fields give. -/
def setAll (start : α) (fields : Fields) : Except Misfit α :=
  fields.foldlM (fun record field => reader.set record field.1 field.2) start

/-- The first field is set before the others. -/
theorem setAll_cons (field : Text × Json) (rest : Fields) :
    reader.setAll start (field :: rest) =
      (reader.set start field.1 field.2).bind (reader.setAll · rest) :=
  List.foldlM_cons

/-- An object is read field by field. -/
theorem readRecord_obj (fields : Fields) :
    readRecord reader start (.obj fields) = reader.setAll start fields :=
  rfl

/-- A list is read as the fields with the names in order, and is not longer. -/
theorem setAll_of_readRecord_arr {items : List Json}
    (h : readRecord reader start (.arr items) = .ok record) :
    reader.setAll start (reader.names.zip items) = .ok record := by
  have hread : readRecord reader start (.arr items) =
      (reader.setAll start (reader.names.zip items)).bind fun record =>
        if reader.names.length < items.length then throw (.tooManyItems items.length)
        else pure record := by
    simp only [readRecord, setAll]
    refine bind_congr fun record => ?_
    split <;> rfl
  rw [hread] at h
  cases hset : reader.setAll start (reader.names.zip items) with
  | error misfit =>
    rw [hset] at h
    cases h
  | ok last =>
    rw [hset] at h
    simp only [Except.bind] at h
    split at h
    · cases h
    · exact h

variable {reader}

/-- What each field keeps of a record, all fields keep. -/
theorem setAll_keeps {P : α → Prop}
    (hset : ∀ record name value after, reader.set record name value = .ok after →
      P record → P after)
    (hstart : P start) {fields : Fields} (h : reader.setAll start fields = .ok record) :
    P record := by
  induction fields generalizing start with
  | nil =>
    cases h
    exact hstart
  | cons field rest ih =>
    rw [setAll_cons] at h
    cases hfield : reader.set start field.1 field.2 with
    | error misfit =>
      rw [hfield] at h
      cases h
    | ok next =>
      rw [hfield] at h
      exact ih (hset _ _ _ _ hfield hstart) h

/-- What each field keeps of a record, reading the whole record keeps. -/
theorem readRecord_keeps {P : α → Prop}
    (hset : ∀ record name value after, reader.set record name value = .ok after →
      P record → P after)
    (hstart : P start) {json : Json} (h : readRecord reader start json = .ok record) :
    P record := by
  cases json with
  | obj fields => exact setAll_keeps hset hstart h
  | arr items => exact setAll_keeps hset hstart (setAll_of_readRecord_arr reader h)
  | null | bool | int | decimal | str => cases h

end RecordReader

namespace RecordReader.Parts

variable {α Part : Type} {Value : Part → Type} {reader : RecordReader α}
  (parts : reader.Parts Part Value)

/-- Setting a field leaves a record alone, or puts a part that is read. -/
theorem eq_or_eq_put_of_set {record after : α} {name : Text} {value : Json}
    (h : reader.set record name value = .ok after) :
    after = record ∨
      ∃ part found, parts.read part value = .ok found ∧ after = parts.put part record found := by
  by_cases hpart : ∃ part, parts.name part = name
  · obtain ⟨part, rfl⟩ := hpart
    rw [parts.set_name] at h
    cases hread : parts.read part value with
    | error misfit =>
      rw [hread] at h
      cases h
    | ok found =>
      rw [hread] at h
      cases h
      exact .inr ⟨part, found, hread, rfl⟩
  · rw [parts.set_unknown _ _ _ fun part heq => hpart ⟨part, heq⟩] at h
    cases h
    exact .inl rfl

/-- Whether a record has the parts that some fields give, and the parts of another one where they
give none. -/
def Laid (fields : Fields) (start record : α) : Prop :=
  ∀ part, Lays (parts.read part) (Fields.get? (parts.name part) fields) (parts.get part start)
    (parts.get part record)

/-- Whether all the parts that some fields give can be read. -/
def Fit (fields : Fields) : Prop :=
  ∀ part, Fits (parts.read part) (Fields.get? (parts.name part) fields)

variable {parts} {fields rest : Fields} {start record : α}

/-- A field of no part does not count. -/
theorem laid_cons_unknown {field : Text × Json} (h : ∀ part, parts.name part ≠ field.1) :
    parts.Laid (field :: rest) start record ↔ parts.Laid rest start record := by
  refine forall_congr' fun part => ?_
  rw [Fields.get?, if_neg (Ne.symm (h part))]

/-- A field of a part counts as the new start. -/
theorem laid_cons_name {part : Part} {value : Json} {found : Value part}
    (hread : parts.read part value = .ok found)
    (hrest : Fields.get? (parts.name part) rest = none) :
    parts.Laid ((parts.name part, value) :: rest) start record ↔
      parts.Laid rest (parts.put part start found) record := by
  refine forall_congr' fun other => ?_
  by_cases hother : other = part
  · subst hother
    rw [Fields.get?, if_pos rfl, hrest, parts.get_put_self, Lays, Lays, hread, Except.ok.injEq]
    exact eq_comm
  · have hname : parts.name part ≠ parts.name other :=
      fun heq => hother (parts.name_injective heq).symm
    rw [Fields.get?, if_neg hname, parts.get_put_of_ne part other start found hother]

variable (parts)

/-- A record is read from ordered fields exactly if it has the parts that they give. -/
theorem setAll_eq_ok_iff (hfields : fields.Ordered) :
    reader.setAll start fields = .ok record ↔ parts.Laid fields start record := by
  -- A first field of some part makes a new start for the others, which do not name it again.
  induction fields generalizing start with
  | nil =>
    constructor
    · intro h
      cases h
      exact fun part => rfl
    · exact fun h => congrArg Except.ok (parts.ext fun part => (h part).symm)
  | cons field rest ih =>
    rw [setAll_cons]
    by_cases hpart : ∃ part, parts.name part = field.1
    · obtain ⟨part, hname⟩ := hpart
      obtain ⟨name, value⟩ := field
      obtain rfl : parts.name part = name := hname
      rw [parts.set_name]
      cases hread : parts.read part value with
      | ok found =>
        rw [laid_cons_name hread hfields.get?_rest]
        exact ih hfields.tail
      | error misfit =>
        refine iff_of_false (fun h => by cases h) fun h => ?_
        have hgiven := h part
        rw [Fields.get?, if_pos rfl, Lays, hread] at hgiven
        cases hgiven
    · have hunknown : ∀ part, parts.name part ≠ field.1 := fun part heq => hpart ⟨part, heq⟩
      rw [parts.set_unknown _ _ _ hunknown, laid_cons_unknown hunknown]
      exact ih hfields.tail

/-- Some record is read from ordered fields exactly if the parts that they give can be read. -/
theorem exists_setAll_eq_ok_iff (hfields : fields.Ordered) :
    (∃ record, reader.setAll start fields = .ok record) ↔ parts.Fit fields := by
  constructor
  · rintro ⟨record, h⟩ part value hvalue
    have hgiven := (parts.setAll_eq_ok_iff hfields).mp h part
    rw [hvalue] at hgiven
    exact ⟨_, hgiven⟩
  · intro hfit
    induction fields generalizing start with
    | nil => exact ⟨start, rfl⟩
    | cons field rest ih =>
      have hrest : parts.Fit rest := fun part value hvalue => by
        refine hfit part value ?_
        have hne : field.1 ≠ parts.name part := fun heq => by
          rw [← heq, hfields.get?_rest] at hvalue
          cases hvalue
        rw [Fields.get?, if_neg hne, hvalue]
      rw [setAll_cons]
      by_cases hpart : ∃ part, parts.name part = field.1
      · obtain ⟨part, hname⟩ := hpart
        obtain ⟨found, hread⟩ := hfit part field.2 (by rw [Fields.get?, if_pos hname.symm])
        rw [← hname, parts.set_name, hread]
        exact ih hfields.tail hrest
      · rw [parts.set_unknown _ _ _ fun part heq => hpart ⟨part, heq⟩]
        exact ih hfields.tail hrest

/-! ## Fields laid over a record that was written -/

/-- Fields that give every part of a record. -/
structure Writes (base : Fields) (written : Part → Json) : Prop where
  /-- They are in order. -/
  ordered : base.Ordered
  /-- Under the name of a part they have what is written of it. -/
  get? : ∀ part, Fields.get? (parts.name part) base = some (written part)

variable {parts} {base overrides : Fields} {written : Part → Json} {old : α}

/-- An object that is made of one field for each part gives every part. -/
theorem writes_ofList (hbase : (base.map (·.1)).Nodup)
    (hmem : ∀ part, (parts.name part, written part) ∈ base) :
    parts.Writes (Fields.ofList base) written where
  ordered := Fields.ordered_ofList base
  get? part := by rw [Fields.get?_ofList hbase, Fields.get?_of_mem hbase (hmem part)]

/-- A record that was written is read back, if its parts are. -/
theorem Writes.readRecord_eq (hbase : parts.Writes base written)
    (hread : ∀ part, parts.read part (written part) = .ok (parts.get part old)) :
    readRecord reader start (.obj base) = .ok old :=
  (parts.setAll_eq_ok_iff hbase.ordered).mpr fun part => by
    rw [hbase.get?]
    exact hread part

/-- A record that was written can be read, if its parts can be. -/
theorem Writes.exists_readRecord (hbase : parts.Writes base written)
    (hread : ∀ part, ∃ found, parts.read part (written part) = .ok found) :
    ∃ record, readRecord reader start (.obj base) = .ok record :=
  (parts.exists_setAll_eq_ok_iff hbase.ordered).mpr fun part value hvalue => by
    rw [hbase.get?] at hvalue
    exact Option.some.inj hvalue ▸ hread part

/-- Over a record that was written, the parts that are given are laid, and the others stay. -/
theorem setAll_mergeFields_eq_ok_iff (hbase : parts.Writes base written)
    (hread : ∀ part, parts.read part (written part) = .ok (parts.get part old))
    (hoverrides : overrides.Ordered) :
    reader.setAll start (mergeFields base overrides) = .ok record ↔
      ∀ part, Lays (fun value => parts.read part (merge (written part) value))
        (Fields.get? (parts.name part) overrides) (parts.get part old) (parts.get part record) := by
  rw [parts.setAll_eq_ok_iff (ordered_mergeFields hbase.ordered overrides)]
  refine forall_congr' fun part => ?_
  rw [get?_mergeFields hoverrides, hbase.get?]
  cases Fields.get? (parts.name part) overrides with
  | none =>
    rw [Lays, Lays, hread, Except.ok.injEq]
    exact eq_comm
  | some value => rfl

/-- Over a record that was written, the parts that are given have to be readable. -/
theorem exists_setAll_mergeFields_iff (hbase : parts.Writes base written)
    (hread : ∀ part, ∃ found, parts.read part (written part) = .ok found)
    (hoverrides : overrides.Ordered) :
    (∃ record, reader.setAll start (mergeFields base overrides) = .ok record) ↔
      ∀ part, Fits (fun value => parts.read part (merge (written part) value))
        (Fields.get? (parts.name part) overrides) := by
  rw [parts.exists_setAll_eq_ok_iff (ordered_mergeFields hbase.ordered overrides)]
  refine forall_congr' fun part => ?_
  rw [get?_mergeFields hoverrides, hbase.get?]
  cases Fields.get? (parts.name part) overrides with
  | none => simp [Fits, hread part]
  | some value => simp [Fits]

section

variable (hbase : parts.Writes base written) (hplain : ∀ part fields, written part ≠ .obj fields)
include hbase hplain

/-- Over a record without objects in it the parts are laid as they are given. -/
theorem lays_record_iff
    (hread : ∀ part, parts.read part (written part) = .ok (parts.get part old))
    {given : Option Json}
    (hgiven : ∀ value, given = some value → ∃ fields : Fields, value = .obj fields ∧
      fields.Ordered) :
    Lays (fun value => readRecord reader start (merge (.obj base) value)) given old record ↔
      ∀ part, Lays (parts.read part) (given.bind (field? (parts.name part)))
        (parts.get part old) (parts.get part record) := by
  cases given with
  | none =>
    constructor
    · rintro rfl part
      rfl
    · exact parts.ext
  | some value =>
    obtain ⟨fields, rfl, hfields⟩ := hgiven value rfl
    rw [Lays, merge, readRecord_obj, setAll_mergeFields_eq_ok_iff hbase hread hfields]
    refine forall_congr' fun part => ?_
    simp only [merge_of_not_obj (hplain part)]
    rfl

/-- Over a record without objects in it the parts that are given have to be readable. -/
theorem fits_record_iff (hread : ∀ part, ∃ found, parts.read part (written part) = .ok found)
    {given : Option Json}
    (hgiven : ∀ value, given = some value → ∃ fields : Fields, value = .obj fields ∧
      fields.Ordered) :
    Fits (fun value => readRecord reader start (merge (.obj base) value)) given ↔
      ∀ part, Fits (parts.read part) (given.bind (field? (parts.name part))) := by
  cases given with
  | none => simp [Fits]
  | some value =>
    obtain ⟨fields, rfl, hfields⟩ := hgiven value rfl
    have hsome : Fits (fun value => readRecord reader start (merge (.obj base) value))
        (some (.obj fields)) ↔
          ∃ record, reader.setAll start (mergeFields base fields) = .ok record := by
      simp [Fits, merge, readRecord_obj]
    rw [hsome, exists_setAll_mergeFields_iff hbase hread hfields]
    refine forall_congr' fun part => ?_
    simp only [merge_of_not_obj (hplain part)]
    rfl

/-- Whether a value can be laid over a record without objects in it does not depend on the
record. -/
theorem exists_readRecord_merge_iff
    (hread : ∀ part, ∃ found, parts.read part (written part) = .ok found) {value : Json}
    (hvalue : value.WellFormed) :
    (∃ record, readRecord reader start (merge (.obj base) value) = .ok record) ↔
      ∃ record, readRecord reader start value = .ok record := by
  cases value with
  | obj fields =>
    simp only [merge, readRecord_obj]
    rw [exists_setAll_mergeFields_iff hbase hread hvalue.ordered,
      parts.exists_setAll_eq_ok_iff hvalue.ordered]
    refine forall_congr' fun part => ?_
    simp only [merge_of_not_obj (hplain part)]
  | null | bool | int | decimal | str | arr => rw [merge_not_obj fun _ h => by cases h]

end

end RecordReader.Parts
end LinkedNotes.Json
