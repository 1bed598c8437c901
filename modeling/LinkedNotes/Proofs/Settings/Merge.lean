import LinkedNotes.Proofs.Settings.Reachable

/-!
# Settings laid over others

Overrides name some settings, three of them perhaps by their older names, and some of the settings
inside of records. Main statement: they are laid over settings exactly when each value that they
give can be read as its setting. What is not named keeps its value, what is named has the value that
is read, the current name before an older one, and laying the same overrides over the result changes
nothing. Overrides that give something else than an object where a record stands are left to the
lemmas about whole parts.
-/

namespace LinkedNotes.Settings

open Json (Misfit RecordReader Fields)

/-! ## Older names -/

/-- The value that overrides give under a name, or else under the older one with its meaning. -/
def named? (name : Text) (overrides : Fields) : Option Json :=
  (Fields.get? name overrides).or <|
    (Names.legacy.find? (·.2 = name)).bind fun names => Fields.get? names.1 overrides

/-- Fields with one name in place of an older one, unless both are there. -/
def renameOne (fields : Fields) (names : Text × Text) : Fields :=
  match Fields.get? names.1 fields with
  | none => fields
  | some value =>
    let rest := Fields.erase names.1 fields
    match Fields.get? names.2 rest with
    | some _ => rest
    | none => Fields.set names.2 value rest

/-- The older names are replaced one after the other. -/
theorem renameLegacy_eq_foldl (fields : Fields) :
    renameLegacy fields = Names.legacy.foldl renameOne fields :=
  rfl

/-- Nothing is to be done without the older name. -/
theorem renameOne_of_eq_none {fields : Fields} {names : Text × Text}
    (h : Fields.get? names.1 fields = none) : renameOne fields names = fields := by
  rw [renameOne, h]

/-- The value of the older name is only kept where the current name has none. -/
theorem renameOne_of_eq_some {fields : Fields} {names : Text × Text} {value : Json}
    (h : Fields.get? names.1 fields = some value) :
    renameOne fields names =
      if (Fields.get? names.2 (Fields.erase names.1 fields)).isSome = true then
        Fields.erase names.1 fields
      else Fields.set names.2 value (Fields.erase names.1 fields) := by
  rw [renameOne, h]
  simp only
  cases Fields.get? names.2 (Fields.erase names.1 fields) <;> rfl

/-- What is found under a name after one older name was replaced. -/
theorem get?_renameOne (fields : Fields) {names : Text × Text} (h : names.2 ≠ names.1)
    (name : Text) :
    Fields.get? name (renameOne fields names) =
      if name = names.1 then none
      else if name = names.2 then (Fields.get? names.2 fields).or (Fields.get? names.1 fields)
      else Fields.get? name fields := by
  cases hold : Fields.get? names.1 fields with
  | none =>
    rw [renameOne_of_eq_none hold, Option.or_none]
    split
    · next hname => rw [hname, hold]
    · split
      · next hname => rw [hname]
      · rfl
  | some value =>
    rw [renameOne_of_eq_some hold, Fields.get?_erase, if_neg h]
    cases hsome : Fields.get? names.2 fields with
    | none =>
      simp only [Option.isSome_none, Bool.false_eq_true, if_false, Fields.get?_set,
        Fields.get?_erase, Option.none_or]
      by_cases hname : name = names.1
      · rw [if_pos hname, if_neg (hname ▸ Ne.symm h), if_pos hname]
      · rw [if_neg hname, if_neg hname]
    | some current =>
      simp only [Option.isSome_some, if_true, Fields.get?_erase, Option.some_or]
      split
      · rfl
      · split
        · next hname => rw [hname, hsome]
        · rfl

/-- What is found under a current name after some older names were replaced. -/
theorem get?_foldl_renameOne {legacy : List (Text × Text)} (hold : (legacy.map (·.1)).Nodup)
    (hcurrent : (legacy.map (·.2)).Nodup)
    (hapart : ∀ names ∈ legacy, names.2 ∉ legacy.map (·.1)) {name : Text}
    (hname : name ∉ legacy.map (·.1)) (fields : Fields) :
    Fields.get? name (legacy.foldl renameOne fields) =
      (Fields.get? name fields).or
        ((legacy.find? (·.2 = name)).bind fun names => Fields.get? names.1 fields) := by
  induction legacy generalizing fields with
  | nil => exact (Option.or_none).symm
  | cons first rest ih =>
    obtain ⟨hfirst, hold⟩ := List.nodup_cons.mp hold
    obtain ⟨hgiven, hcurrent⟩ := List.nodup_cons.mp hcurrent
    have hne : first.2 ≠ first.1 := fun heq =>
      hapart first List.mem_cons_self (heq ▸ List.mem_cons_self)
    have hrest : ∀ names ∈ rest, names.2 ∉ rest.map (·.1) := fun names hmem hin =>
      hapart names (List.mem_cons_of_mem _ hmem) (List.mem_cons_of_mem _ hin)
    rw [List.map_cons, List.mem_cons, not_or] at hname
    rw [List.foldl_cons, ih hold hcurrent hrest hname.2, get?_renameOne fields hne,
      if_neg hname.1]
    -- If the first older name has this meaning no other one has, and else it does not matter.
    by_cases hmeant : first.2 = name
    · have hnone : rest.find? (·.2 = name) = none := by
        rw [List.find?_eq_none]
        intro names hmem heq
        exact hgiven (List.mem_map.mpr ⟨names, hmem, (of_decide_eq_true heq).trans hmeant.symm⟩)
      rw [if_pos hmeant.symm, hnone, List.find?_cons_of_pos (by simpa using hmeant), hmeant]
      simp
    · rw [if_neg (Ne.symm hmeant), List.find?_cons_of_neg (by simpa using hmeant)]
      cases hfind : rest.find? (·.2 = name) with
      | none => rfl
      | some names =>
        have hmem := List.mem_of_find?_eq_some hfind
        have hlater : names.1 ≠ first.1 := fun heq =>
          hfirst (List.mem_map.mpr ⟨names, hmem, heq⟩)
        have hapartFirst : names.1 ≠ first.2 := fun heq =>
          hapart first List.mem_cons_self
            (List.mem_cons_of_mem _ (List.mem_map.mpr ⟨names, hmem, heq⟩))
        rw [Option.bind_some, Option.bind_some, get?_renameOne fields hne, if_neg hlater,
          if_neg hapartFirst]

/-- Under the name of a part stands what overrides give for it. -/
theorem get?_renameLegacy (part : Part) (overrides : Fields) :
    Fields.get? part.name (renameLegacy overrides) = named? part.name overrides := by
  rw [renameLegacy_eq_foldl]
  refine get?_foldl_renameOne (by decide +kernel) (by decide +kernel) (by decide +kernel) ?_
    overrides
  cases part <;> decide +kernel

/-- Renaming keeps the order of the fields. -/
theorem ordered_renameLegacy {overrides : Fields} (h : overrides.Ordered) :
    (renameLegacy overrides).Ordered := by
  rw [renameLegacy_eq_foldl]
  generalize Names.legacy = legacy
  induction legacy generalizing overrides with
  | nil => exact h
  | cons names rest ih =>
    refine ih ?_
    cases hold : Fields.get? names.1 overrides with
    | none => rwa [renameOne_of_eq_none hold]
    | some value =>
      rw [renameOne_of_eq_some hold]
      split
      · exact h.erase _
      · exact (h.erase _).set _ _

/-! ## Whole parts -/

/-- A naming convention is read by its name. -/
theorem readVariant_ofConvention (convention : NamingConvention) :
    Json.readVariant Names.conventions (.str (Names.ofConvention convention)) = .ok convention := by
  have hlookup : Names.conventions.lookup (Names.ofConvention convention) = some convention := by
    cases convention <;> decide +kernel
  rw [Json.readVariant, hlookup]

/-- The current name of a record has no older one. -/
theorem named?_of_record (overrides : Fields) :
    named? Names.newNote overrides = Fields.get? Names.newNote overrides ∧
      named? Names.index overrides = Fields.get? Names.index overrides := by
  have hnewNote : Names.legacy.find? (·.2 = Names.newNote) = none := by decide +kernel
  have hindex : Names.legacy.find? (·.2 = Names.index) = none := by decide +kernel
  constructor
  · rw [named?, hnewNote, Option.bind_none, Option.or_none]
  · rw [named?, hindex, Option.bind_none, Option.or_none]

namespace Part

/-- What is written can be read. -/
theorem exists_read_write (part : Part) (settings : Settings) :
    ∃ found, part.read (part.write settings) = .ok found := by
  cases part with
  | convention => exact ⟨_, readVariant_ofConvention settings.convention⟩
  | createMissing | suggestOnEdit => exact ⟨_, rfl⟩
  | newNote =>
    rw [write, newNoteToJson_eq]
    exact (writes_newNote _).exists_readRecord (NewNotePart.exists_read_write · settings.newNote)
  | index =>
    rw [write, indexToJson_eq]
    exact (writes_index _).exists_readRecord fun part => ⟨_, part.read_write settings.index⟩

/-- What is written is read back, when the directory for new notes is what its text stands for. -/
theorem read_write (part : Part) {settings : Settings} (h : Canonical settings.newNote) :
    part.read (part.write settings) = .ok (part.get settings) := by
  cases part with
  | convention => exact readVariant_ofConvention settings.convention
  | createMissing | suggestOnEdit => rfl
  | newNote =>
    rw [write, newNoteToJson_eq]
    exact (writes_newNote _).readRecord_eq (NewNotePart.read_write · h)
  | index =>
    rw [write, indexToJson_eq]
    exact (writes_index _).readRecord_eq (IndexPart.read_write · settings.index)

/-- What is laid over a part that is not a record replaces it. -/
theorem read_merge_of_plain (part : Part) {settings : Settings}
    (h : ∀ fields, part.write settings ≠ .obj fields) :
    (fun value => part.read (Json.merge (part.write settings) value)) = part.read := by
  funext value
  rw [Json.merge_of_not_obj h]

/-- A statement about all parts. -/
theorem forall_iff {P : Part → Prop} :
    (∀ part, P part) ↔
      P convention ∧ P createMissing ∧ P suggestOnEdit ∧ P newNote ∧ P index := by
  constructor
  · exact fun h => ⟨h _, h _, h _, h _, h _⟩
  · rintro ⟨hconvention, hcreate, hsuggest, hnewNote, hindex⟩ part
    cases part <;> assumption

end Part

/-- Fields laid over settings are read as one object. -/
theorem mergedWith_obj (settings : Settings) (overrides : Fields) :
    settings.mergedWith (.obj overrides) = reader.setAll {}
      (Json.mergeFields (Fields.ofList settings.entries) (renameLegacy overrides)) := by
  rw [mergedWith, currentNames, toJson_eq, Json.merge]
  rfl

/-- Overrides are laid over settings part by part. -/
theorem mergedWith_eq_ok_iff_parts {settings merged : Settings} {overrides : Fields}
    (hoverrides : overrides.Ordered) (hcanonical : Canonical settings.newNote) :
    settings.mergedWith (.obj overrides) = .ok merged ↔
      ∀ part : Part, Json.Lays (fun value => part.read (Json.merge (part.write settings) value))
        (named? part.name overrides) (part.get settings) (part.get merged) := by
  rw [mergedWith_obj, RecordReader.Parts.setAll_mergeFields_eq_ok_iff (writes_entries settings)
    (Part.read_write · hcanonical) (ordered_renameLegacy hoverrides)]
  refine forall_congr' fun part => ?_
  rw [show parts.name part = part.name from rfl, get?_renameLegacy]
  rfl

/-- Overrides can be laid over settings exactly if each part that they give can be read. -/
theorem exists_mergedWith_iff_parts (settings : Settings) {overrides : Fields}
    (hoverrides : overrides.Ordered) :
    (∃ merged, settings.mergedWith (.obj overrides) = .ok merged) ↔
      ∀ part : Part, Json.Fits (fun value => part.read (Json.merge (part.write settings) value))
        (named? part.name overrides) := by
  rw [mergedWith_obj, RecordReader.Parts.exists_setAll_mergeFields_iff (writes_entries settings)
    (Part.exists_read_write · settings) (ordered_renameLegacy hoverrides)]
  refine forall_congr' fun part => ?_
  rw [show parts.name part = part.name from rfl, get?_renameLegacy]
  rfl

/-- Whether a part can be laid over settings does not depend on these. -/
theorem Part.fits_merge_iff (part : Part) (settings : Settings) {given : Option Json}
    (hgiven : ∀ value, given = some value → value.WellFormed) :
    Json.Fits (fun value => part.read (Json.merge (part.write settings) value)) given ↔
      Json.Fits part.read given := by
  cases part with
  | convention | createMissing | suggestOnEdit =>
    rw [read_merge_of_plain _ fun _ h => by cases h]
  | newNote =>
    exact forall₂_congr fun value hvalue =>
      RecordReader.Parts.exists_readRecord_merge_iff (writes_newNote settings.newNote)
        (NewNotePart.write_ne_obj · settings.newNote)
        (NewNotePart.exists_read_write · settings.newNote) (hgiven value hvalue)
  | index =>
    exact forall₂_congr fun value hvalue =>
      RecordReader.Parts.exists_readRecord_merge_iff (writes_index settings.index)
        (IndexPart.write_ne_obj · settings.index)
        (fun part => ⟨_, part.read_write settings.index⟩) (hgiven value hvalue)

/-- What well-formed overrides give is well-formed. -/
theorem wellFormed_of_named? {overrides : Fields} (hwell : Json.WellFormed (.obj overrides))
    {name : Text} {value : Json} (h : named? name overrides = some value) : value.WellFormed := by
  rcases Option.or_eq_some_iff.mp h with hcurrent | ⟨-, hold⟩
  · exact hwell.get? hcurrent
  · obtain ⟨names, -, hold⟩ := Option.bind_eq_some_iff.mp hold
    exact hwell.get? hold

/-- Fields can be read as settings of their own exactly if each part that they give can be read. -/
theorem exists_read_iff_parts {overrides : Fields} (hoverrides : overrides.Ordered) :
    (∃ found, read (currentNames (.obj overrides)) = .ok found) ↔
      ∀ part : Part, Json.Fits part.read (named? part.name overrides) := by
  refine (parts.exists_setAll_eq_ok_iff (ordered_renameLegacy hoverrides)).trans ?_
  refine forall_congr' fun part => ?_
  rw [show parts.name part = part.name from rfl, get?_renameLegacy]
  rfl

/-- Overrides can be laid over settings exactly if they can be read as settings of their own. -/
theorem exists_mergedWith_iff_exists_read (settings : Settings) {overrides : Json}
    (hwell : overrides.WellFormed) :
    (∃ merged, settings.mergedWith overrides = .ok merged) ↔
      ∃ found, read (currentNames overrides) = .ok found := by
  cases overrides with
  | obj fields =>
    rw [exists_read_iff_parts hwell.ordered, exists_mergedWith_iff_parts settings hwell.ordered]
    exact forall_congr' fun part =>
      part.fits_merge_iff settings fun _ hvalue => wellFormed_of_named? hwell hvalue
  | null | bool | int | decimal | str | arr =>
    simp only [mergedWith, currentNames]
    rw [Json.merge_not_obj fun _ h => by cases h]

/-! ## Single settings -/

/-- A setting that is not a record. -/
inductive Setting where
  | convention
  | createMissing
  | suggestOnEdit
  | newNote (part : NewNotePart)
  | index (part : IndexPart)

namespace Setting

/-- What a setting may be. -/
def Value : Setting → Type
  | convention => NamingConvention
  | createMissing | suggestOnEdit => Bool
  | newNote part => part.Value
  | index part => part.Value

/-- The value of a setting. -/
def get : (setting : Setting) → Settings → setting.Value
  | convention, settings => settings.convention
  | createMissing, settings => settings.createMissing
  | suggestOnEdit, settings => settings.suggestOnEdit
  | newNote part, settings => part.get settings.newNote
  | index part, settings => part.get settings.index

/-- How a setting is read. -/
def read : (setting : Setting) → Json → Except Misfit setting.Value
  | convention, json => Json.readVariant Names.conventions json
  | createMissing, json | suggestOnEdit, json => Json.readBool json
  | newNote part, json => part.read json
  | index part, json => part.read json

/-- The value that overrides give for a setting. -/
def given? : Setting → Fields → Option Json
  | convention, overrides => named? Names.convention overrides
  | createMissing, overrides => named? Names.createMissing overrides
  | suggestOnEdit, overrides => named? Names.suggestOnEdit overrides
  | newNote part, overrides => (Fields.get? Names.newNote overrides).bind (Json.field? part.name)
  | index part, overrides => (Fields.get? Names.index overrides).bind (Json.field? part.name)

/-- A statement about all settings. -/
theorem forall_iff {P : Setting → Prop} :
    (∀ setting, P setting) ↔ P convention ∧ P createMissing ∧ P suggestOnEdit ∧
      (∀ part, P (newNote part)) ∧ ∀ part, P (index part) := by
  constructor
  · exact fun h => ⟨h _, h _, h _, fun _ => h _, fun _ => h _⟩
  · rintro ⟨hconvention, hcreate, hsuggest, hnewNote, hindex⟩ setting
    cases setting with
    | newNote part => exact hnewNote part
    | index part => exact hindex part
    | convention | createMissing | suggestOnEdit => assumption

end Setting

/-- Whether overrides give an object, if anything, where the settings have a record. -/
structure GivesRecords (overrides : Fields) : Prop where
  /-- So it is for new notes. -/
  newNote : ∀ value, Fields.get? Names.newNote overrides = some value →
    ∃ fields : Fields, value = .obj fields ∧ fields.Ordered
  /-- So it is for the list of notes. -/
  index : ∀ value, Fields.get? Names.index overrides = some value →
    ∃ fields : Fields, value = .obj fields ∧ fields.Ordered

/-- Overrides are laid over settings one by one. -/
theorem mergedWith_eq_ok_iff {settings merged : Settings} {overrides : Fields}
    (hoverrides : overrides.Ordered) (hrecords : GivesRecords overrides)
    (hcanonical : Canonical settings.newNote) :
    settings.mergedWith (.obj overrides) = .ok merged ↔
      ∀ setting : Setting, Json.Lays setting.read (setting.given? overrides)
        (setting.get settings) (setting.get merged) := by
  obtain ⟨hnewNote, hindex⟩ := named?_of_record overrides
  rw [mergedWith_eq_ok_iff_parts hoverrides hcanonical, Part.forall_iff, Setting.forall_iff,
    Part.read_merge_of_plain .convention (fun _ h => by cases h),
    Part.read_merge_of_plain .createMissing (fun _ h => by cases h),
    Part.read_merge_of_plain .suggestOnEdit (fun _ h => by cases h)]
  refine and_congr .rfl (and_congr .rfl (and_congr .rfl (and_congr ?_ ?_)))
  · simp only [Part.name, hnewNote]
    exact RecordReader.Parts.lays_record_iff (writes_newNote settings.newNote)
      (NewNotePart.write_ne_obj · settings.newNote) (NewNotePart.read_write · hcanonical)
      hrecords.newNote
  · simp only [Part.name, hindex]
    exact RecordReader.Parts.lays_record_iff (writes_index settings.index)
      (IndexPart.write_ne_obj · settings.index) (IndexPart.read_write · settings.index)
      hrecords.index

/-- Overrides can be laid over settings exactly if each value that they give can be read. -/
theorem exists_mergedWith_iff (settings : Settings) {overrides : Fields}
    (hoverrides : overrides.Ordered) (hrecords : GivesRecords overrides) :
    (∃ merged, settings.mergedWith (.obj overrides) = .ok merged) ↔
      ∀ setting : Setting, Json.Fits setting.read (setting.given? overrides) := by
  obtain ⟨hnewNote, hindex⟩ := named?_of_record overrides
  rw [exists_mergedWith_iff_parts settings hoverrides, Part.forall_iff, Setting.forall_iff,
    Part.read_merge_of_plain .convention (fun _ h => by cases h),
    Part.read_merge_of_plain .createMissing (fun _ h => by cases h),
    Part.read_merge_of_plain .suggestOnEdit (fun _ h => by cases h)]
  refine and_congr .rfl (and_congr .rfl (and_congr .rfl (and_congr ?_ ?_)))
  · simp only [Part.name, hnewNote]
    exact RecordReader.Parts.fits_record_iff (writes_newNote settings.newNote)
      (NewNotePart.write_ne_obj · settings.newNote)
      (NewNotePart.exists_read_write · settings.newNote) hrecords.newNote
  · simp only [Part.name, hindex]
    exact RecordReader.Parts.fits_record_iff (writes_index settings.index)
      (IndexPart.write_ne_obj · settings.index)
      (fun part => ⟨_, part.read_write settings.index⟩) hrecords.index

/-- Of well-formed overrides objects are enough. -/
theorem givesRecords_of_wellFormed {overrides : Fields}
    (hwell : Json.WellFormed (.obj overrides))
    (hnewNote : ∀ value, Fields.get? Names.newNote overrides = some value →
      ∃ fields, value = .obj fields)
    (hindex : ∀ value, Fields.get? Names.index overrides = some value →
      ∃ fields, value = .obj fields) : GivesRecords overrides where
  newNote value hvalue := by
    obtain ⟨fields, rfl⟩ := hnewNote value hvalue
    exact ⟨fields, rfl, (hwell.get? hvalue).ordered⟩
  index value hvalue := by
    obtain ⟨fields, rfl⟩ := hindex value hvalue
    exact ⟨fields, rfl, (hwell.get? hvalue).ordered⟩

/-- Overrides are laid over any settings that can be in force. If they fit, the settings that they
do not name keep their values, those that they name have the values that are read, and doing it
again changes nothing. They do not fit exactly if some value that they give cannot be read. -/
theorem mergedWith_of_reachable {settings : Settings} (hreachable : Reachable settings)
    {overrides : Fields} (hwell : Json.WellFormed (.obj overrides))
    (hnewNote : ∀ value, Fields.get? Names.newNote overrides = some value →
      ∃ fields, value = .obj fields)
    (hindex : ∀ value, Fields.get? Names.index overrides = some value →
      ∃ fields, value = .obj fields) :
    (∀ merged, settings.mergedWith (.obj overrides) = .ok merged →
      (∀ setting : Setting, setting.given? overrides = none →
        setting.get merged = setting.get settings) ∧
      (∀ (setting : Setting) (value : Json), setting.given? overrides = some value →
        setting.read value = .ok (setting.get merged)) ∧
      merged.mergedWith (.obj overrides) = .ok merged) ∧
    ((∃ misfit, settings.mergedWith (.obj overrides) = .error misfit) ↔
      ∃ (setting : Setting) (value : Json) (misfit : Misfit),
        setting.given? overrides = some value ∧ setting.read value = .error misfit) := by
  have hrecords := givesRecords_of_wellFormed hwell hnewNote hindex
  have hlays {merged : Settings} (h : settings.mergedWith (.obj overrides) = .ok merged) :=
    (mergedWith_eq_ok_iff hwell.ordered hrecords hreachable.canonical).mp h
  refine ⟨fun merged hmerged => ?_, ?_, ?_⟩
  · have hkept (setting : Setting) (hnone : setting.given? overrides = none) :
        setting.get merged = setting.get settings := by
      have hsetting := hlays hmerged setting
      rwa [hnone] at hsetting
    have hread (setting : Setting) (value : Json) (hvalue : setting.given? overrides = some value) :
        setting.read value = .ok (setting.get merged) := by
      have hsetting := hlays hmerged setting
      rwa [hvalue] at hsetting
    refine ⟨hkept, hread, ?_⟩
    -- The result can be in force too, and each setting that is given has this value already.
    refine (mergedWith_eq_ok_iff hwell.ordered hrecords
      (hreachable.merged hmerged).canonical).mpr fun setting => ?_
    cases hgiven : setting.given? overrides with
    | none => rfl
    | some value => exact hread setting value hgiven
  · rintro ⟨misfit, herror⟩
    by_contra hnone
    have hfits (setting : Setting) : Json.Fits setting.read (setting.given? overrides) := by
      intro value hvalue
      cases hread : setting.read value with
      | ok found => exact ⟨found, rfl⟩
      | error other => exact absurd ⟨setting, value, other, hvalue, hread⟩ hnone
    obtain ⟨merged, hmerged⟩ :=
      (exists_mergedWith_iff settings hwell.ordered hrecords).mpr hfits
    rw [hmerged] at herror
    cases herror
  · rintro ⟨setting, value, misfit, hvalue, hread⟩
    cases hmerge : settings.mergedWith (.obj overrides) with
    | error other => exact ⟨other, rfl⟩
    | ok merged =>
      have hsetting := hlays hmerge setting
      rw [hvalue, Json.Lays, hread] at hsetting
      cases hsetting

/-- Overrides with both names of a setting; the value under the older one does not fit. -/
def bothNames : Fields :=
  [(Names.createMissing, .bool false),
    ("createNoteOnGoToDefinitionWhenMissing".toList, .str "no".toList),
    (Names.newNote, .obj [(Names.directory, .str " inbox ".toList)])]

/-- The older name is passed over, the directory is trimmed, and all else stays as it was. -/
theorem mergedWith_of_reachable_bothNames :
    let merged : Settings :=
      { createMissing := false, newNote := { directory := .inside ⟨"inbox".toList⟩ } }
    ({} : Settings).mergedWith (.obj bothNames) = .ok merged ∧
      merged.mergedWith (.obj bothNames) = .ok merged ∧
      ∀ (setting : Setting) (value : Json), setting.given? bothNames = some value →
        ∀ misfit, setting.read value ≠ .error misfit := by
  intro merged
  have hmerged : ({} : Settings).mergedWith (.obj bothNames) = .ok merged := by
    have hsome : (({} : Settings).mergedWith (.obj bothNames)).toOption = some merged := by
      decide +kernel
    cases hmerge : ({} : Settings).mergedWith (.obj bothNames) with
    | error misfit =>
      rw [hmerge] at hsome
      cases hsome
    | ok found =>
      rw [hmerge] at hsome
      exact congrArg Except.ok (Option.some.inj hsome)
  have hwell : Json.WellFormed (.obj bothNames) := by
    have houter : bothNames.Pairwise fun first second =>
        Text.le first.1 second.1 = true ∧ first.1 ≠ second.1 := by decide +kernel
    have hinner : Json.WellFormed (.obj [(Names.directory, .str " inbox ".toList)]) :=
      .obj (List.pairwise_singleton _ _) fun field hfield => by
        rw [List.mem_singleton.mp hfield]
        exact .str _
    refine .obj houter fun field hfield => ?_
    rcases List.mem_cons.mp hfield with rfl | hfield
    · exact .bool _
    rcases List.mem_cons.mp hfield with rfl | hfield
    · exact .str _
    rw [List.mem_singleton.mp hfield]
    exact hinner
  have hrecord {name : Text} (hname : name ≠ Names.createMissing)
      (hlegacy : name ≠ "createNoteOnGoToDefinitionWhenMissing".toList) {value : Json}
      (hvalue : Fields.get? name bothNames = some value) : ∃ fields, value = .obj fields := by
    have hfield := Fields.mem_of_get? hvalue
    simp only [bothNames, List.mem_cons, Prod.mk.injEq, hname, hlegacy, false_and, false_or,
      List.not_mem_nil, or_false] at hfield
    exact ⟨_, hfield.2⟩
  obtain ⟨hfit, hmisfit⟩ := mergedWith_of_reachable .default hwell
    (fun _ => hrecord (by decide +kernel) (by decide +kernel))
    (fun _ => hrecord (by decide +kernel) (by decide +kernel))
  refine ⟨hmerged, (hfit merged hmerged).2.2, fun setting value hvalue misfit hread => ?_⟩
  obtain ⟨other, herror⟩ := hmisfit.mpr ⟨setting, value, misfit, hvalue, hread⟩
  rw [hmerged] at herror
  cases herror

end LinkedNotes.Settings
