import LinkedNotes.Proofs.Json.Record
import LinkedNotes.Settings.Merge

/-!
# The parts of settings

Settings are records, and two of their parts are records again. Main statements: each of these
records is read part by part, and what is written of it are its parts.
-/

namespace LinkedNotes.Settings

open Json (Misfit RecordReader Fields)

/-! ## New notes -/

/-- The parts of the settings of new notes. -/
inductive NewNotePart where
  | directory
  | filenameTemplate
  | contentTemplate
  | linkTemplate
  | lowercaseFilename
  | stampFormat
  deriving DecidableEq

namespace NewNotePart

/-- What a part may be. -/
def Value : NewNotePart → Type
  | directory => NoteDirectory
  | filenameTemplate | contentTemplate | linkTemplate | stampFormat => Text
  | lowercaseFilename => Bool

/-- The name of a part. -/
def name : NewNotePart → Text
  | directory => Names.directory
  | filenameTemplate => Names.filenameTemplate
  | contentTemplate => Names.contentTemplate
  | linkTemplate => Names.linkTemplate
  | lowercaseFilename => Names.lowercaseFilename
  | stampFormat => Names.stampFormat

/-- A part of some settings. -/
def get : (part : NewNotePart) → NewNoteSettings → part.Value
  | directory, settings => settings.directory
  | filenameTemplate, settings => settings.filenameTemplate
  | contentTemplate, settings => settings.contentTemplate
  | linkTemplate, settings => settings.linkTemplate
  | lowercaseFilename, settings => settings.lowercaseFilename
  | stampFormat, settings => settings.stampFormat

/-- Settings with another part. -/
def put : (part : NewNotePart) → NewNoteSettings → part.Value → NewNoteSettings
  | directory, settings, value => { settings with directory := value }
  | filenameTemplate, settings, value => { settings with filenameTemplate := value }
  | contentTemplate, settings, value => { settings with contentTemplate := value }
  | linkTemplate, settings, value => { settings with linkTemplate := value }
  | lowercaseFilename, settings, value => { settings with lowercaseFilename := value }
  | stampFormat, settings, value => { settings with stampFormat := value }

/-- How a part is read. -/
def read : (part : NewNotePart) → Json → Except Misfit part.Value
  | directory, json => (Json.readText json).map .ofText
  | filenameTemplate, json | contentTemplate, json | linkTemplate, json | stampFormat, json =>
    Json.readText json
  | lowercaseFilename, json => Json.readBool json

/-- How a part is written. -/
def write : NewNotePart → NewNoteSettings → Json
  | directory, settings => .str settings.directory.toText
  | filenameTemplate, settings => .str settings.filenameTemplate
  | contentTemplate, settings => .str settings.contentTemplate
  | linkTemplate, settings => .str settings.linkTemplate
  | lowercaseFilename, settings => .bool settings.lowercaseFilename
  | stampFormat, settings => .str settings.stampFormat

/-- The names are all different. -/
theorem names_ne :
    Names.ofNewNote.Pairwise fun first later => first ≠ later ∧ later ≠ first := by
  decide +kernel

/-- Each part has a name of its own. -/
theorem name_injective : Function.Injective name := by
  intro first second
  cases first <;> cases second <;> decide +kernel

/-- A part is set to what is read. -/
theorem set_name (part : NewNotePart) (settings : NewNoteSettings) (value : Json) :
    setNewNote settings part.name value = (part.read value).map (part.put settings) := by
  have hne := names_ne
  simp only [Names.ofNewNote, List.pairwise_cons, List.mem_cons, List.not_mem_nil, or_false,
    forall_eq_or_imp, forall_eq] at hne
  cases part with
  | directory =>
    simp only [name, setNewNote, if_true, bind_pure_comp, read]
    cases Json.readText value <;> rfl
  | filenameTemplate | contentTemplate | linkTemplate | lowercaseFilename | stampFormat =>
    simp only [name, setNewNote, hne, if_true, if_false, bind_pure_comp]
    rfl

/-- No other name sets anything. -/
theorem set_unknown (settings : NewNoteSettings) (other : Text) (value : Json)
    (h : ∀ part : NewNotePart, part.name ≠ other) :
    setNewNote settings other value = .ok settings := by
  have hdirectory : other ≠ Names.directory := (h .directory).symm
  have hfilename : other ≠ Names.filenameTemplate := (h .filenameTemplate).symm
  have hcontent : other ≠ Names.contentTemplate := (h .contentTemplate).symm
  have hlink : other ≠ Names.linkTemplate := (h .linkTemplate).symm
  have hlowercase : other ≠ Names.lowercaseFilename := (h .lowercaseFilename).symm
  have hstamp : other ≠ Names.stampFormat := (h .stampFormat).symm
  simp only [setNewNote, hdirectory, hfilename, hcontent, hlink, hlowercase, hstamp, if_false]
  rfl

/-- No part is written as an object. -/
theorem write_ne_obj (part : NewNotePart) (settings : NewNoteSettings) (fields : Fields) :
    part.write settings ≠ .obj fields := by
  cases part <;> exact Json.noConfusion

/-- What is written can be read. -/
theorem exists_read_write (part : NewNotePart) (settings : NewNoteSettings) :
    ∃ found, part.read (part.write settings) = .ok found := by
  cases part <;> exact ⟨_, rfl⟩

/-- What is written is read back, when the directory is what its text stands for. -/
theorem read_write (part : NewNotePart) {settings : NewNoteSettings}
    (h : NoteDirectory.ofText settings.directory.toText = settings.directory) :
    part.read (part.write settings) = .ok (part.get settings) := by
  cases part with
  | directory => exact congrArg Except.ok h
  | filenameTemplate | contentTemplate | linkTemplate | lowercaseFilename | stampFormat => rfl

end NewNotePart

/-- How the settings of new notes are read. -/
def newNoteReader : RecordReader NewNoteSettings :=
  ⟨"struct NewNoteConfig".toList, Names.ofNewNote, setNewNote⟩

/-- The settings of new notes are read part by part. -/
def newNoteParts : newNoteReader.Parts NewNotePart NewNotePart.Value where
  name := NewNotePart.name
  get := NewNotePart.get
  put := NewNotePart.put
  read := NewNotePart.read
  name_injective := NewNotePart.name_injective
  ext {first second} h := by
    cases first
    cases second
    simp only [NewNoteSettings.mk.injEq]
    exact ⟨h .directory, h .filenameTemplate, h .contentTemplate, h .linkTemplate,
      h .lowercaseFilename, h .stampFormat⟩
  get_put_self part settings value := by cases part <;> rfl
  get_put_of_ne part other settings value h := by
    cases part <;> cases other <;> first | rfl | exact absurd rfl h
  set_name := NewNotePart.set_name
  set_unknown := NewNotePart.set_unknown

/-- The settings of new notes as they are listed. -/
def newNoteEntries (settings : NewNoteSettings) : Fields :=
  [(Names.directory, .str settings.directory.toText),
    (Names.filenameTemplate, .str settings.filenameTemplate),
    (Names.contentTemplate, .str settings.contentTemplate),
    (Names.linkTemplate, .str settings.linkTemplate),
    (Names.lowercaseFilename, .bool settings.lowercaseFilename),
    (Names.stampFormat, .str settings.stampFormat)]

/-- The object that is written has these fields. -/
theorem newNoteToJson_eq (settings : NewNoteSettings) :
    newNoteToJson settings = .obj (Fields.ofList (newNoteEntries settings)) :=
  rfl

/-- Each part is written under its name. -/
theorem writes_newNote (settings : NewNoteSettings) :
    newNoteParts.Writes (Fields.ofList (newNoteEntries settings))
      (NewNotePart.write · settings) := by
  have hnodup : ((newNoteEntries settings).map (·.1)).Nodup := NewNotePart.names_ne.imp And.left
  refine RecordReader.Parts.writes_ofList hnodup fun part => ?_
  cases part <;> simp [newNoteParts, NewNotePart.name, NewNotePart.write, newNoteEntries]

/-! ## The list of notes -/

/-- The parts of the settings of the list of notes. -/
inductive IndexPart where
  | cacheEnabled
  | exclude
  | respectGitignore
  deriving DecidableEq

/-- Texts are read as they were written. -/
theorem readTexts_map_str (texts : List Text) :
    Json.readList Json.readText (.arr (texts.map .str)) = .ok texts := by
  rw [Json.readList]
  induction texts with
  | nil => rfl
  | cons text rest ih =>
    rw [List.map_cons, List.mapM_cons, ih]
    rfl

namespace IndexPart

/-- What a part may be. -/
def Value : IndexPart → Type
  | cacheEnabled | respectGitignore => Bool
  | exclude => List Text

/-- The name of a part. -/
def name : IndexPart → Text
  | cacheEnabled => Names.cacheEnabled
  | exclude => Names.exclude
  | respectGitignore => Names.respectGitignore

/-- A part of some settings. -/
def get : (part : IndexPart) → IndexSettings → part.Value
  | cacheEnabled, settings => settings.cacheEnabled
  | exclude, settings => settings.exclude
  | respectGitignore, settings => settings.respectGitignore

/-- Settings with another part. -/
def put : (part : IndexPart) → IndexSettings → part.Value → IndexSettings
  | cacheEnabled, settings, value => { settings with cacheEnabled := value }
  | exclude, settings, value => { settings with exclude := value }
  | respectGitignore, settings, value => { settings with respectGitignore := value }

/-- How a part is read. -/
def read : (part : IndexPart) → Json → Except Misfit part.Value
  | cacheEnabled, json | respectGitignore, json => Json.readBool json
  | exclude, json => Json.readList Json.readText json

/-- How a part is written. -/
def write : IndexPart → IndexSettings → Json
  | cacheEnabled, settings => .bool settings.cacheEnabled
  | exclude, settings => .arr (settings.exclude.map .str)
  | respectGitignore, settings => .bool settings.respectGitignore

/-- The names are all different. -/
theorem names_ne :
    Names.ofIndex.Pairwise fun first later => first ≠ later ∧ later ≠ first := by
  decide +kernel

/-- Each part has a name of its own. -/
theorem name_injective : Function.Injective name := by
  intro first second
  cases first <;> cases second <;> decide +kernel

/-- A part is set to what is read. -/
theorem set_name (part : IndexPart) (settings : IndexSettings) (value : Json) :
    setIndex settings part.name value = (part.read value).map (part.put settings) := by
  have hne := names_ne
  simp only [Names.ofIndex, List.pairwise_cons, List.mem_cons, List.not_mem_nil, or_false,
    forall_eq_or_imp, forall_eq] at hne
  cases part with
  | cacheEnabled | exclude | respectGitignore =>
    simp only [name, setIndex, hne, if_true, if_false, bind_pure_comp]
    rfl

/-- No other name sets anything. -/
theorem set_unknown (settings : IndexSettings) (other : Text) (value : Json)
    (h : ∀ part : IndexPart, part.name ≠ other) :
    setIndex settings other value = .ok settings := by
  have hcache : other ≠ Names.cacheEnabled := (h .cacheEnabled).symm
  have hexclude : other ≠ Names.exclude := (h .exclude).symm
  have hgit : other ≠ Names.respectGitignore := (h .respectGitignore).symm
  simp only [setIndex, hcache, hexclude, hgit, if_false]
  rfl

/-- No part is written as an object. -/
theorem write_ne_obj (part : IndexPart) (settings : IndexSettings) (fields : Fields) :
    part.write settings ≠ .obj fields := by
  cases part <;> exact Json.noConfusion

/-- What is written is read back. -/
theorem read_write (part : IndexPart) (settings : IndexSettings) :
    part.read (part.write settings) = .ok (part.get settings) := by
  cases part with
  | exclude => exact readTexts_map_str settings.exclude
  | cacheEnabled | respectGitignore => rfl

end IndexPart

/-- How the settings of the list of notes are read. -/
def indexReader : RecordReader IndexSettings :=
  ⟨"struct IndexConfig".toList, Names.ofIndex, setIndex⟩

/-- The settings of the list of notes are read part by part. -/
def indexParts : indexReader.Parts IndexPart IndexPart.Value where
  name := IndexPart.name
  get := IndexPart.get
  put := IndexPart.put
  read := IndexPart.read
  name_injective := IndexPart.name_injective
  ext {first second} h := by
    cases first
    cases second
    simp only [IndexSettings.mk.injEq]
    exact ⟨h .cacheEnabled, h .exclude, h .respectGitignore⟩
  get_put_self part settings value := by cases part <;> rfl
  get_put_of_ne part other settings value h := by
    cases part <;> cases other <;> first | rfl | exact absurd rfl h
  set_name := IndexPart.set_name
  set_unknown := IndexPart.set_unknown

/-- The settings of the list of notes as they are listed. -/
def indexEntries (settings : IndexSettings) : Fields :=
  [(Names.cacheEnabled, .bool settings.cacheEnabled),
    (Names.exclude, .arr (settings.exclude.map .str)),
    (Names.respectGitignore, .bool settings.respectGitignore)]

/-- The object that is written has these fields. -/
theorem indexToJson_eq (settings : IndexSettings) :
    indexToJson settings = .obj (Fields.ofList (indexEntries settings)) :=
  rfl

/-- Each part is written under its name. -/
theorem writes_index (settings : IndexSettings) :
    indexParts.Writes (Fields.ofList (indexEntries settings)) (IndexPart.write · settings) := by
  have hnodup : ((indexEntries settings).map (·.1)).Nodup := IndexPart.names_ne.imp And.left
  refine RecordReader.Parts.writes_ofList hnodup fun part => ?_
  cases part <;> simp [indexParts, IndexPart.name, IndexPart.write, indexEntries]

/-! ## All settings -/

/-- The parts of the settings. -/
inductive Part where
  | convention
  | createMissing
  | suggestOnEdit
  | newNote
  | index
  deriving DecidableEq

namespace Part

/-- What a part may be. -/
def Value : Part → Type
  | convention => NamingConvention
  | createMissing | suggestOnEdit => Bool
  | newNote => NewNoteSettings
  | index => IndexSettings

/-- The name of a part. -/
def name : Part → Text
  | convention => Names.convention
  | createMissing => Names.createMissing
  | suggestOnEdit => Names.suggestOnEdit
  | newNote => Names.newNote
  | index => Names.index

/-- A part of some settings. -/
def get : (part : Part) → Settings → part.Value
  | convention, settings => settings.convention
  | createMissing, settings => settings.createMissing
  | suggestOnEdit, settings => settings.suggestOnEdit
  | newNote, settings => settings.newNote
  | index, settings => settings.index

/-- Settings with another part. -/
def put : (part : Part) → Settings → part.Value → Settings
  | convention, settings, value => { settings with convention := value }
  | createMissing, settings, value => { settings with createMissing := value }
  | suggestOnEdit, settings, value => { settings with suggestOnEdit := value }
  | newNote, settings, value => { settings with newNote := value }
  | index, settings, value => { settings with index := value }

/-- How a part is read. -/
def read : (part : Part) → Json → Except Misfit part.Value
  | convention, json => Json.readVariant Names.conventions json
  | createMissing, json | suggestOnEdit, json => Json.readBool json
  | newNote, json => readNewNote json
  | index, json => readIndex json

/-- How a part is written. -/
def write : Part → Settings → Json
  | convention, settings => .str (Names.ofConvention settings.convention)
  | createMissing, settings => .bool settings.createMissing
  | suggestOnEdit, settings => .bool settings.suggestOnEdit
  | newNote, settings => newNoteToJson settings.newNote
  | index, settings => indexToJson settings.index

/-- The names are all different. -/
theorem names_ne :
    Names.settings.Pairwise fun first later => first ≠ later ∧ later ≠ first := by
  decide +kernel

/-- Each part has a name of its own. -/
theorem name_injective : Function.Injective name := by
  intro first second
  cases first <;> cases second <;> decide +kernel

/-- A part is set to what is read. -/
theorem set_name (part : Part) (settings : Settings) (value : Json) :
    settings.set part.name value = (part.read value).map (part.put settings) := by
  have hne := names_ne
  simp only [Names.settings, List.pairwise_cons, List.mem_cons, List.not_mem_nil, or_false,
    forall_eq_or_imp, forall_eq] at hne
  cases part with
  | convention | createMissing | suggestOnEdit | newNote | index =>
    simp only [name, Settings.set, hne, if_true, if_false, bind_pure_comp]
    rfl

/-- No other name sets anything. -/
theorem set_unknown (settings : Settings) (other : Text) (value : Json)
    (h : ∀ part : Part, part.name ≠ other) : settings.set other value = .ok settings := by
  have hconvention : other ≠ Names.convention := (h .convention).symm
  have hcreate : other ≠ Names.createMissing := (h .createMissing).symm
  have hsuggest : other ≠ Names.suggestOnEdit := (h .suggestOnEdit).symm
  have hnewNote : other ≠ Names.newNote := (h .newNote).symm
  have hindex : other ≠ Names.index := (h .index).symm
  simp only [Settings.set, hconvention, hcreate, hsuggest, hnewNote, hindex, if_false]
  rfl

end Part

/-- How settings are read. -/
def reader : RecordReader Settings :=
  ⟨"struct WikiLinksConfig".toList, Names.settings, set⟩

/-- Settings are read part by part. -/
def parts : reader.Parts Part Part.Value where
  name := Part.name
  get := Part.get
  put := Part.put
  read := Part.read
  name_injective := Part.name_injective
  ext {first second} h := by
    cases first
    cases second
    simp only [Settings.mk.injEq]
    exact ⟨h .convention, h .createMissing, h .suggestOnEdit, h .newNote, h .index⟩
  get_put_self part settings value := by cases part <;> rfl
  get_put_of_ne part other settings value h := by
    cases part <;> cases other <;> first | rfl | exact absurd rfl h
  set_name := Part.set_name
  set_unknown := Part.set_unknown

/-- The settings as they are listed. -/
def entries (settings : Settings) : Fields :=
  [(Names.convention, .str (Names.ofConvention settings.convention)),
    (Names.createMissing, .bool settings.createMissing),
    (Names.suggestOnEdit, .bool settings.suggestOnEdit),
    (Names.newNote, newNoteToJson settings.newNote),
    (Names.index, indexToJson settings.index)]

/-- The object that is written has these fields. -/
theorem toJson_eq (settings : Settings) : settings.toJson = .obj (Fields.ofList settings.entries) :=
  rfl

/-- Each part is written under its name. -/
theorem writes_entries (settings : Settings) :
    parts.Writes (Fields.ofList settings.entries) (Part.write · settings) := by
  have hnodup : (settings.entries.map (·.1)).Nodup := Part.names_ne.imp And.left
  refine RecordReader.Parts.writes_ofList hnodup fun part => ?_
  cases part <;> simp [parts, Part.name, Part.write, entries]

end LinkedNotes.Settings
