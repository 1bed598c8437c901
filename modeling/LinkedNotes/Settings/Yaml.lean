import LinkedNotes.Settings.Names
import LinkedNotes.Yaml.Document
import LinkedNotes.Yaml.Tree

/-!
# Settings as YAML

The file in which a workspace keeps its settings. What the file leaves out has its default. The
three settings that once had other names may also stand under these.
-/

namespace LinkedNotes.Settings

open Yaml

/-- The settings of new notes as YAML. -/
def newNoteToYaml (settings : NewNoteSettings) : Tree :=
  .mapping
    [(Names.directory, .str settings.directory.toText),
      (Names.filenameTemplate, .str settings.filenameTemplate),
      (Names.contentTemplate, .str settings.contentTemplate),
      (Names.linkTemplate, .str settings.linkTemplate),
      (Names.lowercaseFilename, .bool settings.lowercaseFilename),
      (Names.stampFormat, .str settings.stampFormat)]

/-- The settings of the list of notes as YAML. -/
def indexToYaml (settings : IndexSettings) : Tree :=
  .mapping
    [(Names.cacheEnabled, .bool settings.cacheEnabled),
      (Names.exclude, .texts settings.exclude),
      (Names.respectGitignore, .bool settings.respectGitignore)]

/-- The entries of the settings as YAML. -/
def toYaml (settings : Settings) : List (Text × Tree) :=
  [(Names.convention, .str (Names.ofConvention settings.convention)),
    (Names.createMissing, .bool settings.createMissing),
    (Names.suggestOnEdit, .bool settings.suggestOnEdit),
    (Names.newNote, newNoteToYaml settings.newNote),
    (Names.index, indexToYaml settings.index)]

/-- The settings as the text of a file. -/
def writeYaml (settings : Settings) : Text :=
  Tree.print settings.toYaml

variable (document : Document)

/-- Sets one of the settings of new notes. -/
def setNewNoteYaml (settings : NewNoteSettings) (name : Text) (value : Node) :
    Option NewNoteSettings :=
  if name = Names.directory then
    return { settings with directory := .ofText (← document.text? value) }
  else if name = Names.filenameTemplate then
    return { settings with filenameTemplate := ← document.text? value }
  else if name = Names.contentTemplate then
    return { settings with contentTemplate := ← document.text? value }
  else if name = Names.linkTemplate then
    return { settings with linkTemplate := ← document.text? value }
  else if name = Names.lowercaseFilename then
    return { settings with lowercaseFilename := ← document.bool? value }
  else if name = Names.stampFormat then
    return { settings with stampFormat := ← document.text? value }
  else return settings

/-- The settings of new notes that a node gives. -/
def newNoteOfYaml? (node : Node) : Option NewNoteSettings :=
  document.record? ⟨Names.ofNewNote, [], setNewNoteYaml document⟩ {} node

/-- Sets one of the settings of the list of notes. -/
def setIndexYaml (settings : IndexSettings) (name : Text) (value : Node) :
    Option IndexSettings :=
  if name = Names.cacheEnabled then
    return { settings with cacheEnabled := ← document.bool? value }
  else if name = Names.exclude then
    return { settings with exclude := ← document.texts? value }
  else if name = Names.respectGitignore then
    return { settings with respectGitignore := ← document.bool? value }
  else return settings

/-- The settings of the list of notes that a node gives. -/
def indexOfYaml? (node : Node) : Option IndexSettings :=
  document.record? ⟨Names.ofIndex, [], setIndexYaml document⟩ {} node

/-- Sets one of the settings. -/
def setYaml (settings : Settings) (name : Text) (value : Node) : Option Settings :=
  if name = Names.convention then
    return { settings with convention := ← document.variant? Names.conventions value }
  else if name = Names.createMissing then
    return { settings with createMissing := ← document.bool? value }
  else if name = Names.suggestOnEdit then
    return { settings with suggestOnEdit := ← document.bool? value }
  else if name = Names.newNote then
    return { settings with newNote := ← newNoteOfYaml? document value }
  else if name = Names.index then
    return { settings with index := ← indexOfYaml? document value }
  else return settings

/-- The settings that a document gives. -/
def ofYaml? : Option Settings :=
  match document.root with
  | none => some {}
  | some root =>
    document.record? ⟨Names.settings, Names.legacy, setYaml document⟩ {} root

/-- The settings that the text of a file gives. -/
def readYaml? (text : Text) : Option Settings :=
  (Document.ofText? text).bind ofYaml?

end LinkedNotes.Settings
