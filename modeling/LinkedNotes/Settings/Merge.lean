import LinkedNotes.Json.Misfit
import LinkedNotes.Settings.Names

/-!
# Settings as JSON, and settings laid over others

Clients send settings as JSON. They are laid over the settings in force: what they do not name
keeps its value, records are joined field by field, and the result has to fit as a whole.
-/

namespace LinkedNotes.Settings

open Json (Misfit RecordReader)

/-- The settings of new notes as JSON. -/
def newNoteToJson (settings : NewNoteSettings) : Json :=
  Json.object
    [(Names.directory, .str settings.directory.toText),
      (Names.filenameTemplate, .str settings.filenameTemplate),
      (Names.contentTemplate, .str settings.contentTemplate),
      (Names.linkTemplate, .str settings.linkTemplate),
      (Names.lowercaseFilename, .bool settings.lowercaseFilename),
      (Names.stampFormat, .str settings.stampFormat)]

/-- The settings of the list of notes as JSON. -/
def indexToJson (settings : IndexSettings) : Json :=
  Json.object
    [(Names.cacheEnabled, .bool settings.cacheEnabled),
      (Names.exclude, .arr (settings.exclude.map .str)),
      (Names.respectGitignore, .bool settings.respectGitignore)]

/-- The settings as JSON. -/
def toJson (settings : Settings) : Json :=
  Json.object
    [(Names.convention, .str (Names.ofConvention settings.convention)),
      (Names.createMissing, .bool settings.createMissing),
      (Names.suggestOnEdit, .bool settings.suggestOnEdit),
      (Names.newNote, newNoteToJson settings.newNote),
      (Names.index, indexToJson settings.index)]

/-- Sets one of the settings of new notes. -/
def setNewNote (settings : NewNoteSettings) (name : Text) (value : Json) :
    Except Misfit NewNoteSettings :=
  if name = Names.directory then
    return { settings with directory := .ofText (← Json.readText value) }
  else if name = Names.filenameTemplate then
    return { settings with filenameTemplate := ← Json.readText value }
  else if name = Names.contentTemplate then
    return { settings with contentTemplate := ← Json.readText value }
  else if name = Names.linkTemplate then
    return { settings with linkTemplate := ← Json.readText value }
  else if name = Names.lowercaseFilename then
    return { settings with lowercaseFilename := ← Json.readBool value }
  else if name = Names.stampFormat then
    return { settings with stampFormat := ← Json.readText value }
  else return settings

/-- Reads the settings of new notes; what is missing has its default. -/
def readNewNote : Json → Except Misfit NewNoteSettings :=
  Json.readRecord ⟨"struct NewNoteConfig".toList, Names.ofNewNote, setNewNote⟩ {}

/-- Sets one of the settings of the list of notes. -/
def setIndex (settings : IndexSettings) (name : Text) (value : Json) :
    Except Misfit IndexSettings :=
  if name = Names.cacheEnabled then
    return { settings with cacheEnabled := ← Json.readBool value }
  else if name = Names.exclude then
    return { settings with exclude := ← Json.readList Json.readText value }
  else if name = Names.respectGitignore then
    return { settings with respectGitignore := ← Json.readBool value }
  else return settings

/-- Reads the settings of the list of notes; what is missing has its default. -/
def readIndex : Json → Except Misfit IndexSettings :=
  Json.readRecord ⟨"struct IndexConfig".toList, Names.ofIndex, setIndex⟩ {}

/-- Sets one of the settings. -/
def set (settings : Settings) (name : Text) (value : Json) : Except Misfit Settings :=
  if name = Names.convention then
    return { settings with convention := ← Json.readVariant Names.conventions value }
  else if name = Names.createMissing then
    return { settings with createMissing := ← Json.readBool value }
  else if name = Names.suggestOnEdit then
    return { settings with suggestOnEdit := ← Json.readBool value }
  else if name = Names.newNote then
    return { settings with newNote := ← readNewNote value }
  else if name = Names.index then
    return { settings with index := ← readIndex value }
  else return settings

/-- Reads settings; what is missing has its default. -/
def read : Json → Except Misfit Settings :=
  Json.readRecord ⟨"struct WikiLinksConfig".toList, Names.settings, set⟩ {}

/-- Fields under their current names; where both names of a setting occur, the current one wins. -/
def renameLegacy (fields : Json.Fields) : Json.Fields :=
  Names.legacy.foldl
    (fun done (old, current) =>
      match Json.Fields.get? old done with
      | none => done
      | some value =>
        let rest := Json.Fields.erase old done
        match Json.Fields.get? current rest with
        | some _ => rest
        | none => Json.Fields.set current value rest)
    fields

/-- Overrides with the current names of the settings. -/
def currentNames : Json → Json
  | .obj fields => .obj (renameLegacy fields)
  | other => other

/-- The settings with overrides laid over them. -/
def mergedWith (settings : Settings) (overrides : Json) : Except Misfit Settings :=
  read (Json.merge settings.toJson (currentNames overrides))

end LinkedNotes.Settings
