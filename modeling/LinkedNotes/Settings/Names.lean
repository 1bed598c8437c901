import LinkedNotes.Settings.Basic

/-!
# Names of settings

The names under which settings stand in documents, in the order in which they are written, and the
older names that three of them once had.
-/

namespace LinkedNotes.Settings.Names

/-- Name of the naming convention. -/
def convention : Text := "namingConvention".toList
/-- Name of the switch for creating missing notes. -/
def createMissing : Text := "createMissingOnGoToDefinition".toList
/-- Name of the switch for suggestions after edits. -/
def suggestOnEdit : Text := "triggerLiveSuggestOnEdit".toList
/-- Name of the record about new notes. -/
def newNote : Text := "newNote".toList
/-- Name of the record about the list of notes. -/
def index : Text := "index".toList
/-- Name of the directory for new notes. -/
def directory : Text := "directory".toList
/-- Name of the template for file names. -/
def filenameTemplate : Text := "filenameTemplate".toList
/-- Name of the template for the text of a note. -/
def contentTemplate : Text := "contentTemplate".toList
/-- Name of the template for the link to a new note. -/
def linkTemplate : Text := "selectionReplacementTemplate".toList
/-- Name of the switch for lower-case file names. -/
def lowercaseFilename : Text := "lowercaseFilename".toList
/-- Name of the pattern of time stamps. -/
def stampFormat : Text := "timestampFormat".toList
/-- Name of the switch for keeping the list of notes. -/
def cacheEnabled : Text := "cacheEnabled".toList
/-- Name of the patterns that leave files out. -/
def exclude : Text := "exclude".toList
/-- Name of the switch for leaving out what git ignores. -/
def respectGitignore : Text := "respectGitignore".toList

/-- The settings in the order in which they are written. -/
def settings : List Text :=
  [convention, createMissing, suggestOnEdit, newNote, index]

/-- The settings of new notes in order. -/
def ofNewNote : List Text :=
  [directory, filenameTemplate, contentTemplate, linkTemplate, lowercaseFilename, stampFormat]

/-- The settings of the list of notes in order. -/
def ofIndex : List Text :=
  [cacheEnabled, exclude, respectGitignore]

/-- Older names with the names that they mean. -/
def legacy : List (Text × Text) :=
  [("workspaceFilenameConvention".toList, convention),
    ("createNoteOnGoToDefinitionWhenMissing".toList, createMissing),
    ("triggerSuggestOnReplacement".toList, suggestOnEdit)]

/-- The naming conventions by name. -/
def conventions : List (Text × NamingConvention) :=
  [("uniqueFilenames".toList, .uniqueNames), ("relativePaths".toList, .relativePaths)]

/-- The name of a naming convention. -/
def ofConvention : NamingConvention → Text
  | .uniqueNames => "uniqueFilenames".toList
  | .relativePaths => "relativePaths".toList

end LinkedNotes.Settings.Names
