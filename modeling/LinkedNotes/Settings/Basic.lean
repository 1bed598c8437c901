import LinkedNotes.Note.Template
import LinkedNotes.Settings.Directory

/-!
# Settings

What a user can choose: how link texts name notes, what happens to dangling links, how new notes
are made, and which files are notes of the workspace.
-/

namespace LinkedNotes

/-- How a link text names a note. -/
inductive NamingConvention where
  /-- By the file name, anywhere in the workspace. -/
  | uniqueNames
  /-- By the path from the note that holds the link. -/
  | relativePaths
  deriving DecidableEq, Repr

/-- How new notes are made. -/
structure NewNoteSettings where
  /-- Where they go. -/
  directory : NoteDirectory := .besideActive
  /-- Template whose slug becomes the stem of the file. -/
  filenameTemplate : Text := Template.namePlaceholder
  /-- Template of the text of the note. -/
  contentTemplate : Text := "# ".toList ++ Template.namePlaceholder ++ ['\n', '\n']
  /-- Template of the link that replaces a selection. -/
  linkTemplate : Text := "[[".toList ++ Template.namePlaceholder ++ "]]".toList
  /-- Whether file names are in lower case. -/
  lowercaseFilename : Bool := true
  /-- Pattern of the time stamp. -/
  stampFormat : Text := "%Y-%m-%d %H:%M".toList
  deriving DecidableEq, Repr

/-- Which files are notes of the workspace. -/
structure IndexSettings where
  /-- Whether the list of notes is kept between requests. -/
  cacheEnabled : Bool := true
  /-- Patterns of paths below the root that are left out. -/
  exclude : List Text := ["**/.git/**".toList, "**/node_modules/**".toList]
  /-- Whether files that git ignores are left out. -/
  respectGitignore : Bool := true
  deriving DecidableEq, Repr

/-- The settings of a workspace. -/
structure Settings where
  /-- How link texts name notes. -/
  convention : NamingConvention := .uniqueNames
  /-- Whether going to the target of a dangling link creates a note. -/
  createMissing : Bool := true
  /-- Whether edits inside a link open the suggestions again. -/
  suggestOnEdit : Bool := true
  /-- How new notes are made. -/
  newNote : NewNoteSettings := {}
  /-- Which files are notes. -/
  index : IndexSettings := {}
  deriving DecidableEq, Repr

end LinkedNotes
