import LinkedNotes.Link.Cursor
import LinkedNotes.Server.UriMap
import LinkedNotes.Text.Edit

/-!
# Open documents

The texts of the documents that are open in the editor. The edits of each document are counted, so
that a suggestion which was planned after one of them can tell whether it is still the latest.
-/

namespace LinkedNotes

/-- The documents that are open in an editor. -/
structure Documents where
  /-- Their texts. -/
  texts : UriMap Text := []
  /-- Numbers of their edits. -/
  edits : UriMap Nat := []

/-- A plan to open suggestions again after an edit. -/
structure Suggestion where
  /-- The document. -/
  uri : Uri
  /-- The number of the edit. -/
  edit : Nat
  /-- Where the cursor stands after the edit. -/
  cursor : Point
  deriving DecidableEq, Repr

namespace Documents

/-- The documents after one has been opened, or its text has been given anew. -/
def opened (documents : Documents) (uri : Uri) (text : Text) : Documents :=
  { documents with texts := documents.texts.set uri text }

/-- The documents after changes of an open one, and the suggestion that may be planned when a cursor
is known. Changes of other documents do not count. -/
def changed (documents : Documents) (uri : Uri) (changes : List ContentChange) :
    Documents × Option Suggestion :=
  match documents.texts.get? uri with
  | none => (documents, none)
  | some text =>
    let (text, cursor) := ContentChange.applyAll text changes
    let edit := (documents.edits.get? uri).getD 0 + 1
    (⟨documents.texts.set uri text, documents.edits.set uri edit⟩,
      cursor.map fun cursor => ⟨uri, edit, cursor⟩)

/-- The documents after one has been closed. -/
def closed (documents : Documents) (uri : Uri) : Documents :=
  ⟨documents.texts.erase uri, documents.edits.erase uri⟩

/-- The documents after one file has been renamed; its text moves along. -/
def renamed (documents : Documents) (old new : Uri) : Documents :=
  match documents.texts.get? old with
  | none => documents
  | some text => { documents with texts := (documents.texts.erase old).set new text }

/-- The documents after several files have been renamed, one after the other. -/
def renamedAll (documents : Documents) (pairs : List (Uri × Uri)) : Documents :=
  pairs.foldl (fun documents (old, new) => documents.renamed old new) documents

/-- Whether a suggestion is still wanted: no later edit has come, and the cursor is in a link, which
may be unfinished. -/
def wants (documents : Documents) (suggestion : Suggestion) : Bool :=
  documents.edits.get? suggestion.uri = some suggestion.edit &&
    (documents.texts.get? suggestion.uri).any fun text =>
      (Link.atPointOrOpen? text suggestion.cursor).isSome

end Documents
end LinkedNotes
