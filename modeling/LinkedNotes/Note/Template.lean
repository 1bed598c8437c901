import LinkedNotes.Text.Basic

/-!
# Templates

A template has two placeholders, one for the name of a note and one for a time stamp.
-/

namespace LinkedNotes.Template

/-- Placeholder of the name of a note. -/
def namePlaceholder : Text :=
  "$\x7bnoteName\x7d".toList

/-- Placeholder of a time stamp. -/
def stampPlaceholder : Text :=
  "$\x7btimestamp\x7d".toList

/-- Fills in the name, and then the time stamp, also where the name brought its placeholder. -/
def render (template name stamp : Text) : Text :=
  Text.replaceAll stampPlaceholder stamp (Text.replaceAll namePlaceholder name template)

end LinkedNotes.Template
