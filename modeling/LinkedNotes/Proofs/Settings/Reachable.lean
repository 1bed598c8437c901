import LinkedNotes.Proofs.Note.Template
import LinkedNotes.Proofs.Settings.Parts
import LinkedNotes.Settings.Yaml

/-!
# Settings that can be in force

Settings start as the defaults or as a file gives them, and others are laid over them any number of
times. Main statement: the directory for new notes then always is what its text stands for, so that
writing and reading it changes nothing. A directory that is made otherwise, say one named like a
reserved word, need not be so.
-/

namespace LinkedNotes

/-- A directory that a text stands for is what its own text stands for. -/
theorem NoteDirectory.ofText_toText_ofText (value : Text) :
    ofText (ofText value).toText = ofText value := by
  have htrim : Text.trim (Text.trim value) = Text.trim value :=
    (Text.solid_trim value).trim_eq
  have hbeside : ofText besideActiveWord = .besideActive := by decide +kernel
  have hroot : ofText workspaceRootWord = .workspaceRoot := by decide +kernel
  have hword (text : Text) : ofText text =
      if Text.trim text = [] ∨ Text.trim text = besideActiveWord then .besideActive
      else if Text.trim text = workspaceRootWord then .workspaceRoot
      else .inside ⟨Text.trim text⟩ := rfl
  rw [hword value]
  split
  · exact hbeside
  next hnone =>
  split
  · exact hroot
  next hother => rw [toText, hword, htrim, if_neg hnone, if_neg hother]

namespace Yaml.Document

/-- What each field keeps of a record, reading the whole record keeps. -/
theorem record?_keeps {α : Type} {P : α → Prop} {document : Document} {reader : RecordReader α}
    (hset : ∀ record name value after, reader.set record name value = some after →
      P record → P after)
    {start record : α} (hstart : P start) {node : Node}
    (h : document.record? reader start node = some record) : P record := by
  have hall {fields : List (Text × Node)} {first last : α} (hfirst : P first)
      (hlast : fields.foldlM (fun record field => reader.set record field.1 field.2) first =
        some last) : P last := by
    induction fields generalizing first with
    | nil =>
      cases hlast
      exact hfirst
    | cons field rest ih =>
      rw [List.foldlM_cons] at hlast
      obtain ⟨next, hnext, hrest⟩ := Option.bind_eq_some_iff.mp hlast
      exact ih (hset _ _ _ _ hnext hfirst) hrest
  simp only [record?] at h
  split at h
  · cases h
    exact hstart
  · split at h
    · cases h
    · exact hall hstart h
  · obtain ⟨fields, -, hfields⟩ := Option.bind_eq_some_iff.mp h
    split at hfields
    · exact hall hstart hfields
    · cases hfields
  · cases h

end Yaml.Document

namespace Settings

open Json (Misfit RecordReader Fields)

/-- Whether the directory for new notes is what its text stands for. -/
def Canonical (settings : NewNoteSettings) : Prop :=
  NoteDirectory.ofText settings.directory.toText = settings.directory

/-- The usual directory is what its text stands for. -/
theorem canonical_default : Canonical {} := by
  unfold Canonical
  decide +kernel

/-- Settings of new notes that were read from JSON have such a directory. -/
theorem canonical_of_readNewNote {json : Json} {settings : NewNoteSettings}
    (h : readNewNote json = .ok settings) : Canonical settings := by
  refine RecordReader.readRecord_keeps (P := Canonical) ?_ canonical_default h
  intro before name value after hset hbefore
  rcases newNoteParts.eq_or_eq_put_of_set hset with rfl | ⟨part, found, hread, rfl⟩
  · exact hbefore
  · cases part with
    | directory =>
      cases value with
      | str text =>
        cases hread
        exact NoteDirectory.ofText_toText_ofText text
      | null | bool | int | decimal | arr | obj => cases hread
    | filenameTemplate | contentTemplate | linkTemplate | lowercaseFilename | stampFormat =>
      exact hbefore

/-- Settings that were read from JSON have such a directory. -/
theorem canonical_of_read {json : Json} {settings : Settings} (h : read json = .ok settings) :
    Canonical settings.newNote := by
  refine RecordReader.readRecord_keeps (P := (Canonical ·.newNote)) ?_ canonical_default h
  intro before name value after hset hbefore
  rcases parts.eq_or_eq_put_of_set hset with rfl | ⟨part, found, hread, rfl⟩
  · exact hbefore
  · cases part with
    | newNote => exact canonical_of_readNewNote hread
    | convention | createMissing | suggestOnEdit | index => exact hbefore

/-- Setting a field from a file leaves the directory alone, or takes it from a text. -/
theorem directory_of_setNewNoteYaml {document : Yaml.Document} {before after : NewNoteSettings}
    {name : Text} {value : Yaml.Node}
    (h : setNewNoteYaml document before name value = some after) :
    after.directory = before.directory ∨ ∃ text, after.directory = .ofText text := by
  unfold setNewNoteYaml at h
  split_ifs at h
  all_goals
    first
    | cases h
      exact .inl rfl
    | obtain ⟨found, -, heq⟩ := Option.bind_eq_some_iff.mp h
      cases heq
      first
      | exact .inl rfl
      | exact .inr ⟨found, rfl⟩

/-- Setting a field from a file leaves the settings of new notes alone, or takes them from there. -/
theorem newNote_of_setYaml {document : Yaml.Document} {before after : Settings} {name : Text}
    {value : Yaml.Node} (h : setYaml document before name value = some after) :
    after.newNote = before.newNote ∨ newNoteOfYaml? document value = some after.newNote := by
  unfold setYaml at h
  split_ifs at h
  all_goals
    first
    | cases h
      exact .inl rfl
    | obtain ⟨found, hfound, heq⟩ := Option.bind_eq_some_iff.mp h
      cases heq
      first
      | exact .inl rfl
      | exact .inr hfound

/-- Settings of new notes in a file have such a directory. -/
theorem canonical_of_newNoteOfYaml? {document : Yaml.Document} {node : Yaml.Node}
    {settings : NewNoteSettings} (h : newNoteOfYaml? document node = some settings) :
    Canonical settings := by
  refine Yaml.Document.record?_keeps (P := Canonical) ?_ canonical_default h
  intro before name value after hset hbefore
  rcases directory_of_setNewNoteYaml hset with hsame | ⟨text, htext⟩
  · rwa [Canonical, hsame]
  · rw [Canonical, htext]
    exact NoteDirectory.ofText_toText_ofText text

/-- Settings in a file have such a directory. -/
theorem canonical_of_readYaml? {text : Text} {settings : Settings}
    (h : readYaml? text = some settings) : Canonical settings.newNote := by
  obtain ⟨document, -, hdocument⟩ := Option.bind_eq_some_iff.mp h
  unfold ofYaml? at hdocument
  split at hdocument
  · cases hdocument
    exact canonical_default
  · refine Yaml.Document.record?_keeps (P := (Canonical ·.newNote)) ?_ canonical_default hdocument
    intro before name value after hset hbefore
    rcases newNote_of_setYaml hset with hsame | hgiven
    · rwa [hsame]
    · exact canonical_of_newNoteOfYaml? hgiven

/-- The settings that can be in force: the defaults, those of a file, and any with others laid over
them. -/
inductive Reachable : Settings → Prop where
  | default : Reachable {}
  | ofYaml {text : Text} {settings : Settings} (h : readYaml? text = some settings) :
    Reachable settings
  | merged {settings merged : Settings} {overrides : Json} (before : Reachable settings)
    (h : settings.mergedWith overrides = .ok merged) : Reachable merged

/-- In reachable settings the directory for new notes is what its text stands for. -/
theorem Reachable.canonical {settings : Settings} (h : Reachable settings) :
    Canonical settings.newNote := by
  cases h with
  | default => exact canonical_default
  | ofYaml h => exact canonical_of_readYaml? h
  | merged before h => exact canonical_of_read h

end Settings
end LinkedNotes
