import LinkedNotes.Proofs.Settings.Merge
import LinkedNotes.Proofs.Yaml.Document

/-!
# Settings that are written and read

The file that is written of settings is read as these settings, but for the directory of new notes,
which is read as what its text stands for. Settings that can be in force have such a directory, so
they come back as they are, as they do when nothing is laid over them.
-/

namespace LinkedNotes

open Yaml

/-- The settings of new notes with the directory that its text stands for. -/
def NewNoteSettings.reread (settings : NewNoteSettings) : NewNoteSettings :=
  { settings with directory := .ofText settings.directory.toText }

namespace Settings

variable (document : Document)

/-- The settings of new notes are read from their node, with the directory from its text. -/
theorem newNoteOfYaml?_toNode (settings : NewNoteSettings) :
    newNoteOfYaml? document (newNoteToYaml settings).toNode = some settings.reread := by
  have hne := NewNotePart.names_ne
  simp only [Names.ofNewNote, List.pairwise_cons, List.mem_cons, List.not_mem_nil, or_false,
    forall_eq_or_imp, forall_eq] at hne
  rw [newNoteOfYaml?, newNoteToYaml, Document.record?_toNode]
  · simp [Document.fieldsOf, setNewNoteYaml, hne, NewNoteSettings.reread]
  · simp [Names.ofNewNote]
  · simp
  · simp [hne]

/-- The settings of the list of notes are read from their node. -/
theorem indexOfYaml?_toNode (settings : IndexSettings) :
    indexOfYaml? document (indexToYaml settings).toNode = some settings := by
  have hne := IndexPart.names_ne
  simp only [Names.ofIndex, List.pairwise_cons, List.mem_cons, List.not_mem_nil, or_false,
    forall_eq_or_imp, forall_eq] at hne
  rw [indexOfYaml?, indexToYaml, Document.record?_toNode]
  · simp [Document.fieldsOf, setIndexYaml, hne]
  · simp [Names.ofIndex]
  · simp
  · simp [hne]

/-- Settings are read from a document that holds their node. -/
theorem ofYaml?_toNode {settings : Settings}
    (hroot : document.root = some (Tree.mapping settings.toYaml).toNode) :
    ofYaml? document = some { settings with newNote := settings.newNote.reread } := by
  have hne := Part.names_ne
  simp only [Names.settings, List.pairwise_cons, List.mem_cons, List.not_mem_nil, or_false,
    forall_eq_or_imp, forall_eq] at hne
  have hlookup : Names.conventions.lookup (Names.ofConvention settings.convention) =
      some settings.convention := by
    cases settings.convention <;> decide +kernel
  have hcurrent : ∀ name ∈ Names.settings, Names.legacy.lookup name = none := by decide +kernel
  have hkeys : settings.toYaml.map (·.1) = Names.settings := rfl
  rw [ofYaml?, hroot]
  simp only
  rw [Document.record?_toNode]
  · simp [toYaml, Document.fieldsOf, setYaml, hne, hlookup, newNoteOfYaml?_toNode,
      indexOfYaml?_toNode]
  · exact fun entry hentry => hkeys ▸ List.mem_map_of_mem hentry
  · exact fun entry hentry => hcurrent _ (hkeys ▸ List.mem_map_of_mem hentry)
  · rw [hkeys]
    exact Part.names_ne.imp And.left

/-- The names of settings can be keys. -/
theorem isKey_names :
    ∀ name ∈ Names.settings ++ Names.ofNewNote ++ Names.ofIndex, Tree.IsKey name := by
  decide +kernel

/-- All keys that are written of settings can be keys. -/
theorem entriesHaveKeys_toYaml (settings : Settings) : Tree.EntriesHaveKeys settings.toYaml := by
  have hkeys := isKey_names
  simp only [Names.settings, Names.ofNewNote, Names.ofIndex, List.cons_append, List.nil_append,
    List.mem_cons, List.not_mem_nil, or_false, forall_eq_or_imp, forall_eq] at hkeys
  simp [toYaml, newNoteToYaml, indexToYaml, Tree.EntriesHaveKeys, Tree.HasKeys, hkeys]

/-- What is written of settings is read as these settings, with the directory from its text. -/
theorem readYaml?_writeYaml (settings : Settings) :
    readYaml? settings.writeYaml =
      some { settings with newNote := settings.newNote.reread } := by
  have hne : settings.toYaml ≠ [] := List.cons_ne_nil _ _
  rw [readYaml?, writeYaml, Document.ofText?_print (entriesHaveKeys_toYaml settings) hne,
    Option.bind_some]
  exact ofYaml?_toNode _ rfl

/-- Nothing laid over settings leaves them as they are. -/
theorem mergedWith_nil {settings : Settings} (hcanonical : Canonical settings.newNote) :
    settings.mergedWith (.obj []) = .ok settings := by
  refine (mergedWith_eq_ok_iff_parts List.Pairwise.nil hcanonical).mpr fun part => ?_
  have hnone : named? part.name [] = none := by cases part <;> decide +kernel
  rw [hnone]
  rfl

/-- Settings that can be in force are read back from the file that is written of them, and from
laying nothing over them. -/
theorem readYaml?_writeYaml_of_reachable {settings : Settings} (hreachable : Reachable settings) :
    readYaml? settings.writeYaml = some settings ∧
      settings.mergedWith (.obj []) = .ok settings := by
  have hdirectory : settings.newNote.reread = settings.newNote := by
    rw [NewNoteSettings.reread, hreachable.canonical]
  refine ⟨?_, mergedWith_nil hreachable.canonical⟩
  rw [readYaml?_writeYaml, hdirectory]

/-- Overrides with texts that cannot be written as they are. -/
def oddTexts : Json.Fields :=
  [(Names.index, .obj [(Names.exclude, .arr [.str "# old".toList, .str "no".toList, .str [],
      .str "a: b\n\n c \n".toList])]),
    (Names.newNote, .obj [(Names.directory, .str " in box ".toList)])]

/-- Such texts are read back as well. -/
theorem readYaml?_writeYaml_oddTexts :
    let merged : Settings :=
      { newNote := { directory := .inside ⟨"in box".toList⟩ },
        index := { exclude := ["# old".toList, "no".toList, [], "a: b\n\n c \n".toList] } }
    Reachable merged ∧ readYaml? merged.writeYaml = some merged ∧
      merged.mergedWith (.obj []) = .ok merged := by
  intro merged
  have hreachable : Reachable merged := by
    have hsome : (({} : Settings).mergedWith (.obj oddTexts)).toOption = some merged := by
      decide +kernel
    cases hmerge : ({} : Settings).mergedWith (.obj oddTexts) with
    | error misfit =>
      rw [hmerge] at hsome
      cases hsome
    | ok found =>
      rw [hmerge] at hsome
      obtain rfl := Option.some.inj hsome
      exact .merged .default hmerge
  exact ⟨hreachable, readYaml?_writeYaml_of_reachable hreachable⟩

end Settings
end LinkedNotes
