import LinkedNotes.Proofs.Files.Tree
import LinkedNotes.Proofs.Note.Slug
import LinkedNotes.Proofs.Workspace.Definition

/-!
# Where requests write

The name of the file of a new note comes from a link or from a title by way of templates, and its
path is looked at before the directories on it are made. Main statements: whatever a request is for,
in a tree of files it keeps every file, and adds at most one in the directory that is meant for it,
exactly if there was nothing with the name of the new note in this directory; so it is where the
directory is there beforehand and has no links. What git sees of the new file is outside this
module.
-/

namespace LinkedNotes

/-- The directory in which a request may create a note. -/
def Request.directory? (workspace : Workspace) (settings : Settings) : Request → Option Path
  | .definitions document _ _ => document.parent?
  | .missingNote _ document => document.parent?
  | .newNote _ active _ => some (settings.newNote.directory.resolve workspace.root active)
  | _ => none

/-- The paths that an answer gives to a caller who may have had a note created. -/
def Reply.paths {S : Type} : Reply S → List Path
  | definitions (.ok found) => found
  | missingNote (.ok path) => path.toList
  | newNote (.ok note) => [note.path]
  | _ => []

/-- The file of a new note in a directory. -/
def Note.pathIn (dir : Path) (stem : Text) : Path :=
  dir.join ⟨stem ++ ".md".toList⟩

/-- The file name of a new note is read back. -/
theorem Note.IsStem.isPiece {stem : Text} (h : Note.IsStem stem) :
    (Component.name (stem ++ ".md".toList)).IsPiece :=
  ⟨Note.slash_notMem_append_md h.of_mem, Note.ofPiece?_append_md stem⟩

/-- The stem of the file of a new note with a title. -/
def Settings.newStem (settings : Settings) (title : Text) (now : Moment) : Text :=
  let stamp := Stamp.format now settings.newNote.stampFormat
  Note.slug (Template.render settings.newNote.filenameTemplate (Text.trim title) stamp)
    settings.newNote.lowercaseFilename

namespace Workspace

/-- The file of a new note with a title: in the directory that the settings mean. -/
def newPath (workspace : Workspace) (settings : Settings) (title : Text) (active : Option Path)
    (now : Moment) : Path :=
  Note.pathIn (settings.newNote.directory.resolve workspace.root active)
    (settings.newStem title now)

/-- A note with a title is not to be written, or has a stem and is to be written to its file. -/
theorem newNotePlan_cases (workspace : Workspace) (title : Text) (active : Option Path)
    (settings : Settings) (now : Moment) :
    (∃ error, workspace.newNotePlan title active settings now = .done (.error error)) ∨
      Note.IsStem (settings.newStem title now) ∧ ∃ content linkText,
        workspace.newNotePlan title active settings now =
          .write (workspace.newPath settings title active now) content fun created =>
            ⟨workspace.newPath settings title active now, created, linkText⟩ := by
  unfold newNotePlan
  simp only
  split
  · exact .inl ⟨_, rfl⟩
  · next hnamed => exact .inr ⟨Note.isStem_slug (not_or.mp hnamed).2, _, _, rfl⟩

end Workspace

section

variable {σ : Type} [FileSystem σ]

/-- What a request that may create a note in a directory leaves of the files and of the note index,
and the paths that it gives. -/
inductive WritesIn (directory : Option Path) (files : σ) (index : NoteIndex) (after : σ)
    (index' : NoteIndex) (paths : List Path) : Prop where
  /-- All files are as they were. -/
  | kept (hfiles : after = files) (hgeneration : index'.generation = index.generation)
  /-- A note was created. -/
  | created {dir : Path} {stem content : Text} (hdir : directory = some dir)
    (hstem : Note.IsStem stem)
    (habsent : FileSystem.isFile files (Note.pathIn dir stem) = false)
    (hcreate : FileSystem.create files (Note.pathIn dir stem) content = (.ok (), after))
    (hgeneration : index'.generation = index.generation + 1)
    (hpaths : paths = [Note.pathIn dir stem])
  /-- A note could not be created. -/
  | failed {dir : Path} {stem content message : Text} (hstem : Note.IsStem stem)
    (hcreate : FileSystem.create files (Note.pathIn dir stem) content = (.error message, after))
    (hgeneration : index'.generation = index.generation)

namespace WritesIn

open Creation

variable {directory : Option Path} {files after : σ} {start index index' : NoteIndex}
  {paths : List Path}

/-- A list of notes that is kept in between starts no new generation. -/
theorem of_generation (h : WritesIn directory files start after index' paths)
    (hstart : start.generation = index.generation) :
    WritesIn directory files index after index' paths := by
  cases h with
  | kept hfiles hgeneration => exact .kept hfiles (hgeneration.trans hstart)
  | created hdir hstem habsent hcreate hgeneration hpaths =>
    exact .created hdir hstem habsent hcreate (hstart ▸ hgeneration) hpaths
  | failed hstem hcreate hgeneration => exact .failed hstem hcreate (hgeneration.trans hstart)

/-- A note that is to be written is created, or no file changes unless the creation fails. -/
theorem of_write {α : Type} {dir : Path} {stem content : Text} {result : Bool → α}
    (paths : Except NoteError α → List Path) (hdir : directory = some dir)
    (hstem : Note.IsStem stem) (hpaths : paths (.ok (result true)) = [Note.pathIn dir stem]) :
    let outcome := (Plan.write (Note.pathIn dir stem) content result).outcome files index
    WritesIn directory files index outcome.files outcome.index (paths outcome.result) := by
  simp only [Plan.outcome, written]
  split
  · exact .kept rfl rfl
  · next habsent =>
    split
    · next after hcreate =>
      exact .created hdir hstem (Bool.eq_false_iff.mpr habsent) hcreate rfl hpaths
    · next message after hcreate => exact .failed hstem hcreate rfl

/-- The note for a dangling link is created next to the document. -/
theorem of_missingPlan (raw : Text) (document : Path) (settings : Settings)
    (paths : Except NoteError (Option Path) → List Path)
    (hpaths : ∀ path, paths (.ok (some path)) = [path]) :
    let outcome := (Workspace.missingPlan raw document settings).outcome files index
    WritesIn document.parent? files index outcome.files outcome.index (paths outcome.result) := by
  rcases Workspace.missingPlan_cases raw document settings with
    ⟨result, hplan, -⟩ | ⟨dir, -, hslug, hdir, hplan⟩
  · rw [hplan]
    exact .kept rfl rfl
  · rw [hplan]
    exact of_write paths hdir (Note.isStem_slug hslug) (hpaths _)

/-- A note with a title is created in the directory that the settings mean. -/
theorem of_newNotePlan (workspace : Workspace) (title : Text) (active : Option Path)
    (settings : Settings) (now : Moment) (paths : Except NoteError Workspace.NewNote → List Path)
    (hpaths : ∀ note, paths (.ok note) = [note.path]) :
    let outcome := (workspace.newNotePlan title active settings now).outcome files index
    WritesIn (some (settings.newNote.directory.resolve workspace.root active)) files index
      outcome.files outcome.index (paths outcome.result) := by
  rcases workspace.newNotePlan_cases title active settings now with
    ⟨error, hplan⟩ | ⟨hstem, content, linkText, hplan⟩
  · rw [hplan]
    exact .kept rfl rfl
  · rw [hplan]
    exact of_write paths rfl hstem (hpaths _)

end WritesIn

namespace Request

variable {S : Type} [Scale S] (workspace : Workspace) (settings : Settings) (request : Request)

/-- Whatever a request comes to, it writes a note at most, in its directory. -/
theorem writesIn_outcome (files : σ) (index : NoteIndex) :
    let outcome := request.outcome (S := S) workspace settings files index
    WritesIn (request.directory? workspace settings) files index outcome.files outcome.index
      outcome.result.paths := by
  have hkept := workspace.generation_keptIndex settings files index
  cases request with
  | notes => exact .kept rfl hkept
  | completions document text point =>
    simp only [outcome, Outcome.map, Workspace.completionsOutcome]
    cases Link.atPointOrOpen? text point with
    | none => exact .kept rfl rfl
    | some link => exact .kept rfl hkept
  | definitions document text point =>
    simp only [outcome, Outcome.map, Workspace.definitionsOutcome]
    cases Workspace.linkNaming? text point with
    | none => exact .kept rfl rfl
    | some link =>
      simp only
      split
      · exact (WritesIn.of_missingPlan link.text document settings
          (fun answer => (Reply.definitions (answer.map Option.toList) : Reply S).paths)
          fun path => rfl).of_generation hkept
      · exact .kept rfl hkept
  | references document text point =>
    simp only [outcome, Outcome.map, Workspace.referencesOutcome]
    cases Workspace.linkNaming? text point with
    | none => exact .kept rfl rfl
    | some link => exact .kept rfl hkept
  | missingNote raw document =>
    exact .of_missingPlan raw document settings
      (fun answer => (Reply.missingNote answer : Reply S).paths) fun path => rfl
  | newNote title active now =>
    exact .of_newNotePlan workspace title active settings now
      (fun answer => (Reply.newNote answer : Reply S).paths) fun note => rfl

/-- Every request writes a note at most, in its directory, also when it is cancelled. -/
theorem writesIn_run (session : Session σ) :
    let run := (request.perform (S := S) workspace settings).run session
    WritesIn (request.directory? workspace settings) session.files session.index run.2.files
      run.2.index run.1.paths := by
  intro run
  obtain ⟨reply, after, hrun, -, hcases⟩ :=
    request.comesTo_perform (S := S) workspace settings session
  have hends : run = (reply, after) := hrun
  rw [hends]
  rcases hcases with ⟨hreply, hfiles, hindex⟩ | ⟨-, -, hfiles, hindex⟩
  · simp only [hreply, hfiles, hindex]
    exact request.writesIn_outcome workspace settings session.files session.index
  · refine .kept hfiles ?_
    rcases hindex with hindex | hindex
    · exact congrArg (·.generation) hindex
    · exact (congrArg (·.generation) hindex).trans (workspace.generation_keptIndex ..)

end Request

end

/-- Whether a tree has a file at a real path where another one has none. -/
def FileTree.IsNew (tree after : FileTree) (real : RealPath) : Prop :=
  tree.content? real = none ∧ after.content? real ≠ none

/-- Where a file may be written, nothing was at the place of a new one. -/
theorem FileTree.IsNew.entry?_eq_none {tree after : FileTree} {real : RealPath}
    (h : tree.IsNew after real) (hwritable : tree.Writable real) : tree.entry? real = none := by
  cases hentry : tree.entry? real with
  | none => rfl
  | some entry =>
    obtain ⟨old, rfl⟩ := hwritable entry hentry
    have hold := content?_eq_some_iff.mpr hentry
    exact absurd (hold.symm.trans h.1) nofun

/-- Only the file that was written can be new. -/
theorem FileTree.Lands.eq_of_isNew {tree after : FileTree} {dir : Path} {name : Text}
    {spot real other : RealPath} (h : tree.Lands after dir name spot real)
    (hnew : tree.IsNew after other) : other = real := by
  by_contra hother
  exact hnew.2 ((h.others other hother).trans hnew.1)

/-- The path of a note tells its file name. -/
theorem Note.append_extension_eq_of_pathIn_eq {dir : Path} {stem stem' : Text}
    (hstem : Note.IsStem stem) (hstem' : Note.IsStem stem')
    (h : Note.pathIn dir stem = Note.pathIn dir stem') :
    stem ++ ".md".toList = stem' ++ ".md".toList := by
  have hends := congrArg Path.fileName? h
  rw [Note.pathIn, Note.pathIn, Path.fileName?_join_name dir hstem.isPiece,
    Path.fileName?_join_name dir hstem'.isPiece] at hends
  exact Option.some.inj hends

/-- Whether an operation that gives some paths keeps every file and adds one note at most, in the
directory that is meant for it. -/
structure Confined (directory : Option Path) (session after : Session FileTree)
    (paths : List Path) : Prop where
  /-- Every file keeps its text. -/
  kept : ∀ real content, session.files.content? real = some content →
    after.files.content? real = some content
  /-- A new file is in the directory, with a stem and the extension of notes, at the path that the
  reply gives. -/
  added : ∀ real, session.files.IsNew after.files real → ∃ dir stem spot,
    directory = some dir ∧ Note.IsStem stem ∧ paths = [Note.pathIn dir stem] ∧
      after.files.place dir = .ok (.present spot .directory) ∧ real = spot ++ [stem ++ ".md".toList]
  /-- There is one new file at most. -/
  once : ∀ real other, session.files.IsNew after.files real →
    session.files.IsNew after.files other → real = other
  /-- A new generation of the list of notes starts exactly if there is a new file. -/
  announced : (∃ real, session.files.IsNew after.files real) ∧
      after.index.generation = session.index.generation + 1 ∨
    (∀ real, ¬session.files.IsNew after.files real) ∧
      after.index.generation = session.index.generation
  /-- Without a path in the reply there is no new file. -/
  failed : paths = [] → (∀ real, ¬session.files.IsNew after.files real) ∧
    after.index.generation = session.index.generation

/-- Whether nothing, not even a link, was in the directory under the name of a note, if a new
generation of the list of notes tells that the note was created. -/
def Vacant (directory : Option Path) (session after : Session FileTree) (paths : List Path) :
    Prop :=
  after.index.generation ≠ session.index.generation → ∀ dir path name spot,
    directory = some dir → path ∈ paths → path.fileName? = some name →
      after.files.place dir = .ok (.present spot .directory) →
        session.files.entry? (spot ++ [name]) = none

section

variable {directory : Option Path} {session after : Session FileTree} {paths : List Path}

/-- An operation that changes no file keeps to its directory. -/
theorem confined_of_content? (hfiles : ∀ real, after.files.content? real =
      session.files.content? real)
    (hgeneration : after.index.generation = session.index.generation) :
    Confined directory session after paths := by
  have hnone : ∀ real, ¬session.files.IsNew after.files real :=
    fun real ⟨hbefore, hafter⟩ => hafter ((hfiles real).trans hbefore)
  exact {
    kept := fun real content h => (hfiles real).trans h
    added := fun real h => absurd h (hnone real)
    once := fun real _ h => absurd h (hnone real)
    announced := .inr ⟨hnone, hgeneration⟩
    failed := fun _ => ⟨hnone, hgeneration⟩ }

/-- A note is created in its directory exactly if nothing had its name there. -/
theorem confined_iff_of_lands {dir : Path} {stem : Text} {spot real : RealPath}
    (hdir : directory = some dir) (hstem : Note.IsStem stem)
    (hlands : session.files.Lands after.files dir (stem ++ ".md".toList) spot real)
    (hgeneration : after.index.generation = session.index.generation + 1)
    (hpaths : paths = [Note.pathIn dir stem]) :
    Confined directory session after paths ↔
      session.files.entry? (spot ++ [stem ++ ".md".toList]) = none := by
  constructor
  · intro h
    obtain ⟨other, hnew⟩ : ∃ other, session.files.IsNew after.files other :=
      h.announced.elim (·.1) fun ⟨_, hsame⟩ => absurd hsame (by omega)
    obtain ⟨dir', stem', spot', hdir', hstem', hpaths', hspot', hreal⟩ := h.added other hnew
    obtain rfl : dir = dir' := Option.some.inj (hdir.symm.trans hdir')
    have hspot : spot = spot' := by
      have hplace := hlands.dir.symm.trans hspot'
      cases hplace
      rfl
    have hname : stem ++ ".md".toList = stem' ++ ".md".toList :=
      Note.append_extension_eq_of_pathIn_eq hstem hstem'
        (List.singleton_inj.mp (hpaths.symm.trans hpaths'))
    rw [hspot, hname, ← hreal]
    obtain rfl : other = _ := hlands.eq_of_isNew hnew
    exact hnew.entry?_eq_none hlands.writable
  · intro hnone
    have hreal : real = spot ++ [stem ++ ".md".toList] := by
      refine hlands.name.resolve_right fun ⟨target, hlink⟩ => ?_
      rw [hnone] at hlink
      cases hlink
    have hbefore : session.files.content? real = none := by
      rw [hreal, FileTree.content?, hnone]
    have hnew : session.files.IsNew after.files real := ⟨hbefore, hlands.file⟩
    refine {
      kept := fun other content hcontent => ?_
      added := fun other hother => ?_
      once := fun first second hfirst hsecond =>
        (hlands.eq_of_isNew hfirst).trans (hlands.eq_of_isNew hsecond).symm
      announced := .inl ⟨⟨real, hnew⟩, hgeneration⟩
      failed := fun hnil => absurd (hpaths.symm.trans hnil) (List.cons_ne_nil _ _) }
    · have hother : other ≠ real := by
        rintro rfl
        rw [hbefore] at hcontent
        cases hcontent
      exact (hlands.others other hother).trans hcontent
    · exact ⟨dir, stem, spot, hdir, hstem, hpaths, hlands.dir,
        (hlands.eq_of_isNew hother).trans hreal⟩

end

namespace Request

variable {S : Type} [Scale S]

/-- Whatever it is for, and whether it is cancelled or not, a request keeps every file and adds one
note at most, in the directory that is meant for it, exactly if nothing in this directory had the
name of a note that it has created. -/
theorem run_confined_iff (workspace : Workspace) (settings : Settings) (request : Request)
    (session : Session FileTree) :
    let run := (request.perform (S := S) workspace settings).run session
    let directory := request.directory? workspace settings
    Confined directory session run.2 run.1.paths ↔ Vacant directory session run.2 run.1.paths := by
  intro run directory
  cases request.writesIn_run (S := S) workspace settings session with
  | kept hfiles hgeneration =>
    refine ⟨fun _ hchanged => absurd hgeneration hchanged, fun _ => ?_⟩
    exact confined_of_content? (fun real => congrArg (·.content? real) hfiles) hgeneration
  | @created dir stem content hdir hstem habsent hcreate hgeneration hpaths =>
    obtain ⟨spot, real, hlands⟩ := FileTree.exists_lands_of_create hstem.isPiece hcreate
    rw [confined_iff_of_lands hdir hstem hlands hgeneration hpaths]
    have hends : (Note.pathIn dir stem).fileName? = some (stem ++ ".md".toList) :=
      Path.fileName?_join_name dir hstem.isPiece
    constructor
    · intro hnone _ dir' path name spot' hdir' hpath hname hspot'
      obtain rfl : dir = dir' := Option.some.inj (hdir.symm.trans hdir')
      have hplace := hlands.dir.symm.trans hspot'
      cases hplace
      rw [hpaths] at hpath
      rw [List.mem_singleton.mp hpath, hends] at hname
      cases hname
      exact hnone
    · intro hvacant
      have hchanged : run.2.index.generation ≠ session.index.generation := by
        rw [hgeneration]
        exact Nat.succ_ne_self _
      exact hvacant hchanged dir _ _ spot hdir (hpaths ▸ List.mem_singleton_self _) hends
        hlands.dir
  | failed hstem hcreate hgeneration =>
    refine ⟨fun _ hchanged => absurd hgeneration hchanged, fun _ => ?_⟩
    exact confined_of_content? (FileTree.content?_of_create_eq_error hcreate) hgeneration

/-- The file of a new note is not seen through a directory that is yet to be made, and then a file
with its name is written over. -/
theorem run_not_confined_overwritten :
    let workspace : Workspace := ⟨⟨"/ws".toList⟩⟩
    let settings : Settings := { newNote := { directory := .inside ⟨"drafts/..".toList⟩ } }
    let now : Moment := ⟨2024, 5, 6, 7, 8, 9, 0, 0⟩
    let request : Request := .newNote "b".toList none now
    let session : Session FileTree :=
      { files := { entries := [(["ws".toList], .directory),
          (["ws".toList, "b.md".toList], .file (some "old".toList))] } }
    let run := (request.perform (S := Rat) workspace settings).run session
    run.1.paths = [⟨"/ws/drafts/../b.md".toList⟩] ∧
      ¬Confined (request.directory? workspace settings) session run.2 run.1.paths := by
  intro workspace settings now request session run
  refine ⟨by decide +kernel, fun h => ?_⟩
  have hbefore : session.files.content? ["ws".toList, "b.md".toList] =
      some (some "old".toList) := by decide +kernel
  have hafter : run.2.files.content? ["ws".toList, "b.md".toList] =
      some (some "# b\n\n".toList) := by decide +kernel
  have hkept := h.kept _ _ hbefore
  rw [hafter] at hkept
  exact absurd hkept (by decide)

/-- A request keeps to its directory if the directory is there beforehand and has no links. -/
theorem run_confined_of_present (workspace : Workspace) (settings : Settings) (request : Request)
    (session : Session FileTree)
    (hpresent : ∀ dir, request.directory? workspace settings = some dir → ∃ spot,
      session.files.place dir = .ok (.present spot .directory) ∧
        ∀ name target, session.files.entry? (spot ++ [name]) ≠ some (.link target)) :
    let run := (request.perform (S := S) workspace settings).run session
    Confined (request.directory? workspace settings) session run.2 run.1.paths := by
  intro run
  cases request.writesIn_run (S := S) workspace settings session with
  | kept hfiles hgeneration =>
    exact confined_of_content? (fun real => congrArg (·.content? real) hfiles) hgeneration
  | created hdir hstem habsent hcreate hgeneration hpaths =>
    obtain ⟨spot, real, hlands⟩ := FileTree.exists_lands_of_create hstem.isPiece hcreate
    obtain ⟨spot', hplace, hlink⟩ := hpresent _ hdir
    obtain ⟨hafter, hnone⟩ :=
      FileTree.entry?_eq_none_of_create hstem.isPiece hplace (hlink _) habsent hcreate
    cases hlands.dir.symm.trans hafter
    exact (confined_iff_of_lands hdir hstem hlands hgeneration hpaths).mpr hnone
  | failed hstem hcreate hgeneration =>
    exact confined_of_content? (FileTree.content?_of_create_eq_error hcreate) hgeneration

end Request

end LinkedNotes
