import LinkedNotes.Proofs.Workspace.References

/-!
# Requests to a workspace

The operations of a workspace as data, so that they can be mixed in runs. Main statement: every
request comes to an outcome that the files and the note index determine, or is cancelled with a void
reply, leaving the files alone and the index with the list that it held or with the complete one.
The index only matters for the notes that a request is about.
-/

namespace LinkedNotes

/-- The settings with others for which files are notes. -/
def Settings.withIndex (settings : Settings) (index : IndexSettings) : Settings :=
  { settings with index := index }

namespace Workspace

open LinkedNotes.Action Creation

variable {σ : Type} [FileSystem σ] (workspace : Workspace) (settings : Settings)

/-- What completing the link at a point comes to. -/
def completionsOutcome {S : Type} [Scale S] (document : Path) (text : Text) (point : Point)
    (files : σ) (index : NoteIndex) : Outcome σ (Completion S) :=
  match Link.atPointOrOpen? text point with
  | none => ⟨{}, files, index⟩
  | some link =>
    let ranker : Ranker := ⟨workspace.root, settings.convention, some document⟩
    ⟨⟨some link, ranker.rank link.text (workspace.noteList settings files index)⟩, files,
      workspace.keptIndex settings files index⟩

/-- What going to the target of the link at a point comes to. -/
def definitionsOutcome (document : Path) (text : Text) (point : Point) (files : σ)
    (index : NoteIndex) : Outcome σ (Except NoteError (List Path)) :=
  match linkNaming? text point with
  | none => ⟨.ok [], files, index⟩
  | some link =>
    let kept := workspace.keptIndex settings files index
    match (workspace.matcher settings).documentsOf (FileSystem.isFile files)
        (workspace.noteList settings files index) link.text document with
    | [] => ((missingPlan link.text document settings).outcome files kept).map
        (·.map Option.toList)
    | found => ⟨.ok found, files, kept⟩

/-- The kept list and the settings of the notes only matter for the notes that are known. -/
theorem agrees_definitionsOutcome (document : Path) (text : Text) (point : Point) {files : σ}
    {first second : IndexSettings} {index index' : NoteIndex}
    (h : workspace.noteList (settings.withIndex first) files index =
      workspace.noteList (settings.withIndex second) files index') :
    (workspace.definitionsOutcome (settings.withIndex first) document text point files index).Agrees
      (workspace.definitionsOutcome (settings.withIndex second) document text point files
        index') := by
  unfold definitionsOutcome
  cases linkNaming? text point with
  | none => exact ⟨rfl, rfl⟩
  | some link =>
    have hmatcher : workspace.matcher (settings.withIndex first) =
        workspace.matcher (settings.withIndex second) := rfl
    simp only [h, hmatcher]
    split
    · exact ((missingPlan link.text document settings).agrees_outcome files _ _).map _
    · exact ⟨rfl, rfl⟩

section

variable (document : Path) (text : Text) (point : Point) (session : Session σ)

/-- A completion comes to its outcome, or to nothing when it is cancelled. -/
theorem comesTo_completionsFor {S : Type} [Scale S] :
    (workspace.completionsFor (S := S) document text point settings).ComesTo session
      (workspace.completionsOutcome settings document text point session.files session.index)
      (workspace.keptIndex settings session.files session.index)
      fun found => found.link = none ∧ found.candidates = [] := by
  unfold completionsFor completionsOutcome
  cases Link.atPointOrOpen? text point with
  | none => exact comesTo_of_answers (answers_pure session _)
  | some link =>
    refine comesTo_notes (fun middle hfiles hindex => ?_) fun middle hcancelled => ?_
    · refine comesTo_unless_cancelled ⟨rfl, rfl⟩ ?_
      rw [← hindex, ← hfiles]
      exact comesTo_of_answers (answers_pure middle _)
    · exact ⟨_, answers_when_cancelled _ _ hcancelled, rfl, rfl⟩

/-- Going to the target of a link comes to its outcome. When it is cancelled, it leads nowhere, or
the note that it would have created is not created. -/
theorem comesTo_definitionsFor :
    (workspace.definitionsFor document text point settings).ComesTo session
      (workspace.definitionsOutcome settings document text point session.files session.index)
      (workspace.keptIndex settings session.files session.index)
      fun answer => answer = .ok [] ∨ answer = .error .cancelled := by
  unfold definitionsFor definitionsOutcome
  cases linkNaming? text point with
  | none => exact comesTo_of_answers (answers_pure session _)
  | some link =>
    refine comesTo_notes (fun middle hfiles hindex => ?_) fun middle hcancelled => ?_
    · refine comesTo_unless_cancelled (.inl rfl) ?_
      refine comesTo_bind (answers_documents _ _ _ _ middle) fun after hafter => ?_
      simp only
      rw [← hindex, ← hfiles, ← hafter.files, ← hafter.index]
      cases (workspace.matcher settings).documentsOf (FileSystem.isFile after.files)
          (workspace.noteList settings after.files session.index) link.text document with
      | nil =>
        rw [createMissingNote_eq]
        refine comesTo_map (Plan.comesTo_perform _ after _) fun answer hanswer => ?_
        rw [hanswer]
        exact .inr rfl
      | cons path more => exact comesTo_of_answers (answers_pure after _)
    · exact ⟨_, answers_when_cancelled _ _ hcancelled, .inl rfl⟩

end

end Workspace

/-- A request to a workspace. -/
inductive Request where
  /-- For the known notes. -/
  | notes
  /-- For the notes that could complete the link at a point. -/
  | completions (document : Path) (text : Text) (point : Point)
  /-- For the documents that the link at a point leads to. -/
  | definitions (document : Path) (text : Text) (point : Point)
  /-- For the links to the note that the link at a point leads to. -/
  | references (document : Path) (text : Text) (point : Point)
  /-- For the note that a dangling link asks for. -/
  | missingNote (raw : Text) (document : Path)
  /-- For a new note with a title. -/
  | newNote (title : Text) (active : Option Path) (now : Moment)

/-- The reply to a request. -/
inductive Reply (S : Type) where
  /-- The known notes. -/
  | notes (found : List Path)
  /-- The link at the point and its candidates. -/
  | completions (found : Completion S)
  /-- The documents that the link leads to. -/
  | definitions (answer : Except NoteError (List Path))
  /-- The places of the links. -/
  | references (places : List (Path × TextRange))
  /-- The note that was created, if any. -/
  | missingNote (answer : Except NoteError (Option Path))
  /-- The new note. -/
  | newNote (answer : Except NoteError Workspace.NewNote)

/-- Whether a reply holds nothing, or only that the request was cancelled. -/
def Reply.Void {S : Type} : Reply S → Prop
  | notes found => found = []
  | completions found => found.link = none ∧ found.candidates = []
  | definitions answer => answer = .ok [] ∨ answer = .error .cancelled
  | references places => places = []
  | missingNote answer => answer = .error .cancelled
  | newNote answer => answer = .error .cancelled

namespace Request

open LinkedNotes.Action

variable {σ S : Type} [FileSystem σ] [Scale S] (workspace : Workspace) (settings : Settings)

/-- Carries out a request. -/
def perform : Request → Action σ (Reply S)
  | notes => do return .notes (← workspace.notes settings)
  | completions document text point => do
    return .completions (← workspace.completionsFor document text point settings)
  | definitions document text point => do
    return .definitions (← workspace.definitionsFor document text point settings)
  | references document text point => do
    return .references (← workspace.referencesFor document text point settings)
  | missingNote raw document => do
    return .missingNote (← Workspace.createMissingNote raw document settings)
  | newNote title active now => do
    return .newNote (← workspace.newNote title active settings now)

/-- What a request comes to when nobody cancels it. -/
def outcome (files : σ) (index : NoteIndex) : Request → Outcome σ (Reply S)
  | notes =>
    ⟨.notes (workspace.noteList settings files index), files,
      workspace.keptIndex settings files index⟩
  | completions document text point =>
    (workspace.completionsOutcome settings document text point files index).map .completions
  | definitions document text point =>
    (workspace.definitionsOutcome settings document text point files index).map .definitions
  | references document text point =>
    (workspace.referencesOutcome settings document text point files index).map .references
  | missingNote raw document =>
    ((Workspace.missingPlan raw document settings).outcome files index).map .missingNote
  | newNote title active now =>
    ((workspace.newNotePlan title active settings now).outcome files index).map .newNote

/-- A request comes to its outcome, or to a void reply when it is cancelled. -/
theorem comesTo_perform (request : Request) (session : Session σ) :
    (request.perform (S := S) workspace settings).ComesTo session
      (request.outcome workspace settings session.files session.index)
      (workspace.keptIndex settings session.files session.index) Reply.Void := by
  cases request with
  | notes =>
    refine Workspace.comesTo_notes (fun middle hfiles hindex => ?_) fun middle _ => ?_
    · simp only [outcome]
      rw [← hindex, ← hfiles]
      exact comesTo_of_answers (answers_pure middle _)
    · exact ⟨_, answers_pure middle _, rfl⟩
  | completions document text point =>
    exact comesTo_map (workspace.comesTo_completionsFor settings document text point session)
      fun _ h => h
  | definitions document text point =>
    exact comesTo_map (workspace.comesTo_definitionsFor settings document text point session)
      fun _ h => h
  | references document text point =>
    exact comesTo_map (Workspace.comesTo_referencesFor session) fun _ h => h
  | missingNote raw document =>
    simp only [perform, Workspace.createMissingNote_eq]
    exact comesTo_map (Creation.Plan.comesTo_perform _ session _) fun _ h => h
  | newNote title active now =>
    simp only [perform, Workspace.newNote_eq]
    exact comesTo_map (Creation.Plan.comesTo_perform _ session _) fun _ h => h

/-- The kept list and the settings of the notes only matter for the notes that a request is
about. -/
theorem agrees_outcome (request : Request) (files : σ) {first second : IndexSettings}
    {index index' : NoteIndex} (h : workspace.noteList (settings.withIndex first) files index =
      workspace.noteList (settings.withIndex second) files index') :
    (request.outcome (S := S) workspace (settings.withIndex first) files index).Agrees
      (request.outcome workspace (settings.withIndex second) files index') := by
  cases request with
  | notes => exact ⟨congrArg Reply.notes h, rfl⟩
  | completions document text point =>
    refine Outcome.Agrees.map ?_ _
    unfold Workspace.completionsOutcome
    cases Link.atPointOrOpen? text point with
    | none => exact ⟨rfl, rfl⟩
    | some link =>
      simp only [h]
      exact ⟨rfl, rfl⟩
  | definitions document text point =>
    exact (workspace.agrees_definitionsOutcome settings document text point h).map _
  | references document text point =>
    refine Outcome.Agrees.map ?_ _
    unfold Workspace.referencesOutcome
    cases Workspace.linkNaming? text point with
    | none => exact ⟨rfl, rfl⟩
    | some link =>
      simp only [h]
      exact ⟨rfl, rfl⟩
  | missingNote raw document =>
    exact ((Workspace.missingPlan raw document settings).agrees_outcome files _ _).map _
  | newNote title active now =>
    exact ((workspace.newNotePlan title active settings now).agrees_outcome files _ _).map _

end Request
end LinkedNotes
