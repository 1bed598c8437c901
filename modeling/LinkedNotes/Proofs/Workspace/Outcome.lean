import LinkedNotes.Proofs.Workspace.Notes

/-!
# What operations come to

An operation of a workspace has one end when nobody cancels it, and this end is a function of the
files and of the note index. Main statement: writing a note, and hence every operation that creates
one, comes to its end or is cancelled before it has written anything. What the operations that only
ask come to is outside this module.
-/

namespace LinkedNotes

/-- The end of an operation. -/
structure Outcome (σ α : Type) where
  /-- The result. -/
  result : α
  /-- The files afterwards. -/
  files : σ
  /-- The note index afterwards. -/
  index : NoteIndex

/-- The end of an operation whose result is changed in the end. -/
def Outcome.map {σ α β : Type} (f : α → β) (outcome : Outcome σ α) : Outcome σ β :=
  ⟨f outcome.result, outcome.files, outcome.index⟩

/-- Whether two operations end with the same result and the same files. -/
structure Outcome.Agrees {σ α : Type} (first second : Outcome σ α) : Prop where
  /-- The results are the same. -/
  result : first.result = second.result
  /-- So are the files. -/
  files : first.files = second.files

/-- Operations that agree do so after a change of their results. -/
theorem Outcome.Agrees.map {σ α β : Type} {first second : Outcome σ α} (h : first.Agrees second)
    (f : α → β) : (first.map f).Agrees (second.map f) :=
  ⟨congrArg f h.result, h.files⟩

/-- Whether an operation on a session comes to an outcome unless it is cancelled. A cancelled one
may end with a void result. It then leaves the files alone, and the index or `kept`. -/
def Action.ComesTo {σ α : Type} (action : Action σ α) (session : Session σ)
    (outcome : Outcome σ α) (kept : NoteIndex) (void : α → Prop) : Prop :=
  ∃ result after, action.run session = (result, after) ∧
    (session.token.Quiet → after.token.Quiet) ∧
    (result = outcome.result ∧ after.files = outcome.files ∧ after.index = outcome.index ∨
      after.token.cancelled = true ∧ void result ∧ after.files = session.files ∧
        (after.index = session.index ∨ after.index = kept))

namespace Action

variable {σ α β : Type} {session : Session σ} {kept : NoteIndex} {void : α → Prop}

/-- An operation that nobody cancels ends with its outcome. -/
theorem ComesTo.ends {action : Action σ α} {outcome : Outcome σ α}
    (h : action.ComesTo session outcome kept void) (hquiet : session.token.Quiet) :
    (action.run session).1 = outcome.result ∧ (action.run session).2.files = outcome.files ∧
      (action.run session).2.index = outcome.index := by
  obtain ⟨result, after, hrun, hafter, hends | ⟨hcancelled, -⟩⟩ := h
  · rw [hrun]
    exact hends
  · rw [(hafter hquiet).untouched] at hcancelled
    cases hcancelled

/-- What only asks leaves files and index as they are. -/
theorem comesTo_of_answers {action : Action σ α} {result : α}
    (h : action.Answers session result) :
    action.ComesTo session ⟨result, session.files, session.index⟩ kept void := by
  obtain ⟨after, hrun, hafter⟩ := h
  exact ⟨result, after, hrun, hafter.quiet, .inl ⟨rfl, hafter.files, hafter.index⟩⟩

/-- A step that only asks may come before an operation. -/
theorem comesTo_bind {action : Action σ β} {next : β → Action σ α} {result : β}
    {outcome : Outcome σ α} (h : action.Answers session result)
    (hnext : ∀ after : Session σ, after.Follows session →
      (next result).ComesTo after outcome kept void) :
    (action >>= next).ComesTo session outcome kept void := by
  obtain ⟨middle, hmiddle, hfollows⟩ := h
  obtain ⟨final, after, hrun, hafter, hcases⟩ := hnext middle hfollows
  refine ⟨final, after, (run_bind_of_eq hmiddle).trans hrun, hafter ∘ hfollows.quiet, ?_⟩
  rwa [hfollows.files, hfollows.index] at hcases

/-- An operation may end before any step when it is cancelled. -/
theorem comesTo_unless_cancelled {next : Action σ α} {outcome : Outcome σ α} {empty : α}
    (hempty : void empty) (h : next.ComesTo session outcome kept void) :
    Action.ComesTo (do if ← cancelled then return empty else next) session outcome kept void := by
  have hrun : (cancelled : Action σ Bool).run session = (session.token.cancelled, session) := rfl
  cases hc : session.token.cancelled with
  | true =>
    rw [hc] at hrun
    exact ⟨empty, session, run_bind_of_eq hrun, id, .inr ⟨hc, hempty, rfl, .inl rfl⟩⟩
  | false =>
    rw [hc] at hrun
    obtain ⟨result, after, hafter, hcases⟩ := h
    exact ⟨result, after, (run_bind_of_eq hrun).trans hafter, hcases⟩

/-- The result of an operation may be changed in the end. -/
theorem comesTo_map {action : Action σ β} {outcome : Outcome σ β} {inner : β → Prop} {f : β → α}
    (h : action.ComesTo session outcome kept inner) (hvoid : ∀ result, inner result →
      void (f result)) :
    Action.ComesTo (do return f (← action)) session (outcome.map f) kept void := by
  obtain ⟨result, after, hrun, hafter, hcases⟩ := h
  refine ⟨f result, after, run_bind_of_eq hrun, hafter, ?_⟩
  refine hcases.imp (fun ⟨hresult, hrest⟩ => ⟨congrArg f hresult, hrest⟩) ?_
  exact fun ⟨hcancelled, hinner, hrest⟩ => ⟨hcancelled, hvoid result hinner, hrest⟩

/-- An operation that is cancelled sees so when it looks. -/
theorem answers_when_cancelled (next : Action σ α) (empty : α)
    (h : session.token.cancelled = true) :
    Answers (do if ← cancelled then return empty else next) session empty := by
  have hrun : (cancelled : Action σ Bool).run session = (session.token.cancelled, session) := rfl
  rw [h] at hrun
  exact ⟨session, run_bind_of_eq hrun, .refl session⟩

/-- A search comes to what there is to find, with an empty end when it is cancelled. -/
theorem comesTo_of_finds {action : Action σ (Option α)} {found empty : α}
    (h : action.Finds session found) (hempty : void empty) :
    Action.ComesTo (do return (← action).getD empty) session
      ⟨found, session.files, session.index⟩ kept void := by
  obtain ⟨result, after, hrun, hafter, hresult⟩ := h
  refine ⟨result.getD empty, after, run_bind_of_eq hrun, hafter.quiet, ?_⟩
  rcases hresult with rfl | ⟨rfl, hcancelled⟩
  · exact .inl ⟨rfl, hafter.files, hafter.index⟩
  · exact .inr ⟨hcancelled, hempty, hafter.files, .inl hafter.index⟩

end Action

namespace Creation

open LinkedNotes.Action

variable {σ : Type} [FileSystem σ]

/-- The end of writing a note unless its file exists. Only a note that is created starts a new
generation of the list of notes. -/
def written (path : Path) (content : Text) (files : σ) (index : NoteIndex) :
    Outcome σ (Except NoteError Bool) :=
  if FileSystem.isFile files path then ⟨.ok false, files, index⟩
  else match FileSystem.create files path content with
    | (.ok (), files) => ⟨.ok true, files, index.invalidate⟩
    | (.error message, files) => ⟨.error (.io path message), files, index⟩

/-- Nothing is written by a cancelled operation that has not begun to write. -/
theorem comesTo_writeIfAbsent (path : Path) (content : Text) (session : Session σ)
    (kept : NoteIndex) :
    (writeIfAbsent path content).ComesTo session
      (written path content session.files session.index) kept (· = .error .cancelled) := by
  unfold writeIfAbsent written
  refine comesTo_bind (answers_isFile path session) fun middle hmiddle => ?_
  cases FileSystem.isFile session.files path with
  | true =>
    rw [if_pos rfl, ← hmiddle.files, ← hmiddle.index]
    exact comesTo_of_answers (answers_pure middle _)
  | false =>
    simp only [Bool.false_eq_true, if_false]
    refine comesTo_unless_cancelled rfl ?_
    rw [← hmiddle.files, ← hmiddle.index]
    have hcreate : (create path content : Action σ (Except Text Unit)).run middle =
        ((FileSystem.create middle.files path content).1,
          { middle with
            files := (FileSystem.create middle.files path content).2
            token := middle.token.during .create }) := rfl
    rcases hmade : FileSystem.create middle.files path content with ⟨made, files⟩
    rw [hmade] at hcreate
    cases made with
    | ok _ =>
      exact ⟨.ok true, _, run_bind_of_eq hcreate, (·.during .create), .inl ⟨rfl, rfl, rfl⟩⟩
    | error message =>
      exact ⟨.error (.io path message), _, run_bind_of_eq hcreate, (·.during .create),
        .inl ⟨rfl, rfl, rfl⟩⟩

/-- What an operation that creates a note is about to do. -/
inductive Plan (α : Type) where
  /-- To end with a result and write nothing. -/
  | done (result : Except NoteError α)
  /-- To write a note; the result is made from whether it was created. -/
  | write (path : Path) (content : Text) (result : Bool → α)

namespace Plan

variable {α : Type}

/-- Carries out a plan. -/
def perform : Plan α → Action σ (Except NoteError α)
  | done result => return result
  | write path content result => do return (← writeIfAbsent path content).map result

/-- The end of a plan. -/
def outcome (files : σ) (index : NoteIndex) : Plan α → Outcome σ (Except NoteError α)
  | done result => ⟨result, files, index⟩
  | write path content result => (written path content files index).map (·.map result)

/-- A plan comes to its end, or is cancelled before it writes. -/
theorem comesTo_perform (plan : Plan α) (session : Session σ) (kept : NoteIndex) :
    plan.perform.ComesTo session (plan.outcome session.files session.index) kept
      (· = .error .cancelled) := by
  cases plan with
  | done result => exact comesTo_of_answers (answers_pure session result)
  | write path content result =>
    refine comesTo_map (comesTo_writeIfAbsent path content session kept) fun answer hanswer => ?_
    rw [hanswer]
    rfl

/-- The kept list does not matter for the result and the files. -/
theorem agrees_outcome (plan : Plan α) (files : σ) (index index' : NoteIndex) :
    (plan.outcome files index).Agrees (plan.outcome files index') := by
  cases plan with
  | done result => exact ⟨rfl, rfl⟩
  | write path content result =>
    refine Outcome.Agrees.map ?_ _
    unfold written
    split
    · exact ⟨rfl, rfl⟩
    · rcases FileSystem.create files path content with ⟨_ | _, after⟩ <;> exact ⟨rfl, rfl⟩

end Plan
end Creation

namespace Workspace

open LinkedNotes.Action Creation

variable {σ : Type} [FileSystem σ]

section

variable {α : Type} {workspace : Workspace} {settings : Settings} {session : Session σ}

/-- An operation that begins with a question for the notes goes on with all of them, or with none
when it is cancelled. -/
theorem comesTo_notes {next : List Path → Action σ α} {outcome : Outcome σ α} {void : α → Prop}
    (hnext : ∀ middle : Session σ, middle.files = session.files →
      middle.index = workspace.keptIndex settings session.files session.index →
      (next (workspace.noteList settings session.files session.index)).ComesTo middle outcome
        (workspace.keptIndex settings session.files session.index) void)
    (hnone : ∀ middle : Session σ, middle.token.cancelled = true →
      ∃ result, (next []).Answers middle result ∧ void result) :
    (workspace.notes settings >>= next).ComesTo session outcome
      (workspace.keptIndex settings session.files session.index) void := by
  obtain ⟨found, middle, hrun, hfiles, hquiet, -, hfound⟩ :=
    workspace.exists_notes_run settings session
  rcases hfound with ⟨rfl, hindex⟩ | ⟨rfl, hindex, hcancelled⟩
  · obtain ⟨result, after, hafter, hquiet', hcases⟩ := hnext middle hfiles hindex
    refine ⟨result, after, (run_bind_of_eq hrun).trans hafter, hquiet' ∘ hquiet, ?_⟩
    refine hcases.imp id fun ⟨hstopped, hvoid, hafterFiles, hafterIndex⟩ => ?_
    refine ⟨hstopped, hvoid, hafterFiles.trans hfiles, .inr ?_⟩
    exact hafterIndex.elim (·.trans hindex) id
  · obtain ⟨result, ⟨after, hafter, hfollows⟩, hvoid⟩ := hnone middle hcancelled
    refine ⟨result, after, (run_bind_of_eq hrun).trans hafter, hfollows.quiet ∘ hquiet, .inr ?_⟩
    exact ⟨hfollows.stopped hcancelled, hvoid, hfollows.files.trans hfiles,
      .inl (hfollows.index.trans hindex)⟩

end

/-- What going to a dangling link is about to do. -/
def missingPlan (raw : Text) (document : Path) (settings : Settings) : Plan (Option Path) :=
  if !settings.createMissing then .done (.ok none)
  else if settings.convention ≠ .uniqueNames then .done (.error .requiresUniqueNames)
  else if Note.slug (missingTitle raw) true = [] then .done (.error (.emptyTitle raw))
  else match document.parent? with
    | none => .done (.ok none)
    | some dir =>
      let path := dir.join ⟨Note.fileNameOf (missingTitle raw)⟩
      .write path (missingContent (missingTitle raw)) fun _ => some path

/-- A dangling link is followed as planned. -/
theorem createMissingNote_eq (raw : Text) (document : Path) (settings : Settings) :
    createMissingNote raw document settings =
      ((missingPlan raw document settings).perform : Action σ _) := by
  unfold createMissingNote missingPlan
  split
  · rfl
  · split
    · rfl
    · simp only
      split
      · rfl
      · cases document.parent? with
        | none => rfl
        | some dir =>
          refine bind_congr fun created => ?_
          cases created <;> rfl

/-- What making a note with a title is about to do. -/
def newNotePlan (workspace : Workspace) (title : Text) (active : Option Path)
    (settings : Settings) (now : Moment) : Plan NewNote :=
  let title := Text.trim title
  let stamp := Stamp.format now settings.newNote.stampFormat
  let stem := Note.slug (Template.render settings.newNote.filenameTemplate title stamp)
    settings.newNote.lowercaseFilename
  if title = [] ∨ stem = [] then .done (.error (.emptyTitle title))
  else
    let dir := settings.newNote.directory.resolve workspace.root active
    let path := dir.join ⟨stem ++ ".md".toList⟩
    .write path (Template.render settings.newNote.contentTemplate title stamp) fun created =>
      ⟨path, created, Template.render settings.newNote.linkTemplate title stamp⟩

/-- A note with a title is made as planned. -/
theorem newNote_eq (workspace : Workspace) (title : Text) (active : Option Path)
    (settings : Settings) (now : Moment) :
    workspace.newNote title active settings now =
      ((workspace.newNotePlan title active settings now).perform : Action σ _) := by
  unfold newNote newNotePlan
  simp only
  split
  · rfl
  · refine bind_congr fun created => ?_
    cases created <;> rfl

end Workspace
end LinkedNotes
