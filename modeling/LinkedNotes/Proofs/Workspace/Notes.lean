import LinkedNotes.Proofs.Workspace.Session
import LinkedNotes.Workspace.Queries

/-!
# The notes that a question is about

What an enumeration finds is a function of the files, unless it is cancelled. Main statement: a
question either gets the list that is kept or else the one that the files give, or nothing because
it is cancelled, and the next question about the same files gets the same list.
-/

namespace LinkedNotes

variable {σ : Type}

/-- Whether an operation on a session finds something and only asks for it; when it finds nothing,
the operation is cancelled by then. -/
def Action.Finds {α : Type} (action : Action σ (Option α)) (session : Session σ) (found : α) :
    Prop :=
  ∃ result after, action.run session = (result, after) ∧ after.Follows session ∧
    (result = some found ∨ result = none ∧ after.token.cancelled = true)

/-- Nobody cancels a session in which nobody cancels. -/
theorem Session.Follows.not_quiet {after before : Session σ} (h : after.Follows before)
    (hcancelled : after.token.cancelled = true) : ¬before.token.Quiet := by
  intro hquiet
  have huntouched := (h.quiet hquiet).untouched
  rw [hcancelled] at huntouched
  cases huntouched

namespace Action

variable {α β : Type}

/-- What is found needs no asking. -/
theorem finds_pure (session : Session σ) (found : α) : Finds (pure (some found)) session found :=
  ⟨some found, session, rfl, .refl session, .inl rfl⟩

/-- A step before a search may ask anything. -/
theorem finds_bind {action : Action σ β} {next : β → Action σ (Option α)} {session : Session σ}
    {result : β} {found : α} (h : action.Answers session result)
    (hnext : ∀ after : Session σ, after.Follows session → (next result).Finds after found) :
    (action >>= next).Finds session found := by
  obtain ⟨after, hrun, hafter⟩ := h
  obtain ⟨result, last, hlast, hfollows, hresult⟩ := hnext after hafter
  exact ⟨result, last, (run_bind_of_eq hrun).trans hlast, hfollows.trans hafter, hresult⟩

/-- A search may end before any step when it is cancelled. -/
theorem finds_unless_cancelled {next : Action σ (Option α)} {session : Session σ} {found : α}
    (h : next.Finds session found) :
    Finds (do if ← cancelled then return none else next) session found := by
  have hrun : (cancelled : Action σ Bool).run session = (session.token.cancelled, session) := rfl
  cases hc : session.token.cancelled with
  | true =>
    rw [hc] at hrun
    exact ⟨none, session, run_bind_of_eq hrun, .refl session, .inr ⟨rfl, hc⟩⟩
  | false =>
    rw [hc] at hrun
    obtain ⟨result, last, hlast, hfollows, hresult⟩ := h
    exact ⟨result, last, (run_bind_of_eq hrun).trans hlast, hfollows, hresult⟩

/-- What is found may be changed in the end. -/
theorem finds_map {action : Action σ (Option β)} {session : Session σ} {found : β}
    (h : action.Finds session found) (f : β → α) :
    Finds (do return (← action).map f) session (f found) := by
  obtain ⟨result, after, hrun, hfollows, hresult⟩ := h
  refine ⟨result.map f, after, run_bind_of_eq hrun, hfollows, ?_⟩
  exact hresult.imp (fun h => by rw [h]; rfl) fun h => ⟨by rw [h.1]; rfl, h.2⟩

/-- A search that nobody cancels finds what there is. -/
theorem Finds.answers {action : Action σ (Option α)} {session : Session σ} {found : α}
    (h : action.Finds session found) (hquiet : session.token.Quiet) :
    action.Answers session (some found) := by
  obtain ⟨result, after, hrun, hfollows, rfl | ⟨-, hcancelled⟩⟩ := h
  · exact ⟨after, hrun, hfollows⟩
  · exact absurd hquiet (hfollows.not_quiet hcancelled)

end Action

namespace Discovery

open LinkedNotes.Action

variable [FileSystem σ] [Host]

/-- The paths of some chunks that git ignores. -/
def ignoredIn (files : σ) (root : Path) (chunks : List (List Text)) : List Path :=
  chunks.flatMap fun chunk =>
    ((FileSystem.ignored files root chunk).getD []).map fun text => root.join (Host.ofText text)

/-- The notes of some that git does not ignore. -/
def keptIn (files : σ) (root : Path) (notes : List Path) : List Path :=
  let ignored := ignoredIn files root (chunks (textsBelow root notes))
  notes.filter fun note => !ignored.any (·.same note)

/-- The notes that an enumeration finds in some files. -/
def listing (files : σ) (root : Path) (settings : IndexSettings) : List Path :=
  let candidates := included root settings (FileSystem.list files root)
  let kept := if settings.respectGitignore && !candidates.isEmpty then keptIn files root candidates
    else candidates
  kept.mergeSort Path.le

/-- Git is asked about one chunk after the other. -/
theorem finds_ignoredChunks (root : Path) (chunks : List (List Text)) (session : Session σ) :
    (ignoredChunks root chunks).Finds session (ignoredIn session.files root chunks) := by
  induction chunks generalizing session with
  | nil => exact finds_pure session []
  | cons chunk rest ih =>
    refine finds_unless_cancelled (finds_bind (answers_ask ..) fun after hafter => ?_)
    have hrest := finds_map (ih after) (((FileSystem.ignored session.files root chunk).getD []).map
      (fun text => root.join (Host.ofText text)) ++ ·)
    rw [hafter.files] at hrest
    exact hrest

/-- An enumeration finds what the files give. -/
theorem finds_notes (root : Path) (settings : IndexSettings) (session : Session σ) :
    (notes root settings).Finds session (listing session.files root settings) := by
  refine finds_unless_cancelled (finds_bind (answers_ask ..) fun after hafter => ?_)
  refine finds_unless_cancelled ?_
  simp only [listing, ← hafter.files]
  split
  · exact finds_map (finds_map (finds_ignoredChunks root _ after) _) _
  · exact finds_map (finds_pure after _) _

end Discovery

namespace Workspace

open LinkedNotes.Action

variable [FileSystem σ]

/-- The notes that a question is about: the list that is kept, else what the files give. -/
def noteList (workspace : Workspace) (settings : Settings) (files : σ) (index : NoteIndex) :
    List Path :=
  let listing := Discovery.listing files workspace.root settings.index
  if settings.index.cacheEnabled then index.current?.getD listing else listing

/-- The list of notes that is kept after a question. -/
def keptIndex (workspace : Workspace) (settings : Settings) (files : σ) (index : NoteIndex) :
    NoteIndex :=
  if settings.index.cacheEnabled ∧ index.current? = none then
    index.store index.generation (Discovery.listing files workspace.root settings.index)
  else index

/-- The next question about the same files is about the same notes. -/
theorem noteList_keptIndex (workspace : Workspace) (settings : Settings) (files : σ)
    (index : NoteIndex) :
    workspace.noteList settings files (workspace.keptIndex settings files index) =
      workspace.noteList settings files index := by
  unfold noteList keptIndex
  cases settings.index.cacheEnabled with
  | false => simp
  | true =>
    cases hcurrent : index.current? with
    | some notes => simp [hcurrent]
    | none =>
      -- A list that is empty is enumerated again, with the same end.
      by_cases hempty : Discovery.listing files workspace.root settings.index = []
      · simp [hempty, NoteIndex.store, NoteIndex.current?]
      · simp [NoteIndex.current?_store index hempty]

/-- A question gets its notes and leaves them for the next one, or gets none as it is cancelled. -/
theorem exists_notes_run (workspace : Workspace) (settings : Settings) (session : Session σ) :
    ∃ found after, (workspace.notes settings).run session = (found, after) ∧
      after.files = session.files ∧ (session.token.Quiet → after.token.Quiet) ∧
      (session.token.cancelled = true → after.token.cancelled = true) ∧
      (found = workspace.noteList settings session.files session.index ∧
        after.index = workspace.keptIndex settings session.files session.index ∨
      found = [] ∧ after.index = session.index ∧ after.token.cancelled = true) := by
  obtain ⟨result, after, hrun, hafter, hresult⟩ :=
    Discovery.finds_notes workspace.root settings.index session
  unfold notes NoteIndex.getOrRefill
  cases hcache : settings.index.cacheEnabled with
  | false =>
    refine ⟨result.getD [], after, run_bind_of_eq hrun, hafter.files, hafter.quiet,
      hafter.stopped, ?_⟩
    refine hresult.imp (fun h => ?_) fun h => ⟨by rw [h.1]; rfl, hafter.index, h.2⟩
    simp [h, noteList, keptIndex, hcache, hafter.index]
  | true =>
    have hget : (getThe NoteIndex : Action σ NoteIndex).run session = (session.index, session) :=
      rfl
    simp only [Bool.not_true, Bool.false_eq_true, if_false]
    rw [run_bind_of_eq hget]
    cases hcurrent : session.index.current? with
    | some notes =>
      refine ⟨notes, session, rfl, rfl, id, id, .inl ?_⟩
      simp [noteList, keptIndex, hcache, hcurrent]
    | none =>
      simp only
      rw [run_bind_of_eq hrun]
      rcases hresult with rfl | ⟨rfl, hcancelled⟩
      · refine ⟨_, _, rfl, hafter.files, hafter.quiet, hafter.stopped, .inl ?_⟩
        simp [noteList, keptIndex, hcache, hcurrent, hafter.index]
      · exact ⟨[], after, rfl, hafter.files, hafter.quiet, hafter.stopped,
          .inr ⟨rfl, hafter.index, hcancelled⟩⟩

/-- A question that nobody cancels gets its notes. -/
theorem exists_notes_run_of_quiet (workspace : Workspace) (settings : Settings)
    {session : Session σ} (h : session.token.Quiet) :
    ∃ after : Session σ, (workspace.notes settings).run session =
        (workspace.noteList settings session.files session.index, after) ∧
      after.files = session.files ∧ after.token.Quiet := by
  obtain ⟨found, after, hrun, hfiles, hquiet, -, hfound⟩ :=
    workspace.exists_notes_run settings session
  rcases hfound with ⟨rfl, -⟩ | ⟨-, -, hcancelled⟩
  · exact ⟨after, hrun, hfiles, hquiet h⟩
  · rw [(hquiet h).untouched] at hcancelled
    cases hcancelled

end Workspace
end LinkedNotes
