import LinkedNotes.Proofs.Workspace.Index
import LinkedNotes.Proofs.Workspace.Requests

/-!
# Fresh lists of notes

What a request leaves of the files and of the note index. Main statement: no list comes to be served
that differs from what an enumeration finds, as long as a file that cannot be created leaves the
notes as they are. Changes to the files that no request makes are outside this module.
-/

namespace LinkedNotes

open Creation

variable {σ : Type} [FileSystem σ]

/-- Whether no list is served but what an enumeration finds. -/
def NoteIndex.Fresh (index : NoteIndex) (root : Path) (settings : IndexSettings) (files : σ) :
    Prop :=
  ∀ notes, index.current? = some notes → notes = Discovery.listing files root settings

/-- No list is served that is wrong when none is served. -/
theorem NoteIndex.fresh_of_current?_eq_none {index : NoteIndex} (h : index.current? = none)
    (root : Path) (settings : IndexSettings) (files : σ) : index.Fresh root settings files := by
  intro notes hnotes
  rw [h] at hnotes
  cases hnotes

/-- Whether two indexes serve the same list, perhaps in different generations. -/
structure NoteIndex.ServesAs (first second : NoteIndex) : Prop where
  /-- The lists that can be served are the same. -/
  current : first.current? = second.current?
  /-- The first keeps no list of a generation that is yet to come. -/
  dated : first.Dated
  /-- Nor does the second. -/
  dated' : second.Dated

namespace NoteIndex.ServesAs

variable {first second : NoteIndex}

/-- In a new generation neither serves anything. -/
theorem invalidate (h : first.ServesAs second) :
    first.invalidate.ServesAs second.invalidate := by
  have hnone : first.invalidate.current? = none := h.dated.current?_later Nat.one_pos
  have hnone' : second.invalidate.current? = none := h.dated'.current?_later Nat.one_pos
  exact ⟨hnone.trans hnone'.symm, h.dated.later 1, h.dated'.later 1⟩

/-- Two indexes that keep the same list at their generations serve the same. -/
theorem store (first second : NoteIndex) (notes : List Path) :
    (first.store first.generation notes).ServesAs (second.store second.generation notes) := by
  refine ⟨?_, dated_store (Nat.le_refl _) notes, dated_store (Nat.le_refl _) notes⟩
  by_cases hempty : notes = []
  · simp [hempty, NoteIndex.store, current?]
  · rw [current?_store first hempty, current?_store second hempty]

end NoteIndex.ServesAs

/-- How an operation can leave files and index: as they were, or with one file that it has created
or failed to create. Only a file that is created starts a new generation. -/
inductive Leaves (files : σ) (index : NoteIndex) : σ → NoteIndex → Prop where
  /-- Nothing is written. -/
  | untouched : Leaves files index files index
  /-- A file is created. -/
  | created {path : Path} {content : Text} {after : σ}
    (h : FileSystem.create files path content = (.ok (), after)) :
    Leaves files index after index.invalidate
  /-- A file cannot be created. -/
  | failed {path : Path} {content message : Text} {after : σ}
    (h : FileSystem.create files path content = (.error message, after)) :
    Leaves files index after index

namespace Leaves

/-- Writing a note creates one file at most. -/
theorem written (path : Path) (content : Text) (files : σ) (index : NoteIndex) :
    Leaves files index (written path content files index).files
      (written path content files index).index := by
  unfold Creation.written
  split
  · exact .untouched
  · rcases hmade : FileSystem.create files path content with ⟨_ | _, after⟩
    · exact .failed hmade
    · exact .created hmade

/-- A plan creates one file at most. -/
theorem outcome {α : Type} (plan : Plan α) (files : σ) (index : NoteIndex) :
    Leaves files index (plan.outcome files index).files (plan.outcome files index).index := by
  cases plan with
  | done result => exact .untouched
  | write path content result => exact written path content files index

variable {files after : σ} {index index' : NoteIndex}

/-- An operation keeps no list of a generation that is yet to come. -/
theorem dated (h : Leaves files index after index') (hdated : index.Dated) : index'.Dated := by
  cases h with
  | untouched => exact hdated
  | created _ => exact hdated.later 1
  | failed _ => exact hdated

/-- An operation keeps the list that is kept, even when that is not served any more. -/
theorem snapshot (h : Leaves files index after index') : index'.snapshot = index.snapshot := by
  cases h <;> rfl

/-- An operation starts a new generation or leaves the index as it is. -/
theorem index_cases (h : Leaves files index after index') :
    index' = index ∨ index' = index.invalidate := by
  cases h with
  | untouched => exact .inl rfl
  | created _ => exact .inr rfl
  | failed _ => exact .inl rfl

/-- A list that is served after an operation was served before it, and the files list the same
notes, provided that they do so when a file cannot be created. -/
theorem serves (h : Leaves files index after index') (hdated : index.Dated) (root : Path)
    (settings : IndexSettings)
    (hfailed : ∀ path content message after,
      FileSystem.create files path content = (.error message, after) →
        Discovery.listing after root settings = Discovery.listing files root settings)
    {notes : List Path} (hnotes : index'.current? = some notes) :
    index.current? = some notes ∧
      Discovery.listing after root settings = Discovery.listing files root settings := by
  cases h with
  | untouched => exact ⟨hnotes, rfl⟩
  | created _ =>
    have hnone : index.invalidate.current? = none := hdated.current?_later Nat.one_pos
    rw [hnone] at hnotes
    cases hnotes
  | failed hmade => exact ⟨hnotes, hfailed _ _ _ _ hmade⟩

end Leaves

/-- The kept list does not matter for what a plan leaves, as long as the same is served. -/
theorem Creation.Plan.servesAs_outcome {α : Type} (plan : Plan α) (files : σ)
    {index index' : NoteIndex} (h : index.ServesAs index') :
    (plan.outcome files index).index.ServesAs (plan.outcome files index').index := by
  cases plan with
  | done result => exact h
  | write path content result =>
    simp only [outcome, Outcome.map, Creation.written]
    split
    · exact h
    · rcases FileSystem.create files path content with ⟨_ | _, after⟩
      · exact h
      · exact h.invalidate

namespace Workspace

variable (workspace : Workspace) (settings : Settings) (files : σ) {index : NoteIndex}

/-- A request is about what an enumeration finds, if nothing else is served. -/
theorem noteList_of_fresh (h : index.Fresh workspace.root settings.index files) :
    workspace.noteList settings files index =
      Discovery.listing files workspace.root settings.index := by
  unfold noteList
  simp only
  split
  · cases hcurrent : index.current? with
    | none => rfl
    | some notes => exact h notes hcurrent
  · rfl

/-- A question keeps no list of a generation that is yet to come. -/
theorem dated_keptIndex (h : index.Dated) : (workspace.keptIndex settings files index).Dated := by
  unfold keptIndex
  split
  · exact NoteIndex.dated_store (Nat.le_refl _) _
  · exact h

/-- After a question, the list that is kept is the old one or a complete one of the current
generation. -/
theorem snapshot_keptIndex :
    (workspace.keptIndex settings files index).snapshot = index.snapshot ∨
      (workspace.keptIndex settings files index).snapshot =
        some ⟨index.generation, Discovery.listing files workspace.root settings.index⟩ := by
  unfold keptIndex
  split
  · exact .inr rfl
  · exact .inl rfl

/-- A list that is served after a question is complete or was served before it. -/
theorem serves_keptIndex {notes : List Path}
    (h : (workspace.keptIndex settings files index).current? = some notes) :
    index.current? = some notes ∨
      notes = Discovery.listing files workspace.root settings.index := by
  unfold keptIndex at h
  split at h
  · have hsnapshot := (NoteIndex.current?_eq_some_iff.mp h).1
    cases hsnapshot
    exact .inr rfl
  · exact .inl h

section

variable {index' : NoteIndex}

/-- A question is about the same notes when the same is served. -/
theorem noteList_of_servesAs (h : index.ServesAs index') :
    workspace.noteList settings files index = workspace.noteList settings files index' := by
  simp only [noteList, h.current]

/-- After a question the same is served again. -/
theorem servesAs_keptIndex (h : index.ServesAs index') :
    (workspace.keptIndex settings files index).ServesAs
      (workspace.keptIndex settings files index') := by
  simp only [keptIndex, h.current]
  split
  · exact .store index index' _
  · exact h

end

end Workspace

namespace Request

variable {S : Type} [Scale S] (workspace : Workspace) (settings : Settings) (request : Request)
  (files : σ) (index : NoteIndex)

/-- A request may ask for the notes, and then creates one file at most. -/
theorem leaves_outcome :
    ∃ start, (start = index ∨ start = workspace.keptIndex settings files index) ∧
      Leaves files start (request.outcome (S := S) workspace settings files index).files
        (request.outcome (S := S) workspace settings files index).index := by
  have hsame : Leaves files index files index := .untouched
  have hkept : Leaves files (workspace.keptIndex settings files index) files
    (workspace.keptIndex settings files index) := .untouched
  cases request with
  | notes => exact ⟨_, .inr rfl, hkept⟩
  | completions document text point =>
    simp only [outcome, Outcome.map, Workspace.completionsOutcome]
    cases Link.atPointOrOpen? text point with
    | none => exact ⟨_, .inl rfl, hsame⟩
    | some link => exact ⟨_, .inr rfl, hkept⟩
  | definitions document text point =>
    simp only [outcome, Outcome.map, Workspace.definitionsOutcome]
    cases Workspace.linkNaming? text point with
    | none => exact ⟨_, .inl rfl, hsame⟩
    | some link =>
      refine ⟨_, .inr rfl, ?_⟩
      simp only
      split
      · exact .outcome (Workspace.missingPlan link.text document settings) files _
      · exact hkept
  | references document text point =>
    simp only [outcome, Outcome.map, Workspace.referencesOutcome]
    cases Workspace.linkNaming? text point with
    | none => exact ⟨_, .inl rfl, hsame⟩
    | some link => exact ⟨_, .inr rfl, hkept⟩
  | missingNote raw document =>
    exact ⟨_, .inl rfl, .outcome (Workspace.missingPlan raw document settings) files index⟩
  | newNote title active now =>
    exact ⟨_, .inl rfl, .outcome (workspace.newNotePlan title active settings now) files index⟩

/-- So it does when it is cancelled. -/
theorem leaves_run (session : Session σ) :
    let after := ((request.perform (S := S) workspace settings).run session).2
    ∃ start, (start = session.index ∨
        start = workspace.keptIndex settings session.files session.index) ∧
      Leaves session.files start after.files after.index := by
  intro after
  obtain ⟨reply, last, hrun, -, hcases⟩ :=
    request.comesTo_perform (S := S) workspace settings session
  have hafter : after = last := congrArg Prod.snd hrun
  rw [hafter]
  rcases hcases with ⟨-, hfiles, hindex⟩ | ⟨-, -, hfiles, hindex⟩
  · rw [hfiles, hindex]
    exact request.leaves_outcome workspace settings session.files session.index
  · rw [hfiles]
    exact ⟨last.index, hindex, .untouched⟩

/-- A request keeps no list of a generation that is yet to come. -/
theorem dated_run {session : Session σ} (h : session.index.Dated) :
    ((request.perform (S := S) workspace settings).run session).2.index.Dated := by
  obtain ⟨start, hstart, hleaves⟩ := leaves_run (S := S) workspace settings request session
  refine hleaves.dated ?_
  rcases hstart with rfl | rfl
  · exact h
  · exact workspace.dated_keptIndex settings session.files h

/-- After a request, the list that is kept is the old one or a complete one. -/
theorem snapshot_run (session : Session σ) :
    let after := ((request.perform (S := S) workspace settings).run session).2
    after.index.snapshot = session.index.snapshot ∨
      after.index.snapshot = some ⟨session.index.generation,
        Discovery.listing session.files workspace.root settings.index⟩ := by
  intro after
  obtain ⟨start, hstart, hleaves⟩ := leaves_run (S := S) workspace settings request session
  rw [hleaves.snapshot]
  rcases hstart with rfl | rfl
  · exact .inl rfl
  · exact workspace.snapshot_keptIndex settings session.files

/-- A list that is served after a request is what an enumeration finds then, unless it was already
served before the request and was wrong then. -/
theorem serves_run {session : Session σ} (hdated : session.index.Dated)
    (hfailed : ∀ path content message after,
      FileSystem.create session.files path content = (.error message, after) →
        Discovery.listing after workspace.root settings.index =
          Discovery.listing session.files workspace.root settings.index) :
    let after := ((request.perform (S := S) workspace settings).run session).2
    ∀ notes, after.index.current? = some notes →
      notes = Discovery.listing after.files workspace.root settings.index ∨
        session.index.current? = some notes ∧
          notes ≠ Discovery.listing session.files workspace.root settings.index := by
  intro after notes hnotes
  obtain ⟨start, hstart, hleaves⟩ := leaves_run (S := S) workspace settings request session
  have hdated' : start.Dated := by
    rcases hstart with rfl | rfl
    · exact hdated
    · exact workspace.dated_keptIndex settings session.files hdated
  obtain ⟨hserved, hlisting⟩ :=
    hleaves.serves hdated' workspace.root settings.index hfailed hnotes
  have hbefore : session.index.current? = some notes ∨
      notes = Discovery.listing session.files workspace.root settings.index := by
    rcases hstart with rfl | rfl
    · exact .inl hserved
    · exact workspace.serves_keptIndex settings session.files hserved
  by_cases hcomplete : notes = Discovery.listing session.files workspace.root settings.index
  · exact .inl (hcomplete.trans hlisting.symm)
  · exact .inr ⟨hbefore.resolve_right hcomplete, hcomplete⟩

/-- After a request the same is served again, if the same was served before it. -/
theorem servesAs_outcome {index index' : NoteIndex} (h : index.ServesAs index') :
    (request.outcome (S := S) workspace settings files index).index.ServesAs
      (request.outcome (S := S) workspace settings files index').index := by
  have hkept := workspace.servesAs_keptIndex settings files h
  have hnotes := workspace.noteList_of_servesAs settings files h
  cases request with
  | notes => exact hkept
  | completions document text point =>
    simp only [outcome, Outcome.map, Workspace.completionsOutcome]
    cases Link.atPointOrOpen? text point with
    | none => exact h
    | some link => exact hkept
  | definitions document text point =>
    simp only [outcome, Outcome.map, Workspace.definitionsOutcome, hnotes]
    cases Workspace.linkNaming? text point with
    | none => exact h
    | some link =>
      simp only
      split
      · exact (Workspace.missingPlan link.text document settings).servesAs_outcome files hkept
      · exact hkept
  | references document text point =>
    simp only [outcome, Outcome.map, Workspace.referencesOutcome]
    cases Workspace.linkNaming? text point with
    | none => exact h
    | some link => exact hkept
  | missingNote raw document =>
    exact (Workspace.missingPlan raw document settings).servesAs_outcome files h
  | newNote title active now =>
    exact (workspace.newNotePlan title active settings now).servesAs_outcome files h

/-- A request that nobody cancels leaves the same files, and the same is served after it, if the
same was served before it. -/
theorem servesAs_run {first second : Session σ} (hfiles : first.files = second.files)
    (h : first.index.ServesAs second.index) (hquiet : first.token.Quiet)
    (hquiet' : second.token.Quiet) :
    let after := ((request.perform (S := S) workspace settings).run first).2
    let after' := ((request.perform (S := S) workspace settings).run second).2
    after.files = after'.files ∧ after.index.ServesAs after'.index := by
  intro after after'
  obtain ⟨-, hends, hindex⟩ :=
    (request.comesTo_perform (S := S) workspace settings first).ends hquiet
  obtain ⟨-, hends', hindex'⟩ :=
    (request.comesTo_perform (S := S) workspace settings second).ends hquiet'
  have hagrees := request.agrees_outcome (S := S) workspace settings first.files
    (workspace.noteList_of_servesAs settings first.files h)
  have hserves := request.servesAs_outcome (S := S) workspace settings first.files h
  rw [← hfiles] at hends' hindex'
  refine ⟨(hends.trans hagrees.files).trans hends'.symm, ?_⟩
  rw [← hindex, ← hindex'] at hserves
  exact hserves

/-- After a request no list is served that some settings would not find, if none was served before
it and none is by keeping the list that the request would keep. -/
theorem fresh_run {session : Session σ} {root : Path} {other : IndexSettings}
    (hdated : session.index.Dated) (hfresh : session.index.Fresh root other session.files)
    (hkept : (workspace.keptIndex settings session.files session.index).Fresh root other
      session.files) :
    ((request.perform (S := S) workspace settings).run session).2.index.Fresh root other
      session.files := by
  obtain ⟨start, hstart, hleaves⟩ := leaves_run (S := S) workspace settings request session
  have hstart' : start.Dated ∧ start.Fresh root other session.files := by
    rcases hstart with rfl | rfl
    · exact ⟨hdated, hfresh⟩
    · exact ⟨workspace.dated_keptIndex settings session.files hdated, hkept⟩
  rcases hleaves.index_cases with hindex | hindex
  · rw [hindex]
    exact hstart'.2
  · rw [hindex]
    exact NoteIndex.fresh_of_current?_eq_none (hstart'.1.current?_later Nat.one_pos) _ _ _

end Request
end LinkedNotes
