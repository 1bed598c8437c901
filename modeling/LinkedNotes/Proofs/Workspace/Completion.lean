import LinkedNotes.Files.Memory
import LinkedNotes.Proofs.Link.Cursor
import LinkedNotes.Proofs.Match.Label
import LinkedNotes.Proofs.Note.Slug
import LinkedNotes.Proofs.Workspace.Notes

/-!
# From a completion to its note

A candidate of a completion is written into its link, and the editor asks where the link leads.
Main statement: it leads to the note of the candidate exactly if the label of the note is not blank
and has no extension of its own, apart from notes at or above the root. The files, the settings and
the list of notes stay the same in between.
-/

namespace LinkedNotes

namespace Ranker

variable {S : Type} [Scale S]

/-- A candidate is one of the notes, with its label. -/
theorem of_mem_rank {ranker : Ranker} {query : Text} {notes : List Path} {c : Candidate S}
    (h : c ∈ ranker.rank query notes) : c.path ∈ notes ∧ c.label = ranker.label c.path := by
  simp only [rank, rankBy] at h
  split at h
  · simp only [listAll, List.mem_map, List.mem_mergeSort] at h
    obtain ⟨_, ⟨note, hnote, rfl⟩, rfl⟩ := h
    exact ⟨hnote, rfl⟩
  · rw [List.mem_mergeSort, List.mem_filterMap] at h
    obtain ⟨note, hnote, hscore⟩ := h
    obtain ⟨score, -, rfl⟩ := Option.map_eq_some_iff.mp hscore
    exact ⟨hnote, rfl⟩

end Ranker

namespace Workspace

open LinkedNotes.Action Note Text

variable {σ : Type} [FileSystem σ] {workspace : Workspace} {settings : Settings}
  {document : Path} {text : Text} {point : Point}

/-- Where a candidate of a completion comes from: the link at the point, and the notes that the next
question is about as well. -/
theorem of_mem_completionsFor {S : Type} [Scale S] {session : Session σ} {c : Candidate S}
    (h : c ∈ ((workspace.completionsFor document text point settings).run session).1.candidates) :
    ((workspace.completionsFor (S := S) document text point settings).run session).1.link =
        Link.atPointOrOpen? text point ∧
      c.label = ((workspace.matcher settings).rankerIn document).label c.path ∧
      c.path ∈ workspace.noteList settings session.files
        ((workspace.completionsFor (S := S) document text point settings).run session).2.index := by
  obtain ⟨found, after, hrun, -, -, -, hfound⟩ := workspace.exists_notes_run settings session
  unfold completionsFor at h ⊢
  cases hlink : Link.atPointOrOpen? text point with
  | none =>
    rw [hlink] at h
    exact absurd h List.not_mem_nil
  | some link =>
    rw [hlink] at h
    have hcancelled : (cancelled : Action σ Bool).run after = (after.token.cancelled, after) := rfl
    simp only at h ⊢
    rw [run_bind_of_eq hrun, run_bind_of_eq hcancelled] at h ⊢
    cases hc : after.token.cancelled with
    | true =>
      simp only [hc, if_true] at h
      exact absurd h List.not_mem_nil
    | false =>
      simp only [hc, Bool.false_eq_true, if_false] at h ⊢
      obtain ⟨hmem, hlabel⟩ := Ranker.of_mem_rank h
      refine ⟨rfl, hlabel, ?_⟩
      rcases hfound with ⟨rfl, hindex⟩ | ⟨rfl, -⟩
      · change c.path ∈ workspace.noteList settings session.files after.index
        rwa [hindex, noteList_keptIndex]
      · exact absurd hmem List.not_mem_nil

/-- A completion leaves the files alone. -/
theorem files_completionsFor {S : Type} [Scale S] (session : Session σ) :
    ((workspace.completionsFor (S := S) document text point settings).run session).2.files =
      session.files := by
  obtain ⟨found, after, hrun, hfiles, -, -⟩ := workspace.exists_notes_run settings session
  unfold completionsFor
  cases Link.atPointOrOpen? text point with
  | none => rfl
  | some link =>
    have hcancelled : (cancelled : Action σ Bool).run after = (after.token.cancelled, after) := rfl
    simp only
    rw [run_bind_of_eq hrun, run_bind_of_eq hcancelled, ← hfiles]
    split <;> rfl

/-- Whether an answer leads to a note, however its path is spelled. -/
def LeadsTo (answer : Except NoteError (List Path)) (note : Path) : Prop :=
  ∃ found, answer = .ok found ∧ ∃ path ∈ found, path.same note = true

/-- A link that names nothing leads nowhere. -/
theorem not_leadsTo_of_none (h : linkNaming? text point = none) (session : Session σ)
    (note : Path) :
    ¬LeadsTo ((workspace.definitionsFor document text point settings).run session).1 note := by
  have hanswer : ((workspace.definitionsFor document text point settings).run session).1 =
      .ok [] := by
    simp only [definitionsFor, h]
    rfl
  rintro ⟨found, hfound, path, hpath, -⟩
  rw [hanswer, Except.ok.injEq] at hfound
  rw [← hfound] at hpath
  exact absurd hpath List.not_mem_nil

/-- A link leads to the documents that its text names, and to a note that may be created only where
there are none. -/
theorem definitionsFor_run {link : Link} {session : Session σ}
    (hlink : linkNaming? text point = some link) (hquiet : session.token.Quiet) :
    let found := (workspace.matcher settings).documentsOf (FileSystem.isFile session.files)
      (workspace.noteList settings session.files session.index) link.text document
    let answer := ((workspace.definitionsFor document text point settings).run session).1
    found ≠ [] ∧ answer = .ok found ∨
      found = [] ∧ ∃ after : Session σ,
        answer = ((createMissingNote link.text document settings).run after).1.map
          Option.toList := by
  obtain ⟨after, hrun, hfiles, hafter⟩ := workspace.exists_notes_run_of_quiet settings hquiet
  obtain ⟨checked, hchecked, hfollows⟩ := answers_cancelled_of_quiet hafter
  obtain ⟨last, hlast, -⟩ := answers_documents (workspace.matcher settings) link.text document
    (workspace.noteList settings session.files session.index) checked
  rw [hfollows.files, hfiles] at hlast
  simp only [definitionsFor, hlink]
  rw [run_bind_of_eq hrun, run_bind_of_eq hchecked]
  simp only [Bool.false_eq_true, if_false]
  rw [run_bind_of_eq hlast]
  cases (workspace.matcher settings).documentsOf (FileSystem.isFile session.files)
      (workspace.noteList settings session.files session.index) link.text document with
  | cons path more => exact .inl ⟨List.cons_ne_nil path more, rfl⟩
  | nil => exact .inr ⟨rfl, last, rfl⟩

/-- A link leads to the notes that its text names. -/
theorem leadsTo_definitionsFor {link : Link} {session : Session σ} {path note : Path}
    (hlink : linkNaming? text point = some link) (hquiet : session.token.Quiet)
    (hpath : path ∈ (workspace.matcher settings).documentsOf (FileSystem.isFile session.files)
      (workspace.noteList settings session.files session.index) link.text document)
    (hsame : path.same note = true) :
    LeadsTo ((workspace.definitionsFor document text point settings).run session).1 note := by
  rcases definitionsFor_run hlink hquiet with ⟨-, hanswer⟩ | ⟨hnil, -⟩
  · exact ⟨_, hanswer, path, hpath, hsame⟩
  · rw [hnil] at hpath
    exact absurd hpath List.not_mem_nil

/-- A link leads to a note that its text names, or to one that is created for it. -/
theorem of_leadsTo_definitionsFor {link : Link} {session : Session σ} {note : Path}
    (hlink : linkNaming? text point = some link) (hquiet : session.token.Quiet)
    (h : LeadsTo ((workspace.definitionsFor document text point settings).run session).1 note) :
    ∃ path, path.same note = true ∧
      (path ∈ (workspace.matcher settings).documentsOf (FileSystem.isFile session.files)
          (workspace.noteList settings session.files session.index) link.text document ∨
        ∃ after : Session σ,
          ((createMissingNote link.text document settings).run after).1 = .ok (some path)) := by
  obtain ⟨found, hfound, path, hpath, hsame⟩ := h
  refine ⟨path, hsame, ?_⟩
  rcases definitionsFor_run hlink hquiet with ⟨-, hanswer⟩ | ⟨-, after, hanswer⟩
  · left
    rwa [Except.ok.inj (hanswer.symm.trans hfound)]
  · right
    refine ⟨after, ?_⟩
    have hmade := hanswer.symm.trans hfound
    cases hcreated : ((createMissingNote link.text document settings).run after).1 with
    | error _ =>
      rw [hcreated] at hmade
      cases hmade
    | ok created =>
      rw [hcreated] at hmade
      rw [← Except.ok.inj hmade, Option.mem_toList] at hpath
      rw [Option.mem_def.mp hpath]

/-- A note is only created under unique names, with one file name. -/
theorem of_createMissingNote {raw : Text} {session : Session σ} {path : Path}
    (h : ((createMissingNote raw document settings).run session).1 = .ok (some path)) :
    settings.convention = .uniqueNames ∧
      path.fileName? = some (Note.fileNameOf (missingTitle raw)) := by
  unfold createMissingNote at h
  by_cases hcreate : settings.createMissing = true
  · by_cases hconv : settings.convention = .uniqueNames
    · refine ⟨hconv, ?_⟩
      simp only [hcreate, hconv, Bool.not_true, Bool.false_eq_true, if_false, ne_eq,
        not_true_eq_false] at h
      split at h
      · cases h
      · cases hdir : document.parent? with
        | none =>
          rw [hdir] at h
          cases h
        | some dir =>
          rw [hdir] at h
          simp only at h
          rcases hrun : (Creation.writeIfAbsent (dir.join ⟨Note.fileNameOf (missingTitle raw)⟩)
            (missingContent (missingTitle raw)) : Action σ _).run session with ⟨written, after⟩
          rw [run_bind_of_eq hrun] at h
          cases written with
          | error _ => cases h
          | ok _ =>
            cases h
            exact fileName?_join_fileNameOf dir (missingTitle raw)
    · simp only [hcreate, hconv, Bool.not_true, Bool.false_eq_true, if_false, ne_eq,
        not_false_eq_true, if_true] at h
      cases h
  · simp only [hcreate, Bool.not_false, if_true] at h
    cases h

/-- The note that is created for a label is not the note with this label, if the label has an
extension of its own. -/
theorem stripExtension_label_of_created {session : Session σ} {note path : Path}
    (h : ((createMissingNote (((workspace.matcher settings).rankerIn document).label note)
      document settings).run session).1 = .ok (some path)) (hsame : path.same note = true) :
    stripExtension (((workspace.matcher settings).rankerIn document).label note) =
      ((workspace.matcher settings).rankerIn document).label note := by
  obtain ⟨hconv, hname⟩ := of_createMissingNote h
  have hnote : note.fileName? = path.fileName? := by
    simp only [Path.fileName?, Path.same_iff.mp hsame]
  have hmatcher : (workspace.matcher settings).convention = .uniqueNames := hconv
  have hlabel := Matcher.label_of_uniqueNames hmatcher document note
  rw [hnote, hname, Option.getD_some] at hlabel
  by_contra hne
  -- The file name would need a dot for each of the two extensions.
  have houter := count_dot_stripExtension_lt hne
  rw [hlabel] at hne houter
  have hinner := count_dot_stripExtension_lt (stripExtension_ne_of_twice hne)
  rw [count_dot_fileNameOf] at hinner
  omega

/-- After a candidate is written into its link, the link leads to the note of the candidate if the
label is not blank and has no extension of its own. It leads there in no other case, unless the note
lies at or above the root and links are relative paths. -/
theorem definitionsFor_of_completion {S : Type} [Scale S] {before later : Session σ} {link : Link}
    {c : Candidate S} (hlink : Link.closedAt? text point = some link)
    (hc : c ∈ ((workspace.completionsFor document text point settings).run before).1.candidates)
    (hclose : ']' ∉ c.label) (hfeed : '\n' ∉ c.label) (hfiles : later.files = before.files)
    (hindex : later.index =
      ((workspace.completionsFor (S := S) document text point settings).run before).2.index)
    (hquiet : later.token.Quiet) :
    let completed :=
      ((workspace.completionsFor (S := S) document text point settings).run before).1
    let edited := (ContentChange.apply text ⟨some link.range, c.label⟩).1
    let answer :=
      ((workspace.definitionsFor document edited link.range.start settings).run later).1
    completed.link = some link ∧
      (trim c.label ≠ [] → stripExtension c.label = c.label → LeadsTo answer c.path) ∧
      (LeadsTo answer c.path → trim c.label ≠ [] ∧ (stripExtension c.label = c.label ∨
        settings.convention = .relativePaths ∧
          Path.atOrAbove c.path workspace.root = true)) := by
  intro completed edited answer
  obtain ⟨hcompleted, hlabel, hmem⟩ := of_mem_completionsFor hc
  rw [← hindex, ← hfiles] at hmem
  obtain ⟨range, hpoint⟩ := Link.atPoint?_apply_of_closedAt? hlink hclose hfeed
  refine ⟨hcompleted.trans (Link.atPointOrOpen?_of_closedAt? hlink), ?_⟩
  by_cases hblank : trim c.label = []
  · have hnone : linkNaming? edited link.range.start = none := by
      simp [linkNaming?, edited, hpoint, hblank]
    exact ⟨fun h => absurd hblank h, fun h => absurd h (not_leadsTo_of_none hnone later c.path)⟩
  · have hsome : linkNaming? edited link.range.start = some ⟨c.label, range⟩ := by
      simp [linkNaming?, edited, hpoint, hblank]
    refine ⟨fun _ hstrip => ?_, fun h => ⟨hblank, ?_⟩⟩
    · rw [hlabel] at hblank hstrip
      obtain ⟨path, hpath, hsame⟩ := Matcher.exists_same_mem_documentsOf_label
        (FileSystem.isFile later.files) hmem hblank hstrip
      rw [← hlabel] at hpath
      exact leadsTo_definitionsFor hsome hquiet hpath hsame
    · obtain ⟨path, hsame, hfound⟩ := of_leadsTo_definitionsFor hsome hquiet h
      simp only [hlabel] at hfound ⊢
      rcases hfound with hpath | ⟨after, hcreated⟩
      · exact (Matcher.of_same_mem_documentsOf_label hpath hsame).2
      · exact .inl (stripExtension_label_of_created hcreated hsame)

/-- The only note is offered between the empty brackets of a new document, and its label leads to
it. -/
theorem definitionsFor_of_completion_between_brackets :
    let workspace : Workspace := ⟨⟨"/ws".toList⟩⟩
    let document : Path := ⟨"/ws/x.md".toList⟩
    let text : Text := "see [[]]".toList
    let session : Session MemoryFiles :=
      { files := { files := [(⟨"/ws/sub/note.md".toList⟩, some [])] } }
    let completed := (workspace.completionsFor (S := Rat) document text ⟨0, 6⟩ {}).run session
    let later : Session MemoryFiles := { completed.2 with token := {} }
    let edited := (ContentChange.apply text ⟨some (.onLine 0 6 6), "note".toList⟩).1
    LeadsTo ((workspace.definitionsFor document edited ⟨0, 6⟩ {}).run later).1
      ⟨"/ws/sub/note.md".toList⟩ := by
  intro workspace document text session completed later edited
  have hcandidates : completed.1.candidates.map (fun c => (c.path, c.label)) =
      [(⟨"/ws/sub/note.md".toList⟩, "note".toList)] := by decide +kernel
  obtain ⟨c, hc, heq⟩ := List.mem_map.mp (hcandidates ▸ List.mem_singleton_self _)
  obtain ⟨hpath, hlabel⟩ := Prod.ext_iff.mp heq
  simp only at hpath hlabel
  have hlink : Link.closedAt? text ⟨0, 6⟩ = some ⟨[], .onLine 0 6 6⟩ := by decide +kernel
  have hfiles : later.files = session.files := files_completionsFor session
  have hquiet : later.token.Quiet := Token.quiet_new
  have hlinked := definitionsFor_of_completion hlink hc (by rw [hlabel]; decide)
    (by rw [hlabel]; decide) hfiles rfl hquiet
  rw [hpath, hlabel] at hlinked
  exact hlinked.2.1 (by decide) (by decide)

/-- A root that is a note itself is offered by a label with an extension, and that leads to it. -/
theorem definitionsFor_of_completion_above_root :
    let workspace : Workspace := ⟨⟨"/ws/.md.md".toList⟩⟩
    let settings : Settings := { convention := .relativePaths, createMissing := false }
    let document : Path := ⟨"/ws/x.md".toList⟩
    let text : Text := "[[]]".toList
    let session : Session MemoryFiles :=
      { files := { files := [(workspace.root, some []), (document, some text)] } }
    let completed :=
      (workspace.completionsFor (S := Rat) document text ⟨0, 2⟩ settings).run session
    let later : Session MemoryFiles := { completed.2 with token := {} }
    let edited := (ContentChange.apply text ⟨some (.onLine 0 2 2), ".md".toList⟩).1
    completed.1.candidates.map (fun c => (c.path, c.label)) = [(workspace.root, ".md".toList)] ∧
      stripExtension ".md".toList ≠ ".md".toList ∧
      LeadsTo ((workspace.definitionsFor document edited ⟨0, 2⟩ settings).run later).1
        workspace.root := by
  intro workspace settings document text session completed later edited
  refine ⟨by decide +kernel, by decide +kernel, [workspace.root], by decide +kernel, ?_⟩
  exact ⟨workspace.root, List.mem_singleton_self _, by decide +kernel⟩

end Workspace
end LinkedNotes
