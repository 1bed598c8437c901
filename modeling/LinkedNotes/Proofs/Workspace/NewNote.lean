import LinkedNotes.Proofs.Note.Template
import LinkedNotes.Proofs.Workspace.Definition

/-!
# Following the link to a new note

A note that is made from a title gets its file name from the template of file names, while the link
to it goes through the normal form of its name, its literal path and the file name of a missing
note. Main statement: the link to a new note has an answer that creates no file, and it leads to the
note unless other files take its name. Settings that change the templates, and names that end with a
note extension, are outside this module.
-/

namespace LinkedNotes

variable {σ : Type} [FileSystem σ]

/-- Whether a path is among some others, however spelled. -/
def Path.IsAmong (path : Path) (paths : List Path) : Prop :=
  ∃ other ∈ paths, other.same path = true

namespace Link

open Text

/-- A token that fills a line is at each of its columns. -/
theorem at?_filled {text : Text} (hne : text ≠ []) (htext : ']' ∉ text) (row : Nat) {col : Nat}
    (hcol : col ≤ width (opening ++ text ++ closing)) :
    at? (opening ++ text ++ closing) row col = some ⟨text, .onLine row 2 (2 + width text)⟩ := by
  have hstart : textAtStart? (opening ++ text ++ closing) = some text :=
    textAtStart?_eq_some_iff.mpr ⟨hne, htext, [], by simp⟩
  have htokens : tokens (opening ++ text ++ closing) = ⟨0, text⟩ ::
      tokensFrom (text.length + 3) (0 + units '[') ('[' :: (text ++ closing)) :=
    tokensFrom_of_some hstart 0
  have hwidth : width (opening ++ text ++ closing) = (⟨0, text⟩ : Token).endCol := by
    rw [width_append, width_append]
    exact congrArg (· + width text + 2) (Nat.zero_add 2).symm
  have hinside : (decide (0 ≤ col) && decide (col ≤ (⟨0, text⟩ : Token).endCol)) = true := by
    simpa using hwidth ▸ hcol
  have hend : (⟨0, text⟩ : Token).endCol - 2 = 2 + width text := by simp [Token.endCol]
  rw [at?, containing?, htokens, List.find?_cons, hinside]
  simp only [Option.map_some, Option.some_or, hend, Nat.zero_add]

end Link

namespace Creation

/-- A note that was to be written is there, if this did not fail. -/
theorem Plan.of_perform_write_eq_ok {α : Type} {path : Path} {content : Text} {result : Bool → α}
    {session : Session σ} {value : α}
    (h : ((Plan.write path content result).perform.run session).1 = .ok value) :
    (∃ created, value = result created) ∧ (FileSystem.ShowsCreated session.files →
      FileSystem.isFile ((Plan.write path content result).perform.run session).2.files path =
        true) := by
  obtain ⟨answer, after, hrun, -, ⟨hanswer, hfiles, -⟩ | ⟨-, hvoid, -⟩⟩ :=
    (Plan.write path content result).comesTo_perform session session.index
  · rw [hrun] at h ⊢
    obtain rfl : answer = .ok value := h
    simp only [hfiles, outcome, written, Outcome.map] at hanswer ⊢
    cases hpresent : FileSystem.isFile session.files path with
    | true =>
      rw [hpresent, if_pos rfl] at hanswer
      exact ⟨⟨false, Except.ok.inj hanswer⟩, fun _ => by rwa [if_pos rfl]⟩
    | false =>
      rw [hpresent, if_neg Bool.false_ne_true] at hanswer
      rw [if_neg Bool.false_ne_true]
      rcases hmade : FileSystem.create session.files path content with ⟨message | _, files⟩
      · rw [hmade] at hanswer
        cases hanswer
      · rw [hmade] at hanswer
        exact ⟨⟨true, Except.ok.inj hanswer⟩, fun hshown => hshown path content files hmade⟩
  · rw [hrun] at h
    cases hvoid.symm.trans h

end Creation

namespace Workspace

open Creation Note Template Text

variable {workspace : Workspace} {settings : Settings} {document dir path : Path}
  {text name : Text} {point : Point} {link : Link} {files : σ} {index : NoteIndex}

/-- A link that fills a line is the link at each of its columns. -/
theorem linkNaming?_filled (hline : lineAt? text point.line =
      some (Link.opening ++ name ++ Link.closing)) (hname : trim name ≠ []) (hclose : ']' ∉ name)
    (hcol : point.col ≤ width (Link.opening ++ name ++ Link.closing)) :
    linkNaming? text point = some ⟨name, .onLine point.line 2 (2 + width name)⟩ := by
  have hne : name ≠ [] := fun h => hname (by rw [h]; rfl)
  have hpoint : Link.atPoint? text point = some ⟨name, .onLine point.line 2 (2 + width name)⟩ := by
    rw [Link.atPoint?, hline]
    exact Link.at?_filled hne hclose point.line hcol
  rw [linkNaming?, hpoint, Option.filter_some, if_pos (decide_eq_true hname)]

/-- The known notes of some files whose file names have the normal form of a name. -/
def namesakes (workspace : Workspace) (settings : Settings) (name : Text) (files : σ) :
    List Path :=
  (Discovery.listing files workspace.root settings.index).filter (basenameMatches · name)

/-- Where a link leads from a directory under unique names, if the note that it asks for is at a
path: to the notes of its name, else to its literal path, else to this note. -/
def targetsFor (workspace : Workspace) (settings : Settings) (dir : Path) (name : Text) (files : σ)
    (path : Path) : List Path :=
  let literal := (dir.join ⟨trim name⟩).clean
  if workspace.namesakes settings name files ≠ [] then workspace.namesakes settings name files
  else if FileSystem.isFile files literal = true then [literal]
  else [path]

/-- A path is one of these targets if it has the name itself, or nothing else takes the name. -/
theorem isAmong_targetsFor :
    path.IsAmong (workspace.targetsFor settings dir name files path) ↔
      path.IsAmong (workspace.namesakes settings name files) ∨
        workspace.namesakes settings name files = [] ∧
          (FileSystem.isFile files (dir.join ⟨trim name⟩).clean = true →
            (dir.join ⟨trim name⟩).clean.same path = true) := by
  unfold targetsFor
  by_cases hknown : workspace.namesakes settings name files = []
  · have hnone : ¬path.IsAmong [] := fun ⟨_, hmem, _⟩ => List.not_mem_nil hmem
    simp only [hknown, ne_eq, not_true_eq_false, if_false, hnone, false_or, true_and]
    split
    · next hliteral => simp [Path.IsAmong, hliteral]
    · next hliteral => simp [Path.IsAmong, hliteral, path.same_self]
  · simp [hknown]

/-- Going to the target of a link whose note is there creates nothing. -/
theorem definitionsOutcome_of_present (hlink : linkNaming? text point = some link)
    (hconvention : settings.convention = .uniqueNames) (hcreate : settings.createMissing = true)
    (hdir : document.parent? = some dir) (hslug : slug (missingTitle link.text) true ≠ [])
    (hfresh : workspace.noteList settings files index =
      Discovery.listing files workspace.root settings.index)
    (hpresent : FileSystem.isFile files (dir.join ⟨fileNameOf (missingTitle link.text)⟩) = true) :
    workspace.definitionsOutcome settings document text point files index =
      ⟨.ok (workspace.targetsFor settings dir link.text files
          (dir.join ⟨fileNameOf (missingTitle link.text)⟩)),
        files, workspace.keptIndex settings files index⟩ := by
  have hblank := (of_linkNaming? hlink).1
  have hliteral : Matcher.literalPath? link.text (some document) =
      some (dir.join ⟨trim link.text⟩).clean := by
    simp [Matcher.literalPath?, hdir]
  have hfound : workspace.foundFor settings document link files index =
      if workspace.namesakes settings link.text files = [] then
        Matcher.literalIn (FileSystem.isFile files) link.text document
      else workspace.namesakes settings link.text files := by
    rw [foundFor, Matcher.documentsOf_eq, if_neg hblank, hfresh,
      Matcher.knownNotes_of_uniqueNames hconvention, namesakes]
    split
    · next hnone => rw [if_pos hnone]
    · next hsome => rw [if_neg (by simpa using hsome)]
  by_cases hknown : workspace.namesakes settings link.text files = []
  · rw [if_pos hknown, Matcher.literalIn, hliteral, Option.toList_some] at hfound
    cases hfile : FileSystem.isFile files (dir.join ⟨trim link.text⟩).clean with
    | true =>
      rw [List.filter_cons_of_pos hfile, List.filter_nil] at hfound
      rw [definitionsOutcome_of_found hlink hfound (List.cons_ne_nil _ _)]
      simp [targetsFor, hknown, hfile]
    | false =>
      rw [List.filter_cons_of_neg (by simp [hfile]), List.filter_nil] at hfound
      have hplan : missingPlan link.text document settings =
          .write (dir.join ⟨fileNameOf (missingTitle link.text)⟩)
            (missingContent (missingTitle link.text))
            fun _ => some (dir.join ⟨fileNameOf (missingTitle link.text)⟩) := by
        simp [missingPlan, hcreate, hconvention, hslug, hdir]
      rw [definitionsOutcome_of_dangling hlink hfound, hplan]
      simp only [Plan.outcome, written, hpresent, if_true, Outcome.map]
      simp [targetsFor, hknown, hfile]
      rfl
  · rw [if_neg hknown] at hfound
    rw [definitionsOutcome_of_found hlink hfound hknown]
    simp [targetsFor, hknown]

/-- What a title comes to by the usual settings of new notes. -/
theorem newNotePlan_usual {title : Text} {now : Moment} (hsettings : settings.newNote = {})
    (hdir : document.parent? = some dir) :
    workspace.newNotePlan title (some document) settings now =
      if trim title = [] ∨ slug (nameOf title now) true = [] then
        .done (.error (.emptyTitle (trim title)))
      else
        .write (dir.join ⟨fileNameOf (nameOf title now)⟩)
          (render ({} : NewNoteSettings).contentTemplate (trim title)
            (Stamp.format now ({} : NewNoteSettings).stampFormat))
          fun created => ⟨dir.join ⟨fileNameOf (nameOf title now)⟩, created,
            Link.opening ++ nameOf title now ++ Link.closing⟩ := by
  have hplace : settings.newNote.directory.resolve workspace.root (some document) = dir := by
    rw [hsettings]
    simp [NoteDirectory.resolve, hdir]
  have hstem : slug (render ({} : NewNoteSettings).filenameTemplate (trim title)
      (Stamp.format now ({} : NewNoteSettings).stampFormat))
      ({} : NewNoteSettings).lowercaseFilename = slug (nameOf title now) true := rfl
  unfold newNotePlan
  rw [hplace, hsettings]
  dsimp only
  rw [hstem, render_link]
  rfl

/-- A new note that is made by the usual settings, or is there already, has the slug of its name as
the stem of its file, and its link has its name. -/
theorem of_newNote_eq_ok {title : Text} {now : Moment} {session : Session σ} {note : NewNote}
    (hsettings : settings.newNote = {}) (hdir : document.parent? = some dir)
    (h : ((workspace.newNote title (some document) settings now).run session).1 = .ok note) :
    slug (nameOf title now) true ≠ [] ∧
      note.path = dir.join ⟨fileNameOf (nameOf title now)⟩ ∧
      note.linkText = Link.opening ++ nameOf title now ++ Link.closing ∧
      (FileSystem.ShowsCreated session.files → FileSystem.isFile
        ((workspace.newNote title (some document) settings now).run session).2.files note.path =
          true) := by
  rw [newNote_eq, newNotePlan_usual hsettings hdir] at h ⊢
  split at h
  · cases h
  · next hnamed =>
    rw [if_neg hnamed]
    obtain ⟨⟨created, rfl⟩, hshown⟩ := Plan.of_perform_write_eq_ok h
    exact ⟨fun hslug => hnamed (.inr hslug), rfl, rfl, hshown⟩

/-- Going to the target of the link to a new note, on a line of its own, creates no file. The note
is among the targets exactly if it is known under its name, or no known note has the name and no
other file is at the literal path. This is for the usual settings of new notes under unique names,
a name that does not end with a note extension, and a list of notes that is not out of date. -/
theorem definitionsFor_newNote (workspace : Workspace) {settings : Settings} {title text : Text}
    {document dir : Path} {now : Moment} {session later : Session σ} {note : NewNote}
    {point : Point} (hsettings : settings.newNote = {})
    (hconvention : settings.convention = .uniqueNames) (hcreate : settings.createMissing = true)
    (hdir : document.parent? = some dir) (hclose : ']' ∉ title)
    (hextension : stripExtension (nameOf title now) = nameOf title now)
    (hshown : FileSystem.ShowsCreated session.files)
    (hnote : ((workspace.newNote title (some document) settings now).run session).1 = .ok note)
    (hline : lineAt? text point.line = some note.linkText)
    (hcol : point.col ≤ width note.linkText)
    (hfiles : later.files =
      ((workspace.newNote title (some document) settings now).run session).2.files)
    (hfresh : later.index.Fresh workspace.root settings.index later.files)
    (hquiet : later.token.Quiet) :
    let asked := (workspace.definitionsFor document text point settings).run later
    let known := workspace.namesakes settings (nameOf title now) later.files
    let literal := (dir.join ⟨nameOf title now⟩).clean
    asked.2.files = later.files ∧ ∃ targets, asked.1 = .ok targets ∧
      (note.path.IsAmong targets ↔ note.path.IsAmong known ∨ known = [] ∧
        (FileSystem.isFile later.files literal = true → literal.same note.path = true)) := by
  intro asked known literal
  obtain ⟨hslug, hpath, hlinkText, hpresent⟩ := of_newNote_eq_ok hsettings hdir hnote
  have htrim := trim_nameOf title now
  have hmissing : missingTitle (nameOf title now) = nameOf title now := by
    rw [missingTitle, htrim, hextension]
  rw [hlinkText] at hline hcol
  have hlink := linkNaming?_filled hline (trim_ne_nil_of_slug_ne_nil hslug)
    (bracket_notMem_nameOf hclose now) hcol
  have houtcome := definitionsOutcome_of_present hlink hconvention hcreate hdir
    (by rwa [hmissing]) (workspace.noteList_of_fresh settings later.files hfresh)
    (by rw [hmissing, ← hpath, hfiles]; exact hpresent hshown)
  obtain ⟨hanswer, hkept, -⟩ :=
    (comesTo_definitionsFor workspace settings document text point later).ends hquiet
  rw [houtcome] at hanswer hkept
  refine ⟨hkept, _, hanswer, ?_⟩
  rw [hmissing, ← hpath, isAmong_targetsFor, htrim]

/-- The link to a new note leads to the note, which is known by then. -/
theorem definitionsFor_newNote_known :
    let workspace : Workspace := ⟨⟨"/ws".toList⟩⟩
    let document : Path := ⟨"/ws/x.md".toList⟩
    let session : Session MemoryFiles := { files := { files := [] } }
    let made := (workspace.newNote "New Plan".toList (some document) {}
      ⟨2024, 5, 6, 7, 8, 9, 0, 0⟩).run session
    let later : Session MemoryFiles := { made.2 with token := {} }
    let asked := (workspace.definitionsFor document "[[New Plan]]".toList ⟨0, 5⟩ {}).run later
    made.1 = .ok ⟨⟨"/ws/new-plan.md".toList⟩, true, "[[New Plan]]".toList⟩ ∧
      asked.2.files = later.files ∧
      ∃ targets, asked.1 = .ok targets ∧ Path.IsAmong ⟨"/ws/new-plan.md".toList⟩ targets := by
  intro workspace document session made later asked
  have hmade : made.1 = .ok ⟨⟨"/ws/new-plan.md".toList⟩, true, "[[New Plan]]".toList⟩ := by
    decide +kernel
  have hindex : later.index.current? = none := by decide +kernel
  obtain ⟨hfiles, targets, hanswer, hamong⟩ := definitionsFor_newNote workspace rfl rfl rfl
    (by decide +kernel : document.parent? = some ⟨"/ws".toList⟩) (by decide) (by decide +kernel)
    (MemoryFiles.showsCreated session.files) hmade
    (by decide +kernel : lineAt? "[[New Plan]]".toList (⟨0, 5⟩ : Point).line = _)
    (by decide +kernel) (rfl : later.files = _)
    (NoteIndex.fresh_of_current?_eq_none hindex _ _ _) Token.quiet_new
  have hknown : workspace.namesakes {} "New Plan".toList later.files =
      [⟨"/ws/new-plan.md".toList⟩] := by decide +kernel
  refine ⟨hmade, hfiles, targets, hanswer, hamong.mpr (.inl ?_)⟩
  have hname : nameOf "New Plan".toList ⟨2024, 5, 6, 7, 8, 9, 0, 0⟩ = "New Plan".toList := by
    decide +kernel
  rw [hname, hknown]
  exact ⟨_, List.mem_singleton_self _, Path.same_self _⟩

/-- The link to a new note leads elsewhere if the note is not known while another one has its name,
and it asks for another note if its name ends with a note extension. -/
theorem definitionsFor_newNote_elsewhere :
    let workspace : Workspace := ⟨⟨"/ws".toList⟩⟩
    let now : Moment := ⟨2024, 5, 6, 7, 8, 9, 0, 0⟩
    let outside : Path := ⟨"/other/x.md".toList⟩
    let session : Session MemoryFiles :=
      { files := { files := [(⟨"/ws/foo.md".toList⟩, some [])] } }
    let made := (workspace.newNote "Foo".toList (some outside) {} now).run session
    let later : Session MemoryFiles := { made.2 with token := {} }
    let asked := (workspace.definitionsFor outside "[[Foo]]".toList ⟨0, 3⟩ {}).run later
    let inside : Path := ⟨"/ws/x.md".toList⟩
    let session' : Session MemoryFiles := { files := { files := [] } }
    let made' := (workspace.newNote "Plan.md".toList (some inside) {} now).run session'
    let later' : Session MemoryFiles := { made'.2 with token := {} }
    let asked' := (workspace.definitionsFor inside "[[Plan.md]]".toList ⟨0, 3⟩ {}).run later'
    made.1 = .ok ⟨⟨"/other/foo.md".toList⟩, true, "[[Foo]]".toList⟩ ∧
      later.index.Fresh workspace.root ({} : Settings).index later.files ∧ later.token.Quiet ∧
      asked.1 = .ok [⟨"/ws/foo.md".toList⟩] ∧
      made'.1 = .ok ⟨⟨"/ws/plan-md.md".toList⟩, true, "[[Plan.md]]".toList⟩ ∧
      later'.index.Fresh workspace.root ({} : Settings).index later'.files ∧ later'.token.Quiet ∧
      asked'.1 = .ok [⟨"/ws/plan.md".toList⟩] ∧
      FileSystem.isFile later'.files ⟨"/ws/plan.md".toList⟩ = false ∧
      FileSystem.isFile asked'.2.files ⟨"/ws/plan.md".toList⟩ = true := by
  intro workspace now outside session made later asked inside session' made' later' asked'
  have hindex : later.index.current? = none := by decide +kernel
  have hindex' : later'.index.current? = none := by decide +kernel
  exact ⟨by decide +kernel, NoteIndex.fresh_of_current?_eq_none hindex _ _ _, Token.quiet_new,
    by decide +kernel, by decide +kernel, NoteIndex.fresh_of_current?_eq_none hindex' _ _ _,
    Token.quiet_new, by decide +kernel, by decide +kernel, by decide +kernel⟩

end Workspace
end LinkedNotes
