import LinkedNotes.Proofs.Files.Repository
import LinkedNotes.Proofs.Link.Cursor
import LinkedNotes.Proofs.Workspace.Detail
import LinkedNotes.Proofs.Workspace.Freshness
import LinkedNotes.Proofs.Workspace.Listing

/-!
# Going to the target of a link again

The first time, a note may be created for the link, and then the known notes, the literal path of
the link and the file itself may all answer differently. Main statement: where different clean paths
are different files, the answer is the same again and nothing is written any more. Links that are
edited in between are outside this module.
-/

namespace LinkedNotes

/-- Whether two answers fail alike or have the same paths in the same order, however spelled. -/
inductive SameAnswer : Except NoteError (List Path) → Except NoteError (List Path) → Prop where
  /-- The same failure. -/
  | error (error : NoteError) : SameAnswer (.error error) (.error error)
  /-- The same paths. -/
  | ok {paths others : List Path} (h : List.Forall₂ (fun p q => p.same q = true) paths others) :
    SameAnswer (.ok paths) (.ok others)

/-- An answer is the same as itself. -/
theorem SameAnswer.refl (answer : Except NoteError (List Path)) : SameAnswer answer answer := by
  cases answer with
  | error error => exact .error error
  | ok paths => exact .ok (List.forall₂_same.mpr fun path _ => path.same_self)

/-- Whether a path is in an answer. -/
def Returns (answer : Except NoteError (List Path)) (path : Path) : Prop :=
  ∃ paths, answer = .ok paths ∧ path ∈ paths

/-- The paths of an answer are in it. -/
@[simp]
theorem returns_ok_iff {paths : List Path} {path : Path} :
    Returns (.ok paths) path ↔ path ∈ paths :=
  ⟨fun ⟨_, hpaths, hmem⟩ => Except.ok.inj hpaths ▸ hmem, fun hmem => ⟨paths, rfl, hmem⟩⟩

/-- An error has none. -/
@[simp]
theorem not_returns_error {error : NoteError} {path : Path} : ¬Returns (.error error) path :=
  fun ⟨_, hpaths, _⟩ => nomatch hpaths

namespace Matcher

/-- Only known notes are named as such. -/
theorem mem_of_mem_knownNotes {matcher : Matcher} {raw : Text} {source : Option Path}
    {notes : List Path} {path : Path} (h : path ∈ matcher.knownNotes raw source notes) :
    path ∈ notes := by
  cases hconv : matcher.convention with
  | uniqueNames =>
    rw [knownNotes_of_uniqueNames hconv] at h
    exact (List.mem_filter.mp h).1
  | relativePaths =>
    rw [knownNotes_of_relativePaths hconv] at h
    exact (of_mem_relativeNotes h).1

/-- A text that names nothing names no known note, and its literal path is no file. -/
theorem of_documentsOf_eq_nil {matcher : Matcher} {isFile : Path → Bool} {notes : List Path}
    {raw : Text} {source : Path} (hblank : Text.trim raw ≠ [])
    (h : matcher.documentsOf isFile notes raw source = []) :
    matcher.knownNotes raw (some source) notes = [] ∧ literalIn isFile raw source = [] := by
  rw [documentsOf_eq, if_neg hblank] at h
  split at h
  · next hnone => exact ⟨hnone, h⟩
  · next hsome => exact absurd h hsome

end Matcher

namespace Workspace

open Creation Note Text

variable {σ : Type} [FileSystem σ] {workspace : Workspace} {settings : Settings}
  {document path : Path} {text : Text} {point : Point} {link : Link} {files after : σ}
  {index : NoteIndex}

/-- The documents that a link leads to, as far as they are there. -/
def foundFor (workspace : Workspace) (settings : Settings) (document : Path) (link : Link)
    (files : σ) (index : NoteIndex) : List Path :=
  (workspace.matcher settings).documentsOf (FileSystem.isFile files)
    (workspace.noteList settings files index) link.text document

/-- A link that leads somewhere is followed there. -/
theorem definitionsOutcome_of_found (hlink : linkNaming? text point = some link)
    {found : List Path} (hfound : workspace.foundFor settings document link files index = found)
    (hne : found ≠ []) :
    workspace.definitionsOutcome settings document text point files index =
      ⟨.ok found, files, workspace.keptIndex settings files index⟩ := by
  rw [foundFor] at hfound
  simp only [definitionsOutcome, hlink, hfound]

/-- The note for a link that leads nowhere is created as planned. -/
theorem definitionsOutcome_of_dangling (hlink : linkNaming? text point = some link)
    (hfound : workspace.foundFor settings document link files index = []) :
    workspace.definitionsOutcome settings document text point files index =
      ((missingPlan link.text document settings).outcome files
        (workspace.keptIndex settings files index)).map (·.map Option.toList) := by
  rw [foundFor] at hfound
  simp only [definitionsOutcome, hlink, hfound]

/-- The link at a point is named on one line and not blank. -/
theorem of_linkNaming? (h : linkNaming? text point = some link) :
    trim link.text ≠ [] ∧ '\n' ∉ link.text := by
  obtain ⟨hpoint, hblank⟩ := Option.filter_eq_some_iff.mp h
  exact ⟨of_decide_eq_true hblank, Link.notMem_text_of_atPoint? hpoint⟩

/-- Whether going to the target of a link creates a note for it. -/
structure Creates (workspace : Workspace) (settings : Settings) (document : Path) (link : Link)
    (files : σ) (index : NoteIndex) (path : Path) (after : σ) : Prop where
  /-- Links name notes by their file names. -/
  convention : settings.convention = .uniqueNames
  /-- The link leads nowhere. -/
  dangling : workspace.foundFor settings document link files index = []
  /-- Its title has a slug. -/
  titled : slug (missingTitle link.text) true ≠ []
  /-- A note is to be written. -/
  plan : missingPlan link.text document settings =
    .write path (missingContent (missingTitle link.text)) fun _ => some path
  /-- Its path is clean. -/
  clean : path.IsClean
  /-- It is that of a note. -/
  note : isNotePath path = true
  /-- No file is there. -/
  absent : FileSystem.isFile files path = false
  /-- So it is created. -/
  created : FileSystem.create files path (missingContent (missingTitle link.text)) =
    (.ok (), after)

/-- A note for a link is either not to be written, or in the directory of the document. -/
theorem missingPlan_cases (raw : Text) (document : Path) (settings : Settings) :
    (∃ result, missingPlan raw document settings = .done result ∧
        ∀ path, result ≠ .ok (some path)) ∨
      ∃ dir, settings.convention = .uniqueNames ∧ slug (missingTitle raw) true ≠ [] ∧
        document.parent? = some dir ∧
        missingPlan raw document settings =
          .write (dir.join ⟨fileNameOf (missingTitle raw)⟩) (missingContent (missingTitle raw))
            fun _ => some (dir.join ⟨fileNameOf (missingTitle raw)⟩) := by
  unfold missingPlan
  split
  · exact .inl ⟨_, rfl, fun path h => by cases h⟩
  · split
    · exact .inl ⟨_, rfl, fun path h => by cases h⟩
    · next hconv =>
      split
      · exact .inl ⟨_, rfl, fun path h => by cases h⟩
      · next hslug =>
        cases hdir : document.parent? with
        | none => exact .inl ⟨_, rfl, fun path h => by cases h⟩
        | some dir => exact .inr ⟨dir, not_not.mp hconv, hslug, rfl, rfl⟩

/-- A note that is to be written is there already, cannot be created, or is created. -/
theorem written_cases (hkeeps : FileSystem.CreatesOrKeeps files) (path : Path) (content : Text)
    (index : NoteIndex) :
    FileSystem.isFile files path = true ∧
        written path content files index = ⟨.ok false, files, index⟩ ∨
      (∃ message, written path content files index = ⟨.error (.io path message), files, index⟩) ∨
      ∃ after, FileSystem.isFile files path = false ∧
        FileSystem.create files path content = (.ok (), after) ∧
        written path content files index = ⟨.ok true, after, index.invalidate⟩ := by
  unfold written
  cases habsent : FileSystem.isFile files path with
  | true => exact .inl ⟨rfl, rfl⟩
  | false =>
    rcases hmade : FileSystem.create files path content with ⟨message | _, after⟩
    · rw [hkeeps _ _ _ _ hmade]
      exact .inr (.inl ⟨message, rfl⟩)
    · exact .inr (.inr ⟨after, rfl, rfl, rfl⟩)

/-- The same of a note for a dangling link. -/
theorem outcome_write_cases (hkeeps : FileSystem.CreatesOrKeeps files) (path : Path)
    (content : Text) (index : NoteIndex) :
    let outcome := ((Plan.write path content fun _ => some path).outcome files index).map
      (·.map Option.toList)
    FileSystem.isFile files path = true ∧ outcome = ⟨.ok [path], files, index⟩ ∨
      (∃ message, outcome = ⟨.error (.io path message), files, index⟩) ∨
      ∃ after, FileSystem.isFile files path = false ∧
        FileSystem.create files path content = (.ok (), after) ∧
        outcome = ⟨.ok [path], after, index.invalidate⟩ := by
  simp only [Plan.outcome]
  rcases written_cases hkeeps path content index with
    ⟨hpresent, hwritten⟩ | ⟨message, hwritten⟩ | ⟨after, habsent, hmade, hwritten⟩
  · rw [hwritten]
    exact .inl ⟨hpresent, rfl⟩
  · rw [hwritten]
    exact .inr (.inl ⟨message, rfl⟩)
  · rw [hwritten]
    exact .inr (.inr ⟨after, habsent, hmade, rfl⟩)

/-- A link that leads somewhere leads to files. -/
theorem isFile_of_mem_foundFor (hlaws : FileSystem.Lexical workspace.root files)
    (hfresh : workspace.noteList settings files index =
      Discovery.listing files workspace.root settings.index)
    (h : path ∈ workspace.foundFor settings document link files index) :
    FileSystem.isFile files path = true := by
  rcases (Matcher.of_mem_documentsOf h).2 with hknown | hliteral
  · have hnote := Matcher.mem_of_mem_knownNotes hknown
    rw [hfresh] at hnote
    exact hlaws.listed path ((Discovery.listing_subperm _ _ _).subset hnote)
  · exact (List.mem_filter.mp hliteral).2

/-- Whether going to the target of a link has changed no file and leads to files. -/
structure Untouched (workspace : Workspace) (settings : Settings) (before : σ) (kept : NoteIndex)
    (outcome : Outcome σ (Except NoteError (List Path))) : Prop where
  /-- The files are as they were. -/
  files : outcome.files = before
  /-- The list of notes that is kept has at most become the current one. -/
  index : outcome.index = kept ∨ outcome.index = workspace.keptIndex settings before kept
  /-- What is answered are files. -/
  present : ∀ path, Returns outcome.result path → FileSystem.isFile before path = true

/-- When a link leads nowhere, either no file is changed, or a note is created for the link. -/
theorem definitionsOutcome_cases_of_dangling (hlaws : FileSystem.Lexical workspace.root files)
    (hdocument : document.IsClean) (hlink : linkNaming? text point = some link)
    (hfound : workspace.foundFor settings document link files index = []) :
    let outcome := workspace.definitionsOutcome settings document text point files index
    Untouched workspace settings files index outcome ∨
      ∃ path after, Creates workspace settings document link files index path after ∧
        outcome = ⟨.ok [path], after, (workspace.keptIndex settings files index).invalidate⟩ := by
  intro outcome
  have houtcome : outcome = _ := definitionsOutcome_of_dangling hlink hfound
  rw [houtcome]
  rcases missingPlan_cases link.text document settings with
    ⟨result, hplan, hresult⟩ | ⟨dir, hconv, hslug, hdir, hplan⟩
  · rw [hplan]
    refine .inl ⟨rfl, .inr rfl, fun path hreturns => ?_⟩
    obtain ⟨paths, hpaths, hmem⟩ := hreturns
    rcases result with error | found
    · cases hpaths
    · cases found with
      | none =>
        cases hpaths
        exact absurd hmem List.not_mem_nil
      | some path => exact absurd rfl (hresult path)
  · have hclean : (dir.join ⟨fileNameOf (missingTitle link.text)⟩).IsClean :=
      hdocument.join_name hdir ⟨slash_notMem_fileNameOf _, ofPiece?_fileNameOf _⟩
    rw [hplan]
    rcases outcome_write_cases hlaws.failed _ _ (workspace.keptIndex settings files index) with
      ⟨hpresent, hwritten⟩ | ⟨message, hwritten⟩ | ⟨after, habsent, hmade, hwritten⟩
    · rw [hwritten]
      refine .inl ⟨rfl, .inr rfl, fun path hreturns => ?_⟩
      rwa [List.mem_singleton.mp (returns_ok_iff.mp hreturns)]
    · rw [hwritten]
      exact .inl ⟨rfl, .inr rfl, fun path hreturns => absurd hreturns not_returns_error⟩
    · have hnote := isNotePath_join_fileNameOf dir hslug
      exact .inr ⟨_, after, ⟨hconv, hfound, hslug, hplan, hclean, hnote, habsent, hmade⟩, hwritten⟩

/-- Going to the target of a link either changes no file and leads to files, or creates a note for
the link. -/
theorem definitionsOutcome_cases (text : Text) (point : Point)
    (hlaws : FileSystem.Lexical workspace.root files) (hdocument : document.IsClean)
    (hfresh : workspace.noteList settings files index =
      Discovery.listing files workspace.root settings.index) :
    let outcome := workspace.definitionsOutcome settings document text point files index
    Untouched workspace settings files index outcome ∨
      ∃ link path after, linkNaming? text point = some link ∧
        Creates workspace settings document link files index path after ∧
        outcome = ⟨.ok [path], after, (workspace.keptIndex settings files index).invalidate⟩ := by
  intro outcome
  cases hlink : linkNaming? text point with
  | none =>
    have houtcome : outcome = ⟨.ok [], files, index⟩ := by
      simp only [outcome, definitionsOutcome, hlink]
    rw [houtcome]
    exact .inl ⟨rfl, .inl rfl, by simp⟩
  | some link =>
    by_cases hfound : workspace.foundFor settings document link files index = []
    · rcases definitionsOutcome_cases_of_dangling hlaws hdocument hlink hfound with
        huntouched | ⟨path, after, hcreates, houtcome⟩
      · exact .inl huntouched
      · exact .inr ⟨link, path, after, rfl, hcreates, houtcome⟩
    · have houtcome : outcome = _ := definitionsOutcome_of_found hlink rfl hfound
      rw [houtcome]
      exact .inl ⟨rfl, .inr rfl, fun path hreturns =>
        isFile_of_mem_foundFor hlaws hfresh (returns_ok_iff.mp hreturns)⟩

namespace Creates

/-- The note is added to the files. -/
theorem adds (h : Creates workspace settings document link files index path after)
    (hlaws : FileSystem.Lexical workspace.root files) :
    FileSystem.Adds workspace.root files path (missingContent (missingTitle link.text)) after :=
  hlaws.created path _ after h.clean h.note h.absent h.created

/-- So it is there. -/
theorem present (h : Creates workspace settings document link files index path after)
    (hlaws : FileSystem.Lexical workspace.root files) : FileSystem.isFile after path = true :=
  ((h.adds hlaws).isFile path h.clean).mpr (.inl path.same_self)

/-- Once its note is created, a link leads there or nowhere. -/
theorem foundFor_cases (h : Creates workspace settings document link files index path after)
    (hlaws : FileSystem.Lexical workspace.root files) (hblank : trim link.text ≠ [])
    (hfresh : workspace.noteList settings files index =
      Discovery.listing files workspace.root settings.index)
    {index' : NoteIndex} (hindex' : index'.current? = none) :
    workspace.foundFor settings document link after index' = [] ∨
      ∃ found, found.same path = true ∧ found.IsClean ∧
        workspace.foundFor settings document link after index' = [found] := by
  have hadds := h.adds hlaws
  have hconv : (workspace.matcher settings).convention = .uniqueNames := h.convention
  obtain ⟨hknown, hliteral⟩ := Matcher.of_documentsOf_eq_nil hblank h.dangling
  rw [hfresh, Matcher.knownNotes_of_uniqueNames hconv] at hknown
  have hafter := workspace.noteList_of_fresh settings after
    (NoteIndex.fresh_of_current?_eq_none hindex' _ _ _)
  rw [foundFor, Matcher.documentsOf_eq, if_neg hblank, hafter,
    Matcher.knownNotes_of_uniqueNames hconv]
  rcases Discovery.filter_listing_of_adds hlaws hadds h.absent hknown with
    hnone | ⟨listed, hsame, hlisted⟩
  · -- The literal path is a file only if it is that of the new note.
    rw [hnone]
    cases hpath : Matcher.literalPath? link.text (some document) with
    | none => exact .inl (by simp [Matcher.literalIn, hpath])
    | some literal =>
      have hclean : literal.IsClean := by
        obtain ⟨dir, -, heq⟩ := Option.bind_eq_some_iff.mp hpath
        rw [← Option.some.inj heq]
        exact Path.isClean_clean _
      have habsent : FileSystem.isFile files literal = false := by
        simpa [Matcher.literalIn, hpath] using hliteral
      simp only [Matcher.literalIn, hpath, Option.toList_some, List.filter_cons, List.filter_nil]
      cases hfile : FileSystem.isFile after literal with
      | false => exact .inl rfl
      | true =>
        have hsame := ((hadds.isFile literal hclean).mp hfile).resolve_right (by simp [habsent])
        exact .inr ⟨literal, hsame, hclean, rfl⟩
  · rw [hlisted]
    exact .inr ⟨listed, hsame, h.clean.of_same hsame, rfl⟩

/-- The second time, the note that was created is found. -/
theorem again (h : Creates workspace settings document link files index path after)
    (hlaws : FileSystem.Lexical workspace.root files)
    (hlink : linkNaming? text point = some link)
    (hfresh : workspace.noteList settings files index =
      Discovery.listing files workspace.root settings.index)
    {index' : NoteIndex} (hindex' : index'.current? = none) :
    ∃ found, found.same path = true ∧ FileSystem.isFile after found = true ∧
      workspace.definitionsOutcome settings document text point after index' =
        ⟨.ok [found], after, workspace.keptIndex settings after index'⟩ := by
  rcases h.foundFor_cases hlaws (of_linkNaming? hlink).1 hfresh hindex' with
    hnone | ⟨found, hsame, hclean, hfound⟩
  · have hpresent := h.present hlaws
    refine ⟨path, path.same_self, hpresent, ?_⟩
    rw [definitionsOutcome_of_dangling hlink hnone, h.plan]
    simp only [Plan.outcome, written, hpresent, if_true]
    rfl
  · refine ⟨found, hsame, ((h.adds hlaws).isFile found hclean).mpr (.inl hsame), ?_⟩
    exact definitionsOutcome_of_found hlink hfound (List.cons_ne_nil _ _)

/-- The heading of a note that was created is its title. -/
theorem heading (h : Creates workspace settings document link files index path after)
    (hlaws : FileSystem.Lexical workspace.root files)
    (hlink : linkNaming? text point = some link) :
    (FileSystem.read after path).bind heading? = some (trim (missingTitle link.text)) := by
  rw [(h.adds hlaws).read, Option.bind_some]
  refine heading?_missingContent (fun hfeed => ?_) (trim_ne_nil_of_slug_ne_nil h.titled)
  exact (of_linkNaming? hlink).2 (mem_of_mem_trim (mem_of_mem_stripExtension hfeed))

end Creates

/-- A question starts no new generation. -/
theorem generation_keptIndex (workspace : Workspace) (settings : Settings) (files : σ)
    (index : NoteIndex) :
    (workspace.keptIndex settings files index).generation = index.generation := by
  unfold keptIndex
  split <;> rfl

/-- Whether a second end of going to a target only confirms the first one. -/
structure Confirms (first second : Outcome σ (Except NoteError (List Path))) : Prop where
  /-- The answer is the same. -/
  answer : SameAnswer first.result second.result
  /-- No file is written. -/
  files : second.files = first.files
  /-- No new generation is started. -/
  generation : second.index.generation = first.index.generation
  /-- Both answers lead to files. -/
  present : ∀ path, Returns first.result path ∨ Returns second.result path →
    FileSystem.isFile second.files path = true

/-- When going to the target of a link changes no file, doing so again has the same end. -/
theorem confirms_of_untouched (hlaws : FileSystem.Lexical workspace.root files)
    (hdocument : document.IsClean) (hfresh : workspace.noteList settings files index =
      Discovery.listing files workspace.root settings.index)
    {first : Outcome σ (Except NoteError (List Path))}
    (hfirst : workspace.definitionsOutcome settings document text point files index = first)
    (huntouched : Untouched workspace settings files index first) :
    Confirms first
      (workspace.definitionsOutcome settings document text point first.files first.index) := by
  have hlist : workspace.noteList settings files first.index =
      workspace.noteList settings files index := by
    rcases huntouched.index with heq | heq
    · rw [heq]
    · rw [heq, noteList_keptIndex]
  have hagrees : (workspace.definitionsOutcome settings document text point files index).Agrees
      (workspace.definitionsOutcome settings document text point files first.index) :=
    workspace.agrees_definitionsOutcome settings document text point hlist.symm
  rw [hfirst] at hagrees
  have hsame := hagrees.files.symm.trans huntouched.files
  rw [huntouched.files]
  refine ⟨hagrees.result ▸ .refl _, hsame.trans huntouched.files.symm, ?_, fun path hleads => ?_⟩
  · rcases definitionsOutcome_cases text point hlaws hdocument (hlist.trans hfresh) with
      hagain | ⟨link, path, after, -, hcreates, hsecond⟩
    · rcases hagain.index with heq | heq
      · rw [heq]
      · rw [heq, generation_keptIndex]
    · -- A note that was created would be a file that was not there.
      have hfile := hcreates.present hlaws
      rw [hsecond] at hsame
      have hafter : after = files := hsame
      rw [hafter, hcreates.absent] at hfile
      cases hfile
  · rw [hsame]
    rw [← hagrees.result, or_self] at hleads
    exact huntouched.present path hleads

/-- Going to the target of a link again confirms what came of it, and a note that was created for
the link has its title as heading. -/
theorem definitionsOutcome_again (text : Text) (point : Point)
    (hlaws : FileSystem.Lexical workspace.root files) (hdocument : document.IsClean)
    (hdated : index.Dated) (hfresh : workspace.noteList settings files index =
      Discovery.listing files workspace.root settings.index) :
    let first := workspace.definitionsOutcome settings document text point files index
    let second := workspace.definitionsOutcome settings document text point first.files first.index
    Confirms first second ∧
      ∀ link path, linkNaming? text point = some link → first.result = .ok [path] →
        FileSystem.isFile files path = false →
          (FileSystem.read second.files path).bind heading? =
            some (trim (missingTitle link.text)) := by
  intro first second
  rcases definitionsOutcome_cases text point hlaws hdocument hfresh with
    huntouched | ⟨link, path, after, hlink, hcreates, hfirst⟩
  · refine ⟨confirms_of_untouched hlaws hdocument hfresh rfl huntouched, ?_⟩
    intro link path _ hanswer habsent
    have hfile := huntouched.present path ⟨[path], hanswer, List.mem_singleton_self path⟩
    rw [habsent] at hfile
    cases hfile
  · have hkept := workspace.dated_keptIndex settings files hdated
    have hnone : (workspace.keptIndex settings files index).invalidate.current? = none :=
      hkept.current?_later Nat.one_pos
    obtain ⟨found, hsame, hfile, hagain⟩ := hcreates.again hlaws hlink hfresh hnone
    have hfirst' : first = _ := hfirst
    have hsecond : second = ⟨.ok [found], after, workspace.keptIndex settings after
        (workspace.keptIndex settings files index).invalidate⟩ := by
      simp only [second, hfirst']
      exact hagain
    have hmade := hcreates.present hlaws
    rw [hsecond, hfirst']
    refine ⟨⟨.ok (.cons ?_ .nil), rfl, generation_keptIndex .., ?_⟩, ?_⟩
    · rw [Path.same_iff] at hsame ⊢
      exact hsame.symm
    · rintro other (hreturns | hreturns)
      · rwa [List.mem_singleton.mp (returns_ok_iff.mp hreturns)]
      · rwa [List.mem_singleton.mp (returns_ok_iff.mp hreturns)]
    · intro other path' hother hanswer _
      cases hanswer
      rw [hlink] at hother
      cases hother
      exact hcreates.heading hlaws hlink

/-- Going to the target of a link a second time has the same answer, writes nothing and starts no
new generation, if the list that is kept is not out of date and different clean paths are different
files. All paths of both answers are files. A note that was created for the link has the title that
was asked for as its detail. -/
theorem definitionsFor_again (workspace : Workspace) (settings : Settings) {document : Path}
    (text : Text) (point : Point) {session : Session σ} {token : Token}
    (hlaws : FileSystem.Lexical workspace.root session.files) (hdocument : document.IsClean)
    (hquiet : session.token.Quiet) (hquiet' : token.Quiet) (hdated : session.index.Dated)
    (hfresh : session.index.Fresh workspace.root settings.index session.files) :
    let first := (workspace.definitionsFor document text point settings).run session
    let second := (workspace.definitionsFor document text point settings).run
      { first.2 with token }
    SameAnswer first.1 second.1 ∧ second.2.files = first.2.files ∧
      second.2.index.generation = first.2.index.generation ∧
      (∀ path, Returns first.1 path ∨ Returns second.1 path →
        FileSystem.isFile second.2.files path = true) ∧
      ∀ link path, linkNaming? text point = some link → first.1 = .ok [path] →
        FileSystem.isFile session.files path = false →
          ((detail? path).run first.2).1 = some (trim (missingTitle link.text)) := by
  intro first second
  obtain ⟨hanswer, hfiles, hindex⟩ :=
    (comesTo_definitionsFor workspace settings document text point session).ends hquiet
  obtain ⟨hanswer', hfiles', hindex'⟩ := (comesTo_definitionsFor workspace settings document text
    point { first.2 with token }).ends hquiet'
  have hlist := workspace.noteList_of_fresh settings session.files hfresh
  obtain ⟨hconfirms, hheading⟩ := definitionsOutcome_again text point hlaws hdocument hdated hlist
  rw [← hfiles, ← hindex] at hconfirms hheading
  rw [← hanswer] at hheading
  have hsame : second.2.files = first.2.files := hfiles'.trans (hconfirms.files.trans hfiles.symm)
  refine ⟨?_, hsame, ?_, fun path hleads => ?_, fun link path hlink hmade habsent => ?_⟩
  · rw [hanswer, hanswer']
    exact hconfirms.answer
  · exact (congrArg (·.generation) hindex').trans
      (hconfirms.generation.trans (congrArg (·.generation) hindex).symm)
  · rw [hfiles']
    rw [hanswer, hanswer'] at hleads
    exact hconfirms.present path hleads
  · have hdetail := hheading link path hlink hmade habsent
    rw [← hfiles', hsame] at hdetail
    exact hdetail

/-- Where git answers, a note that is created for a link is found the second time, under its title,
though one with the name of the link is ignored. -/
theorem definitionsFor_again_creation :
    let workspace : Workspace := ⟨⟨"/ws".toList⟩⟩
    let created : Path := ⟨"/ws/new-note.md".toList⟩
    let session : Session RepositoryFiles :=
      { files :=
          { store :=
              { files :=
                  [(⟨"/ws/.gitignore".toList⟩, some "drafts/\n".toList),
                    (⟨"/ws/drafts/new note.md".toList⟩, some [])] } } }
    let ask := workspace.definitionsFor ⟨"/ws/x.md".toList⟩ "[[New Note]]".toList ⟨0, 3⟩ {}
    let first := ask.run session
    let second := ask.run { first.2 with token := {} }
    FileSystem.ignored session.files workspace.root
        ["new-note.md".toList, "drafts/new note.md".toList] = some ["drafts/new note.md".toList] ∧
      first.1 = .ok [created] ∧ SameAnswer (.ok [created]) second.1 ∧
      second.2.files = first.2.files ∧
      ((detail? created).run first.2).1 = some "New Note".toList := by
  intro workspace created session ask first second
  have hgit : FileSystem.ignored session.files workspace.root
      ["new-note.md".toList, "drafts/new note.md".toList] = some ["drafts/new note.md".toList] := by
    decide +kernel
  have hmade : first.1 = .ok [created] := by decide +kernel
  have hclean : (⟨"/ws/x.md".toList⟩ : Path).IsClean := by decide +kernel
  obtain ⟨hsame, hfiles, -, -, hdetail⟩ := definitionsFor_again workspace {} "[[New Note]]".toList
    ⟨0, 3⟩ (RepositoryFiles.lexical _ session.files) hclean Token.quiet_new Token.quiet_new
    NoteIndex.dated_new (NoteIndex.fresh_of_current?_eq_none rfl _ _ _)
  refine ⟨hgit, hmade, hmade ▸ hsame, hfiles, ?_⟩
  have hlink : linkNaming? "[[New Note]]".toList ⟨0, 3⟩ =
      some ⟨"New Note".toList, ⟨0, 2⟩, ⟨0, 10⟩⟩ := by decide +kernel
  exact hdetail _ created hlink hmade (by decide +kernel)

end Workspace
end LinkedNotes
