import LinkedNotes.Files.Memory
import LinkedNotes.Proofs.Link.Token
import LinkedNotes.Proofs.Workspace.Outcome

/-!
# What a search for references reports

A search reports the links whose texts name the sought note, and under relative paths also the links
whose remembered answers share a document with it. Main statements: which of the links in the known
notes are reported, and exactly when these are links that share a document with the one that was
asked about.
-/

namespace LinkedNotes

/-- A link with the note that it is written in. -/
structure PlacedLink where
  /-- The note. -/
  note : Path
  /-- The link in the text of the note. -/
  occurrence : Link.Occurrence
  deriving DecidableEq, Repr

namespace PlacedLink

/-- Where a link is reported. -/
def place (link : PlacedLink) : Path × TextRange :=
  (link.note, link.occurrence.range)

/-- The query that finds the documents of a link. -/
def query (link : PlacedLink) : Resolver.Query :=
  ⟨link.occurrence.text, link.note⟩

/-- The links of a note with some text. -/
def ofNote (note : Path) (content : Text) : List PlacedLink :=
  (Link.scan content).map (⟨note, ·⟩)

/-- The links of some notes in order. Notes that cannot be read have none. -/
def ofNotes {σ : Type} [FileSystem σ] (files : σ) (notes : List Path) : List PlacedLink :=
  notes.flatMap fun note => (FileSystem.read files note).elim [] (ofNote note)

/-- A link is known by its place. -/
theorem eq_of_place_eq {σ : Type} [FileSystem σ] {files : σ} {notes : List Path}
    {first second : PlacedLink} (hfirst : first ∈ ofNotes files notes)
    (hsecond : second ∈ ofNotes files notes) (h : first.place = second.place) : first = second := by
  obtain ⟨note, -, hfirst⟩ := List.mem_flatMap.mp hfirst
  obtain ⟨other, -, hsecond⟩ := List.mem_flatMap.mp hsecond
  cases hread : FileSystem.read files note with
  | none => simp [hread] at hfirst
  | some content =>
    cases hread' : FileSystem.read files other with
    | none => simp [hread'] at hsecond
    | some content' =>
      rw [hread, Option.elim_some] at hfirst
      rw [hread', Option.elim_some] at hsecond
      obtain ⟨occurrence, hmem, rfl⟩ := List.mem_map.mp hfirst
      obtain ⟨occurrence', hmem', rfl⟩ := List.mem_map.mp hsecond
      obtain ⟨hnote, hrange⟩ := Prod.ext_iff.mp h
      simp only [place] at hnote hrange
      subst hnote
      rw [hread, Option.some.injEq] at hread'
      subst hread'
      rw [Link.eq_of_range_eq hmem hmem' hrange]

end PlacedLink

namespace Workspace

open LinkedNotes.Action Note Text

/-- Whether two answers have a document in common. -/
def shares (found targets : List Path) : Bool :=
  found.any fun path => targets.any path.same

section

variable (workspace : Workspace) (settings : Settings) (isFile : Path → Bool) (notes : List Path)
  (sought : Sought)

/-- The documents that a link leads to. -/
def documentsAt (link : PlacedLink) : List Path :=
  Resolver.fresh (workspace.matcher settings) isFile notes link.query

/-- The queries that a search asks about some links: those of the links that are named otherwise, if
there is something to compare their documents with. -/
def asked (links : List PlacedLink) : List Resolver.Query :=
  (links.filter fun link => !namesMatch link.occurrence.text sought.text &&
    !sought.targets.isEmpty).map PlacedLink.query

/-- Whether a search that meets some links reports one of them. -/
def reports (links : List PlacedLink) (link : PlacedLink) : Bool :=
  namesMatch link.occurrence.text sought.text ||
    shares (Resolver.fresh (workspace.matcher settings) isFile notes
      (Resolver.leader (workspace.matcher settings) (asked sought links) link.query)) sought.targets

end

section

variable {workspace : Workspace} {settings : Settings} {isFile : Path → Bool} {notes : List Path}
  {sought : Sought}

/-- Nothing is shared with no document. -/
theorem shares_nil (found : List Path) : shares found [] = false := by
  simp [shares]

/-- Texts whose notes have one in common have one name. -/
theorem namesMatch_of_shares {left right : Text}
    (h : shares (notes.filter (basenameMatches · left)) (notes.filter (basenameMatches · right)) =
      true) : namesMatch left right = true := by
  obtain ⟨path, hpath, hany⟩ := List.any_eq_true.mp h
  obtain ⟨target, htarget, hsame⟩ := List.any_eq_true.mp hany
  exact namesMatch_of_same hsame (List.mem_filter.mp hpath).2 (List.mem_filter.mp htarget).2

/-- The queries about some links come before those about the next ones. -/
theorem asked_append (before rest : List PlacedLink) :
    asked sought (before ++ rest) = asked sought before ++ asked sought rest := by
  simp only [asked, List.filter_append, List.map_append]

/-- A link is only asked about if its name does not decide. -/
theorem asked_singleton (link : PlacedLink) :
    asked sought [link] =
      if namesMatch link.occurrence.text sought.text = true ∨ sought.targets = [] then []
      else [link.query] := by
  cases hname : namesMatch link.occurrence.text sought.text with
  | true => simp [asked, hname]
  | false => by_cases htargets : sought.targets = [] <;> simp [asked, hname, htargets]

/-- Later links do not matter for whether a link is reported. -/
theorem reports_append (before rest : List PlacedLink) (link : PlacedLink) :
    workspace.reports settings isFile notes sought (before ++ [link] ++ rest) link =
      workspace.reports settings isFile notes sought before link := by
  unfold reports
  cases hname : namesMatch link.occurrence.text sought.text with
  | true => rfl
  | false =>
    by_cases htargets : sought.targets = []
    · rw [htargets, shares_nil, shares_nil]
    · rw [asked_append, asked_append, asked_singleton, if_neg (by simp [hname, htargets]),
        Resolver.leader_append]

variable {σ : Type} [FileSystem σ]

/-- A link is reported by its name, else by the documents that are remembered for it. -/
theorem answers_refersTo {session : Session σ} {before : List PlacedLink} {resolver : Resolver}
    (h : Resolver.Remembers (workspace.matcher settings) (FileSystem.isFile session.files) notes
      (asked sought before) resolver) (link : PlacedLink) :
    ∃ after, (workspace.refersTo settings notes sought link.note link.occurrence.text
        resolver).Answers session
        (workspace.reports settings (FileSystem.isFile session.files) notes sought before link,
          after) ∧
      Resolver.Remembers (workspace.matcher settings) (FileSystem.isFile session.files) notes
        (asked sought (before ++ [link])) after := by
  unfold refersTo reports
  rw [asked_append, asked_singleton]
  by_cases hname : namesMatch link.occurrence.text sought.text = true
  · refine ⟨resolver, ?_, by simpa [hname] using h⟩
    simp only [hname, if_true, Bool.true_or]
    exact answers_pure session _
  · by_cases htargets : sought.targets = []
    · refine ⟨resolver, ?_, by simpa [htargets] using h⟩
      simp only [hname, htargets, if_true, shares_nil]
      exact answers_pure session _
    · obtain ⟨after, hanswer, hremembers⟩ := h.answer link.query
      refine ⟨after, ?_, by simpa [hname, htargets] using hremembers⟩
      have hresolve := answers_resolve resolver (workspace.matcher settings)
        link.occurrence.text link.note notes session
      rw [show (⟨link.occurrence.text, link.note⟩ : Resolver.Query) = link.query from rfl,
        hanswer] at hresolve
      simp only [hname, htargets, if_false, Bool.false_or]
      exact answers_bind hresolve fun after _ => answers_pure after _

/-- Of the links of a note those are found that are reported. -/
theorem answers_rangesIn (note : Path) (occurrences : List Link.Occurrence)
    (rest : List PlacedLink) {session : Session σ} {before : List PlacedLink} {resolver : Resolver}
    (h : Resolver.Remembers (workspace.matcher settings) (FileSystem.isFile session.files) notes
      (asked sought before) resolver) :
    ∃ after, (workspace.rangesIn settings notes sought note occurrences resolver).Answers session
        ((occurrences.filter fun occurrence =>
          workspace.reports settings (FileSystem.isFile session.files) notes sought
            (before ++ occurrences.map (⟨note, ·⟩) ++ rest) ⟨note, occurrence⟩).map (·.range),
          after) ∧
      Resolver.Remembers (workspace.matcher settings) (FileSystem.isFile session.files) notes
        (asked sought (before ++ occurrences.map (⟨note, ·⟩))) after := by
  induction occurrences generalizing session before resolver with
  | nil => exact ⟨resolver, answers_pure session _, by simpa using h⟩
  | cons occurrence more ih =>
    obtain ⟨remembered, ⟨middle, hrun, hmiddle⟩, hremembered⟩ :=
      answers_refersTo h ⟨note, occurrence⟩
    have hsplit : before ++ (occurrence :: more).map (⟨note, ·⟩) =
        before ++ [⟨note, occurrence⟩] ++ more.map (⟨note, ·⟩) := by simp
    rw [← hmiddle.files] at hremembered
    obtain ⟨after, hmore, hafter⟩ := ih hremembered
    rw [hmiddle.files] at hmore hafter
    refine ⟨after, answers_of_run hrun hmiddle (answers_bind hmore fun last _ => ?_), ?_⟩
    · rw [hsplit, List.filter_cons, List.append_assoc _ _ rest, reports_append]
      simp only [List.append_assoc]
      split
      · exact answers_pure last _
      · exact answers_pure last _
    · rw [hsplit]
      exact hafter

/-- A search that has met no link remembers nothing. -/
theorem remembers_asked_nil (workspace : Workspace) (settings : Settings) (isFile : Path → Bool)
    (notes : List Path) (sought : Sought) :
    Resolver.Remembers (workspace.matcher settings) isFile notes (asked sought []) {} :=
  Resolver.remembers_nil

/-- Of the links of some notes those are found that are reported, unless it is cancelled. -/
theorem finds_placesIn (rest : List Path) {session : Session σ} {before : List PlacedLink}
    {resolver : Resolver}
    (h : Resolver.Remembers (workspace.matcher settings) (FileSystem.isFile session.files) notes
      (asked sought before) resolver) :
    (workspace.placesIn settings notes sought rest resolver).Finds session
      (((PlacedLink.ofNotes session.files rest).filter
        (workspace.reports settings (FileSystem.isFile session.files) notes sought
          (before ++ PlacedLink.ofNotes session.files rest))).map PlacedLink.place) := by
  induction rest generalizing session before resolver with
  | nil => exact finds_pure session _
  | cons note rest ih =>
    refine finds_unless_cancelled (finds_bind (answers_read note session) fun first hfirst => ?_)
    have hnotes : PlacedLink.ofNotes session.files (note :: rest) =
        (FileSystem.read session.files note).elim [] (PlacedLink.ofNote note) ++
          PlacedLink.ofNotes session.files rest := by
      simp [PlacedLink.ofNotes]
    rw [hnotes]
    rw [← hfirst.files] at h ⊢
    cases FileSystem.read first.files note with
    | none => exact ih h
    | some content =>
      obtain ⟨remembered, hranges, hremembered⟩ :=
        answers_rangesIn note (Link.scan content) (PlacedLink.ofNotes first.files rest) h
      refine finds_bind hranges fun second hsecond => ?_
      rw [← hsecond.files] at hremembered
      have hrest := finds_map (ih hremembered) (((Link.scan content).filter fun occurrence =>
        workspace.reports settings (FileSystem.isFile first.files) notes sought
          (before ++ (Link.scan content).map (⟨note, ·⟩) ++ PlacedLink.ofNotes first.files rest)
          ⟨note, occurrence⟩).map (fun occurrence => (note, occurrence.range)) ++ ·)
      rw [hsecond.files] at hrest
      simp only [Option.elim_some, PlacedLink.ofNote, List.filter_append, List.map_append,
        List.filter_map, List.map_map, List.append_assoc] at hrest ⊢
      exact hrest

end

section

variable {σ : Type} [FileSystem σ] {workspace : Workspace} {settings : Settings} {document : Path}
  {text : Text} {point : Point}

/-- What a search for references to a link looks for. -/
def soughtFor (workspace : Workspace) (settings : Settings) (isFile : Path → Bool)
    (notes : List Path) (document : Path) (link : Link) : Sought where
  text := link.text
  targets := match settings.convention with
    | .uniqueNames => []
    | .relativePaths =>
      (workspace.matcher settings).documentsOf isFile notes link.text document

/-- What the search for references to the link at a point comes to. -/
def referencesOutcome (workspace : Workspace) (settings : Settings) (document : Path)
    (text : Text) (point : Point) (files : σ) (index : NoteIndex) :
    Outcome σ (List (Path × TextRange)) :=
  match linkNaming? text point with
  | none => ⟨[], files, index⟩
  | some link =>
    let isFile := FileSystem.isFile files
    let notes := workspace.noteList settings files index
    let links := PlacedLink.ofNotes files notes
    ⟨(links.filter (workspace.reports settings isFile notes
        (workspace.soughtFor settings isFile notes document link) links)).map PlacedLink.place,
      files, workspace.keptIndex settings files index⟩

/-- Finds the documents that a search for references compares links with. -/
def findTargets (workspace : Workspace) (settings : Settings) (document : Path)
    (notes : List Path) (link : Link) : Action σ (List Path) :=
  match settings.convention with
  | .uniqueNames => return []
  | .relativePaths =>
    (workspace.matcher settings).documents isFile link.text (some document) notes

/-- What links are compared with is found by asking. -/
theorem answers_findTargets (notes : List Path) (link : Link) (session : Session σ) :
    (workspace.findTargets settings document notes link).Answers session
      (workspace.soughtFor settings (FileSystem.isFile session.files) notes document
        link).targets := by
  unfold findTargets soughtFor
  cases settings.convention with
  | uniqueNames => exact answers_pure session _
  | relativePaths => exact answers_documents _ _ _ _ session

/-- A search for references first finds what to compare links with. -/
theorem referencesFor_eq {link : Link} (hlink : linkNaming? text point = some link) :
    (workspace.referencesFor document text point settings : Action σ _) = (do
      let notes ← workspace.notes settings
      let targets ← workspace.findTargets settings document notes link
      return (← workspace.placesIn settings notes ⟨link.text, targets⟩ notes {}).getD []) := by
  unfold referencesFor findTargets
  rw [hlink]
  refine bind_congr fun notes => ?_
  cases settings.convention <;> rfl

/-- A search for references comes to its outcome, or to nothing when it is cancelled. -/
theorem comesTo_referencesFor (session : Session σ) :
    (workspace.referencesFor document text point settings).ComesTo session
      (workspace.referencesOutcome settings document text point session.files session.index)
      (workspace.keptIndex settings session.files session.index) (· = []) := by
  unfold referencesOutcome
  cases hlink : linkNaming? text point with
  | none =>
    simp only [referencesFor, hlink]
    exact comesTo_of_answers (answers_pure session _)
  | some link =>
    rw [referencesFor_eq hlink]
    refine comesTo_notes (fun middle hfiles hindex => ?_) fun middle _ => ?_
    · refine comesTo_bind (answers_findTargets _ link middle) fun after hafter => ?_
      rw [← hindex, ← hfiles, ← hafter.files, ← hafter.index]
      have hfinds := finds_placesIn (workspace.noteList settings after.files session.index)
        (workspace.remembers_asked_nil settings (FileSystem.isFile after.files)
          (workspace.noteList settings after.files session.index)
          (workspace.soughtFor settings (FileSystem.isFile after.files)
            (workspace.noteList settings after.files session.index) document link))
      rw [List.nil_append] at hfinds
      exact comesTo_of_finds hfinds rfl
    · refine ⟨[], answers_bind (answers_findTargets _ link middle) fun after _ => ?_, rfl⟩
      exact answers_pure after []

/-- A search that nobody cancels reports links of the known notes that can be read. -/
theorem referencesFor_run {link : Link} {session : Session σ}
    (hlink : linkNaming? text point = some link) (hquiet : session.token.Quiet) :
    let isFile := FileSystem.isFile session.files
    let notes := workspace.noteList settings session.files session.index
    let links := PlacedLink.ofNotes session.files notes
    ((workspace.referencesFor document text point settings).run session).1 =
      (links.filter (workspace.reports settings isFile notes
        (workspace.soughtFor settings isFile notes document link) links)).map
          PlacedLink.place := by
  rw [((comesTo_referencesFor session).ends hquiet).1]
  simp only [referencesOutcome, hlink]

/-- A link is reported at its place and no other link is. -/
theorem place_mem_iff {files : σ} {notes : List Path} {link : PlacedLink}
    (hlink : link ∈ PlacedLink.ofNotes files notes) (reported : PlacedLink → Bool) :
    link.place ∈ ((PlacedLink.ofNotes files notes).filter reported).map PlacedLink.place ↔
      reported link = true := by
  constructor
  · intro h
    obtain ⟨other, hother, hplace⟩ := List.mem_map.mp h
    obtain ⟨hmem, hreported⟩ := List.mem_filter.mp hother
    rwa [← PlacedLink.eq_of_place_eq hmem hlink hplace]
  · exact fun h => List.mem_map_of_mem (List.mem_filter.mpr ⟨hlink, h⟩)

/-- Under relative paths every place that is reported for a link is that of a link to one of its
documents, exactly if this holds of the links that are named alike, and of those whose remembered
answer shares a document. -/
theorem referencesFor_share_iff {link : Link} {session : Session σ}
    (hlink : linkNaming? text point = some link)
    (hconv : settings.convention = .relativePaths) (hquiet : session.token.Quiet) :
    let isFile := FileSystem.isFile session.files
    let notes := workspace.noteList settings session.files session.index
    let links := PlacedLink.ofNotes session.files notes
    let targets := (workspace.matcher settings).documentsOf isFile notes link.text document
    (∀ place ∈ ((workspace.referencesFor document text point settings).run session).1,
      ∃ other ∈ links, other.place = place ∧
        shares (workspace.documentsAt settings isFile notes other) targets = true) ↔
    ∀ other ∈ links,
      (namesMatch other.occurrence.text link.text = true →
        shares (workspace.documentsAt settings isFile notes other) targets = true) ∧
      (namesMatch other.occurrence.text link.text = false →
        shares (Resolver.fresh (workspace.matcher settings) isFile notes
          (Resolver.leader (workspace.matcher settings) (asked ⟨link.text, targets⟩ links)
            other.query)) targets = true →
        shares (workspace.documentsAt settings isFile notes other) targets = true) := by
  intro isFile notes links targets
  have hsought : workspace.soughtFor settings isFile notes document link =
      ⟨link.text, targets⟩ := by
    simp only [soughtFor, hconv, targets]
  rw [referencesFor_run hlink hquiet, hsought]
  constructor
  · intro h other hother
    have hshares : workspace.reports settings isFile notes ⟨link.text, targets⟩ links other =
        true → shares (workspace.documentsAt settings isFile notes other) targets = true :=
      fun hreports => by
        obtain ⟨same, hsame, hplace, hdocuments⟩ := h other.place
          ((place_mem_iff hother _).mpr hreports)
        rwa [PlacedLink.eq_of_place_eq hsame hother hplace] at hdocuments
    refine ⟨fun hname => hshares ?_, fun hname hremembered => hshares ?_⟩
    · simp only [reports, hname, Bool.true_or]
    · simp only [reports, hname, hremembered, Bool.or_true]
  · intro h place hplace
    obtain ⟨other, hother, rfl⟩ := List.mem_map.mp hplace
    obtain ⟨hmem, hreports⟩ := List.mem_filter.mp hother
    refine ⟨other, hmem, rfl, ?_⟩
    cases hname : namesMatch other.occurrence.text link.text with
    | true => exact (h other hmem).1 hname
    | false =>
      simp only [reports, hname, Bool.false_or] at hreports
      exact (h other hmem).2 hname hreports

/-- A link from another directory that spells the path of the note is reported. -/
theorem referencesFor_share_other_directory :
    let workspace : Workspace := ⟨⟨"/ws".toList⟩⟩
    let settings : Settings := { convention := .relativePaths }
    let index : Path := ⟨"/ws/a/index.md".toList⟩
    let note : Path := ⟨"/ws/a/note.md".toList⟩
    let other : Path := ⟨"/ws/b/other.md".toList⟩
    let session : Session MemoryFiles :=
      { files := { files := [(index, some "[[note]]".toList), (note, some []),
          (other, some "[[../a/note]]".toList)] }
        index := ({} : NoteIndex).store 0 [index, note, other] }
    ∀ place ∈ ((workspace.referencesFor index "[[note]]".toList ⟨0, 3⟩ settings).run session).1,
      ∃ link ∈ PlacedLink.ofNotes session.files [index, note, other], link.place = place ∧
        shares (workspace.documentsAt settings (FileSystem.isFile session.files)
          [index, note, other] link) [note] = true := by
  intro workspace settings index note other session
  have hlink : linkNaming? "[[note]]".toList ⟨0, 3⟩ = some ⟨"note".toList, .onLine 0 2 6⟩ := by
    decide +kernel
  have hquiet : session.token.Quiet := Token.quiet_new
  have hshare := @referencesFor_share_iff MemoryFiles _ workspace settings index _ _ _ session
    hlink rfl hquiet
  have hnotes : workspace.noteList settings session.files session.index = [index, note, other] :=
    rfl
  have htargets : (workspace.matcher settings).documentsOf (FileSystem.isFile session.files)
      [index, note, other] "note".toList index = [note] := by decide +kernel
  simp only [hnotes, htargets] at hshare
  exact hshare.mpr (by decide +kernel)

/-- A link with the same text in another directory is reported, although it leads to another
note. -/
theorem referencesFor_not_share_of_same_text :
    let workspace : Workspace := ⟨⟨"/ws".toList⟩⟩
    let settings : Settings := { convention := .relativePaths }
    let index : Path := ⟨"/ws/a/index.md".toList⟩
    let note : Path := ⟨"/ws/a/note.md".toList⟩
    let otherNote : Path := ⟨"/ws/b/note.md".toList⟩
    let other : Path := ⟨"/ws/b/other.md".toList⟩
    let notes : List Path := [index, note, otherNote, other]
    let session : Session MemoryFiles :=
      { files := { files := [(index, some "[[note]]".toList), (note, some []),
          (otherNote, some []), (other, some "[[note]]".toList)] }
        index := ({} : NoteIndex).store 0 notes }
    let isFile := FileSystem.isFile session.files
    let matcher := workspace.matcher settings
    ((workspace.referencesFor index "[[note]]".toList ⟨0, 3⟩ settings).run session).1 =
        [(index, .onLine 0 0 8), (other, .onLine 0 0 8)] ∧
      matcher.documentsOf isFile notes "note".toList index = [note] ∧
      matcher.documentsOf isFile notes "note".toList other = [otherNote] := by
  decide +kernel

/-- Under unique names no link to a document of a link to known notes is missed, exactly if no link
leads to one of these notes by its literal path. -/
theorem referencesFor_complete_iff {link : Link} {session : Session σ}
    (hlink : linkNaming? text point = some link)
    (hconv : settings.convention = .uniqueNames) (hquiet : session.token.Quiet)
    (hknown : (workspace.matcher settings).knownNotes link.text (some document)
      (workspace.noteList settings session.files session.index) ≠ []) :
    let isFile := FileSystem.isFile session.files
    let notes := workspace.noteList settings session.files session.index
    let links := PlacedLink.ofNotes session.files notes
    let targets := (workspace.matcher settings).documentsOf isFile notes link.text document
    (∀ other ∈ links, trim other.occurrence.text ≠ [] →
      shares (workspace.documentsAt settings isFile notes other) targets = true →
      other.place ∈
        ((workspace.referencesFor document text point settings).run session).1) ↔
    ∀ other ∈ links,
      (workspace.matcher settings).knownNotes other.occurrence.text (some other.note) notes = [] →
      shares (workspace.documentsAt settings isFile notes other) targets = false := by
  intro isFile notes links targets
  have hmatcher : (workspace.matcher settings).convention = .uniqueNames := hconv
  have hblank : trim link.text ≠ [] := by
    simpa using (Option.filter_eq_some_iff.mp hlink).2
  have htargets : targets = notes.filter (basenameMatches · link.text) :=
    Matcher.documentsOf_of_uniqueNames hmatcher hblank hknown
  have hplace : ∀ other ∈ links, other.place ∈
      ((workspace.referencesFor document text point settings).run session).1 ↔
        namesMatch other.occurrence.text link.text = true := fun other hother => by
    rw [referencesFor_run hlink hquiet, place_mem_iff hother]
    simp [reports, soughtFor, hconv, shares_nil]
  constructor
  · intro h other hother hnone
    by_contra hshares
    rw [Bool.not_eq_false] at hshares
    obtain ⟨path, hpath, -⟩ := List.any_eq_true.mp hshares
    have hname := (hplace other hother).mp
      (h other hother (Matcher.of_mem_documentsOf hpath).1 hshares)
    -- A link that is named alike has the known notes of the other one.
    refine hknown ?_
    rw [Matcher.knownNotes_of_uniqueNames hmatcher] at hnone ⊢
    rw [← hnone]
    exact List.filter_congr fun note _ => (basenameMatches_congr hname note).symm
  · intro h other hother htext hshares
    have hnames : (workspace.matcher settings).knownNotes other.occurrence.text (some other.note)
        notes ≠ [] := fun hnone => by
      rw [h other hother hnone] at hshares
      cases hshares
    have hfound : workspace.documentsAt settings isFile notes other =
        notes.filter (basenameMatches · other.occurrence.text) :=
      Matcher.documentsOf_of_uniqueNames hmatcher htext hnames
    rw [hfound, htargets] at hshares
    exact (hplace other hother).mpr (namesMatch_of_shares hshares)

/-- Links with other spellings of the file name are not missed. -/
theorem referencesFor_complete_spellings :
    let workspace : Workspace := ⟨⟨"/ws".toList⟩⟩
    let index : Path := ⟨"/ws/index.md".toList⟩
    let note : Path := ⟨"/ws/sub/My note.md".toList⟩
    let content : Text := "[[my note]] [[My-Note.md]]".toList
    let session : Session MemoryFiles :=
      { files := { files := [(index, some content), (note, some [])] }
        index := ({} : NoteIndex).store 0 [index, note] }
    ∀ other ∈ PlacedLink.ofNotes session.files [index, note],
      trim other.occurrence.text ≠ [] →
      shares (workspace.documentsAt {} (FileSystem.isFile session.files) [index, note] other)
        [note] = true →
      other.place ∈ ((workspace.referencesFor index content ⟨0, 3⟩ {}).run session).1 := by
  intro workspace index note content session
  have hlink : linkNaming? content ⟨0, 3⟩ = some ⟨"my note".toList, .onLine 0 2 9⟩ := by
    decide +kernel
  have hquiet : session.token.Quiet := Token.quiet_new
  have hcomplete := @referencesFor_complete_iff MemoryFiles _ workspace {} index _ _ _ session
    hlink rfl hquiet (by decide +kernel)
  have hnotes : workspace.noteList {} session.files session.index = [index, note] := rfl
  have htargets : (workspace.matcher {}).documentsOf (FileSystem.isFile session.files)
      [index, note] "my note".toList index = [note] := by decide +kernel
  simp only [hnotes, htargets] at hcomplete
  exact hcomplete.mpr (by decide +kernel)

/-- A link that leads to the note by its literal path is missed. -/
theorem referencesFor_misses_literal_path :
    let workspace : Workspace := ⟨⟨"/ws".toList⟩⟩
    let index : Path := ⟨"/ws/index.md".toList⟩
    let note : Path := ⟨"/ws/sub/note.md".toList⟩
    let content : Text := "[[note]] [[sub/note.md]]".toList
    let session : Session MemoryFiles :=
      { files := { files := [(index, some content), (note, some [])] }
        index := ({} : NoteIndex).store 0 [index, note] }
    let isFile := FileSystem.isFile session.files
    let matcher := workspace.matcher {}
    ((workspace.referencesFor index content ⟨0, 3⟩ {}).run session).1 =
        [(index, .onLine 0 0 8)] ∧
      matcher.knownNotes "note".toList (some index) [index, note] = [note] ∧
      matcher.documentsOf isFile [index, note] "note".toList index = [note] ∧
      matcher.documentsOf isFile [index, note] "sub/note.md".toList index = [note] ∧
      ⟨.onLine 0 9 24, "sub/note.md".toList⟩ ∈ Link.scan content := by
  decide +kernel

end

end Workspace
end LinkedNotes
