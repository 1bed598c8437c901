import LinkedNotes.Proofs.Workspace.Confinement
import LinkedNotes.Server.Dispatch

/-!
# What commands do

A command reads its arguments, then creates a note, then may ask the client to put a link in place
of the selection, and answers with the URI of the note at last. Main statement: where the root of
the workspace is absolute, a command that is refused has changed nothing, and one that is not
refused has its note. What the client does with the link, and commands that it takes back while they
run, are outside this module.
-/

namespace LinkedNotes

variable {σ : Type} [FileSystem σ]

/-! ## Absolute paths -/

namespace Uri

/-- A character that begins no escape stands for its octets. -/
theorem octets_cons {c : Char} (hc : c ≠ '%') (rest : Text) :
    octets (c :: rest) = String.utf8EncodeChar c ++ octets rest := by
  rw [octets]
  rintro a b more rfl
  exact absurd rfl hc

/-- A text keeps its first character when its escapes are read, unless an escape comes first. -/
theorem head?_of_unescape?_eq_some {text plain : Text} {c : Char} (hc : c ≠ '%')
    (htext : text.head? = some c) (h : unescape? text = some plain) : plain.head? = some c := by
  obtain ⟨rest, rfl⟩ := List.head?_eq_some_iff.mp htext
  obtain ⟨decoded, hdecoded, rfl⟩ := Option.map_eq_some_iff.mp h
  have hbytes : decoded.toByteArray = (octets (c :: rest)).toByteArray := by
    unfold String.fromUTF8? at hdecoded
    split at hdecoded
    · cases hdecoded
      exact (ByteArray.ext List.data_toByteArray).symm
    · cases hdecoded
  have hfirst : decoded.toByteArray.utf8DecodeChar? 0 = some c := by
    rw [hbytes, octets_cons hc, List.toByteArray_append, ← List.utf8Encode_singleton,
      List.utf8DecodeChar?_utf8Encode_singleton_append]
  rw [← String.utf8Encode_toList] at hfirst
  cases hlist : decoded.toList with
  | nil =>
    rw [hlist] at hfirst
    cases hfirst
  | cons first more =>
    rw [hlist, List.utf8DecodeChar?_utf8Encode_cons] at hfirst
    rw [List.head?_cons, hfirst]

/-- A slash after a drive stands at the end. -/
theorem exists_closeDrive_eq (path : Text) : ∃ rest, closeDrive path = path ++ rest := by
  unfold closeDrive
  split
  · split
    · exact ⟨_, rfl⟩
    · exact ⟨[], (List.append_nil path).symm⟩
  · exact ⟨[], (List.append_nil path).symm⟩

/-- A URI stands for an absolute path, if for any. -/
theorem isAbsolute_of_toPath?_eq_some {uri : Uri} {path : Path} (h : uri.toPath? = some path) :
    path.isAbsolute = true := by
  unfold toPath? at h
  split at h
  · next hlocal =>
    obtain ⟨plain, hplain, rfl⟩ := Option.map_eq_some_iff.mp h
    have hslash : uri.path.head? = some '/' := by simpa using (Bool.and_eq_true_iff.mp hlocal).2
    have hfirst := head?_of_unescape?_eq_some (by decide) hslash hplain
    obtain ⟨rest, hrest⟩ := exists_closeDrive_eq plain
    simp [Path.isAbsolute, hrest, hfirst]
  · cases h

end Uri

/-- The directory of new notes is absolute if the root of the workspace is. -/
theorem NoteDirectory.isAbsolute_resolve (policy : NoteDirectory) {root : Path}
    {active : Option Path} (hroot : root.isAbsolute = true)
    (hactive : ∀ document, active = some document → document.isAbsolute = true) :
    (policy.resolve root active).isAbsolute = true := by
  cases policy with
  | besideActive =>
    unfold resolve
    cases hdir : active.bind Path.parent? with
    | none => exact hroot
    | some dir =>
      obtain ⟨document, hdocument, hparent⟩ := Option.bind_eq_some_iff.mp hdir
      exact Path.isAbsolute_parent? (hactive document hdocument) hparent
  | workspaceRoot => exact hroot
  | inside path => exact Path.isAbsolute_join hroot _

/-! ## New notes -/

namespace Workspace

open Creation

/-- How a note is made at a path: its file was there, or it is created. -/
structure Makes (files : σ) (path : Path) (note : NewNote) (after : σ) : Prop where
  /-- It is at this path. -/
  path : note.path = path
  /-- The file is there. -/
  present : FileSystem.isFile after note.path = true
  /-- It is created exactly if no file was there. -/
  created : note.created = true ↔ FileSystem.isFile files note.path = false
  /-- If it was there, no file has changed. -/
  untouched : FileSystem.isFile files note.path = true → after = files

/-- A note with a title is made, or nothing changes. -/
theorem newNote_run_cases (workspace : Workspace) (title : Text) (active : Option Path)
    (settings : Settings) (now : Moment) (session : Session σ)
    (hkeeps : FileSystem.CreatesOrKeeps session.files)
    (hshows : FileSystem.ShowsCreated session.files) :
    let run := (workspace.newNote title active settings now).run session
    (∃ error, run.1 = .error error ∧ run.2.files = session.files ∧
        run.2.index = session.index) ∨
      ∃ note, run.1 = .ok note ∧
        Makes session.files (workspace.newPath settings title active now) note run.2.files := by
  intro run
  obtain ⟨answer, after, hrun, -, hcases⟩ :=
    (workspace.newNotePlan title active settings now).comesTo_perform session session.index
  have hends : run = (answer, after) := (congrArg (·.run session) (newNote_eq ..)).trans hrun
  rw [hends]
  rcases hcases with ⟨hanswer, hfiles, hindex⟩ | ⟨-, hvoid, hfiles, hindex⟩
  · simp only [hanswer, hfiles, hindex]
    rcases workspace.newNotePlan_cases title active settings now with
      ⟨error, hplan⟩ | ⟨-, content, linkText, hplan⟩
    · rw [hplan]
      exact .inl ⟨error, rfl, rfl, rfl⟩
    · rw [hplan]
      simp only [Plan.outcome]
      rcases written_cases hkeeps (workspace.newPath settings title active now) content
          session.index with
        ⟨hpresent, hwritten⟩ | ⟨message, hwritten⟩ | ⟨files, habsent, hmade, hwritten⟩
      · rw [hwritten]
        refine .inr ⟨_, rfl, rfl, hpresent, ?_, fun _ => rfl⟩
        simp [hpresent]
      · rw [hwritten]
        exact .inl ⟨_, rfl, rfl, rfl⟩
      · rw [hwritten]
        refine .inr ⟨_, rfl, rfl, hshows _ _ _ hmade, ?_, fun hpresent => ?_⟩
        · simp [habsent]
        · exact absurd (habsent.symm.trans hpresent) Bool.false_ne_true
  · exact .inl ⟨.cancelled, hvoid, hfiles, hindex.elim id id⟩

end Workspace

/-! ## Commands -/

namespace Server

/-- A note that a command asks for. -/
structure Order where
  /-- Its title. -/
  title : Text
  /-- The document next to which it may go. -/
  active : Option Path
  /-- The range of a document whose text the link to it takes the place of. -/
  replaced : Option (Uri × TextRange)

/-- What a command with its arguments asks for. -/
inductive Asks (server : Server σ) : Text → List Json → Order → Prop where
  /-- A note with the given title. -/
  | title {arguments : List Json} {title : Text} {active : Option Path}
    (htitle : argument arguments 0 "title" Json.readText = .ok title)
    (hactive : documentArgument arguments 1 = .ok active) :
    Asks server newNoteCommand arguments ⟨title, active, none⟩
  /-- A note whose title is the selected text, and a link in its place. -/
  | selection {arguments : List Json} {document : Uri} {range : TextRange} {title : Text}
    (hdocument : argument arguments 0 "uri" Json.readUri = .ok document)
    (hrange : argument arguments 1 "range" Json.readRange = .ok range)
    (htitle : selection server document range = .ok title) :
    Asks server newNoteFromSelectionCommand arguments
      ⟨title, document.toPath?, some (document, range)⟩

/-- Creates the note that a command asks for, and tells about it. -/
def deliver (now : Moment) (order : Order) : Handler σ (Except Fault Answer) := do
  match ← createNote now order.title order.active with
  | .error fault => return .error fault
  | .ok note =>
    order.replaced.forM fun (document, range) => send (.replace document range note.linkText)
    return noteAnswer note

variable {server after : Server σ} {command : Text} {arguments : List Json} {order : Order}
  {workspace : Workspace}

/-- What could be read is gone on with. -/
theorem ok_bind {ε α β : Type} (value : α) (next : α → Except ε β) :
    (Except.ok value >>= next) = next value :=
  rfl

/-- What was gone on with could be read. -/
theorem of_bind_eq_ok {ε α β : Type} {value : Except ε α} {next : α → Except ε β} {final : β}
    (h : (value >>= next) = .ok final) : ∃ first, value = .ok first ∧ next first = .ok final := by
  cases value with
  | error fault => cases h
  | ok first => exact ⟨first, rfl, h⟩

/-- A command is refused at once, or asks for a note that is then delivered. -/
theorem execute_run_cases (now : Moment) (server : Server σ) (command : Text)
    (arguments : List Json) :
    (∃ fault, (execute now command arguments).run server = (.error fault, server)) ∨
      ∃ order, Asks server command arguments order ∧
        (execute now command arguments).run server = (deliver now order).run server := by
  unfold execute
  split
  · next hcommand =>
    subst hcommand
    unfold newNote
    cases htitle : argument arguments 0 "title" Json.readText with
    | error fault => exact .inl ⟨fault, rfl⟩
    | ok title =>
      cases hactive : documentArgument arguments 1 with
      | error fault => exact .inl ⟨fault, rfl⟩
      | ok active =>
        refine .inr ⟨_, .title htitle hactive, ?_⟩
        refine congrArg (StateT.run · server) (bind_congr fun made => ?_)
        cases made <;> rfl
  · split
    · next hcommand =>
      subst hcommand
      unfold newNoteFromSelection
      cases hdocument : argument arguments 0 "uri" Json.readUri with
      | error fault => exact .inl ⟨fault, rfl⟩
      | ok document =>
        cases hrange : argument arguments 1 "range" Json.readRange with
        | error fault => exact .inl ⟨fault, rfl⟩
        | ok range =>
          simp only [StateT.run_bind, StateT.run_get, pure_bind, ok_bind]
          cases htitle : selection server document range with
          | error fault => exact .inl ⟨fault, rfl⟩
          | ok title =>
            refine .inr ⟨_, .selection hdocument hrange htitle, ?_⟩
            refine congrArg (StateT.run · server) (bind_congr fun made => ?_)
            cases made <;> rfl
    · exact .inl ⟨_, rfl⟩

/-- The document that a command names is absolute. -/
theorem Asks.isAbsolute (h : Asks server command arguments order) :
    ∀ document, order.active = some document → document.isAbsolute = true := by
  intro document hdocument
  cases h with
  | title htitle hactive =>
    have hgiven : documentArgument arguments 1 = .ok (some document) := hdocument ▸ hactive
    unfold documentArgument at hgiven
    split at hgiven
    · cases hgiven
    · cases hgiven
    · cases huri : argument arguments 1 "uri" Json.readUri with
      | error fault =>
        rw [huri] at hgiven
        cases hgiven
      | ok uri =>
        rw [huri] at hgiven
        exact Uri.isAbsolute_of_toPath?_eq_some (Except.ok.inj hgiven)
  | selection huri hrange htitle => exact Uri.isAbsolute_of_toPath?_eq_some hdocument

omit [FileSystem σ] in
/-- An operation of the workspace only changes the files and the note index. -/
theorem perform_run {α : Type} {action : Action σ α} {result : α} {session : Session σ}
    (h : action.run { files := server.files, index := server.index } = (result, session)) :
    (perform action).run server =
      (result, { server with files := session.files, index := session.index }) := by
  unfold perform
  simp only [StateT.run] at h ⊢
  rw [h]

/-- A command creates its note as the workspace does. -/
theorem createNote_run (hworkspace : server.workspace = some workspace) {now : Moment}
    {title : Text} {active : Option Path} {made : Except NoteError Workspace.NewNote}
    {session : Session σ}
    (h : (workspace.newNote title active server.settings.notes now).run
      { files := server.files, index := server.index } = (made, session)) :
    (createNote now title active).run server =
      (made.mapError .note, { server with files := session.files, index := session.index }) := by
  unfold createNote
  simp only [StateT.run_bind, StateT.run_get, pure_bind]
  split
  · next hnone => cases hnone.symm.trans hworkspace
  · next other hother =>
    obtain rfl : other = workspace := Option.some.inj (hother.symm.trans hworkspace)
    rw [StateT.run_bind, perform_run h]
    cases made <;> rfl

/-- What a command leaves that has its note made at a path. -/
structure Delivered (server : Server σ) (order : Order) (path : Path) (note : Workspace.NewNote)
    (after : Server σ) : Prop where
  /-- The note is made. -/
  makes : Workspace.Makes server.files path note after.files
  /-- Nothing is sent but the request to put the link in its place, if it has one. -/
  sent : after.sent = server.sent ++
    (order.replaced.map fun (document, range) => .replace document range note.linkText).toList

/-- The note that a command asks for is delivered and has a URI, or nothing changes. -/
theorem deliver_run_cases (hworkspace : server.workspace = some workspace)
    (hroot : workspace.root.isAbsolute = true)
    (hactive : ∀ document, order.active = some document → document.isAbsolute = true)
    (hkeeps : FileSystem.CreatesOrKeeps server.files)
    (hshows : FileSystem.ShowsCreated server.files) (now : Moment) :
    let path := workspace.newPath server.settings.notes order.title order.active now
    (∃ fault, (deliver now order).run server = (.error fault, server)) ∨
      ∃ note uri after, (deliver now order).run server = (.ok (.note uri note.created), after) ∧
        Uri.ofPath? path = some uri ∧ Delivered server order path note after := by
  intro path
  rcases hrun : (workspace.newNote order.title order.active server.settings.notes now).run
    { files := server.files, index := server.index } with ⟨made, session⟩
  have hcreate := createNote_run hworkspace hrun
  have hcases := workspace.newNote_run_cases order.title order.active server.settings.notes now
    { files := server.files, index := server.index } hkeeps hshows
  rw [hrun] at hcases
  rcases hcases with ⟨error, hmade, hfiles, hindex⟩ | ⟨note, hmade, hmakes⟩
  · obtain rfl : made = .error error := hmade
    have hsame : { server with files := session.files, index := session.index } = server := by
      rw [hfiles, hindex]
    refine .inl ⟨.note error, ?_⟩
    rw [deliver, StateT.run_bind, hcreate, hsame]
    rfl
  · obtain rfl : made = .ok note := hmade
    -- After the note is made, the command could only still fail for want of a URI.
    have habsolute : path.isAbsolute = true :=
      Path.isAbsolute_join (NoteDirectory.isAbsolute_resolve _ hroot hactive) _
    obtain ⟨uri, huri⟩ : ∃ uri, Uri.ofPath? path = some uri := by
      rw [Uri.ofPath?, if_pos habsolute]
      exact ⟨_, rfl⟩
    have hanswer : noteAnswer note = .ok (.note uri note.created) := by
      rw [noteAnswer, hmakes.path, huri]
    refine .inr ⟨note, uri, { server with
      files := session.files
      index := session.index
      sent := server.sent ++ (order.replaced.map fun (document, range) =>
        .replace document range note.linkText).toList }, ?_, huri, hmakes, rfl⟩
    rw [deliver, StateT.run_bind, hcreate, ← hanswer]
    cases order.replaced with
    | none => simp only [Option.map_none, Option.toList_none, List.append_nil]; rfl
    | some place => rfl

/-- The method of commands. -/
def commandMethod : Text :=
  "workspace/executeCommand".toList

/-- Only commands are read as requests of their method. -/
theorem of_readRequest_commandMethod {params : Option Json} {phase : Phase} {asked : Request}
    (h : readRequest commandMethod params phase = .ok asked) :
    ∃ command arguments, asked = .execute command arguments := by
  have hread : Request.ofMethod? commandMethod = some (withParams fun params => do
      let arguments ← readArguments params
      return .execute (← Json.required "command" Json.readText params) arguments) := rfl
  unfold readRequest at h
  rw [hread] at h
  split at h
  · cases h
  · cases h
  · next read hsome _ =>
    cases hsome
    unfold withParams at h
    split at h
    · cases h
    · next given =>
      split at h
      · next value hvalue =>
        cases h
        obtain ⟨arguments, -, hrest⟩ := of_bind_eq_ok hvalue
        obtain ⟨command, -, hexecute⟩ := of_bind_eq_ok hrest
        exact ⟨command, arguments, (Except.ok.inj hexecute).symm⟩
      · cases h

/-- A command of any name with any arguments, in a workspace whose root is absolute, is refused with
nothing changed, or has the note that it asks for, created if it was not there, and the URI of the
note for an answer. -/
theorem request_command_refused_or_delivered {result : Except Fault Answer}
    (hworkspace : server.workspace = some workspace) (hroot : workspace.root.isAbsolute = true)
    (hkeeps : FileSystem.CreatesOrKeeps server.files)
    (hshows : FileSystem.ShowsCreated server.files) (now : Moment) (params : Option Json)
    (h : (request now commandMethod params).run server = (result, after)) :
    (∃ fault, result = .error fault ∧ after = server) ∨
      ∃ command arguments order note uri,
        readRequest commandMethod params server.phase = .ok (.execute command arguments) ∧
          Asks server command arguments order ∧ result = .ok (.note uri note.created) ∧
          let path := workspace.newPath server.settings.notes order.title order.active now
          Uri.ofPath? path = some uri ∧ Delivered server order path note after := by
  unfold request at h
  simp only [StateT.run_bind, StateT.run_get, pure_bind] at h
  cases hread : readRequest commandMethod params server.phase with
  | error fault =>
    rw [hread] at h
    cases h
    exact .inl ⟨fault, rfl, rfl⟩
  | ok asked =>
    obtain ⟨command, arguments, rfl⟩ := of_readRequest_commandMethod hread
    rw [hread] at h
    have hexecute : (execute now command arguments).run server = (result, after) := h
    rcases execute_run_cases now server command arguments with
      ⟨fault, hrefused⟩ | ⟨order, hasks, hdeliver⟩
    · cases hrefused.symm.trans hexecute
      exact .inl ⟨fault, rfl, rfl⟩
    · rw [hdeliver] at hexecute
      rcases deliver_run_cases hworkspace hroot hasks.isAbsolute hkeeps hshows now with
        ⟨fault, hrefused⟩ | ⟨note, uri, told, hrun, huri, hdelivered⟩
      · cases hrefused.symm.trans hexecute
        exact .inl ⟨fault, rfl, rfl⟩
      · cases hrun.symm.trans hexecute
        exact .inr ⟨command, arguments, order, note, uri, rfl, hasks, rfl, huri, hdelivered⟩

/-- A selection becomes the title of a note next to its document, and a link to the note takes its
place. -/
theorem request_command_refused_or_delivered_selection :
    let document : Uri := ⟨"file".toList, some [], "/ws/x.md".toList, []⟩
    let range : TextRange := .onLine 0 2 10
    let workspace : Workspace := ⟨⟨"/ws".toList⟩⟩
    let server : Server MemoryFiles :=
      { files := { files := [] }, phase := .running, workspace := some workspace
        documents := { texts := [(document, "a New Idea b".toList)] } }
    let arguments : Json := .arr
      [.str document.toText, .arr [.arr [.int 0, .int 2], .arr [.int 0, .int 10]]]
    let params : Json := .obj
      [("command".toList, .str newNoteFromSelectionCommand), ("arguments".toList, arguments)]
    let now : Moment := ⟨2024, 5, 6, 7, 8, 9, 0, 0⟩
    let run := (request now commandMethod (some params)).run server
    (∃ command arguments order note, Asks server command arguments order ∧
        Delivered server order
          (workspace.newPath server.settings.notes order.title order.active now) note run.2) ∧
      run.2.sent = [.replace document range "[[New Idea]]".toList] ∧
      FileSystem.isFile run.2.files ⟨"/ws/new-idea.md".toList⟩ = true := by
  intro document range workspace server arguments params now run
  have hok : run.1.toOption.isSome = true := by decide +kernel
  refine ⟨?_, by decide +kernel, by decide +kernel⟩
  rcases hrun : (request now commandMethod (some params)).run server with ⟨result, after⟩
  have hends : run = (result, after) := hrun
  rw [hends] at hok ⊢
  rcases request_command_refused_or_delivered (rfl : server.workspace = some workspace) (by decide)
      (MemoryFiles.createsOrKeeps server.files) (MemoryFiles.showsCreated server.files) now
      (some params) hrun with
    ⟨fault, rfl, -⟩ | ⟨command, given, order, note, uri, -, hasks, -, -, hdelivered⟩
  · cases hok
  · exact ⟨command, given, order, note, hasks, hdelivered⟩

end Server

end LinkedNotes
