import LinkedNotes.Proofs.Files.Laws
import LinkedNotes.Proofs.Workspace.Freshness
import LinkedNotes.Rank.Scale
import LinkedNotes.Server.Commands
import LinkedNotes.Server.Notices
import LinkedNotes.Server.Questions

/-!
# Questions amid changes of the settings

A question loads the settings and does its work later. A change of the settings first puts them in
force and later starts a new generation of the list of notes. Main statement: after such a change,
and until the files or the settings change again, every question that loads the settings works on
the notes that these settings give, if and only if no question from before leaves another list to be
served when it does its work at once. Questions that are cancelled are outside this module.
-/

namespace LinkedNotes

variable {σ : Type}

namespace Server

/-- Whether two servers differ at most in what they have sent. -/
def Alike (first second : Server σ) : Prop :=
  first = { second with sent := first.sent }

/-- What comes after an operation and only sends something does not matter. -/
theorem alike_run_bind {α β : Type} {action : Handler σ α} {next : α → Handler σ β}
    {server : Server σ} (h : ∀ result after, ((next result).run after).2.Alike after) :
    ((action >>= next).run server).2.Alike (action.run server).2 :=
  h _ _

end Server

variable [FileSystem σ]

/-- What the server is asked that needs the settings of the workspace. -/
inductive Question where
  /-- The notes that may complete the link at a point. -/
  | completion (uri : Uri) (point : Point)
  /-- Where the link at a point leads. -/
  | definition (uri : Uri) (point : Point)
  /-- The links that lead where the link at a point leads. -/
  | references (uri : Uri) (point : Point)
  /-- A new note with a title. -/
  | newNote (title : Text) (active : Option Path) (now : Moment)

/-- A question with all that it took from the server when it came. -/
structure Loaded where
  /-- The workspace. -/
  workspace : Workspace
  /-- The settings that were in force. -/
  settings : Settings
  /-- The request to the workspace. -/
  request : Request

/-- What a question takes from the server, unless its document is unknown or there is no
workspace. -/
def Question.load? (server : Server σ) : Question → Option Loaded
  | completion uri point => (server.context? uri).map fun context =>
    ⟨context.workspace, context.settings, .completions context.document context.text point⟩
  | definition uri point => (server.context? uri).map fun context =>
    ⟨context.workspace, context.settings, .definitions context.document context.text point⟩
  | references uri point => (server.context? uri).map fun context =>
    ⟨context.workspace, context.settings, .references context.document context.text point⟩
  | newNote title active now => server.workspace.map fun workspace =>
    ⟨workspace, server.settings.notes, .newNote title active now⟩

/-- Does the work of a question. -/
def Loaded.work (loaded : Loaded) : Handler σ (Reply Float) :=
  Server.perform (loaded.request.perform loaded.workspace loaded.settings)

/-- The notes that are known to a question when it does its work now. -/
def RequestContext.notes (context : RequestContext) (server : Server σ) : List Path :=
  ((context.workspace.notes context.settings).run
    { files := server.files, index := server.index }).1

/-- A server with the questions that have not done their work. -/
structure Traffic (σ : Type) where
  /-- The server. -/
  server : Server σ
  /-- The questions that wait, in the order in which they came. -/
  waiting : List Loaded := []

/-- A step of a question, of a change of the settings, or of something else that starts a new
generation of the list of notes. -/
inductive Move where
  /-- A question comes and loads what it needs. -/
  | load (question : Question)
  /-- One of the questions that wait does its work. -/
  | work (place : Nat)
  /-- Settings are laid over those in force, unless they do not fit. -/
  | store (overrides : Json)
  /-- A new generation of the list of notes is started. -/
  | drop

namespace Traffic

/-- Takes a step. -/
def step (traffic : Traffic σ) : Move → Traffic σ
  | .load question =>
    { traffic with waiting := traffic.waiting ++ (question.load? traffic.server).toList }
  | .work place =>
    match traffic.waiting[place]? with
    | none => traffic
    | some loaded =>
      { server := (loaded.work.run traffic.server).2, waiting := traffic.waiting.eraseIdx place }
  | .store overrides =>
    match traffic.server.settings.mergedWith overrides with
    | .error _ => traffic
    | .ok settings =>
      let stored : Handler σ Unit := do
        Server.applyLogLevel settings
        Server.storeSettings settings
      { traffic with server := (stored.run traffic.server).2 }
  | .drop => { traffic with server := (Server.invalidate.run traffic.server).2 }

/-- Takes several steps. -/
def run (traffic : Traffic σ) (moves : List Move) : Traffic σ :=
  moves.foldl step traffic

/-- Whether the files and the settings stay as they are during some steps. -/
def Calm (traffic : Traffic σ) : List Move → Prop
  | [] => True
  | move :: rest =>
    (traffic.step move).server.files = traffic.server.files ∧
      (traffic.step move).server.settings = traffic.server.settings ∧
      (traffic.step move).Calm rest

section Handlers

variable {server : Server σ}

/-- A question that can be loaded does its work when it is the only one. -/
theorem run_load_work {question : Question} {loaded : Loaded}
    (h : question.load? server = some loaded) :
    (run { server } [.load question, .work 0]).server = (loaded.work.run server).2 := by
  simp [run, step, h]

/-- A question that cannot be loaded changes nothing. -/
theorem run_load_work_of_eq_none {question : Question} (h : question.load? server = none) :
    (run { server } [.load question, .work 0]).server = server := by
  simp [run, step, h]

/-- A completion is a question that does its work at once. -/
theorem alike_completion (uri : Uri) (point : Point) :
    ((Server.completion uri point).run server).2.Alike
      (run { server } [.load (.completion uri point), .work 0]).server := by
  unfold Server.completion
  simp only [StateT.run_bind, StateT.run_get, pure_bind]
  cases hcontext : server.context? uri with
  | none =>
    rw [run_load_work_of_eq_none (by simp [Question.load?, hcontext])]
    rfl
  | some context =>
    rw [run_load_work (by simp [Question.load?, hcontext]; rfl)]
    refine Server.alike_run_bind fun found after => ?_
    cases found.link <;> rfl

/-- So is a search for a definition. -/
theorem alike_definition (uri : Uri) (point : Point) :
    ((Server.definition uri point).run server).2.Alike
      (run { server } [.load (.definition uri point), .work 0]).server := by
  unfold Server.definition
  simp only [StateT.run_bind, StateT.run_get, pure_bind]
  cases hcontext : server.context? uri with
  | none =>
    rw [run_load_work_of_eq_none (by simp [Question.load?, hcontext])]
    rfl
  | some context =>
    rw [run_load_work (by simp [Question.load?, hcontext]; rfl)]
    refine Server.alike_run_bind fun found after => ?_
    cases found with
    | ok targets => rfl
    | error error => cases error <;> rfl

/-- So is a search for references. -/
theorem alike_references (uri : Uri) (point : Point) :
    ((Server.references uri point).run server).2.Alike
      (run { server } [.load (.references uri point), .work 0]).server := by
  unfold Server.references
  simp only [StateT.run_bind, StateT.run_get, pure_bind]
  cases hcontext : server.context? uri with
  | none =>
    rw [run_load_work_of_eq_none (by simp [Question.load?, hcontext])]
    rfl
  | some context =>
    rw [run_load_work (by simp [Question.load?, hcontext]; rfl)]
    exact Server.alike_run_bind fun found after => rfl

/-- So is a command that creates a note. -/
theorem alike_createNote (now : Moment) (title : Text) (active : Option Path) :
    ((Server.createNote now title active).run server).2.Alike
      (run { server } [.load (.newNote title active now), .work 0]).server := by
  unfold Server.createNote
  simp only [StateT.run_bind, StateT.run_get, pure_bind]
  cases hworkspace : server.workspace with
  | none =>
    rw [run_load_work_of_eq_none (by simp [Question.load?, hworkspace])]
    rfl
  | some workspace =>
    rw [run_load_work (by simp [Question.load?, hworkspace]; rfl)]
    refine Server.alike_run_bind fun found after => ?_
    cases found <;> rfl

/-- A notice of changed settings that fit is their storing and then a new generation. -/
theorem alike_didChangeSettings {all overrides : Json} {settings : ServerSettings}
    (hsection : all.field? Server.sectionName = some overrides)
    (h : server.settings.mergedWith overrides = .ok settings) :
    ((Server.didChangeSettings all).run server).2.Alike
      (run { server } [.store overrides, .drop]).server := by
  unfold Server.didChangeSettings
  simp only [hsection, StateT.run_bind, StateT.run_get, pure_bind, h, run, List.foldl_cons,
    List.foldl_nil, step]
  rfl

end Handlers

/-- What happens last is one step. -/
theorem run_concat (traffic : Traffic σ) (moves : List Move) (last : Move) :
    traffic.run (moves ++ [last]) = (traffic.run moves).step last := by
  rw [run, List.foldl_append]
  rfl

/-- Steps that are calm are so in two parts. -/
theorem calm_append (traffic : Traffic σ) (first second : List Move) :
    traffic.Calm (first ++ second) ↔ traffic.Calm first ∧ (traffic.run first).Calm second := by
  induction first generalizing traffic with
  | nil => simp [Calm, run]
  | cons move rest ih =>
    rw [List.cons_append, Calm, Calm, ih]
    simp only [run, List.foldl_cons, and_assoc]

section Steps

variable {traffic : Traffic σ}

/-- A question that waits is carried out with the files and the list that there are. -/
theorem step_work {place : Nat} {loaded : Loaded} (h : traffic.waiting[place]? = some loaded) :
    traffic.step (.work place) =
      let done := (loaded.request.perform (S := Float) loaded.workspace loaded.settings).run
        { files := traffic.server.files, index := traffic.server.index }
      { server := { traffic.server with files := done.2.files, index := done.2.index }
        waiting := traffic.waiting.eraseIdx place } := by
  simp only [step, h]
  rfl

/-- Nothing happens when no question waits at a place. -/
theorem step_work_of_eq_none {place : Nat} (h : traffic.waiting[place]? = none) :
    traffic.step (.work place) = traffic := by
  simp only [step, h]

/-- A change of the settings touches neither files nor lists nor questions. -/
theorem step_store (overrides : Json) :
    ∃ settings level, traffic.step (.store overrides) =
      { traffic with
        server := { traffic.server with settings := settings, logFilter := level } } := by
  simp only [step]
  cases traffic.server.settings.mergedWith overrides with
  | error misfit => exact ⟨_, _, rfl⟩
  | ok settings => exact ⟨settings, _, rfl⟩

/-- Where there is a workspace, a new generation of its list is started. -/
theorem step_drop {workspace : Workspace} (h : traffic.server.workspace = some workspace) :
    traffic.step .drop =
      { traffic with
        server := { traffic.server with index := traffic.server.index.invalidate } } := by
  rw [step, Server.invalidate_run, if_pos (by rw [h]; rfl)]

end Steps

/-- What holds between any two steps: there is a workspace, and no list is kept of a generation that
is yet to come. -/
structure Standing (workspace : Workspace) (traffic : Traffic σ) : Prop where
  /-- The workspace is there. -/
  workspace : traffic.server.workspace = some workspace
  /-- The list that is kept is of a generation that has begun. -/
  dated : traffic.server.index.Dated

namespace Standing

variable {workspace : Workspace} {traffic : Traffic σ}

/-- It holds after a step. -/
theorem step (h : Standing workspace traffic) (move : Move) :
    Standing workspace (traffic.step move) := by
  cases move with
  | load question => exact ⟨h.workspace, h.dated⟩
  | work place =>
    cases hloaded : traffic.waiting[place]? with
    | none =>
      rw [step_work_of_eq_none hloaded]
      exact h
    | some loaded =>
      rw [step_work hloaded]
      exact ⟨h.workspace, Request.dated_run loaded.workspace loaded.settings loaded.request h.dated⟩
  | store overrides =>
    obtain ⟨settings, level, hstep⟩ := traffic.step_store overrides
    rw [hstep]
    exact ⟨h.workspace, h.dated⟩
  | drop =>
    rw [step_drop h.workspace]
    exact ⟨h.workspace, h.dated.later 1⟩

/-- So it does after several. -/
theorem run (h : Standing workspace traffic) (moves : List Move) :
    Standing workspace (traffic.run moves) := by
  induction moves generalizing traffic with
  | nil => exact h
  | cons move rest ih => exact ih (h.step move)

end Standing

/-- A question takes the workspace and the settings of the server. -/
theorem eq_of_context? {server : Server σ} {uri : Uri} {context : RequestContext}
    (h : server.context? uri = some context) :
    server.workspace = some context.workspace ∧ context.settings = server.settings.notes := by
  simp only [Server.context?, bind, Option.bind_eq_some_iff, pure, Option.some.injEq] at h
  obtain ⟨workspace, hworkspace, document, -, text, -, rfl⟩ := h
  exact ⟨hworkspace, rfl⟩

/-- Whatever it asks for. -/
theorem eq_of_load? {server : Server σ} {question : Question} {loaded : Loaded}
    (h : question.load? server = some loaded) :
    server.workspace = some loaded.workspace ∧ loaded.settings = server.settings.notes := by
  cases question with
  | newNote title active now =>
    obtain ⟨workspace, hworkspace, rfl⟩ := Option.map_eq_some_iff.mp h
    exact ⟨hworkspace, rfl⟩
  | completion uri point | definition uri point | references uri point =>
    obtain ⟨context, hcontext, rfl⟩ := Option.map_eq_some_iff.mp h
    exact eq_of_context? hcontext

/-- Whether no question that waits has another list served than what the settings give, when it does
its work at once and leaves the files as they are. -/
def Harmless (workspace : Workspace) (traffic : Traffic σ) : Prop :=
  ∀ place, traffic.Calm [.work place] →
    (traffic.step (.work place)).server.index.Fresh workspace.root
      traffic.server.settings.notes.index traffic.server.files

/-- What holds right after a new generation has been started, when no question that waits is in the
way. -/
structure Renewed (workspace : Workspace) (traffic : Traffic σ) : Prop where
  /-- What holds between any two steps. -/
  standing : Standing workspace traffic
  /-- No list is served. -/
  unserved : traffic.server.index.current? = none
  /-- No question that waits has another list served. -/
  harmless : Harmless workspace traffic

/-- What holds in calm steps since a moment, if no question from before that moment has another list
served than what the settings give. -/
structure Since (workspace : Workspace) (start traffic : Traffic σ) : Prop where
  /-- The files are the same. -/
  files : traffic.server.files = start.server.files
  /-- The same settings are in force. -/
  settings : traffic.server.settings = start.server.settings
  /-- What holds between any two steps. -/
  standing : Standing workspace traffic
  /-- No other list is served. -/
  fresh : traffic.server.index.Fresh workspace.root start.server.settings.notes.index
    start.server.files
  /-- A question that waits did so before, or has loaded the settings. -/
  waiting : ∀ loaded ∈ traffic.waiting, loaded ∈ start.waiting ∨
    loaded.workspace = workspace ∧ loaded.settings = start.server.settings.notes

namespace Since

variable {workspace : Workspace} {start traffic : Traffic σ}

/-- A question that has loaded the settings has no other list served. -/
theorem fresh_of_loaded (h : Since workspace start traffic) (request : Request) :
    let session : Session σ := { files := traffic.server.files, index := traffic.server.index }
    ((request.perform (S := Float) workspace start.server.settings.notes).run
      session).2.index.Fresh workspace.root start.server.settings.notes.index
        start.server.files := by
  intro session
  have hfresh : session.index.Fresh workspace.root start.server.settings.notes.index
      session.files := by
    rw [show session.files = start.server.files from h.files]
    exact h.fresh
  rw [← show session.files = start.server.files from h.files]
  refine request.fresh_run workspace _ h.standing.dated hfresh fun notes hnotes => ?_
  exact (workspace.serves_keptIndex _ session.files hnotes).elim (hfresh notes) id

/-- Nor does a question from before, if it had none served at once and no list was served then. -/
theorem fresh_of_waiting (h : Since workspace start traffic) (hstart : Renewed workspace start)
    {loaded : Loaded} (hloaded : loaded ∈ start.waiting) :
    let session : Session σ := { files := traffic.server.files, index := traffic.server.index }
    let done := (loaded.request.perform (S := Float) loaded.workspace loaded.settings).run session
    done.2.files = session.files → done.2.index.Fresh workspace.root
      start.server.settings.notes.index start.server.files := by
  intro session done hfiles
  have hsession : session.files = start.server.files := h.files
  cases hcurrent : traffic.server.index.current? with
  | some notes =>
    -- The question is about the list that is served, and keeps no other.
    have hkept : loaded.workspace.keptIndex loaded.settings session.files session.index =
        session.index := by
      simp [Workspace.keptIndex, session, hcurrent]
    rw [← hsession]
    refine loaded.request.fresh_run _ _ h.standing.dated (hsession ▸ h.fresh) ?_
    rw [hkept]
    exact hsession ▸ h.fresh
  | none =>
    -- Nothing is served, as when the question could have worked at once.
    obtain ⟨place, hplace⟩ := List.getElem?_of_mem hloaded
    let first : Session σ := { files := start.server.files, index := start.server.index }
    have hserves : session.index.ServesAs first.index :=
      ⟨hcurrent.trans hstart.unserved.symm, h.standing.dated, hstart.standing.dated⟩
    obtain ⟨hsame, hserved⟩ := loaded.request.servesAs_run (S := Float) loaded.workspace
      loaded.settings hsession hserves Token.quiet_new Token.quiet_new
    have hwork := hstart.harmless place
    rw [Calm, Calm, step_work hplace] at hwork
    intro notes hnotes
    refine hwork ⟨?_, rfl, trivial⟩ notes (hserved.current ▸ hnotes)
    exact hsame.symm.trans (hfiles.trans hsession)

/-- A step that leaves the files as they are has no other list served. -/
theorem fresh_step (h : Since workspace start traffic) (hstart : Renewed workspace start)
    {move : Move} (hfiles : (traffic.step move).server.files = traffic.server.files) :
    (traffic.step move).server.index.Fresh workspace.root start.server.settings.notes.index
      start.server.files := by
  cases move with
  | load question => exact h.fresh
  | work place =>
    cases hplace : traffic.waiting[place]? with
    | none =>
      rw [step_work_of_eq_none hplace]
      exact h.fresh
    | some loaded =>
      rw [step_work hplace] at hfiles ⊢
      rcases h.waiting loaded (List.mem_of_getElem? hplace) with hloaded | ⟨hworkspace, hloaded⟩
      · exact h.fresh_of_waiting hstart hloaded hfiles
      · rw [hworkspace, hloaded]
        exact h.fresh_of_loaded loaded.request
  | store overrides =>
    obtain ⟨settings, level, hstep⟩ := traffic.step_store overrides
    rw [hstep]
    exact h.fresh
  | drop =>
    rw [step_drop h.standing.workspace]
    exact NoteIndex.fresh_of_current?_eq_none (h.standing.dated.current?_later Nat.one_pos) _ _ _

/-- A question that comes has loaded the settings. -/
theorem waiting_step (h : Since workspace start traffic) (move : Move) :
    ∀ loaded ∈ (traffic.step move).waiting, loaded ∈ start.waiting ∨
      loaded.workspace = workspace ∧ loaded.settings = start.server.settings.notes := by
  intro loaded hloaded
  cases move with
  | load question =>
    rcases List.mem_append.mp hloaded with hloaded | hloaded
    · exact h.waiting loaded hloaded
    · obtain ⟨hworkspace, hsettings⟩ := eq_of_load? (Option.mem_toList.mp hloaded)
      rw [h.standing.workspace] at hworkspace
      cases hworkspace
      exact .inr ⟨rfl, hsettings.trans (congrArg (·.notes) h.settings)⟩
  | work place =>
    cases hplace : traffic.waiting[place]? with
    | none =>
      rw [step_work_of_eq_none hplace] at hloaded
      exact h.waiting loaded hloaded
    | some worked =>
      rw [step_work hplace] at hloaded
      exact h.waiting loaded (List.mem_of_mem_eraseIdx hloaded)
  | store overrides =>
    obtain ⟨settings, level, hstep⟩ := traffic.step_store overrides
    rw [hstep] at hloaded
    exact h.waiting loaded hloaded
  | drop =>
    rw [step_drop h.standing.workspace] at hloaded
    exact h.waiting loaded hloaded

/-- All this holds after calm steps. -/
theorem run (h : Since workspace start traffic) (hstart : Renewed workspace start)
    {moves : List Move} (hcalm : traffic.Calm moves) :
    Since workspace start (traffic.run moves) := by
  induction moves generalizing traffic with
  | nil => exact h
  | cons move rest ih =>
    obtain ⟨hfiles, hsettings, hrest⟩ := hcalm
    refine ih ⟨hfiles.trans h.files, hsettings.trans h.settings, h.standing.step move, ?_, ?_⟩ hrest
    · exact h.fresh_step hstart hfiles
    · exact h.waiting_step move

end Since

/-- Files and settings are the same after calm steps. -/
theorem Calm.same {traffic : Traffic σ} {moves : List Move} (h : traffic.Calm moves) :
    (traffic.run moves).server.files = traffic.server.files ∧
      (traffic.run moves).server.settings = traffic.server.settings := by
  induction moves generalizing traffic with
  | nil => exact ⟨rfl, rfl⟩
  | cons move rest ih =>
    obtain ⟨hfiles, hsettings, hrest⟩ := h
    exact ⟨(ih hrest).1.trans hfiles, (ih hrest).2.trans hsettings⟩

/-- A question knows the list that is served, else what the files give. -/
theorem notes_eq_noteList (context : RequestContext) (server : Server σ) :
    context.notes server =
      context.workspace.noteList context.settings server.files server.index := by
  let session : Session σ := { files := server.files, index := server.index }
  have hquiet : session.token.Quiet := Token.quiet_new
  obtain ⟨after, hrun, -, -⟩ :=
    context.workspace.exists_notes_run_of_quiet context.settings hquiet
  exact congrArg Prod.fst hrun

/-- No list is served right after a new generation has been started. -/
theorem Standing.unserved {workspace : Workspace} {traffic : Traffic σ}
    (h : Standing workspace traffic) :
    (traffic.step .drop).server.index.current? = none := by
  rw [step_drop h.workspace]
  exact h.dated.current?_later Nat.one_pos

/-- A question that comes in calm steps loads the settings that were in force before them. -/
theorem Standing.eq_of_calm {workspace : Workspace} {start : Traffic σ}
    (h : Standing workspace start) {earlier : List Move} (hcalm : start.Calm earlier) {uri : Uri}
    {context : RequestContext} (hcontext : (start.run earlier).server.context? uri = some context) :
    context.workspace = workspace ∧ context.settings = start.server.settings.notes := by
  obtain ⟨hworkspace, hsettings⟩ := eq_of_context? hcontext
  rw [(h.run earlier).workspace] at hworkspace
  cases hworkspace
  exact ⟨rfl, hsettings.trans (congrArg (·.notes) hcalm.same.2)⟩

/-- A change of the settings, or anything else, ends with a new generation of the list of notes.
While files and settings stay as they are, every question that loads the settings after that, in a
document that is known, does its work on the notes that the settings give, whatever else happens in
between, if and only if the settings do not let the list be kept or no question from before has
another list served when it does its work at once. -/
theorem run_notes_iff {workspace : Workspace} {traffic : Traffic σ}
    (h : Standing workspace traffic) (before : List Move) :
    let start := traffic.run (before ++ [.drop])
    let settings := start.server.settings.notes
    (∃ uri context, start.server.context? uri = some context) →
    ((∀ earlier later, start.Calm (earlier ++ later) → ∀ uri context,
        (start.run earlier).server.context? uri = some context →
          context.notes (start.run (earlier ++ later)).server =
            Discovery.listing start.server.files workspace.root settings.index) ↔
      (settings.index.cacheEnabled = true → start.Harmless workspace)) := by
  intro start settings ⟨uri, context, hcontext⟩
  have hstart : Standing workspace start := h.run _
  have hnone : start.server.index.current? = none := by
    rw [show start = (traffic.run before).step .drop from traffic.run_concat before .drop]
    exact (h.run before).unserved
  constructor
  · intro hall hcache place hcalm notes hnotes
    have hwork := hall [] [.work place] hcalm uri context hcontext
    have hempty : start.Calm [] := trivial
    obtain ⟨hworkspace, hsettings⟩ := hstart.eq_of_calm hempty hcontext
    rw [notes_eq_noteList, hworkspace, hsettings] at hwork
    refine Eq.trans ?_ hwork
    simp [Workspace.noteList, settings, hcache, run, hnotes]
  · intro hold earlier later hcalm uri context hcontext
    have hearlier : start.Calm earlier := ((calm_append start _ _).mp hcalm).1
    obtain ⟨hworkspace, hsettings⟩ := hstart.eq_of_calm hearlier hcontext
    rw [notes_eq_noteList, hworkspace, hsettings, hcalm.same.1]
    cases hcache : settings.index.cacheEnabled with
    | false => simp [Workspace.noteList, settings, hcache]
    | true =>
      have hsince : Since workspace start start := by
        refine ⟨rfl, rfl, hstart, NoteIndex.fresh_of_current?_eq_none hnone _ _ _, ?_⟩
        exact fun loaded hloaded => .inl hloaded
      exact workspace.noteList_of_fresh settings start.server.files
        (hsince.run ⟨hstart, hnone, hold hcache⟩ hcalm).fresh

/-- The URI of a draft. -/
def draftUri : Uri :=
  ⟨"file".toList, some [], "/ws/draft.md".toList, []⟩

/-- A draft with a link to the only note, before anything is asked. -/
def drafting : Traffic MemoryFiles where
  server :=
    { files := { files := [(⟨"/ws/b.md".toList⟩, some [])] }
      phase := .running
      workspace := some ⟨⟨"/ws".toList⟩⟩
      documents := .opened {} draftUri "[[b]]".toList }

/-- Settings that leave the note out. -/
def leaveOut : Json :=
  .obj [("index".toList, .obj [("exclude".toList, .arr [.str "b.md".toList])])]

/-- A question from before the change that is not about a link keeps no list. After it, a question
that has loaded the new settings does not know the note. -/
theorem run_notes_iff_no_link :
    let start := drafting.run [.load (.definition draftUri ⟨1, 0⟩), .store leaveOut, .drop]
    let late := start.run [.load (.definition draftUri ⟨0, 3⟩), .work 0, .work 0]
    (start.server.context? draftUri).map (·.notes late.server) = some [] := by
  intro start late
  have hstanding : drafting.Standing ⟨⟨"/ws".toList⟩⟩ := ⟨rfl, NoteIndex.dated_new⟩
  have hnone : start.server.index.current? = none ∧
      (start.step (.work 0)).server.index.current? = none := by decide +kernel
  have hold : start.Harmless ⟨⟨"/ws".toList⟩⟩ := by
    intro place _
    cases place with
    | zero => exact NoteIndex.fresh_of_current?_eq_none hnone.2 _ _ _
    | succ place =>
      rw [step_work_of_eq_none (List.getElem?_eq_none (Nat.le_add_left 1 place))]
      exact NoteIndex.fresh_of_current?_eq_none hnone.1 _ _ _
  have hcalm : start.Calm [.load (.definition draftUri ⟨0, 3⟩), .work 0, .work 0] := by
    simp only [Calm, and_true]
    decide +kernel
  obtain ⟨context, hcontext⟩ : ∃ context, start.server.context? draftUri = some context :=
    ⟨_, rfl⟩
  have hnotes := (run_notes_iff hstanding [.load (.definition draftUri ⟨1, 0⟩), .store leaveOut]
    ⟨draftUri, context, hcontext⟩).mpr (fun _ => hold) [.load (.definition draftUri ⟨0, 3⟩)]
      [.work 0, .work 0] hcalm draftUri context hcontext
  rw [hcontext]
  exact congrArg some (hnotes.trans (by decide +kernel))

/-- A question from before the change does its work after it, and keeps the list that the old
settings give. A question that has loaded the new settings then knows the note that they leave
out. -/
theorem run_notes_stale :
    let workspace : Workspace := ⟨⟨"/ws".toList⟩⟩
    let start := drafting.run [.load (.definition draftUri ⟨0, 3⟩), .store leaveOut, .drop]
    let late := start.run [.work 0]
    start.Calm [.work 0] ∧
      (start.server.context? draftUri).map (·.notes late.server) =
        some [⟨"/ws/b.md".toList⟩] ∧
      Discovery.listing start.server.files workspace.root start.server.settings.notes.index =
        [] := by
  intro workspace start late
  simp only [Calm, and_true]
  decide +kernel

end Traffic
end LinkedNotes
