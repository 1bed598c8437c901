import LinkedNotes.Proofs.Server.Suggestion
import LinkedNotes.Proofs.Settings.Merge

/-!
# Changes of the settings

The server starts with the settings of the workspace, and the client lays others over them, at the
start and later at any time. Main statement: the settings in force are those of the workspace with
all the overrides laid over them that fit, in order, and the log filter follows them. Whether
overrides fit does not depend on the settings in force. Overrides of which any part does not fit
change nothing, and all others start one new generation of the list of notes. What the client is
told about them is outside this module, and so are requests, which leave settings alone.
-/

namespace LinkedNotes

namespace ServerSettings

/-- Whether overrides fit: the log level that they give, if they give one, and their settings of the
workspace, read alone. -/
def fits (overrides : Json) : Bool :=
  (Json.field? logLevelName overrides).all
      (fun level => (Json.readVariant LogLevel.variants level).isOk) &&
    (Settings.read (Settings.currentNames overrides)).isOk

/-- A result that is no error. -/
theorem isOk_iff {ε α : Type} {result : Except ε α} :
    result.isOk = true ↔ ∃ value, result = .ok value := by
  cases result with
  | error misfit => simp [Except.isOk, Except.toBool]
  | ok value => simp [Except.isOk, Except.toBool]

/-- Overrides fit when the log level can be read and the settings of the workspace can be. -/
theorem fits_iff {overrides : Json} :
    fits overrides = true ↔
      Json.Fits (Json.readVariant LogLevel.variants) (Json.field? logLevelName overrides) ∧
        ∃ found, Settings.read (Settings.currentNames overrides) = .ok found := by
  rw [fits, Bool.and_eq_true, Option.all_eq_true, isOk_iff]
  refine and_congr_left fun _ => forall₂_congr fun level _ => isOk_iff

/-- The fields of overrides fit when each part that they give can be read. -/
theorem fits_obj_iff {fields : Json.Fields} (h : fields.Ordered) :
    fits (.obj fields) = true ↔
      Json.Fits (Json.readVariant LogLevel.variants) (Json.Fields.get? logLevelName fields) ∧
        ∀ part : Settings.Part, Json.Fits part.read (Settings.named? part.name fields) := by
  rw [fits_iff, Settings.exists_read_iff_parts h]
  rfl

/-- The log level with overrides laid over it. -/
def levelWith (settings : ServerSettings) (overrides : Json) : Except Json.Misfit LogLevel :=
  match Json.field? logLevelName overrides with
  | some level => Json.readVariant LogLevel.variants level
  | none => .ok settings.logLevel

/-- The log level is looked at before the settings of the workspace. -/
theorem mergedWith_eq_bind (settings : ServerSettings) (overrides : Json) :
    settings.mergedWith overrides =
      (settings.levelWith overrides).bind fun level =>
        (settings.notes.mergedWith overrides).map (⟨level, ·⟩) := by
  unfold mergedWith levelWith
  cases Json.field? logLevelName overrides with
  | none => cases settings.notes.mergedWith overrides <;> rfl
  | some level =>
    simp only
    cases Json.readVariant LogLevel.variants level with
    | error misfit => rfl
    | ok level => cases settings.notes.mergedWith overrides <;> rfl

/-- There is a log level when the one that is given, if one is, can be read. -/
theorem exists_levelWith_iff (settings : ServerSettings) (overrides : Json) :
    (∃ level, settings.levelWith overrides = .ok level) ↔
      Json.Fits (Json.readVariant LogLevel.variants) (Json.field? logLevelName overrides) := by
  unfold levelWith
  cases Json.field? logLevelName overrides with
  | none => exact iff_of_true ⟨_, rfl⟩ fun _ h => nomatch h
  | some level => simp [Json.Fits]

/-- Overrides can be laid over any settings exactly if they fit. -/
theorem exists_mergedWith_iff (settings : ServerSettings) {overrides : Json}
    (hwell : overrides.WellFormed) :
    (∃ merged, settings.mergedWith overrides = .ok merged) ↔ fits overrides = true := by
  rw [fits_iff, ← settings.exists_levelWith_iff,
    ← settings.notes.exists_mergedWith_iff_exists_read hwell, mergedWith_eq_bind]
  cases settings.levelWith overrides with
  | error misfit => simp [Except.bind]
  | ok level => cases settings.notes.mergedWith overrides <;> simp [Except.bind, Except.map]

end ServerSettings

namespace Server

variable {σ : Type}

/-- What an event lays over the settings. -/
def Event.overrides? : Event → Option Json
  | .notice (.configured all) => all.field? sectionName
  | _ => none

/-- What other events leave alone: the workspace, the settings, and the log filter. -/
structure Keeps (server after : Server σ) : Prop where
  /-- The workspace. -/
  workspace : after.workspace = server.workspace
  /-- The settings in force. -/
  settings : after.settings = server.settings
  /-- How much the process logs. -/
  logFilter : after.logFilter = server.logFilter

/-- A new generation of the list of notes keeps the settings. -/
theorem keeps_invalidate (server : Server σ) : server.Keeps (invalidate.run server).2 := by
  obtain ⟨index, h⟩ := exists_invalidate_run server
  rw [h]
  exact ⟨rfl, rfl, rfl⟩

/-- Events without overrides keep the settings. -/
theorem keeps_step (server : Server σ) {event : Event} (h : event.overrides? = none) :
    server.Keeps (server.step event) := by
  cases event with
  | wait milliseconds => exact ⟨rfl, rfl, rfl⟩
  | due place =>
    cases hplanned : server.planned[place]? with
    | none =>
      rw [step_due_of_eq_none hplanned]
      exact ⟨rfl, rfl, rfl⟩
    | some planned =>
      rw [step_due hplanned]
      simp only
      split <;> exact ⟨rfl, rfl, rfl⟩
  | notice notice =>
    simp only [step]
    cases notice with
    | ready | opened uri text | closed uri => exact ⟨rfl, rfl, rfl⟩
    | changed uri changes =>
      rw [heed, didChange_run]
      exact ⟨rfl, rfl, rfl⟩
    | saved uri =>
      rw [heed, didSave]
      split
      · exact server.keeps_invalidate
      · exact ⟨rfl, rfl, rfl⟩
    | filesChanged events =>
      rw [heed, didChangeFiles]
      split
      · exact server.keeps_invalidate
      · exact ⟨rfl, rfl, rfl⟩
    | renamed pairs =>
      have hkeeps := keeps_invalidate
        { server with documents := server.documents.heeded (.renamed pairs) }
      exact ⟨hkeeps.workspace, hkeeps.settings, hkeeps.logFilter⟩
    | configured all =>
      have hnone : all.field? sectionName = none := h
      rw [heed, didChangeSettings, hnone]
      exact ⟨rfl, rfl, rfl⟩

/-! ## Overrides -/

variable {server : Server σ} {all overrides : Json}

/-- Overrides that cannot be laid over the settings are only told of. -/
theorem step_configured_of_error (hgiven : all.field? sectionName = some overrides)
    {misfit : Json.Misfit} (h : server.settings.mergedWith overrides = .error misfit) :
    ∃ told, server.step (.notice (.configured all)) =
      { server with sent := server.sent ++ [told] } := by
  refine ⟨.log .error ("Failed to parse updated settings: ".toList ++ misfit.message), ?_⟩
  simp only [step, heed, didChangeSettings, hgiven, StateT.run_bind, StateT.run_get, pure_bind, h]
  rfl

/-- Overrides that can be laid over the settings of a workspace start a new generation of the list
of notes, and the log filter follows them. -/
theorem step_configured_of_ok (hworkspace : server.workspace.isSome = true)
    (hgiven : all.field? sectionName = some overrides) {merged : ServerSettings}
    (h : server.settings.mergedWith overrides = .ok merged) :
    ∃ told, server.step (.notice (.configured all)) =
      { server with
        settings := merged, logFilter := some merged.logLevel, index := server.index.invalidate
        sent := server.sent ++ [told] } := by
  refine ⟨.log .info "LSP settings updated".toList, ?_⟩
  have hstep : server.step (.notice (.configured all)) =
      ((send (.log .info "LSP settings updated".toList)).run (invalidate.run
        { server with settings := merged, logFilter := some merged.logLevel }).2).2 := by
    simp only [step, heed, didChangeSettings, hgiven, StateT.run_bind, StateT.run_get, pure_bind, h]
    rfl
  rw [hstep, invalidate_run, if_pos hworkspace]
  rfl

/-- What holds of a server with a workspace between two events: the log filter is that of the
settings in force. -/
structure Governed (server : Server σ) : Prop where
  /-- There is a workspace. -/
  workspace : server.workspace.isSome = true
  /-- The log filter follows the settings. -/
  logFilter : server.logFilter = some server.settings.logLevel

/-- An event that lays nothing over the settings leaves the log filter to them. -/
theorem Governed.keeps {after : Server σ} (h : server.Governed) (hkeeps : server.Keeps after) :
    after.Governed where
  workspace := by rw [hkeeps.workspace, h.workspace]
  logFilter := by rw [hkeeps.logFilter, hkeeps.settings, h.logFilter]

/-- An event with overrides lays them over the settings if they fit, and else changes nothing. -/
theorem Governed.step_configured (h : server.Governed)
    (hgiven : all.field? sectionName = some overrides) (hwell : overrides.WellFormed) :
    let after := server.step (.notice (.configured all))
    after.Governed ∧
      (ServerSettings.fits overrides = true →
        server.settings.mergedWith overrides = .ok after.settings ∧
          after.index = server.index.invalidate) ∧
      (ServerSettings.fits overrides = false →
        server.Keeps after ∧ after.index = server.index) := by
  intro after
  have hfits := server.settings.exists_mergedWith_iff hwell
  cases hmerge : server.settings.mergedWith overrides with
  | error misfit =>
    obtain ⟨told, hstep⟩ := step_configured_of_error hgiven hmerge
    have hafter : after = _ := hstep
    rw [hafter]
    have hkeeps : server.Keeps { server with sent := server.sent ++ [told] } := ⟨rfl, rfl, rfl⟩
    refine ⟨h.keeps hkeeps, fun hfit => ?_, fun _ => ⟨hkeeps, rfl⟩⟩
    obtain ⟨merged, hmerged⟩ := hfits.mpr hfit
    rw [hmerge] at hmerged
    cases hmerged
  | ok merged =>
    obtain ⟨told, hstep⟩ := step_configured_of_ok h.workspace hgiven hmerge
    have hafter : after = _ := hstep
    rw [hafter]
    refine ⟨⟨h.workspace, rfl⟩, fun _ => ⟨rfl, rfl⟩, fun hunfit => ?_⟩
    rw [hfits.mp ⟨merged, hmerge⟩] at hunfit
    cases hunfit

/-- After any events the settings are those before with all the overrides laid over them that
fit. -/
theorem Governed.run (h : server.Governed) {events : List Event}
    (hwell : ∀ overrides ∈ events.filterMap Event.overrides?, overrides.WellFormed) :
    (server.run events).Governed ∧
      ((events.filterMap Event.overrides?).filter ServerSettings.fits).foldlM
        ServerSettings.mergedWith server.settings = .ok (server.run events).settings := by
  -- The fold goes on with each event that has overrides, and stands still at any other.
  induction events generalizing server with
  | nil => exact ⟨h, rfl⟩
  | cons event rest ih =>
    rw [show server.run (event :: rest) = (server.step event).run rest from rfl]
    cases hgiven : event.overrides? with
    | none =>
      have hkeeps := server.keeps_step hgiven
      rw [List.filterMap_cons_none hgiven] at hwell ⊢
      rw [← hkeeps.settings]
      exact ih (h.keeps hkeeps) hwell
    | some overrides =>
      rw [List.filterMap_cons_some hgiven] at hwell ⊢
      obtain ⟨hfirst, hrest⟩ := List.forall_mem_cons.mp hwell
      obtain ⟨all, rfl, hall⟩ : ∃ all, event = .notice (.configured all) ∧
          all.field? sectionName = some overrides := by
        cases event with
        | notice notice =>
          cases notice with
          | configured all => exact ⟨all, rfl, hgiven⟩
          | _ => cases hgiven
        | _ => cases hgiven
      obtain ⟨hgoverned, hfit, hunfit⟩ := h.step_configured hall hfirst
      obtain ⟨hafter, hfold⟩ := ih hgoverned hrest
      refine ⟨hafter, ?_⟩
      cases hfits : ServerSettings.fits overrides with
      | true =>
        rw [List.filter_cons_of_pos hfits, List.foldlM_cons, (hfit hfits).1]
        exact hfold
      | false =>
        rw [List.filter_cons_of_neg (by simp [hfits]), ← (hunfit hfits).1.settings]
        exact hfold

/-! ## The start -/

variable [FileSystem σ]

/-- What is put in force at the start: the settings of the workspace, with overrides laid over them
if that is possible. -/
theorem prepare_run (path : Path) (options : Option Json) (server : Server σ) :
    let loaded := ServerSettings.load server.files path
    let settings :=
      (options.bind fun overrides => (loaded.mergedWith overrides).toOption).getD loaded
    ∃ told, ((prepare path options).run server).2 =
      { server with
        settings := settings, logFilter := some settings.logLevel, workspace := some ⟨path⟩
        index := {}, sent := server.sent ++ told } := by
  intro loaded settings
  cases options with
  | none => exact ⟨_, rfl⟩
  | some overrides =>
    have hsend (message : Outgoing) (current : Server σ) : (send message).run current =
        pure ((), { current with sent := current.sent ++ [message] }) := rfl
    cases hmerge : loaded.mergedWith overrides with
    | error misfit =>
      have hsettings : settings = loaded := by
        simp only [settings, Option.bind_some, hmerge]
        rfl
      rw [hsettings]
      refine ⟨[.log .info ("Initializing workspace at: ".toList ++ Text.quoted path.text),
        .log .error ("Ignoring initializationOptions: ".toList ++ misfit.message)], ?_⟩
      simp only [prepare, StateT.run_bind, StateT.run_get, Option.map_some, hsend, pure_bind,
        show (ServerSettings.load server.files path).mergedWith overrides = .error misfit from
          hmerge, List.append_assoc]
      rfl
    | ok merged =>
      have hsettings : settings = merged := by
        simp only [settings, Option.bind_some, hmerge]
        rfl
      rw [hsettings]
      refine ⟨[.log .info ("Initializing workspace at: ".toList ++ Text.quoted path.text)], ?_⟩
      simp only [prepare, StateT.run_bind, StateT.run_get, Option.map_some, hsend, pure_bind,
        show (ServerSettings.load server.files path).mergedWith overrides = .ok merged from hmerge]
      rfl

/-- A start with a root lays the overrides over the settings of the workspace if they fit. -/
theorem start_run {root : Option Uri} {folders : List Uri} {path : Path}
    (hroot : rootOf root folders = some path) {options : Option Json} (server : Server σ)
    (hwell : ∀ overrides ∈ options.toList, overrides.WellFormed) :
    let started := ((start root folders options).run server).2
    started.Governed ∧ started.index = {} ∧
      (options.toList.filter ServerSettings.fits).foldlM ServerSettings.mergedWith
        (ServerSettings.load server.files path) = .ok started.settings := by
  intro started
  have hstarted : started = ((prepare path options).run server).2 := by
    simp only [started, start, hroot]
    rfl
  obtain ⟨told, hprepare⟩ := prepare_run path options server
  rw [hstarted, hprepare]
  refine ⟨⟨rfl, rfl⟩, rfl, ?_⟩
  cases options with
  | none => rfl
  | some overrides =>
    have hfits := (ServerSettings.load server.files path).exists_mergedWith_iff
      (hwell overrides (List.mem_singleton_self _))
    simp only [Option.toList_some, Option.bind_some]
    cases hmerge : (ServerSettings.load server.files path).mergedWith overrides with
    | error misfit =>
      have hunfit : ServerSettings.fits overrides ≠ true := fun hfit => by
        obtain ⟨merged, hmerged⟩ := hfits.mpr hfit
        rw [hmerge] at hmerged
        cases hmerged
      rw [List.filter_cons_of_neg hunfit]
      rfl
    | ok merged =>
      rw [List.filter_cons_of_pos (hfits.mp ⟨merged, hmerge⟩), List.filter_nil, List.foldlM_cons,
        hmerge]
      rfl

/-- After a start with a root and any events, the settings in force are those of the workspace with
all the overrides laid over them, in order, that fit, and the log filter is that of the log level in
force. Overrides that fit are laid over these settings next, and start one new generation of the
list of notes; others leave the settings, the log filter and the list of notes alone. Fields fit
exactly if the log level and each part of the settings that they give can be read. -/
theorem run_settings_eq_fold (server : Server σ) {root : Option Uri} {folders : List Uri}
    {path : Path} (hroot : rootOf root folders = some path) (options : Option Json)
    (events : List Event)
    (hwell : ∀ overrides ∈ options.toList ++ events.filterMap Event.overrides?,
      overrides.WellFormed) :
    let started := ((start root folders options).run server).2
    let after := started.run events
    ((options.toList ++ events.filterMap Event.overrides?).filter ServerSettings.fits).foldlM
        ServerSettings.mergedWith (ServerSettings.load server.files path) = .ok after.settings ∧
      after.logFilter = some after.settings.logLevel ∧
      (∀ (all overrides : Json), all.field? sectionName = some overrides → overrides.WellFormed →
        let changed := after.step (.notice (.configured all))
        (ServerSettings.fits overrides = true →
          after.settings.mergedWith overrides = .ok changed.settings ∧
            changed.logFilter = some changed.settings.logLevel ∧
            changed.index.generation = after.index.generation + 1) ∧
        (ServerSettings.fits overrides = false →
          changed.settings = after.settings ∧ changed.logFilter = after.logFilter ∧
            changed.index = after.index)) ∧
      ∀ fields : Json.Fields, Json.WellFormed (.obj fields) →
        (ServerSettings.fits (.obj fields) = true ↔
          Json.Fits (Json.readVariant LogLevel.variants)
              (Json.Fields.get? ServerSettings.logLevelName fields) ∧
            ∀ part : Settings.Part,
              Json.Fits part.read (Settings.named? part.name fields)) := by
  intro started after
  obtain ⟨hgoverned, -, hstart⟩ := start_run hroot server fun overrides hmem =>
    hwell overrides (List.mem_append_left _ hmem)
  obtain ⟨hafter, hrun⟩ := hgoverned.run fun overrides hmem =>
    hwell overrides (List.mem_append_right _ hmem)
  refine ⟨?_, hafter.logFilter, fun all overrides hgiven hoverrides => ?_, fun fields hfields =>
    ServerSettings.fits_obj_iff hfields.ordered⟩
  · rw [List.filter_append, List.foldlM_append, hstart]
    exact hrun
  · obtain ⟨hchanged, hfit, hunfit⟩ := hafter.step_configured hgiven hoverrides
    refine ⟨fun hfits => ?_, fun hunfits => ?_⟩
    · obtain ⟨hmerged, hindex⟩ := hfit hfits
      exact ⟨hmerged, hchanged.logFilter, congrArg NoteIndex.generation hindex⟩
    · obtain ⟨hkeeps, hindex⟩ := hunfit hunfits
      exact ⟨hkeeps.settings, hkeeps.logFilter, hindex⟩

/-- A change of the settings in the section of the server. -/
def configure (fields : Json.Fields) : Event :=
  .notice (.configured (.obj [(sectionName, .obj fields)]))

/-- It lays these fields over the settings. -/
theorem overrides?_configure (fields : Json.Fields) :
    (configure fields).overrides? = some (.obj fields) := by
  simp only [configure, Event.overrides?, Json.field?, Json.Fields.get?, if_true]

/-- A change with a log level that is none is passed over with all its other parts, and the next
change counts. -/
theorem run_settings_eq_fold_partly_unfit :
    let root : Uri := ⟨"file".toList, some [], "/ws".toList, []⟩
    let server : Server MemoryFiles :=
      { files := { files := [(⟨"/ws/.wikilinks.yaml".toList⟩,
          some "namingConvention: relativePaths".toList)] } }
    let options : Json := .obj [(ServerSettings.logLevelName, .str "debug".toList)]
    let unfit : Json.Fields := [(Settings.Names.createMissing, .bool false),
      (ServerSettings.logLevelName, .str "loud".toList)]
    let fit : Json.Fields := [(Settings.Names.suggestOnEdit, .bool false)]
    let after :=
      ((start (some root) [] (some options)).run server).2.run [configure unfit, configure fit]
    after.settings =
        { logLevel := .debug, notes := { convention := .relativePaths, suggestOnEdit := false } } ∧
      after.logFilter = some .debug := by
  intro root server options unfit fit after
  have hroot : rootOf (some root) [] = some ⟨"/ws".toList⟩ := by decide +kernel
  have hevents : [configure unfit, configure fit].filterMap Event.overrides? =
      [.obj unfit, .obj fit] := by
    simp only [List.filterMap_cons, overrides?_configure, List.filterMap_nil]
  have hunfit : Json.WellFormed (.obj unfit) := by
    have hordered : unfit.Pairwise fun first second =>
        Text.le first.1 second.1 = true ∧ first.1 ≠ second.1 := by decide +kernel
    refine .obj hordered (List.forall_mem_cons.mpr ⟨.bool _, ?_⟩)
    exact List.forall_mem_singleton.mpr (.str _)
  have hwell : ∀ overrides ∈ (some options).toList ++
      [configure unfit, configure fit].filterMap Event.overrides?, overrides.WellFormed := by
    rw [hevents]
    refine List.forall_mem_cons.mpr ⟨?_, List.forall_mem_cons.mpr ⟨hunfit, ?_⟩⟩
    · exact .obj (List.pairwise_singleton _ _) (List.forall_mem_singleton.mpr (.str _))
    · exact List.forall_mem_singleton.mpr
        (.obj (List.pairwise_singleton _ _) (List.forall_mem_singleton.mpr (.bool _)))
  obtain ⟨hfold, hfilter, -⟩ := run_settings_eq_fold server hroot (some options)
    [configure unfit, configure fit] hwell
  rw [hevents] at hfold
  have hvalue : ((((some options).toList ++ [Json.obj unfit, Json.obj fit]).filter
      ServerSettings.fits).foldlM ServerSettings.mergedWith
        (ServerSettings.load server.files ⟨"/ws".toList⟩)).toOption =
      some { logLevel := .debug
             notes := { convention := .relativePaths, suggestOnEdit := false } } := by
    decide +kernel
  rw [hfold] at hvalue
  have hsettings := Option.some.inj hvalue
  exact ⟨hsettings, hfilter.trans (congrArg (fun settings => some settings.logLevel) hsettings)⟩

end Server
end LinkedNotes
