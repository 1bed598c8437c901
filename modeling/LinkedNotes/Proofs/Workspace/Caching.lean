import LinkedNotes.Proofs.Files.Laws
import LinkedNotes.Proofs.Workspace.Freshness
import LinkedNotes.Rank.Scale

/-!
# The kept list of notes makes no difference

A workspace in use carries out requests while others change its files and its settings, always
giving up the list of notes that is kept. Main statement: all replies and all files are those of a
workspace that enumerates the notes for each request, whichever requests may use the kept list. The
files must stay as they are when a file cannot be created.
-/

namespace LinkedNotes

variable {σ : Type}

/-- The settings without use of the kept list. -/
def Settings.uncached (settings : Settings) : Settings :=
  settings.withIndex { settings.index with cacheEnabled := false }

variable [FileSystem σ]

/-- A workspace in use, between two requests. -/
structure Desk (σ : Type) where
  /-- The state of the files. -/
  files : σ
  /-- The list of notes that is kept. -/
  index : NoteIndex := {}
  /-- Which files are notes. -/
  settings : IndexSettings := {}

/-- What happens to a workspace in use. -/
inductive Turn (σ : Type) where
  /-- A request. It has settings of its own, also for whether it may use the kept list, but not for
  which files are notes. -/
  | request (settings : Settings) (request : Request)
  /-- The files are changed, and so is which files are notes. -/
  | outside (change : σ → σ) (settings : IndexSettings)

/-- The same, but without use of the kept list. -/
def Turn.uncached : Turn σ → Turn σ
  | .request settings asked => .request settings.uncached asked
  | .outside change settings => .outside change settings

namespace Desk

variable {S : Type} [Scale S] (workspace : Workspace)

/-- The settings of a request in a workspace in use. -/
def settingsFor (desk : Desk σ) (settings : Settings) : Settings :=
  settings.withIndex { desk.settings with cacheEnabled := settings.index.cacheEnabled }

/-- Lets something happen; gives the reply if it is a request. After each change from outside the
kept list is given up. -/
def turn (desk : Desk σ) : Turn σ → Option (Reply S) × Desk σ
  | .request settings asked =>
    let (reply, after) := (asked.perform workspace (desk.settingsFor settings)).run
      { files := desk.files, index := desk.index }
    (some reply, { desk with files := after.files, index := after.index })
  | .outside change settings =>
    (none, { files := change desk.files, index := desk.index.invalidate, settings := settings })

/-- A request is carried out with the files and the list that there are. -/
theorem turn_request (desk : Desk σ) (settings : Settings) (asked : Request) :
    desk.turn (S := S) workspace (.request settings asked) =
      let done := (asked.perform workspace (desk.settingsFor settings)).run
        { files := desk.files, index := desk.index }
      (some done.1, { desk with files := done.2.files, index := done.2.index }) :=
  rfl

/-- The replies in a workspace in use, each with the files after it. -/
def run : List (Turn σ) → Desk σ → List (Option (Reply S) × σ)
  | [], _ => []
  | turn :: rest, desk =>
    let (reply, after) := desk.turn workspace turn
    (reply, after.files) :: run rest after

/-- What happens first is replied to first. -/
theorem run_cons (turn : Turn σ) (rest : List (Turn σ)) (desk : Desk σ) :
    run (S := S) workspace (turn :: rest) desk =
      let done := desk.turn (S := S) workspace turn
      (done.1, done.2.files) :: run workspace rest done.2 :=
  rfl

/-- Whether a workspace in use looks like another one that does not use its kept list. -/
structure Mirrors (root : Path) (first second : Desk σ) : Prop where
  /-- The files are the same. -/
  files : first.files = second.files
  /-- The same files are notes. -/
  settings : first.settings = second.settings
  /-- No list is kept of a generation that is yet to come. -/
  dated : first.index.Dated
  /-- A list that is served is what an enumeration finds. -/
  fresh : first.index.Fresh root first.settings first.files

namespace Mirrors

variable {workspace} {first second : Desk σ}

/-- A new workspace looks like itself. -/
theorem new (root : Path) (files : σ) (settings : IndexSettings) :
    Mirrors root { files, settings } { files, settings } := by
  exact ⟨rfl, rfl, NoteIndex.dated_new, NoteIndex.fresh_of_current?_eq_none rfl _ _ _⟩

/-- The notes that a request is about are the same. -/
theorem noteList (h : Mirrors workspace.root first second) (settings : Settings) :
    workspace.noteList (first.settingsFor settings) first.files first.index =
      workspace.noteList (second.settingsFor settings.uncached) first.files second.index := by
  have hfirst : workspace.noteList (first.settingsFor settings) first.files first.index =
      Discovery.listing first.files workspace.root first.settings :=
    workspace.noteList_of_fresh (first.settingsFor settings) first.files h.fresh
  rw [hfirst, h.settings]
  rfl

/-- A request has the same reply and leaves the same files, and afterwards again no other list is
served than what an enumeration finds. -/
theorem request (h : Mirrors workspace.root first second)
    (hkeeps : ∀ files : σ, FileSystem.CreatesOrKeeps files) (settings : Settings)
    (asked : Request) :
    (first.turn (S := S) workspace (.request settings asked)).1 =
        (second.turn workspace (.request settings.uncached asked)).1 ∧
      Mirrors workspace.root (first.turn (S := S) workspace (.request settings asked)).2
        (second.turn (S := S) workspace (.request settings.uncached asked)).2 := by
  let session : Session σ := { files := first.files, index := first.index }
  let session' : Session σ := { files := second.files, index := second.index }
  have hagrees : (asked.outcome (S := S) workspace (first.settingsFor settings) first.files
      first.index).Agrees (asked.outcome workspace (second.settingsFor settings.uncached)
        first.files second.index) :=
    asked.agrees_outcome workspace settings first.files (h.noteList settings)
  have hindex : session.index.Dated := h.dated
  have hdated := Request.dated_run (S := S) workspace (first.settingsFor settings) asked hindex
  have hserves := Request.serves_run (S := S) workspace (first.settingsFor settings) asked hindex
    fun path content message after hmade => by rw [hkeeps _ _ _ _ _ hmade]
  obtain ⟨hreply, hfiles, -⟩ := (asked.comesTo_perform (S := S) workspace
    (first.settingsFor settings) session).ends Token.quiet_new
  obtain ⟨hreply', hfiles', -⟩ := (asked.comesTo_perform (S := S) workspace
    (second.settingsFor settings.uncached) session').ends Token.quiet_new
  have hsecond : session'.files = first.files := h.files.symm
  rw [hsecond] at hreply' hfiles'
  rw [turn_request, turn_request]
  refine ⟨?_, ?_, h.settings, hdated, fun notes hnotes => ?_⟩
  · exact congrArg some ((hreply.trans hagrees.result).trans hreply'.symm)
  · exact (hfiles.trans hagrees.files).trans hfiles'.symm
  · rcases hserves notes hnotes with hcomplete | ⟨hbefore, hwrong⟩
    · exact hcomplete
    · exact absurd (h.fresh notes hbefore) hwrong

/-- A change from outside keeps it so. -/
theorem outside (h : Mirrors workspace.root first second) (change : σ → σ)
    (settings : IndexSettings) :
    Mirrors workspace.root (first.turn (S := S) workspace (.outside change settings)).2
      (second.turn (S := S) workspace (.outside change settings)).2 := by
  have hnone : first.index.invalidate.current? = none := h.dated.current?_later Nat.one_pos
  exact ⟨congrArg change h.files, rfl, h.dated.later 1,
    NoteIndex.fresh_of_current?_eq_none hnone _ _ _⟩

/-- Whatever happens, all replies and all files are the same. -/
theorem run (h : Mirrors workspace.root first second)
    (hkeeps : ∀ files : σ, FileSystem.CreatesOrKeeps files) (turns : List (Turn σ)) :
    Desk.run (S := S) workspace turns first =
      Desk.run workspace (turns.map Turn.uncached) second := by
  induction turns generalizing first second with
  | nil => rfl
  | cons turn rest ih =>
    have hstep : (first.turn (S := S) workspace turn).1 =
          (second.turn workspace turn.uncached).1 ∧
        Mirrors workspace.root (first.turn (S := S) workspace turn).2
          (second.turn (S := S) workspace turn.uncached).2 := by
      cases turn with
      | request settings asked => exact h.request hkeeps settings asked
      | outside change settings => exact ⟨rfl, h.outside change settings⟩
    rw [List.map_cons, run_cons, run_cons]
    simp only [hstep.1, hstep.2.files, ih hstep.2]

end Mirrors

/-- In a new workspace, requests and changes from outside have the same replies and leave the same
files whether the kept list is used or not. -/
theorem run_uncached (hkeeps : ∀ files : σ, FileSystem.CreatesOrKeeps files) (files : σ)
    (settings : IndexSettings) (turns : List (Turn σ)) :
    run (S := S) workspace turns { files, settings } =
      run workspace (turns.map Turn.uncached) { files, settings } :=
  (Mirrors.new workspace.root files settings).run hkeeps turns

/-- A note that is created with the kept list in use is seen by the next request, as it is without
that list, and so is that others have removed it. -/
theorem run_uncached_creation :
    let workspace : Workspace := ⟨⟨"/ws".toList⟩⟩
    let asked : Request := .definitions ⟨"/ws/x.md".toList⟩ "[[New Note]]".toList ⟨0, 3⟩
    let turns : List (Turn MemoryFiles) :=
      [.request {} asked, .request {} .notes, .outside (·.remove ⟨"/ws/new-note.md".toList⟩) {},
        .request {} .notes]
    let files : MemoryFiles := { files := [] }
    run (S := Rat) workspace turns { files } =
        run workspace (turns.map Turn.uncached) { files } ∧
      (run (S := Rat) workspace turns { files }).map (·.2.files.length) = [1, 1, 0, 0] := by
  intro workspace asked turns files
  exact ⟨run_uncached workspace (fun files => files.createsOrKeeps) files {} turns,
    by decide +kernel⟩

end Desk
end LinkedNotes
