import LinkedNotes.Proofs.Files.Laws
import LinkedNotes.Proofs.Workspace.Outcome
import Mathlib.Logic.Function.Basic

/-!
# Notes that are written at once

Several operations may create notes on one workspace at once, each in four steps that those of the
others may come between. Main statement: a file is there when an operation comes to write its note
exactly when another one has written it since the operation looked, and the file is then replaced;
two operations both create the note at one path only in this way. Files that others change or remove
meanwhile are outside this module.
-/

namespace LinkedNotes

open Creation

namespace Creation.Stage

/-- Whether an operation has found no file and has not tried to write it yet. -/
def Pending (stage : Stage) : Prop :=
  stage = .decide ∨ stage = .write

/-- Whether an operation has created its note. When it is done, it tells so. -/
def Created (stage : Stage) : Prop :=
  stage = .announce ∨ stage = .done (.ok true)

/-- An operation that has looked for the file knows the answer. -/
theorem Pending.ne_look {stage : Stage} (h : stage.Pending) : stage ≠ .look := by
  rintro rfl
  cases h with
  | inl h => cases h
  | inr h => cases h

/-- An operation that is about to write has not created its note. -/
theorem Pending.not_created {stage : Stage} (h : stage.Pending) : ¬stage.Created := by
  rcases h with rfl | rfl <;> rintro (h | h) <;> cases h

end Creation.Stage

/-- A note that an operation is about to write. -/
structure Writing where
  /-- Where it goes. -/
  path : Path
  /-- Its text. -/
  content : Text
  deriving DecidableEq, Repr

/-- The note that a plan is to write, if there is one. -/
def Creation.Plan.writing? {α : Type} : Plan α → Option Writing
  | .done _ => none
  | .write path content _ => some ⟨path, content⟩

/-- Several operations that write notes on one workspace. -/
structure Rivals (σ ι : Type) where
  /-- The state of the files. -/
  files : σ
  /-- The list of notes that is kept. -/
  index : NoteIndex := {}
  /-- How far each operation has come. -/
  stage : ι → Stage := fun _ => .look
  /-- Its token. -/
  token : ι → Token := fun _ => {}

variable {σ ι : Type} [FileSystem σ] [DecidableEq ι]

/-- What the next step of the writing of a note does to its stage and to the files. -/
inductive Advances (path : Path) (content : Text) (files : σ) : Stage → σ → Stage → Prop where
  /-- The file is there, and is left alone. -/
  | found (h : FileSystem.isFile files path = true) :
    Advances path content files .look files (.done (.ok false))
  /-- The file is not there. -/
  | missed (h : FileSystem.isFile files path = false) :
    Advances path content files .look files .decide
  /-- The operation is cancelled. -/
  | stopped : Advances path content files .decide files (.done (.error .cancelled))
  /-- The operation goes on. -/
  | goesOn : Advances path content files .decide files .write
  /-- The file is written, whether it is there by now or not. -/
  | wrote {after : σ} (h : FileSystem.create files path content = (.ok (), after)) :
    Advances path content files .write after .announce
  /-- The file cannot be written. -/
  | failed {after : σ} {message : Text}
    (h : FileSystem.create files path content = (.error message, after)) :
    Advances path content files .write after (.done (.error (.io path message)))
  /-- A new generation of the list of notes is started. -/
  | announced : Advances path content files .announce files (.done (.ok true))
  /-- Nothing is left to do. -/
  | rests (result : Except NoteError Bool) :
    Advances path content files (.done result) files (.done result)

/-- A step of the writing of a note is one of these. -/
theorem advances_next (path : Path) (content : Text) (stage : Stage) (session : Session σ) :
    let next := (stage.next path content).run session
    Advances path content session.files stage next.2.files next.1 := by
  cases stage with
  | look =>
    have hlook : (Action.isFile path : Action σ Bool).run session =
        (FileSystem.isFile session.files path,
          { session with token := session.token.during .isFile }) := rfl
    simp only [Stage.next]
    rw [Action.run_bind_of_eq hlook]
    cases hfile : FileSystem.isFile session.files path with
    | true => exact .found hfile
    | false => exact .missed hfile
  | decide =>
    have hdecide : (Action.cancelled : Action σ Bool).run session =
        (session.token.cancelled, session) := rfl
    simp only [Stage.next]
    rw [Action.run_bind_of_eq hdecide]
    cases session.token.cancelled with
    | true => exact .stopped
    | false => exact .goesOn
  | write =>
    have hwrite : (Action.create path content : Action σ (Except Text Unit)).run session =
        ((FileSystem.create session.files path content).1,
          { session with
            files := (FileSystem.create session.files path content).2
            token := session.token.during .create }) := rfl
    simp only [Stage.next]
    rw [Action.run_bind_of_eq hwrite]
    rcases hmade : FileSystem.create session.files path content with ⟨_ | _, after⟩
    · exact .failed hmade
    · exact .wrote hmade
  | announce => exact .announced
  | done result => exact .rests result

namespace Advances

variable {path : Path} {content : Text} {files after : σ} {stage stage' : Stage}

/-- Nobody looks twice. -/
theorem ne_look (h : Advances path content files stage after stage') : stage' ≠ .look := by
  rintro rfl
  cases h

/-- What is created stays created. -/
theorem created (h : Advances path content files stage after stage') (hcreated : stage.Created) :
    stage'.Created := by
  rcases hcreated with rfl | rfl
  · cases h
    exact .inr rfl
  · cases h
    exact .inr rfl

/-- Only writing the file creates the note. -/
theorem of_created (h : Advances path content files stage after stage')
    (hcreated : stage'.Created) :
    after = files ∧ stage.Created ∨ stage = .write ∧ stage' = .announce ∧
      FileSystem.create files path content = (.ok (), after) := by
  rcases hcreated with rfl | rfl
  · cases h with
    | wrote hmade => exact .inr ⟨rfl, rfl, hmade⟩
  · cases h with
    | announced => exact .inl ⟨rfl, .inl rfl⟩
    | rests => exact .inl ⟨rfl, .inr rfl⟩

/-- Who has found no file and has not written it yet has just looked or was so before. -/
theorem of_pending (h : Advances path content files stage after stage')
    (hpending : stage'.Pending) :
    after = files ∧ (stage = .look ∧ FileSystem.isFile files path = false ∨ stage.Pending) := by
  rcases hpending with rfl | rfl
  · cases h with
    | missed habsent => exact ⟨rfl, .inl ⟨rfl, habsent⟩⟩
  · cases h with
    | goesOn => exact ⟨rfl, .inr (.inl rfl)⟩

/-- The files only change when a note is created. -/
theorem files_cases (h : Advances path content files stage after stage')
    (hlaws : FileSystem.Replaces σ) :
    FileSystem.create files path content = (.ok (), after) ∧ stage = .write ∧ stage' = .announce ∨
      after = files ∧ ¬(stage = .write ∧ stage' = .announce) := by
  cases h with
  | wrote hmade => exact .inl ⟨hmade, rfl, rfl⟩
  | failed hmade => exact .inr ⟨hlaws.failed _ _ _ _ _ hmade, fun ⟨_, hne⟩ => by cases hne⟩
  | _ => exact .inr ⟨rfl, fun ⟨hne, _⟩ => by cases hne⟩

end Advances

namespace Rivals

/-- What one operation works with. -/
def session (rivals : Rivals σ ι) (who : ι) : Session σ :=
  { files := rivals.files, index := rivals.index, token := rivals.token who }

/-- What the next step of one operation comes to. -/
def next (writing : ι → Writing) (rivals : Rivals σ ι) (who : ι) : Stage × Session σ :=
  ((rivals.stage who).next (writing who).path (writing who).content).run (rivals.session who)

/-- One operation takes its next step. -/
def step (writing : ι → Writing) (rivals : Rivals σ ι) (who : ι) : Rivals σ ι where
  files := (rivals.next writing who).2.files
  index := (rivals.next writing who).2.index
  stage := Function.update rivals.stage who (rivals.next writing who).1
  token := Function.update rivals.token who (rivals.next writing who).2.token

/-- The operations take steps in some order. -/
def run (writing : ι → Writing) (rivals : Rivals σ ι) (schedule : List ι) : Rivals σ ι :=
  schedule.foldl (step writing) rivals

/-- Whether, in a run, one operation writes its note while another one has looked for its own and
has not written it yet. -/
def Overtakes (writing : ι → Writing) (rivals : Rivals σ ι) (schedule : List ι) (who other : ι) :
    Prop :=
  ∃ before after, schedule = before ++ who :: after ∧
    ((rivals.run writing before).stage other).Pending ∧
    (rivals.run writing before).stage who = .write ∧
    ((rivals.run writing before).step writing who).stage who = .announce

section

variable {writing : ι → Writing} {rivals : Rivals σ ι} {who other last : ι} {schedule : List ι}

/-- A step is one of the writing of a note. -/
theorem advances_step (writing : ι → Writing) (rivals : Rivals σ ι) (who : ι) :
    Advances (writing who).path (writing who).content rivals.files (rivals.stage who)
      (rivals.step writing who).files ((rivals.step writing who).stage who) := by
  have hnext := advances_next (writing who).path (writing who).content (rivals.stage who)
    (rivals.session who)
  simp only [step, Function.update_self]
  exact hnext

/-- A step of one operation leaves the others where they are. -/
theorem stage_step_of_ne (h : other ≠ who) :
    (rivals.step writing who).stage other = rivals.stage other :=
  Function.update_of_ne h _ _

theorem run_concat (writing : ι → Writing) (rivals : Rivals σ ι) (schedule : List ι) (last : ι) :
    rivals.run writing (schedule ++ [last]) = (rivals.run writing schedule).step writing last :=
  List.foldl_concat ..

/-- Who has looked does not look again. -/
theorem ne_look_run (h : rivals.stage who ≠ .look) (schedule : List ι) :
    (rivals.run writing schedule).stage who ≠ .look := by
  induction schedule using List.reverseRecOn with
  | nil => exact h
  | append_singleton schedule last ih =>
    rw [run_concat]
    by_cases hwho : who = last
    · subst hwho
      exact (advances_step writing _ who).ne_look
    · rwa [stage_step_of_ne hwho]

/-- What is created stays created. -/
theorem created_step (h : (rivals.stage who).Created) (last : ι) :
    ((rivals.step writing last).stage who).Created := by
  by_cases hwho : who = last
  · subst hwho
    exact (advances_step writing rivals who).created h
  · rwa [stage_step_of_ne hwho]

/-- An operation that no other comes between takes the steps of its writing. -/
theorem run_replicate (writing : ι → Writing) (rivals : Rivals σ ι) (who : ι) (n : Nat) :
    let after := rivals.run writing (List.replicate n who)
    (after.stage who, after.session who) =
      (Stage.after (writing who).path (writing who).content n (rivals.stage who)).run
        (rivals.session who) := by
  induction n generalizing rivals with
  | zero => rfl
  | succ n ih =>
    have hself : (rivals.step writing who).session who = (rivals.next writing who).2 := by
      simp only [session, step, Function.update_self]
    have hstage : (rivals.step writing who).stage who = (rivals.next writing who).1 :=
      Function.update_self ..
    have hrest := ih (rivals.step writing who)
    rw [hself, hstage] at hrest
    exact hrest

/-- An operation that no other comes between writes its note as a whole. -/
theorem run_alone (writing : ι → Writing) (rivals : Rivals σ ι) (who : ι)
    (hstart : rivals.stage who = .look) :
    let after := rivals.run writing (List.replicate 4 who)
    (after.stage who, after.session who) =
      (Stage.done <$> writeIfAbsent (writing who).path (writing who).content).run
        (rivals.session who) := by
  intro after
  rw [← after_four_look, ← hstart]
  exact run_replicate writing rivals who 4

/-- In a longer run, an operation overtakes another one as before or with the last step. -/
theorem overtakes_concat :
    rivals.Overtakes writing (schedule ++ [last]) who other ↔
      rivals.Overtakes writing schedule who other ∨
        last = who ∧ ((rivals.run writing schedule).stage other).Pending ∧
          (rivals.run writing schedule).stage who = .write ∧
          ((rivals.run writing schedule).step writing who).stage who = .announce := by
  constructor
  · rintro ⟨before, after, hschedule, hpending, hwrite, hannounce⟩
    rcases List.eq_nil_or_concat after with rfl | ⟨after, final, rfl⟩
    · obtain ⟨rfl, hlast⟩ := List.append_inj' hschedule rfl
      obtain rfl : last = who := List.head_eq_of_cons_eq hlast
      exact .inr ⟨rfl, hpending, hwrite, hannounce⟩
    · rw [List.concat_eq_append, ← List.cons_append, ← List.append_assoc] at hschedule
      obtain ⟨rfl, -⟩ := List.append_inj' hschedule rfl
      exact .inl ⟨before, after, rfl, hpending, hwrite, hannounce⟩
  · rintro (⟨before, after, rfl, hpending, hwrite, hannounce⟩ |
      ⟨rfl, hpending, hwrite, hannounce⟩)
    · refine ⟨before, after ++ [last], ?_, hpending, hwrite, hannounce⟩
      rw [List.append_assoc, List.cons_append]
    · exact ⟨schedule, [], rfl, hpending, hwrite, hannounce⟩

/-- Nobody overtakes who has not looked yet. -/
theorem not_overtakes_of_look (h : (rivals.run writing schedule).stage other = .look) :
    ¬rivals.Overtakes writing schedule who other := by
  rintro ⟨before, after, rfl, hpending, -⟩
  have hrun : rivals.run writing (before ++ who :: after) =
      (rivals.run writing before).run writing (who :: after) := List.foldl_append ..
  rw [hrun] at h
  exact ne_look_run hpending.ne_look _ h

end

section

variable {writing : ι → Writing} {rivals : Rivals σ ι} (hlaws : FileSystem.Replaces σ)
  (hstart : ∀ who, rivals.stage who = .look) (schedule : List ι)
include hlaws hstart

/-- A note that was created is there. -/
theorem isFile_of_created {who : ι}
    (hcreated : ((rivals.run writing schedule).stage who).Created) {path : Path}
    (hpath : path.same (writing who).path = true) :
    FileSystem.isFile (rivals.run writing schedule).files path = true := by
  induction schedule using List.reverseRecOn with
  | nil =>
    rw [run, List.foldl_nil, hstart who] at hcreated
    rcases hcreated with h | h <;> cases h
  | append_singleton schedule last ih =>
    have hstep := advances_step writing (rivals.run writing schedule) last
    rw [run_concat] at hcreated ⊢
    by_cases hwho : who = last
    · subst hwho
      rcases hstep.of_created hcreated with ⟨hfiles, hbefore⟩ | ⟨-, -, hmade⟩
      · rw [hfiles]
        exact ih hbefore
      · exact (hlaws.isFile hmade path).mpr (.inl hpath)
    · rw [stage_step_of_ne hwho] at hcreated
      rcases hstep.files_cases hlaws with ⟨hmade, -⟩ | ⟨hfiles, -⟩
      · exact (hlaws.isFile hmade path).mpr (.inr (ih hcreated))
      · rw [hfiles]
        exact ih hcreated

/-- Who has found no file and has not written it yet finds one then exactly when another operation
with this path has overtaken it. -/
theorem isFile_iff_overtakes {other : ι}
    (hpending : ((rivals.run writing schedule).stage other).Pending) :
    FileSystem.isFile (rivals.run writing schedule).files (writing other).path = true ↔
      ∃ who, who ≠ other ∧ (writing other).path.same (writing who).path = true ∧
        rivals.Overtakes writing schedule who other := by
  induction schedule using List.reverseRecOn with
  | nil =>
    rw [run, List.foldl_nil, hstart other] at hpending
    exact absurd rfl hpending.ne_look
  | append_singleton schedule last ih =>
    have hstep := advances_step writing (rivals.run writing schedule) last
    simp only [overtakes_concat]
    rw [run_concat] at hpending ⊢
    by_cases hother : other = last
    · subst hother
      obtain ⟨hfiles, ⟨hlook, habsent⟩ | hbefore⟩ := hstep.of_pending hpending
      · -- It has just looked, so nobody has overtaken it yet.
        rw [hfiles, habsent]
        refine ⟨nofun, ?_⟩
        rintro ⟨who, hwho, -, hover | ⟨rfl, -⟩⟩
        · exact absurd hover (not_overtakes_of_look hlook)
        · exact absurd rfl hwho
      · rw [hfiles, ih hbefore]
        refine exists_congr fun who => and_congr_right fun hwho => and_congr_right fun _ => ?_
        rw [or_iff_left]
        rintro ⟨rfl, -⟩
        exact hwho rfl
    · rw [stage_step_of_ne hother] at hpending
      have hbefore := ih hpending
      rcases hstep.files_cases hlaws with ⟨hmade, hwrite, hannounce⟩ | ⟨hfiles, hrest⟩
      · rw [hlaws.isFile hmade, hbefore]
        constructor
        · rintro (hsame | ⟨who, hwho, hsame, hover⟩)
          · exact ⟨last, Ne.symm hother, hsame, .inr ⟨rfl, hpending, hwrite, hannounce⟩⟩
          · exact ⟨who, hwho, hsame, .inl hover⟩
        · rintro ⟨who, hwho, hsame, hover | ⟨rfl, -⟩⟩
          · exact .inr ⟨who, hwho, hsame, hover⟩
          · exact .inl hsame
      · rw [hfiles, hbefore]
        refine exists_congr fun who => and_congr_right fun _ => and_congr_right fun _ => ?_
        rw [or_iff_left]
        rintro ⟨rfl, -, hwritten⟩
        exact hrest hwritten

/-- A note that was created is overtaken by no one who looks later, so whoever has found no file
beside it was overtaken. -/
theorem overtakes_of_created {who other : ι}
    (hsame : (writing other).path.same (writing who).path = true)
    (hcreated : ((rivals.run writing schedule).stage who).Created)
    (hpending : ((rivals.run writing schedule).stage other).Pending) :
    rivals.Overtakes writing schedule who other := by
  induction schedule using List.reverseRecOn with
  | nil =>
    rw [run, List.foldl_nil, hstart other] at hpending
    exact absurd rfl hpending.ne_look
  | append_singleton schedule last ih =>
    have hstep := advances_step writing (rivals.run writing schedule) last
    rw [overtakes_concat]
    have hne : who ≠ other := by
      rintro rfl
      exact hpending.not_created hcreated
    rw [run_concat] at hcreated hpending
    by_cases hother : other = last
    · subst hother
      rw [stage_step_of_ne hne] at hcreated
      obtain ⟨hfiles, ⟨-, habsent⟩ | hbefore⟩ := hstep.of_pending hpending
      · -- It would have found the note.
        rw [isFile_of_created hlaws hstart schedule hcreated hsame] at habsent
        cases habsent
      · exact .inl (ih hcreated hbefore)
    · rw [stage_step_of_ne hother] at hpending
      by_cases hwho : who = last
      · subst hwho
        rcases hstep.of_created hcreated with ⟨-, hbefore⟩ | ⟨hwrite, hannounce, -⟩
        · exact .inl (ih hbefore hpending)
        · exact .inr ⟨rfl, hpending, hwrite, hannounce⟩
      · rw [stage_step_of_ne hwho] at hcreated
        exact .inl (ih hcreated hpending)

/-- Of two operations that have both created the note at one path, one has overtaken the other. -/
theorem overtakes_or_overtakes {who other : ι} (hne : who ≠ other)
    (hsame : (writing other).path.same (writing who).path = true)
    (hwho : ((rivals.run writing schedule).stage who).Created)
    (hother : ((rivals.run writing schedule).stage other).Created) :
    rivals.Overtakes writing schedule who other ∨ rivals.Overtakes writing schedule other who := by
  induction schedule using List.reverseRecOn generalizing who other with
  | nil =>
    rw [run, List.foldl_nil, hstart who] at hwho
    exact absurd hwho (by rintro (h | h) <;> cases h)
  | append_singleton schedule last ih =>
    have hstep := advances_step writing (rivals.run writing schedule) last
    simp only [overtakes_concat]
    rw [run_concat] at hwho hother
    -- Only the one that has taken the last step may have created its note just now.
    wlog hlast : other ≠ last generalizing who other
    · obtain rfl : other = last := not_not.mp hlast
      have hsame' : (writing who).path.same (writing other).path = true :=
        Path.same_iff.mpr (Path.same_iff.mp hsame).symm
      exact (this hne.symm hsame' hother hwho hne).symm
    rw [stage_step_of_ne hlast] at hother
    by_cases hwho' : who = last
    · subst hwho'
      rcases hstep.of_created hwho with ⟨-, hbefore⟩ | ⟨hwrite, -⟩
      · exact (ih hne hsame hbefore hother).imp .inl .inl
      · have hsame' : (writing who).path.same (writing other).path = true :=
          Path.same_iff.mpr (Path.same_iff.mp hsame).symm
        have hover := overtakes_of_created hlaws hstart schedule hsame' hother (.inr hwrite)
        exact .inr (.inl hover)
    · rw [stage_step_of_ne hwho'] at hwho
      exact (ih hne hsame hwho hother).imp .inl .inl

/-- A note that one operation alone has created has the text of this operation. -/
theorem read_of_created_alone {who : ι}
    (hcreated : ((rivals.run writing schedule).stage who).Created)
    (halone : ∀ other, other ≠ who → (writing who).path.same (writing other).path = true →
      ¬((rivals.run writing schedule).stage other).Created) :
    FileSystem.read (rivals.run writing schedule).files (writing who).path =
      some (writing who).content := by
  induction schedule using List.reverseRecOn with
  | nil =>
    rw [run, List.foldl_nil, hstart who] at hcreated
    exact absurd hcreated (by rintro (h | h) <;> cases h)
  | append_singleton schedule last ih =>
    have hstep := advances_step writing (rivals.run writing schedule) last
    rw [run_concat] at hcreated halone ⊢
    have halone' : ∀ other, other ≠ who → (writing who).path.same (writing other).path = true →
        ¬((rivals.run writing schedule).stage other).Created := fun other hother hsame hbefore =>
      halone other hother hsame (created_step hbefore last)
    by_cases hwho : who = last
    · subst hwho
      rcases hstep.of_created hcreated with ⟨hfiles, hbefore⟩ | ⟨-, -, hmade⟩
      · rw [hfiles]
        exact ih hbefore halone'
      · rw [hlaws.read hmade, if_pos (Path.same_self _)]
    · rw [stage_step_of_ne hwho] at hcreated
      rcases hstep.files_cases hlaws with ⟨hmade, -, hannounce⟩ | ⟨hfiles, -⟩
      · have hother : ¬(writing who).path.same (writing last).path = true := fun hsame =>
          halone last (Ne.symm hwho) hsame (.inl hannounce)
        rw [hlaws.read hmade, if_neg hother]
        exact ih hcreated halone'
      · rw [hfiles]
        exact ih hcreated halone'

end

/-- When an operation comes to write its note, a file is there exactly when another operation with
this path has overtaken it, and then it replaces that note. Two operations both create the note at
one path only if one has overtaken the other, and the note that one of them alone has created keeps
its text. -/
theorem run_overwrites_iff (writing : ι → Writing) {rivals : Rivals σ ι}
    (hlaws : FileSystem.Replaces σ) (hstart : ∀ who, rivals.stage who = .look)
    (schedule : List ι) :
    let after := rivals.run writing schedule
    let alike (who other : ι) := (writing who).path.same (writing other).path = true
    (∀ who, after.stage who = .write →
      (FileSystem.isFile after.files (writing who).path = true ↔
        ∃ other, other ≠ who ∧ alike who other ∧ rivals.Overtakes writing schedule other who)) ∧
    (∀ who other, who ≠ other → alike who other → (after.stage who).Created →
      (after.stage other).Created →
        rivals.Overtakes writing schedule who other ∨
          rivals.Overtakes writing schedule other who) ∧
    ∀ who, (after.stage who).Created →
      (∀ other, other ≠ who → alike who other → ¬(after.stage other).Created) →
        FileSystem.read after.files (writing who).path = some (writing who).content := by
  intro after alike
  refine ⟨fun who hwrite => ?_, fun who other hne hsame hwho hother => ?_, fun who => ?_⟩
  · exact isFile_iff_overtakes hlaws hstart schedule (.inr hwrite)
  · exact (overtakes_or_overtakes hlaws hstart schedule hne.symm hsame hother hwho).symm
  · exact read_of_created_alone hlaws hstart schedule

/-- Two notes at one path: one by its title, the other by a dangling link. -/
def twoNotes : Bool → Writing
  | true => ⟨⟨"/ws/plan.md".toList⟩, "# Plan\n\n".toList⟩
  | false => ⟨⟨"/ws/plan.md".toList⟩, "# plan\n\n".toList⟩

/-- An operation that comes to write after another one with its path has written finds the file, as
it was overtaken. -/
theorem run_overwrites_iff_overtaken :
    let rivals : Rivals MemoryFiles Bool := { files := { files := [] } }
    let schedule := [true, false, true, false, true]
    let after := rivals.run twoNotes schedule
    FileSystem.isFile after.files (twoNotes false).path = true ∧
      rivals.Overtakes twoNotes schedule true false := by
  intro rivals schedule after
  have hwrite : after.stage false = .write := by rfl
  have hfile : FileSystem.isFile after.files (twoNotes false).path = true := by decide +kernel
  have hstart : ∀ who, rivals.stage who = .look := fun _ => rfl
  obtain ⟨hover, -⟩ := run_overwrites_iff twoNotes MemoryFiles.replaces hstart schedule
  obtain ⟨other, hne, -, hovertakes⟩ := (hover false hwrite).mp hfile
  obtain rfl : other = true := by simpa using hne
  exact ⟨hfile, hovertakes⟩

/-- A title and a dangling link ask for one note. Both operations look before either writes: each
tells that it has created the note, and the text of the first is gone. -/
theorem run_creates_twice :
    let workspace : Workspace := ⟨⟨"/ws".toList⟩⟩
    let document : Path := ⟨"/ws/x.md".toList⟩
    let now : Moment := ⟨2024, 1, 1, 10, 0, 0, 0, 0⟩
    let rivals : Rivals MemoryFiles Bool := { files := { files := [] } }
    let written := rivals.run twoNotes [true, false, true, false, true]
    let after := written.run twoNotes [false, true, false]
    (workspace.newNotePlan "Plan".toList (some document) {} now).writing? =
        some (twoNotes true) ∧
      (Workspace.missingPlan "plan".toList document {}).writing? = some (twoNotes false) ∧
      FileSystem.read written.files (twoNotes true).path = some (twoNotes true).content ∧
      written.stage false = .write ∧
      after.stage true = .done (.ok true) ∧ after.stage false = .done (.ok true) ∧
      FileSystem.read after.files (twoNotes true).path = some (twoNotes false).content ∧
      (twoNotes true).content ≠ (twoNotes false).content := by
  intro workspace document now rivals written after
  refine ⟨by decide +kernel, by decide +kernel, by decide +kernel, rfl, rfl, rfl, ?_, ?_⟩
  · decide +kernel
  · decide

end Rivals
end LinkedNotes
