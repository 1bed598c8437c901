import LinkedNotes.Workspace.Index

/-!
# What the note index serves

A run of an index mixes new generations with questions for the notes, and new generations may also
start while the notes are enumerated. Main statement: a question is answered by its own enumeration
or by one that no new generation overlaps or follows, and an enumeration that was cancelled, that
was overlapped, or whose list was not to be kept leaves no trace in later answers. How the notes are
enumerated is outside this module.
-/

namespace LinkedNotes

namespace NoteIndex

/-- Whether the list that is kept belongs to a generation that has begun. -/
def Dated (index : NoteIndex) : Prop :=
  ∀ snapshot, index.snapshot = some snapshot → snapshot.generation ≤ index.generation

/-- A list that can be served is the one that is kept, and of the current generation. -/
theorem current?_eq_some_iff {index : NoteIndex} {notes : List Path} :
    index.current? = some notes ↔
      index.snapshot = some ⟨index.generation, notes⟩ ∧ notes ≠ [] := by
  unfold current?
  cases hsnapshot : index.snapshot with
  | none => simp
  | some snapshot =>
    obtain ⟨generation, kept⟩ := snapshot
    simp only [Option.ite_none_right_eq_some, Option.some.injEq, Snapshot.mk.injEq]
    constructor
    · rintro ⟨⟨hgeneration, hne⟩, rfl⟩
      exact ⟨⟨hgeneration, rfl⟩, hne⟩
    · rintro ⟨⟨hgeneration, rfl⟩, hne⟩
      exact ⟨⟨hgeneration, hne⟩, rfl⟩

/-- A list of another generation cannot be served. -/
theorem current?_eq_none_of_ne {index : NoteIndex}
    (h : ∀ snapshot, index.snapshot = some snapshot → snapshot.generation ≠ index.generation) :
    index.current? = none := by
  rw [Option.eq_none_iff_forall_ne_some]
  intro notes hnotes
  exact h _ (current?_eq_some_iff.mp hnotes).1 rfl

/-- No list has been kept of a generation that is yet to come. -/
theorem dated_new : Dated {} := by
  intro snapshot h
  cases h

/-- The index after some new generations. -/
def later (index : NoteIndex) (n : Nat) : NoteIndex :=
  { index with generation := index.generation + n }

/-- New generations come after that of the list that is kept. -/
theorem Dated.later {index : NoteIndex} (h : index.Dated) (n : Nat) : (index.later n).Dated := by
  intro snapshot hsnapshot
  exact Nat.le_add_right_of_le (h snapshot hsnapshot)

/-- The list that is kept cannot be served in a new generation. -/
theorem Dated.current?_later {index : NoteIndex} (h : index.Dated) {n : Nat} (hn : 0 < n) :
    (index.later n).current? = none := by
  refine current?_eq_none_of_ne fun snapshot hsnapshot => ?_
  have hle := h snapshot hsnapshot
  simp only [NoteIndex.later]
  omega

/-- A list may be kept that was enumerated in the current generation or before. -/
theorem dated_store {index : NoteIndex} {generation : Nat} (h : generation ≤ index.generation)
    (notes : List Path) : (index.store generation notes).Dated := by
  intro snapshot hsnapshot
  cases hsnapshot
  exact h

end NoteIndex

/-- An enumeration that has ended. Its times are numbers of new generations. -/
structure Enumeration where
  /-- How many generations had been started when it began. -/
  began : Nat
  /-- How many had been started when it ended. -/
  ended : Nat
  /-- The notes that were found, unless it was cancelled. -/
  found : Option (List Path)
  deriving DecidableEq, Repr

/-- An index with a record of what has happened to it. -/
structure IndexLog where
  /-- The index. -/
  index : NoteIndex := {}
  /-- How many generations have been started. -/
  invalidations : Nat := 0
  /-- The enumerations that have ended, the latest first. -/
  enumerations : List Enumeration := []
  deriving DecidableEq, Repr

namespace IndexLog

instance : MonadStateOf NoteIndex (StateM IndexLog) where
  get log := (log.index, log)
  set index log := ((), { log with index := index })
  modifyGet f log :=
    let (result, index) := f log.index
    (result, { log with index := index })

/-- The record after a new generation. -/
def invalidated (log : IndexLog) : IndexLog :=
  { log with index := log.index.invalidate, invalidations := log.invalidations + 1 }

/-- Starts some new generations. -/
def invalidate : Nat → StateM IndexLog Unit
  | 0 => return
  | n + 1 => do
    modifyThe IndexLog invalidated
    invalidate n

/-- An enumeration with its end, while which some new generations are started. -/
def enumerate (meanwhile : Nat) (found : Option (List Path)) :
    StateM IndexLog (Option (List Path)) := do
  let began := (← getThe IndexLog).invalidations
  invalidate meanwhile
  modifyThe IndexLog fun log =>
    { log with enumerations := ⟨began, log.invalidations, found⟩ :: log.enumerations }
  return found

/-- The answer to a question for the notes. If they are enumerated, then with the given end. -/
def ask (enabled : Bool) (meanwhile : Nat) (found : Option (List Path)) :
    StateM IndexLog (List Path) :=
  NoteIndex.getOrRefill enabled (enumerate meanwhile found)

/-- What can happen to an index. -/
inductive Event where
  /-- A new generation is started. -/
  | invalidate
  /-- The notes are asked for, with the end that an enumeration would have. -/
  | ask (enabled : Bool) (meanwhile : Nat) (found : Option (List Path))
  deriving DecidableEq, Repr

/-- The answers to the questions of a run. -/
def run : List Event → StateM IndexLog (List (List Path))
  | [] => return []
  | .invalidate :: rest => do
    invalidate 1
    run rest
  | .ask enabled meanwhile found :: rest => do
    let notes ← ask enabled meanwhile found
    return notes :: (← run rest)

/-- The record after some new generations. -/
def after (log : IndexLog) (n : Nat) : IndexLog :=
  { log with index := log.index.later n, invalidations := log.invalidations + n }

/-- The record after an enumeration. -/
def enumerated (log : IndexLog) (meanwhile : Nat) (found : Option (List Path)) : IndexLog :=
  { log.after meanwhile with
    enumerations :=
      ⟨log.invalidations, log.invalidations + meanwhile, found⟩ :: log.enumerations }

/-- New generations only count up. -/
theorem invalidate_run (n : Nat) (log : IndexLog) :
    (invalidate n).run log = ((), log.after n) := by
  induction n generalizing log with
  | zero => rfl
  | succ n ih =>
    have hstep : (invalidate (n + 1)).run log = (invalidate n).run log.invalidated := rfl
    rw [hstep, ih]
    simp [after, invalidated, NoteIndex.invalidate, NoteIndex.later, Nat.add_comm,
      Nat.add_left_comm]

/-- An enumeration is put on record with its times. -/
theorem enumerate_run (meanwhile : Nat) (found : Option (List Path)) (log : IndexLog) :
    (enumerate meanwhile found).run log = (found, log.enumerated meanwhile found) := by
  have hbind : (enumerate meanwhile found).run log =
      (found, { ((invalidate meanwhile).run log).2 with
        enumerations := ⟨log.invalidations, ((invalidate meanwhile).run log).2.invalidations,
          found⟩ :: ((invalidate meanwhile).run log).2.enumerations }) := rfl
  rw [hbind, invalidate_run]
  rfl

/-- The record after an enumeration whose list is kept. -/
def refilled (log : IndexLog) (meanwhile : Nat) (notes : List Path) : IndexLog :=
  let ended := log.enumerated meanwhile (some notes)
  { ended with index := ended.index.store log.index.generation notes }

section

variable (meanwhile : Nat) (found : Option (List Path)) {log : IndexLog}

/-- While keeping is switched off, a question is answered by an enumeration. -/
theorem ask_run_of_disabled :
    (ask false meanwhile found).run log = (found.getD [], log.enumerated meanwhile found) := by
  have hask : (ask false meanwhile found).run log =
      (((enumerate meanwhile found).run log).1.getD [],
        ((enumerate meanwhile found).run log).2) := rfl
  rw [hask, enumerate_run]

/-- A question starts with a look at the index. -/
theorem getThe_bind_run (next : NoteIndex → StateM IndexLog (List Path)) (log : IndexLog) :
    (getThe NoteIndex >>= next).run log = (next log.index).run log :=
  rfl

/-- A list that can be served is the answer, and nothing is enumerated. -/
theorem ask_run_of_current {notes : List Path} (h : log.index.current? = some notes) :
    (ask true meanwhile found).run log = (notes, log) := by
  unfold ask NoteIndex.getOrRefill
  rw [Bool.not_true, if_neg Bool.false_ne_true, getThe_bind_run, h]
  rfl

/-- Otherwise the notes are enumerated, and what is found is the answer and is kept. -/
theorem ask_run_of_stale (h : log.index.current? = none) :
    (ask true meanwhile found).run log =
      match found with
      | none => ([], log.enumerated meanwhile none)
      | some notes => (notes, log.refilled meanwhile notes) := by
  unfold ask NoteIndex.getOrRefill
  rw [Bool.not_true, if_neg Bool.false_ne_true, getThe_bind_run, h]
  simp only [StateT.run_bind, enumerate_run]
  cases found <;> rfl

end

/-- What a run of an index keeps true of its record. -/
structure Sound (log : IndexLog) : Prop where
  /-- The generation counts the new generations. -/
  generation : log.index.generation = log.invalidations
  /-- The list that is kept was found by an enumeration that began at its generation. -/
  kept : ∀ snapshot, log.index.snapshot = some snapshot →
    ∃ e ∈ log.enumerations, e.found = some snapshot.notes ∧ e.began = snapshot.generation
  /-- No enumeration ended before it began, or is yet to end. -/
  ordered : ∀ e ∈ log.enumerations, e.began ≤ e.ended ∧ e.ended ≤ log.invalidations

/-- Nothing has happened to a new index. -/
theorem sound_new : Sound {} := by
  refine ⟨rfl, fun snapshot h => ?_, fun e h => ?_⟩
  · cases h
  · cases h

/-- A list is only kept of a generation that has begun. -/
theorem Sound.dated {log : IndexLog} (h : log.Sound) : log.index.Dated := by
  intro snapshot hsnapshot
  obtain ⟨e, he, -, hbegan⟩ := h.kept snapshot hsnapshot
  have hordered := h.ordered e he
  rw [h.generation, ← hbegan]
  omega

/-- New generations keep a record sound. -/
theorem Sound.after {log : IndexLog} (h : log.Sound) (n : Nat) : (log.after n).Sound where
  generation := by
    simp only [IndexLog.after, NoteIndex.later, h.generation]
  kept := h.kept
  ordered := fun e he => by
    have hordered := h.ordered e he
    simp only [IndexLog.after]
    omega

/-- An enumeration keeps a record sound. -/
theorem Sound.enumerated {log : IndexLog} (h : log.Sound) (meanwhile : Nat)
    (found : Option (List Path)) : (log.enumerated meanwhile found).Sound where
  generation := (h.after meanwhile).generation
  kept := fun snapshot hsnapshot => by
    obtain ⟨e, he, hfound⟩ := h.kept snapshot hsnapshot
    exact ⟨e, List.mem_cons_of_mem _ he, hfound⟩
  ordered := fun e he => by
    rcases List.mem_cons.mp he with rfl | he
    · exact ⟨Nat.le_add_right _ _, Nat.le_refl _⟩
    · exact (h.after meanwhile).ordered e he

/-- So does keeping the list that an enumeration has found. -/
theorem Sound.refilled {log : IndexLog} (h : log.Sound) (meanwhile : Nat) (notes : List Path) :
    (log.refilled meanwhile notes).Sound where
  generation := (h.enumerated meanwhile (some notes)).generation
  kept := fun snapshot hsnapshot => by
    cases hsnapshot
    exact ⟨_, List.mem_cons_self, rfl, h.generation.symm⟩
  ordered := (h.enumerated meanwhile (some notes)).ordered

/-- A question keeps a record sound. -/
theorem Sound.ask {log : IndexLog} (h : log.Sound) (enabled : Bool) (meanwhile : Nat)
    (found : Option (List Path)) : ((ask enabled meanwhile found).run log).2.Sound := by
  cases enabled with
  | false =>
    rw [ask_run_of_disabled]
    exact h.enumerated meanwhile found
  | true =>
    cases hcurrent : log.index.current? with
    | some notes =>
      rw [ask_run_of_current meanwhile found hcurrent]
      exact h
    | none =>
      rw [ask_run_of_stale meanwhile found hcurrent]
      cases found with
      | none => exact h.enumerated meanwhile none
      | some notes => exact h.refilled meanwhile notes

/-- The answers of a run that starts with a new generation are those of the rest. -/
theorem run_invalidate (rest : List Event) (log : IndexLog) :
    (run (.invalidate :: rest)).run log = (run rest).run (log.after 1) := by
  have hrun : (run (.invalidate :: rest)).run log =
      (run rest).run ((invalidate 1).run log).2 := rfl
  rw [hrun, invalidate_run]

/-- A question is answered before the rest of a run. -/
theorem run_ask (enabled : Bool) (meanwhile : Nat) (found : Option (List Path))
    (rest : List Event) (log : IndexLog) :
    (run (.ask enabled meanwhile found :: rest)).run log =
      let asked := (ask enabled meanwhile found).run log
      (asked.1 :: ((run rest).run asked.2).1, ((run rest).run asked.2).2) :=
  rfl

/-- A run of an index keeps its record sound. -/
theorem Sound.run {log : IndexLog} (h : log.Sound) (events : List Event) :
    ((run events).run log).2.Sound := by
  induction events generalizing log with
  | nil => exact h
  | cons event rest ih =>
    cases event with
    | invalidate =>
      rw [run_invalidate]
      exact ih (h.after 1)
    | ask enabled meanwhile found => exact ih (h.ask enabled meanwhile found)

/-- Whether two indexes cannot be told apart by their answers: they are at one generation and serve
the same list. -/
structure Alike (first second : NoteIndex) : Prop where
  /-- The generations are the same. -/
  generation : first.generation = second.generation
  /-- So are the lists that can be served. -/
  current : first.current? = second.current?
  /-- The first keeps no list of a generation that is yet to come. -/
  dated : first.Dated
  /-- Nor does the second. -/
  dated' : second.Dated

namespace Alike

/-- An index is like itself. -/
theorem refl {index : NoteIndex} (h : index.Dated) : Alike index index :=
  ⟨rfl, rfl, h, h⟩

/-- An index that serves nothing is like one with another list that it does not serve. -/
theorem of_current?_eq_none {first second : NoteIndex} (hgeneration : first.generation =
    second.generation) (h : first.current? = none) (h' : second.current? = none)
    (hdated : first.Dated) (hdated' : second.Dated) : Alike first second :=
  ⟨hgeneration, h.trans h'.symm, hdated, hdated'⟩

/-- New generations change nothing about that. -/
theorem later {first second : NoteIndex} (h : Alike first second) (n : Nat) :
    Alike (first.later n) (second.later n) := by
  cases n with
  | zero => exact h
  | succ n =>
    have hgeneration : (first.later (n + 1)).generation = (second.later (n + 1)).generation :=
      congrArg (· + (n + 1)) h.generation
    exact of_current?_eq_none hgeneration (h.dated.current?_later n.succ_pos)
      (h.dated'.current?_later n.succ_pos) (h.dated.later _) (h.dated'.later _)

/-- A list that is kept is kept by both. -/
theorem refilled {first second : IndexLog} (h : Alike first.index second.index) (meanwhile : Nat)
    (notes : List Path) :
    Alike (first.refilled meanwhile notes).index (second.refilled meanwhile notes).index := by
  have heq : (first.refilled meanwhile notes).index =
      (second.refilled meanwhile notes).index := by
    simp only [IndexLog.refilled, IndexLog.enumerated, IndexLog.after, NoteIndex.store,
      NoteIndex.later, h.generation]
  rw [heq]
  exact refl (NoteIndex.dated_store (Nat.le_add_right _ _) notes)

/-- A question has one answer for both, and cannot tell them apart after it. -/
theorem ask {first second : IndexLog} (h : Alike first.index second.index) (enabled : Bool)
    (meanwhile : Nat) (found : Option (List Path)) :
    ((ask enabled meanwhile found).run first).1 = ((ask enabled meanwhile found).run second).1 ∧
      Alike ((ask enabled meanwhile found).run first).2.index
        ((ask enabled meanwhile found).run second).2.index := by
  cases enabled with
  | false =>
    rw [ask_run_of_disabled, ask_run_of_disabled]
    exact ⟨rfl, h.later meanwhile⟩
  | true =>
    cases hcurrent : first.index.current? with
    | some notes =>
      rw [ask_run_of_current meanwhile found hcurrent,
        ask_run_of_current meanwhile found (h.current ▸ hcurrent)]
      exact ⟨rfl, h⟩
    | none =>
      rw [ask_run_of_stale meanwhile found hcurrent,
        ask_run_of_stale meanwhile found (h.current ▸ hcurrent)]
      cases found with
      | none => exact ⟨rfl, h.later meanwhile⟩
      | some notes => exact ⟨rfl, h.refilled meanwhile notes⟩

/-- All later answers are the same. -/
theorem run {first second : IndexLog} (h : Alike first.index second.index)
    (events : List Event) :
    ((run events).run first).1 = ((run events).run second).1 := by
  induction events generalizing first second with
  | nil => rfl
  | cons event rest ih =>
    cases event with
    | invalidate =>
      rw [run_invalidate, run_invalidate]
      exact ih (h.later 1)
    | ask enabled meanwhile found =>
      obtain ⟨hanswer, halike⟩ := h.ask enabled meanwhile found
      rw [run_ask, run_ask]
      simp only [hanswer, ih halike]

end Alike

/-- New generations give no answers. -/
theorem run_replicate_invalidate (n : Nat) (rest : List Event) (log : IndexLog) :
    (run (List.replicate n .invalidate ++ rest)).run log = (run rest).run (log.after n) := by
  induction n generalizing log with
  | zero => rfl
  | succ n ih =>
    rw [List.replicate_succ, List.cons_append, run_invalidate, ih]
    simp [after, NoteIndex.later, Nat.add_comm, Nat.add_left_comm]

/-- The answer to a question while lists are kept: nothing if its own enumeration is cancelled, else
what its own enumeration has found, else the list of an earlier one that no new generation overlaps
or follows. -/
theorem ask_fresh_of_sound {log : IndexLog} (h : log.Sound) (meanwhile : Nat)
    (found : Option (List Path)) :
    let asked := (ask true meanwhile found).run log
    asked.2.enumerations =
        ⟨log.invalidations, asked.2.invalidations, found⟩ :: log.enumerations ∧
        asked.1 = found.getD [] ∨
      asked.2 = log ∧ ∃ e ∈ log.enumerations, e.found = some asked.1 ∧
        e.began = log.invalidations ∧ e.ended = log.invalidations := by
  intro asked
  cases hcurrent : log.index.current? with
  | some notes =>
    have hasked : asked = (notes, log) := ask_run_of_current meanwhile found hcurrent
    obtain ⟨hsnapshot, -⟩ := NoteIndex.current?_eq_some_iff.mp hcurrent
    obtain ⟨e, he, hfound, hbegan⟩ := h.kept _ hsnapshot
    have hordered := h.ordered e he
    have hgeneration := h.generation
    rw [hasked]
    simp only at hbegan
    exact .inr ⟨rfl, e, he, hfound, by omega, by omega⟩
  | none =>
    have hasked : asked = _ := ask_run_of_stale meanwhile found hcurrent
    left
    rw [hasked]
    cases found with
    | none => exact ⟨rfl, rfl⟩
    | some notes => exact ⟨rfl, rfl⟩

/-- A question whose enumeration is not to be kept, is cancelled or is overlapped leaves an index
like the one that only the new generations leave. -/
theorem alike_of_sound {log : IndexLog} (h : log.Sound) {enabled : Bool} {meanwhile : Nat}
    {found : Option (List Path)} (hvoid : enabled = false ∨ found = none ∨ 0 < meanwhile) :
    let asked := ((ask enabled meanwhile found).run log).2
    Alike asked.index (log.after (asked.invalidations - log.invalidations)).index := by
  intro asked
  have hlater : ∀ n, log.invalidations + n - log.invalidations = n :=
    fun n => Nat.add_sub_cancel_left _ n
  cases enabled with
  | false =>
    have hasked : asked = log.enumerated meanwhile found := by
      simp only [asked, ask_run_of_disabled]
    rw [hasked]
    simp only [enumerated, after, hlater]
    exact .refl (h.dated.later meanwhile)
  | true =>
    cases hcurrent : log.index.current? with
    | some notes =>
      have hasked : asked = log := by
        simp only [asked, ask_run_of_current meanwhile found hcurrent]
      rw [hasked, Nat.sub_self]
      exact .refl h.dated
    | none =>
      cases found with
      | none =>
        have hasked : asked = log.enumerated meanwhile none := by
          simp only [asked, ask_run_of_stale meanwhile none hcurrent]
        rw [hasked]
        simp only [enumerated, after, hlater]
        exact .refl (h.dated.later meanwhile)
      | some notes =>
        have hasked : asked = log.refilled meanwhile notes := by
          simp only [asked, ask_run_of_stale meanwhile (some notes) hcurrent]
        have hpos : 0 < meanwhile := by simpa using hvoid
        rw [hasked]
        simp only [refilled, enumerated, after, hlater]
        refine .of_current?_eq_none rfl ?_ (h.dated.current?_later hpos)
          (NoteIndex.dated_store (Nat.le_add_right _ _) notes) (h.dated.later meanwhile)
        -- The list that is kept is that of the generation before the new ones.
        refine NoteIndex.current?_eq_none_of_ne fun snapshot hsnapshot => ?_
        cases hsnapshot
        simp only [NoteIndex.later, NoteIndex.store]
        omega

/-- In a run of a new index, a question while lists are kept is answered by its own enumeration,
with nothing if that is cancelled, or by an earlier one that began and ended after all new
generations before the question. If an enumeration is not to be kept, is cancelled, or is overlapped
by a new generation, all later answers are what they would be without it: only the new generations
that were started meanwhile remain. -/
theorem run_ask_fresh (before later : List Event) (enabled : Bool) (meanwhile : Nat)
    (found : Option (List Path)) :
    let log := ((run before).run {}).2
    let asked := (ask enabled meanwhile found).run log
    (enabled = true →
      asked.2.enumerations =
          ⟨log.invalidations, asked.2.invalidations, found⟩ :: log.enumerations ∧
          asked.1 = found.getD [] ∨
        asked.2 = log ∧ ∃ e ∈ log.enumerations, e.found = some asked.1 ∧
          e.began = log.invalidations ∧ e.ended = log.invalidations) ∧
      (enabled = false ∨ found = none ∨ 0 < meanwhile →
        ((run later).run asked.2).1 =
          ((run (List.replicate (asked.2.invalidations - log.invalidations) .invalidate ++
            later)).run log).1) := by
  intro log asked
  have hsound : log.Sound := sound_new.run before
  refine ⟨fun henabled => ?_, fun hvoid => ?_⟩
  · subst henabled
    exact ask_fresh_of_sound hsound meanwhile found
  · rw [run_replicate_invalidate]
    exact (alike_of_sound hsound hvoid).run later

/-- A list is not served any more when a new generation has overlapped its enumeration. -/
theorem run_ask_fresh_overlapped :
    let first : Path := ⟨"/ws/a.md".toList⟩
    let second : Path := ⟨"/ws/b.md".toList⟩
    let log := ((run [.ask true 0 (some [first]), .invalidate]).run {}).2
    let asked := (ask true 1 (some [first])).run log
    (∃ e ∈ asked.2.enumerations, e.found = some asked.1 ∧ log.invalidations ≤ e.began) ∧
      ((run [.ask true 0 (some [first, second])]).run asked.2).1 = [[first, second]] := by
  intro first second log asked
  obtain ⟨hasked, hlater⟩ := run_ask_fresh [.ask true 0 (some [first]), .invalidate]
    [.ask true 0 (some [first, second])] true 1 (some [first])
  have hanswers : ((run [.ask true 0 (some [first, second])]).run asked.2).1 =
      [[first, second]] :=
    (hlater (.inr (.inr Nat.one_pos))).trans rfl
  refine ⟨?_, hanswers⟩
  rcases hasked rfl with ⟨henumerations, hanswer⟩ | ⟨hlog, -⟩
  · exact ⟨_, henumerations ▸ List.mem_cons_self, congrArg some hanswer.symm, Nat.le_refl _⟩
  · -- The list that is kept is of the generation before.
    cases hlog

end IndexLog
end LinkedNotes
