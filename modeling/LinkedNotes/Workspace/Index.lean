import LinkedNotes.Path.Basic

/-!
# The note index

Finding all notes takes time, so their list is kept. Every list is kept with the generation at which
its enumeration began. Whatever may change the notes starts a new generation, and a list of an older
generation is not served any more.
-/

namespace LinkedNotes

/-- A list of notes with the generation at which its enumeration began. -/
structure Snapshot where
  /-- The generation. -/
  generation : Nat
  /-- The notes. -/
  notes : List Path
  deriving DecidableEq, Repr

/-- The list of notes that is kept between requests. -/
structure NoteIndex where
  /-- The current generation. -/
  generation : Nat := 0
  /-- The list that was found last. -/
  snapshot : Option Snapshot := none
  deriving DecidableEq, Repr

namespace NoteIndex

/-- The index after something that may have changed the notes. -/
def invalidate (index : NoteIndex) : NoteIndex :=
  { index with generation := index.generation + 1 }

/-- The list that can be served without looking at files: one of the current generation that is not
empty. -/
def current? (index : NoteIndex) : Option (List Path) :=
  match index.snapshot with
  | some snapshot =>
    if snapshot.generation = index.generation ∧ snapshot.notes ≠ [] then some snapshot.notes
    else none
  | none => none

/-- The index with a list whose enumeration began at a generation. -/
def store (index : NoteIndex) (generation : Nat) (notes : List Path) : NoteIndex :=
  { index with snapshot := some ⟨generation, notes⟩ }

/-- The notes, enumerated if the kept list cannot be served. The list is kept with the generation
from before the enumeration. A cancelled enumeration gives no notes and keeps nothing, and so does
every call while keeping is switched off. -/
def getOrRefill {m : Type → Type} [Monad m] [MonadStateOf NoteIndex m] (enabled : Bool)
    (enumerate : m (Option (List Path))) : m (List Path) := do
  if !enabled then return (← enumerate).getD []
  let index ← getThe NoteIndex
  match index.current? with
  | some notes => return notes
  | none =>
    match ← enumerate with
    | none => return []
    | some notes =>
      modifyThe NoteIndex (·.store index.generation notes)
      return notes

/-- A new generation has no list to serve until one is stored. -/
theorem current?_invalidate_store (index : NoteIndex) (notes : List Path) :
    (index.store index.generation notes).invalidate.current? = none := by
  simp [invalidate, store, current?]

/-- A list that was stored at the current generation is served, unless it is empty. -/
theorem current?_store (index : NoteIndex) {notes : List Path} (h : notes ≠ []) :
    (index.store index.generation notes).current? = some notes := by
  simp [store, current?, h]

end NoteIndex
end LinkedNotes
