import LinkedNotes.Match.Basic
import LinkedNotes.Rank.Scale
import LinkedNotes.Rank.Subsequence
import LinkedNotes.Rank.Typo

/-!
# Ranking notes for a query

Each note has three keys: the normal forms of its label, of its file name and of its path below the
root. A key may equal the query, hold it as a subsequence, or start with it up to typing errors; the
score of a note is the weighted mean of what its keys score. Notes none of whose keys match are left
out. A query without letters lists all notes by label. How subsequences are scored and which texts
are near a query is left to a comparison, of which one is in use.
-/

namespace LinkedNotes

/-- For whom notes are ranked. -/
structure Ranker where
  /-- The root of the workspace. -/
  root : Path
  /-- How link texts name notes. -/
  convention : NamingConvention
  /-- The note being edited. -/
  source : Option Path

/-- The normal forms in which a note is looked for. -/
structure NoteKeys where
  /-- That of the label. -/
  label : Text
  /-- That of the file name. -/
  stem : Text
  /-- That of the path below the root. -/
  path : Text
  deriving DecidableEq, Repr

/-- A note proposed for a query. -/
structure Candidate (S : Type) where
  /-- The note. -/
  path : Path
  /-- The name that is shown and inserted. -/
  label : Text
  /-- The query followed by the label, by which an editor narrows the list. -/
  filterText : Text
  /-- What was compared with the query. -/
  keys : NoteKeys
  /-- How far the note is from the query. -/
  score : S
  deriving DecidableEq

namespace Ranker

/-- The name that is shown and inserted for a note. -/
def label (ranker : Ranker) (note : Path) : Text :=
  match ranker.convention with
  | .uniqueNames => Note.stem note
  | .relativePaths =>
    let base := (ranker.source.bind Path.parent?).getD ranker.root
    Note.stripExtension (Path.relative base note).text

/-- The keys of a note. -/
def keys (ranker : Ranker) (note : Path) : NoteKeys where
  label := Note.normalize (ranker.label note)
  stem := Note.normalize (Note.stem note)
  path := Note.normalize ((note.stripPrefix? ranker.root).getD note).text

/-- A note as a candidate with a score. -/
def candidate {S : Type} (ranker : Ranker) (query : Text) (note : Path) (score : S) :
    Candidate S where
  path := note
  label := ranker.label note
  filterText := query ++ [' '] ++ ranker.label note
  keys := ranker.keys note
  score := score

end Ranker

namespace Rank

variable {S : Type} [Scale S]

/-- How a query is compared with a key that is not equal to it. -/
structure Comparison where
  /-- How well a text holds a pattern as a subsequence, if it does. -/
  points? (text pattern : Text) : Option Int
  /-- The automaton that accepts the texts within a number of typing errors of a query, unless it
  would be too large. -/
  typos? (query : Text) (limit : Nat) : Option Automaton

/-- The comparison in use. -/
def Comparison.usual : Comparison where
  points? := Subsequence.score?
  typos? := Typo.Pattern.automaton?

/-- How many typing errors a query tolerates: none below three characters, one below five, else
two. -/
def tolerance? (query : Text) : Option Nat :=
  if query.length < 3 then none else some (if query.length < 5 then 1 else 2)

/-- What a query is compared by. -/
structure Scorer where
  /-- How it is compared. -/
  comparison : Comparison
  /-- The normal form of the query. -/
  query : Text
  /-- The score of the query as a subsequence of itself. -/
  best : Int
  /-- The automaton for keys that start with the query up to typing errors. -/
  typos : Option Automaton

/-- What a query in normal form is compared by. -/
def Scorer.ofQuery (comparison : Comparison) (query : Text) : Scorer where
  comparison := comparison
  query := query
  best := max ((comparison.points? query query).getD 1) 1
  typos := (tolerance? query).bind fun limit =>
    (comparison.typos? query limit).map Automaton.startsWith

/-- The score of a key that only matches up to typing errors. -/
def typoScore : S := OfScientific.ofScientific 6 true 1

/-- The score of a key that does not match. -/
def noMatch : S := Scale.ofInt 1

/-- The score of a key that holds the query as a subsequence, from how good the best way of placing
it is and from how much of the key it covers. -/
def subsequenceScore (points best : Int) (queryLength keyLength : Nat) : S :=
  let one : S := Scale.ofInt 1
  let closeness := Scale.clamp (Scale.ofInt points / Scale.ofInt best : S)
  let coverage : S := Scale.ofInt queryLength / Scale.ofInt (max keyLength 1 : Nat)
  let covered := if Scale.le coverage one then coverage else one
  OfScientific.ofScientific 4 true 1 * (one - closeness) +
    OfScientific.ofScientific 1 true 1 * (one - covered)

/-- The score of a key, if it matches. -/
def Scorer.score? (scorer : Scorer) (key : Text) : Option S :=
  if key = scorer.query then some (Scale.ofInt 0)
  else match scorer.comparison.points? key scorer.query with
    | some points =>
      some (subsequenceScore points scorer.best scorer.query.length key.length)
    | none =>
      if scorer.typos.any (·.comesToAccept (Automaton.utf8 key)) then some typoScore else none

/-- Weight of the label. -/
def labelWeight : S := OfScientific.ofScientific 6 true 1

/-- Weight of the file name. -/
def stemWeight : S := OfScientific.ofScientific 3 true 1

/-- Weight of the path below the root. -/
def pathWeight : S := OfScientific.ofScientific 1 true 1

/-- The weighted mean of three scores; a key that does not match counts in full. -/
def mean (label stem path : Option S) : S :=
  let zero : S := Scale.ofInt 0
  let total : S := zero + labelWeight + stemWeight + pathWeight
  (zero + label.getD noMatch * labelWeight + stem.getD noMatch * stemWeight +
    path.getD noMatch * pathWeight) / total

/-- The score of a note by its keys, if one of them matches. -/
def Scorer.noteScore? (scorer : Scorer) (keys : NoteKeys) : Option S :=
  let label : Option S := scorer.score? keys.label
  let stem : Option S := scorer.score? keys.stem
  let path : Option S := scorer.score? keys.path
  if label.isNone && stem.isNone && path.isNone then none else some (mean label stem path)

end Rank

namespace Ranker

/-- All notes by the lower case of their labels. -/
def listAll {S : Type} [Scale S] (ranker : Ranker) (query : Text) (notes : List Path) :
    List (Candidate S) :=
  let all := notes.map fun note =>
    let candidate : Candidate S := ranker.candidate query note (Scale.ofInt 0)
    (Text.lower candidate.label, candidate)
  (all.mergeSort fun a b => Text.le a.1 b.1).map (·.2)

/-- The candidates for a query under a comparison, best first; equal scores keep the order of the
notes. -/
def rankBy {S : Type} [Scale S] (comparison : Rank.Comparison) (ranker : Ranker) (query : Text)
    (notes : List Path) : List (Candidate S) :=
  let wanted := Note.normalize query
  if wanted = [] then ranker.listAll query notes
  else
    let scorer := Rank.Scorer.ofQuery comparison wanted
    let found := notes.filterMap fun note =>
      (scorer.noteScore? (ranker.keys note)).map (ranker.candidate query note)
    found.mergeSort fun a b => Scale.le a.score b.score

/-- The candidates for a query under the comparison in use. -/
def rank {S : Type} [Scale S] : Ranker → Text → List Path → List (Candidate S) :=
  rankBy .usual

end Ranker
end LinkedNotes
