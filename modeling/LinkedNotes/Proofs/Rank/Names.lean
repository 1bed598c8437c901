import LinkedNotes.Proofs.Rank.Order

/-!
# Names before paths

How the three keys of notes decide which note comes first. Main statements: a note whose label or
file name matches comes before every note of which only the path matches, and a note whose label is
the query comes before every note whose label does not match. It need not come before a note whose
label holds the query among other characters, since the file name and the path count as well; for
which notes it does is said exactly. Queries without letters, which list all notes, are outside this
module.
-/

namespace LinkedNotes.Ranker

open Rank

variable {comparison : Comparison} {ranker : Ranker} {query : Text} {notes : List Path}

/-! ## Names before paths -/

/-- Whether the label or the file name of a note matches. -/
def MatchesName (comparison : Comparison) (query : Text) (keys : NoteKeys) : Prop :=
  comparison.Matches query keys.label ∨ comparison.Matches query keys.stem

/-- Whether only the path of a note matches. -/
def MatchesOnlyPath (comparison : Comparison) (query : Text) (keys : NoteKeys) : Prop :=
  ¬MatchesName comparison query keys ∧ comparison.Matches query keys.path

/-- A note whose name matches scores less than nine tenths. -/
theorem noteScore_lt_of_matchesName {keys : NoteKeys} (h : MatchesName comparison query keys) :
    comparison.noteScore query keys < 9 / 10 := by
  have hlabel := (share_mem comparison query keys.label).2
  have hstem := (share_mem comparison query keys.stem).2
  have hpath := (share_mem comparison query keys.path).2
  unfold Comparison.noteScore
  rcases h with h | h
  · have := share_le_of_matches h
    linarith
  · have := share_le_of_matches h
    linarith

/-- A note of which only the path matches scores nine tenths or more. -/
theorem le_noteScore_of_matchesOnlyPath {keys : NoteKeys}
    (h : MatchesOnlyPath comparison query keys) : 9 / 10 ≤ comparison.noteScore query keys := by
  obtain ⟨hlabel, hstem⟩ := not_or.mp h.1
  have hpath := (share_mem comparison query keys.path).1
  rw [Comparison.noteScore, share_of_not_matches hlabel, share_of_not_matches hstem]
  linarith

/-- A note whose label or file name matches in any way has a lower score than a note of which only
the path matches, and comes before it. -/
theorem rankBy_names_before_paths (comparison : Comparison) (ranker : Ranker) (query : Text)
    (notes : List Path) (hquery : Note.normalize query ≠ []) :
    let ranked : List (Candidate Rat) := ranker.rankBy comparison query notes
    ∀ (i j : Nat) (hi : i < ranked.length) (hj : j < ranked.length),
      MatchesName comparison (Note.normalize query) ranked[i].keys →
      MatchesOnlyPath comparison (Note.normalize query) ranked[j].keys →
      ranked[i].score < ranked[j].score ∧ i < j := by
  intro ranked i j hi hj hname hpath
  obtain ⟨-, -, -, hscore⟩ := of_mem_rankBy hquery (List.getElem_mem hi)
  obtain ⟨-, -, -, hscore'⟩ := of_mem_rankBy hquery (List.getElem_mem hj)
  have hlt : ranked[i].score < ranked[j].score := by
    rw [hscore, hscore']
    exact (noteScore_lt_of_matchesName hname).trans_le (le_noteScore_of_matchesOnlyPath hpath)
  exact ⟨hlt, lt_of_score_lt hquery hi hj hlt⟩

/-- A job comes before what is only kept in a directory `jo`. -/
theorem rankBy_names_before_paths_directory :
    let ranker : Ranker := ⟨⟨"/ws".toList⟩, .uniqueNames, none⟩
    let notes : List Path := [⟨"/ws/job.md".toList⟩, ⟨"/ws/jo/2024.md".toList⟩]
    let ranked : List (Candidate Rat) := ranker.rankBy .usual "jo".toList notes
    Note.normalize "jo".toList ≠ [] ∧ ∃ (hi : 0 < ranked.length) (hj : 1 < ranked.length),
      MatchesName .usual (Note.normalize "jo".toList) ranked[0].keys ∧
      MatchesOnlyPath .usual (Note.normalize "jo".toList) ranked[1].keys ∧
      ranked[0].score < ranked[1].score ∧ 0 < 1 := by
  intro ranker notes ranked
  have hquery : Note.normalize "jo".toList ≠ [] := by decide +kernel
  have hranked : ranked = ranker.found .usual "jo".toList notes :=
    rankBy_eq_of_pairwise hquery (by decide +kernel)
  have hkeys : ranked.map (·.keys) =
      [⟨"job".toList, "job".toList, "job".toList⟩,
        ⟨"2024".toList, "2024".toList, "jo/2024".toList⟩] := by
    rw [hranked]
    decide +kernel
  have hlength : ranked.length = 2 := by simpa using congrArg List.length hkeys
  have hi : 0 < ranked.length := by omega
  have hj : 1 < ranked.length := by omega
  have hfirst : ranked[0].keys = ⟨"job".toList, "job".toList, "job".toList⟩ := by
    have hget := List.getElem_of_eq hkeys (i := 0) (by rwa [List.length_map])
    rwa [List.getElem_map] at hget
  have hsecond : ranked[1].keys = ⟨"2024".toList, "2024".toList, "jo/2024".toList⟩ := by
    have hget := List.getElem_of_eq hkeys (i := 1) (by rwa [List.length_map])
    rwa [List.getElem_map] at hget
  -- A query of two characters tolerates no typing errors.
  have htolerance : tolerance? (Note.normalize "jo".toList) = none := by decide +kernel
  have hnone : ¬Comparison.usual.Matches (Note.normalize "jo".toList) "2024".toList := by
    rintro (heq | hpoints | ⟨limit, machine, hlimit, -⟩)
    · exact absurd heq (by decide +kernel)
    · exact absurd hpoints (by decide +kernel)
    · rw [htolerance] at hlimit
      cases hlimit
  have hname : MatchesName .usual (Note.normalize "jo".toList) ranked[0].keys := by
    rw [hfirst]
    exact .inl (.inr (.inl (by decide +kernel)))
  have hpath : MatchesOnlyPath .usual (Note.normalize "jo".toList) ranked[1].keys := by
    rw [hsecond]
    exact ⟨not_or.mpr ⟨hnone, hnone⟩, .inr (.inl (by decide +kernel))⟩
  exact ⟨hquery, hi, hj, hname, hpath,
    rankBy_names_before_paths .usual ranker "jo".toList notes hquery 0 1 hi hj hname hpath⟩

/-! ## Exact names -/

/-- Whether no candidate with another label comes before one whose label is the query. -/
def ExactFirst (query : Text) (candidates : List (Candidate Rat)) : Prop :=
  candidates.Pairwise fun first second => second.keys.label = query → first.keys.label = query

/-- What the file name and the path of a note count, in tenths. -/
def besideLabel (comparison : Comparison) (query : Text) (keys : NoteKeys) : Rat :=
  3 * comparison.share query keys.stem + comparison.share query keys.path

/-- The score of a note in tenths. -/
theorem ten_mul_noteScore (comparison : Comparison) (query : Text) (keys : NoteKeys) :
    10 * comparison.noteScore query keys =
      6 * comparison.share query keys.label + besideLabel comparison query keys := by
  rw [Comparison.noteScore, besideLabel]
  ring

/-- A note whose label is the query scores by its file name and its path only. -/
theorem ten_mul_noteScore_of_label_eq (comparison : Comparison) {keys : NoteKeys}
    (h : keys.label = query) :
    10 * comparison.noteScore query keys = besideLabel comparison query keys := by
  rw [ten_mul_noteScore, h, share_self]
  ring

/-- When a note whose label is the query scores no more than another one. -/
theorem noteScore_le_iff_of_label_eq (comparison : Comparison) {exact other : NoteKeys}
    (h : exact.label = query) :
    comparison.noteScore query exact ≤ comparison.noteScore query other ↔
      besideLabel comparison query exact ≤
        6 * comparison.share query other.label + besideLabel comparison query other := by
  rw [← ten_mul_noteScore_of_label_eq comparison h, ← ten_mul_noteScore]
  exact (mul_le_mul_iff_right₀ (by norm_num)).symm

/-- When a note whose label is the query scores less than another one. -/
theorem noteScore_lt_iff_of_label_eq (comparison : Comparison) {exact other : NoteKeys}
    (h : exact.label = query) :
    comparison.noteScore query exact < comparison.noteScore query other ↔
      besideLabel comparison query exact <
        6 * comparison.share query other.label + besideLabel comparison query other := by
  rw [← ten_mul_noteScore_of_label_eq comparison h, ← ten_mul_noteScore]
  exact (mul_lt_mul_iff_right₀ (by norm_num)).symm

/-- A note whose label is the query matches. -/
theorem matchesNote_of_label_eq {keys : NoteKeys} (h : keys.label = query) :
    comparison.MatchesNote query keys :=
  .inl (.inl h)

/-- Under unique names the file name is the label. -/
theorem keys_stem_of_uniqueNames (h : ranker.convention = .uniqueNames) (note : Path) :
    (ranker.keys note).stem = (ranker.keys note).label := by
  simp only [keys, label, h]

/-- Whether exact names come first is decided by the candidates in the order of the notes. -/
theorem exactFirst_rankBy_iff_found (comparison : Comparison) (ranker : Ranker) (notes : List Path)
    (hquery : Note.normalize query ≠ []) :
    ExactFirst (Note.normalize query) (ranker.rankBy comparison query notes) ↔
      (ranker.found comparison query notes).Pairwise fun first second =>
        (first.keys.label = Note.normalize query → second.keys.label ≠ Note.normalize query →
          first.score ≤ second.score) ∧
        (first.keys.label ≠ Note.normalize query → second.keys.label = Note.normalize query →
          second.score < first.score) :=
  (inOrder_rankBy comparison ranker notes hquery).pairwise_first_iff
    (·.keys.label = Note.normalize query)

/-- The candidates in the order of the notes, in pairs. -/
theorem pairwise_found_iff {R : Candidate Rat → Candidate Rat → Prop} :
    (ranker.found comparison query notes).Pairwise R ↔
      notes.Pairwise fun first second =>
        comparison.MatchesNote (Note.normalize query) (ranker.keys first) →
        comparison.MatchesNote (Note.normalize query) (ranker.keys second) →
        R (ranker.candidate query first
            (comparison.noteScore (Note.normalize query) (ranker.keys first)))
          (ranker.candidate query second
            (comparison.noteScore (Note.normalize query) (ranker.keys second))) := by
  have hsome {note : Path} {candidate : Candidate Rat} :
      ((Scorer.ofQuery comparison (Note.normalize query)).noteScore? (ranker.keys note)).map
          (ranker.candidate query note) = some candidate ↔
        comparison.MatchesNote (Note.normalize query) (ranker.keys note) ∧
          ranker.candidate query note
            (comparison.noteScore (Note.normalize query) (ranker.keys note)) = candidate := by
    simp only [Option.map_eq_some_iff, noteScore?_eq_some_iff]
    constructor
    · rintro ⟨_, ⟨hmatches, rfl⟩, rfl⟩
      exact ⟨hmatches, rfl⟩
    · rintro ⟨hmatches, rfl⟩
      exact ⟨_, ⟨hmatches, rfl⟩, rfl⟩
  rw [found, List.pairwise_filterMap]
  refine List.Pairwise.iff fun first second => ?_
  constructor
  · exact fun h hfirst hsecond => h _ (hsome.mpr ⟨hfirst, rfl⟩) _ (hsome.mpr ⟨hsecond, rfl⟩)
  · intro h a ha b hb
    obtain ⟨hfirst, rfl⟩ := hsome.mp ha
    obtain ⟨hsecond, rfl⟩ := hsome.mp hb
    exact h hfirst hsecond

/-- The notes whose label is the query come first exactly if, of every two notes that match, the one
whose label is the query counts no more by its file name and its path than the other one by all its
keys, and less if the other one comes before it. In any case they come before the notes whose label
does not match, and, when names are unique, before those whose label matches up to typing errors
only. -/
theorem exactFirst_rankBy_iff (comparison : Comparison) (ranker : Ranker) (query : Text)
    (notes : List Path) (hquery : Note.normalize query ≠ []) :
    let wanted := Note.normalize query
    let ranked : List (Candidate Rat) := ranker.rankBy comparison query notes
    (ExactFirst wanted ranked ↔
      (notes.map ranker.keys).Pairwise fun first second =>
        (first.label = wanted → second.label ≠ wanted → comparison.MatchesNote wanted second →
          besideLabel comparison wanted first ≤
            6 * comparison.share wanted second.label + besideLabel comparison wanted second) ∧
        (first.label ≠ wanted → second.label = wanted → comparison.MatchesNote wanted first →
          besideLabel comparison wanted second <
            6 * comparison.share wanted first.label + besideLabel comparison wanted first)) ∧
    ∀ (i j : Nat) (hi : i < ranked.length) (hj : j < ranked.length),
      ranked[i].keys.label = wanted →
      ¬comparison.Matches wanted ranked[j].keys.label ∨
        ranker.convention = .uniqueNames ∧ ranked[j].keys.label ≠ wanted ∧
          comparison.points? ranked[j].keys.label wanted = none →
      i < j := by
  intro wanted ranked
  constructor
  · rw [exactFirst_rankBy_iff_found comparison ranker notes hquery, pairwise_found_iff,
      List.pairwise_map]
    refine List.Pairwise.iff fun first second => ?_
    constructor
    · intro h
      refine ⟨fun hlabel hother hmatches => ?_, fun hother hlabel hmatches => ?_⟩
      · exact (noteScore_le_iff_of_label_eq comparison hlabel).mp
          ((h (matchesNote_of_label_eq hlabel) hmatches).1 hlabel hother)
      · exact (noteScore_lt_iff_of_label_eq comparison hlabel).mp
          ((h hmatches (matchesNote_of_label_eq hlabel)).2 hother hlabel)
    · intro h hfirst hsecond
      refine ⟨fun hlabel hother => ?_, fun hother hlabel => ?_⟩
      · exact (noteScore_le_iff_of_label_eq comparison hlabel).mpr (h.1 hlabel hother hsecond)
      · exact (noteScore_lt_iff_of_label_eq comparison hlabel).mpr (h.2 hother hlabel hfirst)
  · intro i j hi hj hexact hother
    obtain ⟨-, hkeys, -, hscore⟩ := of_mem_rankBy hquery (List.getElem_mem hi)
    obtain ⟨-, hkeys', -, hscore'⟩ := of_mem_rankBy hquery (List.getElem_mem hj)
    have hten := ten_mul_noteScore_of_label_eq comparison hexact
    have hten' := ten_mul_noteScore comparison wanted ranked[j].keys
    have hstem := (share_mem comparison wanted ranked[i].keys.stem).2
    have hpath := (share_mem comparison wanted ranked[i].keys.path).2
    have hstem' := (share_mem comparison wanted ranked[j].keys.stem).1
    have hpath' := (share_mem comparison wanted ranked[j].keys.path).1
    refine lt_of_score_lt hquery hi hj ?_
    rw [hscore, hscore']
    unfold besideLabel at hten hten'
    rcases hother with hnot | ⟨hunique, hne, hnone⟩
    · have hlabel' := share_of_not_matches hnot
      linarith
    · have hlabel' := le_share_of_points?_eq_none hne hnone
      -- The file names are the labels, so that one of them counts nothing too.
      have hsame : ranked[i].keys.stem = wanted := by
        rw [hkeys, keys_stem_of_uniqueNames hunique, ← hkeys, hexact]
      have hsame' : ranked[j].keys.stem = ranked[j].keys.label := by
        rw [hkeys', keys_stem_of_uniqueNames hunique]
      rw [hsame, share_self] at hten
      rw [hsame'] at hten'
      linarith

/-- A plan comes before other notes whose names hold the word. -/
theorem exactFirst_rankBy_iff_plan :
    let ranker : Ranker := ⟨⟨"/ws".toList⟩, .uniqueNames, none⟩
    let notes : List Path := [⟨"/ws/planet-notes.md".toList⟩, ⟨"/ws/my-plans.md".toList⟩,
      ⟨"/ws/plan.md".toList⟩]
    Note.normalize "plan".toList ≠ [] ∧
      ExactFirst (Note.normalize "plan".toList) (ranker.rankBy .usual "plan".toList notes) := by
  intro ranker notes
  have hquery : Note.normalize "plan".toList ≠ [] := by decide +kernel
  refine ⟨hquery, (exactFirst_rankBy_iff .usual ranker "plan".toList notes hquery).1.mpr ?_⟩
  have hpairs : (notes.map ranker.keys).Pairwise fun first second =>
      first.label ≠ "plan".toList ∧ (second.label = "plan".toList →
        besideLabel .usual "plan".toList second <
          6 * Comparison.usual.share "plan".toList first.label +
            besideLabel .usual "plan".toList first) := by
    decide +kernel
  have hplan : Note.normalize "plan".toList = "plan".toList := by decide +kernel
  rw [hplan]
  exact hpairs.imp fun h => ⟨fun hlabel => absurd hlabel h.1, fun _ hlabel _ => h.2 hlabel⟩

/-- The notes of a meeting, far down among directories, come after those with a number behind the
same name. -/
theorem not_exactFirst_rank :
    let ranker : Ranker := ⟨⟨"/ws".toList⟩, .uniqueNames, none⟩
    let notes : List Path := [⟨"/ws/projects/archive/2023/meetings/meetingnotes.md".toList⟩,
      ⟨"/ws/meetingnotes2.md".toList⟩]
    ¬ExactFirst (Note.normalize "meetingnotes".toList)
      (ranker.rank "meetingnotes".toList notes) := by
  intro ranker notes h
  have hfound := (exactFirst_rankBy_iff_found .usual ranker notes (by decide +kernel)).mp h
  exact absurd hfound (by decide +kernel)

end LinkedNotes.Ranker
