import LinkedNotes.Rank.Subsequence
import Mathlib

/-!
# Which texts have scored subsequences

Main statement: a pattern without ASCII capitals has a score in a text exactly if it is a
subsequence of the text when the case of ASCII letters does not count. How high the score is, is
outside this module.
-/

namespace LinkedNotes.Subsequence

/-! ## Places -/

/-- The characters of a pattern are found one after the other exactly if the pattern is a
subsequence. -/
theorem isSome_firstPlaces?_iff (place : Nat) (text pattern : Text) :
    (firstPlaces? false place text pattern).isSome = true ↔
      (pattern.map Char.toLower).Sublist (text.map Char.toLower) := by
  induction text generalizing place pattern with
  | nil => cases pattern <;> simp [firstPlaces?]
  | cons c rest ih =>
    cases pattern with
    | nil => simp [firstPlaces?]
    | cons p pattern =>
      rw [firstPlaces?, List.map_cons, List.map_cons]
      by_cases hmatch : p.toLower = c.toLower
      · rw [if_pos (by simpa [matchesChar] using hmatch), Option.isSome_map, ih, hmatch,
          List.cons_sublist_cons]
      · rw [if_neg (by simpa [matchesChar] using hmatch), ih, List.map_cons]
        -- The first character of the text is of no use.
        rw [List.cons_sublist_cons', or_iff_left fun h => hmatch h.1]

/-- The places are those of characters of the text, one for each character of the pattern. -/
theorem of_firstPlaces?_eq_some {exact : Bool} {place : Nat} {text pattern : Text}
    {places : List Nat} (h : firstPlaces? exact place text pattern = some places) :
    places.length = pattern.length ∧ ∀ at' ∈ places, at' < place + text.length := by
  induction text generalizing place pattern places with
  | nil =>
    cases pattern with
    | nil =>
      cases h
      exact ⟨rfl, fun _ hmem => absurd hmem List.not_mem_nil⟩
    | cons => cases h
  | cons c rest ih =>
    cases pattern with
    | nil =>
      cases h
      exact ⟨rfl, fun _ hmem => absurd hmem List.not_mem_nil⟩
    | cons p pattern =>
      rw [firstPlaces?] at h
      split at h
      · obtain ⟨more, hmore, rfl⟩ := Option.map_eq_some_iff.mp h
        obtain ⟨hlength, hbound⟩ := ih hmore
        refine ⟨by rw [List.length_cons, hlength, List.length_cons], fun found hfound => ?_⟩
        rw [List.length_cons]
        rcases List.mem_cons.mp hfound with rfl | hfound
        · omega
        · have := hbound found hfound
          omega
      · obtain ⟨hlength, hbound⟩ := ih h
        refine ⟨hlength, fun found hfound => ?_⟩
        have := hbound found hfound
        rw [List.length_cons]
        omega

/-! ## Rows -/

/-- Every character has a bonus. -/
theorem length_bonuses (text : Text) : (bonuses text).length = text.length := by
  have hzip : ((Kind.start :: text.map kindOf).zipWith placeBonus (text.map kindOf)).length =
      text.length := by simp
  simp only [bonuses]
  split
  · next h =>
    rw [h] at hzip
    exact hzip
  · next h =>
    rw [h] at hzip
    exact hzip

/-- A row has one cell more than it has columns. -/
theorem length_rowAfter (exact : Bool) (p : Char) (last : Cell) (columns : List Column) :
    (rowAfter exact p last columns).length = columns.length + 1 := by
  induction columns generalizing last with
  | nil => rfl
  | cons column rest ih =>
    rw [rowAfter]
    simp only
    split <;> simp [ih]

/-- Writing a row keeps its length. -/
theorem length_writeRow {exact : Bool} {p : Char} {first : Nat} {row other : List Cell}
    {text : Text} {bonus : List Int} (hfirst : first < text.length)
    (hrow : row.length = text.length + 1) (hother : other.length = text.length + 1)
    (hbonus : bonus.length = text.length) :
    (writeRow exact p first row other text bonus).length = text.length + 1 := by
  simp only [writeRow, columnsAfter, List.length_append, List.length_take, length_rowAfter,
    List.length_map, List.length_zip, List.length_drop, hrow, hother, hbonus]
  omega

/-- Writing all rows keeps their length. -/
theorem length_writeRows {exact : Bool} {text : Text} {bonus : List Int} {row other : List Cell}
    {pattern : List (Char × Nat)} (hpattern : ∀ entry ∈ pattern, entry.2 < text.length)
    (hrow : row.length = text.length + 1) (hother : other.length = text.length + 1)
    (hbonus : bonus.length = text.length) :
    (writeRows exact text bonus row other pattern).length = text.length + 1 := by
  induction pattern generalizing row other with
  | nil => exact hother
  | cons entry rest ih =>
    obtain ⟨hentry, hrest⟩ := List.forall_mem_cons.mp hpattern
    exact ih hrest hother (length_writeRow hentry hrow hother hbonus)

/-- A pattern without ASCII capitals has a score exactly in the texts that hold it as a subsequence,
whatever the case of ASCII letters. -/
theorem isSome_score?_iff {text pattern : Text} (hne : pattern ≠ [])
    (hcase : caseMatters pattern = false) :
    (score? text pattern).isSome = true ↔
      (pattern.map Char.toLower).Sublist (text.map Char.toLower) := by
  rw [← isSome_firstPlaces?_iff 0]
  simp only [score?, hcase, Option.bind_eq_bind]
  cases hplaces : firstPlaces? false 0 text pattern with
  | none => exact ⟨(nomatch ·), (nomatch ·)⟩
  | some places =>
    obtain ⟨hlength, hbound⟩ := of_firstPlaces?_eq_some hplaces
    simp only [Nat.zero_add] at hbound
    obtain ⟨first, rest, rfl⟩ : ∃ first rest, places = first :: rest :=
      List.exists_cons_of_ne_nil fun hnil => hne (List.length_eq_zero_iff.mp (by
        rw [← hlength, hnil, List.length_nil]))
    have hlast := hbound _ (List.getLast_mem (List.cons_ne_nil first rest))
    refine ⟨fun _ => rfl, fun _ => ?_⟩
    rw [Option.bind_some, List.getLast?_eq_getLast_of_ne_nil (List.cons_ne_nil first rest),
      Option.bind_some, List.head?_cons, Option.bind_some]
    -- The last row has a cell at the last place.
    rw [List.isSome_max?_iff, Ne, List.map_eq_nil_iff, List.drop_eq_nil_iff, length_writeRows]
    · omega
    · intro entry hentry
      exact hbound _ (List.of_mem_zip hentry).2
    · simp
    · simp
    · exact length_bonuses text

end LinkedNotes.Subsequence
