import LinkedNotes.Match.Basic
import LinkedNotes.Proofs.Note.Slug
import LinkedNotes.Proofs.Text.Letters

/-!
# Normal forms of names

A normal form has no dot, so no extension, and only characters that are their own lower case. Main
statements: it is its own normal form, for names in any script, so that a key may be normalized any
number of times, and the slug of a title has the letters and digits of the title's lower case as its
normal form.
-/

namespace LinkedNotes.Note

open Text

/-! ## What is left of a name -/

/-- A name without dots has no extension. -/
theorem stripExtension_of_notMem {name : Text} (h : '.' ∉ name) : stripExtension name = name := by
  by_contra hne
  have hcount := count_dot_stripExtension_lt hne
  rw [List.count_eq_zero.mpr h] at hcount
  exact Nat.not_lt_zero _ hcount

/-- The normal form of a name without dots is its lower case without separators. -/
theorem normalize_of_notMem {name : Text} (h : '.' ∉ name) :
    normalize name = (lower name).filter (!isSeparator ·) := by
  rw [normalize, stripExtension_of_notMem h]

/-- The separators are the blanks and three signs. -/
theorem isSeparator_eq_false_iff {c : Char} :
    isSeparator c = false ↔ isBlank c = false ∧ c ≠ '-' ∧ c ≠ '_' ∧ c ≠ '.' := by
  simp [isSeparator, and_assoc]

/-- A normal form has no separators and no capitals. -/
theorem of_mem_normalize {name : Text} {c : Char} (h : c ∈ normalize name) :
    IsLower c ∧ isSeparator c = false := by
  obtain ⟨hmem, hseparator⟩ := List.mem_filter.mp h
  exact ⟨isLower_of_mem_lowerAfter hmem, by simpa using hseparator⟩

/-- A name without separators and capitals is its own normal form. -/
theorem normalize_eq_self {name : Text} (h : ∀ c ∈ name, IsLower c ∧ isSeparator c = false) :
    normalize name = name := by
  have hdot : '.' ∉ name := fun hmem => by
    have hseparator := (h '.' hmem).2
    cases hseparator
  rw [normalize_of_notMem hdot, lower, lowerAfter_of_isLower fun c hc => (h c hc).1]
  exact List.filter_eq_self.mpr fun c hc => by rw [(h c hc).2, Bool.not_false]

/-- A normal form is its own normal form. -/
theorem normalize_normalize (name : Text) : normalize (normalize name) = normalize name :=
  normalize_eq_self fun _ => of_mem_normalize

/-- The normal form of a name is its own normal form and has no separators. It names the same note
as the name, and to normalize it again changes no match with a text, with a file name, or with the
keys of notes. -/
theorem normalize_canonical (name other : Text) (path base : Path) (notes : List Path) :
    normalize (normalize name) = normalize name ∧
    (∀ c ∈ normalize name, isBlank c = false ∧ c ≠ '-' ∧ c ≠ '_' ∧ c ≠ '.') ∧
    namesMatch name (normalize name) = true ∧
    namesMatch (normalize name) other = namesMatch name other ∧
    namesMatch other (normalize name) = namesMatch other name ∧
    basenameMatches path (normalize name) = basenameMatches path name ∧
    (Match.keyMap base notes).map (fun entry => (normalize entry.1, entry.2)) =
      Match.keyMap base notes ∧
    (Match.wantedKeys name).map normalize = Match.wantedKeys name := by
  have hself := normalize_normalize name
  have hwanted : ∀ key ∈ Match.wantedKeys name, normalize key = key := fun key hkey => by
    rw [Match.wantedKeys] at hkey
    rcases List.mem_cons.mp hkey with rfl | hkey
    · exact hself
    · split at hkey
      · rw [List.mem_singleton.mp hkey]
        exact normalize_normalize _
      · cases hkey
  refine ⟨hself, fun c hc => isSeparator_eq_false_iff.mp (of_mem_normalize hc).2, ?_, ?_, ?_, ?_,
    ?_, (List.map_congr_left hwanted).trans (List.map_id _)⟩
  · simp only [namesMatch, hself, beq_self_eq_true]
  · simp only [namesMatch, hself]
  · simp only [namesMatch, hself]
  · simp only [basenameMatches, namesMatch, hself]
  · simp only [Match.keyMap, List.map_map, Function.comp_def, normalize_normalize]

/-- Blanks at the ends of a name without dots do not matter for its normal form. -/
theorem normalize_trim {name : Text} (h : '.' ∉ name) : normalize (trim name) = normalize name := by
  obtain ⟨left, right, hlower, hleft, hright⟩ := exists_lower_eq_append_trim name
  have hnone : ∀ blanks : Text, (∀ c ∈ blanks, isBlank c = true) →
      blanks.filter (!isSeparator ·) = [] := fun blanks hblanks =>
    List.filter_eq_nil_iff.mpr fun c hc => by simp [isSeparator, hblanks c hc]
  rw [normalize_of_notMem h, normalize_of_notMem (mt mem_of_mem_trim h), hlower,
    List.filter_append, List.filter_append, hnone left hleft, hnone right hright, List.nil_append,
    List.append_nil]

/-! ## Slugs -/

/-- A letter or digit is no separator. -/
theorem isSeparator_of_isAlphanumeric {c : Char} (h : isAlphanumeric c = true) :
    isSeparator c = false := by
  have hne : ∀ d : Char, isAlphanumeric d = false → c ≠ d := fun d hd heq => by
    rw [heq, hd] at h
    cases h
  refine isSeparator_eq_false_iff.mpr ⟨?_, hne '-' ?_, hne '_' ?_, hne '.' ?_⟩
  · rw [Bool.eq_false_iff]
    intro hblank
    rw [isAlphanumeric_of_isBlank hblank] at h
    cases h
  all_goals decide +kernel

/-- A slug without its hyphens is its title without all but letters and digits. -/
theorem filter_slugFrom (started pending : Bool) (title : Text) :
    (slugFrom started pending title).filter (!isSeparator ·) = title.filter isAlphanumeric := by
  induction title generalizing started pending with
  | nil => rfl
  | cons c rest ih =>
    rw [slugFrom]
    by_cases hc : isAlphanumeric c = true
    · have hkept : (!isSeparator c) = true := by
        rw [isSeparator_of_isAlphanumeric hc, Bool.not_false]
      have hhyphen : (!isSeparator '-') = false := by decide
      rw [if_pos hc, List.filter_append, ih, List.filter_cons_of_pos hc]
      split
      · simp [hhyphen, hkept]
      · simp [hkept]
    · rw [if_neg hc, ih, List.filter_cons_of_neg hc]

/-- A slug in lower case has no capitals. -/
theorem isLower_of_mem_slug {title : Text} {c : Char} (h : c ∈ slug title true) : IsLower c := by
  rw [slug, if_pos rfl] at h
  rcases mem_of_mem_slugFrom h with ⟨hmem, -⟩ | rfl
  · exact isLower_of_mem_lowerAfter hmem
  · decide +kernel

/-- The normal form of a slug in lower case has the letters and digits of the title's lower case. -/
theorem normalize_slug (title : Text) :
    normalize (slug title true) = (lower title).filter isAlphanumeric := by
  have hdot : '.' ∉ slug title true := fun hmem => by
    rcases of_mem_slugFrom hmem with h | h
    · exact absurd h (by decide +kernel)
    · exact absurd h (by decide)
  rw [normalize_of_notMem hdot, lower, lowerAfter_of_isLower fun c => isLower_of_mem_slug, slug,
    if_pos rfl, filter_slugFrom]

/-- The file name of a new note is its slug with an extension. -/
theorem stripExtension_fileNameOf (title : Text) :
    stripExtension (fileNameOf title) = slug title true := by
  have hreverse : (fileNameOf title).reverse = ['d', 'm', '.'] ++ (slug title true).reverse :=
    List.reverse_append
  have hstrip : stripReversed? (fileNameOf title).reverse extensions =
      some (slug title true).reverse := by
    rw [hreverse]
    rfl
  rw [stripExtension, hstrip]
  exact List.reverse_reverse _

/-- The file name of a new note has the letters and digits of the title's lower case as its normal
form, with or without its extension. -/
theorem normalize_fileNameOf (title : Text) :
    normalize (stripExtension (fileNameOf title)) = (lower title).filter isAlphanumeric ∧
      normalize (fileNameOf title) = (lower title).filter isAlphanumeric := by
  have hslug := normalize_slug title
  refine ⟨by rw [stripExtension_fileNameOf, hslug], ?_⟩
  have htwice : stripExtension (stripExtension (fileNameOf title)) =
      stripExtension (fileNameOf title) := by
    refine stripExtension_of_notMem fun hdot => ?_
    rw [stripExtension_fileNameOf] at hdot
    rcases of_mem_slugFrom hdot with h | h
    · exact absurd h (by decide +kernel)
    · exact absurd h (by decide)
  rw [← normalize_stripExtension htwice, stripExtension_fileNameOf, hslug]

/-- The file name of a new note names the same note as a title of letters, digits, blanks and
hyphens, unless the dot of an `İ` is lost. -/
theorem normalize_fileNameOf_iff {title : Text} (h : ∀ c ∈ title, IsPlain c) :
    normalize (stripExtension (fileNameOf title)) = normalize title ↔ 'İ' ∉ title := by
  have hdot : '.' ∉ title := fun hmem => absurd (h '.' hmem) (by decide +kernel)
  rw [(normalize_fileNameOf title).1, normalize_of_notMem hdot]
  constructor
  · -- The dot above an `i` is no separator, so it stays in the normal form of the title.
    intro heq hdotted
    have hmem : dotAbove ∈ (lower title).filter (!isSeparator ·) :=
      List.mem_filter.mpr ⟨dotAbove_mem_lower hdotted, by decide⟩
    rw [← heq] at hmem
    have halphanumeric := (List.mem_filter.mp hmem).2
    rw [isAlphanumeric_dotAbove] at halphanumeric
    cases halphanumeric
  · intro hdotted
    refine List.filter_congr fun c hc => ?_
    rcases isPlain_of_mem_lower h hdotted hc with hc | hc | rfl
    · rw [hc, isSeparator_of_isAlphanumeric hc, Bool.not_false]
    · rw [isAlphanumeric_of_isBlank hc, isSeparator, hc]
      rfl
    · decide +kernel

end LinkedNotes.Note
