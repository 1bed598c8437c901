import LinkedNotes.Note.Slug
import LinkedNotes.Proofs.Path.Components
import LinkedNotes.Proofs.Text.Blank

/-!
# File names of new notes

The file name of a new note is the slug of its title with an extension. Main statements: it is one
step of a path, with a single dot, and no blank title has a slug.
-/

namespace LinkedNotes.Note

open Text

/-- A character of a slug is a letter or digit of the title, or a hyphen. -/
theorem mem_of_mem_slugFrom {started pending : Bool} {title : Text} {c : Char}
    (h : c ∈ slugFrom started pending title) : c ∈ title ∧ isAlphanumeric c = true ∨ c = '-' := by
  induction title generalizing started pending with
  | nil => simp [slugFrom] at h
  | cons first rest ih =>
    have hlater : c ∈ rest ∧ isAlphanumeric c = true ∨ c = '-' →
        c ∈ first :: rest ∧ isAlphanumeric c = true ∨ c = '-' :=
      Or.imp_left (And.imp_left (List.mem_cons_of_mem first))
    rw [slugFrom] at h
    split at h
    · next hfirst =>
      rcases List.mem_append.mp h with h | h
      · split at h
        · simp only [List.mem_cons, List.not_mem_nil, or_false] at h
          rcases h with rfl | rfl
          · exact .inr rfl
          · exact .inl ⟨List.mem_cons_self, hfirst⟩
        · rw [List.mem_singleton] at h
          exact .inl ⟨h ▸ List.mem_cons_self, h ▸ hfirst⟩
      · exact hlater (ih h)
    · exact hlater (ih h)

/-- A slug has only letters, digits and hyphens. -/
theorem of_mem_slugFrom {started pending : Bool} {title : Text} {c : Char}
    (h : c ∈ slugFrom started pending title) : isAlphanumeric c = true ∨ c = '-' :=
  (mem_of_mem_slugFrom h).imp_left And.right

/-- A text without letters and digits has no slug. -/
theorem slugFrom_eq_nil {text : Text} (h : ∀ c ∈ text, isAlphanumeric c = false)
    (started pending : Bool) : slugFrom started pending text = [] := by
  induction text generalizing pending with
  | nil => rfl
  | cons first rest ih =>
    obtain ⟨hfirst, hrest⟩ := List.forall_mem_cons.mp h
    rw [slugFrom, hfirst, if_neg Bool.false_ne_true]
    exact ih hrest true

/-- A title with a slug is not blank. -/
theorem trim_ne_nil_of_slug_ne_nil {title : Text} (h : slug title true ≠ []) : trim title ≠ [] := by
  intro htrim
  have hblank := isBlank_of_trim_eq_nil htrim
  refine h ?_
  rw [slug, if_pos rfl, lower, lowerAfter_of_isBlank hblank]
  exact slugFrom_eq_nil (fun c hc => isAlphanumeric_of_isBlank (hblank c hc)) false false

/-- The file name of a new note has one dot. -/
theorem count_dot_fileNameOf (title : Text) : (fileNameOf title).count '.' = 1 := by
  have hslug : '.' ∉ slug title true := fun h => by
    have hdot : isAlphanumeric '.' = false := by decide +kernel
    simpa [hdot] using of_mem_slugFrom h
  rw [fileNameOf, List.count_append, List.count_eq_zero.mpr hslug]
  decide

/-- Whether a text can be the stem of the file of a note: it has letters, digits and hyphens, and
nothing else. -/
structure IsStem (stem : Text) : Prop where
  /-- There is at least one character. -/
  ne_nil : stem ≠ []
  /-- Each character is a letter, a digit or a hyphen. -/
  of_mem : ∀ c ∈ stem, isAlphanumeric c = true ∨ c = '-'

/-- A slug can be the stem of the file of a note, unless it is empty. -/
theorem isStem_slug {title : Text} {lowercase : Bool} (h : slug title lowercase ≠ []) :
    IsStem (slug title lowercase) :=
  ⟨h, fun _ => of_mem_slugFrom⟩

/-- The characters of slugs make file names without slashes. -/
theorem slash_notMem_append_md {stem : Text}
    (h : ∀ c ∈ stem, isAlphanumeric c = true ∨ c = '-') : '/' ∉ stem ++ ".md".toList := by
  intro hmem
  have hslash : isAlphanumeric '/' = false := by decide +kernel
  rcases List.mem_append.mp hmem with hmem | hmem
  · simpa [hslash] using h '/' hmem
  · exact absurd hmem (by decide)

/-- A text with the extension of notes is one step of a path. -/
theorem ofPiece?_append_md (stem : Text) :
    Component.ofPiece? (stem ++ ".md".toList) = some (.name (stem ++ ".md".toList)) := by
  have hlong : 3 ≤ (stem ++ ".md".toList).length := by
    rw [List.length_append]
    exact Nat.le_add_left 3 _
  rw [Component.ofPiece?, if_neg, if_neg]
  · intro he
    rw [he] at hlong
    exact absurd hlong (by decide)
  · rintro (he | he) <;> (rw [he] at hlong; exact absurd hlong (by decide))

/-- The file name of a new note has no slash. -/
theorem slash_notMem_fileNameOf (title : Text) : '/' ∉ fileNameOf title :=
  slash_notMem_append_md fun _ => of_mem_slugFrom

/-- The file name of a new note is one step of a path. -/
theorem ofPiece?_fileNameOf (title : Text) :
    Component.ofPiece? (fileNameOf title) = some (.name (fileNameOf title)) :=
  ofPiece?_append_md (slug title true)

/-- The path of a new note ends in its file name. -/
theorem fileName?_join_fileNameOf (dir : Path) (title : Text) :
    (dir.join ⟨fileNameOf title⟩).fileName? = some (fileNameOf title) := by
  have hpiece : lastPiece (dir.join ⟨fileNameOf title⟩).text = fileNameOf title :=
    (Path.lastPiece_join dir _).trans (lastPiece_of_notMem (slash_notMem_fileNameOf title))
  have hlast := Path.getLast?_components_of_lastPiece (dir.join ⟨fileNameOf title⟩)
    (by rw [hpiece]; exact ofPiece?_fileNameOf title)
  rw [hpiece] at hlast
  simp only [Path.fileName?, hlast]

/-- The path of a new note is that of a note, unless its title has no slug. -/
theorem isNotePath_join_fileNameOf (dir : Path) {title : Text} (h : slug title true ≠ []) :
    isNotePath (dir.join ⟨fileNameOf title⟩) = true := by
  obtain ⟨last, before, hslug⟩ := List.exists_cons_of_ne_nil (List.reverse_eq_nil_iff.not.mpr h)
  have hreverse : (fileNameOf title).reverse = 'd' :: 'm' :: '.' :: last :: before := by
    rw [fileNameOf, List.reverse_append, hslug]
    rfl
  have hextension : (dir.join ⟨fileNameOf title⟩).extension? = some "md".toList := by
    simp only [Path.extension?, fileName?_join_fileNameOf, Option.bind_eq_bind, Option.bind_some,
      hreverse]
    rfl
  simp only [isNotePath, hextension]
  decide

end LinkedNotes.Note
