import LinkedNotes.Proofs.Path.Components

/-!
# The directory that holds a path

Slashes and `.` pieces at the end of a spelling add no component, and the directory of a path is
spelled without them. Main statement: its components are those of the path but the last one.
-/

namespace LinkedNotes.Path

open Note Text

/-- A trimmed spelling has the same components. -/
theorem components_trimReversed (reversed : Text) :
    components ⟨(trimReversed reversed).reverse⟩ = components ⟨reversed.reverse⟩ := by
  induction reversed using trimReversed.induct with
  | case1 => rfl
  | case2 rest hrest ih =>
    rw [trimReversed, if_neg hrest, ih, List.reverse_cons]
    have hslash := components_append_slash (List.reverse_eq_nil_iff.not.mpr hrest) []
    exact (hslash.trans (List.append_nil _)).symm
  | case3 rest ih =>
    rw [trimReversed, ih]
    simp only [List.reverse_cons, List.append_assoc, List.singleton_append]
    by_cases hrest : rest = []
    · subst hrest
      rfl
    · have hne := List.reverse_eq_nil_iff.not.mpr hrest
      rw [components_append_slash hne, components_append_slash hne]
      rfl
  | case4 text hslash hdot => rw [trimReversed] <;> assumption

/-- A trimmed spelling is a slash, or ends neither in a slash nor in a `.` piece. -/
theorem trimReversed_eq_or (reversed : Text) :
    trimReversed reversed = ['/'] ∨ ∀ rest, trimReversed reversed ≠ '/' :: rest ∧
      trimReversed reversed ≠ '.' :: '/' :: rest := by
  induction reversed using trimReversed.induct with
  | case1 => exact .inl rfl
  | case2 rest hrest ih =>
    rw [trimReversed, if_neg hrest]
    exact ih
  | case3 rest ih =>
    rw [trimReversed]
    exact ih
  | case4 text hslash hdot =>
    have hself : trimReversed text = text := by rw [trimReversed] <;> assumption
    rw [hself]
    exact .inr fun rest => ⟨hslash rest, hdot rest⟩

/-- A spelling without slashes has one component at most. -/
theorem dropLast_components_of_notMem {text : Text} (h : '/' ∉ text) :
    (components ⟨text⟩).dropLast = [] := by
  unfold components
  split
  · next heq => simp [show text = _ from heq] at h
  · rfl
  · next heq => simp [show text = _ from heq] at h
  · rw [pieceComponents_of_notMem h]
    cases Component.ofPiece? text <;> rfl

/-- A spelling is its directory, which is empty or ends in a slash, followed by its last piece. -/
theorem reverse_dropWhile_append_lastPiece (text : Text) :
    (text.reverse.dropWhile (· ≠ '/')).reverse ++ lastPiece text = text := by
  rw [lastPiece, ← List.reverse_append, List.takeWhile_append_dropWhile, List.reverse_reverse]

/-- A piece that is not empty and no `.` is a component. -/
theorem exists_ofPiece?_eq_some {piece : Text} (hne : piece ≠ []) (hdot : piece ≠ ['.']) :
    ∃ component, Component.ofPiece? piece = some component := by
  rw [Component.ofPiece?, if_neg (by simp [hne, hdot])]
  split
  · exact ⟨_, rfl⟩
  · exact ⟨_, rfl⟩

/-- The directory of a path has the components of the path but the last one. -/
theorem components_parent? {path dir : Path} (h : path.parent? = some dir) :
    dir.components = path.components.dropLast := by
  let text := (trimReversed path.text.reverse).reverse
  have htext : components ⟨text⟩ = path.components := by
    simp only [text, components_trimReversed, List.reverse_reverse]
  have hreversed : trimReversed path.text.reverse = text.reverse :=
    (List.reverse_reverse _).symm
  obtain ⟨above, hsplit, habove⟩ := exists_dir_lastPiece text
  have hkept : (text.reverse.dropWhile (· ≠ '/')).reverse = above :=
    List.append_cancel_right ((reverse_dropWhile_append_lastPiece text).trans hsplit)
  have hdir : dir.components = components ⟨above⟩ ∧ path.components ≠ [.root] := by
    unfold parent? at h
    split at h
    · cases h
    · cases h
    · next last hroot hlast =>
      cases h
      refine ⟨?_, fun heq => ?_⟩
      · rw [components_trimReversed, hreversed, hkept]
      · rw [heq] at hlast
        exact hroot (Option.some.inj hlast).symm
  rw [hdir.1, ← htext]
  have hpiece := slash_notMem_lastPiece text
  rcases habove with rfl | hslash
  · rw [List.nil_append] at hsplit
    rw [← hsplit] at hpiece
    exact (dropLast_components_of_notMem hpiece).symm
  · obtain ⟨init, rfl⟩ := List.getLast?_eq_some_iff.mp hslash
    -- What is left after trimming ends in a component, unless it is the root.
    have hends : lastPiece text ≠ [] ∧ lastPiece text ≠ ['.'] := by
      rcases trimReversed_eq_or path.text.reverse with hroot | hother
      · have heq : text = ['/'] := congrArg List.reverse hroot
        rw [heq] at htext
        exact absurd htext.symm hdir.2
      · rw [hreversed, hsplit, List.reverse_append, List.reverse_append] at hother
        refine ⟨fun hnil => ?_, fun hdot => ?_⟩
        · exact (hother init.reverse).1 (by rw [hnil]; rfl)
        · exact (hother init.reverse).2 (by rw [hdot]; rfl)
    obtain ⟨component, hcomponent⟩ := exists_ofPiece?_eq_some hends.1 hends.2
    have hparts := components_append hslash (lastPiece text)
    rw [← hsplit, pieceComponents_of_notMem hpiece, hcomponent, Option.toList_some] at hparts
    rw [hparts, List.dropLast_concat]

/-! ## Absolute paths -/

/-- The root is no piece between slashes. -/
theorem root_notMem_pieceComponents (text : Text) : Component.root ∉ pieceComponents text := by
  intro h
  obtain ⟨piece, -, hpiece⟩ := List.mem_filterMap.mp h
  unfold Component.ofPiece? at hpiece
  split at hpiece
  · cases hpiece
  · split at hpiece <;> cases hpiece

/-- A path is absolute exactly if its first component is the root. -/
theorem isAbsolute_iff {path : Path} :
    path.isAbsolute = true ↔ path.components.head? = some .root := by
  rw [isAbsolute, decide_eq_true_eq]
  unfold components
  split
  · next rest htext => simp [htext]
  · next htext => simp [htext]
  · next rest htext => simp [htext]
  · next hslash hdot hhere =>
    refine ⟨fun h => ?_, fun h => ?_⟩
    · obtain ⟨rest, hrest⟩ := List.head?_eq_some_iff.mp h
      exact absurd hrest (hslash rest)
    · exact absurd (List.mem_of_head? h) (root_notMem_pieceComponents path.text)

/-- What is in an absolute directory is absolute. -/
theorem isAbsolute_join {dir : Path} (h : dir.isAbsolute = true) (path : Path) :
    (dir.join path).isAbsolute = true := by
  obtain ⟨rest, hrest⟩ := List.head?_eq_some_iff.mp (of_decide_eq_true h)
  unfold join
  split
  · assumption
  · split <;> simp [isAbsolute, hrest]

/-- The directory of an absolute path is absolute. -/
theorem isAbsolute_parent? {path dir : Path} (h : path.isAbsolute = true)
    (hdir : path.parent? = some dir) : dir.isAbsolute = true := by
  obtain ⟨rest, hrest⟩ := List.head?_eq_some_iff.mp (isAbsolute_iff.mp h)
  have hne : rest ≠ [] := by
    rintro rfl
    simp [parent?, hrest] at hdir
  rw [isAbsolute_iff, components_parent? hdir, hrest, List.dropLast_cons_of_ne_nil hne]
  rfl

end LinkedNotes.Path
