import LinkedNotes.Path.Clean
import LinkedNotes.Proofs.Note.Name
import LinkedNotes.Proofs.Text.Lines

/-!
# Components of paths

The components of a path are read piece by piece, so those of a path in a directory are those of
the directory followed by what the path adds. Main statement: a path inside a directory has the same
components from every spelling of the directory.
-/

namespace LinkedNotes.Path

open Note Text

/-- The components around a slash are those before it and those after it. -/
theorem pieceComponents_append (before after : Text) :
    pieceComponents (before ++ '/' :: after) = pieceComponents before ++ pieceComponents after := by
  simp only [pieceComponents, splitOn_append, List.filterMap_append]

/-- A text without slashes stands for one component at most. -/
theorem pieceComponents_of_notMem {piece : Text} (h : '/' ∉ piece) :
    pieceComponents piece = (Component.ofPiece? piece).toList := by
  rw [pieceComponents, splitOn_of_notMem h]
  cases hp : Component.ofPiece? piece <;> simp [hp]

/-- A slash after some text only separates the components around it. -/
theorem components_append_slash {before : Text} (h : before ≠ []) (after : Text) :
    components ⟨before ++ '/' :: after⟩ = components ⟨before⟩ ++ pieceComponents after := by
  have hpieces := pieceComponents_append before after
  obtain ⟨c, rest, rfl⟩ := List.exists_cons_of_ne_nil h
  by_cases hslash : c = '/'
  · subst hslash
    simp [components, pieceComponents_append]
  · by_cases hdot : c = '.'
    · subst hdot
      -- Only a `.` that is a whole piece counts as a component here.
      rcases rest with _ | ⟨d, rest⟩
      · rfl
      · by_cases hd : d = '/'
        · subst hd
          simp [components, pieceComponents_append]
        · simpa [components, hd] using hpieces
    · simpa [components, hslash, hdot] using hpieces

/-- What follows a spelling that ends in a slash only adds components. -/
theorem components_append {dir : Text} (hdir : dir.getLast? = some '/') (after : Text) :
    components ⟨dir ++ after⟩ = components ⟨dir⟩ ++ pieceComponents after := by
  obtain ⟨init, rfl⟩ := List.getLast?_eq_some_iff.mp hdir
  rw [List.append_assoc, List.singleton_append]
  cases init with
  | nil => rfl
  | cons c rest =>
    have hnone : pieceComponents [] = [] := rfl
    rw [components_append_slash (List.cons_ne_nil c rest),
      components_append_slash (List.cons_ne_nil c rest), hnone, List.append_nil]

/-- Only the empty text stands for no component. -/
theorem components_ne_nil {text : Text} (h : text ≠ []) : components ⟨text⟩ ≠ [] := by
  obtain ⟨c, rest, rfl⟩ := List.exists_cons_of_ne_nil h
  by_cases hslash : c = '/'
  · subst hslash
    simp [components]
  · have hfirst : pieceComponents (c :: rest) = [] →
        Component.ofPiece? (c :: rest.takeWhile (· ≠ '/')) = none := fun hnil => by
      have hmem := List.mem_of_getElem? (splitOn_getElem?_zero '/' (c :: rest))
      rw [List.takeWhile_cons_of_pos (by simpa using hslash)] at hmem
      exact List.filterMap_eq_nil_iff.mp hnil _ hmem
    by_cases hdot : c = '.'
    · subst hdot
      rcases rest with _ | ⟨d, rest⟩
      · simp [components]
      · by_cases hd : d = '/'
        · subst hd
          simp [components]
        · have hsome : Component.ofPiece? ('.' :: (d :: rest).takeWhile (· ≠ '/')) ≠ none := by
            rw [List.takeWhile_cons_of_pos (by simpa using hd)]
            simp only [Component.ofPiece?]
            split
            · next hnot => simp at hnot
            · split <;> simp
          simpa [components, hd] using mt hfirst hsome
    · have hsome : Component.ofPiece? (c :: rest.takeWhile (· ≠ '/')) ≠ none := by
        simp [Component.ofPiece?, hdot]
      simpa [components, hslash, hdot] using mt hfirst hsome

/-- Only the empty path has no components. -/
theorem components_eq_nil {path : Path} : path.components = [] ↔ path.text = [] := by
  refine ⟨fun h => ?_, fun h => ?_⟩
  · by_contra hne
    exact components_ne_nil hne h
  · obtain ⟨text⟩ := path
    subst h
    rfl

/-- What a path adds to a directory that is spelled with some text. -/
theorem components_join {dir path : Path} (hdir : dir.text ≠ []) (hpath : path.isAbsolute = false) :
    (dir.join path).components = dir.components ++ pieceComponents path.text := by
  simp only [join, hpath, Bool.false_eq_true, if_false, hdir, false_or]
  split
  · next hlast => exact components_append hlast path.text
  · have := components_append_slash hdir path.text
    simpa using this

/-- The components of a path from a directory, which may be spelled in any way. -/
theorem components_join_congr {dir other : Path} (h : dir.components = other.components)
    (path : Path) : (dir.join path).components = (other.join path).components := by
  cases habs : path.isAbsolute with
  | true => simp [join, habs]
  | false =>
    by_cases hdir : dir.text = []
    · have hother : other.text = [] := by
        rw [← components_eq_nil, ← h, components_eq_nil, hdir]
      simp [join, habs, hdir, hother]
    · have hother : other.text ≠ [] := by
        rwa [← components_eq_nil.ne, ← h, components_eq_nil.ne]
      rw [components_join hdir habs, components_join hother habs, h]

/-- The last piece of a path from a directory is that of the path. -/
theorem lastPiece_join (dir path : Path) :
    lastPiece (dir.join path).text = lastPiece path.text := by
  unfold join
  split
  · rfl
  · split
    · next hdir => exact lastPiece_dir_append hdir path.text
    · exact lastPiece_dir_append (.inr (by simp)) path.text

/-- A path whose last piece is a name ends in this name. -/
theorem getLast?_components_of_lastPiece (path : Path)
    (h : Component.ofPiece? (lastPiece path.text) = some (.name (lastPiece path.text))) :
    path.components.getLast? = some (.name (lastPiece path.text)) := by
  obtain ⟨text⟩ := path
  obtain ⟨dir, htext, hdir⟩ := exists_dir_lastPiece text
  have hpiece := slash_notMem_lastPiece text
  have hlast := pieceComponents_of_notMem hpiece
  rw [h, Option.toList_some] at hlast
  rcases hdir with rfl | hdir
  · rw [List.nil_append] at htext
    simp only [← htext] at h hlast hpiece ⊢
    unfold components
    split
    · next heq => simp [show text = _ from heq] at hpiece
    · next heq => simp [show text = _ from heq, Component.ofPiece?] at h
    · next heq => simp [show text = _ from heq] at hpiece
    · simp [hlast]
  · have hparts := components_append hdir (lastPiece text)
    rw [← htext] at hparts
    rw [hparts, hlast]
    simp

end LinkedNotes.Path
