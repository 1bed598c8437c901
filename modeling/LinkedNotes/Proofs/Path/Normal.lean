import LinkedNotes.Proofs.Path.Parent

/-!
# Clean paths

Cleaning has an end: a path that is clean stays as it is. Main statements: the clean form of a path
is clean, and so is a path of one more name in the directory of a clean path.
-/

namespace LinkedNotes

namespace Component

/-- Whether a component is read back from its own spelling, where that is not the whole path. -/
def IsPiece (component : Component) : Prop :=
  '/' ∉ component.text ∧ ofPiece? component.text = some component

/-- What is read from a piece without slashes is read back. -/
theorem isPiece_of_ofPiece? {piece : Text} {component : Component} (hslash : '/' ∉ piece)
    (h : ofPiece? piece = some component) : component.IsPiece := by
  have hpiece := h
  unfold ofPiece? at h
  split at h
  · cases h
  · split at h
    · cases h
      exact ⟨by decide, rfl⟩
    · cases h
      exact ⟨hslash, hpiece⟩

/-- A component that is read back is spelled with some text that is not a `.`. -/
theorem IsPiece.text_ne {component : Component} (h : component.IsPiece) :
    component.text ≠ [] ∧ component.text ≠ ['.'] := by
  refine ⟨fun hnil => ?_, fun hdot => ?_⟩
  · have := h.2
    rw [hnil] at this
    cases this
  · have := h.2
    rw [hdot] at this
    cases this

end Component

namespace Path

open Text

/-- What stands between slashes is read back piece by piece. -/
theorem isPiece_of_mem_pieceComponents {text : Text} {component : Component}
    (h : component ∈ pieceComponents text) : component.IsPiece := by
  obtain ⟨piece, hpiece, hcomponent⟩ := List.mem_filterMap.mp h
  exact Component.isPiece_of_ofPiece? (notMem_of_mem_splitOn hpiece) hcomponent

/-- The components of a path are the root, a `.`, or read back on their own. -/
theorem of_mem_components {path : Path} {component : Component} (h : component ∈ path.components) :
    component = .root ∨ component = .here ∨ component.IsPiece := by
  unfold components at h
  split at h
  · exact (List.mem_cons.mp h).imp id fun h => .inr (isPiece_of_mem_pieceComponents h)
  · exact .inr (.inl (List.mem_singleton.mp h))
  · exact .inr ((List.mem_cons.mp h).imp id isPiece_of_mem_pieceComponents)
  · exact .inr (.inr (isPiece_of_mem_pieceComponents h))

/-- The reversed components of a clean path: names, and below them the root or steps up. -/
inductive CleanStack : List Component → Prop where
  /-- The empty path. -/
  | nil : CleanStack []
  /-- The root. -/
  | root : CleanStack [.root]
  /-- One more step up from steps up. -/
  | up {done : List Component} (hup : ∀ component ∈ done, component = .up) :
    CleanStack (.up :: done)
  /-- One more name. -/
  | name {name : Text} {done : List Component} (hname : (Component.name name).IsPiece)
    (hdone : CleanStack done) : CleanStack (.name name :: done)

/-- Steps up alone are clean. -/
theorem cleanStack_of_up {done : List Component} (h : ∀ component ∈ done, component = .up) :
    CleanStack done := by
  cases done with
  | nil => exact .nil
  | cons first rest =>
    obtain rfl := h first List.mem_cons_self
    exact .up fun component hmem => h component (List.mem_cons_of_mem _ hmem)

namespace CleanStack

variable {done : List Component} {component : Component}

/-- A clean path stays clean without its last component. -/
theorem tail (h : CleanStack done) : CleanStack done.tail := by
  cases h with
  | nil => exact .nil
  | root => exact .nil
  | up hup => exact cleanStack_of_up hup
  | name _ hdone => exact hdone

/-- A step up from a clean path. -/
theorem step_up (h : CleanStack done) : CleanStack (cleanStep done .up) := by
  cases h with
  | nil => exact .up fun _ hmem => absurd hmem List.not_mem_nil
  | root => exact .root
  | @up rest hup =>
    have hall : ∀ component ∈ .up :: rest, component = .up := List.forall_mem_cons.mpr ⟨rfl, hup⟩
    have hroot : (.up :: rest : List Component).getLast? ≠ some .root := fun hlast => by
      cases hall .root (List.mem_of_getLast? hlast)
    rw [cleanStep, if_neg hroot]
    · exact .up hall
    · exact fun _ _ heq => by cases heq
  | name _ hdone => exact hdone

/-- Cleaning goes on from one clean path to the next. -/
theorem step (h : CleanStack done)
    (hcomponent : component = .root ∨ component = .here ∨ component.IsPiece) :
    CleanStack (cleanStep done component) := by
  cases component with
  | root => exact .root
  | here => exact h
  | up => exact h.step_up
  | name name =>
    simp only [reduceCtorEq, false_or] at hcomponent
    exact .name hcomponent h

/-- Cleaning ends in a clean path. -/
theorem foldl (h : CleanStack done) {parts : List Component}
    (hparts : ∀ component ∈ parts,
      component = .root ∨ component = .here ∨ component.IsPiece) :
    CleanStack (parts.foldl cleanStep done) := by
  induction parts generalizing done with
  | nil => exact h
  | cons first rest ih =>
    obtain ⟨hfirst, hrest⟩ := List.forall_mem_cons.mp hparts
    exact ih (h.step hfirst) hrest

/-- A clean path is built up again step by step. -/
theorem cleanStep_tail (h : CleanStack (component :: done)) :
    cleanStep done component = component :: done := by
  cases h with
  | root => rfl
  | name _ _ => rfl
  | up hup =>
    have hroot : done.getLast? ≠ some .root := fun hlast => by
      cases hup .root (List.mem_of_getLast? hlast)
    rw [cleanStep, if_neg hroot]
    intro name rest heq
    cases hup (.name name) (heq ▸ List.mem_cons_self)

/-- So it is clean to begin with. -/
theorem cleanComponents_reverse (h : CleanStack done) :
    cleanComponents done.reverse = done.reverse := by
  have hfold : done.reverse.foldl cleanStep [] = done := by
    induction done with
    | nil => rfl
    | cons component rest ih =>
      rw [List.reverse_cons, List.foldl_append, ih h.tail]
      exact h.cleanStep_tail
  rw [cleanComponents, hfold]

/-- A clean path has pieces only, after the root if it has one. -/
theorem exists_pieces (h : CleanStack done) :
    ∃ pieces : List Component, (∀ piece ∈ pieces, piece.IsPiece) ∧
      (done.reverse = pieces ∨ done.reverse = .root :: pieces) := by
  induction h with
  | nil => exact ⟨[], List.forall_mem_nil _, .inl rfl⟩
  | root => exact ⟨[], List.forall_mem_nil _, .inr rfl⟩
  | @up done hup =>
    have hall : ∀ component ∈ .up :: done, component = .up := List.forall_mem_cons.mpr ⟨rfl, hup⟩
    refine ⟨_, fun piece hpiece => ?_, .inl rfl⟩
    rw [hall piece (List.mem_reverse.mp hpiece)]
    exact ⟨by decide, rfl⟩
  | @name name done hname _ ih =>
    obtain ⟨pieces, hpieces, hdone⟩ := ih
    refine ⟨pieces ++ [.name name], fun piece hpiece => ?_, ?_⟩
    · rcases List.mem_append.mp hpiece with hpiece | hpiece
      · exact hpieces piece hpiece
      · rw [List.mem_singleton.mp hpiece]
        exact hname
    · rw [List.reverse_cons]
      exact hdone.imp (fun heq => by rw [heq]) fun heq => by rw [heq, List.cons_append]

end CleanStack

/-- A piece is read back inside a path. -/
theorem pieceComponents_text {piece : Component} (h : piece.IsPiece) :
    pieceComponents piece.text = [piece] := by
  rw [pieceComponents_of_notMem h.1, h.2, Option.toList_some]

/-- So it is as a whole path. -/
theorem components_text {piece : Component} (h : piece.IsPiece) :
    components ⟨piece.text⟩ = [piece] := by
  have hslash : ∀ before after, piece.text ≠ before ++ '/' :: after := fun before after heq =>
    h.1 (heq ▸ List.mem_append_right before List.mem_cons_self)
  unfold components
  split
  · next rest heq => exact absurd heq (hslash [] rest)
  · next heq => exact absurd heq h.text_ne.2
  · next rest heq => exact absurd heq (hslash ['.'] rest)
  · exact pieceComponents_text h

/-- Pieces that are joined with slashes are read back. -/
theorem pieceComponents_joinWith {pieces : List Component}
    (h : ∀ piece ∈ pieces, piece.IsPiece) :
    pieceComponents (joinWith ['/'] (pieces.map Component.text)) = pieces := by
  induction pieces with
  | nil => rfl
  | cons first rest ih =>
    obtain ⟨hfirst, hrest⟩ := List.forall_mem_cons.mp h
    have hone := pieceComponents_text hfirst
    cases rest with
    | nil => exact hone
    | cons next more =>
      have hjoin : joinWith ['/'] ((first :: next :: more).map Component.text) =
          first.text ++ '/' :: joinWith ['/'] ((next :: more).map Component.text) := by
        simp [joinWith]
      rw [hjoin, pieceComponents_append, hone, ih hrest, List.singleton_append]

/-- So they are as a whole path. -/
theorem components_joinWith {pieces : List Component} (h : ∀ piece ∈ pieces, piece.IsPiece) :
    components ⟨joinWith ['/'] (pieces.map Component.text)⟩ = pieces := by
  cases pieces with
  | nil => rfl
  | cons first rest =>
    obtain ⟨hfirst, hrest⟩ := List.forall_mem_cons.mp h
    have hone := components_text hfirst
    cases rest with
    | nil => exact hone
    | cons next more =>
      have hjoin : joinWith ['/'] ((first :: next :: more).map Component.text) =
          first.text ++ '/' :: joinWith ['/'] ((next :: more).map Component.text) := by
        simp [joinWith]
      rw [hjoin, components_append_slash hfirst.text_ne.1, hone, pieceComponents_joinWith hrest,
        List.singleton_append]

/-- Pieces are spelled with slashes between them. -/
theorem ofComponents_of_isPiece {pieces : List Component} (h : ∀ piece ∈ pieces, piece.IsPiece) :
    ofComponents pieces = ⟨joinWith ['/'] (pieces.map Component.text)⟩ := by
  unfold ofComponents
  split
  · exact absurd (h .root List.mem_cons_self).1 (by decide)
  · rfl

/-- Clean components are read back from their spelling. -/
theorem CleanStack.components_ofComponents {done : List Component} (h : CleanStack done) :
    (ofComponents done.reverse).components = done.reverse := by
  obtain ⟨pieces, hpieces, hdone | hdone⟩ := h.exists_pieces
  · rw [hdone]
    rw [ofComponents_of_isPiece hpieces]
    exact components_joinWith hpieces
  · rw [hdone]
    exact congrArg (Component.root :: ·) (pieceComponents_joinWith hpieces)

/-- Whether a path is the same path as its clean form. -/
def IsClean (path : Path) : Prop :=
  path.clean.same path = true

instance (path : Path) : Decidable path.IsClean :=
  inferInstanceAs (Decidable (path.clean.same path = true))

/-- The components of a path are cleaned to those of a clean path. -/
theorem cleanStack_cleanComponents (path : Path) :
    CleanStack (cleanComponents path.components).reverse := by
  rw [cleanComponents, List.reverse_reverse]
  exact CleanStack.nil.foldl fun component => of_mem_components

/-- The components of the clean form of a path. -/
theorem components_clean (path : Path) :
    path.clean.components = cleanComponents path.components := by
  have h := (cleanStack_cleanComponents path).components_ofComponents
  rwa [List.reverse_reverse] at h

/-- A path is clean when its components are. -/
theorem isClean_iff {path : Path} : path.IsClean ↔ CleanStack path.components.reverse := by
  have hstack := cleanStack_cleanComponents path
  have hsame : path.IsClean ↔ cleanComponents path.components = path.components := by
    simp only [IsClean, same, components_clean, decide_eq_true_eq]
  rw [hsame]
  constructor
  · intro heq
    rwa [heq] at hstack
  · intro h
    have hclean := h.cleanComponents_reverse
    rwa [List.reverse_reverse] at hclean

/-- The clean form of a path is clean. -/
theorem isClean_clean (path : Path) : path.clean.IsClean := by
  rw [isClean_iff, components_clean]
  exact cleanStack_cleanComponents path

/-- Whether a path is clean does not depend on its spelling. -/
theorem IsClean.of_same {path other : Path} (h : path.IsClean) (hsame : other.same path = true) :
    other.IsClean := by
  have heq : other.components = path.components := by
    simpa only [same, decide_eq_true_eq] using hsame
  rw [isClean_iff] at h ⊢
  rwa [heq]

/-- A name in a directory is one more component. -/
theorem components_join_name (dir : Path) {name : Text} (h : (Component.name name).IsPiece) :
    (dir.join ⟨name⟩).components = dir.components ++ [.name name] := by
  have hrelative : isAbsolute ⟨name⟩ = false := by
    simp only [isAbsolute, decide_eq_false_iff_not]
    exact fun hslash => h.1 (List.mem_of_head? hslash)
  by_cases hdir : dir.text = []
  · have hnil : dir.components = [] := components_eq_nil.mpr hdir
    have hjoin : dir.join ⟨name⟩ = ⟨name⟩ := by simp [join, hrelative, hdir]
    rw [hjoin, hnil]
    exact components_text h
  · rw [components_join hdir hrelative]
    exact congrArg (dir.components ++ ·) (pieceComponents_text h)

/-- The path of a name in a directory ends in this name. -/
theorem fileName?_join_name (dir : Path) {name : Text} (h : (Component.name name).IsPiece) :
    (dir.join ⟨name⟩).fileName? = some name := by
  simp only [fileName?, components_join_name dir h, List.getLast?_append, List.getLast?_singleton,
    Option.some_or]

/-- A name in the directory of a clean path makes a clean path. -/
theorem IsClean.join_name {path dir : Path} (h : path.IsClean) (hdir : path.parent? = some dir)
    {name : Text} (hname : (Component.name name).IsPiece) : (dir.join ⟨name⟩).IsClean := by
  rw [isClean_iff, components_join_name dir hname, components_parent? hdir, List.reverse_append,
    ← List.tail_reverse]
  exact .name hname (isClean_iff.mp h).tail

end Path
end LinkedNotes
