import LinkedNotes.Match.Basic
import LinkedNotes.Proofs.Path.Normal

/-!
# Cleaning and joining paths

A path may be cleaned before or after another one is followed from it. Main statement: the clean
form of a path has names only, behind the root or behind steps up; it is its own clean form and has
a root exactly if the path has one; and what is followed from a path is followed from its clean form
to the same clean path. Links between directories, which cleaning does not see, are outside this
module.
-/

namespace LinkedNotes.Path

open Text

/-! ## The form of clean paths -/

/-- A clean path has names only, behind the root or behind steps up. -/
theorem CleanStack.shape {done : List Component} (h : CleanStack done) :
    (∃ names : List Text, done.reverse = .root :: names.map .name) ∨
      ∃ (ups : Nat) (names : List Text), done.reverse = List.replicate ups .up ++ names.map .name := by
  induction h with
  | nil => exact .inr ⟨0, [], rfl⟩
  | root => exact .inl ⟨[], rfl⟩
  | @up done hup =>
    have hall : done = List.replicate done.length .up := List.eq_replicate_of_mem hup
    refine .inr ⟨done.length + 1, [], ?_⟩
    rw [List.map_nil, List.append_nil, hall, List.length_replicate, ← List.replicate_succ,
      List.reverse_replicate]
  | @name name done _ _ ih =>
    rw [List.reverse_cons]
    rcases ih with ⟨names, hnames⟩ | ⟨ups, names, hnames⟩
    · exact .inl ⟨names ++ [name], by simp [hnames]⟩
    · exact .inr ⟨ups, names ++ [name], by simp [hnames]⟩

/-- A step that is not the root goes nowhere, one further, or back over a name. -/
theorem cleanStep_cases {component : Component} (h : component ≠ .root) (done : List Component) :
    cleanStep done component = done ∨ cleanStep done component = component :: done ∨
      ∃ name rest, done = .name name :: rest ∧ cleanStep done component = rest := by
  cases component with
  | root => exact absurd rfl h
  | here => exact .inl rfl
  | name text => exact .inr (.inl rfl)
  | up =>
    cases done with
    | nil => exact .inr (.inl rfl)
    | cons last rest =>
      cases last with
      | name text => exact .inr (.inr ⟨text, rest, rfl, rfl⟩)
      | root | here | up =>
        simp only [cleanStep]
        split
        · exact .inl rfl
        · exact .inr (.inl rfl)

/-- A step has the root below it only if it is the root or starts from there. -/
theorem root_mem_cleanStep {done : List Component} {component : Component} :
    .root ∈ cleanStep done component ↔ component = .root ∨ .root ∈ done := by
  by_cases hroot : component = .root
  · simp [hroot, cleanStep]
  · rcases cleanStep_cases hroot done with hstay | hmore | ⟨name, rest, rfl, hback⟩
    · simp [hstay, hroot]
    · simp [hmore, eq_comm]
    · simp [hback, hroot]

/-- Cleaning neither loses the root nor adds it. -/
theorem root_mem_foldl_cleanStep {parts done : List Component} :
    .root ∈ parts.foldl cleanStep done ↔ .root ∈ parts ∨ .root ∈ done := by
  induction parts generalizing done with
  | nil => simp
  | cons component rest ih =>
    rw [List.foldl_cons, ih, root_mem_cleanStep, List.mem_cons, eq_comm, or_left_comm, or_assoc]

/-- A path without a root has the components between its slashes, behind a `.` perhaps. -/
theorem components_of_not_isAbsolute {path : Path} (h : path.isAbsolute = false) :
    path.components = pieceComponents path.text ∨
      path.components = .here :: pieceComponents path.text := by
  unfold components
  split
  · next rest htext =>
    rw [isAbsolute, htext] at h
    exact absurd h (by simp)
  · next htext =>
    rw [htext]
    exact .inr rfl
  · next rest htext =>
    have hpieces := pieceComponents_append ['.'] rest
    rw [htext]
    exact .inr (congrArg (Component.here :: ·) hpieces.symm)
  · exact .inl rfl

/-- A path is absolute exactly if the root is one of its components. -/
theorem isAbsolute_iff_mem {path : Path} :
    path.isAbsolute = true ↔ .root ∈ path.components := by
  cases h : path.isAbsolute with
  | true => exact iff_of_true rfl (List.mem_of_head? (isAbsolute_iff.mp h))
  | false =>
    have hpieces := root_notMem_pieceComponents path.text
    refine iff_of_false Bool.false_ne_true fun hmem => ?_
    rcases components_of_not_isAbsolute h with hparts | hparts
    · rw [hparts] at hmem
      exact hpieces hmem
    · rw [hparts, List.mem_cons] at hmem
      exact hpieces (hmem.resolve_left (by simp))

/-- The clean form of a path has a root exactly if the path has one. -/
theorem isAbsolute_clean (path : Path) : path.clean.isAbsolute = path.isAbsolute := by
  rw [Bool.eq_iff_iff, isAbsolute_iff_mem, isAbsolute_iff_mem, components_clean, cleanComponents,
    List.mem_reverse, root_mem_foldl_cleanStep]
  simp

/-! ## Following a path from a directory -/

/-- Cleaning the components of a path first changes nothing for what follows them. -/
theorem foldl_cleanComponents (path : Path) :
    (cleanComponents path.components).foldl cleanStep [] = path.components.foldl cleanStep [] := by
  have hclean := (cleanStack_cleanComponents path).cleanComponents_reverse
  rw [List.reverse_reverse] at hclean
  have hfold := congrArg List.reverse hclean
  rwa [cleanComponents, List.reverse_reverse, cleanComponents, List.reverse_reverse] at hfold

/-- Following a path goes on from where the directory has led. -/
theorem foldl_components_join {path : Path} (h : path.isAbsolute = false) (dir : Path) :
    (dir.join path).components.foldl cleanStep [] =
      (pieceComponents path.text).foldl cleanStep (dir.components.foldl cleanStep []) := by
  by_cases hdir : dir.text = []
  · have hjoin : dir.join path = path := by simp [join, h, hdir]
    rw [hjoin, components_eq_nil.mpr hdir, List.foldl_nil]
    rcases components_of_not_isAbsolute h with hparts | hparts
    · rw [hparts]
    · rw [hparts, List.foldl_cons, cleanStep]
  · rw [components_join hdir h, List.foldl_append]

/-- What follows from a path is followed from its clean form to the same clean path. -/
theorem clean_join_clean (dir path : Path) : (dir.clean.join path).clean = (dir.join path).clean := by
  cases h : path.isAbsolute with
  | true => simp [join, h]
  | false =>
    have hstart : dir.clean.components.foldl cleanStep [] = dir.components.foldl cleanStep [] := by
      rw [components_clean, foldl_cleanComponents]
    have hsame : (dir.clean.join path).components.foldl cleanStep [] =
        (dir.join path).components.foldl cleanStep [] := by
      rw [foldl_components_join h, foldl_components_join h, hstart]
    exact congrArg (fun done => ofComponents done.reverse) hsame

/-- The clean form of a path is names behind the root, if the path has one, and else behind steps
up. -/
theorem components_clean_cases (path : Path) :
    (path.isAbsolute = true ∧
      ∃ names : List Text, path.clean.components = .root :: names.map .name) ∨
    (path.isAbsolute = false ∧ ∃ (ups : Nat) (names : List Text),
      path.clean.components = List.replicate ups .up ++ names.map .name) := by
  have hshape := (cleanStack_cleanComponents path).shape
  rw [List.reverse_reverse, ← components_clean] at hshape
  rw [← isAbsolute_clean path]
  rcases hshape with ⟨names, hnames⟩ | ⟨ups, names, hnames⟩
  · refine .inl ⟨isAbsolute_iff_mem.mpr ?_, names, hnames⟩
    rw [hnames]
    exact List.mem_cons_self
  · refine .inr ⟨Bool.eq_false_iff.mpr fun h => ?_, ups, names, hnames⟩
    have hroot := isAbsolute_iff_mem.mp h
    rw [hnames] at hroot
    simp [List.mem_replicate] at hroot

/-- Going up stops at the root. -/
example : clean ⟨"/../a/./b/..".toList⟩ = ⟨"/a".toList⟩ := by decide

/-- A clean path is its own clean form. -/
theorem clean_clean (path : Path) : path.clean.clean = path.clean := by
  rw [clean, components_clean, cleanComponents, foldl_cleanComponents, clean, cleanComponents]

/-- The clean form of a path is names behind the root, if the path has one, and else behind steps
up. It is its own clean form and keeps the root. What follows from a path is followed from its clean
form to the same clean path, and so the literal path of a link is that from the clean form of the
directory of its note. -/
theorem clean_normal_and_join (dir path : Path) :
    ((dir.isAbsolute = true ∧
        ∃ names : List Text, dir.clean.components = .root :: names.map .name) ∨
      (dir.isAbsolute = false ∧ ∃ (ups : Nat) (names : List Text),
        dir.clean.components = List.replicate ups .up ++ names.map .name)) ∧
    dir.clean.clean = dir.clean ∧
    dir.clean.isAbsolute = dir.isAbsolute ∧
    (dir.join path).clean = (dir.clean.join path).clean ∧
    ∀ (raw : Text) (source : Path), source.parent? = some dir →
      Matcher.literalPath? raw (some source) = some (dir.clean.join ⟨trim raw⟩).clean := by
  refine ⟨components_clean_cases dir, clean_clean dir, isAbsolute_clean dir,
    (clean_join_clean dir path).symm, fun raw source hdir => ?_⟩
  rw [clean_join_clean]
  simp [Matcher.literalPath?, hdir]

/-- The steps up of a directory lead out of what its path starts with, and the literal path of a
link goes on from there. -/
theorem clean_normal_and_join_above :
    let dir : Path := ⟨"a/../../b".toList⟩
    let source : Path := ⟨"a/../../b/./x.md".toList⟩
    source.parent? = some dir ∧ dir.clean = ⟨"../b".toList⟩ ∧
      Matcher.literalPath? " ../c.md".toList (some source) = some ⟨"../c.md".toList⟩ := by
  intro dir source
  have hparent : source.parent? = some dir := by decide
  have hclean : dir.clean = ⟨"../b".toList⟩ := by decide
  have htrim : (dir.clean.join ⟨trim " ../c.md".toList⟩).clean = ⟨"../c.md".toList⟩ := by decide
  obtain ⟨-, -, -, -, hliteral⟩ := clean_normal_and_join dir ⟨"../c.md".toList⟩
  exact ⟨hparent, hclean, (hliteral _ source hparent).trans (congrArg some htrim)⟩

end LinkedNotes.Path
