import LinkedNotes.Proofs.Path.Clean
import LinkedNotes.Proofs.Path.Join

/-!
# Relative paths between absolute ones

The path of a target from a base goes up from what only the base has and then down to the target.
Main statement: followed from the base it leads to the target, no path without a root that leads
there has fewer components, and it does not depend on how base and target are spelled. Paths from a
base without a root are outside this module.
-/

namespace LinkedNotes.Path

open Note Text

/-! ## Steps between directories -/

/-- How many steps up and down lead from one directory to another, by what they do not share. -/
def apart (first second : List Component) : Nat :=
  (dropCommon first second).1.length + (dropCommon first second).2.length

/-- No step leads from a directory to itself. -/
theorem apart_self (parts : List Component) : apart parts parts = 0 := by
  induction parts with
  | nil => rfl
  | cons component rest ih => rwa [apart, dropCommon, if_pos rfl, ← apart]

/-- A directory and one in it are at most one step further or nearer. -/
theorem apart_concat (first second : List Component) (component : Component) :
    apart (first ++ [component]) second ≤ apart first second + 1 ∧
      apart first second ≤ apart (first ++ [component]) second + 1 := by
  induction first generalizing second with
  | nil =>
    cases second with
    | nil => simp [apart, dropCommon]
    | cons other rest =>
      by_cases hsame : component = other
      · simp [apart, dropCommon, hsame]
        omega
      · simp [apart, dropCommon, hsame]
        omega
  | cons head tail ih =>
    cases second with
    | nil => simp [apart, dropCommon]
    | cons other rest =>
      by_cases hsame : head = other
      · simpa [apart, dropCommon, hsame] using ih rest
      · simp [apart, dropCommon, hsame]
        omega

/-- A step that is not the root leads one step further or nearer at most. -/
theorem apart_le_cleanStep (done target : List Component) {component : Component}
    (h : component ≠ .root) :
    apart done.reverse target ≤ apart (cleanStep done component).reverse target + 1 := by
  rcases cleanStep_cases h done with hstay | hmore | ⟨name, rest, rfl, hback⟩
  · rw [hstay]
    exact Nat.le_succ _
  · rw [hmore, List.reverse_cons]
    exact (apart_concat done.reverse target component).2
  · rw [hback, List.reverse_cons]
    exact (apart_concat rest.reverse target (.name name)).1

/-- A path without a root has as many components as there are steps from its start to its end. -/
theorem apart_le_foldl_cleanStep {parts : List Component} (h : .root ∉ parts)
    (done target : List Component) :
    apart done.reverse target ≤
      apart (parts.foldl cleanStep done).reverse target + parts.length := by
  induction parts generalizing done with
  | nil => exact Nat.le_refl _
  | cons component rest ih =>
    obtain ⟨hfirst, hrest⟩ := not_or.mp (List.mem_cons.not.mp h)
    have hstep := apart_le_cleanStep done target (Ne.symm hfirst)
    have hmore := ih hrest (cleanStep done component)
    rw [List.foldl_cons, List.length_cons]
    omega

/-! ## Up and down -/

/-- Names are followed one by one. -/
theorem foldl_cleanStep_names (names : List Text) (done : List Component) :
    (names.map Component.name).foldl cleanStep done = (names.map .name).reverse ++ done := by
  induction names generalizing done with
  | nil => rfl
  | cons name rest ih =>
    rw [List.map_cons, List.foldl_cons, cleanStep, ih, List.reverse_cons, List.append_assoc,
      List.singleton_append]

/-- As many steps up as there are names lead back from them. -/
theorem foldl_cleanStep_ups (names : List Text) (done : List Component) :
    (List.replicate names.length Component.up).foldl cleanStep (names.map .name ++ done) =
      done := by
  induction names with
  | nil => rfl
  | cons name rest ih =>
    rw [List.length_cons, List.replicate_succ, List.foldl_cons, List.map_cons, List.cons_append,
      cleanStep, ih]

/-- What lies between a base and a target: the names that both start with, those that only the base
has, and those that only the target has. -/
structure Between (base target : Path) (common above below : List Text) : Prop where
  /-- The names of the base, once clean. -/
  base_eq : cleanComponents base.components = .root :: (common ++ above).map .name
  /-- The names of the target, once clean. -/
  target_eq : cleanComponents target.components = .root :: (common ++ below).map .name
  /-- Nothing more is shared. -/
  dropCommon_eq : dropCommon (cleanComponents base.components) (cleanComponents target.components) =
    (above.map .name, below.map .name)
  /-- The names of the target are read back from its path. -/
  isPiece : ∀ name ∈ common ++ below, (Component.name name).IsPiece

/-- The clean form of an absolute path has names behind the root, which are read back. -/
theorem exists_names_of_isAbsolute {path : Path} (h : path.isAbsolute = true) :
    ∃ names : List Text, cleanComponents path.components = .root :: names.map .name ∧
      ∀ name ∈ names, (Component.name name).IsPiece := by
  rcases components_clean_cases path with ⟨-, names, hnames⟩ | ⟨hnot, -⟩
  · refine ⟨names, by rw [← components_clean, hnames], fun name hname => ?_⟩
    have hmem : Component.name name ∈ path.clean.components := by
      rw [hnames]
      exact List.mem_cons_of_mem _ (List.mem_map_of_mem hname)
    rcases of_mem_components hmem with hroot | hhere | hpiece
    · cases hroot
    · cases hhere
    · exact hpiece
  · rw [h] at hnot
    cases hnot

/-- Between absolute paths there are names only. -/
theorem exists_between {base target : Path} (hbase : base.isAbsolute = true)
    (htarget : target.isAbsolute = true) :
    ∃ common above below, Between base target common above below := by
  obtain ⟨names, hnames, -⟩ := exists_names_of_isAbsolute hbase
  obtain ⟨others, hothers, hpieces⟩ := exists_names_of_isAbsolute htarget
  obtain ⟨shared, hleft, hright⟩ := exists_common (names.map .name) (others.map .name)
  obtain ⟨common, above, rfl, rfl, habove⟩ := List.map_eq_append_iff.mp hleft
  obtain ⟨same, below, rfl, hsame, hbelow⟩ := List.map_eq_append_iff.mp hright
  obtain rfl : same = common :=
    List.map_injective_iff.mpr (fun _ _ heq => Component.name.inj heq) hsame
  refine ⟨same, above, below, hnames, hothers, ?_, hpieces⟩
  rw [hnames, hothers, dropCommon, if_pos rfl, habove, hbelow]

namespace Between

variable {base target : Path} {common above below : List Text}

/-- The relative path goes up from the names of the base and down to those of the target. -/
theorem relative_eq (h : Between base target common above below) :
    relative base target =
      ofComponents (List.replicate above.length .up ++ below.map .name) := by
  have hups : (above.map Component.name).map (fun _ => Component.up) =
      List.replicate above.length .up := by
    rw [List.map_const', List.length_map]
  rw [relative, h.dropCommon_eq, ← hups]
  cases below <;> rfl

/-- Its components are these steps. -/
theorem components_relative (h : Between base target common above below) :
    (relative base target).components = List.replicate above.length .up ++ below.map .name ∧
      pieceComponents (relative base target).text =
        List.replicate above.length .up ++ below.map .name := by
  have hpieces : ∀ piece ∈ List.replicate above.length Component.up ++ below.map .name,
      piece.IsPiece := fun piece hmem => by
    rcases List.mem_append.mp hmem with hup | hname
    · rw [List.eq_of_mem_replicate hup]
      exact ⟨by decide, rfl⟩
    · obtain ⟨name, hbelow, rfl⟩ := List.mem_map.mp hname
      exact h.isPiece name (List.mem_append_right common hbelow)
  rw [h.relative_eq, ofComponents_of_isPiece hpieces]
  exact ⟨components_joinWith hpieces, pieceComponents_joinWith hpieces⟩

/-- It has no root. -/
theorem isAbsolute_relative (h : Between base target common above below) :
    (relative base target).isAbsolute = false := by
  refine Bool.eq_false_iff.mpr fun habs => ?_
  have hroot := isAbsolute_iff_mem.mp habs
  rw [h.components_relative.1] at hroot
  simp [List.mem_replicate] at hroot

/-- Followed from the base it leads to the target. -/
theorem clean_join_relative (h : Between base target common above below) :
    (base.join (relative base target)).clean = target.clean := by
  have hstart : base.components.foldl cleanStep [] =
      (above.reverse.map .name) ++ ((common.reverse.map .name) ++ [.root]) := by
    rw [← List.reverse_inj, ← cleanComponents, h.base_eq]
    simp
  have hend : (base.join (relative base target)).components.foldl cleanStep [] =
      (below.map Component.name).reverse ++ ((common.reverse.map .name) ++ [.root]) := by
    have hups := foldl_cleanStep_ups above.reverse ((common.reverse.map .name) ++ [.root])
    rw [List.length_reverse] at hups
    rw [foldl_components_join h.isAbsolute_relative, h.components_relative.2, hstart,
      List.foldl_append, hups, foldl_cleanStep_names]
  rw [clean, cleanComponents, hend, clean, h.target_eq]
  simp

/-- It has as many components as there are steps between base and target. -/
theorem length_relative (h : Between base target common above below) :
    (relative base target).components.length =
      apart (cleanComponents base.components) (cleanComponents target.components) := by
  rw [h.components_relative.1, apart, h.dropCommon_eq]
  simp

end Between

/-- No path without a root that leads to the target has fewer components. -/
theorem apart_le_length {base target path : Path} (h : path.isAbsolute = false)
    (hleads : (base.join path).clean = target.clean) :
    apart (cleanComponents base.components) (cleanComponents target.components) ≤
      path.components.length := by
  have hend := congrArg components hleads
  rw [components_clean, components_clean, cleanComponents, foldl_components_join h] at hend
  have hsteps := apart_le_foldl_cleanStep (root_notMem_pieceComponents path.text)
    (base.components.foldl cleanStep []) (cleanComponents target.components)
  rw [hend, apart_self, Nat.zero_add, ← cleanComponents] at hsteps
  have hlength : (pieceComponents path.text).length ≤ path.components.length := by
    rcases components_of_not_isAbsolute h with hparts | hparts
    · rw [hparts]
    · rw [hparts]
      exact Nat.le_succ _
  exact hsteps.trans hlength

/-- Between absolute paths the relative path goes up some steps and then down by names only, and
followed from the base it leads to the target. No path without a root that leads there has fewer
components, and all that counts of base and target are their clean forms. -/
theorem relative_shortest {base target : Path} (hbase : base.isAbsolute = true)
    (htarget : target.isAbsolute = true) :
    (base.join (relative base target)).clean = target.clean ∧
    (∃ (ups : Nat) (names : List Text),
      (relative base target).components = List.replicate ups .up ++ names.map .name) ∧
    (∀ path : Path, path.isAbsolute = false → (base.join path).clean = target.clean →
      (relative base target).components.length ≤ path.components.length) ∧
    ∀ other same : Path, other.clean = base.clean → same.clean = target.clean →
      relative other same = relative base target := by
  obtain ⟨common, above, below, hbetween⟩ := exists_between hbase htarget
  refine ⟨hbetween.clean_join_relative, ⟨above.length, below, hbetween.components_relative.1⟩,
    fun path hpath hleads => ?_, fun other same hother hsame => ?_⟩
  · rw [hbetween.length_relative]
    exact apart_le_length hpath hleads
  · rw [relative, relative, ← components_clean, ← components_clean, hother, hsame,
      components_clean, components_clean]

/-- Two steps up and two down, from a base and to a target that are not clean. -/
theorem relative_shortest_aside :
    let base : Path := ⟨"/v/./x/../a//b/".toList⟩
    let target : Path := ⟨"/../v/c/n.md".toList⟩
    base.isAbsolute = true ∧ target.isAbsolute = true ∧
      relative base target = ⟨"../../c/n.md".toList⟩ ∧
      (base.join ⟨"../../c/n.md".toList⟩).clean = ⟨"/v/c/n.md".toList⟩ ∧
      ∀ path : Path, path.isAbsolute = false → (base.join path).clean = target.clean →
        4 ≤ path.components.length := by
  intro base target
  have hbase : base.isAbsolute = true := by decide
  have htarget : target.isAbsolute = true := by decide
  have hrelative : relative base target = ⟨"../../c/n.md".toList⟩ := by decide
  have hclean : target.clean = ⟨"/v/c/n.md".toList⟩ := by decide
  have hlength : (relative base target).components.length = 4 := by decide
  obtain ⟨hleads, -, hshortest, -⟩ := relative_shortest hbase htarget
  rw [hrelative, hclean] at hleads
  rw [hlength] at hshortest
  exact ⟨hbase, htarget, hrelative, hleads, hshortest⟩

/-! ## The way into a directory -/

/-- A piece at the start of a spelling stays there. -/
theorem trimStart_piece {piece : Component} (h : piece.IsPiece) (more : Text) :
    trimStart (piece.text ++ more) = piece.text ++ more := by
  obtain ⟨hne, hdot⟩ := h.text_ne
  have hslash := h.1
  obtain ⟨c, rest, htext⟩ := List.exists_cons_of_ne_nil hne
  rw [htext] at hslash hdot ⊢
  obtain ⟨hfirst, hrest⟩ := not_or.mp (List.mem_cons.not.mp hslash)
  rw [trimStart]
  · intro other heq
    exact hfirst (List.cons.inj heq).1.symm
  · intro other heq
    obtain ⟨rfl, hnext⟩ := List.cons.inj heq
    cases rest with
    | nil => exact hdot rfl
    | cons d rest =>
      obtain ⟨rfl, -⟩ := List.cons.inj hnext
      exact hrest List.mem_cons_self
  · intro heq
    obtain ⟨rfl, hnext⟩ := List.cons.inj heq
    obtain ⟨rfl, -⟩ := List.append_eq_nil_iff.mp hnext
    exact hdot rfl

/-- A slash at the start of a spelling is not counted. -/
theorem dropPieces_slash (n : Nat) (text : Text) :
    dropPieces n ('/' :: text) = dropPieces n text := by
  cases n <;> simp only [dropPieces, trimStart]

/-- A piece is spelled before the others with a slash, if there are others. -/
theorem exists_joinWith_cons (piece : Component) (rest : List Component) :
    ∃ more, joinWith ['/'] ((piece :: rest).map Component.text) = piece.text ++ more ∧
      (more = [] ∧ rest = [] ∨ more = '/' :: joinWith ['/'] (rest.map Component.text)) := by
  cases rest with
  | nil => exact ⟨[], (List.append_nil _).symm, .inl ⟨rfl, rfl⟩⟩
  | cons next rest => exact ⟨'/' :: _, by simp [joinWith], .inr rfl⟩

/-- Dropping pieces leaves the spelling of the others. -/
theorem dropPieces_joinWith {pieces : List Component} (h : ∀ piece ∈ pieces, piece.IsPiece)
    (n : Nat) :
    dropPieces n (joinWith ['/'] (pieces.map Component.text)) =
      joinWith ['/'] ((pieces.drop n).map Component.text) := by
  induction n generalizing pieces with
  | zero =>
    cases pieces with
    | nil => rfl
    | cons first rest =>
      obtain ⟨more, hjoin, -⟩ := exists_joinWith_cons first rest
      rw [List.drop_zero, hjoin, dropPieces, trimStart_piece (h first List.mem_cons_self)]
  | succ n ih =>
    cases pieces with
    | nil =>
      have hnone := ih (List.forall_mem_nil Component.IsPiece)
      rw [List.drop_nil] at hnone ⊢
      exact hnone
    | cons first rest =>
      obtain ⟨hfirst, hrest⟩ := List.forall_mem_cons.mp h
      obtain ⟨more, hjoin, hmore⟩ := exists_joinWith_cons first rest
      have hpass : ∀ c ∈ first.text, decide (c ≠ '/') = true := fun c hc =>
        decide_eq_true fun heq => hfirst.1 (heq ▸ hc)
      rw [hjoin, dropPieces, trimStart_piece hfirst, List.dropWhile_append_of_pos hpass,
        List.drop_succ_cons, ← ih hrest]
      rcases hmore with ⟨rfl, rfl⟩ | rfl
      · rfl
      · rw [List.dropWhile_cons_of_neg (by simp), dropPieces_slash]

/-- A spelling of pieces ends in no slash and in no `.` piece. -/
theorem trimEnd_joinWith {pieces : List Component} (h : ∀ piece ∈ pieces, piece.IsPiece) :
    trimEnd (joinWith ['/'] (pieces.map Component.text)) =
      joinWith ['/'] (pieces.map Component.text) := by
  rcases List.eq_nil_or_concat' pieces with rfl | ⟨init, last, rfl⟩
  · rfl
  · have hlast := h last (List.mem_append_right init List.mem_cons_self)
    obtain ⟨hne, hdot⟩ := hlast.text_ne
    obtain ⟨text, htext⟩ : ∃ text, text = joinWith ['/'] ((init ++ [last]).map Component.text) :=
      ⟨_, rfl⟩
    have hpiece : lastPiece text = last.text := by
      rw [htext, List.map_append, List.map_singleton, lastPiece_joinWith,
        lastPiece_of_notMem hlast.1]
    have hself : trimReversed text.reverse = text.reverse := by
      rw [trimReversed]
      · intro rest heq
        rw [lastPiece, heq] at hpiece
        exact hne hpiece.symm
      · intro rest heq
        rw [lastPiece, heq] at hpiece
        exact hdot hpiece.symm
    rw [← htext, trimEnd, hself, List.reverse_reverse]

/-- Nothing of a directory is left when it is taken from what lies in it. -/
theorem dropCommon_append (dir more : List Component) :
    dropCommon dir (dir ++ more) = ([], more) := by
  induction dir with
  | nil => cases more <;> rfl
  | cons component rest ih => rw [List.cons_append, dropCommon, if_pos rfl, ih]

/-- The path to a target in the base is what follows in its clean form after that of the base. -/
theorem stripPrefix?_clean {base target : Path} (hbase : base.isAbsolute = true)
    (h : base.clean.components.isPrefixOf target.clean.components = true) :
    target.clean.stripPrefix? base.clean = some (relative base target) := by
  obtain ⟨more, hmore⟩ := List.isPrefixOf_iff_prefix.mp h
  have htarget : target.isAbsolute = true := by
    rw [← isAbsolute_clean, isAbsolute_iff_mem] at hbase ⊢
    rw [← hmore]
    exact List.mem_append_left more hbase
  obtain ⟨common, above, below, hbetween⟩ := exists_between hbase htarget
  have hnone : above = [] := by
    have hdrop := hbetween.dropCommon_eq
    rw [← components_clean, ← components_clean, ← hmore, dropCommon_append] at hdrop
    exact List.map_eq_nil_iff.mp (Prod.mk.inj hdrop).1.symm
  subst hnone
  have hpieces : ∀ piece ∈ (common ++ below).map Component.name, piece.IsPiece :=
    List.forall_mem_map.mpr hbetween.isPiece
  have hnames : ∀ piece ∈ below.map Component.name, piece.IsPiece := fun piece hmem =>
    hpieces piece (by rw [List.map_append]; exact List.mem_append_right _ hmem)
  have htext : target.clean.text.drop 1 =
      joinWith ['/'] (((common ++ below).map Component.name).map Component.text) := by
    rw [clean, hbetween.target_eq]
    rfl
  have hkept : ((common ++ below).map Component.name).drop (common.map Component.name).length =
      below.map .name := by rw [List.map_append, List.drop_left]
  have hleft : trimEnd (dropPieces (common.map Component.name).length (target.clean.text.drop 1)) =
      joinWith ['/'] ((below.map Component.name).map Component.text) := by
    rw [htext, dropPieces_joinWith hpieces, hkept, trimEnd_joinWith hnames]
  rw [stripPrefix?, if_pos h, components_clean, hbetween.base_eq, List.append_nil,
    hbetween.relative_eq, List.length_nil, List.replicate_zero, List.nil_append,
    ofComponents_of_isPiece hnames]
  exact congrArg (fun text => some (Path.mk text)) hleft

end LinkedNotes.Path
