import LinkedNotes.Proofs.Path.Parent

/-!
# What is left of a path behind a directory

Taking a directory off the start of a path leaves the spelling of what follows. Main statement: the
rest, followed from the directory, leads to the path again, in whatever way the two are spelled.
-/

namespace LinkedNotes.Path

open Note Text

/-- No piece between slashes is the `.` at the start of a path. -/
theorem here_notMem_pieceComponents (text : Text) : Component.here ∉ pieceComponents text := by
  intro h
  obtain ⟨piece, -, hpiece⟩ := List.mem_filterMap.mp h
  unfold Component.ofPiece? at hpiece
  split at hpiece
  · cases hpiece
  · split at hpiece <;> cases hpiece

/-- A slash at the start adds no component. -/
theorem pieceComponents_slash (text : Text) :
    pieceComponents ('/' :: text) = pieceComponents text :=
  pieceComponents_append [] text

/-- Behind a slash or a `.` at the start of a path stand its other components. -/
theorem pieceComponents_drop_one {path : Path} {first : Component} {rest : List Component}
    (h : path.components = first :: rest) (hfirst : first = .root ∨ first = .here) :
    pieceComponents (path.text.drop 1) = rest := by
  unfold components at h
  split at h
  · next htext =>
    rw [htext]
    exact (List.cons.inj h).2
  · next htext =>
    rw [htext]
    exact (List.cons.inj h).2
  · next htext =>
    rw [htext]
    exact (pieceComponents_slash _).trans (List.cons.inj h).2
  · have hmem : first ∈ pieceComponents path.text := by
      rw [h]
      exact List.mem_cons_self
    rcases hfirst with rfl | rfl
    · exact absurd hmem (root_notMem_pieceComponents _)
    · exact absurd hmem (here_notMem_pieceComponents _)

/-- A path that starts with another component is read piece by piece. -/
theorem pieceComponents_text_of_ne {path : Path} (hroot : path.components.head? ≠ some .root)
    (hhere : path.components.head? ≠ some .here) :
    pieceComponents path.text = path.components := by
  unfold components at hroot hhere ⊢
  split
  · next htext => simp [htext] at hroot
  · next htext => simp [htext] at hhere
  · next htext => simp [htext] at hhere
  · rfl

/-! ## Dropping pieces -/

/-- What is cut off at the start adds no component. -/
theorem pieceComponents_trimStart (text : Text) :
    pieceComponents (trimStart text) = pieceComponents text := by
  induction text using trimStart.induct with
  | case1 rest ih => rw [trimStart, ih, pieceComponents_slash]
  | case2 rest ih =>
    rw [trimStart, ih]
    exact (pieceComponents_append ['.'] rest).symm
  | case3 => rfl
  | case4 text hslash hdot hlone => rw [trimStart] <;> assumption

/-- What is left starts with a component, if anything is left. -/
theorem trimStart_eq_or (text : Text) :
    trimStart text = [] ∨ ∃ component,
      Component.ofPiece? ((trimStart text).takeWhile (· ≠ '/')) = some component := by
  induction text using trimStart.induct with
  | case1 rest ih =>
    rw [trimStart]
    exact ih
  | case2 rest ih =>
    rw [trimStart]
    exact ih
  | case3 => exact .inl rfl
  | case4 text hslash hdot hlone =>
    have hself : trimStart text = text := by rw [trimStart] <;> assumption
    rw [hself]
    rcases text with _ | ⟨c, rest⟩
    · exact .inl rfl
    · have hc : c ≠ '/' := fun heq => hslash rest (by rw [heq])
      refine .inr (exists_ofPiece?_eq_some ?_ ?_)
      · simp [hc]
      · rintro hpiece
        have hrest := List.takeWhile_cons_of_pos (p := (· ≠ '/')) (l := rest) (decide_eq_true hc)
        obtain ⟨rfl, hnil⟩ := List.cons.inj (hrest.symm.trans hpiece)
        rcases rest with _ | ⟨d, rest⟩
        · exact hlone rfl
        · have hd : d = '/' := by simpa using hnil
          exact hdot rest (by rw [hd])

/-- Dropping the first piece drops its component. -/
theorem pieceComponents_dropWhile (text : Text) :
    pieceComponents ((trimStart text).dropWhile (· ≠ '/')) = (pieceComponents text).tail := by
  rw [← pieceComponents_trimStart text]
  rcases trimStart_eq_or text with hnil | ⟨component, hcomponent⟩
  · rw [hnil]
    rfl
  · generalize trimStart text = left at hcomponent
    have hsplit := List.takeWhile_append_dropWhile (p := (· ≠ '/')) (l := left)
    have hpiece : '/' ∉ left.takeWhile (· ≠ '/') := fun hmem => by
      simpa using List.mem_takeWhile_imp hmem
    have hfirst := pieceComponents_of_notMem hpiece
    rw [hcomponent, Option.toList_some] at hfirst
    rcases hrest : left.dropWhile (· ≠ '/') with _ | ⟨c, rest⟩
    · rw [hrest, List.append_nil] at hsplit
      rw [hsplit] at hfirst
      rw [hfirst]
      rfl
    · have hc : c = '/' := by
        have hhead := List.head?_dropWhile_not (fun d : Char => decide (d ≠ '/')) left
        rw [hrest] at hhead
        simpa using hhead
      subst hc
      rw [hrest] at hsplit
      conv_rhs => rw [← hsplit, pieceComponents_append, hfirst]
      exact pieceComponents_slash rest

/-- Dropping pieces drops their components. -/
theorem pieceComponents_dropPieces (n : Nat) (text : Text) :
    pieceComponents (dropPieces n text) = (pieceComponents text).drop n := by
  induction n generalizing text with
  | zero => exact pieceComponents_trimStart text
  | succ n ih => rw [dropPieces, ih, pieceComponents_dropWhile, List.drop_tail]

/-- What is left does not start with a slash. -/
theorem head?_trimStart_ne (text : Text) : (trimStart text).head? ≠ some '/' := by
  intro hhead
  rcases trimStart_eq_or text with hnil | ⟨component, hcomponent⟩
  · rw [hnil] at hhead
    cases hhead
  · obtain ⟨rest, hrest⟩ := List.head?_eq_some_iff.mp hhead
    rw [hrest] at hcomponent
    cases hcomponent

/-- What is left does not start with a slash, however many pieces are dropped. -/
theorem head?_dropPieces_ne (n : Nat) (text : Text) : (dropPieces n text).head? ≠ some '/' := by
  induction n generalizing text with
  | zero => exact head?_trimStart_ne text
  | succ n ih => exact ih _

/-! ## Trimming the end -/

/-- The pieces of a text are its components without the one that its first place adds. -/
theorem pieceComponents_eq_filter (text : Text) :
    pieceComponents text = (components ⟨text⟩).filter fun part => part ≠ .root ∧ part ≠ .here := by
  have hself : ∀ rest : Text,
      (pieceComponents rest).filter (fun part => part ≠ .root ∧ part ≠ .here) =
        pieceComponents rest := fun rest => by
    refine List.filter_eq_self.mpr fun part hpart => decide_eq_true ⟨?_, ?_⟩
    · rintro rfl
      exact root_notMem_pieceComponents rest hpart
    · rintro rfl
      exact here_notMem_pieceComponents rest hpart
  unfold components
  split
  · next rest htext =>
    obtain rfl : text = '/' :: rest := htext
    exact (pieceComponents_slash rest).trans (hself rest).symm
  · next htext =>
    obtain rfl : text = ['.'] := htext
    rfl
  · next rest htext =>
    obtain rfl : text = '.' :: '/' :: rest := htext
    exact (pieceComponents_append ['.'] rest).trans (hself rest).symm
  · exact (hself text).symm

/-- A name is a piece of a text exactly if it is a component of the path. -/
theorem name_mem_pieceComponents_iff {name text : Text} :
    Component.name name ∈ pieceComponents text ↔ Component.name name ∈ components ⟨text⟩ := by
  rw [pieceComponents_eq_filter]
  simp

/-- What is no slash and no dot in a text is in one of the names that its pieces are. -/
theorem exists_name_mem_pieceComponents_iff {c : Char} (hslash : c ≠ '/') (hdot : c ≠ '.')
    (text : Text) :
    (∃ name, Component.name name ∈ pieceComponents text ∧ c ∈ name) ↔ c ∈ text := by
  rw [← exists_mem_splitOn_iff hslash]
  constructor
  · rintro ⟨name, hname, hc⟩
    obtain ⟨piece, hpiece, hof⟩ := List.mem_filterMap.mp hname
    have hsame : piece = name := by
      unfold Component.ofPiece? at hof
      split_ifs at hof
      · cases hof
      · exact Component.name.inj (Option.some.inj hof)
    exact ⟨piece, hpiece, hsame ▸ hc⟩
  · rintro ⟨piece, hpiece, hc⟩
    refine ⟨piece, List.mem_filterMap.mpr ⟨piece, hpiece, ?_⟩, hc⟩
    have hne : ¬(piece = [] ∨ piece = ['.']) := by
      rintro (rfl | rfl) <;> simp [hdot] at hc
    have hup : piece ≠ ['.', '.'] := by
      rintro rfl
      simp [hdot] at hc
    rw [Component.ofPiece?, if_neg hne, if_neg hup]

/-- What is cut off at the end adds no component. -/
theorem pieceComponents_trimEnd (text : Text) :
    pieceComponents (trimEnd text) = pieceComponents text := by
  rw [pieceComponents_eq_filter, trimEnd, components_trimReversed, List.reverse_reverse,
    ← pieceComponents_eq_filter]

/-- What is left after trimming the end is the start of the text. -/
theorem trimEnd_prefix (text : Text) : trimEnd text <+: text := by
  have hsuffix : ∀ reversed : Text, trimReversed reversed <:+ reversed := by
    intro reversed
    induction reversed using trimReversed.induct with
    | case1 => exact List.suffix_rfl
    | case2 rest hrest ih =>
      rw [trimReversed, if_neg hrest]
      exact ih.trans (List.suffix_cons _ _)
    | case3 rest ih =>
      rw [trimReversed]
      exact ih.trans (List.suffix_cons _ _)
    | case4 text hslash hdot =>
      have hself : trimReversed text = text := by rw [trimReversed] <;> assumption
      rw [hself]
  have hprefix := List.reverse_prefix.mpr (hsuffix text.reverse)
  rwa [List.reverse_reverse] at hprefix

/-! ## Following the rest -/

/-- What is left behind dropped pieces starts with no slash. -/
theorem isAbsolute_trimEnd_dropPieces (n : Nat) (text : Text) :
    (⟨trimEnd (dropPieces n text)⟩ : Path).isAbsolute = false := by
  rw [isAbsolute, decide_eq_false_iff_not]
  intro hhead
  obtain ⟨rest, hrest⟩ := trimEnd_prefix (dropPieces n text)
  refine head?_dropPieces_ne n text ?_
  rw [← hrest, List.head?_append, hhead]
  rfl

/-- The rest of a path behind a directory that is spelled with some text is relative. -/
theorem isAbsolute_of_stripPrefix? {path base rest : Path} (hbase : base.text ≠ [])
    (h : path.stripPrefix? base = some rest) : rest.isAbsolute = false := by
  unfold stripPrefix? at h
  split at h
  · split at h
    · next hnil => exact absurd (components_eq_nil.mp hnil) hbase
    all_goals
      obtain rfl := Option.some.inj h
      exact isAbsolute_trimEnd_dropPieces ..
  · cases h

/-- A relative path leads below the directory that it is followed from. -/
theorem prefix_components_join {base path : Path}
    (h : base.text ≠ [] → path.isAbsolute = false) :
    base.components <+: (base.join path).components := by
  by_cases hbase : base.text = []
  · rw [components_eq_nil.mpr hbase]
    exact List.nil_prefix
  · rw [components_join hbase (h hbase)]
    exact List.prefix_append _ _

/-- A rest with the components behind those of a directory leads from there to the path. -/
theorem components_join_trimEnd_dropPieces {path base : Path} {text : Text} {n : Nat}
    (hbase : base.text ≠ [])
    (h : path.components = base.components ++ (pieceComponents text).drop n) :
    (base.join ⟨trimEnd (dropPieces n text)⟩).components = path.components := by
  rw [components_join hbase (isAbsolute_trimEnd_dropPieces n text), pieceComponents_trimEnd,
    pieceComponents_dropPieces, h]

/-- From a directory that starts with a slash or a `.`, what is dropped is counted behind it. -/
theorem components_join_drop_one {path base : Path} {first : Component}
    {parts more : List Component} (hbase : base.components = first :: parts)
    (hfirst : first = .root ∨ first = .here) (hmore : base.components ++ more = path.components) :
    (base.join ⟨trimEnd (dropPieces parts.length (path.text.drop 1))⟩).components =
      path.components := by
  have hne : base.text ≠ [] := fun hnil => by
    rw [components_eq_nil.mpr hnil] at hbase
    cases hbase
  refine components_join_trimEnd_dropPieces hne ?_
  rw [hbase, List.cons_append] at hmore
  rw [pieceComponents_drop_one hmore.symm hfirst, List.drop_left, hbase, ← hmore, List.cons_append]

/-- The rest of a path behind a directory leads from there to the path. -/
theorem components_join_stripPrefix? {path base rest : Path}
    (h : path.stripPrefix? base = some rest) : (base.join rest).components = path.components := by
  unfold stripPrefix? at h
  split at h
  · next hprefix =>
    obtain ⟨more, hmore⟩ := List.isPrefixOf_iff_prefix.mp hprefix
    split at h
    · next hnil =>
      obtain rfl := Option.some.inj h
      have hbase : base.text = [] := components_eq_nil.mp hnil
      have hjoin : base.join ⟨trimEnd path.text⟩ = ⟨trimEnd path.text⟩ := by simp [join, hbase]
      rw [hjoin, trimEnd, components_trimReversed, List.reverse_reverse]
    · next parts hroot =>
      obtain rfl := Option.some.inj h
      exact components_join_drop_one hroot (.inl rfl) hmore
    · next parts hhere =>
      obtain rfl := Option.some.inj h
      exact components_join_drop_one hhere (.inr rfl) hmore
    · next hnil hroot hhere =>
      obtain rfl := Option.some.inj h
      refine components_join_trimEnd_dropPieces (mt components_eq_nil.mpr hnil) ?_
      obtain ⟨first, parts, hbase⟩ := List.exists_cons_of_ne_nil hnil
      have hhead : path.components.head? = some first := by rw [← hmore, hbase]; rfl
      have hpieces : pieceComponents path.text = path.components := by
        refine pieceComponents_text_of_ne ?_ ?_
        · rw [hhead]
          rintro ⟨⟩
          exact hroot parts hbase
        · rw [hhead]
          rintro ⟨⟩
          exact hhere parts hbase
      rw [hpieces, ← hmore, List.drop_left]
  · cases h

/-- There is a rest exactly if the components of the directory stand at the start of the path, and
followed from the directory it is the path. -/
theorem map_stripPrefix? (path base : Path) :
    (path.stripPrefix? base).map (fun rest => (base.join rest).components) =
      if base.components.isPrefixOf path.components then some path.components else none := by
  cases h : path.stripPrefix? base with
  | some rest =>
    rw [Option.map_some, components_join_stripPrefix? h]
    unfold stripPrefix? at h
    split at h
    · next hprefix => rw [if_pos hprefix]
    · cases h
  | none =>
    unfold stripPrefix? at h
    split at h
    · split at h <;> cases h
    · next hprefix => rw [if_neg hprefix, Option.map_none]

end LinkedNotes.Path
