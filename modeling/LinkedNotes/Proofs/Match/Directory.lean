import LinkedNotes.Proofs.Match.Documents
import LinkedNotes.Proofs.Note.Template
import LinkedNotes.Proofs.Path.Slashes

/-!
# Labels with a directory

A label `name (dir)` may be cut at several parentheses, and it is cut after the shortest name. Main
statement: a text is cut exactly if it is such a label, and under relative paths the label of a note
in a directory names this note, if the name of the note has no parenthesis that opens. What else a
label names is outside this module.
-/

namespace LinkedNotes

namespace Match

open Note Text

/-- Whether a label is a name and a directory in parentheses, with blanks between them or not. -/
structure IsLabel (label name dir : Text) : Prop where
  /-- Nothing but blanks stands between the name and the parentheses, and nothing behind them. -/
  eq_append : ∃ gap, label = name ++ (gap ++ '(' :: (dir ++ [')'])) ∧ ∀ c ∈ gap, isBlank c = true
  /-- There is a name. -/
  name_ne_nil : name ≠ []
  /-- There is a directory. -/
  dir_ne_nil : dir ≠ []
  /-- The name stands on one line. -/
  name_unbroken : '\n' ∉ name
  /-- The directory stands on one line. -/
  dir_unbroken : '\n' ∉ dir

/-- A label ends with its last parenthesis. -/
theorem IsLabel.getLast?_eq {label name dir : Text} (h : IsLabel label name dir) :
    label.getLast? = some ')' := by
  obtain ⟨gap, rfl, -⟩ := h.eq_append
  have hend : name ++ (gap ++ '(' :: (dir ++ [')'])) = name ++ (gap ++ '(' :: dir) ++ [')'] := by
    simp
  rw [hend, List.getLast?_concat]

/-! ## The cut after the shortest name -/

/-- What can follow a name: blanks, a parenthesis, and a directory on one line. -/
theorem dirAfterName?_eq_some_iff {rest dir : Text} :
    dirAfterName? rest = some dir ↔
      (∃ gap, rest = gap ++ '(' :: dir ∧ ∀ c ∈ gap, isBlank c = true) ∧ dir ≠ [] ∧ '\n' ∉ dir := by
  unfold dirAfterName?
  constructor
  · intro h
    split at h
    · next found hstart =>
      split at h
      · next hdir =>
        obtain rfl := Option.some.inj h
        refine ⟨⟨rest.takeWhile isBlank, ?_, fun c => List.mem_takeWhile_imp⟩, hdir⟩
        rw [← hstart, trimStart, List.takeWhile_append_dropWhile]
      · cases h
    · cases h
  · rintro ⟨⟨gap, rfl, hgap⟩, hdir⟩
    have hstart : trimStart (gap ++ '(' :: dir) = '(' :: dir := by
      rw [trimStart, List.dropWhile_append_of_pos hgap,
        List.dropWhile_cons_of_neg (by decide)]
    simp only [hstart, if_pos hdir]

/-- A label without its last parenthesis is a name and what can follow it. -/
theorem isLabel_concat_iff {text name dir : Text} :
    IsLabel (text ++ [')']) name dir ↔
      name ≠ [] ∧ '\n' ∉ name ∧ ∃ rest, text = name ++ rest ∧ dirAfterName? rest = some dir := by
  constructor
  · rintro ⟨⟨gap, heq, hgap⟩, hname, hdir, hunbroken, hdirUnbroken⟩
    refine ⟨hname, hunbroken, gap ++ '(' :: dir, ?_,
      dirAfterName?_eq_some_iff.mpr ⟨⟨gap, rfl, hgap⟩, hdir, hdirUnbroken⟩⟩
    have hend : text ++ [')'] = name ++ (gap ++ '(' :: dir) ++ [')'] := by
      rw [heq]
      simp
    exact List.append_cancel_right hend
  · rintro ⟨hname, hunbroken, rest, rfl, hrest⟩
    obtain ⟨⟨gap, rfl, hgap⟩, hdir, hdirUnbroken⟩ := dirAfterName?_eq_some_iff.mp hrest
    exact ⟨⟨gap, by simp, hgap⟩, hname, hdir, hunbroken, hdirUnbroken⟩

variable {c : Char} {rest name dir : Text}

/-- The name of a label is its first character, or has the name of a shorter label behind it. -/
theorem isLabel_cons_iff :
    IsLabel (c :: rest ++ [')']) name dir ↔
      c ≠ '\n' ∧ (name = [c] ∧ dirAfterName? rest = some dir ∨
        ∃ more, name = c :: more ∧ IsLabel (rest ++ [')']) more dir) := by
  rw [isLabel_concat_iff]
  constructor
  · rintro ⟨hname, hunbroken, after, heq, hafter⟩
    cases name with
    | nil => exact absurd rfl hname
    | cons d more =>
      obtain ⟨rfl, rfl⟩ := List.cons.inj heq
      obtain ⟨hc, hmore⟩ := List.ne_and_not_mem_of_not_mem_cons hunbroken
      refine ⟨hc.symm, ?_⟩
      by_cases hnil : more = []
      · subst hnil
        exact .inl ⟨rfl, hafter⟩
      · exact .inr ⟨more, rfl, isLabel_concat_iff.mpr ⟨hnil, hmore, after, rfl, hafter⟩⟩
  · rintro ⟨hc, ⟨rfl, hrest⟩ | ⟨more, rfl, hlabel⟩⟩
    · exact ⟨List.cons_ne_nil _ _, by simpa using hc.symm, rest, rfl, hrest⟩
    · obtain ⟨-, hmore, after, rfl, hafter⟩ := isLabel_concat_iff.mp hlabel
      exact ⟨List.cons_ne_nil _ _, List.not_mem_cons_of_ne_of_not_mem hc.symm hmore, after, rfl,
        hafter⟩

/-- A label that lacks its last parenthesis is cut after the shortest name. -/
theorem cutLabel?_eq_some_iff {text : Text} :
    cutLabel? text = some (name, dir) ↔
      IsLabel (text ++ [')']) name dir ∧
        ∀ name' dir', IsLabel (text ++ [')']) name' dir' → name.length ≤ name'.length := by
  induction text generalizing name with
  | nil =>
    have hnone : ¬IsLabel ([] ++ [')']) name dir := fun h => by
      obtain ⟨hname, -, after, heq, -⟩ := isLabel_concat_iff.mp h
      exact hname (List.append_eq_nil_iff.mp heq.symm).1
    exact ⟨nofun, fun h => absurd h.1 hnone⟩
  | cons c rest ih =>
    by_cases hc : c = '\n'
    · rw [cutLabel?, if_pos hc]
      exact ⟨nofun, fun h => absurd hc (isLabel_cons_iff.mp h.1).1⟩
    · rw [cutLabel?, if_neg hc]
      cases hrest : dirAfterName? rest with
      | some found =>
        -- No name is shorter than the first character.
        have hfirst : IsLabel (c :: rest ++ [')']) [c] found :=
          isLabel_cons_iff.mpr ⟨hc, .inl ⟨rfl, hrest⟩⟩
        constructor
        · rintro ⟨⟩
          exact ⟨hfirst, fun name' dir' h => List.length_pos_of_ne_nil h.name_ne_nil⟩
        · rintro ⟨hlabel, hshortest⟩
          rcases (isLabel_cons_iff.mp hlabel).2 with ⟨rfl, hdir⟩ | ⟨more, rfl, hmore⟩
          · obtain rfl := Option.some.inj (hrest.symm.trans hdir)
            rfl
          · have hle := hshortest _ _ hfirst
            have hpos := List.length_pos_of_ne_nil hmore.name_ne_nil
            simp only [List.length_cons, List.length_nil] at hle
            omega
      | none =>
        -- Every name has the name of a label without the first character behind this.
        have hcons : ∀ {name' dir'}, IsLabel (c :: rest ++ [')']) name' dir' ↔
            ∃ more, name' = c :: more ∧ IsLabel (rest ++ [')']) more dir' := fun {name' dir'} => by
          rw [isLabel_cons_iff]
          simp [hc, hrest]
        simp only [Option.map_eq_some_iff, Prod.exists, Prod.mk.injEq]
        constructor
        · rintro ⟨more, _, hcut, rfl, rfl⟩
          obtain ⟨hlabel, hshortest⟩ := ih.mp hcut
          refine ⟨hcons.mpr ⟨more, rfl, hlabel⟩, fun name' dir' h => ?_⟩
          obtain ⟨more', rfl, hlabel'⟩ := hcons.mp h
          exact Nat.succ_le_succ (hshortest more' dir' hlabel')
        · rintro ⟨hlabel, hshortest⟩
          obtain ⟨more, rfl, hmore⟩ := hcons.mp hlabel
          refine ⟨more, dir, ih.mpr ⟨hmore, fun name' dir' h => ?_⟩, rfl, rfl⟩
          exact Nat.le_of_succ_le_succ (hshortest (c :: name') dir' (hcons.mpr ⟨name', rfl, h⟩))

/-- A text is cut after the shortest name that leaves a label. -/
theorem splitLabel?_eq_some_iff {raw : Text} :
    splitLabel? raw = some (name, dir) ↔
      IsLabel (trim raw) name dir ∧
        ∀ name' dir', IsLabel (trim raw) name' dir' → name.length ≤ name'.length := by
  unfold splitLabel?
  by_cases hlast : (trim raw).getLast? = some ')'
  · obtain ⟨text, htext⟩ := List.getLast?_eq_some_iff.mp hlast
    rw [if_pos hlast, htext, List.dropLast_concat, cutLabel?_eq_some_iff]
  · rw [if_neg hlast]
    exact ⟨nofun, fun h => absurd h.1.getLast?_eq hlast⟩

/-- Parentheses in the directory stay, and a lone pair is no directory. -/
example : splitLabel? " a (b) (c)".toList = some ("a".toList, "b) (c".toList) ∧
    splitLabel? "a()".toList = none := by decide

/-- A text is cut exactly if it is a label. -/
theorem isSome_splitLabel?_iff {raw : Text} :
    (splitLabel? raw).isSome = true ↔ ∃ name dir, IsLabel (trim raw) name dir := by
  rw [Option.isSome_iff_exists]
  constructor
  · rintro ⟨⟨name, dir⟩, h⟩
    exact ⟨name, dir, (splitLabel?_eq_some_iff.mp h).1⟩
  · rintro ⟨name, dir, h⟩
    have hlength : ∃ n name dir, IsLabel (trim raw) name dir ∧ name.length = n :=
      ⟨_, name, dir, h, rfl⟩
    classical
    obtain ⟨shortest, found, hlabel, heq⟩ := Nat.find_spec hlength
    refine ⟨(shortest, found), splitLabel?_eq_some_iff.mpr ⟨hlabel, fun name' dir' h' => ?_⟩⟩
    rw [heq]
    exact Nat.find_min' hlength ⟨name', dir', h', rfl⟩

/-! ## Names without a parenthesis that opens -/

namespace IsLabel

variable {raw : Text}

/-- A label whose name starts with no blank has no blanks around it. -/
theorem trim_eq (h : IsLabel raw name dir) (hname : Solid name) : trim raw = raw := by
  refine Solid.trim_eq ⟨fun c hc => hname.first c ?_, fun c hc => ?_⟩
  · obtain ⟨gap, rfl, -⟩ := h.eq_append
    rwa [List.head?_append_of_ne_nil _ h.name_ne_nil] at hc
  · obtain rfl := Option.some.inj (h.getLast?_eq.symm.trans hc)
    decide

/-- No name is shorter than one without blanks around it and without a parenthesis that opens. -/
theorem length_le (h : IsLabel raw name dir) (hparen : '(' ∉ name) (hname : Solid name)
    {name' dir' : Text} (h' : IsLabel raw name' dir') : name.length ≤ name'.length := by
  obtain ⟨gap, hraw, -⟩ := h.eq_append
  obtain ⟨gap', hraw', hgap'⟩ := h'.eq_append
  by_contra hlt
  -- The longer name would go on with the blanks behind the shorter one.
  obtain ⟨more, hmore⟩ : name' <+: name :=
    List.prefix_of_prefix_length_le ⟨_, hraw'.symm⟩ ⟨_, hraw.symm⟩ (by omega)
  have hne : more ≠ [] := by
    rintro rfl
    rw [← hmore, List.append_nil] at hlt
    exact hlt le_rfl
  have hblank : ∀ c ∈ more, isBlank c = true := by
    have heq : more ++ (gap ++ '(' :: (dir ++ [')'])) = gap' ++ '(' :: (dir' ++ [')']) := by
      rw [hraw, ← hmore, List.append_assoc] at hraw'
      exact List.append_cancel_left hraw'
    rcases List.append_eq_append_iff.mp heq with ⟨before, hbefore, -⟩ | ⟨after, hafter, hopen⟩
    · exact fun c hc => hgap' c (hbefore ▸ List.mem_append_left before hc)
    · cases after with
      | nil =>
        rw [List.append_nil] at hafter
        exact hafter ▸ hgap'
      | cons c after =>
        obtain rfl := (List.cons.inj hopen).1
        exact absurd (by simp [← hmore, hafter]) hparen
  have hlast := hname.last (more.getLast hne) (by
    rw [← hmore, List.getLast?_append_of_ne_nil _ hne]
    exact List.getLast?_eq_getLast_of_ne_nil hne)
  rw [hblank _ (List.getLast_mem hne)] at hlast
  cases hlast

/-- A label with such a name is cut after it. -/
theorem splitLabel?_eq (h : IsLabel raw name dir) (hparen : '(' ∉ name) (hname : Solid name) :
    splitLabel? raw = some (name, dir) := by
  rw [splitLabel?_eq_some_iff, h.trim_eq hname]
  exact ⟨h, fun _ _ => h.length_le hparen hname⟩

/-- Such a label asks for the note with its name and an extension in its directory. -/
theorem normalize_mem_wantedKeys (h : IsLabel raw name dir) (hparen : '(' ∉ name)
    (hname : Solid name) (hkept : stripExtension name = name) (hdir : dir.getLast? ≠ some '/')
    {extension : Text} (hextension : extension.map foldCase ∈ extensions) :
    normalize (dir ++ '/' :: (name ++ '.' :: extension)) ∈ wantedKeys raw := by
  have hclean : dropEndWhile (· == '/') dir = dir := by
    refine dropEndWhile_eq_self fun c hc => ?_
    rw [beq_eq_false_iff_ne]
    rintro rfl
    exact hdir hc
  have hparts : dir ++ '/' :: (name ++ '.' :: extension) =
      dir ++ ['/'] ++ name ++ '.' :: extension := by simp
  have hslash : stripExtension (dir ++ ['/'] ++ name) = dir ++ ['/'] ++ name := by
    rw [stripExtension_append (.inr List.getLast?_concat), hkept]
  have hkey : normalize (dir ++ '/' :: (name ++ '.' :: extension)) =
      normalize (dir ++ ['/'] ++ name) := by
    rw [Note.normalize, Note.normalize, hslash, hparts, stripExtension_append_extension hextension]
  rw [hkey, wantedKeys, h.splitLabel?_eq hparen hname]
  simp only [hclean]
  exact List.mem_cons_of_mem _ List.mem_cons_self

end IsLabel

end Match

namespace Matcher

open Match Note Text

/-- A note is named by the label of its name and its directory as seen from the linking note. -/
theorem exists_same_mem_documentsOf_isLabel {matcher : Matcher} {isFile : Path → Bool}
    {notes : List Path} {source base note : Path} {raw name dir extension : Text}
    (hconv : matcher.convention = .relativePaths) (hbase : source.parent? = some base)
    (hnote : note ∈ notes)
    (htext : (Path.relative base note).text = dir ++ '/' :: (name ++ '.' :: extension))
    (hextension : extension.map foldCase ∈ extensions) (hlabel : IsLabel raw name dir)
    (hparen : '(' ∉ name) (hname : Solid name) (hkept : stripExtension name = name) :
    ∃ found ∈ matcher.documentsOf isFile notes raw source, found.same note = true := by
  have hdir : dir.getLast? ≠ some '/' := Path.getLast?_ne_of_relative htext
  have hkey : normalize (Path.relative (matcher.baseOf (some source)) note).text ∈
      wantedKeys raw := by
    rw [baseOf, Option.bind_some, hbase, Option.getD_some, htext]
    exact hlabel.normalize_mem_wantedKeys hparen hname hkept hdir hextension
  have hblank : trim raw ≠ [] := by
    obtain ⟨gap, heq, -⟩ := hlabel.eq_append
    rw [hlabel.trim_eq hname, heq]
    simp [hlabel.name_ne_nil]
  obtain ⟨found, hfound, hsame⟩ := matcher.exists_same_mem_relativeNotes hnote hkey
  rw [← knownNotes_of_relativePaths hconv] at hfound
  rw [documentsOf_of_knownNotes_ne hblank (List.ne_nil_of_mem hfound)]
  exact ⟨found, hfound, hsame⟩

/-- A text is cut exactly if it is a label without the blanks around it, and then after the shortest
name. So under relative paths, where `dir/name.extension` leads from the directory of the linking
note to a known note, the label `name (dir)` names this note up to the spelling of its path, if the
name has no parenthesis that opens, no blanks around it and no note extension of its own. -/
theorem splitLabel?_shortest_and_found (raw : Text) :
    ((splitLabel? raw).isSome = true ↔ ∃ name dir, IsLabel (trim raw) name dir) ∧
    (∀ name dir, splitLabel? raw = some (name, dir) ↔
      IsLabel (trim raw) name dir ∧
        ∀ name' dir', IsLabel (trim raw) name' dir' → name.length ≤ name'.length) ∧
    ∀ (matcher : Matcher) (isFile : Path → Bool) (notes : List Path) (source base note : Path)
      (name dir extension : Text),
      matcher.convention = .relativePaths → source.parent? = some base → note ∈ notes →
      (Path.relative base note).text = dir ++ '/' :: (name ++ '.' :: extension) →
      extension.map foldCase ∈ extensions → IsLabel raw name dir →
      '(' ∉ name → Solid name → stripExtension name = name →
      ∃ found ∈ matcher.documentsOf isFile notes raw source, found.same note = true := by
  refine ⟨isSome_splitLabel?_iff, fun name dir => splitLabel?_eq_some_iff, ?_⟩
  intro matcher isFile notes source base note name dir extension hconv hbase hnote htext
    hextension hlabel hparen hname hkept
  exact exists_same_mem_documentsOf_isLabel hconv hbase hnote htext hextension hlabel hparen hname
    hkept

/-- A label names a note outside the directory of the linking note, although there are parentheses
in the name of the note's directory. -/
theorem splitLabel?_shortest_and_found_outside :
    let matcher : Matcher := ⟨⟨"/ws".toList⟩, .relativePaths⟩
    let raw := "note (../b (old))".toList
    let source : Path := ⟨"/ws/a/x.md".toList⟩
    let note : Path := ⟨"/ws/b (old)/note.MD".toList⟩
    source.parent? = some ⟨"/ws/a".toList⟩ ∧
      (Path.relative ⟨"/ws/a".toList⟩ note).text = "../b (old)/note.MD".toList ∧
      splitLabel? raw = some ("note".toList, "../b (old)".toList) ∧
      ∃ found ∈ matcher.documentsOf (fun _ => false) [source, note] raw source,
        found.same note = true := by
  intro matcher raw source note
  have hbase : source.parent? = some ⟨"/ws/a".toList⟩ := by decide
  have htext : (Path.relative ⟨"/ws/a".toList⟩ note).text = "../b (old)/note.MD".toList := by
    decide
  have hspace : ∀ c ∈ [' '], isBlank c = true := List.forall_mem_singleton.mpr (by decide)
  have hlabel : IsLabel raw "note".toList "../b (old)".toList :=
    ⟨⟨[' '], rfl, hspace⟩, by decide, by decide, by decide, by decide⟩
  have hname : Solid "note".toList :=
    ⟨fun c hc => by cases hc; decide, fun c hc => by cases hc; decide⟩
  obtain ⟨-, -, hfound⟩ := splitLabel?_shortest_and_found raw
  refine ⟨hbase, htext, by decide, ?_⟩
  exact hfound matcher (fun _ => false) [source, note] source _ note "note".toList
    "../b (old)".toList "MD".toList rfl hbase (by simp) htext (by decide) hlabel (by decide) hname
    (by decide)

end Matcher
end LinkedNotes
