import LinkedNotes.Proofs.Match.Documents
import LinkedNotes.Rank.Basic

/-!
# Labels as link texts

The label of a note is its name or its path without an extension, so a link with this label should
name the note. Main statement: it does if the label has no extension of its own. If it has one, the
matcher cuts that off as well, and the note is only named when it lies at or above the root.
-/

namespace LinkedNotes

namespace Match

open Note Text

/-- A last character that is no blank is not trimmed. -/
theorem trim_concat {init : Text} {c : Char} (h : isBlank c = false) :
    trim (init ++ [c]) = trimStart init ++ [c] := by
  have hstart : trimStart (init ++ [c]) = trimStart init ++ [c] := by
    simp only [trimStart, List.dropWhile_append, List.dropWhile_cons, h]
    cases List.dropWhile isBlank init <;> simp
  rw [trim, hstart, trimEnd, dropEndWhile]
  simp [h]

/-- A text with an extension has no directory in parentheses. -/
theorem wantedKeys_of_stripExtension_ne {raw : Text} (h : stripExtension raw ≠ raw) :
    wantedKeys raw = [normalize raw] := by
  obtain ⟨init, c, rfl, hblank, hc⟩ := exists_last_of_stripExtension_ne h
  have hparen : c ≠ ')' := fun he => hc (by simp [he])
  simp [wantedKeys, splitLabel?, trim_concat hblank, hparen]

/-- The literal path of a text with an extension ends in a name. -/
theorem ofPiece?_lastPiece_trim {raw : Text} (h : stripExtension raw ≠ raw) :
    Component.ofPiece? (lastPiece (trim raw)) = some (.name (lastPiece (trim raw))) := by
  obtain ⟨init, c, rfl, hblank, hc⟩ := exists_last_of_stripExtension_ne h
  have hslash : '/' ∉ [c] := by
    simpa using fun he : '/' = c => hc (by simp [← he])
  have hdot : c ≠ '.' := fun he => hc (by simp [he])
  obtain ⟨dir, hinit, hdir⟩ := exists_dir_lastPiece (trimStart init)
  have hfree := slash_notMem_lastPiece (trimStart init)
  have hpiece : lastPiece (trim (init ++ [c])) = lastPiece (trimStart init) ++ [c] := by
    rw [trim_concat hblank, hinit, List.append_assoc, lastPiece_append hdir, ← hinit]
    exact fun hmem => (List.mem_append.mp hmem).elim hfree hslash
  rw [hpiece, Component.ofPiece?, if_neg, if_neg]
  · intro he
    have := congrArg List.getLast? he
    simp [hdot] at this
  · rintro (he | he)
    · simp at he
    · have := congrArg List.getLast? he
      simp [hdot] at this

/-- Trimming does not make the last piece of a text with an extension longer. -/
theorem length_lastPiece_trim_le {raw : Text} (h : stripExtension raw ≠ raw) :
    (lastPiece (trim raw)).length ≤ (lastPiece raw).length := by
  obtain ⟨init, c, rfl, hblank, -⟩ := exists_last_of_stripExtension_ne h
  have hsplit : init ++ [c] = init.takeWhile isBlank ++ (trimStart init ++ [c]) := by
    rw [← List.append_assoc, trimStart, List.takeWhile_append_dropWhile]
  rw [trim_concat hblank]
  conv_rhs => rw [hsplit]
  exact length_lastPiece_le _ _

/-- The literal path of what is left of a name with two extensions ends in another name. -/
theorem lastPiece_trim_ne {name last : Text}
    (h : stripExtension (stripExtension name) ≠ stripExtension name)
    (hlast : lastPiece name = lastPiece last) :
    lastPiece (trim (stripExtension name)) ≠ last := by
  intro he
  have hne := stripExtension_ne_of_twice h
  have hself : lastPiece last = last := by rw [← he, lastPiece_lastPiece]
  have hlt : last.length < last.length := calc
    last.length = (lastPiece (trim (stripExtension name))).length := by rw [he]
    _ ≤ (lastPiece (stripExtension name)).length := length_lastPiece_trim_le h
    _ = (stripExtension (lastPiece name)).length := by rw [lastPiece_stripExtension]
    _ < (lastPiece name).length := length_stripExtension_lt (stripExtension_lastPiece_ne hne)
    _ = last.length := by rw [hlast, hself]
  exact Nat.lt_irrefl _ hlt

end Match

namespace Matcher

open Match Note Text

/-- How notes are shown to someone who writes in a document. -/
def rankerIn (matcher : Matcher) (document : Path) : Ranker :=
  ⟨matcher.root, matcher.convention, some document⟩

/-- Under unique names a label is a file name without its extension. -/
theorem label_of_uniqueNames {matcher : Matcher} (h : matcher.convention = .uniqueNames)
    (document note : Path) :
    (matcher.rankerIn document).label note = stripExtension (note.fileName?.getD []) := by
  simp only [Ranker.label, rankerIn, h, stem]

/-- Under relative paths a label is a path from the document without its extension. -/
theorem label_of_relativePaths {matcher : Matcher} (h : matcher.convention = .relativePaths)
    (document note : Path) :
    (matcher.rankerIn document).label note =
      stripExtension (Path.relative (matcher.baseOf (some document)) note).text := by
  simp only [Ranker.label, rankerIn, h, baseOf]

/-- A label that is not blank and has no extension of its own is a key of its note. -/
theorem exists_same_mem_knownNotes_label {matcher : Matcher} {notes : List Path}
    {document note : Path} (hnote : note ∈ notes)
    (hblank : trim ((matcher.rankerIn document).label note) ≠ [])
    (hstrip : stripExtension ((matcher.rankerIn document).label note) =
      (matcher.rankerIn document).label note) :
    ∃ found ∈ matcher.knownNotes ((matcher.rankerIn document).label note) (some document) notes,
      found.same note = true := by
  cases hconv : matcher.convention with
  | uniqueNames =>
    rw [label_of_uniqueNames hconv] at hblank hstrip ⊢
    rw [knownNotes_of_uniqueNames hconv]
    refine ⟨note, List.mem_filter.mpr ⟨hnote, ?_⟩, note.same_self⟩
    cases hname : note.fileName? with
    | none =>
      rw [hname] at hblank
      exact absurd (by decide) hblank
    | some name =>
      rw [hname, Option.getD_some] at hstrip
      simp only [basenameMatches, namesMatch, hname, Option.getD_some,
        normalize_stripExtension hstrip, beq_self_eq_true]
  | relativePaths =>
    rw [label_of_relativePaths hconv] at hstrip ⊢
    rw [knownNotes_of_relativePaths hconv]
    refine exists_same_mem_relativeNotes hnote ?_
    rw [← normalize_stripExtension hstrip]
    exact normalize_mem_wantedKeys _

/-- A label that is not blank and has no extension of its own names its note. -/
theorem exists_same_mem_documentsOf_label {matcher : Matcher} (isFile : Path → Bool)
    {notes : List Path} {document note : Path} (hnote : note ∈ notes)
    (hblank : trim ((matcher.rankerIn document).label note) ≠ [])
    (hstrip : stripExtension ((matcher.rankerIn document).label note) =
      (matcher.rankerIn document).label note) :
    ∃ found ∈ matcher.documentsOf isFile notes ((matcher.rankerIn document).label note) document,
      found.same note = true := by
  obtain ⟨found, hmem, hsame⟩ := exists_same_mem_knownNotes_label hnote hblank hstrip
  refine ⟨found, ?_, hsame⟩
  rwa [documentsOf_of_knownNotes_ne hblank (List.ne_nil_of_mem hmem)]

/-- A label is what is left of a name or path of its note. If the label has an extension again,
that name or path ends as the note does. -/
theorem exists_spelling_of_label {matcher : Matcher} {document note : Path}
    (h : stripExtension ((matcher.rankerIn document).label note) ≠
      (matcher.rankerIn document).label note) :
    ∃ spelling, (matcher.rankerIn document).label note = stripExtension spelling ∧
      ∀ last, note.components.getLast? = some (.name last) →
        lastPiece spelling = lastPiece last := by
  cases hconv : matcher.convention with
  | uniqueNames =>
    refine ⟨note.fileName?.getD [], label_of_uniqueNames hconv document note,
      fun last hlast => ?_⟩
    simp only [Path.fileName?, hlast, Option.getD_some]
  | relativePaths =>
    rw [label_of_relativePaths hconv] at h ⊢
    refine ⟨_, rfl, fun last hlast => ?_⟩
    obtain ⟨name, hname, hpiece⟩ := Path.exists_name_of_stripExtension_ne
      (stripExtension_lastPiece_ne (stripExtension_ne_of_twice h))
    rw [Path.getLast?_cleanComponents hlast, Option.some.injEq, Component.name.injEq] at hname
    rw [hpiece, hname]

/-- The literal path of a label with an extension of its own is another path than the note. -/
theorem not_same_of_mem_literalIn_label {matcher : Matcher} {isFile : Path → Bool}
    {document note path : Path}
    (h : stripExtension ((matcher.rankerIn document).label note) ≠
      (matcher.rankerIn document).label note)
    (hpath : path ∈ literalIn isFile ((matcher.rankerIn document).label note) document) :
    ¬path.same note = true := by
  obtain ⟨spelling, hlabel, hends⟩ := exists_spelling_of_label h
  rw [hlabel] at h hpath
  obtain ⟨dir, -, rfl⟩ := exists_of_mem_literalIn hpath
  intro hsame
  have hlast := Path.getLast?_clean_join dir (ofPiece?_lastPiece_trim h)
  rw [Path.same_iff.mp hsame] at hlast
  exact lastPiece_trim_ne h (hends _ hlast) rfl

/-- A label with an extension of its own is only a key of its note from a root that the note lies
at or above. -/
theorem atOrAbove_of_mem_knownNotes_label {matcher : Matcher} {notes : List Path}
    {document note path : Path}
    (h : stripExtension ((matcher.rankerIn document).label note) ≠
      (matcher.rankerIn document).label note)
    (hpath : path ∈ matcher.knownNotes ((matcher.rankerIn document).label note)
      (some document) notes) (hsame : path.same note = true) :
    matcher.convention = .relativePaths ∧ Path.atOrAbove note matcher.root = true := by
  have hcomponents := Path.same_iff.mp hsame
  cases hconv : matcher.convention with
  | uniqueNames =>
    rw [label_of_uniqueNames hconv] at h hpath
    rw [knownNotes_of_uniqueNames hconv] at hpath
    have hmatch := (List.mem_filter.mp hpath).2
    have hname : path.fileName? = note.fileName? := by
      simp only [Path.fileName?, hcomponents]
    rw [basenameMatches, hname] at hmatch
    cases hfile : note.fileName? with
    | none => simp [hfile] at hmatch
    | some name =>
      simp only [hfile, Option.getD_some, namesMatch, beq_iff_eq] at h hmatch
      exact absurd hmatch (normalize_ne_of_stripExtension_ne h rfl)
  | relativePaths =>
    rw [label_of_relativePaths hconv] at h hpath
    rw [knownNotes_of_relativePaths hconv] at hpath
    refine ⟨rfl, ?_⟩
    by_contra hroot
    rw [Bool.not_eq_true] at hroot
    obtain ⟨-, base, hbase, hkey⟩ := of_mem_relativeNotes hpath
    rw [wantedKeys_of_stripExtension_ne h, List.mem_singleton,
      Path.relative_congr rfl hcomponents] at hkey
    obtain ⟨name, hname, hpiece⟩ := Path.exists_name_of_stripExtension_ne
      (stripExtension_lastPiece_ne (stripExtension_ne_of_twice h))
    refine normalize_ne_of_stripExtension_ne h ?_ hkey
    simp only [List.mem_cons, List.not_mem_nil, or_false] at hbase
    rcases hbase with rfl | rfl
    · rfl
    · rw [Path.lastPiece_relative hroot hname, hpiece]

/-- A label that names its note is not blank and has no extension of its own, unless the note is
found at or above the root. -/
theorem of_same_mem_documentsOf_label {matcher : Matcher} {isFile : Path → Bool}
    {notes : List Path} {document note path : Path}
    (hpath : path ∈ matcher.documentsOf isFile notes ((matcher.rankerIn document).label note)
      document) (hsame : path.same note = true) :
    trim ((matcher.rankerIn document).label note) ≠ [] ∧
      (stripExtension ((matcher.rankerIn document).label note) =
        (matcher.rankerIn document).label note ∨
      matcher.convention = .relativePaths ∧ Path.atOrAbove note matcher.root = true) := by
  obtain ⟨hblank, hpath⟩ := of_mem_documentsOf hpath
  refine ⟨hblank, or_iff_not_imp_left.mpr fun h => ?_⟩
  rcases hpath with hknown | hliteral
  · exact atOrAbove_of_mem_knownNotes_label h hknown hsame
  · exact absurd hsame (not_same_of_mem_literalIn_label h hliteral)

end Matcher
end LinkedNotes
