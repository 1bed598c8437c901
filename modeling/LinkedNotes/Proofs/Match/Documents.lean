import LinkedNotes.Match.Basic
import LinkedNotes.Proofs.Path.Clean

/-!
# What a link text names

Looking a key up finds the notes with this key up to the spelling of their paths. Main statement:
under relative paths a text names exactly what its keys find from the linking note, else from the
root. What is found has a key of the text from one of the two.
-/

namespace LinkedNotes

namespace Path

/-- Paths are the same when their components are. -/
theorem same_iff {p q : Path} : p.same q = true ↔ p.components = q.components := by
  simp [same]

/-- A path is the same as itself. -/
theorem same_self (path : Path) : path.same path = true :=
  same_iff.mpr rfl

end Path

namespace Match

open Note Text

/-- A list that is not empty keeps its head. -/
theorem exists_dropRepeats_eq (path : Path) (rest : List Path) :
    ∃ more, dropRepeats (path :: rest) = path :: more := by
  cases rest with
  | nil => exact ⟨[], rfl⟩
  | cons next rest =>
    simp only [dropRepeats]
    split
    · split <;> exact ⟨_, rfl⟩
    · exact ⟨_, rfl⟩

/-- The head takes the place of the same path after it. -/
theorem dropRepeats_of_same {path next : Path} {rest more : List Path}
    (h : path.same next = true) (hmore : dropRepeats (next :: rest) = next :: more) :
    dropRepeats (path :: next :: rest) = path :: more := by
  simp only [dropRepeats, h, if_true, hmore]

/-- Another path after the head stays. -/
theorem dropRepeats_of_not_same {path next : Path} {rest : List Path}
    (h : ¬path.same next = true) :
    dropRepeats (path :: next :: rest) = path :: dropRepeats (next :: rest) := by
  rw [dropRepeats, if_neg h]

/-- Dropping repeats adds nothing. -/
theorem mem_of_mem_dropRepeats {path : Path} {paths : List Path} (h : path ∈ dropRepeats paths) :
    path ∈ paths := by
  induction paths with
  | nil => simp [dropRepeats] at h
  | cons first rest ih =>
    cases rest with
    | nil => simpa [dropRepeats] using h
    | cons next rest =>
      obtain ⟨more, hmore⟩ := exists_dropRepeats_eq next rest
      by_cases hsame : first.same next = true
      · rw [dropRepeats_of_same hsame hmore] at h
        rcases List.mem_cons.mp h with rfl | h
        · exact List.mem_cons_self
        · exact List.mem_cons_of_mem first (ih (hmore ▸ List.mem_cons_of_mem next h))
      · rw [dropRepeats_of_not_same hsame] at h
        rcases List.mem_cons.mp h with rfl | h
        · exact List.mem_cons_self
        · exact List.mem_cons_of_mem first (ih h)

/-- Dropping repeats loses no path but its spelling. -/
theorem exists_same_mem_dropRepeats {path : Path} {paths : List Path} (h : path ∈ paths) :
    ∃ kept ∈ dropRepeats paths, kept.same path = true := by
  induction paths generalizing path with
  | nil => simp at h
  | cons first rest ih =>
    have hself : first.same first = true := first.same_self
    cases rest with
    | nil =>
      rw [List.mem_singleton] at h
      exact ⟨first, by simp [dropRepeats], by rw [h]; exact hself⟩
    | cons next rest =>
      by_cases hsame : first.same next = true
      · obtain ⟨more, hmore⟩ := exists_dropRepeats_eq next rest
        rw [dropRepeats_of_same hsame hmore]
        rcases List.mem_cons.mp h with rfl | h
        · exact ⟨path, List.mem_cons_self, hself⟩
        · -- What stood for the next path is now the head.
          obtain ⟨kept, hkept, heq⟩ := ih h
          rw [hmore] at hkept
          rcases List.mem_cons.mp hkept with rfl | hkept
          · refine ⟨first, List.mem_cons_self, ?_⟩
            rw [Path.same_iff] at hsame heq ⊢
            exact hsame.trans heq
          · exact ⟨kept, List.mem_cons_of_mem first hkept, heq⟩
      · rw [dropRepeats_of_not_same hsame]
        rcases List.mem_cons.mp h with rfl | h
        · exact ⟨path, List.mem_cons_self, hself⟩
        · obtain ⟨kept, hkept, heq⟩ := ih h
          exact ⟨kept, List.mem_cons_of_mem first hkept, heq⟩

/-- What is found from a directory is a note with a wanted key. -/
theorem of_mem_lookup {base path : Path} {notes : List Path} {wanted : List Text}
    (h : path ∈ lookup (keyMap base notes) wanted) :
    path ∈ notes ∧ normalize (Path.relative base path).text ∈ wanted := by
  have hmem := List.mem_mergeSort.mp (mem_of_mem_dropRepeats h)
  simp only [keyMap, List.mem_flatMap, List.mem_map, List.mem_filter, decide_eq_true_eq] at hmem
  obtain ⟨key, hkey, pair, ⟨⟨note, hnote, rfl⟩, rfl⟩, rfl⟩ := hmem
  exact ⟨hnote, hkey⟩

/-- A note with a wanted key is found from a directory. -/
theorem exists_same_mem_lookup {base path : Path} {notes : List Path} {wanted : List Text}
    (h : path ∈ notes) (hkey : normalize (Path.relative base path).text ∈ wanted) :
    ∃ found ∈ lookup (keyMap base notes) wanted, found.same path = true := by
  refine exists_same_mem_dropRepeats (List.mem_mergeSort.mpr (List.mem_flatMap.mpr ⟨_, hkey, ?_⟩))
  exact List.mem_map.mpr ⟨_, List.mem_filter.mpr ⟨List.mem_map.mpr ⟨path, h, rfl⟩, by simp⟩, rfl⟩

/-- A text asks for its own normal form. -/
theorem normalize_mem_wantedKeys (raw : Text) : normalize raw ∈ wantedKeys raw :=
  List.mem_cons_self

end Match

namespace Note

/-- Texts with one name match the same notes. -/
theorem basenameMatches_congr {left right : Text} (h : namesMatch left right = true)
    (path : Path) : basenameMatches path left = basenameMatches path right := by
  simp only [namesMatch, beq_iff_eq] at h
  simp only [basenameMatches, namesMatch, h]

/-- Texts that match one note have one name. -/
theorem namesMatch_of_same {left right : Text} {path target : Path}
    (h : path.same target = true) (hleft : basenameMatches path left = true)
    (hright : basenameMatches target right = true) : namesMatch left right = true := by
  have hname : path.fileName? = target.fileName? := by
    simp only [Path.fileName?, Path.same_iff.mp h]
  rw [basenameMatches, hname] at hleft
  rw [basenameMatches] at hright
  cases hfile : target.fileName? with
  | none => simp [hfile] at hleft
  | some name =>
    simp only [hfile, namesMatch, beq_iff_eq] at hleft hright ⊢
    rw [← hleft, hright]

end Note

namespace Matcher

open Match Note Text

/-- The directory that notes are looked for from first: that of the linking note, else the root. -/
def baseOf (matcher : Matcher) (source : Option Path) : Path :=
  (source.bind Path.parent?).getD matcher.root

/-- What a text names has one of its keys from the linking note or from the root. -/
theorem of_mem_relativeNotes {matcher : Matcher} {raw : Text} {source : Option Path}
    {notes : List Path} {path : Path} (h : path ∈ matcher.relativeNotes raw source notes) :
    path ∈ notes ∧ ∃ base ∈ [matcher.baseOf source, matcher.root],
      normalize (Path.relative base path).text ∈ wantedKeys raw := by
  unfold relativeNotes at h
  cases hdir : source.bind Path.parent? with
  | none =>
    simp only [hdir, ne_eq, not_true_eq_false, if_false] at h
    exact ⟨(of_mem_lookup h).1, matcher.root, by simp, (of_mem_lookup h).2⟩
  | some dir =>
    simp only [hdir] at h
    split at h
    · exact ⟨(of_mem_lookup h).1, dir, by simp [baseOf, hdir], (of_mem_lookup h).2⟩
    · exact ⟨(of_mem_lookup h).1, matcher.root, by simp, (of_mem_lookup h).2⟩

/-- A note with a key of a text from the linking note is named by it. -/
theorem exists_same_mem_relativeNotes {matcher : Matcher} {raw : Text} {source : Option Path}
    {notes : List Path} {path : Path} (h : path ∈ notes)
    (hkey : normalize (Path.relative (matcher.baseOf source) path).text ∈ wantedKeys raw) :
    ∃ found ∈ matcher.relativeNotes raw source notes, found.same path = true := by
  have hfound := exists_same_mem_lookup h hkey
  unfold relativeNotes
  cases hdir : source.bind Path.parent? with
  | none => simpa [baseOf, hdir] using hfound
  | some dir =>
    rw [baseOf, hdir, Option.getD_some] at hfound
    obtain ⟨found, hmem, hsame⟩ := hfound
    have hne : lookup (keyMap dir notes) (wantedKeys raw) ≠ [] := List.ne_nil_of_mem hmem
    exact ⟨found, by simpa [hne] using hmem, hsame⟩

/-- Under unique names a text names the notes with its file name. -/
theorem knownNotes_of_uniqueNames {matcher : Matcher} (h : matcher.convention = .uniqueNames)
    (raw : Text) (source : Option Path) (notes : List Path) :
    matcher.knownNotes raw source notes = notes.filter (basenameMatches · raw) := by
  simp only [knownNotes, h]

/-- Under relative paths a text names the notes with its path. -/
theorem knownNotes_of_relativePaths {matcher : Matcher} (h : matcher.convention = .relativePaths)
    (raw : Text) (source : Option Path) (notes : List Path) :
    matcher.knownNotes raw source notes = matcher.relativeNotes raw source notes := by
  simp only [knownNotes, h]

/-- The file next to the linking note that a text is the path of. -/
def literalIn (isFile : Path → Bool) (raw : Text) (source : Path) : List Path :=
  (literalPath? raw (some source)).toList.filter isFile

/-- A literal path leads from the directory of the linking note to a file. -/
theorem exists_of_mem_literalIn {isFile : Path → Bool} {raw : Text} {source path : Path}
    (h : path ∈ literalIn isFile raw source) :
    ∃ dir, source.parent? = some dir ∧ (dir.join ⟨trim raw⟩).clean = path := by
  have hpath := (List.mem_filter.mp h).1
  rw [Option.mem_toList] at hpath
  obtain ⟨dir, hdir, heq⟩ := Option.bind_eq_some_iff.mp hpath
  exact ⟨dir, hdir, Option.some.inj heq⟩

/-- The documents that a text names, where `isFile` tells which files there are. -/
def documentsOf (matcher : Matcher) (isFile : Path → Bool) (notes : List Path) (raw : Text)
    (source : Path) : List Path :=
  matcher.documents (m := Id) isFile raw (some source) notes

/-- A literal path that needs no asking is looked up at once. -/
theorem literalFile_id (isFile : Path → Bool) (raw : Text) (source : Path) :
    literalFile (m := Id) isFile raw (some source) = literalIn isFile raw source := by
  simp only [literalFile, literalIn]
  cases literalPath? raw (some source) with
  | none => rfl
  | some path => cases h : isFile path <;> simp [h] <;> rfl

/-- A text names known notes, else its literal path. -/
theorem documentsOf_eq (matcher : Matcher) (isFile : Path → Bool) (notes : List Path) (raw : Text)
    (source : Path) :
    matcher.documentsOf isFile notes raw source =
      if trim raw = [] then []
      else match matcher.knownNotes raw (some source) notes with
        | [] => literalIn isFile raw source
        | found => found := by
  unfold documentsOf documents
  split
  · rfl
  · cases matcher.knownNotes raw (some source) notes with
    | cons _ _ => rfl
    | nil => exact literalFile_id isFile raw source

/-- Known notes come first. -/
theorem documentsOf_of_knownNotes_ne {matcher : Matcher} {isFile : Path → Bool}
    {notes : List Path} {raw : Text} {source : Path} (hblank : trim raw ≠ [])
    (h : matcher.knownNotes raw (some source) notes ≠ []) :
    matcher.documentsOf isFile notes raw source = matcher.knownNotes raw (some source) notes := by
  rw [documentsOf_eq, if_neg hblank]
  split
  · next hnil => exact absurd hnil h
  · rfl

/-- Under unique names a text that names known notes names those with its file name. -/
theorem documentsOf_of_uniqueNames {matcher : Matcher} {isFile : Path → Bool} {notes : List Path}
    {raw : Text} {source : Path} (hconv : matcher.convention = .uniqueNames)
    (hblank : trim raw ≠ []) (h : matcher.knownNotes raw (some source) notes ≠ []) :
    matcher.documentsOf isFile notes raw source = notes.filter (basenameMatches · raw) := by
  rw [documentsOf_of_knownNotes_ne hblank h, knownNotes_of_uniqueNames hconv]

/-- What a text names is a known note or its literal path. -/
theorem of_mem_documentsOf {matcher : Matcher} {isFile : Path → Bool} {notes : List Path}
    {raw : Text} {source path : Path} (h : path ∈ matcher.documentsOf isFile notes raw source) :
    trim raw ≠ [] ∧ (path ∈ matcher.knownNotes raw (some source) notes ∨
      path ∈ literalIn isFile raw source) := by
  rw [documentsOf_eq] at h
  split at h
  · simp at h
  · next hblank =>
    refine ⟨hblank, ?_⟩
    split at h
    · exact .inr h
    · exact .inl h

end Matcher
end LinkedNotes
