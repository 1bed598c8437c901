import LinkedNotes.Proofs.Match.Documents
import LinkedNotes.Proofs.Path.Join
import LinkedNotes.Proofs.Path.Order

/-!
# What a link names by a relative path

Under relative paths a text names the notes with one of its keys as seen from the linking note, else
those with one of its keys as seen from the root, else the file at its literal path. Main statement:
what is found are exactly these notes, each once and in order, so neither the order and repetitions
of the list of notes nor the spelling of the two directories matters.
-/

namespace LinkedNotes

namespace Path

/-- A directory may be spelled in any way with one clean form. -/
theorem relative_congr_clean {base other : Path} (h : base.clean = other.clean) (target : Path) :
    relative base target = relative other target := by
  have hparts := congrArg components h
  rw [components_clean, components_clean] at hparts
  rw [relative, relative, hparts]

/-- Lists with the same components are equal when no path in them is spelled in two ways. -/
theorem eq_of_map_components_eq {s t : List Path} (h : s.map components = t.map components)
    (hspelling : ∀ p ∈ s, ∀ q ∈ t, p.components = q.components → p = q) : s = t := by
  induction s generalizing t with
  | nil => exact (List.map_eq_nil_iff.mp h.symm).symm
  | cons p s ih =>
    obtain ⟨q, t, rfl, hpq, hrest⟩ := List.map_eq_cons_iff.mp h.symm
    obtain rfl := hspelling p List.mem_cons_self q List.mem_cons_self hpq.symm
    refine congrArg (p :: ·) (ih hrest.symm fun a ha b hb => ?_)
    exact hspelling a (List.mem_cons_of_mem p ha) b (List.mem_cons_of_mem p hb)

/-- Whether a list has the paths of another one, each once and in order. -/
structure Enumerates (found paths : List Path) : Prop where
  /-- What is found is among the paths. -/
  subset : found ⊆ paths
  /-- No path is missing, though it may be spelled in another way. -/
  exists_same : ∀ path ∈ paths, ∃ kept ∈ found, kept.same path = true
  /-- The paths increase strictly. -/
  increasing : found.Pairwise fun p q => q.le p = false

namespace Enumerates

variable {found found' paths paths' : List Path}

/-- Nothing is found exactly if there is no path. -/
theorem eq_nil_iff (h : Enumerates found paths) : found = [] ↔ paths = [] := by
  constructor
  · rintro rfl
    refine List.eq_nil_iff_forall_not_mem.mpr fun path hpath => ?_
    obtain ⟨kept, hkept, -⟩ := h.exists_same path hpath
    exact List.not_mem_nil hkept
  · rintro rfl
    exact List.subset_nil.mp h.subset

/-- The components of what is found are those of the paths. -/
theorem mem_map_components (h : Enumerates found paths) {parts : List Component} :
    parts ∈ found.map components ↔ parts ∈ paths.map components := by
  simp only [List.mem_map]
  constructor
  · rintro ⟨path, hpath, rfl⟩
    exact ⟨path, h.subset hpath, rfl⟩
  · rintro ⟨path, hpath, rfl⟩
    obtain ⟨kept, hkept, hsame⟩ := h.exists_same path hpath
    exact ⟨kept, hkept, same_iff.mp hsame⟩

/-- What is found is in order. -/
theorem pairwise_le (h : Enumerates found paths) : found.Pairwise fun p q => p.le q = true :=
  h.increasing.imp fun {p q} hlt => by
    have htotal := le_total p q
    rwa [hlt, Bool.or_false] at htotal

/-- No path is found twice. -/
theorem nodup (h : Enumerates found paths) : (found.map components).Nodup := by
  refine List.pairwise_map.mpr (h.increasing.imp fun {p q} hlt heq => ?_)
  rw [le_of_components_eq heq.symm] at hlt
  cases hlt

/-- What is found is determined by the components of the paths. -/
theorem map_components_eq (h : Enumerates found paths) (h' : Enumerates found' paths')
    (hpaths : ∀ parts, parts ∈ paths.map components ↔ parts ∈ paths'.map components) :
    found.map components = found'.map components := by
  refine map_components_eq_of_perm h.pairwise_le h'.pairwise_le ?_
  refine (List.perm_ext_iff_of_nodup h.nodup h'.nodup).mpr fun parts => ?_
  rw [h.mem_map_components, h'.mem_map_components, hpaths]

end Enumerates

end Path

namespace Match

open Note Text

/-- In a list in order, dropping repeats leaves each path once. -/
theorem increasing_dropRepeats {paths : List Path}
    (h : paths.Pairwise fun p q => p.le q = true) :
    (dropRepeats paths).Pairwise fun p q => q.le p = false := by
  induction paths with
  | nil => exact .nil
  | cons first rest ih =>
    obtain ⟨hfirst, hrest⟩ := List.pairwise_cons.mp h
    cases rest with
    | nil => exact List.pairwise_singleton _ _
    | cons next rest =>
      by_cases hsame : first.same next = true
      · -- The head has the place of the same path after it.
        obtain ⟨more, hmore⟩ := exists_dropRepeats_eq next rest
        have hnext := ih hrest
        rw [hmore, List.pairwise_cons] at hnext
        rw [dropRepeats_of_same hsame hmore, List.pairwise_cons]
        refine ⟨fun path hpath => ?_, hnext.2⟩
        rw [Path.le, Path.same_iff.mp hsame]
        exact hnext.1 path hpath
      · rw [dropRepeats_of_not_same hsame, List.pairwise_cons]
        refine ⟨fun path hpath => Bool.eq_false_iff.mpr fun hle => hsame ?_, ih hrest⟩
        -- A path behind that is not greater than the head would make the next one the same.
        have hnext : next.le path = true := by
          rcases List.mem_cons.mp (mem_of_mem_dropRepeats hpath) with rfl | hmem
          · exact Path.le_of_components_eq rfl
          · exact (List.pairwise_cons.mp hrest).1 path hmem
        have hback := Path.le_trans next path first hnext hle
        exact Path.same_iff.mpr (Path.components_eq_of_le (hfirst next List.mem_cons_self) hback)

/-- The notes that have one of the keys of a text as seen from a directory, as they are listed. -/
def namedFrom (base : Path) (raw : Text) (notes : List Path) : List Path :=
  notes.filter fun note => (wantedKeys raw).contains (normalize (Path.relative base note).text)

/-- The notes with a key of a text are found from a directory. -/
theorem enumerates_lookup (base : Path) (raw : Text) (notes : List Path) :
    Path.Enumerates (lookup (keyMap base notes) (wantedKeys raw)) (namedFrom base raw notes) where
  subset := fun path hpath => by
    obtain ⟨hnote, hkey⟩ := of_mem_lookup hpath
    exact List.mem_filter.mpr ⟨hnote, List.contains_iff_mem.mpr hkey⟩
  exists_same := fun path hpath => by
    obtain ⟨hnote, hkey⟩ := List.mem_filter.mp hpath
    exact exists_same_mem_lookup hnote (List.contains_iff_mem.mp hkey)
  increasing := increasing_dropRepeats (Path.pairwise_mergeSort _)

/-- Neither the spelling of a directory nor that of the notes matters for the notes with a key. -/
theorem mem_map_namedFrom {base other : Path} (h : base.clean = other.clean) (raw : Text)
    {notes notes' : List Path}
    (hnotes : ∀ parts, parts ∈ notes.map Path.components ↔ parts ∈ notes'.map Path.components)
    {parts : List Component} (hmem : parts ∈ (namedFrom base raw notes).map Path.components) :
    parts ∈ (namedFrom other raw notes').map Path.components := by
  obtain ⟨note, hnote, rfl⟩ := List.mem_map.mp hmem
  obtain ⟨hlisted, hkey⟩ := List.mem_filter.mp hnote
  obtain ⟨same, hsame, heq⟩ := List.mem_map.mp ((hnotes _).mp (List.mem_map_of_mem hlisted))
  refine List.mem_map.mpr ⟨same, List.mem_filter.mpr ⟨hsame, ?_⟩, heq⟩
  rwa [← Path.relative_congr_clean h, ← Path.relative_congr rfl heq.symm]

end Match

namespace Matcher

open Match Note Text

/-- The notes that a text names from a directory, as they are listed: those with one of its keys as
seen from there, else those with one of its keys as seen from the root. -/
def namedNotes (matcher : Matcher) (dir : Path) (raw : Text) (notes : List Path) : List Path :=
  if namedFrom dir raw notes ≠ [] then namedFrom dir raw notes
  else namedFrom matcher.root raw notes

/-- What a text names is known. -/
theorem namedNotes_subset (matcher : Matcher) (dir : Path) (raw : Text) (notes : List Path) :
    matcher.namedNotes dir raw notes ⊆ notes := by
  unfold namedNotes
  split
  · exact List.filter_subset_self _
  · exact List.filter_subset_self _

/-- The notes that a text names are found from the linking note. -/
theorem enumerates_relativeNotes (matcher : Matcher) (raw : Text) {source dir : Path}
    (hdir : source.parent? = some dir) (notes : List Path) :
    Path.Enumerates (matcher.relativeNotes raw (some source) notes)
      (matcher.namedNotes dir raw notes) := by
  have hnear := enumerates_lookup dir raw notes
  simp only [relativeNotes, namedNotes, Option.bind_some, hdir]
  by_cases hnone : namedFrom dir raw notes = []
  · rw [hnear.eq_nil_iff.mpr hnone, hnone, if_neg (not_not_intro rfl),
      if_neg (not_not_intro rfl)]
    exact enumerates_lookup matcher.root raw notes
  · rw [if_pos (hnear.eq_nil_iff.not.mpr hnone), if_pos hnone]
    exact hnear

/-- Neither the spelling of the directories nor that of the notes matters for what a text names. -/
theorem mem_map_namedNotes {matcher other : Matcher} (hroot : matcher.root.clean = other.root.clean)
    {dir dir' : Path} (hdir : dir.clean = dir'.clean) (raw : Text) {notes notes' : List Path}
    (hnotes : ∀ parts, parts ∈ notes.map Path.components ↔ parts ∈ notes'.map Path.components)
    (parts : List Component) :
    parts ∈ (matcher.namedNotes dir raw notes).map Path.components ↔
      parts ∈ (other.namedNotes dir' raw notes').map Path.components := by
  have hfrom : ∀ {base base' : Path}, base.clean = base'.clean → ∀ parts,
      parts ∈ (namedFrom base raw notes).map Path.components ↔
        parts ∈ (namedFrom base' raw notes').map Path.components := fun h parts =>
    ⟨mem_map_namedFrom h raw hnotes, mem_map_namedFrom h.symm raw fun parts => (hnotes parts).symm⟩
  have hnear : namedFrom dir raw notes = [] ↔ namedFrom dir' raw notes' = [] := by
    rw [← List.map_eq_nil_iff (f := Path.components), ← List.map_eq_nil_iff (f := Path.components),
      List.eq_nil_iff_forall_not_mem, List.eq_nil_iff_forall_not_mem]
    exact forall_congr' fun parts => (hfrom hdir parts).not
  unfold namedNotes
  by_cases hnone : namedFrom dir raw notes = []
  · rw [if_neg (not_not_intro hnone), if_neg (not_not_intro (hnear.mp hnone))]
    exact hfrom hroot parts
  · rw [if_pos hnone, if_pos (hnear.not.mp hnone)]
    exact hfrom hdir parts

variable {matcher : Matcher} {raw : Text} {source dir : Path}

/-- Under relative paths a text names its notes, else the file at its literal path. -/
theorem documentsOf_of_relativePaths (hconv : matcher.convention = .relativePaths)
    (hblank : trim raw ≠ []) (hdir : source.parent? = some dir) (isFile : Path → Bool)
    (notes : List Path) :
    matcher.documentsOf isFile notes raw source =
      if matcher.relativeNotes raw (some source) notes ≠ [] then
        matcher.relativeNotes raw (some source) notes
      else [(dir.join ⟨trim raw⟩).clean].filter isFile := by
  rw [documentsOf_eq, if_neg hblank, knownNotes_of_relativePaths hconv]
  split
  · next hnone =>
    rw [if_neg (not_not_intro hnone), literalIn]
    simp [literalPath?, hdir]
  · next hsome => rw [if_pos hsome]

/-- The known notes with one of the keys come before the literal path, and those as seen from the
linking note before those as seen from the root. -/
theorem documentsOf_stages (hconv : matcher.convention = .relativePaths)
    (hblank : trim raw ≠ []) (hdir : source.parent? = some dir) (isFile : Path → Bool)
    (notes : List Path) :
    let found := matcher.documentsOf isFile notes raw source
    let near := namedFrom dir raw notes
    let far := namedFrom matcher.root raw notes
    let literal := (dir.join ⟨trim raw⟩).clean
    (near ≠ [] → Path.Enumerates found near) ∧
    (near = [] → far ≠ [] → Path.Enumerates found far) ∧
    (near = [] → far = [] → found = if isFile literal = true then [literal] else []) := by
  intro found near far literal
  have hnotes := matcher.enumerates_relativeNotes raw hdir notes
  have hfound : found = _ := documentsOf_of_relativePaths hconv hblank hdir isFile notes
  have hknown : matcher.namedNotes dir raw notes ≠ [] →
      Path.Enumerates found (matcher.namedNotes dir raw notes) := fun hsome => by
    rw [hfound, if_pos (hnotes.eq_nil_iff.not.mpr hsome)]
    exact hnotes
  refine ⟨fun hnear => ?_, fun hnear hfar => ?_, fun hnear hfar => ?_⟩
  · have hnamed : matcher.namedNotes dir raw notes = near := if_pos hnear
    rw [hnamed] at hknown
    exact hknown hnear
  · have hnamed : matcher.namedNotes dir raw notes = far := if_neg (not_not_intro hnear)
    rw [hnamed] at hknown
    exact hknown hfar
  · have hnamed : matcher.namedNotes dir raw notes = [] :=
      (if_neg (not_not_intro hnear)).trans hfar
    rw [if_neg (not_not_intro (hnotes.eq_nil_iff.mpr hnamed)), List.filter_singleton] at hfound
    exact hfound.trans (Bool.cond_eq_ite _ _ _)

/-- What a text names depends on the clean forms of the two directories and on the set of the notes.
If the notes are listed in one spelling each, then it has their spelling. -/
theorem documentsOf_congr {other : Matcher} {source' dir' : Path} {notes notes' : List Path}
    (hconv : matcher.convention = .relativePaths) (hconv' : other.convention = .relativePaths)
    (hblank : trim raw ≠ []) (hdir : source.parent? = some dir)
    (hdir' : source'.parent? = some dir') (hroot : matcher.root.clean = other.root.clean)
    (hclean : dir.clean = dir'.clean)
    (hnotes : ∀ parts, parts ∈ notes.map Path.components ↔ parts ∈ notes'.map Path.components)
    (isFile : Path → Bool) :
    (matcher.documentsOf isFile notes raw source).map Path.components =
        (other.documentsOf isFile notes' raw source').map Path.components ∧
      ((∀ p ∈ notes, ∀ q ∈ notes', p.components = q.components → p = q) →
        matcher.documentsOf isFile notes raw source =
          other.documentsOf isFile notes' raw source') := by
  have hfound := matcher.enumerates_relativeNotes raw hdir notes
  have hfound' := other.enumerates_relativeNotes raw hdir' notes'
  have heq := hfound.map_components_eq hfound' (mem_map_namedNotes hroot hclean raw hnotes)
  have hnone : matcher.relativeNotes raw (some source) notes = [] ↔
      other.relativeNotes raw (some source') notes' = [] := by
    rw [← List.map_eq_nil_iff (f := Path.components), heq, List.map_eq_nil_iff]
  rw [documentsOf_of_relativePaths hconv hblank hdir,
    documentsOf_of_relativePaths hconv' hblank hdir']
  by_cases hnil : matcher.relativeNotes raw (some source) notes = []
  · rw [if_neg (not_not_intro hnil), if_neg (not_not_intro (hnone.mp hnil)),
      ← Path.clean_join_clean dir, ← Path.clean_join_clean dir', hclean]
    exact ⟨rfl, fun _ => rfl⟩
  · rw [if_pos hnil, if_pos (hnone.not.mp hnil)]
    refine ⟨heq, fun hspelling => ?_⟩
    refine Path.eq_of_map_components_eq heq fun p hp q hq => hspelling p ?_ q ?_
    · exact matcher.namedNotes_subset dir raw notes (hfound.subset hp)
    · exact other.namedNotes_subset dir' raw notes' (hfound'.subset hq)

/-- Under relative paths a text that is not blank names the notes with one of its keys as seen from
the directory of the linking note, else those with one of its keys as seen from the root, each once
and in order, else the file at its literal path if there is one. The same is named for a list with
the same notes in any order and for directories with the same clean forms, up to the spelling of
notes that are listed in several spellings. -/
theorem documentsOf_enumerates (hconv : matcher.convention = .relativePaths)
    (hblank : trim raw ≠ []) (hdir : source.parent? = some dir) (isFile : Path → Bool)
    (notes : List Path) :
    let found := matcher.documentsOf isFile notes raw source
    let near := namedFrom dir raw notes
    let far := namedFrom matcher.root raw notes
    let literal := (dir.join ⟨trim raw⟩).clean
    (near ≠ [] → Path.Enumerates found near) ∧
    (near = [] → far ≠ [] → Path.Enumerates found far) ∧
    (near = [] → far = [] → found = if isFile literal = true then [literal] else []) ∧
    ∀ (other : Matcher) (notes' : List Path) (source' dir' : Path),
      other.convention = .relativePaths → other.root.clean = matcher.root.clean →
      source'.parent? = some dir' → dir'.clean = dir.clean →
      (∀ parts, parts ∈ notes'.map Path.components ↔ parts ∈ notes.map Path.components) →
      let found' := other.documentsOf isFile notes' raw source'
      found'.map Path.components = found.map Path.components ∧
        ((∀ p ∈ notes', ∀ q ∈ notes, p.same q = true → p = q) → found' = found) := by
  intro found near far literal
  obtain ⟨hnear, hfar, hliteral⟩ := documentsOf_stages hconv hblank hdir isFile notes
  refine ⟨hnear, hfar, hliteral,
    fun other notes' source' dir' hconv' hroot hdir' hclean hnotes => ?_⟩
  obtain ⟨heq, hspelled⟩ :=
    documentsOf_congr hconv' hconv hblank hdir' hdir hroot hclean hnotes isFile
  refine ⟨heq, fun hspelling => hspelled fun p hp q hq hsame => ?_⟩
  exact hspelling p hp q hq (Path.same_iff.mpr hsame)

/-- A label with a directory names the note in this directory below the linking note, from every
spelling of that note's directory and for every order of the list. -/
theorem documentsOf_enumerates_label :
    let matcher : Matcher := ⟨⟨"/ws".toList⟩, .relativePaths⟩
    let other : Matcher := ⟨⟨"/ws/b/..".toList⟩, .relativePaths⟩
    let raw := "note (sub/)".toList
    let first : Path := ⟨"/ws/a/sub/note.md".toList⟩
    let second : Path := ⟨"/ws/sub/note.md".toList⟩
    let source : Path := ⟨"/ws/a/x.md".toList⟩
    let source' : Path := ⟨"/ws/./a/b/../y.md".toList⟩
    trim raw ≠ [] ∧ source.parent? = some ⟨"/ws/a".toList⟩ ∧
      matcher.documentsOf (fun _ => true) [second, first] raw source = [first] ∧
      other.documentsOf (fun _ => true) [first, second, first] raw source' = [first] := by
  intro matcher other raw first second source source'
  have hblank : trim raw ≠ [] := by decide
  have hdir : source.parent? = some ⟨"/ws/a".toList⟩ := by decide
  have hfound : matcher.documentsOf (fun _ => true) [second, first] raw source = [first] := by
    decide +kernel
  have hconv : matcher.convention = .relativePaths := rfl
  obtain ⟨-, -, -, hsame⟩ :=
    documentsOf_enumerates hconv hblank hdir (fun _ => true) [second, first]
  have hnotes : ∀ parts, parts ∈ [first, second, first].map Path.components ↔
      parts ∈ [second, first].map Path.components := fun parts => by
    simp only [List.map_cons, List.map_nil, List.mem_cons, List.not_mem_nil, or_false]
    exact ⟨fun h => h.elim .inr id, .inr⟩
  obtain ⟨-, hspelled⟩ := hsame other [first, second, first] source' ⟨"/ws/./a/b/..".toList⟩ rfl
    (by decide) (by decide) (by decide) hnotes
  exact ⟨hblank, hdir, hfound, (hspelled (by decide)).trans hfound⟩

end Matcher
end LinkedNotes
