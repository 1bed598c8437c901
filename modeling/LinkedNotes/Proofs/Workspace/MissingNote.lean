import LinkedNotes.Files.Memory
import LinkedNotes.Proofs.Note.Normal
import LinkedNotes.Proofs.Workspace.Completion

/-!
# The note of a dangling link

The note that is created for a dangling link should be the note that the link names. Main statement:
for a link text of letters, digits, blanks and hyphens it is, in any script, exactly if no letter of
the text is an `İ`. Which of several notes with one name a link leads to is outside.
-/

namespace LinkedNotes.Workspace

open Note Text

variable {σ : Type} [FileSystem σ]

/-- The note of a dangling link has the link's name when its file name is made from the text as it
is, blanks at the ends included. -/
theorem basenameMatches_of_fileName? {raw : Text} {path : Path} (h : '.' ∉ raw)
    (hname : path.fileName? = some (fileNameOf (missingTitle raw))) :
    basenameMatches path raw = true ↔
      normalize (stripExtension (fileNameOf (trim raw))) = normalize (trim raw) := by
  have htitle : missingTitle raw = trim raw := stripExtension_of_notMem (mt mem_of_mem_trim h)
  rw [basenameMatches, hname, htitle]
  simp only [namesMatch, beq_iff_eq]
  rw [normalize_trim h, (normalize_fileNameOf (trim raw)).1, (normalize_fileNameOf (trim raw)).2]

/-- A title of letters, digits, blanks and hyphens and its file name have one normal form, and the
note that is created for a dangling link with this text is named by the link, exactly if there is no
`İ` in the text. -/
theorem missingNote_named_iff {raw : Text}
    (h : ∀ c ∈ raw, isAlphanumeric c = true ∨ isBlank c = true ∨ c = '-') :
    (normalize (stripExtension (fileNameOf raw)) = normalize raw ↔ 'İ' ∉ raw) ∧
    ∀ {document : Path} {settings : Settings} {session : Session σ} {path : Path},
      ((createMissingNote raw document settings).run session).1 = .ok (some path) →
        (basenameMatches path raw = true ↔ 'İ' ∉ raw) := by
  refine ⟨normalize_fileNameOf_iff h, fun {_ _ _ path} hcreated => ?_⟩
  have hdot : '.' ∉ raw := fun hmem => absurd (h '.' hmem) (by decide +kernel)
  have htrim : 'İ' ∈ trim raw ↔ 'İ' ∈ raw := by
    refine ⟨mem_of_mem_trim, fun hmem => ?_⟩
    obtain ⟨left, right, hraw, hleft, hright⟩ := exists_eq_append_trim raw
    have hblank : isBlank 'İ' = false := by decide
    rw [hraw, List.mem_append, List.mem_append] at hmem
    rcases hmem with (hmem | hmem) | hmem
    · simpa [hblank] using hleft _ hmem
    · exact hmem
    · simpa [hblank] using hright _ hmem
  obtain ⟨-, hname⟩ := of_createMissingNote hcreated
  rw [basenameMatches_of_fileName? hdot hname,
    normalize_fileNameOf_iff fun c hc => h c (mem_of_mem_trim hc), htrim]

/-- A title with a sigma at the end of a word has a note with its name. -/
theorem missingNote_named_sigma :
    let raw := " ΛΌΓΟΣ-2 ".toList
    let path : Path := ⟨"/ws/λόγος-2.md".toList⟩
    (∀ c ∈ raw, isAlphanumeric c = true ∨ isBlank c = true ∨ c = '-') ∧
      ((createMissingNote raw ⟨"/ws/x.md".toList⟩ {}).run
        ({ files := { files := [] } } : Session MemoryFiles)).1 = .ok (some path) ∧
      normalize (stripExtension (fileNameOf raw)) = normalize raw ∧
      basenameMatches path raw = true := by
  intro raw path
  have hchars : ∀ c ∈ raw, isAlphanumeric c = true ∨ isBlank c = true ∨ c = '-' := by
    have hall : raw.all (fun c => isAlphanumeric c || isBlank c || c == '-') = true := by
      decide +kernel
    simpa [or_assoc] using List.all_eq_true.mp hall
  have hcreated : ((createMissingNote raw ⟨"/ws/x.md".toList⟩ {}).run
      ({ files := { files := [] } } : Session MemoryFiles)).1 = .ok (some path) := by
    decide +kernel
  have hdotted : 'İ' ∉ raw := by decide
  obtain ⟨hname, hpath⟩ := missingNote_named_iff (σ := MemoryFiles) hchars
  exact ⟨hchars, hcreated, hname.mpr hdotted, (hpath hcreated).mpr hdotted⟩

/-- The note that is created for a link with an `İ` is not the note that the link names. -/
theorem missingNote_not_named :
    let raw := "İx".toList
    let path : Path := ⟨"/ws/i-x.md".toList⟩
    raw.all isAlphanumeric = true ∧
      ((createMissingNote raw ⟨"/ws/x.md".toList⟩ {}).run
        ({ files := { files := [] } } : Session MemoryFiles)).1 = .ok (some path) ∧
      normalize (stripExtension (fileNameOf raw)) ≠ normalize raw ∧
      basenameMatches path raw = false := by
  exact ⟨by decide +kernel, by decide +kernel, by decide +kernel, by decide +kernel⟩

end LinkedNotes.Workspace
