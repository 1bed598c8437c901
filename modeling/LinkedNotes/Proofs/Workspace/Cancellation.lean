import LinkedNotes.Files.Tree
import LinkedNotes.Proofs.Files.Laws
import LinkedNotes.Proofs.Workspace.Freshness
import LinkedNotes.Rank.Scale

/-!
# Cancelled requests

A token may be cancelled before a request or during any call of the file system that the request
makes. Main statement: the request then ends as it would have ended, or it has a void reply and has
written nothing, and either way no list is kept that is not complete. A failure to create a file can
make directories on its way, which may change the notes that there are; the list that is kept is not
given up then.
-/

namespace LinkedNotes

namespace Request

variable {σ S : Type} [FileSystem σ] [Scale S]

/-- A request that may be cancelled at any moment has the end that it has when nobody cancels it, or
else it is cancelled, has a void reply, and has written nothing. The list of notes that is kept
afterwards is the one from before or what an enumeration finds that nobody cancels. A list that is
served afterwards is what an enumeration finds then, as long as a file that cannot be created leaves
the notes as they are, unless that list was already served before the request and was wrong then. -/
theorem perform_cancelled (workspace : Workspace) (settings : Settings) (request : Request)
    (session : Session σ) (hdated : session.index.Dated) :
    let plain := (request.perform (S := S) workspace settings).run { session with token := {} }
    let cut := (request.perform (S := S) workspace settings).run session
    let listing (files : σ) := Discovery.listing files workspace.root settings.index
    (cut.1 = plain.1 ∧ cut.2.files = plain.2.files ∧ cut.2.index = plain.2.index ∨
      cut.2.token.cancelled = true ∧ cut.1.Void ∧ cut.2.files = session.files) ∧
    (cut.2.index.snapshot = session.index.snapshot ∨
      cut.2.index.snapshot = some ⟨session.index.generation, listing session.files⟩) ∧
    ((∀ path content message files,
        FileSystem.create session.files path content = (.error message, files) →
          listing files = listing session.files) →
      ∀ notes, cut.2.index.current? = some notes →
        notes = listing cut.2.files ∨
          session.index.current? = some notes ∧ notes ≠ listing session.files) := by
  intro plain cut listing
  refine ⟨?_, snapshot_run workspace settings request session,
    serves_run workspace settings request hdated⟩
  obtain ⟨hplain, hplainFiles, hplainIndex⟩ :=
    (request.comesTo_perform (S := S) workspace settings
      { session with token := {} }).ends Token.quiet_new
  obtain ⟨reply, after, hcut, -, hcases⟩ :=
    request.comesTo_perform (S := S) workspace settings session
  have hcut' : cut = _ := hcut
  rw [hcut']
  rcases hcases with ⟨hreply, hfiles, hindex⟩ | ⟨hcancelled, hvoid, hfiles, -⟩
  · exact .inl ⟨hreply.trans hplain.symm, hfiles.trans hplainFiles.symm,
      hindex.trans hplainIndex.symm⟩
  · exact .inr ⟨hcancelled, hvoid, hfiles⟩

/-- A request for the target of a dangling link that is cancelled while it looks whether the note is
there creates nothing, and the list of notes that it has found is complete. -/
theorem perform_cancelled_definitions :
    let workspace : Workspace := ⟨⟨"/ws".toList⟩⟩
    let request : Request := .definitions ⟨"/ws/x.md".toList⟩ "[[New Note]]".toList ⟨0, 3⟩
    let session : Session MemoryFiles :=
      { files := { files := [(⟨"/ws/b.md".toList⟩, some [])] }
        token := .cancelledDuring .isFile 2 }
    let cut := (request.perform (S := Rat) workspace {}).run session
    cut.1.Void ∧ cut.2.files = session.files ∧
      cut.2.index.current? = some (Discovery.listing cut.2.files workspace.root {}) := by
  intro workspace request session cut
  obtain ⟨hreply, -, hserved⟩ :=
    perform_cancelled (S := Rat) workspace {} request session NoteIndex.dated_new
  have hcurrent : cut.2.index.current? = some [⟨"/ws/b.md".toList⟩] := by decide +kernel
  have hfewer : cut.2.files.files.length ≠ ((request.perform (S := Rat) workspace {}).run
      { session with token := {} }).2.files.files.length := by decide +kernel
  have hkeeps := MemoryFiles.createsOrKeeps session.files
  rcases hreply with ⟨-, hfiles, -⟩ | ⟨-, hvoid, hfiles⟩
  · exact absurd (congrArg (·.files.length) hfiles) hfewer
  · refine ⟨hvoid, hfiles, ?_⟩
    rcases hserved (fun path content message after h => by rw [hkeeps _ _ _ _ h]) _ hcurrent with
      hcomplete | ⟨hold, -⟩
    · rw [hcurrent]
      exact congrArg some hcomplete
    · cases hold

/-- A note whose name is too long is not created, but its directory is, and through this a link
leads to a note. The list from before is still served. -/
theorem perform_cancelled_served_incomplete :
    let workspace : Workspace := ⟨⟨"/ws".toList⟩⟩
    let first : Path := ⟨"/ws/b.md".toList⟩
    let second : Path := ⟨"/ws/a.md".toList⟩
    let request : Request :=
      .missingNote (List.replicate 300 'a') ⟨"/ws/new/x.md".toList⟩
    let session : Session FileTree :=
      { files := { entries := [(["ws".toList], .directory),
          (["ws".toList, "b.md".toList], .file (some "b".toList)),
          (["ws".toList, "a.md".toList], .link "new/../b.md".toList)] }
        index := { snapshot := some ⟨0, [first]⟩ }
        token := .cancelledDuring .create 1 }
    let cut := (request.perform (S := Rat) workspace {}).run session
    session.index.current? = some (Discovery.listing session.files workspace.root {}) ∧
      cut.2.token.cancelled = true ∧ cut.2.index.current? = some [first] ∧
      second ∈ Discovery.listing cut.2.files workspace.root {} := by
  intro workspace first second request session cut
  refine ⟨by decide +kernel, by decide +kernel, by decide +kernel, ?_⟩
  rw [Discovery.listing, List.mem_mergeSort]
  decide +kernel

end Request
end LinkedNotes
