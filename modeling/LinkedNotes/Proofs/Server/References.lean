import LinkedNotes.Proofs.Link.Place
import LinkedNotes.Proofs.Server.Suggestion
import LinkedNotes.Proofs.Workspace.References

/-!
# The places of references

A question for references is about a document as the editor has it, but the links that it finds are
those of the files. Main statement: every place that is answered is that of a link in the file of a
note, and covers this link there, and so it does in an open document whose line is that of the file.
All places cover links of the open documents exactly if those do whose line is another one than in
the file. Which links are reported is not the subject here.
-/

namespace LinkedNotes

/-- The places in an answer. -/
def Answer.listed : Answer → List (Uri × TextRange)
  | .places found => found
  | _ => []

namespace Server

open Link

variable {σ : Type} [FileSystem σ]

/-- Places are listed as they were found. -/
@[simp]
theorem listed_placesOrNothing (found : List (Uri × TextRange)) :
    (placesOrNothing found).listed = found := by
  unfold placesOrNothing
  split
  · next h => exact h.symm
  · rfl

/-- The links in the files of known notes that are reported for the link at a point of a
document. -/
def reported (server : Server σ) (uri : Uri) (point : Point) : List PlacedLink :=
  match server.context? uri with
  | none => []
  | some context =>
    match Workspace.linkNaming? context.text point with
    | none => []
    | some link =>
      let isFile := FileSystem.isFile server.files
      let notes := context.workspace.noteList context.settings server.files server.index
      let links := PlacedLink.ofNotes server.files notes
      links.filter (context.workspace.reports context.settings isFile notes
        (context.workspace.soughtFor context.settings isFile notes context.document link) links)

/-- A reported link is one in the file of its note. -/
theorem exists_of_mem_reported {server : Server σ} {uri : Uri} {point : Point} {link : PlacedLink}
    (h : link ∈ server.reported uri point) :
    ∃ content, FileSystem.read server.files link.note = some content ∧
      link.occurrence ∈ scan content := by
  unfold reported at h
  split at h
  · cases h
  · split at h
    · cases h
    · obtain ⟨note, -, hnote⟩ := List.mem_flatMap.mp (List.mem_filter.mp h).1
      cases hread : FileSystem.read server.files note with
      | none => simp [hread] at hnote
      | some content =>
        rw [hread, Option.elim_some] at hnote
        obtain ⟨occurrence, hmem, rfl⟩ := List.mem_map.mp hnote
        exact ⟨content, hread, hmem⟩

/-- A question for references looks at the files in one operation on the workspace. -/
theorem references_run {server : Server σ} {uri : Uri} {point : Point} {context : RequestContext}
    (h : server.context? uri = some context) :
    ((references uri point).run server).1 =
      placesOrNothing ((((context.workspace.referencesFor context.document context.text point
        context.settings).run { files := server.files, index := server.index }).1).filterMap
          fun (path, range) => (Uri.ofPath? path).map fun uri => (uri, range)) := by
  unfold references
  simp only [StateT.run_bind, StateT.run_get, pure_bind, h]
  rfl

/-- The answer lists the places of the reported links whose notes have URIs. -/
theorem listed_references (server : Server σ) (uri : Uri) (point : Point) :
    ((references uri point).run server).1.listed =
      (server.reported uri point).filterMap fun link =>
        (Uri.ofPath? link.note).map fun uri => (uri, link.occurrence.range) := by
  cases hcontext : server.context? uri with
  | none =>
    unfold references
    simp only [reported, StateT.run_bind, StateT.run_get, pure_bind, hcontext]
    rfl
  | some context =>
    rw [references_run hcontext, listed_placesOrNothing]
    cases hlink : Workspace.linkNaming? context.text point with
    | none =>
      simp only [reported, Workspace.referencesFor, hcontext, hlink]
      rfl
    | some link =>
      rw [Workspace.referencesFor_run hlink Token.quiet_new, List.filterMap_map]
      simp only [reported, hcontext, hlink]
      rfl

/-- A place is answered exactly if it is that of a reported link. -/
theorem mem_listed_references {server : Server σ} {uri : Uri} {point : Point}
    {place : Uri × TextRange} :
    place ∈ ((references uri point).run server).1.listed ↔
      ∃ link ∈ server.reported uri point, Uri.ofPath? link.note = some place.1 ∧
        link.occurrence.range = place.2 := by
  rw [listed_references, List.mem_filterMap]
  refine exists_congr fun link => and_congr_right fun _ => ?_
  rw [Option.map_eq_some_iff]
  constructor
  · rintro ⟨target, htarget, rfl⟩
    exact ⟨htarget, rfl⟩
  · rintro ⟨htarget, hrange⟩
    exact ⟨place.1, htarget, by rw [hrange]⟩

/-- After any run of a server, each place that is answered covers a link in the file of its note,
and in the text of the open document too if this has the same line there. All places in open
documents cover links of their texts exactly if those do whose line is another one than in the
file. -/
theorem references_covered_iff (start : Server σ) (events : List Event) (uri : Uri)
    (point : Point) :
    let server := start.run events
    let places := ((references uri point).run server).1.listed
    (∀ place ∈ places, ∃ note content inner, Uri.ofPath? note = some place.1 ∧
      FileSystem.read server.files note = some content ∧ Covered content place.2 inner ∧
        ∀ text, server.documents.texts.get? place.1 = some text →
          Text.lineAt? text place.2.start.line = Text.lineAt? content place.2.start.line →
            Covered text place.2 inner) ∧
    ((∀ place ∈ places, ∀ text, server.documents.texts.get? place.1 = some text →
        ∃ inner, Covered text place.2 inner) ↔
      ∀ link ∈ server.reported uri point, ∀ target, Uri.ofPath? link.note = some target →
        ∀ content, FileSystem.read server.files link.note = some content →
          ∀ text, server.documents.texts.get? target = some text →
            Text.lineAt? text link.occurrence.range.start.line ≠
                Text.lineAt? content link.occurrence.range.start.line →
              ∃ inner, Covered text link.occurrence.range inner) := by
  intro server places
  constructor
  · intro place hplace
    obtain ⟨link, hlink, htarget, hrange⟩ := mem_listed_references.mp hplace
    obtain ⟨content, hread, hscan⟩ := exists_of_mem_reported hlink
    rw [← hrange]
    exact ⟨link.note, content, link.occurrence.text, htarget, hread, covered_of_mem_scan hscan rfl,
      fun text _ hline => covered_of_mem_scan hscan hline⟩
  · constructor
    · intro h link hlink target htarget content _ text htext _
      exact h (target, link.occurrence.range)
        (mem_listed_references.mpr ⟨link, hlink, htarget, rfl⟩) text htext
    · intro h place hplace text htext
      obtain ⟨link, hlink, htarget, hrange⟩ := mem_listed_references.mp hplace
      obtain ⟨content, hread, hscan⟩ := exists_of_mem_reported hlink
      rw [← hrange]
      by_cases hline : Text.lineAt? text link.occurrence.range.start.line =
          Text.lineAt? content link.occurrence.range.start.line
      · exact ⟨link.occurrence.text, covered_of_mem_scan hscan hline⟩
      · exact h link hlink place.1 htarget content hread text htext hline

/-- A link in a document that was opened moves when text is put before it. The place that is
answered is still that of the file, and in the open document it covers no link. -/
theorem references_not_covered :
    let uri : Uri := ⟨"file".toList, some [], "/ws/a.md".toList, []⟩
    let note : Path := ⟨"/ws/a.md".toList⟩
    let other : Path := ⟨"/ws/b.md".toList⟩
    let start : Server MemoryFiles :=
      { files := { files := [(note, some "[[b]]".toList), (other, some [])] }
        workspace := some ⟨⟨"/ws".toList⟩⟩
        index := ({} : NoteIndex).store 0 [note, other] }
    let server := start.run [.notice (.opened uri "[[b]]".toList),
      .notice (.changed uri [⟨some (.onLine 0 0 0), "see ".toList⟩])]
    server.documents.texts.get? uri = some "see [[b]]".toList ∧
      ((references uri ⟨0, 6⟩).run server).1.listed = [(uri, .onLine 0 0 5)] ∧
      ∀ inner, ¬ Covered "see [[b]]".toList (.onLine 0 0 5) inner := by
  intro uri note other start server
  refine ⟨by decide +kernel, by decide +kernel, fun inner h => ?_⟩
  have hcovered : Text.inRange? "see [[b]]".toList (.onLine 0 0 5) = some "see [".toList := by
    decide
  have hspelled := Option.some.inj (hcovered.symm.trans h.spelled)
  cases hspelled

end Server
end LinkedNotes
