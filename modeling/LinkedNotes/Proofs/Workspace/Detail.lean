import LinkedNotes.Proofs.Note.Slug
import LinkedNotes.Workspace.Queries

/-!
# The heading of a new note

A note that is created for a dangling link has its title as a first-level heading. Main statement:
the heading of such a note is its title without the blanks around it.
-/

namespace LinkedNotes.Workspace

open Note Text

/-- The lines of the text of a new note. -/
theorem lines_missingContent {title : Text} (h : '\n' ∉ title) :
    lines (missingContent title) = [dropReturn (headingMark ++ title), []] := by
  have hline : '\n' ∉ headingMark ++ title := by
    simpa [headingMark] using h
  have hcontent : missingContent title = (headingMark ++ title) ++ '\n' :: ['\n'] := by
    simp [missingContent, headingMark]
  have hends : splitOn '\n' ['\n'] = [[], []] := rfl
  rw [lines, hcontent, splitOn_append, splitOn_of_notMem hline, hends]
  rfl

/-- The heading of a new note is its title, if that is one line and not blank. -/
theorem heading?_missingContent {title : Text} (hline : '\n' ∉ title) (hblank : trim title ≠ []) :
    heading? (missingContent title) = some (trim title) := by
  have hne : title ≠ [] := fun hnil => hblank (by rw [hnil]; rfl)
  have hfirst : dropReturn (headingMark ++ title) = headingMark ++ dropReturn title :=
    dropReturn_append hne
  have hmark : headingMark.isPrefixOf (headingMark ++ dropReturn title) = true :=
    List.isPrefixOf_iff_prefix.mpr (List.prefix_append _ _)
  rw [heading?, lines_missingContent hline, hfirst, List.find?_cons_of_pos hmark]
  simp [trim_dropReturn, hblank]

end LinkedNotes.Workspace
