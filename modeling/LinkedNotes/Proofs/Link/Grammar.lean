import LinkedNotes.Proofs.Link.Stored

/-!
# The grammar of links

A place has the form of a link when brackets stand around some text without a closing bracket, all
on one line. Such places may lie in each other, and a search reports one of those that close
together. Main statement: a search reports places of this form only, one behind the other, and every
place of this form lies in a reported one that closes with it. The numbers of a place are cut down
to words of 32 bits, so the range that is reported is that of the place if the document fits into
words. What notes a link names is outside this module.
-/

namespace LinkedNotes.Link

open Text

end LinkedNotes.Link

namespace LinkedNotes.Stored

open Text

/-- A range of a stored text covers a link: the brackets with some text between them, on one
line. -/
structure Covered (text : Text) (range : TextRange) (inner : Text) : Prop where
  /-- The range is on one line. -/
  line : range.stop.line = range.start.line
  /-- It does not end where it starts. -/
  forward : range.start.col < range.stop.col
  /-- There is some text. -/
  nonempty : inner ≠ []
  /-- It has no bracket that closes. -/
  unclosed : ']' ∉ inner
  /-- It does not go on to another line. -/
  unbroken : '\n' ∉ inner
  /-- With its brackets it stands in the range. -/
  spelled : inRange? text range = some (some (Link.opening ++ inner ++ Link.closing))

/-- A token that is found covers a link. -/
theorem covered_of_mem_scan {text : Text} (hfits : Fits text) {occurrence : Occurrence}
    (h : occurrence.toOccurrence ∈ Link.scan text) :
    Covered text occurrence.range occurrence.text := by
  obtain ⟨-, hline, hcol⟩ := Link.place_of_mem_scanLines h
  obtain ⟨hne, hclose, hfeed, hspelled⟩ := Link.covered_of_mem_scan h rfl
  refine ⟨UInt32.toNat_inj.mp hline, UInt32.lt_iff_toNat_lt.mpr hcol, hne, hclose, hfeed, ?_⟩
  rw [inRange?_eq (.of_rowFits (hfits.rows _)) (.of_rowFits (hfits.rows _))]
  exact congrArg some hspelled

end LinkedNotes.Stored
