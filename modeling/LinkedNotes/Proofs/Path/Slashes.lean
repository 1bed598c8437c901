import LinkedNotes.Proofs.Path.Clean
import LinkedNotes.Proofs.Path.Normal

/-!
# Slashes of relative paths

A relative path is written from its pieces, with one slash between two of them. Main statement: it
never has two slashes in a row, so a directory that stands in it before a slash ends with no slash.
-/

namespace LinkedNotes.Path

open Text

/-- What follows a part of a clean path has pieces only, unless it is the whole path from the
root. -/
theorem forall_isPiece_of_append_eq {path : Path} {common : List Component} {below : List Component}
    (h : cleanComponents path.components = common ++ below) :
    (∀ piece ∈ below, piece.IsPiece) ∨
      ∃ rest, below = .root :: rest ∧ ∀ piece ∈ rest, piece.IsPiece := by
  obtain ⟨pieces, hpieces, hclean⟩ := (cleanStack_cleanComponents path).exists_pieces
  rw [List.reverse_reverse, h] at hclean
  rcases hclean with hclean | hclean
  · exact .inl fun piece hpiece => hpieces piece (hclean ▸ List.mem_append_right common hpiece)
  · cases common with
    | nil => exact .inr ⟨pieces, hclean, hpieces⟩
    | cons first common =>
      have hrest := (List.cons.inj hclean).2
      exact .inl fun piece hpiece => hpieces piece (hrest ▸ List.mem_append_right common hpiece)

/-- A relative path is written from pieces, with a slash before them only if it is no way from the
base. -/
theorem exists_text_relative_eq (base target : Path) :
    ∃ pieces : List Component, (∀ piece ∈ pieces, piece.IsPiece) ∧
      ((relative base target).text = joinWith ['/'] (pieces.map Component.text) ∨
        (relative base target).text = '/' :: joinWith ['/'] (pieces.map Component.text)) := by
  obtain ⟨common, -, htarget⟩ :=
    exists_common (cleanComponents base.components) (cleanComponents target.components)
  have hbelow := forall_isPiece_of_append_eq htarget
  unfold relative
  split
  · next rest heq =>
    rw [heq] at hbelow
    rcases hbelow with hpieces | ⟨more, hmore, hpieces⟩
    · exact ⟨rest, fun piece hpiece => hpieces piece (List.mem_cons_of_mem _ hpiece), .inr rfl⟩
    · exact ⟨rest, (List.cons.inj hmore).2 ▸ hpieces, .inr rfl⟩
  · next above below hroot heq =>
    rw [heq] at hbelow
    rcases hbelow with hpieces | ⟨more, hmore, -⟩
    · have hall : ∀ piece ∈ above.map (fun _ => Component.up) ++ below, piece.IsPiece := by
        intro piece hpiece
        rcases List.mem_append.mp hpiece with hpiece | hpiece
        · obtain ⟨_, -, rfl⟩ := List.mem_map.mp hpiece
          exact ⟨by decide, rfl⟩
        · exact hpieces piece hpiece
      exact ⟨_, hall, .inl (congrArg Path.text (ofComponents_of_isPiece hall))⟩
    · exact absurd hmore (hroot more)

/-- Pieces with slashes between them start with no slash and have no two in a row. -/
theorem isChain_joinWith {pieces : List Component} (h : ∀ piece ∈ pieces, piece.IsPiece) :
    (joinWith ['/'] (pieces.map Component.text)).head? ≠ some '/' ∧
      (joinWith ['/'] (pieces.map Component.text)).IsChain fun c d => c ≠ '/' ∨ d ≠ '/' := by
  induction pieces with
  | nil => exact ⟨nofun, .nil⟩
  | cons first rest ih =>
    obtain ⟨hfirst, hrest⟩ := List.forall_mem_cons.mp h
    have hfree : ∀ c ∈ first.text, c ≠ '/' := fun c hc heq => hfirst.1 (heq ▸ hc)
    have hone : first.text.IsChain fun c d => c ≠ '/' ∨ d ≠ '/' :=
      (List.pairwise_of_forall_mem_list fun c hc _ _ => .inl (hfree c hc)).isChain
    have hstart : first.text.head? ≠ some '/' := fun hhead =>
      hfree '/' (List.mem_of_mem_head? hhead) rfl
    cases rest with
    | nil => exact ⟨hstart, hone⟩
    | cons next more =>
      obtain ⟨hhead, hchain⟩ := ih hrest
      have hjoin : joinWith ['/'] ((first :: next :: more).map Component.text) =
          first.text ++ '/' :: joinWith ['/'] ((next :: more).map Component.text) := by
        simp [joinWith]
      rw [hjoin, List.head?_append_of_ne_nil _ hfirst.text_ne.1, List.isChain_append,
        List.isChain_cons]
      refine ⟨hstart, hone, ⟨fun c hc => .inr fun heq => hhead (heq ▸ hc), hchain⟩, ?_⟩
      exact fun c hc _ _ => .inl (hfree c (List.mem_of_getLast? hc))

/-- A relative path has no two slashes in a row. -/
theorem isChain_relative (base target : Path) :
    (relative base target).text.IsChain fun c d => c ≠ '/' ∨ d ≠ '/' := by
  obtain ⟨pieces, hpieces, htext | htext⟩ := exists_text_relative_eq base target
  · rw [htext]
    exact (isChain_joinWith hpieces).2
  · rw [htext]
    refine List.isChain_cons.mpr ⟨fun c hc => .inr fun heq => ?_, (isChain_joinWith hpieces).2⟩
    exact (isChain_joinWith hpieces).1 (heq ▸ hc)

/-- What stands before a slash in a relative path ends with no slash. -/
theorem getLast?_ne_of_relative {base target : Path} {dir rest : Text}
    (h : (relative base target).text = dir ++ '/' :: rest) : dir.getLast? ≠ some '/' := by
  have hchain := isChain_relative base target
  rw [h, List.isChain_append] at hchain
  intro hlast
  rcases hchain.2.2 '/' hlast '/' rfl with hne | hne <;> exact hne rfl

end LinkedNotes.Path
