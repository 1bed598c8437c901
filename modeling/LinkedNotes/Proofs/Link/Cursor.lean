import LinkedNotes.Link.Cursor
import LinkedNotes.Proofs.Link.Token

/-!
# Writing into a link that is closed

A cursor that stands in a closed link, or between brackets that were closed around nothing, shows a
range whose text can be replaced. Main statement: after any text without a closing bracket or a line
feed is written there, the link at the start of that range is the one with the new text. Links that
are not closed yet are outside this module.
-/

namespace LinkedNotes.Link

open Text

/-- The link at a point between brackets that close: a token around it, or an empty link that is
closed right after it. -/
def closedAt? (text : Text) (point : Point) : Option Link := do
  let line ← lineAt? text point.line
  (containing? line point.line point.col).or
    (if closing.isPrefixOf (cutAtCol point.col line).2 then empty? line point.line point.col
      else none)

/-- A link that is closed is the link at its point, also for completion. -/
theorem atPointOrOpen?_of_closedAt? {text : Text} {point : Point} {link : Link}
    (h : closedAt? text point = some link) : atPointOrOpen? text point = some link := by
  unfold closedAt? at h
  obtain ⟨line, hline, h⟩ := Option.bind_eq_some_iff.mp h
  simp only [atPointOrOpen?, hline, Option.bind_eq_bind, Option.bind_some, atOrOpen?, at?]
  cases hin : containing? line point.line point.col with
  | some found => simpa [hin] using h
  | none =>
    rw [hin, Option.none_or] at h
    split at h
    · simp [h]
    · cases h

/-- A token that a scan comes to is found at each column behind its first bracket. -/
theorem containing?_of_leadsTo {before text after : Text} {found : List Token} {col : Nat}
    (hlead : LeadsTo 0 0 before found) (hne : text ≠ []) (htext : ']' ∉ text)
    (hstart : width before < col) (hstop : col ≤ width before + 2 + width text + 2) (row : Nat) :
    containing? (before ++ opening ++ text ++ closing ++ after) row col =
      some ⟨text, .onLine row (width before + 2) (width before + 2 + width text)⟩ := by
  have hopens : textAtStart? (opening ++ (text ++ closing ++ after)) = some text :=
    textAtStart?_eq_some_iff.mpr ⟨hne, htext, after, by simp⟩
  have hscan := hlead.scan (text ++ closing ++ after)
  rw [Nat.zero_add] at hscan
  have hnone : found.find? (fun token => token.col ≤ col && col ≤ token.endCol) = none := by
    rw [List.find?_eq_none]
    intro token ht
    have := hlead.ends token ht
    simp only [Bool.and_eq_true, decide_eq_true_eq, not_and]
    omega
  have hfirst : tokensFrom 0 (width before) (opening ++ (text ++ closing ++ after)) =
      ⟨width before, text⟩ :: tokensFrom (text.length + 3) (width before + units '[')
        ('[' :: (text ++ closing ++ after)) :=
    tokensFrom_of_some hopens (width before)
  have hline : before ++ opening ++ text ++ closing ++ after =
      before ++ opening ++ (text ++ closing ++ after) := by simp
  have hend : (⟨width before, text⟩ : Token).endCol = width before + 2 + width text + 2 := rfl
  have hinside : (decide (width before ≤ col) &&
      decide (col ≤ (⟨width before, text⟩ : Token).endCol)) = true := by
    rw [hend, Bool.and_eq_true, decide_eq_true_eq, decide_eq_true_eq]
    exact ⟨hstart.le, hstop⟩
  simp only [containing?, tokens, hline, hscan, List.find?_append, hnone, Option.none_or, hfirst]
  rw [List.find?_cons, hinside]
  simp only [Option.map_some, hend, Nat.add_sub_cancel]

/-- Brackets around nothing that a scan comes to lie in no token. -/
theorem containing?_empty_of_leadsTo {before : Text} {found : List Token}
    (hlead : LeadsTo 0 0 before found) (after : Text) (row : Nat) :
    containing? (before ++ opening ++ closing ++ after) row (width before + 2) = none := by
  have hscan := hlead.scan (closing ++ after)
  rw [Nat.zero_add] at hscan
  have hskip : tokensFrom 0 (width before) (opening ++ (closing ++ after)) =
      tokensFrom 0 (width before + 4) after := by
    simp [opening, closing, tokensFrom, textAtStart?, units]
  have hline : before ++ opening ++ closing ++ after =
      before ++ opening ++ (closing ++ after) := by simp
  simp only [containing?, tokens, hline, hscan, hskip, Option.map_eq_none_iff,
    List.find?_eq_none, List.mem_append, Bool.and_eq_true, decide_eq_true_eq, not_and]
  rintro token (ht | ht)
  · have := hlead.ends token ht
    omega
  · obtain ⟨_, _, _, _, hcol, _⟩ := exists_of_mem_tokensFrom ht
    omega

/-- Brackets around nothing are an empty link between them. -/
theorem empty?_between (before after : Text) (row : Nat) :
    empty? (before ++ opening ++ closing ++ after) row (width before + 2) =
      some ⟨[], .onLine row (width before + 2) (width before + 2)⟩ := by
  have hcut := cutAtCol_width (before ++ opening) (closing ++ after)
  have hw : width (before ++ opening) = width before + 2 := by
    rw [width_append, width_opening]
  rw [hw, ← List.append_assoc] at hcut
  simp only [empty?, hcut]
  simp

/-- The link between brackets that a scan comes to, whatever closed text stands there. -/
theorem at?_of_leadsTo {before text : Text} {found : List Token}
    (hlead : LeadsTo 0 0 before found) (htext : ']' ∉ text) (after : Text) (row : Nat) :
    at? (before ++ opening ++ text ++ closing ++ after) row (width before + 2) =
      some ⟨text, .onLine row (width before + 2) (width before + 2 + width text)⟩ := by
  by_cases hne : text = []
  · subst hne
    have hnone := containing?_empty_of_leadsTo hlead after row
    have hempty := empty?_between before after row
    simp only [List.append_assoc, List.nil_append] at hnone hempty ⊢
    simp [at?, hnone, hempty, width]
  · rw [at?, containing?_of_leadsTo hlead hne htext (by omega) (by omega), Option.some_or]

/-- Where a closed link stands: its range is that of its text, and a scan comes to its brackets. -/
theorem exists_of_closedAt? {text : Text} {point : Point} {link : Link}
    (h : closedAt? text point = some link) :
    ∃ before after found,
      lineAt? text point.line = some (before ++ opening ++ link.text ++ closing ++ after) ∧
      link.range = .onLine point.line (width before + 2) (width before + 2 + width link.text) ∧
      LeadsTo 0 0 before found := by
  unfold closedAt? at h
  obtain ⟨line, hline, h⟩ := Option.bind_eq_some_iff.mp h
  cases hin : containing? line point.line point.col with
  | some inside =>
    rw [hin, Option.some_or, Option.some.injEq] at h
    subst h
    obtain ⟨token, hfind, rfl⟩ := Option.map_eq_some_iff.mp hin
    obtain ⟨before, after, found, rfl, hcol, hne, -, -, hlead⟩ :=
      exists_of_mem_tokensFrom (List.mem_of_find?_eq_some hfind)
    refine ⟨before, after, found, hline, ?_, hlead⟩
    simp only [Token.endCol, hcol, Nat.zero_add, Nat.add_sub_cancel]
  | none =>
    rw [hin, Option.none_or] at h
    split at h
    · next hclose =>
      obtain ⟨rest, hrest⟩ := List.isPrefixOf_iff_prefix.mp hclose
      simp only [empty?, Option.ite_none_right_eq_some, Option.some.injEq] at h
      obtain ⟨hcond, rfl⟩ := h
      obtain ⟨before, hbefore⟩ := List.isSuffixOf_iff_suffix.mp hcond.1
      have hcut : cutAtCol point.col line = (before ++ ['['] ++ ['['], closing ++ rest) :=
        Prod.ext (by simpa [opening] using hbefore.symm) hrest.symm
      have hcol := width_eq_of_cutAtCol hcut (by decide) (by simp [closing])
      have hjoin := cutAtCol_append point.col line
      rw [hcut] at hjoin
      simp only [width_append] at hcol
      rw [show width ['['] = 1 from rfl] at hcol
      have hsplit : line = before ++ opening ++ closing ++ rest := by
        simp [← hjoin, opening]
      have hends : ∀ token ∈ tokensFrom 0 0 (before ++ opening ++ closing ++ rest),
          token.col ≤ 0 + width before + 2 → token.endCol < 0 + width before + 2 :=
        fun token ht hle => by
          have hnot := List.find?_eq_none.mp (Option.map_eq_none_iff.mp hin) token
            (by rw [tokens, hsplit]; exact ht)
          simp only [Bool.and_eq_true, decide_eq_true_eq, not_and] at hnot
          omega
      obtain ⟨found, hlead⟩ := exists_leadsTo_of_empty (Nat.zero_le _) hends
      refine ⟨before, rest, found, by simp [hline, hsplit], ?_, hlead⟩
      rw [show width [] = 0 from rfl, Nat.add_zero, ← hcol]
    · cases h

/-- The text of the link at a point stands on one line. -/
theorem notMem_text_of_atPoint? {text : Text} {point : Point} {link : Link}
    (h : atPoint? text point = some link) : '\n' ∉ link.text := by
  obtain ⟨line, hline, h⟩ := Option.bind_eq_some_iff.mp h
  have hfeed := notMem_of_lineAt? hline
  rcases Option.or_eq_some_iff.mp h with hinside | ⟨-, hempty⟩
  · obtain ⟨token, hfind, rfl⟩ := Option.map_eq_some_iff.mp hinside
    obtain ⟨before, after, found, rfl, -⟩ :=
      exists_of_mem_tokensFrom (List.mem_of_find?_eq_some hfind)
    exact fun hmem => hfeed (by simp [hmem])
  · simp only [empty?, Option.ite_none_right_eq_some, Option.some.injEq] at hempty
    rw [← hempty.2]
    exact List.not_mem_nil

/-- After a text is written into a closed link, the link at the start of its range has this text. -/
theorem atPoint?_apply_of_closedAt? {text new : Text} {point : Point} {link : Link}
    (h : closedAt? text point = some link) (hclose : ']' ∉ new) (hfeed : '\n' ∉ new) :
    ∃ range, atPoint? (ContentChange.apply text ⟨some link.range, new⟩).1 link.range.start =
      some ⟨new, range⟩ := by
  obtain ⟨before, after, found, hline, hrange, hlead⟩ := exists_of_closedAt? h
  have hw : width (before ++ opening) = width before + 2 := by
    rw [width_append, width_opening]
  have hold : lineAt? text point.line =
      some (before ++ opening ++ link.text ++ (closing ++ after)) := by simpa using hline
  have hnew := ContentChange.lineAt?_apply hold (by simp [closing]) hfeed
  rw [hw] at hnew
  refine ⟨.onLine point.line (width before + 2) (width before + 2 + width new), ?_⟩
  rw [hrange]
  simp only [atPoint?, TextRange.onLine] at hnew ⊢
  rw [hnew]
  have hat := at?_of_leadsTo hlead hclose after point.line
  simpa [TextRange.onLine] using hat

end LinkedNotes.Link
