import LinkedNotes.Link.Token
import LinkedNotes.Proofs.Text.Lines
import Mathlib.Data.List.Nodup

/-!
# How a scan comes to a link

Whether brackets on a line open a link depends on what stands before them only in one way: an
earlier link may run over them. Main statements: each token stands in its line as it was written,
each ends before the next one starts, every place with the form of a token lies in one that closes
there, and whatever is written in the place of a token, a scan finds the tokens before it unchanged
and comes to its brackets.
-/

namespace LinkedNotes.Link

open Text

@[simp]
theorem width_opening : width opening = 2 := rfl

@[simp]
theorem width_closing : width closing = 2 := rfl

/-- A token takes up its text and the brackets around it. -/
theorem Token.endCol_eq (token : Token) :
    token.endCol = token.col + width (opening ++ token.text ++ closing) := by
  simp only [Token.endCol, width_append, width_opening, width_closing]
  omega

/-- A text is cut in one way only at its first bracket that closes. -/
theorem append_bracket_inj {first second after rest : Text} (hfirst : ']' ∉ first)
    (hsecond : ']' ∉ second) (h : first ++ ']' :: after = second ++ ']' :: rest) :
    first = second ∧ after = rest := by
  rcases List.append_eq_append_iff.mp h with ⟨between, rfl, hafter⟩ | ⟨between, rfl, hrest⟩
  · cases between with
    | nil => simpa using hafter
    | cons c between =>
      obtain ⟨rfl, -⟩ := List.cons.inj hafter
      exact absurd (by simp) hsecond
  · cases between with
    | nil => simpa using hrest.symm
    | cons c between =>
      obtain ⟨rfl, -⟩ := List.cons.inj hrest
      exact absurd (by simp) hfirst

/-- A bracket that closes decides whether the brackets before it open a link. -/
theorem textAtStart?_bracket {inner : Text} (h : ']' ∉ inner) (rest : Text) :
    textAtStart? ('[' :: '[' :: (inner ++ ']' :: rest)) =
      if inner ≠ [] ∧ rest.head? = some ']' then some inner else none := by
  have htake : (inner ++ ']' :: rest).takeWhile (· ≠ ']') = inner := by
    rw [List.takeWhile_append_of_pos (fun c hc => by simpa using fun e : c = ']' => h (e ▸ hc))]
    simp
  have hclose : closing.isPrefixOf (']' :: rest) = true ↔ rest.head? = some ']' := by
    cases rest with
    | nil => simp [closing, List.isPrefixOf]
    | cons c rest =>
      simp only [closing, List.isPrefixOf, beq_self_eq_true, Bool.true_and, Bool.and_true,
        beq_iff_eq, List.head?_cons, Option.some.injEq]
      exact eq_comm
  simp only [textAtStart?, htake, List.drop_left, hclose]

/-- Brackets that are never closed open no link. -/
theorem textAtStart?_unclosed {rest : Text} (h : ']' ∉ rest) : textAtStart? rest = none := by
  unfold textAtStart?
  split
  · next rest =>
    have htake : rest.takeWhile (· ≠ ']') = rest := by
      rw [List.takeWhile_eq_self_iff]
      intro c hc
      have hne : c ≠ ']' := fun e => h (by simpa [e] using hc)
      simpa using hne
    simp only [htake, List.drop_length]
    simp [closing]
  · rfl

/-- A text starts with a token when it starts with the brackets around the text of the token. -/
theorem textAtStart?_eq_some_iff {text inner : Text} :
    textAtStart? text = some inner ↔
      inner ≠ [] ∧ ']' ∉ inner ∧ ∃ rest, text = opening ++ inner ++ closing ++ rest := by
  constructor
  · intro h
    have hmem : ']' ∈ text := by
      by_contra hn
      rw [textAtStart?_unclosed hn] at h
      cases h
    unfold textAtStart? at h
    split at h
    · next rest =>
      have hrest : ']' ∈ rest := by simpa using hmem
      obtain ⟨before, after, rfl, hbefore⟩ := List.eq_append_cons_of_mem hrest
      have hb := textAtStart?_bracket hbefore after
      rw [show textAtStart? ('[' :: '[' :: (before ++ ']' :: after)) = some inner from h] at hb
      split at hb
      · next hc =>
        obtain ⟨hne, hhead⟩ := hc
        obtain ⟨rest, rfl⟩ := List.head?_eq_some_iff.mp hhead
        cases hb
        exact ⟨hne, hbefore, rest, by simp [opening, closing]⟩
      · cases hb
    · cases h
  · rintro ⟨hne, hin, rest, rfl⟩
    have hb := textAtStart?_bracket hin (']' :: rest)
    simpa [opening, closing, hne] using hb

/-- A token that starts before brackets around a text ends before them or closes with them. -/
theorem exists_kept_or_eq {before text after inner more : Text} (htext : ']' ∉ text)
    (hinner : ']' ∉ inner)
    (h : before ++ opening ++ text ++ closing ++ after = opening ++ inner ++ closing ++ more) :
    (∃ kept, before = opening ++ inner ++ closing ++ kept) ∨
      opening ++ inner = before ++ opening ++ text := by
  have hopened : ']' ∉ opening ++ inner := by simp [opening, hinner]
  by_cases hbefore : ']' ∈ before
  · obtain ⟨free, behind, rfl, hfree⟩ := List.eq_append_cons_of_mem hbefore
    have hcut : free ++ ']' :: (behind ++ opening ++ text ++ closing ++ after) =
        (opening ++ inner) ++ ']' :: (']' :: more) := by simpa [closing] using h
    obtain ⟨rfl, hbehind⟩ := append_bracket_inj hfree hopened hcut
    cases behind with
    | nil => simp [opening] at hbehind
    | cons c behind =>
      obtain ⟨rfl, -⟩ := List.cons.inj hbehind
      exact .inl ⟨behind, by simp [closing]⟩
  · have hfree : ']' ∉ before ++ opening ++ text := by simp [opening, hbefore, htext]
    have hcut : (before ++ opening ++ text) ++ ']' :: (']' :: after) =
        (opening ++ inner) ++ ']' :: (']' :: more) := by simpa [closing] using h
    exact .inr (append_bracket_inj hfree hopened hcut).1.symm

/-- A token that stands whole at the start of a text takes up as many characters as it has. -/
theorem length_le_of_kept {c : Char} {before inner kept : Text}
    (h : c :: before = opening ++ inner ++ closing ++ kept) : inner.length + 3 ≤ before.length := by
  have hlengths := congrArg List.length h
  simp only [opening, closing, List.length_append, List.length_cons, List.length_nil] at hlengths
  omega

/-- A token that is passed over stands whole before the brackets that come next. -/
theorem exists_kept_of_length_le {c : Char} {before text after inner : Text} (htext : ']' ∉ text)
    (hstart : textAtStart? (c :: (before ++ opening ++ text ++ closing ++ after)) = some inner)
    (hlength : inner.length + 3 ≤ before.length) :
    ∃ kept, c :: before = opening ++ inner ++ closing ++ kept := by
  obtain ⟨-, hinner, more, hmore⟩ := textAtStart?_eq_some_iff.mp hstart
  have hspelled : c :: before ++ opening ++ text ++ closing ++ after =
      opening ++ inner ++ closing ++ more := by simpa using hmore
  refine (exists_kept_or_eq htext hinner hspelled).resolve_right fun heq => ?_
  have hlengths := congrArg List.length heq
  simp [opening] at hlengths
  omega

/-- Brackets that would open no link before some link, open none before any text. -/
theorem textAtStart?_before_opening {before text rest : Text} (hbefore : before ≠ [])
    (htext : ']' ∉ text)
    (h : textAtStart? (before ++ opening ++ text ++ closing ++ rest) = none) (other : Text) :
    textAtStart? (before ++ opening ++ other) = none := by
  -- A bracket that closes in `before` decides both; without one the brackets reach the link.
  rcases before with _ | ⟨c, _ | ⟨d, before⟩⟩
  · exact absurd rfl hbefore
  · by_cases hc : c = '['
    · subst hc
      have hin : ']' ∉ '[' :: text := by simpa using htext
      have hb := textAtStart?_bracket hin (']' :: rest)
      rw [if_pos (by simp)] at hb
      have hc : textAtStart? ('[' :: '[' :: ('[' :: text ++ ']' :: ']' :: rest)) = none := by
        simpa [opening, closing] using h
      rw [hb] at hc
      cases hc
    · simp [textAtStart?, opening, hc]
  · by_cases hcd : c = '[' ∧ d = '['
    · obtain ⟨rfl, rfl⟩ := hcd
      by_cases hmem : ']' ∈ before
      · obtain ⟨inner, after, rfl, hinner⟩ := List.eq_append_cons_of_mem hmem
        have hb := textAtStart?_bracket hinner (after ++ opening ++ text ++ closing ++ rest)
        have ho := textAtStart?_bracket hinner (after ++ opening ++ other)
        simp only [List.cons_append, List.append_assoc] at h hb ho ⊢
        have hhead : (after ++ (opening ++ other)).head? =
            (after ++ (opening ++ (text ++ (closing ++ rest)))).head? := by
          cases after <;> simp [opening]
        rw [ho, hhead, ← hb, h]
      · have hin : ']' ∉ before ++ opening ++ text := by simp [hmem, htext, opening]
        have hb := textAtStart?_bracket hin (']' :: rest)
        rw [if_pos (by simp [opening])] at hb
        have hc : textAtStart? ('[' :: '[' :: (before ++ opening ++ text ++ ']' :: ']' :: rest)) =
            none := by
          simpa [closing] using h
        rw [hb] at hc
        cases hc
    · simp only [textAtStart?, List.cons_append]
      split
      · next heq => simp_all
      · rfl

/-- A scan goes on behind a character at which no token starts. -/
theorem tokensFrom_of_none {c : Char} {rest : Text} (h : textAtStart? (c :: rest) = none)
    (col : Nat) : tokensFrom 0 col (c :: rest) = tokensFrom 0 (col + units c) rest := by
  simp [tokensFrom, h]

/-- A scan passes over a token that it finds. -/
theorem tokensFrom_of_some {c : Char} {rest inner : Text}
    (h : textAtStart? (c :: rest) = some inner) (col : Nat) :
    tokensFrom 0 col (c :: rest) =
      ⟨col, inner⟩ :: tokensFrom (inner.length + 3) (col + units c) rest := by
  simp [tokensFrom, h]

/-- A scan of a line that starts with `text` comes to brackets after it with nothing to pass over,
whatever stands after these brackets, and has found the same tokens by then. -/
structure LeadsTo (skip col : Nat) (text : Text) (found : List Token) : Prop where
  /-- What the scan finds. -/
  scan : ∀ rest, tokensFrom skip col (text ++ opening ++ rest) =
    found ++ tokensFrom 0 (col + width text) (opening ++ rest)
  /-- The tokens that were found stand in `text`. -/
  ends : ∀ token ∈ found, token.endCol ≤ col + width text

namespace LeadsTo

variable {skip col : Nat} {c : Char} {text : Text} {found : List Token}

/-- A scan at brackets has come to them. -/
theorem nil (col : Nat) : LeadsTo 0 col [] [] where
  scan rest := by simp [width]
  ends := by simp

/-- A character that belongs to the last token is passed over. -/
theorem pass (h : LeadsTo skip (col + units c) text found) :
    LeadsTo (skip + 1) col (c :: text) found where
  scan rest := by simpa [tokensFrom, width, Nat.add_assoc] using h.scan rest
  ends token ht := by simpa [width, Nat.add_assoc] using h.ends token ht

/-- A character at which no token starts is left behind. -/
theorem fail (hnone : ∀ rest, textAtStart? (c :: text ++ opening ++ rest) = none)
    (h : LeadsTo 0 (col + units c) text found) : LeadsTo 0 col (c :: text) found where
  scan rest := by
    have hn : textAtStart? (c :: (text ++ opening ++ rest)) = none := hnone rest
    rw [List.cons_append, List.cons_append, tokensFrom_of_none hn, h.scan, width, Nat.add_assoc]
  ends token ht := by simpa [width, Nat.add_assoc] using h.ends token ht

/-- A token is found where it starts, when all of it stands in the text. -/
theorem token {inner rest : Text} (hne : inner ≠ []) (hin : ']' ∉ inner)
    (htext : c :: text = opening ++ inner ++ closing ++ rest)
    (h : LeadsTo (inner.length + 3) (col + units c) text found) :
    LeadsTo 0 col (c :: text) (⟨col, inner⟩ :: found) where
  scan other := by
    have hsome : textAtStart? (c :: (text ++ opening ++ other)) = some inner := by
      refine textAtStart?_eq_some_iff.mpr ⟨hne, hin, rest ++ opening ++ other, ?_⟩
      rw [← List.cons_append, ← List.cons_append, htext]
      simp
    rw [List.cons_append, List.cons_append, tokensFrom_of_some hsome, h.scan, width,
      Nat.add_assoc, List.cons_append]
  ends token ht := by
    rcases List.mem_cons.mp ht with rfl | ht
    · rw [Token.endCol_eq, htext, width_append (opening ++ inner ++ closing)]
      exact Nat.add_le_add_left (Nat.le_add_right _ _) col
    · simpa [width, Nat.add_assoc] using h.ends token ht

end LeadsTo

/-- Each token stands in its line as it was written, and a scan comes to its brackets. -/
theorem exists_of_mem_tokensFrom {skip col : Nat} {line : Text} {token : Token}
    (h : token ∈ tokensFrom skip col line) :
    ∃ before after found, line = before ++ opening ++ token.text ++ closing ++ after ∧
      token.col = col + width before ∧ token.text ≠ [] ∧ ']' ∉ token.text ∧
      skip ≤ before.length ∧ LeadsTo skip col before found := by
  fun_induction tokensFrom skip col line with
  | case1 => simp at h
  | case2 skip col c rest ih =>
    obtain ⟨before, after, found, rfl, hcol, hne, hin, hskip, hlead⟩ := ih h
    refine ⟨c :: before, after, found, by simp, ?_, hne, hin, ?_, hlead.pass⟩
    · simp only [width]
      omega
    · simp only [List.length_cons]
      omega
  | case3 col c rest inner hsome ih =>
    obtain ⟨hinner, hfree, more, htext⟩ := textAtStart?_eq_some_iff.mp hsome
    rcases List.mem_cons.mp h with rfl | h
    · exact ⟨[], more, [], by simpa using htext, rfl, hinner, hfree, Nat.zero_le _, .nil col⟩
    · obtain ⟨before, after, found, rfl, hcol, hne, hin, hskip, hlead⟩ := ih h
      obtain ⟨kept, hkept⟩ := exists_kept_of_length_le hin hsome hskip
      refine ⟨c :: before, after, _, by simp, ?_, hne, hin, Nat.zero_le _,
        .token hinner hfree hkept hlead⟩
      simp only [width]
      omega
  | case4 col c rest hnone ih =>
    obtain ⟨before, after, found, rfl, hcol, hne, hin, hskip, hlead⟩ := ih h
    refine ⟨c :: before, after, found, by simp, ?_, hne, hin, Nat.zero_le _, .fail ?_ hlead⟩
    · simp only [width]
      omega
    · exact textAtStart?_before_opening (List.cons_ne_nil _ _) hin (by simpa using hnone)

/-- A scan comes to empty brackets that lie in no token. -/
theorem exists_leadsTo_of_empty {skip col : Nat} {before after : Text}
    (hskip : skip ≤ before.length)
    (h : ∀ token ∈ tokensFrom skip col (before ++ opening ++ closing ++ after),
      token.col ≤ col + width before + 2 → token.endCol < col + width before + 2) :
    ∃ found, LeadsTo skip col before found := by
  induction before generalizing skip col with
  | nil =>
    obtain rfl : skip = 0 := by simpa using hskip
    exact ⟨[], .nil col⟩
  | cons c before ih =>
    cases skip with
    | succ skip =>
      obtain ⟨found, hlead⟩ := @ih skip (col + units c) (by simpa using hskip)
        fun token ht => by
          have := h token (by simpa [tokensFrom] using ht)
          simp only [width] at this
          omega
      exact ⟨found, hlead.pass⟩
    | zero =>
      cases hstart : textAtStart? (c :: (before ++ opening ++ closing ++ after)) with
      | none =>
        obtain ⟨found, hlead⟩ := @ih 0 (col + units c) (Nat.zero_le _)
          fun token ht => by
            have := h token (by
              rw [List.cons_append, List.cons_append, List.cons_append, tokensFrom_of_none hstart]
              exact ht)
            simp only [width] at this
            omega
        refine ⟨found, .fail ?_ hlead⟩
        have hnil : ']' ∉ ([] : Text) := List.not_mem_nil
        exact textAtStart?_before_opening (List.cons_ne_nil _ _) hnil (by simpa using hstart)
      | some inner =>
        obtain ⟨hne, hin, more, htext⟩ := textAtStart?_eq_some_iff.mp hstart
        have hmem : ∀ token ∈ ⟨col, inner⟩ :: tokensFrom (inner.length + 3) (col + units c)
            (before ++ opening ++ closing ++ after),
            token.col ≤ col + width (c :: before) + 2 →
              token.endCol < col + width (c :: before) + 2 := fun token ht => by
          refine h token ?_
          rw [List.cons_append, List.cons_append, List.cons_append, tokensFrom_of_some hstart]
          exact ht
        have hspelled : c :: before ++ opening ++ [] ++ closing ++ after =
            opening ++ inner ++ closing ++ more := by simpa using htext
        rcases exists_kept_or_eq List.not_mem_nil hin hspelled with ⟨kept, hkept⟩ | heq
        · obtain ⟨found, hlead⟩ := @ih (inner.length + 3) (col + units c)
            (length_le_of_kept hkept) fun token ht => by
              have := hmem token (List.mem_cons_of_mem _ ht)
              simp only [width] at this
              omega
          exact ⟨_, .token hne hin hkept hlead⟩
        · have hfirst := hmem ⟨col, inner⟩ List.mem_cons_self
          simp only [Token.endCol_eq, heq, width_append, width_opening, width_closing] at hfirst
          omega

/-- The tokens of a line stand one behind the other. -/
theorem pairwise_endCol_tokensFrom (skip col : Nat) (line : Text) :
    (tokensFrom skip col line).Pairwise (·.endCol ≤ ·.col) := by
  fun_induction tokensFrom skip col line with
  | case1 => exact .nil
  | case2 skip col c rest ih => exact ih
  | case3 col c rest inner hsome ih =>
    refine List.pairwise_cons.mpr ⟨fun token ht => ?_, ih⟩
    obtain ⟨before, after, -, rfl, hcol, -, hin, hskip, -⟩ := exists_of_mem_tokensFrom ht
    obtain ⟨kept, hkept⟩ := exists_kept_of_length_le hin hsome hskip
    have hwidth := congrArg width hkept
    rw [width, width_append (opening ++ inner ++ closing)] at hwidth
    simp only [Token.endCol_eq]
    omega
  | case4 col c rest hnone ih => exact ih

/-- Brackets around nothing are no link, and the next opening may lie inside a failed one. -/
example : tokens "[[]] [[[a]] [[b]".toList = [⟨5, "[a".toList⟩] := by decide

/-- A token of numbered lines stands on one of them, and takes up some of it. -/
theorem place_of_mem_scanLines {n : Nat} {lines : List Text} {occurrence : Occurrence}
    (h : occurrence ∈ scanLines n lines) :
    n ≤ occurrence.range.start.line ∧
      occurrence.range.stop.line = occurrence.range.start.line ∧
        occurrence.range.start.col < occurrence.range.stop.col := by
  induction lines generalizing n with
  | nil => simp [scanLines] at h
  | cons line rest ih =>
    rcases List.mem_append.mp h with h | h
    · obtain ⟨token, -, rfl⟩ := List.mem_map.mp h
      refine ⟨Nat.le_refl n, rfl, ?_⟩
      simp only [TextRange.onLine, Token.endCol]
      omega
    · obtain ⟨hline, hplace⟩ := ih h
      exact ⟨Nat.le_of_succ_le hline, hplace⟩

/-- Whether a range ends before another one starts, or where it starts. -/
def Precedes (first second : TextRange) : Prop :=
  first.stop.line < second.start.line ∨
    first.stop.line = second.start.line ∧ first.stop.col ≤ second.start.col

/-- The tokens of numbered lines stand one behind the other. -/
theorem pairwise_precedes_scanLines (n : Nat) (lines : List Text) :
    (scanLines n lines).Pairwise fun first second => Precedes first.range second.range := by
  induction lines generalizing n with
  | nil => exact .nil
  | cons line rest ih =>
    rw [scanLines, List.pairwise_append]
    refine ⟨?_, ih (n + 1), ?_⟩
    · rw [List.pairwise_map]
      exact (pairwise_endCol_tokensFrom 0 0 (dropReturn line)).imp fun hle => .inr ⟨rfl, hle⟩
    · intro first hfirst second hsecond
      obtain ⟨token, -, rfl⟩ := List.mem_map.mp hfirst
      exact .inl (place_of_mem_scanLines hsecond).1

/-- The tokens of numbered lines have different ranges. -/
theorem nodup_range_scanLines (n : Nat) (lines : List Text) :
    ((scanLines n lines).map (·.range)).Nodup := by
  rw [List.Nodup, List.pairwise_map]
  refine (pairwise_precedes_scanLines n lines).imp_of_mem fun hmem _ hprecedes heq => ?_
  obtain ⟨-, hline, hcol⟩ := place_of_mem_scanLines hmem
  rw [← heq] at hprecedes
  unfold Precedes at hprecedes
  omega

/-- A token of a document is known by its range. -/
theorem eq_of_range_eq {text : Text} {first second : Occurrence} (hfirst : first ∈ scan text)
    (hsecond : second ∈ scan text) (h : first.range = second.range) : first = second :=
  List.inj_on_of_nodup_map (nodup_range_scanLines 0 _) hfirst hsecond h

end LinkedNotes.Link
