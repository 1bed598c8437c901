import LinkedNotes.Proofs.Link.Cursor

/-!
# A link that is being typed

While a link is typed, anything may stand behind the cursor: nothing, closing brackets, the rest of
an older link, or other links that the new brackets run into. Main statement: whatever stands there,
the link at the cursor starts behind the brackets that were opened last, and its text starts with
what was typed, provided that nothing before these brackets is still open. What is typed has no
brackets. Columns may be of any size here; words are a matter of `LinkedNotes.Proofs.Link.Stored`.
-/

namespace LinkedNotes.Link

open Text

/-- Whether nothing is open at the end of a text: no bracket opens behind the last one that closes,
and none at all when none closes. -/
def Settled (text : Text) : Prop :=
  '[' ∉ text.reverse.takeWhile (· ≠ ']')

instance (text : Text) : Decidable (Settled text) :=
  inferInstanceAs (Decidable (¬_))

/-- A bracket that opens in a settled text is closed. -/
theorem Settled.bracket_mem {before after : Text} (h : Settled (before ++ '[' :: after)) :
    ']' ∈ after := by
  by_contra hafter
  refine h ?_
  have hfree : ∀ c ∈ after.reverse, decide (c ≠ ']') = true := fun c hc =>
    decide_eq_true fun heq => hafter (heq ▸ List.mem_reverse.mp hc)
  rw [List.reverse_append, List.reverse_cons, List.append_assoc, List.singleton_append,
    List.takeWhile_append_of_pos hfree]
  simp

/-- A scan comes to brackets behind a settled text. -/
theorem exists_leadsTo_of_settled {before : Text} (h : Settled before) :
    ∃ found, LeadsTo 0 0 before found := by
  refine @exists_leadsTo_of_empty 0 0 before [] (Nat.zero_le _) fun token htoken _ => ?_
  obtain ⟨start, after, -, hline, hcol, hne, hin, -, -⟩ := exists_of_mem_tokensFrom htoken
  simp only [List.append_assoc] at hline
  rcases List.append_eq_append_iff.mp hline with ⟨more, -, hmore⟩ | ⟨more, rfl, hmore⟩
  · -- A token does not fit into brackets around nothing.
    have hlengths := congrArg List.length hmore
    have hpos := List.length_pos_of_ne_nil hne
    simp [opening, closing] at hlengths
    omega
  · have hspelled : more ++ opening ++ [] ++ closing ++ [] =
        opening ++ token.text ++ closing ++ after := by simpa using hmore.symm
    rcases exists_kept_or_eq List.not_mem_nil hin hspelled with ⟨kept, rfl⟩ | heq
    · simp only [Token.endCol, hcol, width_append, width_opening, width_closing]
      omega
    · cases more with
      | nil => exact absurd (by simpa using heq) hne
      | cons c more =>
        obtain ⟨rfl, htext⟩ := List.cons.inj heq
        have hclosed : ']' ∈ '[' :: token.text := by
          rw [show '[' :: token.text = more ++ opening ++ [] from htext]
          simp [h.bracket_mem]
        exact absurd hclosed (by simp [hin])

/-- Brackets that open no link are closed before the next link opens. -/
theorem bracket_mem_of_textAtStart?_eq_none {rest before text after : Text}
    (h : textAtStart? (opening ++ rest) = none) (hne : text ≠ []) (htext : ']' ∉ text)
    (hline : opening ++ rest = before ++ opening ++ text ++ closing ++ after) : ']' ∈ before := by
  by_contra hbefore
  have hprefix : opening <+: before ++ opening ++ text := by
    refine List.prefix_of_prefix_length_le (List.prefix_append opening rest) ?_ (by simp; omega)
    rw [hline, List.append_assoc (before ++ opening ++ text)]
    exact List.prefix_append _ _
  obtain ⟨inner, hinner⟩ := hprefix
  have hsome : textAtStart? (opening ++ rest) = some inner := by
    refine textAtStart?_eq_some_iff.mpr ⟨?_, ?_, after, by rw [hinner, hline]⟩
    · rintro rfl
      have hlengths := congrArg List.length hinner
      have hpos := List.length_pos_of_ne_nil hne
      simp at hlengths
      omega
    · have hfree : ']' ∉ opening ++ inner := by
        rw [hinner]
        simp [hbefore, htext, opening]
      exact fun hmem => hfree (List.mem_append_right _ hmem)
  rw [h] at hsome
  cases hsome

/-- When brackets before a word open no link, the links of the line start behind the word. -/
theorem lt_col_of_textAtStart?_eq_none {word after : Text} {col : Nat} {token : Token}
    (hword : ']' ∉ word) (h : textAtStart? (opening ++ (word ++ after)) = none)
    (htoken : token ∈ tokensFrom 0 col (opening ++ (word ++ after))) :
    col + 2 + width word < token.col := by
  obtain ⟨before, rest, -, hline, hcol, hne, hin, -, -⟩ := exists_of_mem_tokensFrom htoken
  have hclosed := bracket_mem_of_textAtStart?_eq_none h hne hin hline
  have hfree : ']' ∉ opening ++ word := by simp [opening, hword]
  have hsplit : (opening ++ word) ++ after =
      before ++ (opening ++ token.text ++ closing ++ rest) := by simpa using hline
  rcases List.append_eq_append_iff.mp hsplit with ⟨more, rfl, -⟩ | ⟨more, hmore, -⟩
  · have hmore : ']' ∈ more := (List.mem_append.mp hclosed).resolve_left hfree
    obtain ⟨c, more, rfl⟩ := List.exists_cons_of_ne_nil (List.ne_nil_of_mem hmore)
    have hpos := units_pos c
    simp only [hcol, width_append, width_opening, width]
    omega
  · exact absurd (hmore ▸ List.mem_append_left more hclosed) hfree

/-- A word behind brackets that open a link starts the text of this link. -/
theorem prefix_of_textAtStart? {word after inner : Text} (hword : ']' ∉ word)
    (h : textAtStart? (opening ++ (word ++ after)) = some inner) : word <+: inner := by
  obtain ⟨-, -, more, hline⟩ := textAtStart?_eq_some_iff.mp h
  have hsplit : word ++ after = inner ++ (closing ++ more) := by simpa [opening] using hline
  rcases List.append_eq_append_iff.mp hsplit with ⟨rest, rfl, -⟩ | ⟨rest, rfl, hrest⟩
  · exact List.prefix_append word rest
  · cases rest with
    | nil => simp
    | cons c rest =>
      obtain ⟨rfl, -⟩ := List.cons.inj hrest
      exact absurd (by simp) hword

/-- Behind a word, the link around the cursor is the one that opens right before the word. -/
theorem containing?_behind_word {before word : Text} {found : List Token}
    (hlead : LeadsTo 0 0 before found) (hword : ']' ∉ word) (after : Text) (row : Nat) :
    containing? (before ++ opening ++ word ++ after) row (width before + 2 + width word) =
      (textAtStart? (opening ++ (word ++ after))).map fun inner =>
        ⟨inner, .onLine row (width before + 2) (width before + 2 + width inner)⟩ := by
  cases hstart : textAtStart? (opening ++ (word ++ after)) with
  | some inner =>
    obtain ⟨hne, hin, more, hmore⟩ := textAtStart?_eq_some_iff.mp hstart
    have hline : before ++ opening ++ word ++ after =
        before ++ opening ++ inner ++ closing ++ more := by
      simpa using congrArg (before ++ ·) hmore
    obtain ⟨rest, rfl⟩ := prefix_of_textAtStart? hword hstart
    rw [hline, containing?_of_leadsTo hlead hne hin (by omega) (by rw [width_append]; omega)]
    rfl
  | none =>
    have hscan := hlead.scan (word ++ after)
    rw [Nat.zero_add, ← List.append_assoc] at hscan
    simp only [containing?, tokens, hscan, Option.map_none, Option.map_eq_none_iff,
      List.find?_eq_none, List.mem_append, Bool.and_eq_true, decide_eq_true_eq, not_and]
    rintro token (htoken | htoken)
    · have := hlead.ends token htoken
      omega
    · have := lt_col_of_textAtStart?_eq_none hword hstart htoken
      omega

/-- The last opening brackets are those before a word without an opening bracket. -/
theorem cutAfterOpening?_append {word : Text} (h : '[' ∉ word) (before : Text) :
    cutAfterOpening? (before ++ opening ++ word) = some (before ++ opening, word) := by
  have hnone {text : Text} (htext : '[' ∉ text) : cutAfterOpening? text = none := by
    induction text with
    | nil => rfl
    | cons c rest ih =>
      obtain ⟨hc, hrest⟩ := not_or.mp (List.mem_cons.not.mp htext)
      simp [cutAfterOpening?, ih hrest, opening, hc]
  induction before with
  | nil =>
    have hsecond : cutAfterOpening? ('[' :: word) = none := by
      cases word with
      | nil => rfl
      | cons c rest =>
        obtain ⟨hc, -⟩ := not_or.mp (List.mem_cons.not.mp h)
        rw [cutAfterOpening?, hnone h]
        simp [opening, hc]
    rw [show [] ++ opening ++ word = '[' :: '[' :: word from rfl, cutAfterOpening?, hsecond]
    simp [opening]
  | cons c before ih =>
    rw [List.cons_append, List.cons_append, cutAfterOpening?, ih]

/-- Brackets that close do not occur in a text without such a bracket. -/
theorem containsText_closing {text : Text} (h : ']' ∉ text) :
    containsText closing text = false := by
  induction text with
  | nil => rfl
  | cons c rest ih =>
    obtain ⟨hc, hrest⟩ := not_or.mp (List.mem_cons.not.mp h)
    have hstart : closing.isPrefixOf (c :: rest) = false := by
      simp [closing, List.isPrefixOf, hc]
    rw [containsText, hstart, ih hrest, Bool.or_false]

/-- A line is cut at its columns behind a word. -/
theorem cutAtCol_behind_word (before word after : Text) :
    cutAtCol (width before + 2 + width word) (before ++ opening ++ word ++ after) =
      (before ++ opening ++ word, after) := by
  have hwidth : width (before ++ opening ++ word) = width before + 2 + width word := by
    rw [width_append, width_append, width_opening]
  rw [← hwidth]
  exact cutAtCol_width _ after

/-- A word without an opening bracket that ends with one is no word at all. -/
theorem eq_nil_of_opening_suffix {before word : Text} (hopen : '[' ∉ word)
    (h : opening <:+ before ++ opening ++ word) : word = [] := by
  by_contra hne
  obtain ⟨init, last, rfl⟩ := (List.eq_nil_or_concat' word).resolve_left hne
  obtain ⟨rest, hrest⟩ := h
  have hends : (rest ++ ['[']) ++ ['['] = (before ++ opening ++ init) ++ [last] := by
    simpa [opening] using hrest
  obtain rfl : '[' = last := by simpa using (List.append_inj' hends rfl).2
  exact hopen (by simp)

/-- The link behind a word that is typed after brackets, with nothing open before them, has a text
that starts with the word, and its range starts behind the brackets. -/
theorem exists_atOrOpen?_eq {before word : Text} (hbefore : Settled before) (hopen : '[' ∉ word)
    (hclose : ']' ∉ word) (after : Text) (row : Nat) :
    ∃ text stop, atOrOpen? (before ++ opening ++ word ++ after) row
        (width before + 2 + width word) = some ⟨text, .onLine row (width before + 2) stop⟩ ∧
      word <+: text := by
  obtain ⟨found, hlead⟩ := exists_leadsTo_of_settled hbefore
  have hinside := containing?_behind_word hlead hclose after row
  cases hstart : textAtStart? (opening ++ (word ++ after)) with
  | some inner =>
    rw [hstart, Option.map_some] at hinside
    exact ⟨_, _, by rw [atOrOpen?, at?, hinside, Option.some_or, Option.some_or],
      prefix_of_textAtStart? hclose hstart⟩
  | none =>
    rw [hstart, Option.map_none] at hinside
    have hcut := cutAtCol_behind_word before word after
    rw [atOrOpen?, at?, hinside, Option.none_or]
    cases hempty : empty? (before ++ opening ++ word ++ after) row
        (width before + 2 + width word) with
    | some link =>
      simp only [empty?, hcut, Option.ite_none_right_eq_some, Option.some.injEq] at hempty
      obtain ⟨⟨hsuffix, -⟩, rfl⟩ := hempty
      obtain rfl := eq_nil_of_opening_suffix hopen (List.isSuffixOf_iff_suffix.mp hsuffix)
      exact ⟨_, _, by rw [Option.some_or]; rfl, List.nil_prefix⟩
    | none =>
      rw [Option.none_or, open?]
      simp only [hcut, cutAfterOpening?_append hopen, containsText_closing hclose]
      have hwidth : width (before ++ opening) = width before + 2 := width_append before opening
      rw [hwidth]
      exact ⟨_, _, rfl, List.prefix_rfl⟩

/-- Behind a word that is typed after brackets, with nothing open before them, there is a link. It
starts behind the brackets, and its text starts with the word, whatever the line goes on with. -/
theorem atOrOpen?_of_settled {before word : Text} (hbefore : Settled before) (hopen : '[' ∉ word)
    (hclose : ']' ∉ word) (after : Text) (row : Nat) :
    ∃ link, atOrOpen? (before ++ opening ++ word ++ after) row (width before + 2 + width word) =
        some link ∧
      link.range.start = ⟨row, width before + 2⟩ ∧ word <+: link.text := by
  obtain ⟨text, stop, hlink, hword⟩ := exists_atOrOpen?_eq hbefore hopen hclose after row
  exact ⟨_, hlink, rfl, hword⟩

/-- New brackets before an older link run into it, and the text of the link goes on to its end; a
character of two units and a closed link stand before them. -/
theorem atOrOpen?_of_settled_before_link :
    let before := "[[a]] 😀".toList
    Settled before ∧
      atOrOpen? (before ++ opening ++ "ap".toList ++ " [[b]]".toList) 0 12 =
        some ⟨"ap [[b".toList, .onLine 0 10 16⟩ ∧
      ∃ link, atOrOpen? (before ++ opening ++ "ap".toList ++ " [[b]]".toList) 0 12 = some link ∧
        link.range.start = ⟨0, 10⟩ ∧ "ap".toList <+: link.text := by
  intro before
  have hbefore : Settled before := by decide
  exact ⟨hbefore, by decide, atOrOpen?_of_settled hbefore (by decide) (by decide) _ 0⟩

end LinkedNotes.Link
