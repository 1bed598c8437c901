import LinkedNotes.Proofs.Note.Normal

/-!
# Hyphens of slugs

A slug has the letters and digits of its title, and hyphens that show where something else stood
between two of them. Main statement: there is one hyphen between two neighbours exactly if something
else stood there, none at the ends and never two in a row, and a slug is its own slug. Which
characters are letters or digits, and what lower case does to them, is outside this module.
-/

namespace LinkedNotes.Note

open Text

/-- Whether a text has the letters and digits of a source, with one hyphen for what stood between
two of them. -/
structure IsSlugOf (source text : Text) : Prop where
  /-- The letters and digits are those of the source, in their order. -/
  filter_eq : text.filter isAlphanumeric = source.filter isAlphanumeric
  /-- All else is hyphens. -/
  of_mem : ∀ c ∈ text, isAlphanumeric c = true ∨ c = '-'
  /-- Two letters or digits with none between them in the source have a hyphen between them if
  anything stood there, and are next to each other if not. -/
  between : ∀ {before gap after : Text} {a b : Char}, source = before ++ a :: (gap ++ b :: after) →
    isAlphanumeric a = true → isAlphanumeric b = true →
    (∀ c ∈ gap, isAlphanumeric c = false) →
    ∃ left right, text = left ++ a :: ((if gap = [] then [] else ['-']) ++ b :: right) ∧
      left.filter isAlphanumeric = before.filter isAlphanumeric ∧
      right.filter isAlphanumeric = after.filter isAlphanumeric
  /-- No hyphen comes first. -/
  head_ne : text.head? ≠ some '-'
  /-- No hyphen comes last. -/
  getLast_ne : text.getLast? ≠ some '-'
  /-- No two hyphens stand in a row. -/
  single : ¬['-', '-'] <:+: text

variable {started pending : Bool} {c : Char}

/-- A hyphen is no letter. -/
theorem isAlphanumeric_hyphen : isAlphanumeric '-' = false := by
  decide +kernel

/-! ## One step -/

/-- A letter or digit goes into the slug, behind a hyphen if something else stood before it. -/
theorem slugFrom_cons_of_pos (h : isAlphanumeric c = true) (started pending : Bool)
    (rest : Text) : slugFrom started pending (c :: rest) =
      (if started && pending then ['-'] else []) ++ c :: slugFrom true false rest := by
  rw [slugFrom, if_pos h]
  split <;> rfl

/-- Anything else is only remembered. -/
theorem slugFrom_cons_of_neg (h : isAlphanumeric c = false) (started pending : Bool)
    (rest : Text) : slugFrom started pending (c :: rest) = slugFrom started true rest := by
  rw [slugFrom, h, if_neg Bool.false_ne_true]

/-! ## A whole text -/

/-- The letters and digits of a slug are those of the text. -/
theorem filter_isAlphanumeric_slugFrom (started pending : Bool) (text : Text) :
    (slugFrom started pending text).filter isAlphanumeric = text.filter isAlphanumeric := by
  rw [← filter_slugFrom started pending text]
  refine List.filter_congr fun c hc => ?_
  rcases of_mem_slugFrom hc with h | rfl
  · rw [h, isSeparator_of_isAlphanumeric h, Bool.not_false]
  · exact isAlphanumeric_hyphen

/-- What follows a letter or digit does not depend on what stood before it. -/
theorem slugFrom_append_cons (h : isAlphanumeric c = true) (before rest : Text) :
    slugFrom started pending (before ++ c :: rest) =
      slugFrom started pending (before ++ [c]) ++ slugFrom true false rest := by
  induction before generalizing started pending with
  | nil =>
    rw [List.nil_append, List.nil_append, slugFrom_cons_of_pos h, slugFrom_cons_of_pos h]
    simp [slugFrom]
  | cons first before ih =>
    rw [List.cons_append, List.cons_append]
    cases hfirst : isAlphanumeric first with
    | true =>
      rw [slugFrom_cons_of_pos hfirst, slugFrom_cons_of_pos hfirst, ih, List.append_assoc,
        List.cons_append]
    | false => rw [slugFrom_cons_of_neg hfirst, slugFrom_cons_of_neg hfirst, ih]

/-- A letter or digit at the end of a text is at the end of the slug. -/
theorem exists_slugFrom_concat (h : isAlphanumeric c = true) (started pending : Bool)
    (before : Text) :
    ∃ left, slugFrom started pending (before ++ [c]) = left ++ [c] ∧
      left.filter isAlphanumeric = before.filter isAlphanumeric := by
  have hlast : ∃ left, slugFrom started pending (before ++ [c]) = left ++ [c] := by
    induction before generalizing started pending with
    | nil =>
      rw [List.nil_append, slugFrom_cons_of_pos h]
      exact ⟨_, rfl⟩
    | cons first before ih =>
      rw [List.cons_append]
      cases hfirst : isAlphanumeric first with
      | true =>
        obtain ⟨left, hleft⟩ := ih true false
        rw [slugFrom_cons_of_pos hfirst, hleft, ← List.cons_append, ← List.append_assoc]
        exact ⟨_, rfl⟩
      | false =>
        rw [slugFrom_cons_of_neg hfirst]
        exact ih started true
  obtain ⟨left, hleft⟩ := hlast
  refine ⟨left, hleft, ?_⟩
  have hfilter := filter_isAlphanumeric_slugFrom started pending (before ++ [c])
  rw [hleft, List.filter_append, List.filter_append] at hfilter
  exact List.append_cancel_right hfilter

/-- After a letter or digit, anything else before the next one becomes a hyphen. -/
theorem slugFrom_gap {gap : Text} (hgap : ∀ d ∈ gap, isAlphanumeric d = false)
    (h : isAlphanumeric c = true) (rest : Text) :
    slugFrom true false (gap ++ c :: rest) =
      (if gap = [] then [] else ['-']) ++ c :: slugFrom true false rest := by
  have hpending : ∀ gap : Text, (∀ d ∈ gap, isAlphanumeric d = false) →
      slugFrom true true (gap ++ c :: rest) = '-' :: c :: slugFrom true false rest := by
    intro gap hgap
    induction gap with
    | nil => exact slugFrom_cons_of_pos h true true rest
    | cons first gap ih =>
      obtain ⟨hfirst, hmore⟩ := List.forall_mem_cons.mp hgap
      rw [List.cons_append, slugFrom_cons_of_neg hfirst, ih hmore]
  cases gap with
  | nil => exact slugFrom_cons_of_pos h true false rest
  | cons first gap =>
    obtain ⟨hfirst, hmore⟩ := List.forall_mem_cons.mp hgap
    rw [List.cons_append, slugFrom_cons_of_neg hfirst, hpending gap hmore,
      if_neg (List.cons_ne_nil first gap), List.singleton_append]

/-- A slug starts with a letter or digit. -/
theorem head?_slugFrom (pending : Bool) (text : Text) :
    ∀ d ∈ (slugFrom false pending text).head?, isAlphanumeric d = true := by
  induction text generalizing pending with
  | nil => exact fun d hd => nomatch hd
  | cons first rest ih =>
    cases hfirst : isAlphanumeric first with
    | true =>
      rw [slugFrom_cons_of_pos hfirst]
      intro d hd
      obtain rfl : first = d := Option.some.inj hd
      exact hfirst
    | false =>
      rw [slugFrom_cons_of_neg hfirst]
      exact ih true

/-- A slug ends with a letter or digit. -/
theorem getLast?_slugFrom (started pending : Bool) (text : Text) :
    ∀ d ∈ (slugFrom started pending text).getLast?, isAlphanumeric d = true := by
  induction text generalizing started pending with
  | nil => exact fun d hd => nomatch hd
  | cons first rest ih =>
    cases hfirst : isAlphanumeric first with
    | true =>
      rw [slugFrom_cons_of_pos hfirst, List.getLast?_append_of_ne_nil _ (List.cons_ne_nil _ _)]
      intro d hd
      rw [List.getLast?_cons] at hd
      cases hlast : (slugFrom true false rest).getLast? with
      | none =>
        rw [hlast] at hd
        obtain rfl : first = d := Option.some.inj hd
        exact hfirst
      | some e =>
        rw [hlast] at hd
        exact ih true false d (hlast.trans hd)
    | false =>
      rw [slugFrom_cons_of_neg hfirst]
      exact ih started true

/-- Of two characters next to each other in a slug, one is a letter or digit. -/
theorem isChain_slugFrom (started pending : Bool) (text : Text) :
    (slugFrom started pending text).IsChain
      fun d e => isAlphanumeric d = true ∨ isAlphanumeric e = true := by
  induction text generalizing started pending with
  | nil => exact .nil
  | cons first rest ih =>
    cases hfirst : isAlphanumeric first with
    | true =>
      have hchain : (first :: slugFrom true false rest).IsChain
          fun d e => isAlphanumeric d = true ∨ isAlphanumeric e = true :=
        List.isChain_cons.mpr ⟨fun _ _ => .inl hfirst, ih true false⟩
      rw [slugFrom_cons_of_pos hfirst]
      split
      · exact List.isChain_cons_cons.mpr ⟨.inr hfirst, hchain⟩
      · exact hchain
    | false =>
      rw [slugFrom_cons_of_neg hfirst]
      exact ih started true

/-- A slug is its own slug. -/
theorem slugFrom_slugFrom (started pending : Bool) (text : Text) :
    slugFrom started false (slugFrom started pending text) = slugFrom started pending text := by
  induction text generalizing started pending with
  | nil => rfl
  | cons first rest ih =>
    cases hfirst : isAlphanumeric first with
    | true =>
      rw [slugFrom_cons_of_pos hfirst]
      split
      · next hboth =>
        -- The hyphen is remembered until the letter behind it comes.
        obtain ⟨rfl, -⟩ := Bool.and_eq_true_iff.mp hboth
        rw [List.singleton_append, slugFrom_cons_of_neg isAlphanumeric_hyphen,
          slugFrom_cons_of_pos hfirst, ih true false]
        rfl
      · rw [List.nil_append, slugFrom_cons_of_pos hfirst, ih true false, Bool.and_false,
          if_neg Bool.false_ne_true, List.nil_append]
    | false =>
      rw [slugFrom_cons_of_neg hfirst]
      exact ih started true

/-- What a text becomes has its letters and digits, with hyphens between them. -/
theorem isSlugOf_slugFrom (source : Text) : IsSlugOf source (slugFrom false false source) where
  filter_eq := filter_isAlphanumeric_slugFrom false false source
  of_mem := fun _ => of_mem_slugFrom
  between := fun {before gap after a b} hsource ha hb hgap => by
    obtain ⟨left, hleft, hbefore⟩ := exists_slugFrom_concat ha false false before
    refine ⟨left, slugFrom true false after, ?_, hbefore,
      filter_isAlphanumeric_slugFrom true false after⟩
    rw [hsource, slugFrom_append_cons ha, hleft, slugFrom_gap hgap hb, List.append_assoc,
      List.singleton_append]
  head_ne := fun hhead => by
    have hhyphen := head?_slugFrom false source '-' hhead
    rw [isAlphanumeric_hyphen] at hhyphen
    cases hhyphen
  getLast_ne := fun hlast => by
    have hhyphen := getLast?_slugFrom false false source '-' hlast
    rw [isAlphanumeric_hyphen] at hhyphen
    cases hhyphen
  single := fun hinfix => by
    have hchain := List.IsChain.infix (isChain_slugFrom false false source) hinfix
    rw [List.isChain_cons_cons, isAlphanumeric_hyphen] at hchain
    rcases hchain.1 with h | h <;> cases h

/-- Runs between letters become one hyphen, those at the ends vanish. -/
example : slug "Hello (World)!".toList true = "hello-world".toList := by decide +kernel

/-- The slug of a title has the letters and digits of the title, or of its lower case if asked for,
in their order, and one hyphen between two neighbours exactly if something else stood between them.
It is its own slug. -/
theorem slug_hyphenated (title : Text) (lowercase : Bool) :
    IsSlugOf (if lowercase then lower title else title) (slug title lowercase) ∧
      slug (slug title lowercase) lowercase = slug title lowercase := by
  refine ⟨isSlugOf_slugFrom _, ?_⟩
  -- A slug of a lower case has nothing left to put into lower case.
  have hsource : (if lowercase then lower (slug title lowercase) else slug title lowercase) =
      slug title lowercase := by
    cases lowercase with
    | false => rfl
    | true => exact lowerAfter_of_isLower (fun c => isLower_of_mem_slug) []
  rw [slug, hsource]
  exact slugFrom_slugFrom false false _

end LinkedNotes.Note
