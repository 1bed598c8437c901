import LinkedNotes.Link.Token
import LinkedNotes.Note.Stamp
import LinkedNotes.Note.Template
import LinkedNotes.Proofs.Text.Blank
import LinkedNotes.Settings.Basic

/-!
# What the usual templates give

A title may itself bring the placeholder of a time stamp, which is then filled in as well. Main
statements: the usual link template gives the name of the note between brackets, and the name has
no blank at its ends and only characters of the title and of the stamp. Templates that a user has
changed are outside this module.
-/

namespace LinkedNotes

namespace Text

section Replace

variable {needle value : Text}

/-- Replacing brings in no characters but those of the value. -/
theorem of_mem_replaceFrom {skip : Nat} {text : Text} {c : Char}
    (h : c ∈ replaceFrom needle value skip text) : c ∈ value ∨ c ∈ text := by
  fun_induction replaceFrom needle value skip text with
  | case1 => exact .inr h
  | case2 skip first rest ih => exact (ih h).imp_right (List.mem_cons_of_mem first)
  | case3 first rest _ ih =>
    rcases List.mem_append.mp h with h | h
    · exact .inl h
    · exact (ih h).imp_right (List.mem_cons_of_mem first)
  | case4 first rest _ ih =>
    rcases List.mem_cons.mp h with rfl | h
    · exact .inr List.mem_cons_self
    · exact (ih h).imp_right (List.mem_cons_of_mem first)

/-- A needle does not reach into a tail with whose characters it has nothing in common. -/
theorem isPrefixOf_append_of_disjoint {tail : Text} (h : ∀ c ∈ tail, c ∉ needle) (text : Text) :
    needle.isPrefixOf (text ++ tail) = needle.isPrefixOf text := by
  induction needle generalizing text with
  | nil => rfl
  | cons first needle ih =>
    have hrest : ∀ c ∈ tail, c ∉ needle := fun c hc hmem => h c hc (List.mem_cons_of_mem _ hmem)
    cases text with
    | nil =>
      cases tail with
      | nil => rfl
      | cons c tail =>
        have hne : first ≠ c := fun heq => h c List.mem_cons_self (heq ▸ List.mem_cons_self)
        simp [List.isPrefixOf, hne]
    | cons c text => simp only [List.cons_append, List.isPrefixOf, ih hrest]

/-- Such a tail stays as it is. -/
theorem replaceFrom_append_of_disjoint {tail : Text} (hneedle : needle ≠ [])
    (h : ∀ c ∈ tail, c ∉ needle) {skip : Nat} {text : Text} (hskip : skip ≤ text.length) :
    replaceFrom needle value skip (text ++ tail) = replaceFrom needle value skip text ++ tail := by
  fun_induction replaceFrom needle value skip text with
  | case1 skip =>
    obtain rfl : skip = 0 := by simpa using hskip
    induction tail with
    | nil => rfl
    | cons c tail ih =>
      have hnone : needle.isPrefixOf (c :: tail) = false := by
        rw [← List.nil_append (c :: tail), isPrefixOf_append_of_disjoint h]
        cases needle with
        | nil => exact absurd rfl hneedle
        | cons first needle => rfl
      have hrest := ih fun d hd => h d (List.mem_cons_of_mem c hd)
      simp only [List.nil_append] at hrest ⊢
      rw [replaceFrom, hnone, if_neg Bool.false_ne_true, hrest]
  | case2 skip first rest ih =>
    rw [List.cons_append, replaceFrom, ih (by simpa using hskip)]
  | case3 first rest hmatch ih =>
    have hlength : needle.length - 1 ≤ rest.length := by
      have hle := (List.isPrefixOf_iff_prefix.mp hmatch).length_le
      rw [List.length_cons] at hle
      omega
    rw [← isPrefixOf_append_of_disjoint h, List.cons_append] at hmatch
    rw [List.cons_append, replaceFrom, if_pos hmatch, ih hlength, List.append_assoc]
  | case4 first rest hmatch ih =>
    rw [← isPrefixOf_append_of_disjoint h, List.cons_append] at hmatch
    rw [List.cons_append, replaceFrom, if_neg hmatch, ih (Nat.zero_le _), List.cons_append]

/-- Nothing but an empty text becomes empty. -/
theorem eq_nil_of_replaceAll_eq_nil (hvalue : value ≠ []) {text : Text}
    (h : replaceAll needle value text = []) : text = [] := by
  cases text with
  | nil => rfl
  | cons c rest =>
    rw [replaceAll, replaceFrom] at h
    split at h
    · exact absurd (List.append_eq_nil_iff.mp h).1 hvalue
    · cases h

end Replace

/-- Nothing is dropped from the end of a text that ends with another character. -/
theorem dropEndWhile_eq_self {p : Char → Bool} {text : Text}
    (h : ∀ c ∈ text.getLast?, p c = false) : dropEndWhile p text = text := by
  rcases List.eq_nil_or_concat text with rfl | ⟨init, c, rfl⟩
  · rfl
  · have hc : p c = false := h c (by simp)
    rw [List.concat_eq_append, dropEndWhile, List.reverse_append, List.reverse_singleton,
      List.singleton_append, List.dropWhile_cons_of_neg (by simp [hc])]
    simp

/-- Whether a text neither starts nor ends with a blank. -/
structure Solid (text : Text) : Prop where
  /-- It starts with no blank. -/
  first : ∀ c ∈ text.head?, isBlank c = false
  /-- It ends with no blank. -/
  last : ∀ c ∈ text.getLast?, isBlank c = false

/-- There is nothing to trim then. -/
theorem Solid.trim_eq {text : Text} (h : Solid text) : trim text = text := by
  have hstart : trimStart text = text := by
    cases text with
    | nil => rfl
    | cons c rest => exact List.dropWhile_cons_of_neg (by simp [h.first c rfl])
  rw [trim, hstart, trimEnd, dropEndWhile_eq_self h.last]

/-- What is left after trimming neither starts nor ends with a blank. -/
theorem solid_trim (text : Text) : Solid (trim text) where
  first c hc := by
    have hprefix : trim text <+: trimStart text := by
      rw [trim, trimEnd, dropEndWhile, ← List.reverse_suffix, List.reverse_reverse]
      exact List.dropWhile_suffix _
    obtain ⟨rest, hrest⟩ := hprefix
    have hhead := List.head?_dropWhile_not isBlank text
    rw [← trimStart, ← hrest, List.head?_append, Option.mem_def.mp hc] at hhead
    simpa using hhead
  last c hc := by
    rw [trim, trimEnd, dropEndWhile, List.getLast?_reverse] at hc
    have hhead := List.head?_dropWhile_not isBlank (trimStart text).reverse
    rw [Option.mem_def.mp hc] at hhead
    simpa using hhead

/-- Replacing by a text that does not end with a blank brings none to the end. -/
theorem last_replaceFrom {needle value : Text} (hvalue : Solid value) (hne : value ≠ [])
    {skip : Nat} {text : Text} (h : ∀ c ∈ text.getLast?, isBlank c = false) :
    ∀ c ∈ (replaceFrom needle value skip text).getLast?, isBlank c = false := by
  have hcons : ∀ (first : Char) (rest : Text), (∀ c ∈ (first :: rest).getLast?, isBlank c = false) →
      ∀ c ∈ rest.getLast?, isBlank c = false := fun first rest h c hc => by
    refine h c ?_
    rw [List.getLast?_cons, Option.mem_def.mp hc]
    rfl
  fun_induction replaceFrom needle value skip text with
  | case1 => exact h
  | case2 skip first rest ih => exact ih (hcons first rest h)
  | case3 first rest _ ih =>
    intro c hc
    rw [List.getLast?_append] at hc
    rcases Option.or_eq_some_iff.mp hc with hlast | ⟨-, hlast⟩
    · exact ih (hcons first rest h) c hlast
    · exact hvalue.last c hlast
  | case4 first rest _ ih =>
    intro c hc
    rw [List.getLast?_cons] at hc
    cases hlast : (replaceFrom needle value 0 rest).getLast? with
    | some d =>
      rw [hlast] at hc
      cases hc
      exact ih (hcons first rest h) _ hlast
    | none =>
      obtain rfl : rest = [] :=
        eq_nil_of_replaceAll_eq_nil hne (List.getLast?_eq_none_iff.mp hlast)
      cases hc
      exact h _ rfl

/-- Replacing by a text without blanks at its ends brings none to the ends. -/
theorem Solid.replaceAll {needle value text : Text} (h : Solid text) (hvalue : Solid value)
    (hne : value ≠ []) : Solid (replaceAll needle value text) where
  first c hc := by
    cases text with
    | nil => cases hc
    | cons first rest =>
      rw [Text.replaceAll, replaceFrom] at hc
      split at hc
      · rw [List.head?_append_of_ne_nil _ hne] at hc
        exact hvalue.first c hc
      · exact h.first c hc
  last := last_replaceFrom hvalue hne h.last

/-- A number has only digits. -/
theorem isDigit_of_mem_padded {width n : Nat} {c : Char} (h : c ∈ padded width n) :
    c.isDigit = true := by
  rcases List.mem_append.mp h with h | h
  · rw [List.eq_of_mem_replicate h]
    rfl
  · exact Nat.isDigit_of_mem_toDigits (by decide) (by decide) h

/-- A number has a digit. -/
theorem padded_ne_nil (width n : Nat) : padded width n ≠ [] := by
  simp [padded, Nat.toDigits_ne_nil]

/-- A digit is no blank. -/
theorem isBlank_of_isDigit {c : Char} (h : c.isDigit = true) : isBlank c = false := by
  rw [Bool.eq_false_iff]
  intro hblank
  have halphanumeric : isAlphanumeric c = true :=
    isAlphanumeric_of_isAlphanum (by simp [Char.isAlphanum, h])
  rw [isAlphanumeric_of_isBlank hblank] at halphanumeric
  cases halphanumeric

end Text

namespace Stamp

open Text

/-- The usual time stamp is a date and a time. -/
theorem format_usual (now : Moment) :
    format now ({} : NewNoteSettings).stampFormat = dateText now ++ [' '] ++ minuteText now := by
  have hformat : format now ({} : NewNoteSettings).stampFormat =
      padded 4 now.year ++ '-' :: (padded 2 now.month ++ '-' :: (padded 2 now.day ++
        ' ' :: (padded 2 now.hour ++ ':' :: (padded 2 now.minute ++ [])))) := rfl
  rw [hformat]
  simp [dateText, minuteText]

/-- It has only digits, hyphens, a colon and a space. -/
theorem of_mem_usual {now : Moment} {c : Char}
    (h : c ∈ format now ({} : NewNoteSettings).stampFormat) :
    c.isDigit = true ∨ c ∈ ['-', ':', ' '] := by
  rw [format_usual] at h
  simp only [dateText, minuteText, List.mem_append, List.mem_singleton] at h
  rcases h with (((((h | rfl) | h) | rfl) | h) | rfl) | ((h | rfl) | h)
  all_goals first | exact .inl (isDigit_of_mem_padded h) | exact .inr (by decide)

/-- It neither starts nor ends with a blank. -/
theorem solid_usual (now : Moment) : Solid (format now ({} : NewNoteSettings).stampFormat) where
  first c hc := by
    rw [format_usual, dateText, List.append_assoc, List.append_assoc, List.append_assoc,
      List.append_assoc, List.append_assoc, List.head?_append_of_ne_nil _ (padded_ne_nil _ _)] at hc
    exact isBlank_of_isDigit (isDigit_of_mem_padded (List.mem_of_mem_head? hc))
  last c hc := by
    rw [format_usual, minuteText, ← List.append_assoc,
      List.getLast?_append_of_ne_nil _ (padded_ne_nil _ _)] at hc
    exact isBlank_of_isDigit (isDigit_of_mem_padded (List.mem_of_getLast? hc))

/-- It is not empty. -/
theorem usual_ne_nil (now : Moment) : format now ({} : NewNoteSettings).stampFormat ≠ [] := by
  rw [format_usual]
  simp

end Stamp

namespace Template

open Text

/-- The name of a new note: its title, where the time stamp may be filled in. -/
def nameOf (title : Text) (now : Moment) : Text :=
  render namePlaceholder (trim title) (Stamp.format now ({} : NewNoteSettings).stampFormat)

/-- Only the time stamp is left to be filled into a name. -/
theorem render_namePlaceholder (title stamp : Text) :
    render namePlaceholder title stamp = replaceAll stampPlaceholder stamp title := by
  have hname : replaceAll namePlaceholder title namePlaceholder = title ++ [] := rfl
  rw [render, hname, List.append_nil]

/-- The placeholder of a time stamp, character by character. -/
theorem stampPlaceholder_eq :
    stampPlaceholder = ['$', '\x7b', 't', 'i', 'm', 'e', 's', 't', 'a', 'm', 'p', '\x7d'] :=
  rfl

/-- No bracket of a link is part of it. -/
theorem bracket_notMem_stampPlaceholder : ∀ c ∈ Link.closing, c ∉ stampPlaceholder := by
  simp [stampPlaceholder_eq, Link.closing]

/-- A link to a new note has its name between the brackets. -/
theorem render_link (title stamp : Text) :
    render ({} : NewNoteSettings).linkTemplate title stamp =
      Link.opening ++ render namePlaceholder title stamp ++ Link.closing := by
  have hname : replaceAll namePlaceholder title ({} : NewNoteSettings).linkTemplate =
      Link.opening ++ (title ++ Link.closing) := rfl
  have hopening : replaceAll stampPlaceholder stamp (Link.opening ++ (title ++ Link.closing)) =
      Link.opening ++ replaceAll stampPlaceholder stamp (title ++ Link.closing) := rfl
  have hneedle : stampPlaceholder ≠ [] := by simp [stampPlaceholder_eq]
  have hclosing : replaceAll stampPlaceholder stamp (title ++ Link.closing) =
      replaceAll stampPlaceholder stamp title ++ Link.closing :=
    replaceFrom_append_of_disjoint hneedle bracket_notMem_stampPlaceholder (Nat.zero_le _)
  rw [render_namePlaceholder, render, hname, hopening, hclosing, List.append_assoc]

/-- A name has no blanks around it. -/
theorem trim_nameOf (title : Text) (now : Moment) : trim (nameOf title now) = nameOf title now := by
  rw [nameOf, render_namePlaceholder]
  exact ((solid_trim title).replaceAll (Stamp.solid_usual now) (Stamp.usual_ne_nil now)).trim_eq

/-- A name has no bracket that closes, if its title has none. -/
theorem bracket_notMem_nameOf {title : Text} (h : ']' ∉ title) (now : Moment) :
    ']' ∉ nameOf title now := by
  rw [nameOf, render_namePlaceholder]
  intro hmem
  rcases of_mem_replaceFrom hmem with hstamp | htitle
  · rcases Stamp.of_mem_usual hstamp with hdigit | hmark
    · exact absurd hdigit (by decide)
    · exact absurd hmark (by decide)
  · exact h (mem_of_mem_trim htitle)

end Template
end LinkedNotes
