import LinkedNotes.Yaml.Tree
import Mathlib.Data.List.Chain
import Mathlib.Data.List.TakeWhile

/-!
# Texts in lines

What a writer looks for in a text before it chooses how to write it, and how it indents the lines of
a text.
-/

namespace LinkedNotes.Yaml

/-- A text up to where a test fails first, and the rest. -/
theorem exists_append_of_test (test : Char → Bool) (text : Text) :
    ∃ start rest, text = start ++ rest ∧ (∀ c ∈ start, test c = true) ∧
      ∀ c ∈ rest.head?, test c = false := by
  refine ⟨text.takeWhile test, text.dropWhile test, List.takeWhile_append_dropWhile.symm,
    fun c hc => List.mem_takeWhile_imp hc, fun c hc => ?_⟩
  have hhead := List.head?_dropWhile_not test text
  rw [Option.mem_def.mp hc] at hhead
  simpa using hhead

/-- A text that starts with a space: its spaces, and the rest. -/
theorem exists_eq_spaces_append {text : Text} (h : text.head? = some ' ') :
    ∃ n rest, text = Tree.spaces (n + 1) ++ rest ∧ rest.head? ≠ some ' ' := by
  obtain ⟨blanks, rest, rfl, hblanks, hrest⟩ := exists_append_of_test (· == ' ') text
  have hother : rest.head? ≠ some ' ' := fun hhead => by simpa using hrest ' ' hhead
  cases blanks with
  | nil => exact absurd h hother
  | cons c blanks =>
    have hspaces : c :: blanks = Tree.spaces (blanks.length + 1) :=
      List.eq_replicate_iff.mpr ⟨rfl, fun d hd => by simpa using hblanks d hd⟩
    exact ⟨blanks.length, rest, by rw [← hspaces], hother⟩

namespace Tree

/-- Two neighbours that pass two tests are missing when one test excludes the other along the text.
-/
theorem hasPair_eq_false_iff {first second : Char → Bool} {text : Text} :
    hasPair first second text = false ↔
      text.IsChain fun a b => first a = true → second b = false := by
  induction text with
  | nil => simp [hasPair]
  | cons a rest ih =>
    cases rest with
    | nil => simp [hasPair]
    | cons b rest =>
      rw [List.isChain_cons_cons, ← ih]
      simp [hasPair, imp_iff_not_or]

/-- A text needs no escapes when its characters are printable and no space comes before a line
break. -/
theorem needsEscapes_eq_false_iff {text : Text} :
    needsEscapes text = false ↔ (∀ c ∈ text, isPrintable c = true) ∧
      text.IsChain fun a b => isSpace a = true → isBreak b = false := by
  rw [needsEscapes, Bool.or_eq_false_iff, hasPair_eq_false_iff]
  simp

section Indented

variable {n : Nat} {fresh : Bool} {rest : Text}

@[simp]
theorem indented_nil : indented n fresh [] = [] := by
  rw [indented]

/-- Inside of a line a text begins as it does. -/
theorem head?_indented (n : Nat) (text : Text) : (indented n false text).head? = text.head? := by
  cases text with
  | nil => rw [indented_nil]
  | cons c text =>
    rw [indented]
    split <;> rfl

/-- Indentation adds to the length. -/
theorem length_le_indented (n : Nat) (fresh : Bool) (text : Text) :
    text.length ≤ (indented n fresh text).length := by
  induction text generalizing fresh with
  | nil => exact Nat.zero_le _
  | cons c text ih =>
    have hfresh := ih true
    have hinside := ih false
    rw [indented]
    split_ifs <;> simp only [List.length_cons, List.length_append] <;> omega

/-- Inside of a line nothing is put in. -/
theorem indented_append_of_unbroken {word : Text} (h : ∀ c ∈ word, isBreak c = false) :
    indented n false (word ++ rest) = word ++ indented n false rest := by
  induction word with
  | nil => rfl
  | cons c word ih =>
    have hword := ih fun d hd => h d (List.mem_cons_of_mem _ hd)
    rw [List.cons_append, indented, h c List.mem_cons_self, hword]
    rfl

/-- After line breaks a line begins. -/
theorem indented_append_of_breaks {c : Char} {breaks : Text}
    (h : ∀ d ∈ c :: breaks, isBreak d = true) :
    indented n fresh (c :: breaks ++ rest) = c :: breaks ++ indented n true rest := by
  induction breaks generalizing c fresh with
  | nil =>
    rw [List.singleton_append, indented, if_pos (h c List.mem_cons_self)]
    rfl
  | cons d breaks ih =>
    have hbreaks : indented n true (d :: breaks ++ rest) = d :: breaks ++ indented n true rest :=
      ih fun e he => h e (List.mem_cons_of_mem _ he)
    rw [List.cons_append, indented, if_pos (h c List.mem_cons_self), hbreaks]
    rfl

/-- Indentation is put in front of a line. -/
theorem indented_of_line {text : Text} (hne : text ≠ [])
    (h : ∀ c ∈ text.head?, isBreak c = false) :
    indented n true text = spaces n ++ indented n false text := by
  cases text with
  | nil => exact absurd rfl hne
  | cons c text =>
    have hc : isBreak c = false := h c rfl
    rw [indented, indented, hc]
    rfl

/-- Line breaks and what comes after them. -/
theorem indented_append {breaks : Text} (hbreaks : ∀ c ∈ breaks, isBreak c = true)
    (hne : rest ≠ []) (hhead : ∀ c ∈ rest.head?, isBreak c = false) :
    indented n true (breaks ++ rest) = breaks ++ (spaces n ++ indented n false rest) := by
  rw [← indented_of_line hne hhead]
  cases breaks with
  | nil => rfl
  | cons c breaks => exact indented_append_of_breaks hbreaks

end Indented

end Tree
end LinkedNotes.Yaml
