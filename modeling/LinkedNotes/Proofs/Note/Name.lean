import LinkedNotes.Note.Name
import LinkedNotes.Proofs.Text.Lowercase
import Mathlib

/-!
# Extensions and normal forms of names

A note extension is cut off behind the last slash of a name, and a normal form shows how long that
last part of the name was. Main statement: two names with equal normal forms have last parts of the
same weight, while every extension that is cut off makes the last part lighter.
-/

namespace LinkedNotes.Note

open Text

/-- Cutting off an extension takes characters that spell one away. -/
theorem exists_of_stripReversed?_eq_some {reversed rest : Text} {endings : List Text}
    (h : stripReversed? reversed endings = some rest) :
    ∃ extension ∈ endings, ∃ ending, reversed = ending ++ rest ∧
      ending.map foldCase = extension.reverse ++ ['.'] := by
  induction endings with
  | nil => simp [stripReversed?] at h
  | cons extension more ih =>
    simp only [stripReversed?] at h
    split at h
    · next hend =>
      cases h
      exact ⟨extension, by simp, _, (List.take_append_drop _ _).symm, hend⟩
    · obtain ⟨other, hmem, found⟩ := ih h
      exact ⟨other, by simp [hmem], found⟩

/-- A name keeps its text or loses an ending that spells a dot and a note extension. -/
theorem stripExtension_eq_or (name : Text) :
    stripExtension name = name ∨ ∃ extension ∈ extensions, ∃ ending,
      name = stripExtension name ++ ending ∧ ending.map foldCase = '.' :: extension := by
  unfold stripExtension
  split
  · next rest hrest =>
    obtain ⟨extension, hmem, ending, hname, hend⟩ := exists_of_stripReversed?_eq_some hrest
    refine .inr ⟨extension, hmem, ending.reverse, ?_, ?_⟩
    · rw [← List.reverse_append, ← hname, List.reverse_reverse]
    · rw [List.map_reverse, hend]
      simp
  · exact .inl rfl

/-- Cutting off an extension adds nothing. -/
theorem mem_of_mem_stripExtension {name : Text} {c : Char} (h : c ∈ stripExtension name) :
    c ∈ name := by
  rcases stripExtension_eq_or name with heq | ⟨_, _, ending, heq, _⟩
  · rwa [heq] at h
  · rw [heq]
    exact List.mem_append_left ending h

/-- Whether an extension is cut off is decided behind the last slash. -/
theorem stripReversed?_append {dir : Text} (hdir : dir = [] ∨ dir.head? = some '/') (name : Text)
    {endings : List Text} (h : ∀ extension ∈ endings, '/' ∉ extension) :
    stripReversed? (name ++ dir) endings = (stripReversed? name endings).map (· ++ dir) := by
  induction endings with
  | nil => rfl
  | cons extension more ih =>
    have hmore := ih fun other hother => h other (by simp [hother])
    have hslash : '/' ∉ extension := h extension (by simp)
    by_cases hlen : (extension.reverse ++ ['.']).length ≤ name.length
    · simp only [stripReversed?, List.take_append_of_le_length hlen,
        List.drop_append_of_le_length hlen, hmore]
      split <;> rfl
    · -- The ending would have to reach over the slash.
      have hshort : ((name.take (extension.reverse ++ ['.']).length).map foldCase) ≠
          extension.reverse ++ ['.'] := fun he => by
        have := congrArg List.length he
        simp only [List.length_map, List.length_take] at this
        omega
      have hlong : (((name ++ dir).take (extension.reverse ++ ['.']).length).map foldCase) ≠
          extension.reverse ++ ['.'] := fun he => by
        rcases hdir with rfl | hhead
        · rw [List.append_nil] at he
          exact hshort he
        · obtain ⟨dir, rfl⟩ := List.head?_eq_some_iff.mp hhead
          have hmem : '/' ∈ ((name ++ '/' :: dir).take
              (extension.reverse ++ ['.']).length).map foldCase := by
            refine List.mem_map.mpr ⟨'/', ?_, by decide⟩
            rw [List.take_append, List.mem_append]
            right
            obtain ⟨n, hn⟩ : ∃ n, (extension.reverse ++ ['.']).length - name.length = n + 1 :=
              ⟨(extension.reverse ++ ['.']).length - name.length - 1, by omega⟩
            rw [hn, List.take_succ_cons]
            exact List.mem_cons_self
          rw [he] at hmem
          simp [hslash] at hmem
      simp only [stripReversed?, if_neg hshort, if_neg hlong, hmore]

/-- An extension is cut off the last part of a path. -/
theorem stripExtension_append {dir : Text} (hdir : dir = [] ∨ dir.getLast? = some '/')
    (name : Text) : stripExtension (dir ++ name) = dir ++ stripExtension name := by
  have hstart : dir.reverse = [] ∨ dir.reverse.head? = some '/' := by simpa using hdir
  have hfree : ∀ extension ∈ extensions, '/' ∉ extension := by decide
  have hrev := stripReversed?_append hstart name.reverse hfree
  simp only [stripExtension, List.reverse_append, hrev]
  cases stripReversed? name.reverse extensions <;> simp

/-- The text after the last slash. -/
def lastPiece (text : Text) : Text :=
  (text.reverse.takeWhile (· ≠ '/')).reverse

/-- A text without slashes is its own last piece. -/
theorem lastPiece_of_notMem {text : Text} (h : '/' ∉ text) : lastPiece text = text := by
  rw [lastPiece, List.takeWhile_eq_self_iff.mpr, List.reverse_reverse]
  intro c hc
  simpa using fun he : c = '/' => h (by simpa [he] using hc)

/-- More text before does not make the last piece shorter. -/
theorem length_lastPiece_le (before text : Text) :
    (lastPiece text).length ≤ (lastPiece (before ++ text)).length := by
  simp only [lastPiece, List.reverse_append, List.length_reverse, List.takeWhile_append]
  split
  · next hall =>
    simp only [List.length_append, List.length_reverse] at hall ⊢
    omega
  · exact Nat.le_refl _

/-- The last piece of a path is what follows its directory. -/
theorem lastPiece_append {dir name : Text} (hdir : dir = [] ∨ dir.getLast? = some '/')
    (hname : '/' ∉ name) : lastPiece (dir ++ name) = name := by
  rcases hdir with rfl | hlast
  · exact lastPiece_of_notMem hname
  · obtain ⟨init, rfl⟩ := List.getLast?_eq_some_iff.mp hlast
    have hstop : ∀ c ∈ name.reverse, decide (c ≠ '/') = true := fun c hc => by
      simpa using fun he : c = '/' => hname (by simpa [he] using hc)
    rw [lastPiece, List.reverse_append, List.takeWhile_append_of_pos hstop]
    simp

/-- A last piece has no slash. -/
theorem slash_notMem_lastPiece (text : Text) : '/' ∉ lastPiece text := by
  intro h
  simpa using List.mem_takeWhile_imp (List.mem_reverse.mp h)

@[simp]
theorem lastPiece_lastPiece (text : Text) : lastPiece (lastPiece text) = lastPiece text :=
  lastPiece_of_notMem (slash_notMem_lastPiece text)

/-- A text is its directory followed by its last piece. -/
theorem exists_dir_lastPiece (text : Text) :
    ∃ dir, text = dir ++ lastPiece text ∧ (dir = [] ∨ dir.getLast? = some '/') := by
  have hsplit := List.takeWhile_append_dropWhile (p := fun c : Char => c ≠ '/')
    (l := text.reverse)
  refine ⟨(text.reverse.dropWhile (· ≠ '/')).reverse, ?_, ?_⟩
  · rw [lastPiece, ← List.reverse_append, hsplit, List.reverse_reverse]
  · rw [List.getLast?_reverse, List.reverse_eq_nil_iff]
    cases hd : text.reverse.dropWhile (fun c : Char => c ≠ '/') with
    | nil => exact .inl rfl
    | cons c rest =>
      have := List.head?_dropWhile_not (fun c : Char => decide (c ≠ '/')) text.reverse
      rw [hd] at this
      simpa using this

/-- A directory before a text does not matter for the last piece. -/
theorem lastPiece_dir_append {dir : Text} (hdir : dir = [] ∨ dir.getLast? = some '/')
    (text : Text) : lastPiece (dir ++ text) = lastPiece text := by
  obtain ⟨before, htext, hbefore⟩ := exists_dir_lastPiece text
  conv_lhs => rw [htext, ← List.append_assoc]
  refine lastPiece_append ?_ (slash_notMem_lastPiece text)
  rcases hbefore with rfl | hlast
  · rwa [List.append_nil]
  · right
    rw [List.getLast?_append, hlast, Option.some_or]

/-- The last piece of a name without its extension is its last piece without the extension. -/
theorem lastPiece_stripExtension (name : Text) :
    lastPiece (stripExtension name) = stripExtension (lastPiece name) := by
  obtain ⟨dir, hname, hdir⟩ := exists_dir_lastPiece name
  have hpiece := slash_notMem_lastPiece name
  have hfree : '/' ∉ stripExtension (lastPiece name) := by
    rcases stripExtension_eq_or (lastPiece name) with h | ⟨_, _, ending, h, _⟩
    · rwa [h]
    · intro hmem
      exact hpiece (by rw [h]; simp [hmem])
  calc lastPiece (stripExtension name)
      = lastPiece (stripExtension (dir ++ lastPiece name)) := by rw [← hname]
    _ = lastPiece (dir ++ stripExtension (lastPiece name)) := by rw [stripExtension_append hdir]
    _ = stripExtension (lastPiece name) := lastPiece_append hdir hfree

/-- Number of characters that a character leaves in a normal form. -/
def keptLength (c : Char) : Nat :=
  if c = 'Σ' then 1 else ((lowerChar c).filter (!isSeparator ·)).length

/-- Number of characters that a text leaves in a normal form. -/
def weight (text : Text) : Nat :=
  (text.map keptLength).sum

@[simp]
theorem weight_append (s t : Text) : weight (s ++ t) = weight s + weight t := by
  simp [weight]

/-- The length of the lower case of a text without its separators. -/
theorem length_filter_lowerAfter (before text : Text) :
    ((lowerAfter before text).filter (!isSeparator ·)).length = weight text := by
  induction text generalizing before with
  | nil => rfl
  | cons c rest ih =>
    have hsigma : ∀ final : Bool,
        ([if final then 'ς' else 'σ'].filter (!isSeparator ·)).length = 1 := by decide
    rw [lowerAfter, List.filter_append, List.length_append, ih, weight, weight, List.map_cons,
      List.sum_cons, keptLength]
    split
    · rw [hsigma]
    · rfl

/-- Separators and case do not touch the slashes of a text. -/
theorem slash_mem_filter_lowerAfter (before text : Text) :
    '/' ∈ (lowerAfter before text).filter (!isSeparator ·) ↔ '/' ∈ text := by
  rw [List.mem_filter, slash_mem_lowerAfter]
  have : isSeparator '/' = false := by decide
  simp [this]

/-- The last piece of a lower case without separators comes from the last piece of the text. -/
theorem length_lastPiece_filter_lowerAfter (before text : Text) :
    (lastPiece ((lowerAfter before text).filter (!isSeparator ·))).length =
      weight (lastPiece text) := by
  obtain ⟨dir, htext, hdir⟩ := exists_dir_lastPiece text
  have hpiece := slash_notMem_lastPiece text
  rcases hdir with rfl | hlast
  · rw [List.nil_append] at htext
    rw [lastPiece_of_notMem, length_filter_lowerAfter, ← htext]
    rw [slash_mem_filter_lowerAfter, htext]
    exact hpiece
  · obtain ⟨init, rfl⟩ := List.getLast?_eq_some_iff.mp hlast
    obtain ⟨lowered, h⟩ := exists_lowerAfter_append before init ('/' :: lastPiece text)
    have hslash : lowerAfter (init.reverse ++ before) ('/' :: lastPiece text) =
        '/' :: lowerAfter ('/' :: (init.reverse ++ before)) (lastPiece text) := by
      have : lowerChar '/' = ['/'] := by decide +kernel
      simp [lowerAfter, this]
    have hkept : (!isSeparator '/') = true := by decide
    have hall : lowerAfter before text = lowered ++
        '/' :: lowerAfter ('/' :: (init.reverse ++ before)) (lastPiece text) := by
      rw [← hslash, ← h]
      conv_lhs => rw [htext]
      simp
    rw [hall, List.filter_append, List.filter_cons, if_pos hkept, ← List.singleton_append,
      ← List.append_assoc, lastPiece_append (by simp), length_filter_lowerAfter]
    rwa [slash_mem_filter_lowerAfter]

/-- Equal normal forms come from names whose last pieces have one weight. -/
theorem weight_eq_of_normalize_eq {s t : Text} (h : normalize s = normalize t) :
    weight (stripExtension (lastPiece s)) = weight (stripExtension (lastPiece t)) := by
  have hlen := congrArg (fun text : Text => (lastPiece text).length) h
  simpa only [normalize, lower, length_lastPiece_filter_lowerAfter, lastPiece_stripExtension]
    using hlen

/-- A character is its lower case or the capital letter of it. -/
theorem eq_toLower_or (c : Char) : c = c.toLower ∨ c = c.toLower.toUpper := by
  by_cases h : c.isUpper
  · right
    rw [Char.toUpper_toLower_eq_toUpper,
      Char.toUpper_eq_of_not_isLower (Char.not_isLower_of_isUpper h)]
  · exact .inl (Char.toLower_eq_of_not_isUpper h).symm

/-- A letter that starts an extension leaves a character in a normal form. -/
theorem keptLength_of_foldCase {c : Char} (h : foldCase c ∈ ['m', 'f', 't']) :
    keptLength c = 1 := by
  unfold foldCase at h
  split at h
  · simp at h
  · simp only [List.mem_cons, List.not_mem_nil, or_false] at h
    rcases eq_toLower_or c with hc | hc <;> rw [hc] <;> rcases h with h | h | h <;> rw [h] <;>
      decide +kernel

/-- A name is heavier than what is left of it after its extension. -/
theorem weight_stripExtension_lt {name : Text} (h : stripExtension name ≠ name) :
    weight (stripExtension name) < weight name := by
  have hfirst : ∀ extension ∈ extensions, extension.head? ∈ ['m', 'f', 't'].map some := by
    decide
  rcases stripExtension_eq_or name with he | ⟨extension, hmem, ending, hname, hend⟩
  · exact absurd he h
  · obtain ⟨c, hc, hhead⟩ := List.mem_map.mp (hfirst extension hmem)
    obtain ⟨more, rfl⟩ := List.head?_eq_some_iff.mp hhead.symm
    -- The ending is a dot, a letter that leaves something, and more.
    rcases ending with _ | ⟨dot, _ | ⟨letter, ending⟩⟩
    · simp at hend
    · simp at hend
    · simp only [List.map_cons, List.cons.injEq] at hend
      have hone := keptLength_of_foldCase (c := letter) (by rw [hend.2.1]; exact hc)
      have hw := congrArg weight hname
      rw [weight_append] at hw
      simp only [weight, List.map_cons, List.sum_cons, hone] at hw ⊢
      omega

/-- A character that extensions are spelled with is the one it stands for, or its capital. -/
theorem eq_or_of_foldCase {c d : Char} (h : foldCase c = d) (hk : d ≠ 'k') :
    c = d ∨ c = d.toUpper := by
  unfold foldCase at h
  split at h
  · exact absurd h.symm hk
  · rw [← h]
    exact eq_toLower_or c

/-- Only a dot stands for a dot. -/
theorem eq_dot_of_foldCase {c : Char} (h : foldCase c = '.') : c = '.' := by
  have hupper : '.'.toUpper = '.' := by decide
  simpa [hupper] using eq_or_of_foldCase h (by decide)

/-- An extension ends in a letter, so neither blanks nor what ends a path or a label. -/
theorem exists_last_of_stripExtension_ne {name : Text} (h : stripExtension name ≠ name) :
    ∃ init c, name = init ++ [c] ∧ isBlank c = false ∧ c ∉ ['/', '.', ')'] := by
  have hlast : ∀ extension ∈ extensions, ('.' :: extension).getLast? ∈
      ['d', 'n', 'x', 't'].map some := by decide
  rcases stripExtension_eq_or name with he | ⟨extension, hmem, ending, hname, hend⟩
  · exact absurd he h
  · obtain ⟨d, hd, hget⟩ := List.mem_map.mp (hlast extension hmem)
    symm at hget
    rw [← hend, List.getLast?_map, Option.map_eq_some_iff] at hget
    obtain ⟨c, hc, hfold⟩ := hget
    obtain ⟨init, hinit⟩ := List.getLast?_eq_some_iff.mp hc
    refine ⟨stripExtension name ++ init, c, ?_, ?_⟩
    · rw [List.append_assoc, ← hinit, ← hname]
    · simp only [List.mem_cons, List.not_mem_nil, or_false] at hd
      have hk : d ≠ 'k' := by
        rcases hd with rfl | rfl | rfl | rfl <;> decide
      rcases eq_or_of_foldCase hfold hk with rfl | rfl <;>
        rcases hd with rfl | rfl | rfl | rfl <;> decide

/-- A name that keeps an extension when it loses one has one. -/
theorem stripExtension_ne_of_twice {name : Text}
    (h : stripExtension (stripExtension name) ≠ stripExtension name) :
    stripExtension name ≠ name :=
  fun heq => h (by rw [heq, heq])

/-- A name with an extension has one behind its last slash. -/
theorem stripExtension_lastPiece_ne {name : Text} (h : stripExtension name ≠ name) :
    stripExtension (lastPiece name) ≠ lastPiece name := by
  obtain ⟨dir, hname, hdir⟩ := exists_dir_lastPiece name
  intro he
  have := stripExtension_append hdir (lastPiece name)
  rw [← hname, he, ← hname] at this
  exact h this

/-- Cutting off an extension makes a name shorter. -/
theorem length_stripExtension_lt {name : Text} (h : stripExtension name ≠ name) :
    (stripExtension name).length < name.length := by
  rcases stripExtension_eq_or name with he | ⟨extension, -, ending, hname, hend⟩
  · exact absurd he h
  · have hlen := congrArg List.length hend
    have := congrArg List.length hname
    simp only [List.length_map, List.length_cons, List.length_append] at hlen this
    omega

/-- A name with an extension has a dot more than what is left of it. -/
theorem count_dot_stripExtension_lt {name : Text} (h : stripExtension name ≠ name) :
    (stripExtension name).count '.' < name.count '.' := by
  rcases stripExtension_eq_or name with he | ⟨extension, -, ending, hname, hend⟩
  · exact absurd he h
  · cases ending with
    | nil => cases hend
    | cons c rest =>
      rw [List.map_cons, List.cons.injEq] at hend
      rw [eq_dot_of_foldCase hend.1] at hname
      have := congrArg (List.count '.') hname
      rw [List.count_append, List.count_cons_self] at this
      omega

/-- An extension has no dot in it. -/
theorem dot_notMem_of_mem_extensions {extension : Text}
    (h : extension.map foldCase ∈ extensions) : '.' ∉ extension := by
  have hfree : ∀ extension ∈ extensions, '.' ∉ extension := by decide
  exact fun hmem => hfree _ h (List.mem_map.mpr ⟨'.', hmem, by decide⟩)

/-- What spells an extension is cut off. -/
theorem stripReversed?_ne_none {reversed extension : Text} {endings : List Text}
    (hmem : extension ∈ endings)
    (h : (reversed.take (extension.reverse ++ ['.']).length).map foldCase =
      extension.reverse ++ ['.']) : stripReversed? reversed endings ≠ none := by
  induction endings with
  | nil => exact absurd hmem List.not_mem_nil
  | cons other more ih =>
    simp only [stripReversed?]
    split
    · exact Option.some_ne_none _
    · next hother =>
      rcases List.mem_cons.mp hmem with rfl | hmem
      · exact absurd h hother
      · exact ih hmem

/-- What follows the first dot of a text is determined by the text. -/
theorem eq_of_append_dot_eq {s s' t t' : Text} (hs : '.' ∉ s) (hs' : '.' ∉ s')
    (h : s ++ '.' :: t = s' ++ '.' :: t') : t = t' := by
  have hdrop : ∀ {s : Text}, '.' ∉ s → ∀ t,
      (s ++ '.' :: t).dropWhile (· ≠ '.') = '.' :: t := fun hs t => by
    rw [List.dropWhile_append_of_pos fun c hc => by simpa using fun heq : c = '.' => hs (heq ▸ hc)]
    rfl
  have heq := congrArg (List.dropWhile (· ≠ '.')) h
  rw [hdrop hs, hdrop hs'] at heq
  exact (List.cons.inj heq).2

/-- A name that is given an extension is left when this is cut off. -/
theorem stripExtension_append_extension {extension : Text}
    (h : extension.map foldCase ∈ extensions) (name : Text) :
    stripExtension (name ++ '.' :: extension) = name := by
  have hreverse : (name ++ '.' :: extension).reverse =
      (extension.reverse ++ ['.']) ++ name.reverse := by simp
  have hspelled : ((name ++ '.' :: extension).reverse.take
      ((extension.map foldCase).reverse ++ ['.']).length).map foldCase =
        (extension.map foldCase).reverse ++ ['.'] := by
    have hlength : ((extension.map foldCase).reverse ++ ['.']).length =
        (extension.reverse ++ ['.']).length := by simp
    have hdot : foldCase '.' = '.' := by decide
    rw [hreverse, hlength, List.take_left, List.map_append, List.map_reverse, List.map_singleton,
      hdot]
  unfold stripExtension
  split
  · next rest hrest =>
    -- Both extensions start at the last dot.
    obtain ⟨other, hother, ending, heq, hend⟩ := exists_of_stripReversed?_eq_some hrest
    obtain ⟨letters, dot, rfl, hletters, hdot⟩ := List.map_eq_append_iff.mp hend
    obtain ⟨d, rfl, hd⟩ := List.map_eq_singleton_iff.mp hdot
    obtain rfl := eq_dot_of_foldCase hd
    have hletters : letters.reverse.map foldCase ∈ extensions := by
      rwa [List.map_reverse, hletters, List.reverse_reverse]
    have hfree := dot_notMem_of_mem_extensions h
    have hfree' := dot_notMem_of_mem_extensions hletters
    rw [List.mem_reverse] at hfree'
    rw [hreverse, List.append_assoc, List.append_assoc] at heq
    have hname : name.reverse = rest :=
      eq_of_append_dot_eq (by rwa [List.mem_reverse]) hfree' heq
    rw [← hname, List.reverse_reverse]
  · next hnone => exact absurd hnone (stripReversed?_ne_none h hspelled)

/-- A name without its extension has the same normal form, if that is no extension's either. -/
theorem normalize_stripExtension {name : Text}
    (h : stripExtension (stripExtension name) = stripExtension name) :
    normalize (stripExtension name) = normalize name := by
  simp only [normalize, h]

/-- A name that keeps an extension when it loses one has another normal form than before, and so
has any name with the same last piece. -/
theorem normalize_ne_of_stripExtension_ne {name other : Text}
    (h : stripExtension (stripExtension name) ≠ stripExtension name)
    (hpiece : lastPiece other = lastPiece name) :
    normalize other ≠ normalize (stripExtension name) := by
  intro he
  have heq := weight_eq_of_normalize_eq he
  have hlt := weight_stripExtension_lt (stripExtension_lastPiece_ne h)
  rw [lastPiece_stripExtension] at hlt heq
  rw [hpiece] at heq
  omega

end LinkedNotes.Note
