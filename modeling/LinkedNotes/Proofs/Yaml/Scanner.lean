import LinkedNotes.Proofs.Yaml.Written
import LinkedNotes.Yaml.Token

/-!
# Steps of the scanner

A scanner reads one token after the other. Main definitions: `Comes`, that it comes from one place
to another; `Begins`, that a line of the document begins; `Awaits`, that a value may follow in its
line. The steps that the document of a tree takes lead from one of them to another.
-/

namespace LinkedNotes.Yaml

open Tree Scalar

namespace Scanner

/-! ## Runs -/

/-- The scanner right before the next token. -/
def prepared? (scanner : Scanner) : Option Scanner :=
  (scanner.skipBlank (scanner.cursor.rest.length + 1)).dropStaleKeys?.map fun scanner =>
    scanner.unroll (some scanner.cursor.col)

/-- A scanner at the end of a text ends what is open. -/
theorem run?_of_nil {scanner start : Scanner} {fuel : Nat} (h : scanner.prepared? = some start)
    (hrest : start.cursor.rest = []) :
    run? (fuel + 1) scanner = (start.unroll none).dropKey? := by
  obtain ⟨stale, hstale, rfl⟩ := Option.map_eq_some_iff.mp h
  have hnext : (stale.unroll (some stale.cursor.col)).cursor.next? = none := by
    rw [Cursor.next?, hrest]
    rfl
  rw [run?, hstale]
  simp [hnext]

/-- A scanner goes on behind the next token. -/
theorem run?_of_cons {scanner start next : Scanner} {fuel : Nat} {c : Char} {rest : Text}
    (h : scanner.prepared? = some start) (hrest : start.cursor.rest = c :: rest)
    (hfetch : start.fetch? c = some next) : run? (fuel + 1) scanner = run? fuel next := by
  obtain ⟨stale, hstale, rfl⟩ := Option.map_eq_some_iff.mp h
  have hnext : (stale.unroll (some stale.cursor.col)).cursor.next? = some c := by
    rw [Cursor.next?, hrest]
    rfl
  rw [run?, hstale]
  simp [hnext, hfetch]

/-- Whether a scanner comes to another one, with no more tokens on the way than characters. -/
def Comes (start stop : Scanner) : Prop :=
  ∃ n, n + stop.cursor.rest.length ≤ start.cursor.rest.length ∧
    ∀ fuel, run? (fuel + n) start = run? fuel stop

/-- A scanner comes to itself. -/
theorem Comes.refl (scanner : Scanner) : Comes scanner scanner :=
  ⟨0, by omega, fun _ => rfl⟩

/-- One way after the other. -/
theorem Comes.trans {start middle stop : Scanner} (h : Comes start middle)
    (h' : Comes middle stop) : Comes start stop := by
  obtain ⟨n, hn, hrun⟩ := h
  obtain ⟨m, hm, hrun'⟩ := h'
  refine ⟨m + n, by omega, fun fuel => ?_⟩
  rw [← Nat.add_assoc, hrun, hrun']

/-- A token leads on. -/
theorem Comes.of_fetch? {scanner start next : Scanner} {c : Char} {rest : Text}
    (h : scanner.prepared? = some start) (hrest : start.cursor.rest = c :: rest)
    (hfetch : start.fetch? c = some next)
    (hlength : next.cursor.rest.length < scanner.cursor.rest.length) : Comes scanner next :=
  ⟨1, by omega, fun _ => run?_of_cons h hrest hfetch⟩

/-! ## Blanks and places of keys -/

/-- Whether a text goes on with what is no blank, no line break and no comment. -/
def Visible (rest : Text) : Prop :=
  ∀ c ∈ rest.head?, isBlank c = false ∧ isBreak c = false ∧ c ≠ '#' ∧ c ≠ '\uFEFF'

/-- Spaces are passed over. -/
theorem skipBlank_spaces {scanner : Scanner} {fuel n : Nat} {rest : Text}
    (hrest : scanner.cursor.rest = spaces n ++ rest) (hvisible : Visible rest) :
    scanner.skipBlank (fuel + 1) =
      { scanner with cursor := scanner.cursor.advance (spaces n) } := by
  have hmark : scanner.cursor.sees '\uFEFF' = false := by
    rw [Cursor.sees, Cursor.next?, hrest, beq_eq_false_iff_ne]
    intro hhead
    cases n with
    | zero => exact (hvisible _ hhead).2.2.2 rfl
    | succ n => exact absurd (Option.some.inj hhead) (by decide)
  have hwhile (tabs : Bool) :
      scanner.cursor.rest.takeWhile (fun c => c == ' ' || (tabs && c == '\t')) = spaces n := by
    have hstop : rest.takeWhile (fun c => c == ' ' || (tabs && c == '\t')) = [] := by
      cases rest with
      | nil => rfl
      | cons c rest =>
        have hblank := (hvisible c rfl).1
        simp only [isBlank, Bool.or_eq_false_iff] at hblank
        simp [hblank.1, hblank.2]
    rw [hrest, List.takeWhile_append_of_pos fun c hc => by rw [of_mem_spaces hc]; rfl, hstop,
      List.append_nil]
  have hskip : scanner.cursor.skipMany n = scanner.cursor.advance (spaces n) := by
    rw [Cursor.advance_eq_skipMany fun c hc => isBreak_of_mem_spaces hc, length_spaces]
  have hafter := Cursor.rest_advance_of_eq hrest
  have hsign : (scanner.cursor.advance (spaces n)).sees '#' = false := by
    rw [Cursor.sees, Cursor.next?, hafter, beq_eq_false_iff_ne]
    exact fun hhead => (hvisible _ hhead).2.2.1 rfl
  have hbreak : (scanner.cursor.advance (spaces n)).next?.any isBreak = false := by
    rw [Cursor.next?, hafter]
    cases rest with
    | nil => rfl
    | cons c rest => exact (hvisible c rfl).2.1
  rw [skipBlank]
  simp [hmark, Cursor.skipWhile, hwhile, hskip, hsign, hbreak]

/-- A line break and the spaces behind it are passed over. -/
theorem skipBlank_line {scanner : Scanner} {fuel n : Nat} {rest : Text}
    (hflow : scanner.inFlow = false) (hrest : scanner.cursor.rest = '\n' :: (spaces n ++ rest))
    (hvisible : Visible rest) :
    scanner.skipBlank (fuel + 2) =
      { scanner with
        cursor := scanner.cursor.advance ('\n' :: spaces n), keyAllowed := true } := by
  have hnext : scanner.cursor.next? = some '\n' := by rw [Cursor.next?, hrest]; rfl
  have hbreak : scanner.cursor.skipBreak = scanner.cursor.advance ['\n'] := by
    rw [Cursor.skipBreak, Cursor.takeBreak_eq hrest (by decide) (by decide)]
  have hafter : (scanner.cursor.advance ['\n']).rest = spaces n ++ rest :=
    Cursor.rest_advance_of_eq hrest
  have hstay (tabs : Bool) :
      scanner.cursor.skipWhile (fun c => c == ' ' || (tabs && c == '\t')) = scanner.cursor := by
    have hnone : scanner.cursor.rest.takeWhile (fun c => c == ' ' || (tabs && c == '\t')) = [] := by
      rw [hrest]
      simp
    rw [Cursor.skipWhile, hnone]
    rfl
  have hline : scanner.skipBlank (fuel + 2) =
      ({ scanner with
        cursor := scanner.cursor.advance ['\n'], keyAllowed := true } : Scanner).skipBlank
          (fuel + 1) := by
    rw [skipBlank]
    simp [Cursor.sees, hnext, hstay, isBreak, hflow, hbreak]
  rw [hline, skipBlank_spaces hafter hvisible]
  rfl

/-- The place of a key that is on an earlier line, and needs no colon, is forgotten. -/
theorem dropStaleKeys?_of_line {scanner : Scanner} {key : Option KeyPlace}
    (hkeys : scanner.keys = [key])
    (hkey : ∀ place ∈ key, place.required = false ∧ place.cursor.line < scanner.cursor.line) :
    scanner.dropStaleKeys? = some { scanner with keys := [none] } := by
  cases key with
  | none => simp [dropStaleKeys?, hkeys]
  | some place =>
    obtain ⟨hrequired, hline⟩ := hkey place rfl
    simp [dropStaleKeys?, hkeys, hrequired, hline]

/-- The place of a key right before is kept. -/
theorem dropStaleKeys?_of_near {scanner : Scanner} {place : KeyPlace}
    (hkeys : scanner.keys = [some place]) (hline : place.cursor.line = scanner.cursor.line)
    (hindex : scanner.cursor.index ≤ place.cursor.index + keyLimit) :
    scanner.dropStaleKeys? = some scanner := by
  have hnear : ¬ (place.cursor.line < scanner.cursor.line ∨
      place.cursor.index + keyLimit < scanner.cursor.index) := by omega
  have hkept : ({ scanner with keys := [some place] } : Scanner) = scanner := by rw [← hkeys]
  simp [dropStaleKeys?, hkeys, hnear, hkept]

/-! ## Places between tokens -/

section Places

variable {scanner : Scanner} {col n : Nat} {rest : Text} {tokens : List Token} {indents : List Nat}
  {key : Option KeyPlace}

/-- With the place of one key no bracket is open. -/
theorem inFlow_of_keys (hkeys : scanner.keys = [key]) : scanner.inFlow = false := by
  rw [inFlow, hkeys]
  rfl

/-- Right in front of a token there is nothing to pass over. -/
theorem prepared?_of_visible (hrest : scanner.cursor.rest = rest) (hvisible : Visible rest)
    (hkept : scanner.dropStaleKeys? = some scanner)
    (hopen : scanner.unroll (some scanner.cursor.col) = scanner) :
    scanner.prepared? = some scanner := by
  have hblank : scanner.skipBlank (scanner.cursor.rest.length + 1) = scanner :=
    skipBlank_spaces (n := 0) hrest hvisible
  rw [prepared?, hblank, hkept, Option.map_some, hopen]

/-- Whether a scanner goes on, after blanks, with a text at a column, where a key may begin.
`indents` are the columns that are open; those right of the column have yet to end. -/
def Begins (scanner : Scanner) (col : Nat) (rest : Text) (tokens : List Token)
    (indents : List Nat) : Prop :=
  rest.length ≤ scanner.cursor.rest.length ∧ ∃ index line,
    scanner.prepared? =
      some (({ cursor := ⟨rest, index, line, col⟩, tokens, indents } : Scanner).unroll (some col))

/-- A line begins after a line break. -/
theorem begins_of_line (hrest : scanner.cursor.rest = '\n' :: (spaces n ++ rest))
    (hkeys : scanner.keys = [key])
    (hkey : ∀ place ∈ key, place.required = false ∧ place.cursor.line ≤ scanner.cursor.line)
    (hvisible : Visible rest) : Begins scanner n rest scanner.tokens scanner.indents := by
  have hlength : scanner.cursor.rest.length + 1 = n + rest.length + 2 := by
    rw [hrest, List.length_cons, List.length_append, length_spaces]
  have hafter : (scanner.cursor.advance ('\n' :: spaces n)).rest = rest :=
    Cursor.rest_advance_of_eq hrest
  have hcol : (scanner.cursor.advance (['\n'] ++ spaces n)).col = n :=
    Cursor.col_advance_spaces rfl scanner.cursor n
  have hline : scanner.cursor.line < (scanner.cursor.advance (['\n'] ++ spaces n)).line :=
    Cursor.line_lt_advance_append rfl scanner.cursor (spaces n)
  rw [List.singleton_append] at hcol hline
  refine ⟨by omega, (scanner.cursor.advance ('\n' :: spaces n)).index,
    (scanner.cursor.advance ('\n' :: spaces n)).line, ?_⟩
  have hstale : ({ scanner with
      cursor := scanner.cursor.advance ('\n' :: spaces n),
      keyAllowed := true } : Scanner).dropStaleKeys? =
        some { scanner with
          cursor := scanner.cursor.advance ('\n' :: spaces n), keyAllowed := true,
          keys := [none] } :=
    dropStaleKeys?_of_line hkeys fun place hplace =>
      ⟨(hkey place hplace).1, Nat.lt_of_le_of_lt (hkey place hplace).2 hline⟩
  rw [prepared?, hlength, skipBlank_line (inFlow_of_keys hkeys) hrest hvisible]
  generalize scanner.cursor.advance ('\n' :: spaces n) = place at hafter hcol hstale ⊢
  rw [hstale, Option.map_some, ← hafter, ← hcol]

/-- A line begins where a scanner stands at it. -/
theorem begins_of_place (hrest : scanner.cursor.rest = rest) (hallowed : scanner.keyAllowed = true)
    (hkeys : scanner.keys = [key])
    (hkey : ∀ place ∈ key, place.required = false ∧ place.cursor.line < scanner.cursor.line)
    (hvisible : Visible rest) :
    Begins scanner scanner.cursor.col rest scanner.tokens scanner.indents := by
  have hspaces : scanner.cursor.rest = spaces 0 ++ rest := hrest
  refine ⟨by rw [hrest], scanner.cursor.index, scanner.cursor.line, ?_⟩
  have hstay : ({ scanner with cursor := scanner.cursor.advance (spaces 0) } : Scanner) = scanner :=
    rfl
  rw [prepared?, skipBlank_spaces hspaces hvisible, hstay, dropStaleKeys?_of_line hkeys hkey,
    Option.map_some, ← hrest, hallowed]

/-- What is open right of the column where a line begins ends. -/
theorem Begins.close {indent : Nat} (h : Begins scanner col rest tokens (indent :: indents))
    (hcol : col < indent) : Begins scanner col rest (.blockEnd :: tokens) indents := by
  obtain ⟨hlength, index, line, hprepared⟩ := h
  refine ⟨hlength, index, line, ?_⟩
  have hended (n : Nat) : List.replicate n Token.blockEnd ++ Token.blockEnd :: tokens =
      Token.blockEnd :: (List.replicate n Token.blockEnd ++ tokens) := by
    rw [List.append_cons, ← List.replicate_succ', List.replicate_succ, List.cons_append]
  rw [hprepared]
  simp [unroll, inFlow, hcol, hended]

/-- What is open left of a column, or there, stays open. -/
theorem unroll_of_le (hopen : ∀ indent ∈ scanner.indents.head?, indent ≤ col) :
    scanner.unroll (some col) = scanner := by
  have hnone : scanner.indents.takeWhile (fun indent => decide (col < indent)) = [] := by
    cases hindents : scanner.indents with
    | nil => rfl
    | cons indent indents =>
      have hindent : ¬ col < indent := Nat.not_lt.mpr (hopen indent (by rw [hindents]; rfl))
      simp [hindent]
  simp [unroll, hnone]

/-- What is open left of the column where a line begins, or there, stays open. -/
theorem Begins.exists_prepared? (h : Begins scanner col rest tokens indents)
    (hopen : ∀ indent ∈ indents.head?, indent ≤ col) : ∃ index line,
    scanner.prepared? = some { cursor := ⟨rest, index, line, col⟩, tokens, indents } := by
  obtain ⟨-, index, line, hprepared⟩ := h
  refine ⟨index, line, ?_⟩
  rw [hprepared, unroll_of_le hopen]

/-- Whether a scanner is in a line that lists or maps something at an indentation, where what is
listed or mapped comes next. -/
structure Awaits (scanner : Scanner) (indent : Nat) (rest : Text) (tokens : List Token)
    (outer : List Nat) : Prop where
  /-- The text that follows. -/
  rest_eq : scanner.cursor.rest = rest
  /-- The tokens so far. -/
  tokens_eq : scanner.tokens = tokens
  /-- The columns that are open. -/
  indents_eq : scanner.indents = indent :: outer
  /-- No key has begun. -/
  keys_eq : scanner.keys = [none]
  /-- The indentation lies to the left. -/
  indent_lt : indent < scanner.cursor.col

variable {indent : Nat} {outer : List Nat}

/-- What is awaited may come in the next lines. -/
theorem Awaits.begins (h : Awaits scanner indent ('\n' :: (spaces n ++ rest)) tokens outer)
    (hvisible : Visible rest) : Begins scanner n rest tokens (indent :: outer) := by
  rw [← h.tokens_eq, ← h.indents_eq]
  exact begins_of_line h.rest_eq h.keys_eq (by simp) hvisible

/-- A space in front of what is awaited does not matter. -/
theorem Awaits.exists_prepared? (h : Awaits scanner indent (' ' :: rest) tokens outer)
    (hvisible : Visible rest) :
    ∃ start, scanner.prepared? = some start ∧ Awaits start indent rest tokens outer ∧
      start.cursor.rest.length < scanner.cursor.rest.length := by
  have hrest : scanner.cursor.rest = spaces 1 ++ rest := h.rest_eq
  have hcol : indent < (scanner.cursor.advance (spaces 1)).col := by
    rw [Cursor.col_advance fun c hc => isBreak_of_mem_spaces hc]
    exact Nat.lt_add_right _ h.indent_lt
  have hopen :
      ∀ column ∈ scanner.indents.head?, column ≤ (scanner.cursor.advance (spaces 1)).col := by
    rw [h.indents_eq]
    rintro column hcolumn
    obtain rfl := Option.some.inj hcolumn
    exact hcol.le
  have hafter := Cursor.rest_advance_of_eq hrest
  refine ⟨{ scanner with cursor := scanner.cursor.advance (spaces 1) }, ?_,
    ⟨hafter, h.tokens_eq, h.indents_eq, h.keys_eq, hcol⟩, ?_⟩
  rotate_left
  · show (scanner.cursor.advance (spaces 1)).rest.length < scanner.cursor.rest.length
    rw [hafter, h.rest_eq]
    exact Nat.lt_succ_self _
  have hstale :
      ({ scanner with cursor := scanner.cursor.advance (spaces 1) } : Scanner).dropStaleKeys? =
        some { scanner with cursor := scanner.cursor.advance (spaces 1), keys := [none] } :=
    dropStaleKeys?_of_line h.keys_eq (by simp)
  rw [prepared?, skipBlank_spaces hrest hvisible, hstale, Option.map_some, h.keys_eq]
  exact congrArg some (unroll_of_le hopen)

/-- What is awaited may be a key, but need not be one. -/
theorem Awaits.exists_saveKey? (h : Awaits scanner indent rest tokens outer) :
    ∃ key, scanner.saveKey? = some { scanner with keys := [key] } ∧
      ∀ place ∈ key, place.required = false ∧ place.cursor = scanner.cursor := by
  have hcol : indent ≠ scanner.cursor.col := h.indent_lt.ne
  cases hallowed : scanner.keyAllowed with
  | false =>
    refine ⟨none, ?_, by simp⟩
    have hsaved : scanner.saveKey? = some scanner := by simp [saveKey?, hallowed]
    rw [hsaved, ← hallowed, ← h.keys_eq]
  | true =>
    refine ⟨some ⟨false, scanner.tokens.length, scanner.cursor⟩, ?_, by simp⟩
    simp [saveKey?, hallowed, dropKey?, h.keys_eq, h.indents_eq, hcol, inFlow]

end Places

/-! ## Tokens -/

section Fetch

variable {scanner : Scanner} {c : Char} (hmark : scanner.cursor.atDocumentMark = false)
include hmark

/-- What starts like a plain text is read as one. -/
theorem fetch?_of_plain (hflow : scanner.inFlow = false) (hopener : c ∉ openers)
    (hblank : isBlank c = false) (hsign : c ∈ "?:-".toList → scanner.cursor.spaceAt 1 = false) :
    scanner.fetch? c = scanner.plainScalar? := by
  obtain ⟨hhyphens, hdots⟩ := Bool.or_eq_false_iff.mp hmark
  have hne (d : Char) (hd : d ∈ openers) : c ≠ d := fun heq => hopener (heq ▸ hd)
  have hsigns : isIndicator c = true → c = '-' ∨ c = '?' ∨ c = ':' := by
    have hall : "-?:,[]\x7b\x7d#&*!|>'\"%@`".toList.all
        (fun d => d ∈ openers ∨ d = '-' ∨ d = '?' ∨ d = ':') = true := by decide
    intro hc
    have hother := List.all_eq_true.mp hall c (of_decide_eq_true hc)
    exact (of_decide_eq_true hother).resolve_left hopener
  have hlast : ((!isIndicator c && !isBlank c) || c == '-' ||
      (!scanner.inFlow && (c == '?' || c == ':'))) = true := by
    cases hc : isIndicator c with
    | false => simp [hblank]
    | true => simpa [hflow, or_assoc] using hsigns hc
  have hspace (d : Char) (hd : d ∈ "?:-".toList) :
      (c == d && scanner.cursor.spaceAt 1) = false := by
    cases hc : c == d with
    | false => rfl
    | true => exact hsign (beq_iff_eq.mp hc ▸ hd)
  have hitem := hspace '-' (by decide)
  have hkey := hspace '?' (by decide)
  have hvalue := hspace ':' (by decide)
  have hother (d : Char) (hd : d ∈ openers) : (c == d) = false := beq_eq_false_iff_ne.mpr (hne d hd)
  rw [fetch?]
  simp only [hhyphens, hdots, hflow, hitem, hkey, hvalue, hother '%' (by decide),
    hother '[' (by decide), hother '\x7b' (by decide), hother ']' (by decide),
    hother '\x7d' (by decide), hother ',' (by decide), hother '*' (by decide),
    hother '&' (by decide), hother '!' (by decide), hother '|' (by decide), hother '>' (by decide),
    hother '\'' (by decide), hother '"' (by decide), Bool.false_or, Bool.and_false,
    Bool.false_and, Bool.false_eq_true, if_false]
  exact if_pos (by simpa [hflow] using hlast)

/-- A colon behind a key is read. -/
theorem fetch?_colon (hspace : scanner.cursor.spaceAt 1 = true) :
    scanner.fetch? ':' = scanner.value? := by
  obtain ⟨hhyphens, hdots⟩ := Bool.or_eq_false_iff.mp hmark
  simp [fetch?, hhyphens, hdots, hspace]

/-- A hyphen in front of an item is read. -/
theorem fetch?_hyphen (hspace : scanner.cursor.spaceAt 1 = true) :
    scanner.fetch? '-' = scanner.item? := by
  obtain ⟨hhyphens, hdots⟩ := Bool.or_eq_false_iff.mp hmark
  simp [fetch?, hhyphens, hdots, hspace]

/-- A text in quotes is read. -/
theorem fetch?_quote (single : Bool) :
    scanner.fetch? (if single then '\'' else '"') = scanner.quotedScalar? single := by
  obtain ⟨hhyphens, hdots⟩ := Bool.or_eq_false_iff.mp hmark
  cases single <;> simp [fetch?, hhyphens, hdots]

/-- A block is read. -/
theorem fetch?_block (hflow : scanner.inFlow = false) :
    scanner.fetch? '|' = scanner.blockScalar? false := by
  obtain ⟨hhyphens, hdots⟩ := Bool.or_eq_false_iff.mp hmark
  simp [fetch?, hhyphens, hdots, hflow]

/-- An opening mark of an empty list or mapping is read. -/
theorem fetch?_open (list : Bool) :
    scanner.fetch? (if list then '[' else '\x7b') =
      scanner.openFlow? (if list then .flowList else .flowMapping) := by
  obtain ⟨hhyphens, hdots⟩ := Bool.or_eq_false_iff.mp hmark
  cases list <;> simp [fetch?, hhyphens, hdots]

/-- A closing mark of an empty list or mapping is read. -/
theorem fetch?_close (list : Bool) :
    scanner.fetch? (if list then ']' else '\x7d') =
      scanner.closeFlow? (if list then .flowListEnd else .flowMappingEnd) := by
  obtain ⟨hhyphens, hdots⟩ := Bool.or_eq_false_iff.mp hmark
  cases list <;> simp [fetch?, hhyphens, hdots]

end Fetch

section Scalars

variable {scanner : Scanner} {indent k : Nat} {text rest : Text} {tokens : List Token}
  {outer : List Nat}

/-- After a line that was read as a whole another one begins. -/
theorem begins_of_line_read {next : Scanner} {cursor : Cursor} {key : Option KeyPlace}
    (hrest : cursor.rest = line text ++ (spaces k ++ rest))
    (hcursor : next.cursor = cursor.advance (line text ++ spaces k))
    (hallowed : next.keyAllowed = true) (hkeys : next.keys = [key])
    (hkey : ∀ place ∈ key, place.required = false ∧ place.cursor = cursor)
    (hvisible : Visible rest) : Begins next k rest next.tokens next.indents := by
  have hnext : next.cursor.rest = rest := by
    rw [hcursor]
    exact Cursor.rest_advance_of_eq (by rw [hrest, List.append_assoc])
  have hcol : next.cursor.col = k := by
    rw [hcursor, Cursor.col_advance_spaces (getLast?_line text)]
  have hline : cursor.line < next.cursor.line := by
    rw [hcursor]
    exact Cursor.line_lt_advance_append (getLast?_line text) cursor _
  have hbegins := begins_of_place hnext hallowed hkeys
    (fun place hplace => ⟨(hkey place hplace).1, by rwa [(hkey place hplace).2]⟩) hvisible
  rwa [hcol] at hbegins

/-- A plain text that is awaited is read. -/
theorem Awaits.plain (hplain : canBePlain text = true) (hne : text ≠ [])
    (h : Awaits scanner indent (' ' :: (line text ++ (spaces k ++ rest))) tokens outer)
    (hk : k ≤ indent) (hvisible : Visible rest) :
    ∃ stop, Comes scanner stop ∧
      Begins stop k rest (.scalar ⟨text, .plain⟩ :: tokens) (indent :: outer) := by
  have hbare := bare_of_canBePlain hplain
  have hline := line_of_unbroken hbare.unbroken
  obtain ⟨c, more, rfl⟩ := List.exists_cons_of_ne_nil hne
  obtain ⟨hopener, hspace, hsign⟩ := of_canBePlain hplain
  have hprintable := hbare.printable c List.mem_cons_self
  have hblank : isBlank c = false := Bool.eq_false_iff.mpr fun hblank =>
    hspace ((isBlank_iff_of_isPrintable hprintable).mp hblank)
  have hcomment : c ≠ '#' := fun heq => hopener (heq ▸ by decide)
  have hstart : Visible (line (c :: more) ++ (spaces k ++ rest)) := by
    rw [hline]
    rintro d hd
    obtain rfl : c = d := Option.some.inj hd
    refine ⟨hblank, hbare.unbroken c List.mem_cons_self, hcomment, ?_⟩
    rintro rfl
    exact absurd hprintable (by decide)
  obtain ⟨start, hprepared, hawaits, hlength⟩ := h.exists_prepared? hstart
  obtain ⟨key, hsave, hkey⟩ := hawaits.exists_saveKey?
  have hcol : 0 < start.cursor.col := Nat.zero_lt_of_lt hawaits.indent_lt
  have hflow := inFlow_of_keys hawaits.keys_eq
  have hrest : start.cursor.rest = c :: (more ++ '\n' :: (spaces k ++ rest)) := by
    rw [hawaits.rest_eq, hline, List.append_assoc]
    rfl
  have hspaceAt (hc : c ∈ "?:-".toList) : start.cursor.spaceAt 1 = false := by
    obtain ⟨d, more, rfl⟩ : ∃ d others, more = d :: others := by
      refine List.exists_cons_of_ne_nil ?_
      rintro rfl
      cases hsign hc
    rw [Cursor.spaceAt, Cursor.at?, hrest]
    exact hsign hc
  have hread : plain? false (indent + 1) start.cursor =
      some (c :: more, true, start.cursor.advance (line (c :: more) ++ spaces k)) := by
    rw [hline, List.append_assoc]
    exact plain?_of_bare hbare hne (by simpa using hspace) (by simpa using hcomment) hrest
      (fun d hd => ⟨(hvisible d hd).1, (hvisible d hd).2.1⟩) (Nat.lt_succ_of_le hk)
      hawaits.indent_lt
  have hfetch : start.fetch? c = some { start with
      cursor := start.cursor.advance (line (c :: more) ++ spaces k),
      tokens := .scalar ⟨c :: more, .plain⟩ :: tokens, keyAllowed := true, keys := [key] } := by
    rw [fetch?_of_plain (Cursor.atDocumentMark_of_pos hcol) hflow hopener hblank hspaceAt]
    simp [plainScalar?, hsave, hawaits.indents_eq, hread, emit, inFlow, hawaits.tokens_eq]
  refine ⟨_, Comes.of_fetch? hprepared hrest hfetch ?_, ?_⟩
  · exact Nat.lt_of_le_of_lt (Cursor.length_rest_advance_le _ _) hlength
  · rw [← hawaits.indents_eq]
    exact begins_of_line_read hawaits.rest_eq rfl rfl rfl hkey hvisible

/-- A text in quotes that is awaited is read. -/
theorem Awaits.quoted (single : Bool) {quote : Char} {written body : Text}
    (hquote : quote = if single then '\'' else '"') (hwritten : written = quote :: body ++ [quote])
    (hread : ∀ {cursor : Cursor} {rest : Text}, cursor.rest = written ++ '\n' :: rest →
      quoted? single cursor = some (text, cursor.advance written))
    (h : Awaits scanner indent (' ' :: (line written ++ (spaces k ++ rest))) tokens outer)
    (hvisible : Visible rest) :
    ∃ stop, Comes scanner stop ∧
      Begins stop k rest
        (.scalar ⟨text, if single then .singleQuoted else .doubleQuoted⟩ :: tokens)
        (indent :: outer) := by
  have hline : line written ++ (spaces k ++ rest) = written ++ '\n' :: (spaces k ++ rest) := by
    have hend : line written = written ++ ['\n'] := by
      rw [line, hwritten, List.getLast?_append_of_ne_nil _ (List.cons_ne_nil _ _), hquote]
      cases single <;> rfl
    rw [hend, List.append_assoc]
    rfl
  rw [hline] at h
  have hstart : Visible (written ++ '\n' :: (spaces k ++ rest)) := by
    rw [hwritten, hquote]
    rintro c hc
    obtain rfl := Option.some.inj hc
    cases single <;> decide
  obtain ⟨start, hprepared, hawaits, hlength⟩ := h.exists_prepared? hstart
  obtain ⟨key, hsave, hkey⟩ := hawaits.exists_saveKey?
  have hcol : 0 < start.cursor.col := Nat.zero_lt_of_lt hawaits.indent_lt
  have hrest : start.cursor.rest = quote :: (body ++ [quote] ++ '\n' :: (spaces k ++ rest)) := by
    rw [hawaits.rest_eq, hwritten]
    rfl
  have hfetch : start.fetch? quote = some { start with
      cursor := start.cursor.advance written,
      tokens := .scalar ⟨text, if single then .singleQuoted else .doubleQuoted⟩ :: tokens,
      keyAllowed := false, keys := [key] } := by
    rw [hquote, fetch?_quote (Cursor.atDocumentMark_of_pos hcol)]
    simp [quotedScalar?, hsave, hread hawaits.rest_eq, emit, hawaits.tokens_eq]
  refine ⟨_, Comes.of_fetch? hprepared hrest hfetch ?_, ?_⟩
  · exact Nat.lt_of_le_of_lt (Cursor.length_rest_advance_le _ _) hlength
  · rw [← hawaits.indents_eq]
    refine begins_of_line (Cursor.rest_advance_of_eq hawaits.rest_eq) rfl (fun place hplace => ?_)
      hvisible
    obtain ⟨hrequired, hcursor⟩ := hkey place hplace
    exact ⟨hrequired, hcursor ▸ Cursor.line_le_advance _ _⟩

/-- A block that is awaited is read. -/
theorem Awaits.literal (hprintable : ∀ c ∈ text, isPrintable c = true) (hne : text ≠ [])
    (h : Awaits scanner indent (' ' :: (line (block (indent + 2) text) ++ (spaces k ++ rest)))
      tokens outer)
    (hk : k ≤ indent) (hvisible : Visible rest) :
    ∃ stop, Comes scanner stop ∧
      Begins stop k rest (.scalar ⟨text, .literal⟩ :: tokens) (indent :: outer) := by
  have hline : line (block (indent + 2) text) = block (indent + 2) text ++ lineEnd text := by
    rw [line_eq, lineEnd_block _ hne]
  obtain ⟨lines, hlines⟩ : ∃ lines, line (block (indent + 2) text) = '|' :: lines := by
    rw [hline, block]
    exact ⟨_, rfl⟩
  have hstart : Visible (line (block (indent + 2) text) ++ (spaces k ++ rest)) := by
    rw [hlines]
    rintro c hc
    obtain rfl := Option.some.inj hc
    decide
  obtain ⟨start, hprepared, hawaits, hlength⟩ := h.exists_prepared? hstart
  have hcol : 0 < start.cursor.col := Nat.zero_lt_of_lt hawaits.indent_lt
  have hrest : start.cursor.rest = '|' :: (lines ++ (spaces k ++ rest)) := by
    rw [hawaits.rest_eq, hlines]
    rfl
  have hread : block? false (some indent) start.cursor =
      some (text, start.cursor.advance (line (block (indent + 2) text) ++ spaces k)) := by
    rw [hline]
    refine block?_block hprintable hne ?_ (fun d hd => ⟨(hvisible d hd).1, (hvisible d hd).2.1⟩)
      (by omega)
    rw [hawaits.rest_eq, hline, List.append_assoc]
  have hfetch : start.fetch? '|' = some { start with
      cursor := start.cursor.advance (line (block (indent + 2) text) ++ spaces k),
      tokens := .scalar ⟨text, .literal⟩ :: tokens, keyAllowed := true, keys := [none] } := by
    rw [fetch?_block (Cursor.atDocumentMark_of_pos hcol) (inFlow_of_keys hawaits.keys_eq)]
    simp [blockScalar?, dropKey?, hawaits.keys_eq, hawaits.indents_eq, hread, emit,
      hawaits.tokens_eq]
  refine ⟨_, Comes.of_fetch? hprepared hrest hfetch ?_, ?_⟩
  · exact Nat.lt_of_le_of_lt (Cursor.length_rest_advance_le _ _) hlength
  · rw [← hawaits.indents_eq]
    exact begins_of_line_read hawaits.rest_eq rfl rfl rfl (by simp) hvisible

/-- A text that is awaited is read, in whichever way it is written. -/
theorem Awaits.scalar {style : Style} {written : Text}
    (hwritten : Written (indent + 2) text style written)
    (h : Awaits scanner indent (' ' :: (line written ++ (spaces k ++ rest))) tokens outer)
    (hk : k ≤ indent) (hvisible : Visible rest) :
    ∃ stop, Comes scanner stop ∧
      Begins stop k rest (.scalar ⟨text, style⟩ :: tokens) (indent :: outer) := by
  cases hwritten with
  | plain hplain hne => exact h.plain hplain hne hk hvisible
  | single htext =>
    refine h.quoted true rfl rfl (fun hrest => ?_) hvisible
    exact quoted?_singleQuoted htext (Nat.succ_pos _) (by simp) hrest
  | double => exact h.quoted false rfl rfl (fun hrest => quoted?_doubleQuoted hrest) hvisible
  | literal hprintable hne => exact h.literal hprintable hne hk hvisible

end Scalars

section Lists

variable {scanner : Scanner} {col k : Nat} {rest : Text} {tokens : List Token}
  {indents outer : List Nat}

/-- An item of a list at the indentation of its key begins. -/
theorem Begins.item (h : Begins scanner col ('-' :: ' ' :: rest) tokens (col :: outer)) :
    ∃ stop, Comes scanner stop ∧ Awaits stop col (' ' :: rest) (.item :: tokens) outer := by
  obtain ⟨index, row, hprepared⟩ := h.exists_prepared? (by simp)
  have hmark : (⟨'-' :: ' ' :: rest, index, row, col⟩ : Cursor).atDocumentMark = false := by
    simp [Cursor.atDocumentMark, Cursor.atMark]
  have hfetch : (⟨⟨'-' :: ' ' :: rest, index, row, col⟩, tokens, col :: outer, true, [none]⟩ :
      Scanner).fetch? '-' =
        some ⟨⟨' ' :: rest, index + 1, row, col + 1⟩, .item :: tokens, col :: outer, true,
          [none]⟩ := by
    rw [fetch?_hyphen hmark rfl]
    simp [item?, roll, inFlow, dropKey?, mark, emit, Cursor.skipMany]
  refine ⟨_, Comes.of_fetch? hprepared rfl hfetch ?_, ⟨rfl, rfl, rfl, rfl, Nat.lt_succ_self _⟩⟩
  exact Nat.lt_of_lt_of_le (Nat.lt_succ_self _) h.1

/-- A scanner behind the mark that opens an empty list or mapping. The place of a key in front of
the mark stays. -/
def opened (scanner : Scanner) (token : Token) (key : Option KeyPlace) : Scanner :=
  { scanner with
    cursor := scanner.cursor.skipMany 1, tokens := token :: scanner.tokens, keyAllowed := true,
    keys := [none, key] }

/-- Behind this mark the next one is at hand. -/
theorem prepared?_opened {token : Token} {key : Option KeyPlace}
    (hkey : ∀ place ∈ key, place.required = false ∧ place.cursor = scanner.cursor)
    (hrest : (scanner.cursor.skipMany 1).rest = rest) (hvisible : Visible rest) :
    (scanner.opened token key).prepared? = some (scanner.opened token key) := by
  have hkept : (scanner.opened token key).dropStaleKeys? = some (scanner.opened token key) := by
    cases key with
    | none => simp [opened, dropStaleKeys?]
    | some place =>
      obtain ⟨-, hcursor⟩ := hkey place rfl
      simp [opened, dropStaleKeys?, hcursor, Cursor.skipMany, keyLimit]
  have hopen (col : Nat) : (scanner.opened token key).unroll (some col) =
      scanner.opened token key := by
    simp [opened, unroll, inFlow]
  exact prepared?_of_visible hrest hvisible hkept (hopen _)

/-- A list or mapping of nothing is read. -/
theorem Awaits.nothing (list : Bool) {opening closing : Char}
    (hopening : opening = if list then '[' else '\x7b')
    (hclosing : closing = if list then ']' else '\x7d')
    (h : Awaits scanner col (' ' :: opening :: closing :: '\n' :: (spaces k ++ rest)) tokens outer)
    (hvisible : Visible rest) :
    ∃ stop, Comes scanner stop ∧
      Begins stop k rest ((if list then .flowListEnd else .flowMappingEnd) ::
        (if list then .flowList else .flowMapping) :: tokens) (col :: outer) := by
  have hopens : Visible (opening :: closing :: '\n' :: (spaces k ++ rest)) := by
    rintro c hc
    obtain rfl := Option.some.inj hc
    subst hopening
    cases list <;> decide
  have hcloses : Visible (closing :: '\n' :: (spaces k ++ rest)) := by
    rintro c hc
    obtain rfl := Option.some.inj hc
    subst hclosing
    cases list <;> decide
  obtain ⟨start, hprepared, hawaits, hlength⟩ := h.exists_prepared? hopens
  obtain ⟨key, hsave, hkey⟩ := hawaits.exists_saveKey?
  have hcol : 0 < start.cursor.col := Nat.zero_lt_of_lt hawaits.indent_lt
  have hrest : (start.cursor.skipMany 1).rest = closing :: '\n' :: (spaces k ++ rest) := by
    rw [Cursor.skipMany, hawaits.rest_eq]
    rfl
  have hopen : start.fetch? opening =
      some (start.opened (if list then .flowList else .flowMapping) key) := by
    rw [hopening, fetch?_open (Cursor.atDocumentMark_of_pos hcol)]
    simp [opened, openFlow?, hsave, mark, emit]
  have hinside : (start.opened (if list then .flowList else .flowMapping) key).prepared? =
      some (start.opened (if list then .flowList else .flowMapping) key) :=
    prepared?_opened hkey hrest hcloses
  have hclose : (start.opened (if list then .flowList else .flowMapping) key).fetch? closing =
      some { start with
        cursor := start.cursor.skipMany 2,
        tokens := (if list then .flowListEnd else .flowMappingEnd) ::
          (if list then .flowList else .flowMapping) :: tokens,
        keyAllowed := false, keys := [key] } := by
    rw [hclosing, fetch?_close (Cursor.atDocumentMark_of_pos (Nat.add_pos_right _ Nat.one_pos))]
    simp [opened, closeFlow?, dropKey?, mark, emit, inFlow, Cursor.skipMany, Nat.add_assoc,
      hawaits.rest_eq, hawaits.tokens_eq]
  have hfirst : Comes scanner (start.opened (if list then .flowList else .flowMapping) key) := by
    refine Comes.of_fetch? hprepared hawaits.rest_eq hopen ?_
    simp only [opened, hrest, h.rest_eq, List.length_cons]
    omega
  refine ⟨_, hfirst.trans (Comes.of_fetch? hinside hrest hclose ?_), ?_⟩
  · simp [opened, Cursor.skipMany, hawaits.rest_eq]
  · rw [← hawaits.indents_eq]
    refine begins_of_line (by simp [Cursor.skipMany, hawaits.rest_eq]) rfl (fun place hplace => ?_)
      hvisible
    obtain ⟨hrequired, hcursor⟩ := hkey place hplace
    exact ⟨hrequired, hcursor ▸ Nat.le_refl _⟩

/-- What a key at a column does to the columns that are open and to the tokens: in front of the
first key of a mapping this one begins. `outer` are the columns outside of the mapping. -/
inductive Enters (col : Nat) : List Nat → List Token → List Nat → List Token → Prop where
  /-- The first key. -/
  | deeper {indents : List Nat} {tokens : List Token}
      (hopen : ∀ indent ∈ indents.head?, indent < col) :
    Enters col indents tokens indents (.blockMapping :: tokens)
  /-- A further key. -/
  | within {outer : List Nat} {tokens : List Token} : Enters col (col :: outer) tokens outer tokens

/-- A colon makes a key of what is in front of it. -/
theorem value?_of_enters {cursor : Cursor} {place : KeyPlace} {token : Token} {entered : List Token}
    (henters : Enters col indents tokens outer entered) (htokens : place.tokens = tokens.length)
    (hcol : place.cursor.col = col) :
    (⟨cursor, token :: tokens, indents, false, [some place]⟩ : Scanner).value? =
      some ⟨cursor.skipMany 1, .value :: token :: .key :: entered, col :: outer, false,
        [none]⟩ := by
  cases henters with
  | deeper hopen =>
    have hnone : indents.head?.any (col ≤ ·) = false := by
      cases indents with
      | nil => rfl
      | cons indent indents => simpa using hopen indent rfl
    have hlater : tokens.length + 1 + 1 - tokens.length = 2 := by omega
    simp [value?, insertAt, roll, inFlow, mark, emit, htokens, hcol, hnone, hlater]
  | within => simp [value?, insertAt, roll, inFlow, mark, emit, htokens, hcol]

/-- A word in front of a colon, where a key may begin, is read as a plain text, and its place is
kept. -/
theorem fetch?_of_word {place : Cursor} {key more : Text} {c : Char}
    (hkey : ∀ c ∈ key, c.isAlphanum = true) (hcons : key = c :: more)
    (hgap : rest.head?.all isGap = true) (hrest : place.rest = key ++ ':' :: rest) :
    (⟨place, tokens, indents, true, [none]⟩ : Scanner).fetch? c =
      some ⟨place.advance key, .scalar ⟨key, .plain⟩ :: tokens, indents, false,
        [some ⟨indents.head? == some place.col, tokens.length, place⟩]⟩ := by
  have hc : c ∈ key := hcons ▸ List.mem_cons_self
  obtain ⟨hblank, -, -, -, hhyphen, hdot⟩ := of_isAlphanum (hkey c hc)
  obtain ⟨hopener, hsign⟩ := not_mem_of_isAlphanum (hkey c hc)
  have hmark : place.atDocumentMark = false := by
    simp [Cursor.atDocumentMark, Cursor.atMark, hrest, hcons, hhyphen.symm, hdot.symm]
  have hread (least : Nat) : plain? false least place = some (key, false, place.advance key) :=
    plain?_of_word hkey (List.ne_nil_of_mem hc) hgap hrest
  rw [fetch?_of_plain hmark rfl hopener hblank fun hmem => absurd hmem hsign]
  simp [plainScalar?, saveKey?, dropKey?, inFlow, hread, emit]

/-- The colon behind a word makes a key of it. -/
theorem fetch?_of_colon {cursor : Cursor} {place : KeyPlace} {token : Token} {entered : List Token}
    (hgap : rest.head?.all isGap = true) (hrest : cursor.rest = ':' :: rest)
    (henters : Enters col indents tokens outer entered) (htokens : place.tokens = tokens.length)
    (hcol : place.cursor.col = col) :
    (⟨cursor, token :: tokens, indents, false, [some place]⟩ : Scanner).fetch? ':' =
      some ⟨cursor.skipMany 1, .value :: token :: .key :: entered, col :: outer, false,
        [none]⟩ := by
  have hmark : cursor.atDocumentMark = false := by
    simp [Cursor.atDocumentMark, Cursor.atMark, hrest]
  have hspace : cursor.spaceAt 1 = true := by
    have hnext : (':' :: rest)[1]? = rest.head? := by cases rest <;> rfl
    rw [Cursor.spaceAt, Cursor.at?, hrest, hnext]
    exact hgap
  rw [fetch?_colon hmark hspace, value?_of_enters henters htokens hcol]

/-- A word with a colon behind it at the start of a line is a key. -/
theorem Begins.key {key : Text} {entered : List Token} (hkey : ∀ c ∈ key, c.isAlphanum = true)
    (hne : key ≠ []) (hlimit : key.length ≤ keyLimit) (hgap : rest.head?.all isGap = true)
    (henters : Enters col indents tokens outer entered)
    (h : Begins scanner col (key ++ ':' :: rest) tokens indents) :
    ∃ stop, Comes scanner stop ∧
      Awaits stop col rest (.value :: .scalar ⟨key, .plain⟩ :: .key :: entered) outer := by
  have hopen : ∀ indent ∈ indents.head?, indent ≤ col := by
    cases henters with
    | deeper hopen => exact fun indent hindent => (hopen indent hindent).le
    | within => simp
  obtain ⟨index, row, hprepared⟩ := h.exists_prepared? hopen
  have hend : (⟨key ++ ':' :: rest, index, row, col⟩ : Cursor).advance key =
      ⟨':' :: rest, index + key.length, row, col + key.length⟩ := by
    rw [Cursor.advance_eq_skipMany fun c hc => (of_isAlphanum (hkey c hc)).2.1, Cursor.skipMany,
      List.drop_left]
  obtain ⟨c, more, hcons⟩ := List.exists_cons_of_ne_nil hne
  obtain ⟨place, hplace⟩ : ∃ place : KeyPlace, place = ⟨indents.head? == some col, tokens.length,
    ⟨key ++ ':' :: rest, index, row, col⟩⟩ := ⟨_, rfl⟩
  obtain ⟨inside, hinside⟩ : ∃ inside : Scanner, inside = ⟨⟨':' :: rest, index + key.length, row,
    col + key.length⟩, .scalar ⟨key, .plain⟩ :: tokens, indents, false, [some place]⟩ := ⟨_, rfl⟩
  have hword : (⟨⟨key ++ ':' :: rest, index, row, col⟩, tokens, indents, true, [none]⟩ :
      Scanner).fetch? c = some inside := by
    rw [hinside, hplace, ← hend]
    exact fetch?_of_word hkey hcons hgap rfl
  -- Between the key and its colon nothing is passed over, as a key is no longer than its limit.
  have hmiddle : inside.prepared? = some inside := by
    subst hinside hplace
    exact prepared?_of_visible rfl (by simp [Visible, isBlank, isBreak])
      (dropStaleKeys?_of_near rfl rfl (Nat.add_le_add_left hlimit index))
      (unroll_of_le fun indent hindent => Nat.le_add_right_of_le (hopen indent hindent))
  have hcolon : inside.fetch? ':' = some ⟨⟨rest, index + key.length + 1, row,
      col + key.length + 1⟩, .value :: .scalar ⟨key, .plain⟩ :: .key :: entered, col :: outer,
      false, [none]⟩ := by
    subst hinside
    exact fetch?_of_colon hgap rfl henters (by rw [hplace]) (by rw [hplace])
  have hcolons : inside.cursor.rest = ':' :: rest := by rw [hinside]
  refine ⟨_, (Comes.of_fetch? hprepared (by rw [hcons]; rfl) hword ?_).trans
    (Comes.of_fetch? hmiddle hcolons hcolon ?_), ⟨rfl, rfl, rfl, rfl, ?_⟩⟩
  · have hlength : 0 < key.length := List.length_pos_of_ne_nil hne
    have hfirst := h.1
    rw [List.length_append] at hfirst
    rw [hcolons]
    omega
  · rw [hcolons]
    exact Nat.lt_succ_self _
  · exact Nat.lt_succ_of_le (Nat.le_add_right _ _)

end Lists

end Scanner
end LinkedNotes.Yaml
