import LinkedNotes.Rank.Automaton
import Mathlib

/-!
# What automata accept

A machine decides a property of texts when it accepts the octets of just those texts that have it,
and gives up only where nothing that follows could be accepted. Main statement: such a machine, made
to accept what starts with something accepted, comes to accept a text exactly if some start of the
text has the property, although it reads octets and stops early.
-/

namespace LinkedNotes.Automaton

/-! ## Octets of texts -/

/-- Without octets there is no character. -/
theorem utf8DecodeChar?_nil : ([] : List UInt8).toByteArray.utf8DecodeChar? 0 = none := by
  decide +kernel

/-- The first character is found again among octets. -/
theorem utf8DecodeChar?_append (c : Char) (rest : List UInt8) :
    (String.utf8EncodeChar c ++ rest).toByteArray.utf8DecodeChar? 0 = some c := by
  rw [List.toByteArray_append, ByteArray.utf8DecodeChar?_utf8EncodeChar_append]

/-- Octets from which a character is decoded start with its own. -/
theorem exists_of_utf8DecodeChar?_eq_some {read : List UInt8} {c : Char}
    (h : read.toByteArray.utf8DecodeChar? 0 = some c) :
    ∃ rest, read = String.utf8EncodeChar c ++ rest := by
  obtain ⟨rest, hrest⟩ := ByteArray.exists_of_utf8DecodeChar?_eq_some h
  refine ⟨rest.data.toList, ?_⟩
  have hdata := congrArg (fun bytes : ByteArray => bytes.data.toList) hrest
  simpa [ByteArray.data_append, List.data_toByteArray] using hdata

/-- No character's octets start those of another one. -/
theorem eq_of_utf8EncodeChar_append {c d : Char} {rest more : List UInt8}
    (h : String.utf8EncodeChar c ++ rest = String.utf8EncodeChar d ++ more) : c = d := by
  have hc := utf8DecodeChar?_append c rest
  rw [h, utf8DecodeChar?_append] at hc
  exact (Option.some.inj hc).symm

@[simp]
theorem utf8_nil : utf8 [] = [] := rfl

@[simp]
theorem utf8_cons (c : Char) (text : Text) :
    utf8 (c :: text) = String.utf8EncodeChar c ++ utf8 text := rfl

theorem utf8_append (s t : Text) : utf8 (s ++ t) = utf8 s ++ utf8 t :=
  List.flatMap_append

/-- The octets of a text start with those of another one exactly if the text does. -/
theorem utf8_prefix_iff {start text : Text} : utf8 start <+: utf8 text ↔ start <+: text := by
  constructor
  · intro h
    induction start generalizing text with
    | nil => exact List.nil_prefix
    | cons c start ih =>
      obtain ⟨rest, hrest⟩ := h
      rw [utf8_cons, List.append_assoc] at hrest
      cases text with
      | nil =>
        rw [utf8_nil] at hrest
        exact absurd (List.append_eq_nil_iff.mp hrest).1 String.utf8EncodeChar_ne_nil
      | cons d text =>
        rw [utf8_cons] at hrest
        obtain rfl := eq_of_utf8EncodeChar_append hrest
        exact List.cons_prefix_cons.mpr ⟨rfl, ih ⟨rest, List.append_cancel_left hrest⟩⟩
  · rintro ⟨rest, rfl⟩
    exact ⟨utf8 rest, (utf8_append start rest).symm⟩

/-! ## Reading -/

variable {machine : Automaton}

/-- The state of a machine after it has read octets. -/
def run (machine : Automaton) (read : List UInt8) : machine.State :=
  read.foldl machine.next machine.start

/-- One octet more is one step more. -/
theorem run_append_singleton (read : List UInt8) (octet : UInt8) :
    machine.run (read ++ [octet]) = machine.next (machine.run read) octet := by
  rw [run, List.foldl_append]
  rfl

/-- A machine accepts just the texts with a property, and gives up only where nothing that follows
would be accepted. -/
structure Decides (machine : Automaton) (P : Text → Prop) : Prop where
  /-- The octets of the texts with the property are accepted. -/
  accepts_iff (read : List UInt8) :
    machine.accepts (machine.run read) = true ↔ ∃ text, utf8 text = read ∧ P text
  /-- Where the machine gives up nothing more is accepted. -/
  of_mayAccept_eq_false {read : List UInt8} (h : machine.mayAccept (machine.run read) = false)
    (more : List UInt8) : machine.accepts (machine.run (read ++ more)) = false

/-- The machine inside of one that accepts starts reads on until it accepts. -/
theorem comesToAcceptFrom_startsWith_iff {P : Text → Prop} (hdecides : machine.Decides P)
    (read rest : List UInt8) :
    machine.startsWith.comesToAcceptFrom (some (machine.run read)) rest = true ↔
      ∃ start, start ≠ [] ∧ start <+: rest ∧
        machine.accepts (machine.run (read ++ start)) = true := by
  induction rest generalizing read with
  | nil =>
    refine ⟨(nomatch ·), ?_⟩
    rintro ⟨start, hne, hstart, -⟩
    exact absurd (List.prefix_nil.mp hstart) hne
  | cons octet rest ih =>
    -- A start of the rest is the octet alone or goes on.
    have hsplit : (∃ start, start ≠ [] ∧ start <+: octet :: rest ∧
          machine.accepts (machine.run (read ++ start)) = true) ↔
        machine.accepts (machine.run (read ++ [octet])) = true ∨
          ∃ start, start ≠ [] ∧ start <+: rest ∧
            machine.accepts (machine.run (read ++ [octet] ++ start)) = true := by
      constructor
      · rintro ⟨start, hne, hstart, haccepts⟩
        obtain ⟨first, more, rfl⟩ := List.exists_cons_of_ne_nil hne
        obtain ⟨rfl, hmore⟩ := List.cons_prefix_cons.mp hstart
        cases more with
        | nil => exact .inl haccepts
        | cons second more =>
          exact .inr ⟨second :: more, List.cons_ne_nil _ _, hmore, by simpa using haccepts⟩
      · rintro (haccepts | ⟨start, -, hstart, haccepts⟩)
        · exact ⟨[octet], List.cons_ne_nil _ _,
            List.cons_prefix_cons.mpr ⟨rfl, List.nil_prefix⟩, haccepts⟩
        · exact ⟨octet :: start, List.cons_ne_nil _ _,
            List.cons_prefix_cons.mpr ⟨rfl, hstart⟩, by simpa using haccepts⟩
    have hnext : machine.next (machine.run read) octet = machine.run (read ++ [octet]) :=
      (run_append_singleton read octet).symm
    rw [hsplit]
    cases hmay : machine.mayAccept (machine.run read) with
    | false =>
      refine ⟨fun h => ?_, fun h => ?_⟩
      · simp [comesToAcceptFrom, startsWith, hmay] at h
      · rcases h with haccepts | ⟨start, -, -, haccepts⟩
        · rw [hdecides.of_mayAccept_eq_false hmay] at haccepts
          cases haccepts
        · rw [List.append_assoc, hdecides.of_mayAccept_eq_false hmay] at haccepts
          cases haccepts
    | true =>
      cases haccepts : machine.accepts (machine.run (read ++ [octet])) with
      | true => simp [comesToAcceptFrom, startsWith, enter, hmay, hnext, haccepts]
      | false =>
        have hstep : machine.startsWith.comesToAcceptFrom (some (machine.run read))
              (octet :: rest) =
            machine.startsWith.comesToAcceptFrom (some (machine.run (read ++ [octet]))) rest := by
          simp [comesToAcceptFrom, startsWith, enter, hmay, hnext, haccepts]
        rw [hstep, ih]
        simp

/-- A machine that decides a property, made to accept starts, comes to accept a text exactly if a
start of the text has the property. -/
theorem comesToAccept_startsWith_iff {P : Text → Prop} (hdecides : machine.Decides P)
    (text : Text) :
    machine.startsWith.comesToAccept (utf8 text) = true ↔ ∃ start, start <+: text ∧ P start := by
  have hstarts : (∃ start, start <+: text ∧ P start) ↔
      ∃ read, read <+: utf8 text ∧ machine.accepts (machine.run read) = true := by
    constructor
    · rintro ⟨start, hstart, hP⟩
      exact ⟨utf8 start, utf8_prefix_iff.mpr hstart,
        (hdecides.accepts_iff _).mpr ⟨start, rfl, hP⟩⟩
    · rintro ⟨read, hread, haccepts⟩
      obtain ⟨start, rfl, hP⟩ := (hdecides.accepts_iff read).mp haccepts
      exact ⟨start, utf8_prefix_iff.mp hread, hP⟩
  rw [hstarts]
  cases haccepts : machine.accepts machine.start with
  | true =>
    refine ⟨fun _ => ⟨[], List.nil_prefix, haccepts⟩, fun _ => ?_⟩
    simp [comesToAccept, startsWith, enter, haccepts]
  | false =>
    have hstep : machine.startsWith.comesToAccept (utf8 text) =
        machine.startsWith.comesToAcceptFrom (some (machine.run [])) (utf8 text) := by
      simp [comesToAccept, startsWith, enter, haccepts, run]
    rw [hstep, comesToAcceptFrom_startsWith_iff hdecides]
    constructor
    · rintro ⟨start, -, hstart, h⟩
      exact ⟨start, hstart, h⟩
    · rintro ⟨start, hstart, h⟩
      refine ⟨start, ?_, hstart, h⟩
      rintro rfl
      exact Bool.false_ne_true (haccepts.symm.trans h)

end LinkedNotes.Automaton
