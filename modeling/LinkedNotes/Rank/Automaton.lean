import LinkedNotes.Text.Basic

/-!
# Automata over octets

A machine that reads the octets of a text and says after each of them whether it accepts, and
whether it still may. What is read stops as soon as the answer is known.
-/

namespace LinkedNotes

/-- A deterministic machine that reads octets. -/
structure Automaton where
  /-- What the machine remembers. -/
  State : Type
  /-- Before anything is read. -/
  start : State
  /-- Whether what was read is accepted. -/
  accepts : State → Bool
  /-- Whether what was read may still become accepted. -/
  mayAccept : State → Bool
  /-- After one more octet. -/
  next : State → UInt8 → State

namespace Automaton

/-- The octets of the UTF-8 form of a text. -/
def utf8 (text : Text) : List UInt8 :=
  text.flatMap String.utf8EncodeChar

variable (machine : Automaton)

/-- The state of a machine inside of one that has accepted as soon as the inner one has; none when
it has. -/
def enter (state : machine.State) : Option machine.State :=
  if machine.accepts state then none else some state

/-- The machine that accepts what starts with something that another one accepts. -/
def startsWith : Automaton where
  State := Option machine.State
  start := machine.enter machine.start
  accepts := Option.isNone
  mayAccept := Option.all machine.mayAccept
  next state octet := state.bind fun inner => machine.enter (machine.next inner octet)

/-- Whether the machine comes to accept while it reads octets from a state; it stops when it cannot
any more. -/
def comesToAcceptFrom : machine.State → List UInt8 → Bool
  | _, [] => false
  | state, octet :: rest =>
    machine.mayAccept state &&
      (machine.accepts (machine.next state octet) ||
        comesToAcceptFrom (machine.next state octet) rest)

/-- Whether the machine comes to accept while it reads octets. -/
def comesToAccept (read : List UInt8) : Bool :=
  machine.accepts machine.start || machine.comesToAcceptFrom machine.start read

end Automaton
end LinkedNotes
