import LinkedNotes.Server.Commands
import LinkedNotes.Server.Message
import LinkedNotes.Server.Questions

/-!
# Taking messages

Which messages the server takes in which phase, and what it does with them. Before it is started it
only takes the request to start, and after it was shut down it takes nothing. A notice that is out
of turn or cannot be read is passed over.
-/

namespace LinkedNotes.Server

variable {σ : Type} [FileSystem σ]

/-- Answers a request that is in turn, at a moment. -/
def answer (now : Moment) : Request → Handler σ (Except Fault Answer)
  | .start root folders options => do
    let answer ← start root folders options
    modify ({ · with phase := .running })
    return .ok answer
  | .shutdown => do
    modify ({ · with phase := .stopped })
    return .ok .nothing
  | .completion uri point => return .ok (← completion uri point)
  | .resolve item note => return .ok (← resolve item note)
  | .definition uri point => return .ok (← definition uri point)
  | .references uri point => return .ok (← references uri point)
  | .execute command arguments => execute now command arguments

/-- Does what a notice that is in turn asks for. -/
def heed : Notice → Handler σ Unit
  | .ready => ready
  | .opened uri text => didOpen uri text
  | .changed uri changes => didChange uri changes
  | .closed uri => didClose uri
  | .saved uri => didSave uri
  | .filesChanged events => didChangeFiles events
  | .renamed pairs => didRenameFiles pairs
  | .configured all => didChangeSettings all

/-- The method that starts the server. -/
def startMethod : Text := "initialize".toList

/-- Why a method is out of turn in a phase, if it is. -/
def outOfTurn? (method : Text) : Phase → Option Fault
  | .fresh => if method = startMethod then none else some .notInitialized
  | .running => if method = startMethod then some .outOfTurn else none
  | .stopped => some .outOfTurn

/-- The request of a method with its parameters, if the server takes it in a phase. -/
def readRequest (method : Text) (params : Option Json) (phase : Phase) : Except Fault Request :=
  match Request.ofMethod? method, outOfTurn? method phase with
  | none, _ => .error .unknownMethod
  | some _, some fault => .error fault
  | some read, none => read params

/-- Takes a request at a moment. -/
def request (now : Moment) (method : Text) (params : Option Json) :
    Handler σ (Except Fault Answer) := do
  match readRequest method params (← get).phase with
  | .ok request => answer now request
  | .error fault => return .error fault

/-- Takes a notice. -/
def notify (method : Text) (params : Option Json) : Handler σ Unit := do
  if (← get).phase = .running then
    match Notice.ofMethod? method, params with
    | some read, some params =>
      match read params with
      | .ok notice => heed notice
      | .error _ => return
    | _, _ => return

end LinkedNotes.Server
