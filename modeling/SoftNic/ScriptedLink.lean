import SoftNic.Link

/-! # Scripted links

A scripted link is a link driver without a card behind it: what it answers is
written down beforehand, and what it is given to send is kept.  It serves to
try a stack against a link that fails on purpose.
-/
namespace SoftNic

/-- The script of a link and what has happened to it. -/
structure ScriptedLink where
  /-- The answers to come when a frame is asked for.  After the last of them
  there is no frame. -/
  incoming : List (Except Refusal (Option Frame)) := []
  /-- The answers to come when a frame is sent.  After the last of them every
  frame is taken. -/
  verdicts : List (Except Refusal Unit) := []
  up : Bool := true
  /-- The frames given to send, oldest first. -/
  sent : List Frame := []
  /-- Newest event first. -/
  journal : List LinkEvent := []
  deriving Inhabited

namespace ScriptedLink

/-- A scripted link as a link driver. -/
def driver : LinkDriver ScriptedLink where
  send := fun s f =>
    let s := { s with sent := s.sent ++ [f] }
    match s.verdicts with
    | [] => (s, .ok ())
    | v :: rest => ({ s with verdicts := rest }, v)
  receive := fun s =>
    match s.incoming with
    | [] => (s, .ok (.ok none))
    | a :: rest => ({ s with incoming := rest }, .ok a)
  isUp := fun s => s.up
  note := fun s event => { s with journal := event :: s.journal }

/-- What a script does at one step. -/
inductive Act
  /-- Ask for a frame, and answer it. -/
  | receive (answer : Option Frame)
  /-- Ask to transmit a frame. -/
  | transmit (f : Option Frame)
  /-- Bring the link up or down. -/
  | setUp (up : Bool)

/-- Do one step. -/
def act (s : ScriptedLink) : Act → ScriptedLink × LinkOutcome
  | .receive answer => driver.receiveAnswering s answer
  | .transmit f => driver.transmitting s f
  | .setUp up => ({ s with up }, .nothing)

/-- Do steps one after the other.  Each comes with what it came to and the
link after it; the link after the last of them stands apart. -/
def acts (s : ScriptedLink) : List Act → List (LinkOutcome × ScriptedLink) × ScriptedLink
  | [] => ([], s)
  | a :: rest =>
    let (s, o) := s.act a
    let (outcomes, last) := s.acts rest
    ((o, s) :: outcomes, last)

end ScriptedLink
end SoftNic
