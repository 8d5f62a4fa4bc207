import SoftNic.Session.Action

/-! # Running commands

A command is run in a session and leaves a changed session and a step.  The
commands inside a transfer are first turned, list by list, into *plays*:
functions of the session in which they are run.  The transfer's sink keeps
every frame and, as long as there are plays left, runs one for each frame.
-/
namespace SoftNic
namespace Session

/-- Runs a list of commands in a session. -/
abbrev Play := Session → Session × List Step

/-- What the sink of a transfer carries along: the session's names, the plays
still to come, and what has come of it so far. -/
structure Trail where
  names : List (String × Object)
  plays : List Play
  /-- Newest frame first. -/
  frames : List Frame := []
  /-- Newest row of steps first. -/
  steps : List (List Step) := []

/-- Keep a frame, then run the next play. -/
def playing : Sink Trail := fun f (b, t) =>
  let t := { t with frames := f :: t.frames }
  match t.plays with
  | [] => (b, t)
  | play :: plays =>
    let (s, steps) := play ⟨b, t.names⟩
    (s.bench, { t with names := s.names, plays, steps := steps :: t.steps })

/-- What a transfer comes to: the session after it, the reply, and the rows of
steps that were run inside. -/
abbrev TransferResult := Session × Reply × List (List Step)

/-- Reply to a transfer to the wire. -/
def drainReply : (Bench × Trail) × Nat → TransferResult
  | ((b, t), k) => (⟨b, t.names⟩, .drained k (some t.frames.reverse), t.steps.reverse)

/-- Reply to a poll pass. -/
def passReply : (Bench × Trail) × Except Fault Pass → TransferResult
  | ((b, t), .ok p) => (⟨b, t.names⟩, .pass p t.frames.reverse, t.steps.reverse)
  | ((b, t), .error f) => (⟨b, t.names⟩, .fault f, [])

/-- Find an object by a name and make a transfer with it. -/
def transferring {α : Type} (s : Session) (name : String) (found : Option α)
    (go : α → TransferResult) : TransferResult :=
  match found with
  | some a => go a
  | none => (s, .unknown name, [])

/-- Make a transfer. -/
def transfer (s : Session) (source : Source) (plays : List Play) : TransferResult :=
  let start : Bench × Trail := (s.bench, { names := s.names, plays })
  match source with
  | .card nic budget =>
    s.transferring nic (s.nic? nic) fun n => drainReply (Bench.drain n budget playing start)
  | .peer peer budget =>
    s.transferring peer (s.peer? peer) fun p =>
      drainReply (Bench.pollPeer p budget playing start)
  | .context context nic budget =>
    s.transferring context (s.context? context) fun c =>
      s.transferring nic (s.nic? nic) fun n =>
        passReply (Bench.poll c n budget playing start)
  | .device device =>
    s.transferring device (s.device? device) fun d =>
      passReply (Bench.pollDevice d playing start)

/-- The name of the object whose request a transfer serves. -/
def Source.asker : Source → String
  | .card name _ => name
  | .peer name _ => name
  | .context name _ _ => name
  | .device name => name

/-- Make a transfer if it was asked for. -/
def transferIfAsked (s : Session) (source : Source) (ifAsked : Bool) (plays : List Play) :
    Session × Reply × Option (List (List Step)) :=
  let run (s : Session) : Session × Reply × Option (List (List Step)) :=
    let (s, reply, nested) := s.transfer source plays
    (s, reply, some nested)
  if ifAsked then
    match s.request? source.asker with
    | none => (s, .unknown source.asker, none)
    | some r =>
      match s.bench.takeSignal r with
      | (b, false) => (s.onBench b, .nothing, none)
      | (b, true) => run (s.onBench b)
  else run s

/-- The step that a command makes, given the session before it and what it
came to. -/
def stepFrom (before : Session) (after : Session) (reply : Reply)
    (nested : Option (List (List Step))) : Session × Step :=
  (after,
    { reply
      views := after.views
      events := after.bench.eventsSince before.bench.journal.length
      nested })

mutual

/-- Run a command. -/
def run : Command → Session → Session × Step
  | .action a => fun s =>
    let (after, reply) := s.act a
    stepFrom s after reply none
  | .transfer source ifAsked none => fun s =>
    let (after, reply, _) := s.transferIfAsked source ifAsked []
    stepFrom s after reply none
  | .transfer source ifAsked (some each) =>
    let plays := playsOf each
    fun s =>
      let (after, reply, nested) := s.transferIfAsked source ifAsked plays
      stepFrom s after reply nested

/-- Run commands one after the other. -/
def runAll : List Command → Play
  | [] => fun s => (s, [])
  | c :: cs =>
    let first := run c
    let rest := runAll cs
    fun s =>
      let (s, step) := first s
      let (s, steps) := rest s
      (s, step :: steps)

/-- Each list of commands as a play. -/
def playsOf : List (List Command) → List Play
  | [] => []
  | cs :: rest => runAll cs :: playsOf rest

end

@[simp] theorem runAll_nil (s : Session) : runAll [] s = (s, []) := by
  simp [runAll]

theorem runAll_cons (c : Command) (cs : List Command) (s : Session) :
    runAll (c :: cs) s =
      ((runAll cs (run c s).1).1, (run c s).2 :: (runAll cs (run c s).1).2) := by
  simp [runAll]

/-- A session is run in parts as it is run in one piece. -/
theorem runAll_append (cs ds : List Command) (s : Session) :
    runAll (cs ++ ds) s =
      ((runAll ds (runAll cs s).1).1, (runAll cs s).2 ++ (runAll ds (runAll cs s).1).2) := by
  induction cs generalizing s with
  | nil => simp
  | cons c cs ih => simp [runAll_cons, ih]

/-- Every command makes one step. -/
@[simp] theorem length_runAll (cs : List Command) (s : Session) :
    (runAll cs s).2.length = cs.length := by
  induction cs generalizing s with
  | nil => simp
  | cons c cs ih => simp [runAll_cons, ih]

/-- What a session tells that begins with an empty bench. -/
def steps (commands : List Command) : List Step :=
  (runAll commands {}).2

end Session
end SoftNic
