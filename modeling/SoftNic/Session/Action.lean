import SoftNic.Session.Basic
import SoftNic.Session.Command

/-! # Doing actions

Each action finds its objects by name, does what it says on the bench, and
replies.  A new object gets its name only when it was made; when making it
fails, the object that had the name stays.
-/
namespace SoftNic
namespace Session

/-- What an action comes to: a changed session and a reply. -/
abbrev Result := Session × Reply

/-- The session with another bench. -/
def onBench (s : Session) (b : Bench) : Session :=
  { s with bench := b }

/-- The reply when a failure kept settings from being had. -/
def failureReply : ConfigFailure → Reply
  | .refused e => .configError e
  | .fault f => .fault f

/-- The reply to something that is refused or goes well. -/
def refusalReply : Except Refusal Unit → Reply
  | .ok () => .ok
  | .error r => .refused r

/-- The reply to something that is rejected or goes well. -/
def rejectionReply : Except Rejection Unit → Reply
  | .ok () => .ok
  | .error r => .rejected r

/-- The reply to something that runs into a fault or leaves nothing to
tell. -/
def silentReply : Except Fault Unit → Reply
  | .ok () => .nothing
  | .error f => .fault f

/-- Find an object by a name and go on with it. -/
def withFound {α : Type} (s : Session) (name : String) (found : Option α) (go : α → Result) :
    Result :=
  match found with
  | some a => go a
  | none => (s, .unknown name)

/-- Have settings from a source and go on with them. -/
def withSettings (s : Session) (source : SettingsSource) (go : Session → Settings → Result) :
    Result :=
  let (notices, result) := source.resolve
  let s := s.onBench (notices.foldl (fun b n => b.record (.settings n)) s.bench)
  match result with
  | .error e => (s, failureReply e)
  | .ok x => go s x

/-- What a handler does, with its contexts found. -/
def resolveActions (s : Session) : List NamedAction → Except String (List HandlerAction)
  | [] => .ok []
  | a :: rest =>
    match resolveActions s rest with
    | .error name => .error name
    | .ok rest =>
      match a with
      | .arm => .ok (.arm :: rest)
      | .disarm => .ok (.disarm :: rest)
      | .schedule name =>
        match s.context? name with
        | some c => .ok (.schedule c :: rest)
        | none => .error name

/-! ### Actions on one object -/

/-- Do something to a card. -/
def doNic (s : Session) (n : Handle Nic) : NicAction → Result
  | .setUp => (s.onBench (s.bench.setUp n), .nothing)
  | .bringUp => (s.onBench (s.bench.bringUp n), .nothing)
  | .shutDown => (s.onBench (s.bench.shutDown n), .nothing)
  | .tearDown =>
    let (b, left) := s.bench.tearDown n
    (s.onBench b, .leftovers left)
  | .rearm => (s.onBench (s.bench.rearm n), .nothing)
  | .mask => (s.onBench (s.bench.mask n), .nothing)
  | .removeHandler => (s.onBench (s.bench.removeHandler n), .nothing)
  | .clearHook => (s.onBench (s.bench.clearHook n), .nothing)
  | .setHook hook =>
    s.withFound hook (s.hook? hook) fun h => (s.onBench (s.bench.setHook n h), .nothing)
  | .clearHookIf hook =>
    s.withFound hook (s.hook? hook) fun h => (s.onBench (s.bench.clearHookIf n h), .nothing)
  | .installHandler handler actions =>
    match s.resolveActions actions with
    | .error name => (s, .unknown name)
    | .ok actions =>
      let (calls, b) := s.bench.addSignal (.tally 0)
      let b := b.installHandler n (.raise calls :: actions)
      ((s.onBench b).name handler (.handler calls), .ok)
  | .transmit f =>
    let (b, r) := s.bench.transmit n f
    (s.onBench b, rejectionReply r)
  | .deliver f =>
    let (b, r) := s.bench.deliver n f
    (s.onBench b, rejectionReply r)
  | .receive =>
    let (b, f) := s.bench.take n .receive
    (s.onBench b, .frame f)

/-- Do something to a poll context. -/
def doContext (s : Session) (c : Handle PollContext) : ContextAction → Result
  | .enable => (s.onBench (s.bench.enableContext c), .nothing)
  | .disable =>
    let (b, r) := s.bench.disableContext c
    (s.onBench b, silentReply r)
  | .schedule =>
    let (b, accepted) := s.bench.schedule c
    (s.onBench b, .flag accepted)
  | .describe => (s, .text (s.bench.context c).describe)

/-- Do something to the peer of that name. -/
def doPeer (s : Session) (name : String) (p : Handle Peer) : PeerAction → Result
  | .transmit f =>
    let (b, r) := s.bench.peerTransmit p f
    (s.onBench b, refusalReply r)
  | .takePending =>
    let (b, pending) := s.bench.takeSignal (s.bench.peer p).signal
    (s.onBench b, .flag pending)
  | .cardPhase => (s, .text (s.bench.nic (s.bench.peer p).nic).gate.phase.name)
  | .loopback budget other =>
    s.withFound other (s.peer? other) fun q =>
      let ((b, ()), k) := Bench.pollPeer p budget (Bench.loopback q) (s.bench, ())
      (s.onBench b, .drained k none)
  | .drop => (s.drop name, .nothing)

/-- Do something to a device. -/
def doDevice (s : Session) (d : Handle Device) : DeviceAction → Result
  | .info => (s, .device (deviceInfo s.bench d))
  | .up => (s.onBench (s.bench.openDevice d), .nothing)
  | .down =>
    let (b, r) := s.bench.closeDevice d
    (s.onBench b, silentReply r)
  | .send f =>
    let (b, r) := s.bench.send d f
    (s.onBench b, refusalReply r)
  | .setAddress a =>
    let (b, r) := s.bench.setAddress d a
    (s.onBench b, refusalReply r)

/-- Do something to an endpoint. -/
def doEndpoint (s : Session) (e : Handle Endpoint) : EndpointAction → Result
  | .up => (s.onBench (s.bench.openEndpoint e), .nothing)
  | .down =>
    let (b, r) := s.bench.closeEndpoint e
    (s.onBench b, silentReply r)
  | .deviceUp => s.doDevice (s.bench.endpoint e).device .up
  | .deviceDown => s.doDevice (s.bench.endpoint e).device .down
  | .send f =>
    let (b, r) := s.bench.sendEndpoint e f
    (s.onBench b, refusalReply r)
  | .receive =>
    match s.bench.receiveEndpoint e with
    | (b, .ok f) => (s.onBench b, .frame f)
    | (b, .error f) => (s.onBench b, .fault f)
  | .turn =>
    match s.bench.turnEndpoint e with
    | (b, .ok ()) => (s.onBench b, .ok)
    | (b, .error f) => (s.onBench b, .fault f)
  | .info => (s, .endpoint (deviceInfo s.bench (s.bench.endpoint e).device))
  | .setAddress a => s.doDevice (s.bench.endpoint e).device (.setAddress a)
  | .rewrap => (s, .nothing)
  | .linkReceive answer =>
    let (b, o) := (Bench.endpointLink e).receiveAnswering s.bench answer
    (s.onBench b, .link o)
  | .linkTransmit f =>
    let (b, o) := (Bench.endpointLink e).transmitting s.bench f
    (s.onBench b, .link o)
  | .capabilities => (s, .capabilities Device.capabilities)

/-! ### Actions -/

/-- The signal by which the object of that name asks for a pass. -/
def request? (s : Session) (name : String) : Option (Handle Signal) :=
  (s.context? name).map fun c => (s.bench.context c).request

/-- Do an action. -/
def act (s : Session) : Action → Result
  | .newNic name tx rx =>
    match Nic.ofSizes tx rx with
    | .error f => (s, .fault f)
    | .ok x =>
      let (n, b) := s.bench.addNic x
      ((s.onBench b).name name (.nic n), .ok)
  | .newNicFrom name source =>
    s.withSettings source fun s x =>
      match s.bench.buildNic x with
      | .ok (n, b) => ((s.onBench b).name name (.nic n), .ok)
      | .error e => (s, failureReply e)
  | .newHook name =>
    let (h, b) := s.bench.addSignal (.tally 0)
    ((s.onBench b).name name (.hook h), .ok)
  | .newContext name request =>
    let (signal, b) := s.bench.addSignal request
    let (c, b) := b.addContext signal
    ((s.onBench b).name name (.context c), .ok)
  | .newPeer name nic =>
    s.withFound nic (s.nic? nic) fun n =>
      let (p, b) := s.bench.attachPeer n
      ((s.onBench b).name name (.peer p), .ok)
  | .newDevice name nic source request =>
    s.withSettings source fun s x =>
      let (signal, b) := s.bench.addSignal request
      match s.nic? nic with
      | some n =>
        match b.newDevice x n signal with
        | .ok (d, b) => ((s.onBench b).name name (.device d), .ok)
        | .error e => (s, .configError e)
      | none =>
        match b.buildDevice x signal with
        | .ok (d, b) =>
          (((s.onBench b).name nic (.nic (b.device d).nic)).name name (.device d), .ok)
        | .error e => (s, failureReply e)
  | .newEndpoint name nic source =>
    s.withFound nic (s.nic? nic) fun n =>
      s.withSettings source fun s x =>
        match s.bench.newEndpoint x n with
        | .ok (e, b) => ((s.onBench b).name name (.endpoint e), .ok)
        | .error e => (s, .configError e)
  | .readSettings source => s.withSettings source fun s x => (s, .settings x)
  | .takeRequest name =>
    s.withFound name (s.request? name) fun r =>
      let (b, pending) := s.bench.takeSignal r
      (s.onBench b, .flag pending)
  | .nic name a => s.withFound name (s.nic? name) fun n => s.doNic n a
  | .context name a => s.withFound name (s.context? name) fun c => s.doContext c a
  | .peer name a => s.withFound name (s.peer? name) fun p => s.doPeer name p a
  | .device name a => s.withFound name (s.device? name) fun d => s.doDevice d a
  | .endpoint name a => s.withFound name (s.endpoint? name) fun e => s.doEndpoint e a

end Session
end SoftNic
