import ApiToDns.Syslog

/-!
# Forwarding

The forwarder between its callers and its worker: its state, what every
operation does to it, and what has gone out.

Every byte of an event goes where the configuration said under which the event
was queued (`sent_as_configured`): what a worker knows after its check of the
generation is a fact about the past, which nobody can undo.
-/

namespace ApiToDns

open Py

/-- A `queue.Queue`; `none` is the sentinel. -/
structure EventQueue where
  items : List (Option SyslogItem)
  maxsize : Nat

namespace EventQueue

variable (q : EventQueue)

/-- A queue of size zero has no bound. -/
def isFull : Bool := decide (0 < q.maxsize ∧ q.maxsize ≤ q.items.length)

/-- `put_nowait`; a full queue refuses. -/
def put (item : Option SyslogItem) : EventQueue :=
  if q.isFull then q else { q with items := q.items ++ [item] }

def pop : EventQueue := { q with items := q.items.tail }

def events : List SyslogItem := q.items.filterMap id

end EventQueue

/-- An event that a worker has taken out of the queue, the configuration at that
moment, and whether the worker has read the configuration since. -/
structure InHand where
  item : SyslogItem
  dequeuedUnder : SyslogConfig
  checked : Bool

/-- What a worker sent: the event it had in hand, what was to be sent where, and
how much of it was. -/
structure SyslogWrite where
  hand : Option InHand
  sock : Sock
  target : Endpoint
  data : Bytes
  bytes : Bytes
  complete : Bool

/-- The forwarder, and what has happened: the configuration of every
generation, whether one is being put in place, what every worker has in hand,
and the events accepted and sent. -/
structure SyslogState (ι : Type) where
  lock : Option ι
  generation : Nat
  config : SyslogConfig
  queues : Nat → EventQueue
  current : Nat
  stopped : Bool
  /-- whether the thread is alive -/
  thread : Option Bool
  udp : Option Sock
  stream : Option (Sock × Endpoint)
  sockets : Nat
  history : Nat → SyslogConfig
  changing : Bool
  hands : ι → Option InHand
  accepted : List SyslogItem
  writes : List SyslogWrite

namespace SyslogState

variable {ι : Type} (s : SyslogState ι)

def queue : EventQueue := s.queues s.current

def setQueue (n : Nat) (q : EventQueue) : SyslogState ι :=
  { s with queues := Function.update s.queues n q }

/-- `configure`, up to the queue. -/
def apply (config : SyslogConfig) : SyslogState ι :=
  let applied := { config with generation := s.generation + 1 }
  { s with
    generation := s.generation + 1
    config := applied
    history := Function.update s.history (s.generation + 1) applied
    changing := true }

/-- Whether `configure` replaces the queue. -/
def resizes (config : SyslogConfig) : Bool :=
  decide (config.queueSize ≠ s.config.queueSize ∨ s.queue.maxsize ≠ config.queueSize)

/-- The check of `_install_stream`, and that before a reconnect. -/
def stillCurrent (config : SyslogConfig) : Bool :=
  s.config.generation = config.generation && s.config.enabled &&
    s.config.endpoint = config.endpoint

section

variable [DecidableEq ι] (i : ι)

def hold (hand : Option InHand) : SyslogState ι := { s with hands := Function.update s.hands i hand }

/-- What a worker sends; after all of it went out its hand is empty. -/
def write (sock : Sock) (target : Endpoint) (data bytes : Bytes) (complete : Bool) :
    SyslogState ι :=
  { s with
    hands := if complete then Function.update s.hands i none else s.hands
    writes := s.writes ++ [⟨s.hands i, sock, target, data, bytes, complete⟩] }

end

end SyslogState

/-- The operations; the world says which of them fail, and how much is sent
before a `sendall` that fails — never all. -/
def syslogReply {ι : Type} [DecidableEq ι] (i : ι) (x : Option Nat) :
    Handler syslogSig (SyslogState ι) := fun o s =>
  match o with
  | .acquire => ((), { s with lock := some i })
  | .release => ((), { s with lock := none, changing := false })
  | .readConfig =>
      (s.config, s.hold i ((s.hands i).map fun hand => { hand with checked := true }))
  | .applyConfig config => (s.resizes config, s.apply config)
  | .getNowait => (s.queue.items.head?, s.setQueue s.current s.queue.pop)
  | .replaceQueue maxsize =>
      ((), { s.setQueue (s.current + 1) ⟨[], maxsize⟩ with current := s.current + 1 })
  | .putNowait item => (!s.queue.isFull, s.setQueue s.current (s.queue.put item))
  | .closeSockets => ((), { s with udp := none, stream := none })
  | .loadQueue => (s.current, s)
  | .put n item =>
      if (s.queues n).isFull then (false, s)
      else (true, { s.setQueue n ((s.queues n).put item) with accepted := s.accepted ++ [item] })
  | .get n =>
      ((s.queues n).items.head?, (s.setQueue n (s.queues n).pop).hold i
        ((s.queues n).items.head?.join.map fun item => ⟨item, s.config, false⟩))
  | .isStopped => (s.stopped, s)
  | .setStop => ((), { s with stopped := true })
  | .clearStop => ((), { s with stopped := false })
  | .hasThread => (s.thread.isSome, s)
  | .join => ((), s)
  | .reap => ((), { s with thread := if s.thread = some false then none else s.thread })
  | .ensureWorker =>
      ((), if s.thread = some true then s else { s with stopped := false, thread := some true })
  | .exit => ((), { s with thread := some false })
  | .udpSocket =>
      let opened : Sock := ⟨s.sockets, ⟨[], 0, .udp⟩⟩
      match s.udp with
      | some sock => (sock, s)
      | none => (opened, { s with udp := some opened, sockets := s.sockets + 1 })
  | .sendTo sock target data =>
      match x with
      | none => (true, s.write i sock ⟨target.host, target.port, .udp⟩ data data true)
      | some _ => (false, s)
  | .cachedStream target =>
      (s.stream.bind fun (sock, addr) => if addr = target then some sock else none, s)
  | .openStream config =>
      match x with
      | none => (some ⟨s.sockets, config.endpoint⟩, { s with sockets := s.sockets + 1 })
      | some _ => (none, s)
  | .installStream sock config =>
      if s.stillCurrent config then (true, { s with stream := some (sock, config.endpoint) })
      else (false, s)
  | .sendAll sock data =>
      match x with
      | none => (true, s.write i sock sock.endpoint data data true)
      | some n => (false, s.write i sock sock.endpoint data (data.dropLast.take n) false)
  | .dropStream sock config =>
      (if s.stillCurrent config then some s.config else none,
        { s with stream := s.stream.filter fun (cached, _) => cached ≠ sock })

/-- Nobody asks for the lock who has it. -/
def syslogEnv (ι : Type) [DecidableEq ι] : Env syslogSig ι (Option Nat) (SyslogState ι) where
  ready _ o s := !o.locks || s.lock.isNone
  reply := syslogReply

/-- The state in which the callers and workers begin: nothing queued or sent. -/
def forwarderAt (ι : Type) (config : SyslogConfig) (thread : Option Bool) : SyslogState ι where
  lock := none
  generation := config.generation
  config := config
  queues _ := ⟨[], config.queueSize⟩
  current := 0
  stopped := false
  thread := thread
  udp := none
  stream := none
  sockets := 0
  history _ := config
  changing := false
  hands _ := none
  accepted := []
  writes := []

/-- A configuration, and an encoder that leaves the fields of an event as they
are. -/
def tcpConfig : SyslogConfig where
  enabled := true
  host := lit "203.0.113.5"
  port := 514
  protocol := .tcp
  facility := lit "local0"
  minimumLevel := lit "INFORMATIONAL"
  queueSize := 10
  hostname := lit "-"
  generation := 1

def plainHost : SyslogHost := ⟨.ascii, fun event _ => asciiBytes event.fields⟩

end ApiToDns
