import ApiToDns.Lib.Outline
import ApiToDns.Py.Str

/-!
# Syslog

The forwarder of audit events (`remote_syslog.py`): what its callers and its
worker do, as programs over the lock, the configuration, the queues, the stop
flag and the sockets.

What happens under the lock to data that is only used under the lock is one
operation; the queue is used without the lock too, so `configure` takes it up
one event after the other.  Timeouts are left out, and the encoder is a
parameter.  A loop has a number of rounds after which the program is cut off:
it stays where it is, as a thread does that gets no more time.
-/

namespace ApiToDns

open Py

abbrev Bytes := List UInt8

inductive SyslogProtocol where
  | tls
  | udp
  | tcp
deriving DecidableEq, Repr

/-- `SyslogConfig`, as far as the forwarder and its encoder read it. -/
structure SyslogConfig where
  enabled : Bool
  host : Str
  port : Nat
  protocol : SyslogProtocol
  facility : Str
  minimumLevel : Str
  queueSize : Nat
  hostname : Str
  generation : Nat
deriving DecidableEq

/-- `SyslogConfig()`. -/
def defaultSyslogConfig : SyslogConfig where
  enabled := false
  host := []
  port := 6514
  protocol := .tls
  facility := lit "local0"
  minimumLevel := lit "INFORMATIONAL"
  queueSize := 1000
  hostname := lit "-"
  generation := 0

/-- Where bytes go. -/
structure Endpoint where
  host : Str
  port : Nat
  protocol : SyslogProtocol
deriving DecidableEq

def SyslogConfig.endpoint (config : SyslogConfig) : Endpoint :=
  ⟨config.host, config.port, config.protocol⟩

/-- `ActivityLogSnapshot`: its level, and the fields that only the encoder
reads. -/
structure Snapshot where
  level : Str
  fields : Str
deriving DecidableEq

/-- A queued event, with the generation of the configuration it was queued
under. -/
abbrev SyslogItem := Nat × Snapshot

/-- A connected socket, or one for datagrams. -/
structure Sock where
  id : Nat
  endpoint : Endpoint
deriving DecidableEq

/-- What the forwarder is run with: upper case, and what `encode_rfc5424`
makes of an event after its first character.  An event on which the encoder
raises is dropped with the same warning as one whose sending fails; such an
event is one whose sending fails here. -/
structure SyslogHost where
  ucd : Ucd
  encoded : Snapshot → SyslogConfig → Bytes

/-- The bytes of an ASCII text. -/
def asciiBytes (s : Str) : Bytes := s.map fun c => UInt8.ofNat c.toNat

namespace SyslogHost

variable (H : SyslogHost)

/-- `encode_rfc5424`; a message begins with its priority. -/
def encodeRfc5424 (event : Snapshot) (config : SyslogConfig) : Bytes :=
  asciiBytes ['<'] ++ H.encoded event config

/-- `LOG_LEVEL_ORDER`, an unknown level ranking as informational. -/
def levelRank (level : Str) : Nat :=
  let level := H.ucd.upper (strip level)
  if level = lit "VERBOSE" then 0
  else if level = lit "WARNING" then 20
  else if level = lit "ERROR" then 30
  else 10

/-- `meets_minimum_level`. -/
def meetsMinimumLevel (eventLevel minimumLevel : Str) : Bool :=
  decide (H.levelRank minimumLevel ≤ H.levelRank eventLevel)

end SyslogHost

/-- `frame_tcp`. -/
def frameTcp (message : Bytes) : Bytes :=
  asciiBytes (natStr message.length) ++ asciiBytes [' '] ++ message

/-! ## operations -/

inductive SyslogOp where
  | acquire
  | release
  /-- `current_config` -/
  | readConfig
  /-- the next generation of a configuration; whether the queue has to be
  replaced -/
  | applyConfig (config : SyslogConfig)
  /-- `self._queue.get_nowait()`, under the lock -/
  | getNowait
  | replaceQueue (maxsize : Nat)
  /-- `self._queue.put_nowait(…)`, under the lock -/
  | putNowait (item : Option SyslogItem)
  | closeSockets
  /-- reading the attribute `_queue` -/
  | loadQueue
  | put (queue : Nat) (item : SyslogItem)
  /-- `get` with its timeout -/
  | get (queue : Nat)
  | isStopped
  | setStop
  | clearStop
  | hasThread
  /-- `thread.join`, which may time out -/
  | join
  /-- forgetting a thread that has ended -/
  | reap
  /-- `_ensure_worker_unlocked` -/
  | ensureWorker
  /-- the worker's thread ends -/
  | exit
  | udpSocket
  | sendTo (sock : Sock) (target : Endpoint) (data : Bytes)
  /-- the cached stream, if it goes to the target -/
  | cachedStream (target : Endpoint)
  | openStream (config : SyslogConfig)
  | installStream (sock : Sock) (config : SyslogConfig)
  | sendAll (sock : Sock) (data : Bytes)
  /-- what follows a broken stream: the configuration to reconnect with -/
  | dropStream (sock : Sock) (config : SyslogConfig)
deriving DecidableEq

abbrev SyslogOp.Reply : SyslogOp → Type
  | readConfig => SyslogConfig
  | applyConfig _ | putNowait _ | put .. | isStopped | hasThread | sendTo .. | installStream ..
  | sendAll .. => Bool
  -- nothing, the sentinel or an event
  | getNowait | get _ => Option (Option SyslogItem)
  | loadQueue => Nat
  | udpSocket => Sock
  | cachedStream _ | openStream _ => Option Sock
  | dropStream .. => Option SyslogConfig
  | _ => Unit

abbrev syslogSig : Sig := ⟨SyslogOp, SyslogOp.Reply⟩

/-- The operations under the lock. -/
def SyslogOp.locks : SyslogOp → Bool
  | acquire | readConfig | udpSocket | cachedStream _ | installStream .. | dropStream .. => true
  | _ => false

/-! ## callers -/

variable (H : SyslogHost)

/-- `enqueue`. -/
def syslogEnqueue (event : Snapshot) : Prog syslogSig Bool :=
  .call .readConfig fun config =>
    if !config.enabled || !H.meetsMinimumLevel event.level config.minimumLevel then .ret true
    else
      .call .loadQueue fun queue =>
        .call (.put queue (config.generation, event)) fun _ => .ret true

/-- The pending events of the queue. -/
def drainQueue : Nat → List SyslogItem → Prog syslogSig (Option (List SyslogItem))
  | 0, _ => .ret none
  | rounds + 1, pending =>
      .call .getNowait fun
        | none => .ret (some pending)
        | some none => drainQueue rounds pending
        | some (some item) => drainQueue rounds (pending ++ [item])

def putPending : List SyslogItem → Prog syslogSig Unit
  | [] => .ret ()
  | item :: rest =>
      .call (.putNowait (some item)) fun
        | true => putPending rest
        | false => .ret ()

/-- `pending[-n:]`. -/
def lastItems (n : Nat) (pending : List SyslogItem) : List SyslogItem :=
  if n = 0 then pending else pending.drop (pending.length - n)

/-- The end of `configure`; the worker that it starts is one of the programs. -/
def closeAndEnsure : Prog syslogSig Bool :=
  .call .closeSockets fun _ =>
    .call .ensureWorker fun _ => .call .release fun _ => .ret true

/-- `configure`. -/
def syslogConfigure (rounds : Nat) (config : SyslogConfig) : Prog syslogSig Bool :=
  .call .acquire fun _ =>
    .call (.applyConfig config) fun
      | false => closeAndEnsure
      | true => do
          let drained ← drainQueue rounds []
          match drained with
          | none => .ret false
          | some pending =>
              .call (.replaceQueue (max 1 config.queueSize)) fun _ => do
                let _ ← putPending (lastItems config.queueSize pending)
                closeAndEnsure

/-- `stop`. -/
def syslogStop : Prog syslogSig Bool :=
  .call .acquire fun _ =>
    .call .hasThread fun
      | false => .call .closeSockets fun _ => .call .release fun _ => .ret true
      | true =>
          .call .setStop fun _ =>
            .call (.putNowait none) fun _ =>
              .call .release fun _ =>
                .call .join fun _ =>
                  .call .acquire fun _ =>
                    .call .reap fun _ =>
                      .call .closeSockets fun _ =>
                        .call .clearStop fun _ => .call .release fun _ => .ret true

/-! ## the worker -/

/-- `_send_udp`. -/
def sendUdp (message : Bytes) (config : SyslogConfig) : Prog syslogSig Unit :=
  .call .udpSocket fun sock => .call (.sendTo sock config.endpoint message) fun _ => .ret ()

/-- The second attempt of `_send_stream`; what it raises is caught by the
worker. -/
def resendStream (framed : Bytes) (config : SyslogConfig) : Prog syslogSig Unit :=
  .call (.openStream config) fun
    | none => .ret ()
    | some opened =>
        .call (.installStream opened config) fun
          | false => .ret ()
          | true => .call (.sendAll opened framed) fun _ => .ret ()

def sendOnStream (framed : Bytes) (config : SyslogConfig) (sock : Sock) : Prog syslogSig Unit :=
  .call (.sendAll sock framed) fun
    | true => .ret ()
    | false =>
        .call (.dropStream sock config) fun
          | none => .ret ()
          | some reconnectConfig => resendStream framed reconnectConfig

/-- `_send_stream`. -/
def sendStream (message : Bytes) (config : SyslogConfig) : Prog syslogSig Unit :=
  .call (.cachedStream config.endpoint) fun
    | some sock => sendOnStream (frameTcp message) config sock
    | none =>
        .call (.openStream config) fun
          | none => .ret ()
          | some opened =>
              .call (.installStream opened config) fun
                | false => .ret ()
                | true => sendOnStream (frameTcp message) config opened

/-- `_send`. -/
def sendMessage (message : Bytes) (config : SyslogConfig) : Prog syslogSig Unit :=
  match config.protocol with
  | .tcp | .tls => sendStream message config
  | .udp => sendUdp message config

/-- `_run`. -/
def runWorker : Nat → Prog syslogSig Bool
  | 0 => .ret false
  | rounds + 1 =>
      .call .isStopped fun
        | true => .call .exit fun _ => .ret true
        | false =>
            .call .loadQueue fun queue =>
              .call (.get queue) fun
                | none => runWorker rounds
                | some none =>
                    .call .isStopped fun
                      | true => .call .exit fun _ => .ret true
                      | false => runWorker rounds
                | some (some (generation, event)) =>
                    .call .readConfig fun config =>
                      if generation ≠ config.generation || !config.enabled then runWorker rounds
                      else do
                        let _ ← sendMessage (H.encodeRfc5424 event config) config
                        runWorker rounds

/-- Who uses the forwarder. -/
inductive SyslogActor where
  | worker (rounds : Nat)
  | enqueue (event : Snapshot)
  | configure (rounds : Nat) (config : SyslogConfig)
  | stop

def SyslogActor.prog : SyslogActor → Prog syslogSig Bool
  | worker rounds => runWorker H rounds
  | enqueue event => syslogEnqueue H event
  | configure rounds config => syslogConfigure rounds config
  | stop => syslogStop

end ApiToDns
