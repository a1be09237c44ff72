import ApiToDns.Forwarding
import ApiToDns.Lib.Octets

/-!
# Streams

What a receiver reads from the connections on which events are sent under one
configuration.

A `sendall` that fails leaves a part of a frame behind.  The first one of an
event gives the connection up; the one after a reconnect leaves it in the cache,
so that the next event goes on where the part of a frame ended.  `Link` says what
the results of an event make of the connection.
-/

namespace ApiToDns

open Py

/-- What the world does with one event: the results of the connect that it may
begin with and of its `sendall`, and those of the second attempt.  A `sendall`
that fails has sent so many bytes, never all. -/
structure Results where
  connect : Bool
  send : Option Nat
  reconnect : Bool
  resend : Option Nat

namespace Results

variable (r : Results)

/-- The result of an operation, in the first or in the second attempt. -/
def choice (retrying : Bool) : SyslogOp → Option Nat
  | .openStream _ => if (if retrying then r.reconnect else r.connect) then none else some 0
  | .sendAll .. => if retrying then r.resend else r.send
  | _ => none

/-- The forwarder, and whether the event is in its second attempt. -/
def handler : Handler syslogSig (SyslogState Unit × Bool) := fun o s =>
  let reply := syslogReply () (r.choice s.2 o) o s.1
  (reply.1, reply.2, match o with
    | .cachedStream _ => false
    | .dropStream .. => true
    | _ => s.2)

end Results

variable (H : SyslogHost)

/-- An event is encoded and sent; what is raised on the way is caught. -/
def sendEvent (config : SyslogConfig) (s : SyslogState Unit) (event : Snapshot × Results) :
    SyslogState Unit :=
  (Prog.run event.2.handler (sendMessage (H.encodeRfc5424 event.1 config) config) (s, false)).2.1

/-- The events of a worker under one configuration, with their results. -/
def sendEvents (config : SyslogConfig) (s : SyslogState Unit) (events : List (Snapshot × Results)) :
    SyslogState Unit :=
  events.foldl (sendEvent H config) s

namespace SyslogState

variable {ι : Type} (s : SyslogState ι) (id : Nat)

/-- What was written to a connection, in order. -/
def writesOn : List SyslogWrite := s.writes.filter fun w => w.sock.id = id ∧ w.bytes ≠ []

def bytesOn : Bytes := (s.writesOn id).flatMap (·.bytes)

/-- The bytes of a connection are the frames of the messages whose `sendall`
went well, in order, and a part of one more frame at most, after which there is
nothing; and those messages are what a receiver reads. -/
structure Framed (messages sent : List Bytes) (rest : Bytes) : Prop where
  inOrder : sent.Sublist messages
  succeeded : ((s.writesOn id).filter (·.complete)).map (·.data) = sent.map frameTcp
  bytes : s.bytesOn id = (sent.map frameTcp).flatten ++ rest
  part : rest = [] ∨ ∃ message ∈ messages, ∃ k < (frameTcp message).length,
    rest = (frameTcp message).take k
  last : ∀ w ∈ (s.writesOn id).dropLast, w.complete = true
  decoded : Octets.decode (s.bytesOn id) = sent

end SyslogState

/-! ## the connection between events -/

/-- The cached connection: there is none, all that was written to it are whole
frames, or it ends in a part of one. -/
inductive Link where
  | closed
  | whole
  | broken
deriving DecidableEq

/-- The connection after the results of an event. -/
def Link.after (link : Link) (r : Results) : Link :=
  if link = .closed ∧ r.connect = false then .closed
  else
    match r.send with
    | none => if link = .broken then .broken else .whole
    | some _ =>
        if r.reconnect then
          match r.resend with
          | some (_ + 1) => .broken
          | _ => .whole
        else .closed

/-- No event writes to a connection that ends in a part of a frame. -/
def KeepsFraming : Link → List Results → Prop
  | _, [] => True
  | link, r :: rest => (link = .broken → r.send = some 0) ∧ KeepsFraming (link.after r) rest

instance decidableKeepsFraming : (link : Link) → (rs : List Results) → Decidable (KeepsFraming link rs)
  | _, [] => .isTrue trivial
  | link, r :: rest =>
      @instDecidableAnd (link = .broken → r.send = some 0) _ inferInstance
        (decidableKeepsFraming (link.after r) rest)

/-! ## one event -/

section

variable {config : SyslogConfig} {s : SyslogState Unit} {sock : Sock} {framed : Bytes}

/-- A `sendall` on a connection. -/
def SyslogState.attempt (s : SyslogState Unit) (sock : Sock) (framed : Bytes) (x : Option Nat) :
    SyslogState Unit :=
  (syslogReply () x (.sendAll sock framed) s).2

/-- A connection is opened and cached. -/
def SyslogState.reopen (s : SyslogState Unit) (config : SyslogConfig) : SyslogState Unit :=
  { s with
    sockets := s.sockets + 1
    stream := some (⟨s.sockets, config.endpoint⟩, config.endpoint) }

/-- A connection is given up. -/
def SyslogState.giveUp (s : SyslogState Unit) (sock : Sock) : SyslogState Unit :=
  { s with stream := s.stream.filter fun (cached, _) => cached ≠ sock }

/-- What follows when a connection has been given up. -/
def SyslogState.retry (s : SyslogState Unit) (config : SyslogConfig) (framed : Bytes)
    (r : Results) : SyslogState Unit :=
  if r.reconnect then (s.reopen config).attempt ⟨s.sockets, config.endpoint⟩ framed r.resend
  else s

/-- An event on a connection. -/
def SyslogState.deliver (s : SyslogState Unit) (config : SyslogConfig) (framed : Bytes)
    (r : Results) (sock : Sock) : SyslogState Unit :=
  match r.send with
  | none => s.attempt sock framed none
  | some n => ((s.attempt sock framed (some n)).giveUp sock).retry config framed r

/-- The configuration in use is current. -/
theorem stillCurrent_self (hconfig : s.config = config) (henabled : config.enabled = true) :
    s.stillCurrent config = true := by
  simp [SyslogState.stillCurrent, hconfig, henabled]

section

variable (r : Results) (retrying : Bool)

@[simp] theorem handler_cachedStream (target : Endpoint) :
    r.handler (.cachedStream target) (s, retrying) =
      (s.stream.bind fun (sock, addr) => if addr = target then some sock else none, s, false) := rfl

@[simp] theorem handler_sendAll : r.handler (.sendAll sock framed) (s, retrying) =
    ((if retrying then r.resend else r.send).isNone,
      s.attempt sock framed (if retrying then r.resend else r.send), retrying) := by
  simp only [Results.handler, Results.choice, SyslogState.attempt]
  cases (if retrying then r.resend else r.send) <;> rfl

@[simp] theorem handler_openStream : r.handler (.openStream config) (s, retrying) =
    if (if retrying then r.reconnect else r.connect) then
      (some ⟨s.sockets, config.endpoint⟩, { s with sockets := s.sockets + 1 }, retrying)
    else (none, s, retrying) := by
  simp only [Results.handler, Results.choice]
  cases (if retrying then r.reconnect else r.connect) <;> rfl

/-- A stream is installed. -/
theorem handler_installStream (hcurrent : s.stillCurrent config = true) :
    r.handler (.installStream sock config) (s, retrying) =
      (true, { s with stream := some (sock, config.endpoint) }, retrying) := by
  simp only [Results.handler, syslogReply, hcurrent, if_true]

/-- A stream is dropped. -/
theorem handler_dropStream (hcurrent : s.stillCurrent config = true) :
    r.handler (.dropStream sock config) (s, retrying) =
      (some s.config, s.giveUp sock, true) := by
  simp only [Results.handler, syslogReply, hcurrent, if_true]
  rfl

end

/-- An attempt leaves the configuration alone. -/
theorem config_attempt (x : Option Nat) : (s.attempt sock framed x).config = s.config := by
  cases x <;> rfl

/-- Sending again, as a function. -/
theorem run_resendStream (r : Results) (hconfig : s.config = config)
    (henabled : config.enabled = true) :
    (Prog.run r.handler (resendStream framed config) (s, true)).2.1 = s.retry config framed r := by
  have hcurrent : ({ s with sockets := s.sockets + 1 } : SyslogState Unit).stillCurrent config =
      true := stillCurrent_self hconfig henabled
  unfold resendStream SyslogState.retry
  rw [Prog.run_call, handler_openStream]
  cases r.reconnect with
  | false => rfl
  | true =>
      simp only [if_true, Prog.run_call, handler_installStream _ _ hcurrent, handler_sendAll]
      rfl

/-- Sending on a stream, as a function. -/
theorem run_sendOnStream (r : Results) (hconfig : s.config = config)
    (henabled : config.enabled = true) :
    (Prog.run r.handler (sendOnStream framed config sock) (s, false)).2.1 =
      s.deliver config framed r sock := by
  unfold sendOnStream SyslogState.deliver
  rw [Prog.run_call, handler_sendAll]
  cases hsend : r.send with
  | none => rfl
  | some n =>
      have hcurrent : (s.attempt sock framed (some n)).stillCurrent config = true :=
        stillCurrent_self hconfig henabled
      have hsame : (s.attempt sock framed (some n)).config = config := hconfig
      simp only [Bool.false_eq_true, if_false, Option.isNone_some, Prog.run_call,
        handler_dropStream _ _ hcurrent, hsame]
      exact run_resendStream r hsame henabled

/-- What an event does, by the connection that is cached. -/
theorem sendEvent_eq (event : Snapshot) (r : Results) (hconfig : s.config = config)
    (henabled : config.enabled = true) (hstream : config.protocol ≠ .udp)
    (hcached : ∀ sock addr, s.stream = some (sock, addr) → addr = config.endpoint) :
    sendEvent H config s (event, r) =
      match s.stream with
      | some (sock, _) => s.deliver config (frameTcp (H.encodeRfc5424 event config)) r sock
      | none =>
          if r.connect then
            (s.reopen config).deliver config (frameTcp (H.encodeRfc5424 event config)) r
              ⟨s.sockets, config.endpoint⟩
          else s := by
  have hsend : sendMessage (H.encodeRfc5424 event config) config =
      sendStream (H.encodeRfc5424 event config) config := by
    unfold sendMessage
    cases hprotocol : config.protocol <;> first | rfl | exact absurd hprotocol hstream
  unfold sendEvent
  rw [hsend, sendStream, Prog.run_call, handler_cachedStream]
  cases hcase : s.stream with
  | some cached =>
      obtain ⟨sock, addr⟩ := cached
      simp only [Option.bind_some, hcached sock addr hcase, if_true]
      exact run_sendOnStream r hconfig henabled
  | none =>
      have hcurrent : ({ s with sockets := s.sockets + 1 } : SyslogState Unit).stillCurrent config =
          true := stillCurrent_self hconfig henabled
      simp only [Option.bind_none, Prog.run_call, handler_openStream, Bool.false_eq_true, if_false]
      cases r.connect with
      | false => rfl
      | true =>
          simp only [if_true, Prog.run_call, handler_installStream _ _ hcurrent]
          exact run_sendOnStream (s := s.reopen config) r hconfig henabled

/-! ## what is on a connection -/

/-- All that was written to the connection are whole frames. -/
def SyslogState.Clean (s : SyslogState Unit) (id : Nat) : Prop :=
  ∀ w ∈ s.writesOn id, w.complete = true

/-- On every connection all but the last of what was written are whole frames. -/
def SyslogState.Good (s : SyslogState Unit) : Prop :=
  ∀ id, ∀ w ∈ (s.writesOn id).dropLast, w.complete = true

/-- What an attempt writes. -/
def SyslogState.attempted (s : SyslogState Unit) (sock : Sock) (framed : Bytes) (x : Option Nat) :
    SyslogWrite :=
  ⟨s.hands (), sock, sock.endpoint, framed,
    (x.map fun n => framed.dropLast.take n).getD framed, x.isNone⟩

/-- An attempt is written down. -/
theorem writes_attempt (x : Option Nat) :
    (s.attempt sock framed x).writes = s.writes ++ [s.attempted sock framed x] := by
  cases x <;> rfl

/-- An attempt that writes is on its socket. -/
theorem writesOn_attempt (x : Option Nat) (id : Nat) :
    (s.attempt sock framed x).writesOn id =
      s.writesOn id ++ if sock.id = id ∧ (s.attempted sock framed x).bytes ≠ [] then
        [s.attempted sock framed x] else [] := by
  have hsock : (s.attempted sock framed x).sock = sock := rfl
  rw [SyslogState.writesOn, writes_attempt, List.filter_append, List.filter_singleton, hsock]
  by_cases h : sock.id = id ∧ (s.attempted sock framed x).bytes ≠ []
  · rw [if_pos h, decide_eq_true h]
    rfl
  · rw [if_neg h, decide_eq_false h]
    rfl

/-- A frame has a count and a space. -/
theorem length_frameTcp (message : Bytes) : 2 ≤ (frameTcp message).length := by
  have hcount : 0 < (natStr message.length).length :=
    List.length_pos_iff.mpr (natStr_ne_nil message.length)
  simp only [frameTcp, asciiBytes, List.length_append, List.length_map, List.length_singleton]
  omega

/-- An attempt writes nothing only if it fails at once. -/
theorem bytes_attempted_eq_nil (hframed : 2 ≤ framed.length) (x : Option Nat) :
    (s.attempted sock framed x).bytes = [] ↔ x = some 0 := by
  cases x with
  | none =>
      have hne : framed ≠ [] := fun hnil => by simp [hnil] at hframed
      simp [SyslogState.attempted, hne]
  | some n =>
      have hne : framed.dropLast ≠ [] := by
        intro hnil
        have hlen := congrArg List.length hnil
        rw [List.length_dropLast, List.length_nil] at hlen
        omega
      simp [SyslogState.attempted, List.take_eq_nil_iff, hne]

/-- An attempt leaves the socket clean if it writes all or nothing. -/
theorem clean_attempt (hframed : 2 ≤ framed.length) (hclean : s.Clean sock.id) (x : Option Nat) :
    (s.attempt sock framed x).Clean sock.id ↔ x = none ∨ x = some 0 := by
  have hnil : (s.attempted sock framed x).bytes = [] ↔ x = some 0 :=
    bytes_attempted_eq_nil hframed x
  unfold SyslogState.Clean
  rw [writesOn_attempt]
  constructor
  · intro h
    by_cases hzero : x = some 0
    · exact .inr hzero
    · have hlast := h (s.attempted sock framed x) (by simp [hnil, hzero])
      exact .inl (by simpa [SyslogState.attempted] using hlast)
  · intro h w hw
    rcases List.mem_append.mp hw with hw | hw
    · exact hclean w hw
    · rcases h with rfl | rfl
      · simp only [SyslogState.attempted, List.mem_ite_nil_right, List.mem_singleton] at hw
        rw [hw.2]
        rfl
      · simp [hnil] at hw

/-- An attempt on a whole connection, or one that writes nothing, leaves all
connections in order. -/
theorem good_attempt (hframed : 2 ≤ framed.length) (hgood : s.Good) {x : Option Nat}
    (h : s.Clean sock.id ∨ x = some 0) : (s.attempt sock framed x).Good := by
  intro id w hw
  rw [writesOn_attempt] at hw
  split at hw
  · next hwrites =>
      rw [List.dropLast_concat] at hw
      rcases h with hclean | hzero
      · rw [← hwrites.1] at hw
        exact hclean w hw
      · exact absurd ((bytes_attempted_eq_nil hframed x).mpr hzero) hwrites.2
  · rw [List.append_nil] at hw
    exact hgood id w hw

/-- Something written after a part of a frame. -/
theorem not_good_attempt (hframed : 2 ≤ framed.length) {x : Option Nat}
    (hbroken : ¬ s.Clean sock.id) (hx : x ≠ some 0) : ¬ (s.attempt sock framed x).Good := by
  intro hgood
  have hbytes : (s.attempted sock framed x).bytes ≠ [] :=
    fun hnil => hx ((bytes_attempted_eq_nil hframed x).mp hnil)
  refine hbroken fun w hw => hgood sock.id w ?_
  rw [writesOn_attempt, if_pos ⟨rfl, hbytes⟩, List.dropLast_concat]
  exact hw

/-- What has been written stays. -/
theorem good_of_append {s' : SyslogState Unit} {l : List SyslogWrite}
    (h : s'.writes = s.writes ++ l) (hgood : s'.Good) : s.Good := by
  intro id w hw
  refine hgood id w ?_
  have hsplit : s'.writesOn id = s.writesOn id ++ (l.filter fun w => w.sock.id = id ∧ w.bytes ≠ []) := by
    rw [SyslogState.writesOn, h, List.filter_append]
    rfl
  rw [hsplit, List.dropLast_append]
  split
  · exact hw
  · exact List.mem_append_left _ (List.mem_of_mem_dropLast hw)

/-! ## what an event writes -/

/-- All of its data, or a part of it. -/
def WellWritten (w : SyslogWrite) : Prop :=
  (w.complete = true → w.bytes = w.data) ∧
    (w.complete = false → ∃ k < w.data.length, w.bytes = w.data.take k)

/-- Something is sent, and all of it once at most. -/
def Adds (framed : Bytes) (s s' : SyslogState Unit) : Prop :=
  ∃ l, s'.writes = s.writes ++ l ∧ (∀ w ∈ l, w.data = framed ∧ WellWritten w) ∧
    (l.filter (·.complete)).length ≤ 1

/-- Nothing is added. -/
theorem Adds.refl : Adds framed s s := ⟨[], by simp, by simp, by simp⟩

/-- An attempt writes a beginning of the frame. -/
theorem wellWritten_attempted (hframed : 2 ≤ framed.length) (x : Option Nat) :
    WellWritten (s.attempted sock framed x) := by
  cases x with
  | none => exact ⟨fun _ => rfl, nofun⟩
  | some n =>
      refine ⟨nofun, fun _ => ⟨min n (framed.length - 1), ?_, ?_⟩⟩
      · show min n (framed.length - 1) < framed.length
        omega
      · show framed.dropLast.take n = framed.take (min n (framed.length - 1))
        rw [List.dropLast_eq_take, List.take_take]

/-- An attempt adds a frame or a part of it. -/
theorem adds_attempt (hframed : 2 ≤ framed.length) (x : Option Nat) :
    Adds framed s (s.attempt sock framed x) := by
  refine ⟨[s.attempted sock framed x], writes_attempt x, ?_, List.length_filter_le _ _⟩
  intro w hw
  rw [List.mem_singleton.mp hw]
  exact ⟨rfl, wellWritten_attempted hframed x⟩

/-- So does another one. -/
theorem adds_retry (hframed : 2 ≤ framed.length) (r : Results) :
    Adds framed s (s.retry config framed r) := by
  unfold SyslogState.retry
  cases r.reconnect with
  | false => exact .refl
  | true => exact adds_attempt (s := s.reopen config) hframed r.resend

/-- So does a delivery. -/
theorem adds_deliver (hframed : 2 ≤ framed.length) (r : Results) :
    Adds framed s (s.deliver config framed r sock) := by
  unfold SyslogState.deliver
  cases r.send with
  | none => exact adds_attempt hframed none
  | some n =>
      have hretry : Adds framed ((s.attempt sock framed (some n)).giveUp sock)
          (((s.attempt sock framed (some n)).giveUp sock).retry config framed r) :=
        adds_retry hframed r
      obtain ⟨l, hl, hwritten, hone⟩ := hretry
      refine ⟨s.attempted sock framed (some n) :: l, ?_, ?_, ?_⟩
      · rw [hl]
        show (s.attempt sock framed (some n)).writes ++ l = _
        rw [writes_attempt, List.append_assoc]
        rfl
      · intro w hw
        rcases List.mem_cons.mp hw with rfl | hw
        · exact ⟨rfl, wellWritten_attempted hframed _⟩
        · exact hwritten w hw
      · -- the first attempt has failed
        rw [List.filter_cons_of_neg (by simp [SyslogState.attempted])]
        exact hone

/-- A delivery only adds writes. -/
theorem exists_writes_deliver (config : SyslogConfig) (framed : Bytes) (s : SyslogState Unit)
    (r : Results) (sock : Sock) :
    ∃ l, (s.deliver config framed r sock).writes = (s.attempt sock framed r.send).writes ++ l := by
  unfold SyslogState.deliver
  cases r.send with
  | none => exact ⟨[], by simp⟩
  | some n =>
      unfold SyslogState.retry
      cases r.reconnect with
      | false => exact ⟨[], by simp [SyslogState.giveUp]⟩
      | true => exact ⟨[_], writes_attempt _⟩

/-- No operation takes back what was written. -/
theorem exists_writes_reply (x : Option Nat) (o : SyslogOp) :
    ∃ l, (syslogReply () x o s).2.writes = s.writes ++ l := by
  cases o with
  | put n item => simp only [syslogReply]; split <;> exact ⟨[], by simp [SyslogState.setQueue]⟩
  | ensureWorker => simp only [syslogReply]; split <;> exact ⟨[], by simp⟩
  | udpSocket => simp only [syslogReply]; split <;> exact ⟨[], by simp⟩
  | installStream sock config => simp only [syslogReply]; split <;> exact ⟨[], by simp⟩
  | openStream config => cases x <;> exact ⟨[], by simp [syslogReply]⟩
  | sendTo sock target data => cases x <;> exact ⟨_, by first | rfl | exact (List.append_nil _).symm⟩
  | sendAll sock data => cases x <;> exact ⟨_, rfl⟩
  | _ => exact ⟨[], (List.append_nil _).symm⟩

/-- A program only adds writes. -/
theorem exists_writes_run {α : Type} (r : Results) (p : Prog syslogSig α) (retrying : Bool) :
    ∃ l, (p.run r.handler (s, retrying)).2.1.writes = s.writes ++ l := by
  induction p generalizing s retrying with
  | ret a => exact ⟨[], (List.append_nil _).symm⟩
  | call o k ih =>
      obtain ⟨l, hl⟩ := exists_writes_reply (s := s) (r.choice retrying o) o
      obtain ⟨l', hl'⟩ := ih (r.handler o (s, retrying)).1 (s := (r.handler o (s, retrying)).2.1)
        (r.handler o (s, retrying)).2.2
      refine ⟨l ++ l', ?_⟩
      rw [Prog.run_call, ← List.append_assoc, ← hl]
      exact hl'

/-- Sending events only adds writes. -/
theorem exists_writes_sendEvents (config : SyslogConfig) (s : SyslogState Unit)
    (events : List (Snapshot × Results)) :
    ∃ l, (sendEvents H config s events).writes = s.writes ++ l := by
  induction events generalizing s with
  | nil => exact ⟨[], (List.append_nil _).symm⟩
  | cons event rest ih =>
      obtain ⟨l, hl⟩ := exists_writes_run (s := s) event.2
        (sendMessage (H.encodeRfc5424 event.1 config) config) false
      obtain ⟨l', hl'⟩ := ih (sendEvent H config s event)
      refine ⟨l ++ l', ?_⟩
      rw [← List.append_assoc, ← hl]
      exact hl'

/-! ## one event after the other -/

/-- Between events: connections yet to come have other numbers, and the cached
one is as the link says. -/
structure Held (config : SyslogConfig) (link : Link) (s : SyslogState Unit) : Prop where
  current : s.config = config
  fresh : ∀ w ∈ s.writes, w.sock.id < s.sockets
  cached : ∀ sock addr, s.stream = some (sock, addr) → addr = config.endpoint ∧ sock.id < s.sockets
  closed : link = .closed ↔ s.stream = none
  whole : ∀ sock addr, s.stream = some (sock, addr) → (link = .whole ↔ s.Clean sock.id)
  good : s.Good

/-- The link that an attempt leaves. -/
def Link.tried : Option Nat → Link
  | some (_ + 1) => .broken
  | _ => .whole

/-- After an attempt the link is open. -/
theorem Link.tried_ne_closed (x : Option Nat) : Link.tried x ≠ .closed := by
  rcases x with _ | _ | n <;> exact nofun

/-- It is whole if all or nothing was written. -/
theorem Link.tried_eq_whole_iff (x : Option Nat) : Link.tried x = .whole ↔ x = none ∨ x = some 0 := by
  rcases x with _ | _ | n <;> simp [Link.tried]

/-- An attempt leaves the numbers of sockets fresh. -/
theorem Held.fresh_attempt {link : Link} (h : Held config link s) (hsock : sock.id < s.sockets)
    (x : Option Nat) : ∀ w ∈ (s.attempt sock framed x).writes,
      w.sock.id < (s.attempt sock framed x).sockets := by
  have hsame : (s.attempt sock framed x).sockets = s.sockets := by cases x <;> rfl
  intro w hw
  rw [hsame]
  rw [writes_attempt] at hw
  rcases List.mem_append.mp hw with hw | hw
  · exact h.fresh w hw
  · rw [List.mem_singleton.mp hw]
    exact hsock

/-- An attempt on the cached connection, all of it whole. -/
theorem Held.attempt {link : Link} (h : Held config link s) (hframed : 2 ≤ framed.length)
    (hstream : s.stream = some (sock, config.endpoint)) (hclean : s.Clean sock.id)
    (x : Option Nat) : Held config (Link.tried x) (s.attempt sock framed x) := by
  have hsame : (s.attempt sock framed x).stream = s.stream ∧
      (s.attempt sock framed x).sockets = s.sockets := by cases x <;> exact ⟨rfl, rfl⟩
  refine ⟨?_, h.fresh_attempt (h.cached sock _ hstream).2 x, ?_, ?_, ?_,
    good_attempt hframed h.good (.inl hclean)⟩
  · rw [config_attempt]
    exact h.current
  · rw [hsame.1, hsame.2]
    exact h.cached
  · rw [hsame.1, hstream]
    simp [Link.tried_ne_closed]
  · intro sock' addr' hstream'
    rw [hsame.1, hstream, Option.some.injEq, Prod.mk.injEq] at hstream'
    rw [← hstream'.1, clean_attempt hframed hclean]
    exact Link.tried_eq_whole_iff x

/-- Without a stream the link is closed. -/
theorem held_closed (hcurrent : s.config = config) (hfresh : ∀ w ∈ s.writes, w.sock.id < s.sockets)
    (hnone : s.stream = none) (hgood : s.Good) : Held config .closed s := by
  refine ⟨hcurrent, hfresh, ?_, by simp [hnone], ?_, hgood⟩
  · rw [hnone]
    exact nofun
  · rw [hnone]
    exact nofun

/-- Nothing has been written to a new connection. -/
theorem Held.reopen (h : Held config .closed s) : Held config .whole (s.reopen config) := by
  have hempty : (s.reopen config).Clean s.sockets := by
    intro w hw
    obtain ⟨hw, hsock⟩ := List.mem_filter.mp hw
    have hfresh := h.fresh w hw
    simp only [decide_eq_true_eq] at hsock
    omega
  refine ⟨h.current, fun w hw => Nat.lt_succ_of_lt (h.fresh w hw), ?_, ?_, ?_, h.good⟩
  · intro sock addr hstream
    rw [SyslogState.reopen, Option.some.injEq, Prod.mk.injEq] at hstream
    rw [← hstream.1, ← hstream.2]
    exact ⟨rfl, Nat.lt_succ_self _⟩
  · simp [SyslogState.reopen]
  · intro sock addr hstream
    rw [SyslogState.reopen, Option.some.injEq, Prod.mk.injEq] at hstream
    rw [← hstream.1]
    exact ⟨fun _ => hempty, fun _ => rfl⟩

/-- The link after another attempt. -/
theorem Held.retry (h : Held config .closed s) (hframed : 2 ≤ framed.length) (r : Results) :
    Held config (if r.reconnect then Link.tried r.resend else .closed)
      (s.retry config framed r) := by
  unfold SyslogState.retry
  cases r.reconnect with
  | false => exact h
  | true =>
      have hopen := h.reopen
      exact hopen.attempt hframed rfl ((hopen.whole _ _ rfl).mp rfl) r.resend

/-- The link after an event on an open one. -/
theorem Link.after_of_open {link : Link} (h : link ≠ .closed) (r : Results) :
    link.after r = match r.send with
      | none => link
      | some _ => if r.reconnect then Link.tried r.resend else .closed := by
  cases link with
  | closed => contradiction
  | whole => rfl
  | broken => rfl

/-- The link after a delivery. -/
theorem Held.deliver {link : Link} (h : Held config link s) (hframed : 2 ≤ framed.length)
    (hstream : s.stream = some (sock, config.endpoint)) (r : Results)
    (hok : link = .broken → r.send = some 0) :
    Held config (link.after r) (s.deliver config framed r sock) := by
  have hopen : link ≠ .closed := by
    intro hclosed
    rw [h.closed.mp hclosed] at hstream
    contradiction
  have hwhole : link = .broken ∨ link = .whole := by
    cases link with
    | closed => contradiction
    | whole => exact .inr rfl
    | broken => exact .inl rfl
  rw [Link.after_of_open hopen, SyslogState.deliver]
  cases hsend : r.send with
  | none =>
      rcases hwhole with hbroken | hwhole
      · rw [hok hbroken] at hsend
        contradiction
      · have hclean := (h.whole sock _ hstream).mp hwhole
        have hsent := h.attempt hframed hstream hclean none
        rw [hwhole]
        exact hsent
  | some n =>
      have hgood : (s.attempt sock framed (some n)).Good := by
        refine good_attempt hframed h.good ?_
        rcases hwhole with hbroken | hwhole
        · rw [← hsend]
          exact .inr (hok hbroken)
        · exact .inl ((h.whole sock _ hstream).mp hwhole)
      have hnone : ((s.attempt sock framed (some n)).giveUp sock).stream = none := by
        show s.stream.filter _ = none
        simp [hstream]
      exact Held.retry (held_closed (s := (s.attempt sock framed (some n)).giveUp sock) h.current
        (h.fresh_attempt (h.cached sock _ hstream).2 (some n)) hnone hgood) hframed r

variable (henabled : config.enabled = true) (hstreamed : config.protocol ≠ .udp)

include henabled hstreamed

/-- The link after an event. -/
theorem held_sendEvent {link : Link} (h : Held config link s) (event : Snapshot) (r : Results)
    (hok : link = .broken → r.send = some 0) :
    Held config (link.after r) (sendEvent H config s (event, r)) := by
  have hframed := length_frameTcp (H.encodeRfc5424 event config)
  rw [sendEvent_eq H event r h.current henabled hstreamed fun sock addr hs => (h.cached sock addr hs).1]
  cases hstream : s.stream with
  | some cached =>
      obtain ⟨sock, addr⟩ := cached
      have haddr := (h.cached sock addr hstream).1
      rw [haddr] at hstream
      exact h.deliver hframed hstream r hok
  | none =>
      have hclosed := h.closed.mpr hstream
      subst hclosed
      cases hconnect : r.connect with
      | false =>
          have hafter : Link.closed.after r = .closed := by simp [Link.after, hconnect]
          rw [hafter]
          exact h
      | true =>
          have hafter : Link.closed.after r = Link.whole.after r := by simp [Link.after, hconnect]
          rw [hafter]
          exact h.reopen.deliver hframed rfl r nofun

/-- A connection that ends in a part of a frame is written to again. -/
theorem not_good_sendEvent (h : Held config .broken s) (event : Snapshot) {r : Results}
    (hsend : r.send ≠ some 0) : ¬ (sendEvent H config s (event, r)).Good := by
  have hframed := length_frameTcp (H.encodeRfc5424 event config)
  rw [sendEvent_eq H event r h.current henabled hstreamed fun sock addr hs => (h.cached sock addr hs).1]
  cases hstream : s.stream with
  | none => exact absurd (h.closed.mpr hstream) nofun
  | some cached =>
      obtain ⟨sock, addr⟩ := cached
      have hbroken : ¬ s.Clean sock.id := by
        intro hclean
        exact absurd ((h.whole sock addr hstream).mpr hclean) nofun
      obtain ⟨l, hl⟩ := exists_writes_deliver config (frameTcp (H.encodeRfc5424 event config)) s r sock
      exact fun hgood => not_good_attempt hframed hbroken hsend (good_of_append hl hgood)

/-- The framing stays good if no broken link is written on. -/
theorem good_sendEvents_iff {link : Link} (h : Held config link s)
    (events : List (Snapshot × Results)) :
    (sendEvents H config s events).Good ↔ KeepsFraming link (events.map Prod.snd) := by
  induction events generalizing s link with
  | nil => exact iff_of_true h.good trivial
  | cons event rest ih =>
      obtain ⟨event, r⟩ := event
      by_cases hok : link = .broken → r.send = some 0
      · have hnext := held_sendEvent H henabled hstreamed h event r hok
        exact (ih hnext).trans (and_iff_right hok).symm
      · have hbroken : link = .broken ∧ r.send ≠ some 0 := by
          simpa using hok
        obtain ⟨rfl, hsend⟩ := hbroken
        refine iff_of_false (fun hgood => ?_) fun hkeeps => hok hkeeps.1
        obtain ⟨l, hl⟩ := exists_writes_sendEvents H config (sendEvent H config s (event, r)) rest
        exact not_good_sendEvent H henabled hstreamed h event hsend (good_of_append hl hgood)

/-! ## what a receiver reads -/

/-- All was written for messages, and for every message in its turn once at
most. -/
structure Logged (messages : List Bytes) (s : SyslogState Unit) : Prop where
  written : ∀ w ∈ s.writes, (∃ message ∈ messages, w.data = frameTcp message) ∧ WellWritten w
  inOrder : ((s.writes.filter (·.complete)).map (·.data)).Sublist (messages.map frameTcp)

omit henabled hstreamed in

/-- One more message is logged. -/
theorem Logged.adds {messages : List Bytes} {message : Bytes} {s' : SyslogState Unit}
    (h : Logged messages s) (hadds : Adds (frameTcp message) s s') :
    Logged (messages ++ [message]) s' := by
  obtain ⟨l, hl, hwritten, hone⟩ := hadds
  refine ⟨?_, ?_⟩
  · intro w hw
    rw [hl] at hw
    rcases List.mem_append.mp hw with hw | hw
    · obtain ⟨⟨m, hm, hdata⟩, hwell⟩ := h.written w hw
      exact ⟨⟨m, List.mem_append_left _ hm, hdata⟩, hwell⟩
    · exact ⟨⟨message, by simp, (hwritten w hw).1⟩, (hwritten w hw).2⟩
  · rw [hl, List.filter_append, List.map_append, List.map_append]
    refine h.inOrder.append ?_
    cases hfilter : l.filter (·.complete) with
    | nil => exact List.nil_sublist _
    | cons w rest =>
        rw [hfilter, List.length_cons] at hone
        have hrest : rest = [] := List.length_eq_zero_iff.mp (by omega)
        have hw : w ∈ l := List.mem_of_mem_filter (by rw [hfilter]; exact List.mem_cons_self)
        rw [hrest, List.map_singleton, List.map_singleton, (hwritten w hw).1]

/-- An event adds its frame or a part of it. -/
theorem adds_sendEvent {link : Link} (h : Held config link s) (event : Snapshot) (r : Results) :
    Adds (frameTcp (H.encodeRfc5424 event config)) s (sendEvent H config s (event, r)) := by
  have hframed := length_frameTcp (H.encodeRfc5424 event config)
  rw [sendEvent_eq H event r h.current henabled hstreamed fun sock addr hs => (h.cached sock addr hs).1]
  cases s.stream with
  | some cached => exact adds_deliver hframed r
  | none =>
      cases r.connect with
      | false => exact .refl
      | true => exact adds_deliver (s := s.reopen config) hframed r

/-- The events are logged in their order. -/
theorem logged_sendEvents {link : Link} {messages : List Bytes} (h : Held config link s)
    (hlogged : Logged messages s) {events : List (Snapshot × Results)}
    (hkeeps : KeepsFraming link (events.map Prod.snd)) :
    Logged (messages ++ events.map fun e => H.encodeRfc5424 e.1 config)
      (sendEvents H config s events) := by
  induction events generalizing s link messages with
  | nil =>
      rw [List.map_nil, List.append_nil]
      exact hlogged
  | cons event rest ih =>
      obtain ⟨event, r⟩ := event
      have hnext := held_sendEvent H henabled hstreamed h event r hkeeps.1
      have hadds := hlogged.adds (adds_sendEvent H henabled hstreamed h event r)
      have hrest := ih hnext hadds hkeeps.2
      rw [List.append_assoc] at hrest
      exact hrest

omit henabled hstreamed

/-- Whole frames, and a part of one at the end. -/
theorem flatMap_bytes {l : List SyslogWrite} (hlast : ∀ w ∈ l.dropLast, w.complete = true)
    (hwell : ∀ w ∈ l, WellWritten w) :
    ∃ rest, l.flatMap (·.bytes) = ((l.filter (·.complete)).map (·.data)).flatten ++ rest ∧
      (rest = [] ∨ ∃ w ∈ l, ∃ k < w.data.length, rest = w.data.take k) := by
  have hall : ∀ l : List SyslogWrite, (∀ w ∈ l, w.complete = true) → (∀ w ∈ l, WellWritten w) →
      l.flatMap (·.bytes) = ((l.filter (·.complete)).map (·.data)).flatten := by
    intro l hcomplete hwell
    rw [List.filter_eq_self.mpr hcomplete, List.flatMap_def]
    exact congrArg _ (List.map_congr_left fun w hw => (hwell w hw).1 (hcomplete w hw))
  rcases List.eq_nil_or_concat l with rfl | ⟨init, last, rfl⟩
  · exact ⟨[], rfl, .inl rfl⟩
  · rw [List.concat_eq_append] at hlast hwell ⊢
    rw [List.dropLast_concat] at hlast
    have hinit := hall init hlast fun w hw => hwell w (List.mem_append_left _ hw)
    have hmem : last ∈ init ++ [last] := by simp
    rw [List.flatMap_append, hinit, List.filter_append]
    cases hcomplete : last.complete with
    | true =>
        have hbytes := (hwell last hmem).1 hcomplete
        exact ⟨[], by simp [hcomplete, hbytes], .inl rfl⟩
    | false =>
        obtain ⟨k, hk, hbytes⟩ := (hwell last hmem).2 hcomplete
        exact ⟨last.bytes, by simp [hcomplete], .inr ⟨last, hmem, k, hk, hbytes⟩⟩

/-- A message is framed with its count of octets. -/
theorem frameTcp_eq_frame (message : Bytes) : frameTcp message = Octets.frame message := by
  simp [frameTcp, Octets.frame, asciiBytes, Octets.countOf, natStr, Octets.space]

/-- A connection in order is read as the messages that went well on it. -/
theorem framed_of_good {messages : List Bytes} (hgood : s.Good) (hlogged : Logged messages s)
    (hne : ∀ message ∈ messages, message ≠ []) (id : Nat) :
    ∃ sent rest, s.Framed id messages sent rest := by
  have hmem : ∀ w ∈ s.writesOn id, w ∈ s.writes := fun w hw => List.mem_of_mem_filter hw
  have hsublist : (((s.writesOn id).filter (·.complete)).map (·.data)).Sublist
      (messages.map frameTcp) := by
    refine List.Sublist.trans ?_ hlogged.inOrder
    exact ((List.filter_sublist (l := s.writes)).filter _).map _
  obtain ⟨sent, hsent, hdata⟩ := List.sublist_map_iff.mp hsublist
  obtain ⟨rest, hbytes, hrest⟩ := flatMap_bytes (hgood id) fun w hw => (hlogged.written w (hmem w hw)).2
  have hpart : rest = [] ∨ ∃ message ∈ messages, ∃ k < (frameTcp message).length,
      rest = (frameTcp message).take k := by
    refine hrest.imp (fun hnil => hnil) fun ⟨w, hw, k, hk, htake⟩ => ?_
    obtain ⟨⟨message, hmessage, hdata⟩, -⟩ := hlogged.written w (hmem w hw)
    rw [hdata] at hk htake
    exact ⟨message, hmessage, k, hk, htake⟩
  rw [hdata] at hbytes
  refine ⟨sent, rest, hsent, hdata, hbytes, hpart, hgood id, ?_⟩
  have hnone : Octets.decode rest = [] := by
    rcases hpart with rfl | ⟨message, hmessage, k, hk, rfl⟩
    · rfl
    · rw [frameTcp_eq_frame] at hk ⊢
      exact Octets.decode_take_frame (hne message hmessage) hk
  rw [SyslogState.bytesOn, hbytes, List.map_congr_left fun m _ => frameTcp_eq_frame m]
  exact Octets.decode_frames (fun m hm => hne m (hsent.subset hm)) hnone

end

/-- Every connection carries frames, and a part of one more at most, and is read
as the messages that were sent on it: exactly if no event writes to a connection
on which the second attempt of the event before it broke off. -/
theorem streams_framed_iff (config : SyslogConfig) (henabled : config.enabled = true)
    (hstreamed : config.protocol ≠ .udp) (events : List (Snapshot × Results)) :
    (∀ id, ∃ sent rest,
      (sendEvents H config (forwarderAt Unit config (some true)) events).Framed id
        (events.map fun e => H.encodeRfc5424 e.1 config) sent rest) ↔
      KeepsFraming .closed (events.map Prod.snd) := by
  have hstart : Held config .closed (forwarderAt Unit config (some true)) :=
    held_closed rfl nofun rfl nofun
  have hgood := good_sendEvents_iff H henabled hstreamed hstart events
  constructor
  · intro h
    refine hgood.mp fun id => ?_
    obtain ⟨sent, rest, hframed⟩ := h id
    exact hframed.last
  · intro hkeeps
    have hlogged : Logged [] (forwarderAt Unit config (some true)) := ⟨nofun, List.Sublist.refl _⟩
    have hall := logged_sendEvents H henabled hstreamed hstart hlogged hkeeps
    refine framed_of_good (hgood.mpr hkeeps) hall fun message hmessage => ?_
    obtain ⟨e, -, rfl⟩ := List.mem_map.mp hmessage
    simp [SyslogHost.encodeRfc5424, asciiBytes]

/-! ## two events -/

def plainEvent : Snapshot := ⟨lit "ERROR", lit "134>1"⟩

/-- The connection breaks under the second event, which is sent again on a new
one. -/
def resentEvents : List (Snapshot × Results) :=
  [(plainEvent, ⟨true, none, false, none⟩), (plainEvent, ⟨true, some 3, true, none⟩)]

/-- The first event breaks off on the new connection too, and the second one
goes on there. -/
def brokenOffEvents : List (Snapshot × Results) :=
  [(plainEvent, ⟨true, some 0, true, some 3⟩), (plainEvent, ⟨true, none, false, none⟩)]

theorem resentEvents_framed : ∃ sent rest,
    (sendEvents plainHost tcpConfig (forwarderAt Unit tcpConfig (some true)) resentEvents).Framed 1
      (resentEvents.map fun e => plainHost.encodeRfc5424 e.1 tcpConfig) sent rest :=
  (streams_framed_iff plainHost tcpConfig rfl nofun resentEvents).mpr (by decide) 1

/-- The second event has gone well, and a receiver reads another message. -/
theorem brokenOffEvents_not_framed : ¬ ∀ id, ∃ sent rest,
    (sendEvents plainHost tcpConfig (forwarderAt Unit tcpConfig (some true))
      brokenOffEvents).Framed id
        (brokenOffEvents.map fun e => plainHost.encodeRfc5424 e.1 tcpConfig) sent rest := by
  intro h
  obtain ⟨sent, rest, hframed⟩ := h 1
  have hsent := hframed.succeeded
  rw [← hframed.decoded] at hsent
  exact absurd hsent (by decide)

end ApiToDns
