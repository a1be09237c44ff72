import ApiToDns.Forwarding

/-!
# Destinations

Every byte of an event goes where the configuration said under which the event
was queued, however the callers and the workers of the forwarder interleave.

A generation names one configuration for good.  So what a worker learns from
its check — that the event in its hand is of the generation that was current
when it was dequeued, and under which configuration — cannot be undone by a
configuration that replaces it, and a connection is cached with the address it
goes to.
-/

namespace ApiToDns

open Py

/-- What goes over the wire for an event. -/
def SyslogHost.onWire (H : SyslogHost) (event : Snapshot) (config : SyslogConfig) : Bytes :=
  match config.protocol with
  | .udp => H.encodeRfc5424 event config
  | .tcp | .tls => frameTcp (H.encodeRfc5424 event config)

section

variable {ι : Type} {H : SyslogHost}

/-- The event goes where its configuration says, which was current and enabled
when the event was dequeued. -/
structure SentRight (H : SyslogHost) (history : Nat → SyslogConfig) (hand : InHand)
    (w : SyslogWrite) : Prop where
  inHand : w.hand = some hand
  dequeuedUnder : hand.dequeuedUnder = history hand.item.1
  generation : hand.dequeuedUnder.generation = hand.item.1
  enabled : hand.dequeuedUnder.enabled = true
  target : w.target = (history hand.item.1).endpoint
  bytes : w.bytes <+: H.onWire hand.item.2 (history hand.item.1)

/-- An event that was dequeued under a configuration of the past, and is not
younger. -/
def HeldRight (s : SyslogState ι) (hand : InHand) : Prop :=
  hand.item.1 ≤ hand.dequeuedUnder.generation ∧ hand.dequeuedUnder.generation ≤ s.generation ∧
    hand.dequeuedUnder = s.history hand.dequeuedUnder.generation

/-- Generations name configurations; nothing is queued, held or sent of a
generation to come; a connection is cached with its address. -/
structure Numbered (H : SyslogHost) (s : SyslogState ι) : Prop where
  applied : s.config = s.history s.generation
  numbered : ∀ g ≤ s.generation, (s.history g).generation = g
  queued : ∀ n, ∀ item ∈ (s.queues n).events, item.1 ≤ s.generation
  held : ∀ i hand, s.hands i = some hand → HeldRight s hand
  connected : ∀ sock target, s.stream = some (sock, target) → sock.endpoint = target
  sent : ∀ w ∈ s.writes, ∃ hand, hand.item.1 ≤ s.generation ∧ SentRight H s.history hand w

namespace EventQueue

variable {q : EventQueue} {item : SyslogItem}

@[simp] theorem events_nil (maxsize : Nat) : (EventQueue.mk [] maxsize).events = [] := rfl

/-- The sentinel is no event. -/
@[simp] theorem events_put_none : (q.put none).events = q.events := by
  unfold put events
  split <;> simp

/-- An event goes in if there is room. -/
theorem events_put_some :
    (q.put (some item)).events = if q.isFull then q.events else q.events ++ [item] := by
  unfold put events
  split <;> simp

/-- What a queue gives away was in it. -/
theorem events_eq_head : q.events = q.items.head?.join.toList ++ q.pop.events := by
  obtain ⟨items, maxsize⟩ := q
  cases items with
  | nil => rfl
  | cons head rest => cases head <;> simp [events, pop]

end EventQueue

/-- A queue of earlier events keeps the numbers. -/
theorem Numbered.setQueue {s : SyslogState ι} (h : Numbered H s) {n : Nat} {q : EventQueue}
    (hq : ∀ item ∈ q.events, item.1 ≤ s.generation) : Numbered H (s.setQueue n q) where
  applied := h.applied
  numbered := h.numbered
  queued := by
    intro m
    show ∀ item ∈ (Function.update s.queues n q m).events, item.1 ≤ s.generation
    by_cases hm : m = n
    · rw [hm, Function.update_self]
      exact hq
    · rw [Function.update_of_ne hm]
      exact h.queued m
  held := h.held
  connected := h.connected
  sent := h.sent

/-- A new configuration takes the next number. -/
theorem Numbered.apply {s : SyslogState ι} (h : Numbered H s) (config : SyslogConfig) :
    Numbered H (s.apply config) := by
  have hold : ∀ g ≤ s.generation, (s.apply config).history g = s.history g := by
    intro g hg
    have hne : g ≠ s.generation + 1 := by omega
    simp [SyslogState.apply, Function.update_of_ne hne]
  refine ⟨by simp [SyslogState.apply], ?_, ?_, ?_, h.connected, ?_⟩
  · intro g hg
    by_cases hlast : g = s.generation + 1
    · simp [SyslogState.apply, hlast]
    · have hg' : g ≤ s.generation + 1 := hg
      have hle : g ≤ s.generation := by omega
      rw [hold g hle]
      exact h.numbered g hle
  · exact fun n item hitem => Nat.le_succ_of_le (h.queued n item hitem)
  · intro i hand hhand
    obtain ⟨hitem, hle, hunder⟩ := h.held i hand hhand
    exact ⟨hitem, Nat.le_succ_of_le hle, by rw [hold _ hle]; exact hunder⟩
  · intro w hw
    obtain ⟨hand, hle, hright⟩ := h.sent w hw
    have hsame := hold hand.item.1 hle
    refine ⟨hand, Nat.le_succ_of_le hle, hright.inHand, ?_, hright.generation, hright.enabled, ?_, ?_⟩
    · rw [hsame]
      exact hright.dequeuedUnder
    · rw [hsame]
      exact hright.target
    · rw [hsame]
      exact hright.bytes

section

variable [DecidableEq ι] {i : ι}

/-- What is in hand keeps the numbers. -/
theorem Numbered.hold {s : SyslogState ι} (h : Numbered H s) {hand : Option InHand}
    (hhand : ∀ hand', hand = some hand' → HeldRight s hand') : Numbered H (s.hold i hand) where
  applied := h.applied
  numbered := h.numbered
  queued := h.queued
  held := by
    intro j hand'
    show Function.update s.hands i hand j = some hand' → HeldRight s hand'
    by_cases hij : j = i
    · rw [hij, Function.update_self]
      exact hhand hand'
    · rw [Function.update_of_ne hij]
      exact h.held j hand'
  connected := h.connected
  sent := h.sent

/-- A write keeps the numbers. -/
theorem Numbered.write {s : SyslogState ι} (h : Numbered H s) {hand : InHand} {sock : Sock}
    {target : Endpoint} {data bytes : Bytes} {complete : Bool} (hle : hand.item.1 ≤ s.generation)
    (hright : SentRight H s.history hand ⟨s.hands i, sock, target, data, bytes, complete⟩) :
    Numbered H (s.write i sock target data bytes complete) where
  applied := h.applied
  numbered := h.numbered
  queued := h.queued
  held := by
    have hdone : Numbered H (s.hold i none) := h.hold (by simp)
    cases complete with
    | true => exact hdone.held
    | false => exact h.held
  connected := h.connected
  sent := by
    intro w hw
    rcases List.mem_append.mp hw with hw | hw
    · exact h.sent w hw
    · rw [List.mem_singleton] at hw
      subst hw
      exact ⟨hand, hle, hright⟩

/-! ## one operation -/

/-- A worker that has checked the event in its hand: it was dequeued under the
configuration of its generation. -/
structure Cleared (i : ι) (event : Snapshot) (config : SyslogConfig) (s : SyslogState ι) :
    Prop where
  inHand : ∃ hand, s.hands i = some hand ∧ hand.item = (config.generation, event) ∧
    hand.dequeuedUnder = config
  history : s.history config.generation = config
  generation : config.generation ≤ s.generation
  enabled : config.enabled = true

/-- What an operation needs to keep the numbering. -/
def Permitted (H : SyslogHost) (i : ι) (s : SyslogState ι) : SyslogOp → Prop
  | .put _ item => item.1 ≤ s.generation
  | .putNowait (some item) => item.1 ≤ s.generation
  | .sendTo _ target data => ∃ event config, Cleared i event config s ∧ config.protocol = .udp ∧
      target = config.endpoint ∧ data = H.onWire event config
  | .sendAll sock data => ∃ event config, Cleared i event config s ∧
      sock.endpoint = config.endpoint ∧ data = H.onWire event config
  | .installStream sock config => sock.endpoint = config.endpoint
  | _ => True

omit [DecidableEq ι] in

/-- What is sent after a check is sent right. -/
theorem Cleared.sentRight {event : Snapshot} {config : SyslogConfig} {s : SyslogState ι}
    (h : Cleared i event config s) {sock : Sock} {data bytes : Bytes} {complete : Bool}
    (hbytes : bytes <+: H.onWire event config) :
    ∃ hand, hand.item.1 ≤ s.generation ∧
      SentRight H s.history hand ⟨s.hands i, sock, config.endpoint, data, bytes, complete⟩ := by
  obtain ⟨hand, hhand, hitem, hunder⟩ := h.inHand
  have hhistory := h.history
  refine ⟨hand, ?_, hhand, ?_, ?_, ?_, ?_, ?_⟩
  · rw [hitem]
    exact h.generation
  · rw [hitem, hunder, hhistory]
  · rw [hitem, hunder]
  · rw [hunder]
    exact h.enabled
  · rw [hitem, hhistory]
  · rw [hitem, hhistory]
    exact hbytes

/-- An event that goes in has a number so far. -/
theorem events_put_le {q : EventQueue} {item : Option SyslogItem} {n : Nat}
    (hq : ∀ e ∈ q.events, e.1 ≤ n) (hitem : ∀ e, item = some e → e.1 ≤ n) :
    ∀ e ∈ (q.put item).events, e.1 ≤ n := by
  cases item with
  | none => simpa using hq
  | some e =>
      intro e' he'
      rw [EventQueue.events_put_some] at he'
      split at he'
      · exact hq e' he'
      · rcases List.mem_append.mp he' with he' | he'
        · exact hq e' he'
        · rw [List.mem_singleton] at he'
          rw [he']
          exact hitem e rfl

/-- What is left has numbers so far. -/
theorem events_pop_le {q : EventQueue} {n : Nat} (hq : ∀ item ∈ q.events, item.1 ≤ n) :
    ∀ item ∈ q.pop.events, item.1 ≤ n := by
  intro item hitem
  refine hq item ?_
  rw [q.events_eq_head]
  exact List.mem_append_right _ hitem

omit [DecidableEq ι] in

/-- The next event has a number so far. -/
theorem Numbered.head_le {s : SyslogState ι} (h : Numbered H s) {n : Nat} {item : SyslogItem}
    (hitem : (s.queues n).items.head? = some (some item)) : item.1 ≤ s.generation := by
  refine h.queued n item ?_
  rw [EventQueue.events_eq_head, hitem]
  simp

/-- A permitted step keeps the numbers. -/
theorem numbered_reply {x : Option Nat} {o : SyslogOp} {s : SyslogState ι} (h : Numbered H s)
    (hperm : Permitted H i s o) : Numbered H (syslogReply i x o s).2 := by
  cases o with
  | readConfig =>
      refine h.hold fun hand' hhand' => ?_
      obtain ⟨hand, hhand, rfl⟩ := Option.map_eq_some_iff.mp hhand'
      exact h.held i hand hhand
  | applyConfig config => exact h.apply config
  | getNowait => exact h.setQueue (events_pop_le (h.queued s.current))
  | replaceQueue maxsize =>
      have hnew : Numbered H (s.setQueue (s.current + 1) ⟨[], maxsize⟩) := h.setQueue (by simp)
      exact ⟨hnew.applied, hnew.numbered, hnew.queued, hnew.held, hnew.connected, hnew.sent⟩
  | putNowait item =>
      refine h.setQueue (events_put_le (h.queued s.current) fun e he => ?_)
      subst he
      exact hperm
  | closeSockets => exact ⟨h.applied, h.numbered, h.queued, h.held, by simp [syslogReply], h.sent⟩
  | put n item =>
      simp only [syslogReply]
      split
      · exact h
      · have hnew : Numbered H (s.setQueue n ((s.queues n).put (some item))) := by
          refine h.setQueue (events_put_le (h.queued n) fun e he => ?_)
          rw [← Option.some.inj he]
          exact hperm
        exact ⟨hnew.applied, hnew.numbered, hnew.queued, hnew.held, hnew.connected, hnew.sent⟩
  | get n =>
      have hnew : Numbered H (s.setQueue n (s.queues n).pop) :=
        h.setQueue (events_pop_le (h.queued n))
      refine hnew.hold fun hand' hhand' => ?_
      obtain ⟨item, hitem, rfl⟩ := Option.map_eq_some_iff.mp hhand'
      have hgen : s.config.generation = s.generation := by
        rw [h.applied]
        exact h.numbered _ le_rfl
      have hhead := h.head_le (Option.join_eq_some_iff.mp hitem)
      refine ⟨?_, ?_, ?_⟩
      · rw [hgen]
        exact hhead
      · exact hgen.le
      · show s.config = s.history s.config.generation
        rw [hgen]
        exact h.applied
  | ensureWorker =>
      simp only [syslogReply]
      split
      · exact h
      · exact ⟨h.applied, h.numbered, h.queued, h.held, h.connected, h.sent⟩
  | udpSocket =>
      simp only [syslogReply]
      split
      · exact h
      · exact ⟨h.applied, h.numbered, h.queued, h.held, h.connected, h.sent⟩
  | sendTo sock target data =>
      obtain ⟨event, config, hcleared, hudp, rfl, rfl⟩ := hperm
      cases x with
      | none =>
          have htarget : (⟨config.endpoint.host, config.endpoint.port, .udp⟩ : Endpoint) =
              config.endpoint := by
            rw [← hudp]
            rfl
          simp only [syslogReply, htarget]
          obtain ⟨hand, hle, hright⟩ := hcleared.sentRight (List.prefix_refl (H.onWire event config))
          exact h.write hle hright
      | some n => exact h
  | openStream config => cases x <;> exact ⟨h.applied, h.numbered, h.queued, h.held, h.connected, h.sent⟩
  | installStream sock config =>
      simp only [syslogReply]
      split
      · refine ⟨h.applied, h.numbered, h.queued, h.held, ?_, h.sent⟩
        intro sock' target' hinstalled
        rw [Option.some.injEq, Prod.mk.injEq] at hinstalled
        rw [← hinstalled.1, ← hinstalled.2]
        exact hperm
      · exact h
  | sendAll sock data =>
      obtain ⟨event, config, hcleared, htarget, rfl⟩ := hperm
      cases x with
      | none =>
          simp only [syslogReply, htarget]
          obtain ⟨hand, hle, hright⟩ := hcleared.sentRight (List.prefix_refl (H.onWire event config))
          exact h.write hle hright
      | some n =>
          simp only [syslogReply, htarget]
          have hpart : (H.onWire event config).dropLast.take n <+: H.onWire event config :=
            (List.take_prefix n _).trans (List.dropLast_prefix _)
          obtain ⟨hand, hle, hright⟩ := hcleared.sentRight hpart
          exact h.write hle hright
  | dropStream sock config =>
      refine ⟨h.applied, h.numbered, h.queued, h.held, ?_, h.sent⟩
      intro sock' target' hkept
      exact h.connected sock' target' (Option.filter_eq_some_iff.mp hkept).1
  | acquire => exact ⟨h.applied, h.numbered, h.queued, h.held, h.connected, h.sent⟩
  | release => exact ⟨h.applied, h.numbered, h.queued, h.held, h.connected, h.sent⟩
  | setStop => exact ⟨h.applied, h.numbered, h.queued, h.held, h.connected, h.sent⟩
  | clearStop => exact ⟨h.applied, h.numbered, h.queued, h.held, h.connected, h.sent⟩
  | reap => exact ⟨h.applied, h.numbered, h.queued, h.held, h.connected, h.sent⟩
  | exit => exact ⟨h.applied, h.numbered, h.queued, h.held, h.connected, h.sent⟩
  | loadQueue => exact h
  | isStopped => exact h
  | hasThread => exact h
  | join => exact h
  | cachedStream target => exact h

/-! ## one program among others -/

/-- A program relies on the others to leave alone what it has in hand, and the
configurations of the past. -/
def syslogTerms (ι : Type) [DecidableEq ι] (H : SyslogHost) :
    Terms syslogSig ι (Option Nat) (SyslogState ι) where
  env := syslogEnv ι
  cond _ _ _ _ := True
  inv := Numbered H
  rely i s s' := s'.hands i = s.hands i ∧ s.generation ≤ s'.generation ∧
    ∀ g ≤ s.generation, s'.history g = s.history g

/-- The step of one actor is what the others rely on. -/
theorem rely_syslogReply {j : ι} (hj : j ≠ i) (x : Option Nat) (o : SyslogOp)
    (s : SyslogState ι) : (syslogTerms ι H).rely j s (syslogReply i x o s).2 := by
  have hsame : ∀ hands : ι → Option InHand, hands j = s.hands j →
      hands j = s.hands j ∧ s.generation ≤ s.generation ∧
        ∀ g ≤ s.generation, s.history g = s.history g := fun _ h => ⟨h, le_rfl, fun _ _ => rfl⟩
  cases o with
  | applyConfig config =>
      refine ⟨rfl, Nat.le_succ _, fun g hg => ?_⟩
      have hne : g ≠ s.generation + 1 := by omega
      exact Function.update_of_ne hne _ _
  | readConfig => exact hsame _ (Function.update_of_ne hj _ _)
  | get n => exact hsame _ (Function.update_of_ne hj _ _)
  | sendTo sock target data =>
      cases x with
      | none => exact hsame _ (Function.update_of_ne hj _ _)
      | some n => exact hsame _ rfl
  | sendAll sock data =>
      cases x with
      | none => exact hsame _ (Function.update_of_ne hj _ _)
      | some n => exact hsame _ rfl
  | openStream config => cases x <;> exact hsame _ rfl
  | put n item => simp only [syslogReply]; split <;> exact hsame _ rfl
  | ensureWorker => simp only [syslogReply]; split <;> exact hsame _ rfl
  | udpSocket => simp only [syslogReply]; split <;> exact hsame _ rfl
  | installStream sock config => simp only [syslogReply]; split <;> exact hsame _ rfl
  | _ => exact hsame _ rfl

/-- What is known of a program when nothing is asked of its end. -/
abbrev SyslogOutline (H : SyslogHost) (i : ι) {α : Type} (p : Prog syslogSig α)
    (K : SyslogState ι → Prop) : Prop :=
  (syslogTerms ι H).Outline i (fun _ => True) (fun _ _ => True) p K

section

variable {α : Type} {post : α → SyslogState ι → Prop} {K : SyslogState ι → Prop}

/-- The outline of one step. -/
theorem outline_syslog {o : SyslogOp} {k : o.Reply → Prog syslogSig α}
    (hperm : ∀ s, Numbered H s → K s → Permitted H i s o)
    (hk : ∀ x s, Numbered H s → K s → ∃ K', (syslogTerms ι H).Stable i K' ∧
      K' (syslogReply i x o s).2 ∧
        (syslogTerms ι H).Outline i (fun _ => True) post (k (syslogReply i x o s).1) K') :
    (syslogTerms ι H).Outline i (fun _ => True) post (.call o k) K :=
  ⟨fun _ _ _ => trivial, fun x s hs hK _ _ => ⟨numbered_reply hs (hperm s hs hK),
    fun _ hj => rely_syslogReply hj x o s, hk x s hs hK⟩⟩

/-- An operation after which the program knows what it knew before. -/
theorem outline_keeps {o : SyslogOp} {k : o.Reply → Prog syslogSig α}
    (hstable : (syslogTerms ι H).Stable i K) (hperm : ∀ s, Numbered H s → K s → Permitted H i s o)
    (hkeeps : ∀ x s, K s → K (syslogReply i x o s).2)
    (hk : ∀ r, (syslogTerms ι H).Outline i (fun _ => True) post (k r) K) :
    (syslogTerms ι H).Outline i (fun _ => True) post (.call o k) K :=
  outline_syslog hperm fun x s _ hK => ⟨K, hstable, hkeeps x s hK, hk _⟩

end

/-- What is always so stays so. -/
theorem stable_true : (syslogTerms ι H).Stable i fun _ => True := fun _ _ _ _ _ h => h

/-- Generations only go up. -/
theorem stable_generation (n : Nat) :
    (syslogTerms ι H).Stable i fun s => n ≤ s.generation :=
  fun _ _ _ _ hrely h => h.trans hrely.2.1

/-- The others leave the check of a worker as it is. -/
theorem stable_cleared (event : Snapshot) (config : SyslogConfig) :
    (syslogTerms ι H).Stable i (Cleared i event config) := by
  intro s s' _ _ hrely h
  refine ⟨?_, ?_, h.generation.trans hrely.2.1, h.enabled⟩
  · rw [hrely.1]
    exact h.inHand
  · rw [hrely.2.2 _ h.generation]
    exact h.history

/-! ## callers -/

/-- The outline of an enqueue. -/
theorem outline_syslogEnqueue (event : Snapshot) :
    SyslogOutline H i (syslogEnqueue H event) fun _ => True := by
  refine outline_syslog (fun _ _ _ => trivial) fun x s hs _ => ?_
  have hgen : s.config.generation ≤ s.generation := by
    rw [hs.applied]
    exact (hs.numbered _ le_rfl).le
  refine ⟨fun s' => s.config.generation ≤ s'.generation, stable_generation _, hgen, ?_⟩
  show SyslogOutline H i (if !s.config.enabled || !H.meetsMinimumLevel event.level
    s.config.minimumLevel then _ else _) _
  split
  · exact fun _ _ _ => trivial
  · refine outline_keeps (stable_generation _) (fun _ _ _ => trivial) (fun _ _ h => h) fun n => ?_
    refine outline_syslog (fun _ _ h => h) fun x s' _ h' => ?_
    exact ⟨fun _ => True, stable_true, trivial, fun _ _ _ => trivial⟩

/-- Every operation of a caller that puts nothing into the queue. -/
theorem outline_plain {α : Type} {post : α → SyslogState ι → Prop} {o : SyslogOp}
    {k : o.Reply → Prog syslogSig α} (hperm : ∀ s : SyslogState ι, Permitted H i s o)
    (hk : ∀ r, (syslogTerms ι H).Outline i (fun _ => True) post (k r) fun _ => True) :
    (syslogTerms ι H).Outline i (fun _ => True) post (.call o k) fun _ => True :=
  outline_keeps stable_true (fun s _ _ => hperm s) (fun _ _ h => h) hk

/-- Events of the past. -/
def Past (pending : List SyslogItem) (s : SyslogState ι) : Prop :=
  ∀ item ∈ pending, item.1 ≤ s.generation

omit [DecidableEq ι] in

/-- What is past stays past. -/
theorem Past.mono {pending : List SyslogItem} {s s' : SyslogState ι} (h : Past pending s)
    (hle : s.generation ≤ s'.generation) : Past pending s' :=
  fun item hitem => (h item hitem).trans hle

/-- The others leave the past as it is. -/
theorem stable_past (pending : List SyslogItem) : (syslogTerms ι H).Stable i (Past pending) :=
  fun _ _ _ _ hrely h => h.mono hrely.2.1

/-- The outline of taking the queue over. -/
theorem outline_drainQueue (rounds : Nat) (pending : List SyslogItem) :
    (syslogTerms ι H).Outline i (fun _ => True) (fun drained s => ∀ l, drained = some l → Past l s)
      (drainQueue rounds pending) (Past pending) := by
  induction rounds generalizing pending with
  | zero => exact fun _ _ _ _ h => nomatch h
  | succ rounds ih =>
      refine outline_syslog (fun _ _ _ => trivial) fun x s hs hpast => ?_
      show ∃ K', (syslogTerms ι H).Stable i K' ∧ K' (s.setQueue s.current s.queue.pop) ∧
        (syslogTerms ι H).Outline i (fun _ => True) _ (match s.queue.items.head? with
          | none => Prog.ret (some pending)
          | some none => drainQueue rounds pending
          | some (some item) => drainQueue rounds (pending ++ [item])) K'
      cases hhead : s.queue.items.head? with
      | none =>
          refine ⟨Past pending, stable_past _, hpast, fun s' _ hpast' l hl => ?_⟩
          rw [← Option.some.inj hl]
          exact hpast'
      | some head =>
          cases head with
          | none => exact ⟨Past pending, stable_past _, hpast, ih pending⟩
          | some item =>
              refine ⟨Past (pending ++ [item]), stable_past _, ?_, ih _⟩
              intro item' hitem'
              rcases List.mem_append.mp hitem' with hitem' | hitem'
              · exact hpast item' hitem'
              · rw [List.mem_singleton] at hitem'
                rw [hitem']
                exact hs.head_le hhead

/-- The outline of putting it back. -/
theorem outline_putPending (pending : List SyslogItem) :
    SyslogOutline H i (putPending pending) (Past pending) := by
  induction pending with
  | nil => exact fun _ _ _ => trivial
  | cons item rest ih =>
      have hrest : ∀ s : SyslogState ι, Past (item :: rest) s → Past rest s :=
        fun s h item' hitem' => h item' (List.mem_cons_of_mem _ hitem')
      refine outline_syslog (fun s _ h => h item List.mem_cons_self) fun x s _ h => ?_
      refine ⟨Past rest, stable_past _, hrest s h, ?_⟩
      cases (syslogReply i x (.putNowait (some item)) s).1 with
      | true => exact ih
      | false => exact fun _ _ _ => trivial

/-- The outline of closing the stream. -/
theorem outline_closeAndEnsure : SyslogOutline H i closeAndEnsure fun _ => True :=
  outline_plain (fun _ => trivial) fun _ => outline_plain (fun _ => trivial) fun _ =>
    outline_plain (fun _ => trivial) fun _ => fun _ _ _ => trivial

/-- The last items are among all. -/
theorem mem_lastItems {n : Nat} {pending : List SyslogItem} {item : SyslogItem}
    (h : item ∈ lastItems n pending) : item ∈ pending := by
  unfold lastItems at h
  split at h
  · exact h
  · exact List.mem_of_mem_drop h

/-- The outline of a configuration. -/
theorem outline_syslogConfigure (rounds : Nat) (config : SyslogConfig) :
    SyslogOutline H i (syslogConfigure rounds config) fun _ => True := by
  refine outline_plain (fun _ => trivial) fun _ => outline_plain (fun _ => trivial) fun resizes => ?_
  cases resizes with
  | false => exact outline_closeAndEnsure
  | true =>
      have hstart : (syslogTerms ι H).Outline i (fun _ => True)
          (fun drained s => ∀ l, drained = some l → Past l s) (drainQueue rounds []) fun _ => True :=
        (outline_drainQueue rounds []).mono (fun _ _ _ _ h => nomatch h) fun _ _ h => h
      refine hstart.bind fun drained => ?_
      cases drained with
      | none => exact fun _ _ _ => trivial
      | some pending =>
          refine Terms.Outline.mono (K := Past pending) ?_ (fun s _ h => h pending rfl)
            fun _ _ h => h
          refine outline_keeps (stable_past pending) (fun _ _ _ => trivial) (fun _ _ h => h)
            fun _ => ?_
          have hputs := outline_putPending (H := H) (i := i) (lastItems config.queueSize pending)
          refine (hputs.mono (fun s _ h item hitem => h item (mem_lastItems hitem))
            fun _ _ h => h).bind fun _ => outline_closeAndEnsure

/-- The outline of a stop. -/
theorem outline_syslogStop : SyslogOutline H i syslogStop fun _ => True := by
  refine outline_plain (fun _ => trivial) fun _ => outline_plain (fun _ => trivial) fun hasThread => ?_
  cases hasThread with
  | false =>
      exact outline_plain (fun _ => trivial) fun _ => outline_plain (fun _ => trivial) fun _ =>
        fun _ _ _ => trivial
  | true =>
      refine outline_plain (fun _ => trivial) fun _ => outline_plain (fun _ => trivial) fun _ => ?_
      refine outline_plain (fun _ => trivial) fun _ => outline_plain (fun _ => trivial) fun _ => ?_
      refine outline_plain (fun _ => trivial) fun _ => outline_plain (fun _ => trivial) fun _ => ?_
      refine outline_plain (fun _ => trivial) fun _ => outline_plain (fun _ => trivial) fun _ => ?_
      exact outline_plain (fun _ => trivial) fun _ => fun _ _ _ => trivial

/-! ## the worker -/

/-- What a connection has been opened for. -/
theorem endpoint_of_openStream {x : Option Nat} {config : SyslogConfig} {s : SyslogState ι}
    {sock : Sock} (h : (syslogReply i x (.openStream config) s).1 = some sock) :
    sock.endpoint = config.endpoint := by
  cases x with
  | none =>
      rw [← Option.some.inj h]
  | some n => contradiction

/-- The configuration to reconnect with is the one of the event. -/
theorem eq_of_dropStream {x : Option Nat} {event : Snapshot} {config config' : SyslogConfig}
    {s : SyslogState ι} {sock : Sock} (hs : Numbered H s) (hcleared : Cleared i event config s)
    (h : (syslogReply i x (.dropStream sock config) s).1 = some config') : config' = config := by
  have hreply : (if s.stillCurrent config then some s.config else none) = some config' := h
  split at hreply
  · next hcurrent =>
      have hsame : s.config.generation = config.generation := by
        simp only [SyslogState.stillCurrent, Bool.and_eq_true, decide_eq_true_eq] at hcurrent
        exact hcurrent.1.1
      have hgeneration : s.generation = config.generation := by
        rw [← hsame, hs.applied]
        exact (hs.numbered _ le_rfl).symm
      rw [← Option.some.inj hreply, hs.applied, hgeneration]
      exact hcleared.history
  · contradiction

section

variable {event : Snapshot} {config : SyslogConfig}

/-- After a `sendall` that failed the event is still in the worker's hand. -/
theorem outline_sendAll {framed : Bytes} {sock : Sock} {k : Bool → Prog syslogSig Unit}
    (hframed : framed = H.onWire event config) (hsock : sock.endpoint = config.endpoint)
    (hsent : ∃ u, k true = .ret u) (hfailed : SyslogOutline H i (k false) (Cleared i event config)) :
    SyslogOutline H i (.call (.sendAll sock framed) k) (Cleared i event config) := by
  refine outline_syslog (fun s _ h => ⟨event, config, h, hsock, hframed⟩) fun x s _ h => ?_
  cases x with
  | none =>
      refine ⟨fun _ => True, stable_true, trivial, ?_⟩
      obtain ⟨u, hu⟩ := hsent
      show SyslogOutline H i (k true) _
      rw [hu]
      exact fun _ _ _ => trivial
  | some n =>
      exact ⟨Cleared i event config, stable_cleared _ _,
        ⟨h.inHand, h.history, h.generation, h.enabled⟩, hfailed⟩

/-- An operation of the worker on its connections. -/
theorem outline_link {α : Type} {o : SyslogOp} {k : o.Reply → Prog syslogSig α}
    (hperm : ∀ s : SyslogState ι, Permitted H i s o)
    (hkeeps : ∀ x (s : SyslogState ι), Cleared i event config s →
      Cleared i event config (syslogReply i x o s).2)
    (hk : ∀ x s, Numbered H s → Cleared i event config s →
      SyslogOutline H i (k (syslogReply i x o s).1) (Cleared i event config)) :
    SyslogOutline H i (.call o k) (Cleared i event config) :=
  outline_syslog (fun s _ _ => hperm s) fun x s hs h =>
    ⟨Cleared i event config, stable_cleared _ _, hkeeps x s h, hk x s hs h⟩

omit [DecidableEq ι] in

/-- A check holds while hand, log and generation stay. -/
theorem Cleared.of_same {s s' : SyslogState ι} (h : Cleared i event config s)
    (hhands : s'.hands = s.hands) (hhistory : s'.history = s.history)
    (hgeneration : s'.generation = s.generation) : Cleared i event config s' := by
  refine ⟨?_, ?_, ?_, h.enabled⟩
  · rw [hhands]
    exact h.inHand
  · rw [hhistory]
    exact h.history
  · rw [hgeneration]
    exact h.generation

/-- The outline of installing a stream. -/
theorem outline_install {opened : Sock} {k : Bool → Prog syslogSig Unit}
    (hopened : opened.endpoint = config.endpoint)
    (hk : ∀ r, SyslogOutline H i (k r) (Cleared i event config)) :
    SyslogOutline H i (.call (.installStream opened config) k) (Cleared i event config) := by
  refine outline_link (fun _ => hopened) (fun x s h => ?_) fun x s _ _ => hk _
  simp only [syslogReply]
  split
  · exact h.of_same rfl rfl rfl
  · exact h

/-- The outline of opening a stream. -/
theorem outline_open {k : Option Sock → Prog syslogSig Unit}
    (hnone : SyslogOutline H i (k none) (Cleared i event config))
    (hsome : ∀ opened : Sock, opened.endpoint = config.endpoint →
      SyslogOutline H i (k (some opened)) (Cleared i event config)) :
    SyslogOutline H i (.call (.openStream config) k) (Cleared i event config) := by
  refine outline_link (fun _ => trivial) (fun x s h => ?_) fun x s _ _ => ?_
  · cases x <;> exact h.of_same rfl rfl rfl
  · cases hreply : (syslogReply i x (.openStream config) s).1 with
    | none => exact hnone
    | some opened => exact hsome opened (endpoint_of_openStream hreply)

/-- The outline of sending on a new stream. -/
theorem outline_resendStream {framed : Bytes} (hframed : framed = H.onWire event config) :
    SyslogOutline H i (resendStream framed config) (Cleared i event config) := by
  refine outline_open (fun _ _ _ => trivial) fun opened hopened => ?_
  refine outline_install hopened fun installed => ?_
  cases installed with
  | false => exact fun _ _ _ => trivial
  | true => exact outline_sendAll hframed hopened ⟨(), rfl⟩ fun _ _ _ => trivial

/-- The outline of sending on a stream. -/
theorem outline_sendOnStream {framed : Bytes} {sock : Sock}
    (hframed : framed = H.onWire event config) (hsock : sock.endpoint = config.endpoint) :
    SyslogOutline H i (sendOnStream framed config sock) (Cleared i event config) := by
  refine outline_sendAll hframed hsock ⟨(), rfl⟩ ?_
  refine outline_link (fun _ => trivial) (fun x s h => h.of_same rfl rfl rfl) fun x s hs h => ?_
  cases hreply : (syslogReply i x (.dropStream sock config) s).1 with
  | none => exact fun _ _ _ => trivial
  | some reconnectConfig =>
      have hsame := eq_of_dropStream hs h hreply
      rw [hsame]
      exact outline_resendStream hframed

/-- The outline of sending over TCP. -/
theorem outline_sendStream {message : Bytes} (hframed : frameTcp message = H.onWire event config) :
    SyslogOutline H i (sendStream message config) (Cleared i event config) := by
  refine outline_link (fun _ => trivial) (fun x s h => h) fun x s hs h => ?_
  cases hreply : (syslogReply i x (.cachedStream config.endpoint) s).1 with
  | some sock =>
      refine outline_sendOnStream hframed ?_
      -- a cached connection goes to the address that it is cached with
      obtain ⟨cached, hcached, haddr⟩ := Option.bind_eq_some_iff.mp hreply
      obtain ⟨sock', addr⟩ := cached
      have hgoes := hs.connected sock' addr hcached
      dsimp only at haddr
      split at haddr
      · next htarget => rw [← Option.some.inj haddr, hgoes, htarget]
      · contradiction
  | none =>
      refine outline_open (fun _ _ _ => trivial) fun opened hopened => ?_
      refine outline_install hopened fun installed => ?_
      cases installed with
      | false => exact fun _ _ _ => trivial
      | true => exact outline_sendOnStream hframed hopened

/-- The outline of sending over UDP. -/
theorem outline_sendUdp (hudp : config.protocol = .udp) :
    SyslogOutline H i (sendUdp (H.encodeRfc5424 event config) config) (Cleared i event config) := by
  have hwire : H.encodeRfc5424 event config = H.onWire event config := by
    rw [SyslogHost.onWire, hudp]
  refine outline_link (fun _ => trivial) (fun x s h => ?_) fun x s _ _ => ?_
  · simp only [syslogReply]
    split
    · exact h
    · exact h.of_same rfl rfl rfl
  · refine outline_syslog (fun s _ h => ⟨event, config, h, hudp, rfl, hwire⟩) fun x s _ _ => ?_
    exact ⟨fun _ => True, stable_true, trivial, fun _ _ _ => trivial⟩

/-- The outline of sending. -/
theorem outline_sendMessage :
    SyslogOutline H i (sendMessage (H.encodeRfc5424 event config) config)
      (Cleared i event config) := by
  have hframed : config.protocol ≠ .udp →
      frameTcp (H.encodeRfc5424 event config) = H.onWire event config := by
    intro hne
    unfold SyslogHost.onWire
    cases hprotocol : config.protocol <;> first | rfl | exact absurd hprotocol hne
  unfold sendMessage
  cases hprotocol : config.protocol with
  | tcp => exact outline_sendStream (hframed (by simp [hprotocol]))
  | tls => exact outline_sendStream (hframed (by simp [hprotocol]))
  | udp => exact outline_sendUdp hprotocol

end

/-- The worker has taken an event. -/
def Took (i : ι) (item : SyslogItem) (s : SyslogState ι) : Prop :=
  ∃ hand, s.hands i = some hand ∧ hand.item = item

/-- The others leave what a worker took. -/
theorem stable_took (item : SyslogItem) : (syslogTerms ι H).Stable i (Took i item) := by
  intro s s' _ _ hrely h
  unfold Took
  rw [hrely.1]
  exact h

/-- The check of the worker clears the event. -/
theorem cleared_of_took {generation : Nat} {event : Snapshot} {x : Option Nat} {s : SyslogState ι}
    (hs : Numbered H s) (h : Took i (generation, event) s)
    (hgeneration : generation = s.config.generation) (henabled : s.config.enabled = true) :
    Cleared i event s.config (syslogReply i x .readConfig s).2 := by
  obtain ⟨hand, hhand, hitem⟩ := h
  obtain ⟨hitemle, hle, hunder⟩ := hs.held i hand hhand
  have hcurrent : s.config.generation = s.generation := by
    rw [hs.applied]
    exact hs.numbered _ le_rfl
  -- the event is not younger than the configuration it was dequeued under
  have hsame : hand.dequeuedUnder.generation = s.generation := by
    rw [hitem] at hitemle
    have hitemle' : generation ≤ hand.dequeuedUnder.generation := hitemle
    omega
  refine ⟨⟨{ hand with checked := true }, ?_, ?_, ?_⟩, ?_, hcurrent.le, henabled⟩
  · show Function.update s.hands i _ i = _
    rw [Function.update_self, hhand]
    rfl
  · rw [← hgeneration]
    exact hitem
  · show hand.dequeuedUnder = s.config
    rw [hunder, hsame]
    exact hs.applied.symm
  · show s.history s.config.generation = s.config
    rw [hcurrent]
    exact hs.applied.symm

/-- The outline of the worker. -/
theorem outline_runWorker (rounds : Nat) : SyslogOutline H i (runWorker H rounds) fun _ => True := by
  have hexit : SyslogOutline H i (.call .exit fun _ => .ret true) fun _ => True :=
    outline_plain (fun _ => trivial) fun _ _ _ _ => trivial
  induction rounds with
  | zero => exact fun _ _ _ => trivial
  | succ rounds ih =>
      refine outline_plain (fun _ => trivial) fun stopped => ?_
      cases stopped with
      | true => exact hexit
      | false =>
          refine outline_plain (fun _ => trivial) fun n => ?_
          refine outline_syslog (fun _ _ _ => trivial) fun x s hs _ => ?_
          have hreply : (syslogReply i x (.get n) s).1 = (s.queues n).items.head? := rfl
          rw [hreply]
          cases hhead : (s.queues n).items.head? with
          | none => exact ⟨fun _ => True, stable_true, trivial, ih⟩
          | some item =>
              cases item with
              | none =>
                  refine ⟨fun _ => True, stable_true, trivial, ?_⟩
                  refine outline_plain (fun _ => trivial) fun stopped => ?_
                  cases stopped with
                  | true => exact hexit
                  | false => exact ih
              | some item =>
                  obtain ⟨generation, event⟩ := item
                  refine ⟨Took i (generation, event), stable_took _, ?_, ?_⟩
                  · refine ⟨⟨(generation, event), s.config, false⟩, ?_, rfl⟩
                    show Function.update s.hands i _ i = _
                    rw [Function.update_self, hhead]
                    rfl
                  refine outline_syslog (fun _ _ _ => trivial) fun x s hs htook => ?_
                  show ∃ K', (syslogTerms ι H).Stable i K' ∧ K' _ ∧ SyslogOutline H i
                    (if generation ≠ s.config.generation || !s.config.enabled then
                      runWorker H rounds
                    else sendMessage (H.encodeRfc5424 event s.config) s.config >>= fun _ =>
                      runWorker H rounds) K'
                  split
                  · exact ⟨fun _ => True, stable_true, trivial, ih⟩
                  · next hcheck =>
                      simp only [Bool.or_eq_true, decide_eq_true_eq, not_or, not_not,
                        Bool.not_eq_true', Bool.not_eq_false] at hcheck
                      exact ⟨Cleared i event s.config, stable_cleared _ _,
                        cleared_of_took hs htook hcheck.1 hcheck.2,
                        outline_sendMessage.bind fun _ => ih⟩

/-! ## runs -/

/-- The outline of each actor. -/
theorem outline_actor (actor : SyslogActor) : SyslogOutline H i (actor.prog H) fun _ => True := by
  cases actor with
  | worker rounds => exact outline_runWorker rounds
  | enqueue event => exact outline_syslogEnqueue event
  | configure rounds config => exact outline_syslogConfigure rounds config
  | stop => exact outline_syslogStop

end

end

/-- A forwarder with its callers and workers about to begin. -/
def forwarder {ι : Type} (H : SyslogHost) (actors : ι → SyslogActor) (s : SyslogState ι) :
    Config syslogSig ι (SyslogState ι) Bool :=
  ⟨s, fun i => (actors i).prog H⟩

/-- Whatever is sent of an event goes where the configuration says under which
it was queued; and that configuration was in force, and enabled, when the event
was dequeued. -/
theorem sent_where_configured (H : SyslogHost) {ι : Type} [DecidableEq ι]
    (actors : ι → SyslogActor) (es : List (ι × Option Nat)) :
    let s := ((forwarder H actors (forwarderAt ι defaultSyslogConfig none)).turns (syslogEnv ι)
      es).shared
    ∀ w ∈ s.writes, ∃ hand, SentRight H s.history hand w := by
  intro s w hw
  have hstart : Numbered H (forwarderAt ι defaultSyslogConfig none) := by
    refine ⟨rfl, ?_, ?_, ?_, ?_, ?_⟩
    · intro g hg
      exact (Nat.le_zero.mp hg).symm
    all_goals simp [forwarderAt, EventQueue.events]
  have houtlined : (syslogTerms ι H).Outlined (fun _ _ => True) (fun _ _ _ => True)
      (forwarder H actors (forwarderAt ι defaultSyslogConfig none)) :=
    ⟨hstart, fun i => ⟨fun _ => True, stable_true, trivial, outline_actor (actors i)⟩⟩
  have hrun := Terms.outlined_turns houtlined
    (Config.meetsRun_of_forall (fun _ _ _ _ => trivial) es)
  obtain ⟨hand, -, hright⟩ := hrun.1.sent w hw
  exact ⟨hand, hright⟩

end ApiToDns
