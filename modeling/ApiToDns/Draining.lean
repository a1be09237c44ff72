import ApiToDns.Destinations

/-!
# Draining

Accepted events go out once and in order: what is accepted is what was sent,
then what the worker has in hand, then what is queued.  The worker discards an
event of a generation that is over, and leaves the queue behind when it is told
to stop; so this holds for runs in which no configuration comes, no event is
accepted late and the worker does not leave while an event is pending.
-/

namespace ApiToDns

open Py

/-- Who calls the forwarder. -/
inductive SyslogCaller where
  | enqueue (event : Snapshot)
  | configure (rounds : Nat) (config : SyslogConfig)
  | stop

def SyslogCaller.actor : SyslogCaller → SyslogActor
  | enqueue event => .enqueue event
  | configure rounds config => .configure rounds config
  | stop => .stop

/-- The worker and its callers. -/
def workerAndCallers {κ : Type} (calls : κ → SyslogCaller) (rounds : Nat) : Option κ → SyslogActor
  | none => .worker rounds
  | some k => (calls k).actor

/-- A forwarder that is running under a configuration, and calls about to be
made. -/
def running {κ : Type} (H : SyslogHost) (calls : κ → SyslogCaller) (rounds : Nat)
    (config : SyslogConfig) : Config syslogSig (Option κ) (SyslogState (Option κ)) Bool :=
  forwarder H (workerAndCallers calls rounds) (forwarderAt (Option κ) config (some true))

namespace SyslogState

variable {κ : Type} (s : SyslogState (Option κ))

/-- The events that were sent, in order. -/
def sent : List SyslogItem := s.writes.filterMap fun w => w.hand.map (·.item)

/-- The event that the worker has in hand and has not sent. -/
def inHand : List SyslogItem := ((s.hands none).map (·.item)).toList

/-- Nothing is pending that a new configuration would discard; a datagram goes
out all the same once the worker has made its check. -/
def settled : Prop :=
  s.queue.events = [] ∧
    ∀ hand ∈ s.hands none, hand.checked = true ∧ s.config.protocol = .udp

end SyslogState

/-- Nothing that is sent or opened fails, an encoding that raises counting as a
failure of the sending; a new configuration is enabled, has the same destination
and comes when nothing is pending; an event that is accepted is of the generation
in force, and the worker is there; the worker leaves when nothing is queued. -/
def keepsEvents {κ : Type} : Cond syslogSig (Option κ) (Option Nat) (SyslogState (Option κ)) :=
  fun _ x o s =>
    match o with
    | .openStream _ => x = none
    | .sendTo .. => x = none
    | .sendAll .. => x = none
    | .ensureWorker => s.thread = some true
    | .applyConfig config =>
        config.enabled = true ∧ config.endpoint = s.config.endpoint ∧ s.settled
    | .put n item => (s.queues n).isFull = true ∨ item.1 = s.generation ∧ s.thread = some true
    | .exit => s.queue.events = []
    | _ => True

section

variable {κ : Type}

/-- What was accepted has been sent, is in hand or is queued, in this order. -/
structure InOrder (s : SyslogState (Option κ)) : Prop where
  enabled : s.config.enabled = true
  numbered : s.config.generation = s.generation
  order : s.accepted = s.sent ++ s.inHand ++ s.queue.events
  complete : ∀ w ∈ s.writes, w.complete = true
  drained : ∀ n, n ≠ s.current → (s.queues n).events = []
  queued : ∀ item ∈ s.queue.events, item.1 = s.generation
  held : ∀ hand, s.hands none = some hand → hand.checked = false → hand.item.1 = s.generation
  callers : ∀ k, s.hands (some k) = none
  changing : s.changing = true → s.lock.isSome = true ∧ s.queue.events = []
  ended : s.thread ≠ some true → s.queue.events = [] ∧ s.hands none = none

/-- What a program knows when it does an operation. -/
def Proper (i : Option κ) (s : SyslogState (Option κ)) : SyslogOp → Prop
  | .release => s.lock = some i
  | .applyConfig _ => s.lock = some i
  | .getNowait => s.changing = true
  | .replaceQueue _ => s.changing = true
  | .putNowait item => item = none
  | .put n item => item.1 = s.generation → n = s.current ∧ s.changing = false
  | .get _ => i = none ∧ s.hands none = none ∧ s.thread = some true
  | .exit => i = none ∧ s.hands none = none
  | .sendTo .. => i = none ∧ ∃ hand, s.hands none = some hand
  | .sendAll .. => i = none ∧ ∃ hand, s.hands none = some hand
  | _ => True

/-- An operation that leaves alone what the order is about. -/
theorem InOrder.of_same {s s' : SyslogState (Option κ)} (h : InOrder s)
    (hconfig : s'.config = s.config) (hgeneration : s'.generation = s.generation)
    (haccepted : s'.accepted = s.accepted) (hwrites : s'.writes = s.writes)
    (hhands : s'.hands = s.hands) (hqueues : s'.queues = s.queues)
    (hcurrent : s'.current = s.current)
    (hchanging : s'.changing = true → s.changing = true ∧ s'.lock.isSome = true)
    (hthread : s'.thread ≠ some true → s.thread ≠ some true) : InOrder s' := by
  obtain ⟨lock, generation, config, queues, current, stopped, thread, udp, stream, sockets,
    history, changing, hands, accepted, writes⟩ := s
  obtain ⟨lock', generation', config', queues', current', stopped', thread', udp', stream',
    sockets', history', changing', hands', accepted', writes'⟩ := s'
  dsimp only at hconfig hgeneration haccepted hwrites hhands hqueues hcurrent hchanging hthread
  subst hconfig hgeneration haccepted hwrites hhands hqueues hcurrent
  exact ⟨h.enabled, h.numbered, h.order, h.complete, h.drained, h.queued, h.held, h.callers,
    fun hc => ⟨(hchanging hc).2, (h.changing (hchanging hc).1).2⟩, fun ht => h.ended (hthread ht)⟩

/-- The current queue gets other events, all of the generation in force, none
while a configuration is put in place or after the worker. -/
theorem InOrder.requeue {s s' : SyslogState (Option κ)} (h : InOrder s) {q : EventQueue}
    (hs' : s' = { s.setQueue s.current q with accepted := s'.accepted, hands := s'.hands })
    (horder : s'.accepted = s.sent ++ s'.inHand ++ q.events)
    (hqueued : ∀ item ∈ q.events, item.1 = s.generation)
    (hheld : ∀ hand, s'.hands none = some hand → hand.checked = false → hand.item.1 = s.generation)
    (hcallers : ∀ k, s'.hands (some k) = none)
    (hquiet : s.changing = true → q.events = [])
    (hended : s.thread ≠ some true → q.events = [] ∧ s'.hands none = none) : InOrder s' := by
  have hcurrent : (Function.update s.queues s.current q) s.current = q := Function.update_self ..
  have hother : ∀ n, n ≠ s.current → Function.update s.queues s.current q n = s.queues n :=
    fun n hn => Function.update_of_ne hn _ _
  generalize s'.accepted = accepted at hs' horder
  generalize hhands : s'.hands = hands at hs' hheld hcallers hended
  subst hs'
  have hqueue : ({ s.setQueue s.current q with accepted := accepted, hands := hands } :
      SyslogState (Option κ)).queue = q := hcurrent
  refine ⟨h.enabled, h.numbered, ?_, h.complete, ?_, ?_, hheld, hcallers, ?_, ?_⟩
  · rw [hqueue]
    exact horder
  · intro n hn
    show (Function.update s.queues s.current q n).events = []
    rw [hother n hn]
    exact h.drained n hn
  · rw [hqueue]
    exact hqueued
  · intro hc
    rw [hqueue]
    exact ⟨(h.changing hc).1, hquiet hc⟩
  · rw [hqueue]
    exact hended

/-- A queue that nothing uses changes, and loses events at most. -/
theorem InOrder.setOther {s : SyslogState (Option κ)} (h : InOrder s) {n : Nat} {q : EventQueue}
    (hn : n ≠ s.current) (hq : q.events = []) : InOrder (s.setQueue n q) := by
  have hqueue : (s.setQueue n q).queue = s.queue := Function.update_of_ne hn.symm _ _
  refine ⟨h.enabled, h.numbered, ?_, h.complete, ?_, ?_, h.held, h.callers, ?_, ?_⟩
  · rw [hqueue]
    exact h.order
  · intro m hm
    show (Function.update s.queues n q m).events = []
    by_cases hmn : m = n
    · rw [hmn, Function.update_self]
      exact hq
    · rw [Function.update_of_ne hmn]
      exact h.drained m hm
  · rw [hqueue]
    exact h.queued
  · rw [hqueue]
    exact h.changing
  · rw [hqueue]
    exact h.ended

/-- A configuration that stays enabled keeps the order. -/
theorem InOrder.apply {s : SyslogState (Option κ)} (h : InOrder s) {config : SyslogConfig}
    (henabled : config.enabled = true) (hsettled : s.settled) (hlock : s.lock.isSome = true) :
    InOrder (s.apply config) where
  enabled := henabled
  numbered := rfl
  order := h.order
  complete := h.complete
  drained := h.drained
  queued := by
    have hnil : (s.apply config).queue.events = [] := hsettled.1
    rw [hnil]
    exact fun _ hitem => nomatch hitem
  held hand hhand hchecked := by
    rw [(hsettled.2 hand hhand).1] at hchecked
    contradiction
  callers := h.callers
  changing _ := ⟨hlock, hsettled.1⟩
  ended := h.ended

/-- A new queue keeps the order. -/
theorem InOrder.replaceQueue {s : SyslogState (Option κ)} (h : InOrder s) (maxsize : Nat)
    (hchanging : s.changing = true) :
    InOrder { s.setQueue (s.current + 1) ⟨[], maxsize⟩ with current := s.current + 1 } := by
  have hnil := (h.changing hchanging).2
  have hnew : (Function.update s.queues (s.current + 1) ⟨[], maxsize⟩ (s.current + 1)).events =
      [] := by
    rw [Function.update_self]
    rfl
  refine ⟨h.enabled, h.numbered, ?_, h.complete, ?_, ?_, h.held, h.callers, ?_, ?_⟩
  · show s.accepted = s.sent ++ s.inHand ++
      (Function.update s.queues (s.current + 1) ⟨[], maxsize⟩ (s.current + 1)).events
    rw [hnew, h.order, hnil]
  · intro n hn
    show (Function.update s.queues (s.current + 1) _ n).events = []
    rw [Function.update_of_ne hn]
    by_cases hcurrent : n = s.current
    · rw [hcurrent]
      exact hnil
    · exact h.drained n hcurrent
  · show ∀ item ∈ (Function.update s.queues (s.current + 1) ⟨[], maxsize⟩ (s.current + 1)).events, _
    rw [hnew]
    exact fun _ hitem => nomatch hitem
  · exact fun hc => ⟨(h.changing hc).1, hnew⟩
  · exact fun ht => ⟨hnew, (h.ended ht).2⟩

section

variable [DecidableEq κ] {i : Option κ}

/-- What the worker holds after it takes something. -/
@[simp] theorem hands_hold_none (s : SyslogState (Option κ)) (hand : Option InHand) :
    (s.hold none hand).hands none = hand := by
  simp [SyslogState.hold]

/-- The other hands stay as they are. -/
@[simp] theorem hands_hold_some (s : SyslogState (Option κ)) (hand : Option InHand) (k : κ) :
    (s.hold none hand).hands (some k) = s.hands (some k) := by
  simp [SyslogState.hold]

/-- The worker sends what it has in hand. -/
theorem InOrder.write {s : SyslogState (Option κ)} (h : InOrder s) {hand : InHand} {sock : Sock}
    {target : Endpoint} {data : Bytes} (hhand : s.hands none = some hand) :
    InOrder (s.write none sock target data data true) := by
  have hnone : (s.write none sock target data data true).hands none = none :=
    hands_hold_none s none
  refine ⟨h.enabled, h.numbered, ?_, ?_, h.drained, h.queued, ?_, ?_, h.changing, ?_⟩
  · have hold := h.order
    rw [SyslogState.inHand, hhand] at hold
    rw [SyslogState.inHand, hnone]
    show s.accepted = (s.writes ++ [_]).filterMap _ ++ [] ++ s.queue.events
    rw [hold, SyslogState.sent, List.filterMap_append]
    simp [hhand]
  · intro w hw
    rcases List.mem_append.mp hw with hw | hw
    · exact h.complete w hw
    · rw [List.mem_singleton.mp hw]
  · rw [hnone]
    exact fun _ hhand' => nomatch hhand'
  · exact fun k => (hands_hold_some s none k).trans (h.callers k)
  · exact fun ht => ⟨(h.ended ht).1, hnone⟩

/-- The worker takes an event from the queue, or finds none. -/
theorem InOrder.get {s : SyslogState (Option κ)} (h : InOrder s) (n : Nat) {x : Option Nat}
    (hhand : s.hands none = none) (hthread : s.thread = some true) :
    InOrder (syslogReply none x (.get n) s).2 := by
  have hinHand : s.inHand = [] := by rw [SyslogState.inHand, hhand]; rfl
  have hevents : (s.queues n).events =
      (s.queues n).items.head?.join.toList ++ (s.queues n).pop.events := EventQueue.events_eq_head
  show InOrder ((s.setQueue n (s.queues n).pop).hold none
    ((s.queues n).items.head?.join.map fun item => ⟨item, s.config, false⟩))
  cases hhead : (s.queues n).items.head?.join with
  | none =>
      rw [hhead] at hevents
      have hsame : (s.setQueue n (s.queues n).pop).hold none none = s.setQueue n (s.queues n).pop := by
        have hhands : Function.update s.hands none none = s.hands := by
          rw [← hhand, Function.update_eq_self]
        simp [SyslogState.hold, SyslogState.setQueue, hhands]
      rw [Option.map_none, hsame]
      by_cases hn : n = s.current
      · subst hn
        have hpop : s.queue.events = s.queue.pop.events := hevents
        refine h.requeue (q := s.queue.pop) rfl ?_ ?_ h.held h.callers ?_ fun ht => absurd hthread ht
        · rw [← hpop]
          exact h.order
        · rw [← hpop]
          exact h.queued
        · rw [← hpop]
          exact fun hc => (h.changing hc).2
      · refine h.setOther hn ?_
        rw [h.drained n hn] at hevents
        exact hevents.symm
  | some item =>
      rw [hhead] at hevents
      have hn : n = s.current := by
        by_contra hn
        rw [h.drained n hn] at hevents
        contradiction
      subst hn
      have hpop : s.queue.events = item :: s.queue.pop.events := hevents
      have hitem : item.1 = s.generation := h.queued item (by rw [hpop]; exact List.mem_cons_self)
      refine h.requeue (q := s.queue.pop) rfl ?_ ?_ ?_ ?_ ?_ fun ht => absurd hthread ht
      · rw [SyslogState.inHand, Option.map_some, hands_hold_none]
        show s.accepted = _
        rw [h.order, hinHand, hpop]
        simp
      · exact fun item' hitem' => h.queued item' (by rw [hpop]; exact List.mem_cons_of_mem _ hitem')
      · intro hand hhand' _
        rw [Option.map_some, hands_hold_none, Option.some.injEq] at hhand'
        rw [← hhand']
        exact hitem
      · intro k
        rw [Option.map_some, hands_hold_some]
        exact h.callers k
      · intro hc
        rw [(h.changing hc).2] at hpop
        contradiction

/-- A check keeps the order. -/
theorem InOrder.hold_checked {s : SyslogState (Option κ)} (h : InOrder s) :
    InOrder (s.hold i ((s.hands i).map fun hand => { hand with checked := true })) := by
  cases i with
  | some k =>
      have hhands : Function.update s.hands (some k) none = s.hands := by
        rw [← h.callers k, Function.update_eq_self]
      rw [h.callers k, Option.map_none]
      exact h.of_same rfl rfl rfl rfl hhands rfl rfl
        (fun hc => ⟨hc, (h.changing hc).1⟩) fun ht => ht
  | none =>
      have hinHand : (s.hold none ((s.hands none).map fun hand => { hand with checked := true })).inHand =
          s.inHand := by
        rw [SyslogState.inHand, hands_hold_none, SyslogState.inHand, Option.map_map]
        rfl
      refine ⟨h.enabled, h.numbered, ?_, h.complete, h.drained, h.queued, ?_, ?_, h.changing, ?_⟩
      · rw [hinHand]
        exact h.order
      · intro hand hhand hchecked
        rw [hands_hold_none] at hhand
        obtain ⟨hand', -, rfl⟩ := Option.map_eq_some_iff.mp hhand
        contradiction
      · exact fun k => (hands_hold_some _ _ k).trans (h.callers k)
      · intro ht
        rw [hands_hold_none, (h.ended ht).2]
        exact ⟨(h.ended ht).1, rfl⟩

/-- A proper step that meets the condition keeps the order. -/
theorem inOrder_reply {x : Option Nat} {o : SyslogOp} {s : SyslogState (Option κ)} (h : InOrder s)
    (hcond : keepsEvents i x o s) (hproper : Proper i s o) : InOrder (syslogReply i x o s).2 := by
  have hsame : ∀ hc : s.changing = true, s.changing = true ∧ s.lock.isSome = true :=
    fun hc => ⟨hc, (h.changing hc).1⟩
  cases o with
  | acquire =>
      refine h.of_same rfl rfl rfl rfl rfl rfl rfl (fun hc => ?_) fun ht => ht
      exact ⟨hc, rfl⟩
  | release => exact h.of_same rfl rfl rfl rfl rfl rfl rfl (fun hc => nomatch hc) fun ht => ht
  | readConfig => exact h.hold_checked
  | applyConfig config =>
      refine h.apply hcond.1 hcond.2.2 ?_
      rw [show s.lock = some i from hproper]
      rfl
  | getNowait =>
      have hnil := (h.changing hproper).2
      have hpop : s.queue.pop.events = [] := by
        have hevents : s.queue.events = _ := EventQueue.events_eq_head
        rw [hnil] at hevents
        exact (List.append_eq_nil_iff.mp hevents.symm).2
      refine h.requeue (q := s.queue.pop) rfl ?_ ?_ h.held h.callers (fun _ => hpop)
        fun ht => ⟨hpop, (h.ended ht).2⟩
      · rw [hpop, ← hnil]
        exact h.order
      · rw [hpop]
        exact fun _ hitem => nomatch hitem
  | replaceQueue maxsize => exact h.replaceQueue maxsize hproper
  | putNowait item =>
      have hevents : (s.queue.put item).events = s.queue.events := by
        rw [show item = none from hproper, EventQueue.events_put_none]
      refine h.requeue (q := s.queue.put item) rfl ?_ ?_ h.held h.callers ?_ ?_
      · rw [hevents]
        exact h.order
      · rw [hevents]
        exact h.queued
      · rw [hevents]
        exact fun hc => (h.changing hc).2
      · rw [hevents]
        exact h.ended
  | closeSockets => exact h.of_same rfl rfl rfl rfl rfl rfl rfl hsame fun ht => ht
  | loadQueue => exact h
  | put n item =>
      simp only [syslogReply]
      split
      · exact h
      · next hfull =>
          obtain ⟨hgeneration, hthread⟩ := hcond.resolve_left hfull
          obtain ⟨hn, hchanging⟩ := hproper hgeneration
          subst hn
          have hput : (s.queue.put (some item)).events = s.queue.events ++ [item] := by
            have hroom : ¬ s.queue.isFull = true := hfull
            rw [EventQueue.events_put_some, if_neg hroom]
          refine h.requeue (q := s.queue.put (some item)) rfl ?_ ?_ h.held h.callers ?_ ?_
          · rw [hput]
            show s.accepted ++ [item] = _
            rw [h.order, List.append_assoc]
            rfl
          · intro e he
            rw [hput] at he
            rcases List.mem_append.mp he with he | he
            · exact h.queued e he
            · rw [List.mem_singleton.mp he]
              exact hgeneration
          · intro hc
            rw [hchanging] at hc
            contradiction
          · exact fun ht => absurd hthread ht
  | get n =>
      obtain ⟨rfl, hhand, hthread⟩ := hproper
      exact h.get n hhand hthread
  | isStopped => exact h
  | setStop => exact h.of_same rfl rfl rfl rfl rfl rfl rfl hsame fun ht => ht
  | clearStop => exact h.of_same rfl rfl rfl rfl rfl rfl rfl hsame fun ht => ht
  | hasThread => exact h
  | join => exact h
  | reap =>
      refine h.of_same rfl rfl rfl rfl rfl rfl rfl hsame fun ht halive => ?_
      simp [syslogReply, halive] at ht
  | ensureWorker =>
      simp only [syslogReply]
      rw [if_pos (show s.thread = some true from hcond)]
      exact h
  | exit =>
      obtain ⟨rfl, hhand⟩ := hproper
      exact ⟨h.enabled, h.numbered, h.order, h.complete, h.drained, h.queued, h.held, h.callers,
        h.changing, fun _ => ⟨hcond, hhand⟩⟩
  | udpSocket =>
      simp only [syslogReply]
      split
      · exact h
      · exact h.of_same rfl rfl rfl rfl rfl rfl rfl hsame fun ht => ht
  | sendTo sock target data =>
      obtain ⟨rfl, hand, hhand⟩ := hproper
      rw [show x = none from hcond]
      exact h.write hhand
  | cachedStream target => exact h
  | openStream config =>
      rw [show x = none from hcond]
      exact h.of_same rfl rfl rfl rfl rfl rfl rfl hsame fun ht => ht
  | installStream sock config =>
      simp only [syslogReply]
      split
      · exact h.of_same rfl rfl rfl rfl rfl rfl rfl hsame fun ht => ht
      · exact h
  | sendAll sock data =>
      obtain ⟨rfl, hand, hhand⟩ := hproper
      rw [show x = none from hcond]
      exact h.write hhand
  | dropStream sock config => exact h.of_same rfl rfl rfl rfl rfl rfl rfl hsame fun ht => ht

/-- What a program relies on the others for: to leave alone what it has in
hand, to wait for its lock and to put a configuration in place under the lock;
and the worker, not to be replaced or to be given a new configuration on the
way. -/
structure DrainRely (i : Option κ) (s s' : SyslogState (Option κ)) : Prop where
  hands : s'.hands i = s.hands i
  lock : s.lock = some i → s'.lock = some i ∧ s'.changing = s.changing
  generation : s.generation ≤ s'.generation
  current : s'.generation = s.generation → s.changing = false →
    s'.changing = false ∧ s'.current = s.current
  alive : i = none → s.thread = some true → s'.thread = some true
  ended : s.thread ≠ some true → s'.thread ≠ some true
  config : ∀ hand, s.hands none = some hand →
    ¬ (hand.checked = true ∧ s.config.protocol = .udp) → s'.config = s.config
  endpoint : s'.config.endpoint = s.config.endpoint

def drainTerms (κ : Type) [DecidableEq κ] :
    Terms syslogSig (Option κ) (Option Nat) (SyslogState (Option κ)) where
  env := syslogEnv (Option κ)
  cond := keepsEvents
  inv := InOrder
  rely := DrainRely

omit [DecidableEq κ] in
/-- What the others may rely on: nothing that they know changes. -/
theorem DrainRely.of_same {j : Option κ} {s s' : SyslogState (Option κ)}
    (hhands : s'.hands j = s.hands j) (hgeneration : s'.generation = s.generation)
    (hconfig : s'.config = s.config) (hcurrent : s'.current = s.current)
    (hlock : s'.lock = s.lock) (hchanging : s'.changing = s.changing)
    (hthread : s'.thread = s.thread) : DrainRely j s s' where
  hands := hhands
  lock h := ⟨hlock.trans h, hchanging⟩
  generation := hgeneration.ge
  current _ h := ⟨hchanging.trans h, hcurrent⟩
  alive _ h := hthread.trans h
  ended h := by
    rw [hthread]
    exact h
  config _ _ _ := hconfig
  endpoint := by rw [hconfig]

/-- The step of one actor is what the others rely on. -/
theorem rely_drain {j : Option κ} (hj : j ≠ i) {x : Option Nat} {o : SyslogOp}
    {s : SyslogState (Option κ)} (hready : (syslogEnv (Option κ)).ready i o s = true)
    (hcond : keepsEvents i x o s) (hproper : Proper i s o) : DrainRely j s (syslogReply i x o s).2 := by
  have hother : ∀ hand : Option InHand, Function.update s.hands i hand j = s.hands j :=
    fun hand => Function.update_of_ne hj _ _
  cases o with
  | acquire =>
      have hfree : s.lock = none := by simpa [syslogEnv, SyslogOp.locks] using hready
      refine ⟨rfl, fun hlock => ?_, le_rfl, fun _ hc => ⟨hc, rfl⟩, fun _ ht => ht, fun ht => ht,
        fun _ _ _ => rfl, rfl⟩
      rw [hfree] at hlock
      contradiction
  | release =>
      refine ⟨rfl, fun hlock => ?_, le_rfl, fun _ _ => ⟨rfl, rfl⟩, fun _ ht => ht, fun ht => ht,
        fun _ _ _ => rfl, rfl⟩
      rw [show s.lock = some i from hproper, Option.some.injEq] at hlock
      exact absurd hlock.symm hj
  | readConfig => exact .of_same (hother _) rfl rfl rfl rfl rfl rfl
  | applyConfig config =>
      refine ⟨rfl, fun hlock => ?_, Nat.le_succ _, fun hsame => ?_, fun _ ht => ht, fun ht => ht,
        fun hand hhand hnot => absurd (hcond.2.2.2 hand hhand) hnot, hcond.2.1⟩
      · rw [show s.lock = some i from hproper, Option.some.injEq] at hlock
        exact absurd hlock.symm hj
      · exact absurd hsame (Nat.succ_ne_self _)
  | replaceQueue maxsize =>
      refine ⟨rfl, fun hlock => ⟨hlock, rfl⟩, le_rfl, fun _ hc => ?_, fun _ ht => ht, fun ht => ht,
        fun _ _ _ => rfl, rfl⟩
      rw [show s.changing = true from hproper] at hc
      contradiction
  | put n item =>
      simp only [syslogReply]
      split <;> exact .of_same rfl rfl rfl rfl rfl rfl rfl
  | get n => exact .of_same (hother _) rfl rfl rfl rfl rfl rfl
  | reap =>
      refine ⟨rfl, fun hlock => ⟨hlock, rfl⟩, le_rfl, fun _ hc => ⟨hc, rfl⟩, fun _ ht => ?_,
        fun ht => ?_, fun _ _ _ => rfl, rfl⟩
      · simp [syslogReply, ht]
      · show (if s.thread = some false then none else s.thread) ≠ some true
        split
        · simp
        · exact ht
  | ensureWorker =>
      simp only [syslogReply]
      rw [if_pos (show s.thread = some true from hcond)]
      exact .of_same rfl rfl rfl rfl rfl rfl rfl
  | exit =>
      obtain ⟨rfl, -⟩ := hproper
      exact ⟨rfl, fun hlock => ⟨hlock, rfl⟩, le_rfl, fun _ hc => ⟨hc, rfl⟩,
        fun hnone => absurd hnone hj, fun _ => by simp [syslogReply], fun _ _ _ => rfl, rfl⟩
  | udpSocket =>
      simp only [syslogReply]
      split <;> exact .of_same rfl rfl rfl rfl rfl rfl rfl
  | sendTo sock target data =>
      rw [show x = none from hcond]
      exact .of_same (hother _) rfl rfl rfl rfl rfl rfl
  | openStream config =>
      rw [show x = none from hcond]
      exact .of_same rfl rfl rfl rfl rfl rfl rfl
  | installStream sock config =>
      simp only [syslogReply]
      split <;> exact .of_same rfl rfl rfl rfl rfl rfl rfl
  | sendAll sock data =>
      rw [show x = none from hcond]
      exact .of_same (hother _) rfl rfl rfl rfl rfl rfl
  | _ => exact .of_same rfl rfl rfl rfl rfl rfl rfl

/-- The outline of one step. -/
theorem outline_drain {α : Type} {post : α → SyslogState (Option κ) → Prop}
    {K : SyslogState (Option κ) → Prop} {o : SyslogOp} {k : o.Reply → Prog syslogSig α}
    (hproper : ∀ s, InOrder s → K s → Proper i s o)
    (hk : ∀ x s, InOrder s → K s → (syslogEnv (Option κ)).ready i o s = true →
      keepsEvents i x o s → ∃ K', (drainTerms κ).Stable i K' ∧ K' (syslogReply i x o s).2 ∧
        (drainTerms κ).Outline i (fun _ => True) post (k (syslogReply i x o s).1) K') :
    (drainTerms κ).Outline i (fun _ => True) post (.call o k) K :=
  ⟨fun _ _ _ => trivial, fun x s hs hK hready hcond => ⟨inOrder_reply hs hcond (hproper s hs hK),
    fun _ hj => rely_drain hj hready hcond (hproper s hs hK), hk x s hs hK hready hcond⟩⟩

/-- An operation after which the program knows what it knew before. -/
theorem outline_drain_keeps {α : Type} {post : α → SyslogState (Option κ) → Prop}
    {K : SyslogState (Option κ) → Prop} {o : SyslogOp} {k : o.Reply → Prog syslogSig α}
    (hstable : (drainTerms κ).Stable i K) (hproper : ∀ s, InOrder s → K s → Proper i s o)
    (hkeeps : ∀ x s, K s → keepsEvents i x o s → K (syslogReply i x o s).2)
    (hk : ∀ r, (drainTerms κ).Outline i (fun _ => True) post (k r) K) :
    (drainTerms κ).Outline i (fun _ => True) post (.call o k) K :=
  outline_drain hproper fun x s _ hK _ hcond => ⟨K, hstable, hkeeps x s hK hcond, hk _⟩

/-! ## callers -/

abbrev DrainOutline (i : Option κ) {α : Type} (p : Prog syslogSig α)
    (K : SyslogState (Option κ) → Prop) : Prop :=
  (drainTerms κ).Outline i (fun _ => True) (fun _ _ => True) p K

/-- What an enqueue knows that has read a configuration. -/
structure ReadAt (generation : Nat) (n : Option Nat) (s : SyslogState (Option κ)) : Prop where
  le : generation ≤ s.generation
  quiet : generation = s.generation → s.changing = false ∧ ∀ m, n = some m → m = s.current

/-- The others leave what was read. -/
theorem stable_readAt (generation : Nat) (n : Option Nat) :
    (drainTerms κ).Stable i (ReadAt generation n) := by
  intro s s' _ _ hrely h
  have hmono := hrely.generation
  refine ⟨h.le.trans hmono, fun hsame => ?_⟩
  have hle := h.le
  obtain ⟨hchanging, hn⟩ := h.quiet (by omega)
  obtain ⟨hchanging', hcurrent⟩ := hrely.current (by omega) hchanging
  exact ⟨hchanging', fun m hm => (hn m hm).trans hcurrent.symm⟩

/-- The outline of an enqueue. -/
theorem outline_drain_enqueue (H : SyslogHost) (event : Snapshot) :
    DrainOutline i (syslogEnqueue H event) fun _ => True := by
  refine outline_drain (fun _ _ _ => trivial) fun x s hs _ hready _ => ?_
  have hfree : s.lock = none := by simpa [syslogEnv, SyslogOp.locks] using hready
  have hquiet : s.changing = false := by
    cases hc : s.changing with
    | false => rfl
    | true =>
        have hlock := (hs.changing hc).1
        rw [hfree] at hlock
        contradiction
  refine ⟨ReadAt s.config.generation none, stable_readAt _ _,
    ⟨hs.numbered.le, fun _ => ⟨hquiet, nofun⟩⟩, ?_⟩
  show DrainOutline i (if !s.config.enabled || !H.meetsMinimumLevel event.level
    s.config.minimumLevel then _ else _) _
  split
  · exact fun _ _ _ => trivial
  · refine outline_drain (fun _ _ _ => trivial) fun x s' _ hread _ _ => ?_
    refine ⟨ReadAt s.config.generation (some s'.current), stable_readAt _ _, ⟨hread.le, ?_⟩, ?_⟩
    · intro hsame
      exact ⟨(hread.quiet hsame).1, fun m hm => (Option.some.inj hm).symm⟩
    · refine outline_drain ?_ fun _ _ _ _ _ _ => ⟨fun _ => True, fun _ _ _ _ _ h => h, trivial,
        fun _ _ _ => trivial⟩
      intro s'' _ hread' hsame
      obtain ⟨hchanging, hn⟩ := hread'.quiet hsame
      exact ⟨hn _ rfl, hchanging⟩

/-- The lock is held, and a configuration is being put in place, or not. -/
def Locked (i : Option κ) (changing : Bool) (s : SyslogState (Option κ)) : Prop :=
  s.lock = some i ∧ s.changing = changing

/-- The others leave the lock to its holder. -/
theorem stable_locked (changing : Bool) : (drainTerms κ).Stable i (Locked i changing) := by
  intro s s' _ _ hrely h
  obtain ⟨hlock, hchanging⟩ := hrely.lock h.1
  exact ⟨hlock, hchanging.trans h.2⟩

/-- What is always so stays so. -/
theorem stable_any : (drainTerms κ).Stable i fun _ => True := fun _ _ _ _ _ h => h

/-- The outline of taking the lock. -/
theorem outline_drain_acquire {k : Unit → Prog syslogSig Bool}
    (hk : DrainOutline i (k ()) (Locked i false)) :
    DrainOutline i (.call .acquire k) fun _ => True := by
  refine outline_drain (fun _ _ _ => trivial) fun x s hs _ hready _ => ?_
  have hfree : s.lock = none := by simpa [syslogEnv, SyslogOp.locks] using hready
  refine ⟨Locked i false, stable_locked _, ⟨rfl, ?_⟩, hk⟩
  show s.changing = false
  cases hc : s.changing with
  | false => rfl
  | true =>
      have hlock := (hs.changing hc).1
      rw [hfree] at hlock
      contradiction

/-- The outline of giving the lock back. -/
theorem outline_drain_release {b : Bool} {k : Unit → Prog syslogSig Bool}
    (hk : DrainOutline i (k ()) fun _ => True) : DrainOutline i (.call .release k) (Locked i b) :=
  outline_drain (fun _ _ h => h.1) fun _ _ _ _ _ _ => ⟨fun _ => True, stable_any, trivial, hk⟩

/-- The outline of closing the stream. -/
theorem outline_drain_closeAndEnsure (b : Bool) : DrainOutline i closeAndEnsure (Locked i b) := by
  refine outline_drain_keeps (stable_locked b) (fun _ _ _ => trivial) (fun _ _ h _ => h) fun _ => ?_
  refine outline_drain_keeps (stable_locked b) (fun _ _ _ => trivial) (fun _ s h hcond => ?_)
    fun _ => outline_drain_release fun _ _ _ => trivial
  simp only [syslogReply]
  rw [if_pos (show s.thread = some true from hcond)]
  exact h

/-- There is nothing in the queue but sentinels. -/
theorem outline_drain_drainQueue (rounds : Nat) :
    (drainTerms κ).Outline i (fun _ => True)
      (fun drained s => Locked i true s ∧ ∀ l, drained = some l → l = [])
      (drainQueue rounds []) (Locked i true) := by
  induction rounds with
  | zero => exact fun s _ h => ⟨h, nofun⟩
  | succ rounds ih =>
      refine outline_drain (fun _ _ h => h.2) fun x s hs h _ _ => ?_
      have hreply : (syslogReply i x .getNowait s).1 = s.queue.items.head? := rfl
      rw [hreply]
      refine ⟨Locked i true, stable_locked _, h, ?_⟩
      cases hhead : s.queue.items.head? with
      | none => exact fun s' _ h' => ⟨h', fun l hl => (Option.some.inj hl).symm⟩
      | some head =>
          cases head with
          | none => exact ih
          | some item =>
              have hevents : s.queue.events = _ := EventQueue.events_eq_head
              rw [hhead, (hs.changing h.2).2] at hevents
              contradiction

/-- The outline of a configuration. -/
theorem outline_drain_configure (rounds : Nat) (config : SyslogConfig) :
    DrainOutline i (syslogConfigure rounds config) fun _ => True := by
  refine outline_drain_acquire ?_
  refine outline_drain (fun _ _ h => h.1) fun x s _ h _ _ =>
    ⟨Locked i true, stable_locked _, ⟨h.1, rfl⟩, ?_⟩
  cases (syslogReply i x (.applyConfig config) s).1 with
  | false => exact outline_drain_closeAndEnsure true
  | true =>
      refine (outline_drain_drainQueue rounds).bind fun drained => ?_
      cases drained with
      | none => exact fun _ _ _ => trivial
      | some pending =>
          refine Terms.Outline.mono (K := fun s => Locked i true s ∧ pending = []) ?_
            (fun s _ h => ⟨h.1, h.2 pending rfl⟩) fun _ _ h => h
          refine outline_drain (fun _ _ h => h.1.2) fun x s _ h _ _ => ?_
          obtain ⟨hlocked, rfl⟩ := h
          refine ⟨Locked i true, stable_locked _, hlocked, ?_⟩
          have hnone : lastItems config.queueSize [] = [] := by
            unfold lastItems
            split <;> simp
          rw [hnone]
          exact outline_drain_closeAndEnsure true

/-- The outline of a stop. -/
theorem outline_drain_stop : DrainOutline i syslogStop fun _ => True := by
  have hlocked : ∀ {o : SyslogOp} {k : o.Reply → Prog syslogSig Bool},
      (∀ s, Proper i s o) → (∀ x s, Locked i false s → Locked i false (syslogReply i x o s).2) →
        (∀ r, DrainOutline i (k r) (Locked i false)) → DrainOutline i (.call o k) (Locked i false) :=
    fun hproper hkeeps hk => outline_drain_keeps (stable_locked _) (fun s _ _ => hproper s)
      (fun x s h _ => hkeeps x s h) hk
  refine outline_drain_acquire ?_
  refine hlocked (fun _ => trivial) (fun _ _ h => h) fun hasThread => ?_
  cases hasThread with
  | false =>
      refine hlocked (fun _ => trivial) (fun _ _ h => h) fun _ => ?_
      exact outline_drain_release fun _ _ _ => trivial
  | true =>
      refine hlocked (fun _ => trivial) (fun _ _ h => h) fun _ => ?_
      refine hlocked (fun _ => rfl) (fun _ _ h => h) fun _ => ?_
      refine outline_drain_release ?_
      refine outline_drain_keeps stable_any (fun _ _ _ => trivial) (fun _ _ h _ => h) fun _ => ?_
      refine outline_drain_acquire ?_
      refine hlocked (fun _ => trivial) (fun _ _ h => h) fun _ => ?_
      refine hlocked (fun _ => trivial) (fun _ _ h => h) fun _ => ?_
      refine hlocked (fun _ => trivial) (fun _ _ h => h) fun _ => ?_
      exact outline_drain_release fun _ _ _ => trivial

/-! ## the worker -/

/-- The worker has nothing in hand. -/
structure Idle (s : SyslogState (Option κ)) : Prop where
  hand : s.hands none = none
  alive : s.thread = some true

/-- The worker has an event in hand. -/
structure Busy (item : SyslogItem) (s : SyslogState (Option κ)) : Prop where
  hand : ∃ hand, s.hands none = some hand ∧ hand.item = item ∧ hand.checked = false
  alive : s.thread = some true

/-- The worker has made its check, and sends under the configuration. -/
structure Sending (config : SyslogConfig) (s : SyslogState (Option κ)) : Prop where
  hand : ∃ hand, s.hands none = some hand ∧ hand.checked = true
  alive : s.thread = some true
  endpoint : s.config.endpoint = config.endpoint
  current : config.protocol ≠ .udp → s.config = config

/-- The others leave an idle worker idle. -/
theorem stable_idle : (drainTerms κ).Stable none Idle :=
  fun _ _ _ _ hrely h => ⟨hrely.hands.trans h.hand, hrely.alive rfl h.alive⟩

/-- They leave a busy worker its event. -/
theorem stable_busy (item : SyslogItem) : (drainTerms κ).Stable none (Busy item) := by
  intro s s' _ _ hrely h
  refine ⟨?_, hrely.alive rfl h.alive⟩
  rw [hrely.hands]
  exact h.hand

/-- They leave a sending worker its configuration. -/
theorem stable_sending (config : SyslogConfig) :
    (drainTerms κ).Stable none (Sending config) := by
  intro s s' _ _ hrely h
  refine ⟨?_, hrely.alive rfl h.alive, hrely.endpoint.trans h.endpoint, fun hne => ?_⟩
  · rw [hrely.hands]
    exact h.hand
  · obtain ⟨hand, hhand, -⟩ := h.hand
    have hsame := h.current hne
    have hkept := hrely.config hand hhand fun hudp => by
      rw [hsame] at hudp
      exact hne hudp.2
    exact hkept.trans hsame

omit [DecidableEq κ] in

/-- A worker sends while hand, thread and configuration stay. -/
theorem Sending.of_same {config : SyslogConfig} {s s' : SyslogState (Option κ)}
    (h : Sending config s) (hhands : s'.hands = s.hands) (hthread : s'.thread = s.thread)
    (hconfig : s'.config = s.config) : Sending config s' := by
  refine ⟨?_, hthread.trans h.alive, ?_, fun hne => hconfig.trans (h.current hne)⟩
  · rw [hhands]
    exact h.hand
  · rw [hconfig]
    exact h.endpoint

abbrev SendOutline (p : Prog syslogSig Unit) (K : SyslogState (Option κ) → Prop) : Prop :=
  (drainTerms κ).Outline none (fun _ => True) (fun _ => Idle) p K

variable {config : SyslogConfig}

/-- A `sendall` goes well, and the event is out of the worker's hand. -/
theorem outline_drain_sendAll {framed : Bytes} {sock : Sock} {k : Bool → Prog syslogSig Unit}
    (hk : k true = .ret ()) :
    SendOutline (κ := κ) (.call (.sendAll sock framed) k) (Sending config) := by
  refine outline_drain (fun _ _ h => ⟨rfl, h.hand.imp fun _ hh => hh.1⟩) fun x s _ h _ hcond => ?_
  rw [show x = none from hcond]
  refine ⟨Idle, stable_idle, ⟨hands_hold_none s none, h.alive⟩, ?_⟩
  show SendOutline (k true) _
  rw [hk]
  exact fun _ _ h => h

/-- The outline of sending on a stream. -/
theorem outline_drain_sendOnStream {framed : Bytes} {sock : Sock} :
    SendOutline (κ := κ) (sendOnStream framed config sock) (Sending config) :=
  outline_drain_sendAll rfl

/-- The outline of sending over TCP. -/
theorem outline_drain_sendStream {message : Bytes} (hne : config.protocol ≠ .udp) :
    SendOutline (κ := κ) (sendStream message config) (Sending config) := by
  refine outline_drain (fun _ _ _ => trivial) fun x s _ h _ _ => ?_
  refine ⟨Sending config, stable_sending _, h, ?_⟩
  cases (syslogReply none x (.cachedStream config.endpoint) s).1 with
  | some sock => exact outline_drain_sendOnStream
  | none =>
      refine outline_drain (fun _ _ _ => trivial) fun x s _ h _ hcond => ?_
      rw [show x = none from hcond]
      refine ⟨Sending config, stable_sending _, h.of_same rfl rfl rfl, ?_⟩
      refine outline_drain (fun _ _ _ => trivial) fun x s hs h _ _ => ?_
      -- no configuration has come in between
      have hcurrent : s.stillCurrent config = true := by
        have hsame := h.current hne
        have henabled := hs.enabled
        simp [SyslogState.stillCurrent, ← hsame, henabled]
      refine ⟨Sending config, stable_sending _, ?_, ?_⟩
      · simp only [syslogReply, hcurrent, if_true]
        exact h.of_same rfl rfl rfl
      · simp only [syslogReply, hcurrent, if_true]
        exact outline_drain_sendOnStream

/-- The outline of sending over UDP. -/
theorem outline_drain_sendUdp {message : Bytes} :
    SendOutline (κ := κ) (sendUdp message config) (Sending config) := by
  refine outline_drain_keeps (stable_sending _) (fun _ _ _ => trivial) (fun x s h _ => ?_)
    fun sock => ?_
  · simp only [syslogReply]
    split
    · exact h
    · exact h.of_same rfl rfl rfl
  · refine outline_drain (fun _ _ h => ⟨rfl, h.hand.imp fun _ hh => hh.1⟩) fun x s _ h _ hcond => ?_
    rw [show x = none from hcond]
    exact ⟨Idle, stable_idle, ⟨hands_hold_none s none, h.alive⟩, fun _ _ h => h⟩

/-- The outline of sending. -/
theorem outline_drain_sendMessage {message : Bytes} :
    SendOutline (κ := κ) (sendMessage message config) (Sending config) := by
  unfold sendMessage
  cases hprotocol : config.protocol with
  | tcp => exact outline_drain_sendStream (by simp [hprotocol])
  | tls => exact outline_drain_sendStream (by simp [hprotocol])
  | udp => exact outline_drain_sendUdp

/-- The worker ends with everything sent. -/
def AllSent (ended : Bool) (s : SyslogState (Option κ)) : Prop :=
  ended = true → s.sent = s.accepted

/-- The worker ends with everything sent. -/
theorem outline_drain_exit :
    (drainTerms κ).Outline none (fun _ => True) AllSent (.call .exit fun _ => .ret true) Idle := by
  refine outline_drain (fun _ _ h => ⟨rfl, h.hand⟩) fun x s _ h _ _ => ?_
  refine ⟨fun s => s.thread ≠ some true, fun _ _ _ _ hrely h => hrely.ended h, nofun, ?_⟩
  intro s' hs' hended _
  obtain ⟨hevents, hhand⟩ := hs'.ended hended
  have horder := hs'.order
  rw [hevents, SyslogState.inHand, hhand] at horder
  simpa using horder.symm

/-- The outline of the worker. -/
theorem outline_drain_runWorker (H : SyslogHost) (rounds : Nat) :
    (drainTerms κ).Outline none (fun _ => True) AllSent (runWorker H rounds) Idle := by
  induction rounds with
  | zero => exact fun _ _ _ h => nomatch h
  | succ rounds ih =>
      refine outline_drain_keeps stable_idle (fun _ _ _ => trivial) (fun _ _ h _ => h)
        fun stopped => ?_
      cases stopped with
      | true => exact outline_drain_exit
      | false =>
          refine outline_drain_keeps stable_idle (fun _ _ _ => trivial) (fun _ _ h _ => h)
            fun n => ?_
          refine outline_drain (fun _ _ h => ⟨rfl, h.hand, h.alive⟩) fun x s hs h _ _ => ?_
          have hreply : (syslogReply none x (.get n) s).1 = (s.queues n).items.head? := rfl
          have hhand : (syslogReply none x (.get n) s).2.hands none =
              (s.queues n).items.head?.join.map fun item => ⟨item, s.config, false⟩ :=
            hands_hold_none ..
          rw [hreply]
          cases hhead : (s.queues n).items.head? with
          | none =>
              rw [hhead] at hhand
              exact ⟨Idle, stable_idle, ⟨hhand, h.alive⟩, ih⟩
          | some item =>
              rw [hhead] at hhand
              cases item with
              | none =>
                  refine ⟨Idle, stable_idle, ⟨hhand, h.alive⟩, ?_⟩
                  refine outline_drain_keeps stable_idle (fun _ _ _ => trivial) (fun _ _ h _ => h)
                    fun stopped => ?_
                  cases stopped with
                  | true => exact outline_drain_exit
                  | false => exact ih
              | some item =>
                  obtain ⟨generation, event⟩ := item
                  refine ⟨Busy (generation, event), stable_busy _,
                    ⟨⟨_, hhand, rfl, rfl⟩, h.alive⟩, ?_⟩
                  refine outline_drain (fun _ _ _ => trivial) fun x s hs hbusy _ _ => ?_
                  obtain ⟨hand, hhand, hitem, hchecked⟩ := hbusy.hand
                  -- the check finds the configuration of the event
                  have hgeneration : generation = s.config.generation := by
                    have hheld := hs.held hand hhand hchecked
                    rw [hitem] at hheld
                    exact hheld.trans hs.numbered.symm
                  refine ⟨Sending s.config, stable_sending _, ?_, ?_⟩
                  · refine ⟨⟨{ hand with checked := true }, ?_, rfl⟩, hbusy.alive, rfl, fun _ => rfl⟩
                    show (s.hold none _).hands none = _
                    rw [hands_hold_none, hhand]
                    rfl
                  · show (drainTerms κ).Outline none _ _ (if generation ≠ s.config.generation ||
                      !s.config.enabled then runWorker H rounds else _) _
                    rw [if_neg (by simp [hgeneration, hs.enabled])]
                    exact outline_drain_sendMessage.bind fun _ => ih

end

end

/-! ## runs -/

/-- Every configuration is enabled, has the same destination and no smaller
queue; nothing fails, and the worker ends before `stop` goes on. -/
def keepsDestination {κ : Type} : Cond syslogSig (Option κ) (Option Nat) (SyslogState (Option κ)) :=
  fun _ x o s =>
    match o with
    | .openStream _ => x = none
    | .sendTo .. => x = none
    | .sendAll .. => x = none
    | .ensureWorker => s.thread = some true
    | .join => s.thread ≠ some true
    | .applyConfig config =>
        config.enabled = true ∧ config.endpoint = s.config.endpoint ∧
          s.config.queueSize ≤ config.queueSize
    | _ => True

/-- Two events, a configuration that changes the level, and the stop. -/
def fourCalls : Fin 4 → SyslogCaller
  | 0 => .enqueue ⟨lit "ERROR", lit "134>1"⟩
  | 1 => .configure 2 { tcpConfig with minimumLevel := lit "WARNING" }
  | 2 => .stop
  | 3 => .enqueue ⟨lit "ERROR", lit "134>2"⟩

/-- The turns of one actor. -/
def turnsOf (i : Option (Fin 4)) (n : Nat) : List (Option (Fin 4) × Option Nat) :=
  List.replicate n (i, none)

/-- Every call and the worker take their turns when they have nothing to wait
for. -/
def inTurn : List (Option (Fin 4) × Option Nat) :=
  turnsOf (some 1) 5 ++ turnsOf (some 0) 3 ++ turnsOf (some 3) 3 ++ turnsOf none 14 ++
    turnsOf (some 2) 5 ++ turnsOf none 2 ++ turnsOf (some 2) 6

/-- The configuration comes between the event and the worker. -/
def reconfigured : List (Option (Fin 4) × Option Nat) :=
  turnsOf (some 0) 3 ++ turnsOf (some 1) 5 ++ turnsOf none 4 ++ turnsOf (some 2) 5 ++
    turnsOf none 2 ++ turnsOf (some 2) 6

/-- The stop comes between the event and the worker. -/
def stoppedEarly : List (Option (Fin 4) × Option Nat) :=
  turnsOf (some 0) 3 ++ turnsOf (some 2) 5 ++ turnsOf none 2 ++ turnsOf (some 2) 6

instance {κ : Type} (s : SyslogState (Option κ)) : Decidable s.settled :=
  inferInstanceAs (Decidable (_ ∧ _))

instance {κ : Type} (i : Option κ) (x : Option Nat) (o : SyslogOp) (s : SyslogState (Option κ)) :
    Decidable (keepsEvents i x o s) := by
  unfold keepsEvents
  split <;> infer_instance

instance {κ : Type} (i : Option κ) (x : Option Nat) (o : SyslogOp) (s : SyslogState (Option κ)) :
    Decidable (keepsDestination i x o s) := by
  unfold keepsDestination
  split <;> infer_instance

/-- The worker has come to its end in the run. -/
def WorkerEnds (es : List (Option (Fin 4) × Option Nat)) : Prop :=
  ((running plainHost fourCalls 3 tcpConfig).turns (syslogEnv (Option (Fin 4))) es).answer? id
    none = some true

instance (es : List (Option (Fin 4) × Option Nat)) : Decidable (WorkerEnds es) :=
  inferInstanceAs (Decidable (_ = _))

/-- The run never takes the destination away, and not every event that was
accepted is sent in it. -/
def LosesEvents (es : List (Option (Fin 4) × Option Nat)) : Prop :=
  (running plainHost fourCalls 3 tcpConfig).MeetsRun (syslogEnv (Option (Fin 4)))
      keepsDestination es ∧
    WorkerEnds es ∧
      ((running plainHost fourCalls 3 tcpConfig).turns (syslogEnv (Option (Fin 4)))
        es).shared.sent ≠
      ((running plainHost fourCalls 3 tcpConfig).turns (syslogEnv (Option (Fin 4)))
        es).shared.accepted

instance (es : List (Option (Fin 4) × Option Nat)) : Decidable (LosesEvents es) :=
  inferInstanceAs (Decidable (_ ∧ _))

end ApiToDns
