import ApiToDns.Lib.Script
import ApiToDns.LetsEncrypt
import Mathlib.Logic.Function.Basic

/-!
# Challenges

One enrollment operation at a time against the settings, an ACME server and
the zones of a provider whose calls may raise before or after they take
effect; and what stands in the zone when the challenges of an order have been
attached.

Publishing a challenge replaces the RRset of its owner, so of several
challenges with one owner the last one stands.
-/

namespace ApiToDns

open Py

/-! ## the world -/

/-- The choices of the world for one operation: the exception it raises, with
whether it takes effect all the same, and what ACME and the provider answer. -/
structure LeTurn where
  raised : Option (Bool × LeExc) := none
  order : Order := ⟨0, []⟩
  records : List (List Str) := []
  due : Bool := false

/-- Nothing is raised. -/
def LeTurn.quiet : LeTurn := {}

/-- The settings, the zone configurations and the zones, and what has
happened: the RRsets that were created and not deleted since, and whether the
last order has been finalized. -/
structure LeState where
  zones : Nat → Option Str
  /-- the TXT RRset of an owner -/
  txt : Str → List Str
  config : Option LeConfig
  enrollment : Option Enrollment
  progress : Option EnrollmentProgress
  outstanding : List (LeZone × Str)
  finalized : Bool

variable (U : Ucd)

/-- The owner a provider reads from a zone and a name in it. -/
def LeZone.owner (zone : LeZone) (name : Str) : Str :=
  name ++ '.' :: normalizeZoneName U zone.dnsZone

namespace LeState

variable (s : LeState)

/-- The provider replaces the RRset. -/
def create (zone : LeZone) (name value : Str) : LeState :=
  { s with txt := Function.update s.txt (zone.owner U name) [value]
           outstanding := (zone, name) :: s.outstanding }

/-- The deletion of an RRset, which the provider may or may not do. -/
def delete (zone : LeZone) (name : Str) (takesEffect : Bool) : LeState :=
  { s with txt := if takesEffect then Function.update s.txt (zone.owner U name) [] else s.txt
           outstanding := s.outstanding.filter (· ≠ (zone, name)) }

end LeState

/-- The operations; provider, ACME server and installation may raise, and so
may an activity event, whose log level may be stored under another key. -/
def leReplies (x : LeTurn) : Handler leSig LeState
  | .tryBegin, s =>
      if enrollmentIsRunning s.progress then (.ok false, s)
      else (.ok true, { s with progress := some ⟨.starting, false⟩ })
  | .progress progress, s => (.ok (), { s with progress := some progress })
  | .isInProgress, s => (.ok (enrollmentIsRunning s.progress), s)
  | .markFinished, s => (.ok (), { s with progress := some ⟨.error, true⟩ })
  | .saveConfig config, s =>
      match x.raised with
      | some (_, exc) => (.error exc, s)
      | none => (.ok (), { s with config := some config })
  | .getConfig, s => (.ok s.config, s)
  | .writeConfig config, s => (.ok (), { s with config := some config })
  | .certDue, s => (.ok x.due, s)
  | .newOrder _, s =>
      match x.raised with
      | some (_, exc) => (.error exc, s)
      | none => (.ok x.order, { s with finalized := false })
  | .pollAndFinalize _, s =>
      match x.raised with
      | some (_, exc) => (.error exc, s)
      | none => (.ok (), { s with finalized := true })
  | .installCert, s =>
      match x.raised with
      | some (_, exc) => (.error exc, s)
      | none => (.ok (), s)
  | .getEnrollment, s => (.ok s.enrollment, s)
  | .writeEnrollment enrollment, s => (.ok (), { s with enrollment := some enrollment })
  | .clearEnrollment, s => (.ok (), { s with enrollment := none })
  | .zoneRow id, s => (.ok ((s.zones id).map (⟨id, ·⟩)), s)
  | .createTxt zone name value, s =>
      match x.raised with
      | some (takesEffect, exc) =>
          (.error exc, if takesEffect then s.create U zone name value else s)
      | none => (.ok (), s.create U zone name value)
  | .deleteTxt zone name, s =>
      match x.raised with
      | some (takesEffect, exc) => (.error exc, s.delete U zone name takesEffect)
      | none => (.ok (), s.delete U zone name true)
  | .getTxt _ _, s =>
      match x.raised with
      | some (_, exc) => (.error exc, s)
      | none => (.ok x.records, s)
  | .audit _, s =>
      match x.raised with
      | some (_, exc) => (.error exc, s)
      | none => (.ok (), s)
  | .deleteZone id, s => (.ok (), { s with zones := Function.update s.zones id none })
  | .respond, s => (.ok (), s)

/-! ## owners -/

/-- The owner that ACME looks up for a domain. -/
def acmeOwner (domain : Str) : Str := lit "_acme-challenge." ++ normalizeZoneName U domain

/-- The domain is the zone or a name in it. -/
def IsUnder (domain zone : Str) : Prop :=
  normalizeZoneName U domain = normalizeZoneName U zone ∨
    ∃ front c, normalizeZoneName U domain = front ++ c :: '.' :: normalizeZoneName U zone ∧ c ≠ '.'

variable {U}

/-- A text that ends with another character keeps its end. -/
theorem rstripDots_concat {s : Str} {c : Char} (hc : c ≠ '.') : rstripDots (s ++ [c]) = s ++ [c] := by
  refine rstripDots_eq_self fun d hd => ?_
  rw [List.getLast?_concat, Option.mem_def, Option.some.injEq] at hd
  rwa [← hd]

/-- The names of a zone are the ones ACME looks up. -/
theorem owner_relativeAcmeName {domain : Str} {zone : LeZone} (h : IsUnder U domain zone.dnsZone) :
    zone.owner U (relativeAcmeName U domain zone.dnsZone) = acmeOwner U domain := by
  unfold LeZone.owner relativeAcmeName acmeOwner
  rcases h with heq | ⟨front, c, heq, hc⟩
  · have hnot : endsWith (normalizeZoneName U zone.dnsZone)
        ('.' :: normalizeZoneName U zone.dnsZone) = false := by
      rw [endsWith, Bool.eq_false_iff]
      intro hsuffix
      have hle := (List.isSuffixOf_iff_suffix.mp hsuffix).length_le
      rw [List.length_cons] at hle
      exact Nat.not_succ_le_self _ hle
    dsimp only
    rw [heq, hnot]
    rfl
  · have hends : endsWith (front ++ c :: '.' :: normalizeZoneName U zone.dnsZone)
        ('.' :: normalizeZoneName U zone.dnsZone) = true := by
      rw [endsWith, List.isSuffixOf_iff_suffix]
      exact ⟨front ++ [c], by simp⟩
    have hdrop : dropEnd (front ++ c :: '.' :: normalizeZoneName U zone.dnsZone)
        ((normalizeZoneName U zone.dnsZone).length + 1) = front ++ [c] := by
      rw [show front ++ c :: '.' :: normalizeZoneName U zone.dnsZone =
        (front ++ [c]) ++ '.' :: normalizeZoneName U zone.dnsZone by simp]
      exact dropEnd_append_of_length rfl
    dsimp only
    rw [heq, hends, if_pos rfl, hdrop, ← List.append_assoc, rstripDots_concat hc]
    simp

/-! ## attaching challenges -/

variable {Q : LeTurn → LeOp → LeState → Prop}

/-- The zones of a provider after it has published challenges, one after the
other. -/
def published (U : Ucd) (zone : LeZone) (cs : List Challenge) (txt : Str → List Str) : Str → List Str :=
  cs.foldl (fun txt c =>
    Function.update txt (zone.owner U (relativeAcmeName U c.domain zone.dnsZone)) [c.dnsValue]) txt

/-- The rule of one operation. -/
theorem wp_ask {o : LeOp} {post : Except LeExc o.Answer → LeState → Prop} {s : LeState} :
    (LeOp.ask o).prog.wp (leReplies U) Q post s ↔
      ∀ x, Q x o s → post (leReplies U x o s).1 (leReplies U x o s).2 := Iff.rfl

/-- Reporting a phase touches the progress only. -/
theorem wp_reportPhase {async : Bool} {phase : EnrollmentPhase} {s : LeState} :
    (reportPhase async phase).prog.wp (leReplies U) Q
      (fun r s' => r = .ok () ∧ ∃ progress, s' = { s with progress }) s := by
  unfold reportPhase
  cases async with
  | false => exact ⟨rfl, _, rfl⟩
  | true => exact fun _ _ => ⟨rfl, _, rfl⟩

/-- A challenge is published, or an exception is raised, which may come from
the provider after it has done so. -/
theorem wp_createDnsTxtChallenge {zoneId : Nat} {c : Challenge} {s : LeState} :
    (createDnsTxtChallenge U zoneId c).prog.wp (leReplies U) Q
      (fun r s' => r = .ok () → ∃ dnsZone, s.zones zoneId = some dnsZone ∧
        s' = s.create U ⟨zoneId, dnsZone⟩ (relativeAcmeName U c.domain dnsZone) c.dnsValue) s := by
  unfold createDnsTxtChallenge
  rw [Code.wp_bind, wp_ask]
  intro _ _
  dsimp only [leReplies]
  cases hzone : s.zones zoneId with
  | none => simp [Option.map]
  | some dnsZone =>
      rw [Option.map_some]
      dsimp only
      rw [Code.wp_bind, wp_ask]
      intro x _
      dsimp only [leReplies]
      cases x.raised with
      | some raised => simp
      | none =>
          intro y _
          dsimp only [leReplies]
          cases y.raised with
          | some raised => simp
          | none => exact fun _ => ⟨dnsZone, rfl, rfl⟩

/-- Looking for a record touches the progress only. -/
theorem wp_verifyAttempts {async : Bool} {zone : LeZone} {name value : Str} {n : Nat} {s : LeState} :
    (verifyAttempts async zone name value n).prog.wp (leReplies U) Q
      (fun _ s' => ∃ progress, s' = { s with progress }) s := by
  induction n generalizing s with
  | zero => exact ⟨_, rfl⟩
  | succ n ih =>
      unfold verifyAttempts
      rw [Code.wp_bind]
      refine Prog.wp_mono wp_reportPhase fun r s₁ h => ?_
      obtain ⟨rfl, progress, rfl⟩ := h
      dsimp only
      rw [Code.wp_bind, wp_ask]
      intro x _
      dsimp only [leReplies]
      cases x.raised with
      | some raised => exact ⟨_, rfl⟩
      | none =>
          dsimp only
          rw [Code.wp_bind, wp_ask]
          intro y _
          dsimp only [leReplies]
          cases y.raised with
          | some raised => exact ⟨_, rfl⟩
          | none =>
              dsimp only
              split
              · exact ⟨_, rfl⟩
              · refine Prog.wp_mono ih fun r s₂ h => ?_
                obtain ⟨progress', rfl⟩ := h
                exact ⟨progress', rfl⟩

/-- Verifying a challenge touches the progress only. -/
theorem wp_verifyDnsTxtChallenge {async : Bool} {zoneId total : Nat} {c : Challenge} {s : LeState} :
    (verifyDnsTxtChallenge U async zoneId total c).prog.wp (leReplies U) Q
      (fun _ s' => ∃ progress, s' = { s with progress }) s := by
  unfold verifyDnsTxtChallenge
  rw [Code.wp_bind, wp_ask]
  intro _ _
  dsimp only [leReplies]
  cases s.zones zoneId with
  | none => exact ⟨_, rfl⟩
  | some dnsZone => exact wp_verifyAttempts

/-- Challenges that are all provisioned have been published in their order. -/
theorem wp_provisionChallenges {async : Bool} {zoneId total : Nat} {cs provisioned : List Challenge}
    {dnsZone : Str} {s : LeState} (hzone : ∀ d, s.zones zoneId = some d → d = dnsZone) :
    (provisionChallenges U async zoneId total cs provisioned).wp (leReplies U) Q
      (fun r s' => r.1 = .ok () → s'.txt = published U ⟨zoneId, dnsZone⟩ cs s.txt) s := by
  induction cs generalizing provisioned s with
  | nil => exact fun _ => rfl
  | cons c rest ih =>
      unfold provisionChallenges
      rw [Prog.wp_bind]
      refine Prog.wp_mono wp_createDnsTxtChallenge fun r s₁ hcreated => ?_
      cases r with
      | error exc => simp
      | ok u =>
          obtain ⟨d, hd, rfl⟩ := hcreated rfl
          obtain rfl := hzone d hd
          dsimp only
          rw [Prog.wp_bind]
          refine Prog.wp_mono wp_verifyDnsTxtChallenge fun r s₂ hverified => ?_
          obtain ⟨progress, rfl⟩ := hverified
          cases r with
          | error exc => simp
          | ok u => exact Prog.wp_mono (ih hzone) fun r s₃ h hok => h hok

/-- What an owner has after challenges have been published: the value of the
last challenge with that owner. -/
theorem published_concat (zone : LeZone) (cs : List Challenge) (c : Challenge) (txt : Str → List Str) :
    published U zone (cs ++ [c]) txt =
      Function.update (published U zone cs txt)
        (zone.owner U (relativeAcmeName U c.domain zone.dnsZone)) [c.dnsValue] := by
  simp [published, List.foldl_append]

/-- Of the challenges with one owner, one has its value there. -/
theorem published_owner {zone : LeZone} {cs : List Challenge} {txt : Str → List Str}
    (hcs : ∀ c ∈ cs, IsUnder U c.domain zone.dnsZone) {c : Challenge} (hc : c ∈ cs) :
    ∃ c' ∈ cs, acmeOwner U c'.domain = acmeOwner U c.domain ∧
      published U zone cs txt (acmeOwner U c.domain) = [c'.dnsValue] := by
  induction cs using List.reverseRecOn with
  | nil => cases hc
  | append_singleton cs last ih =>
      have hlast := owner_relativeAcmeName (hcs last (by simp))
      rw [published_concat, hlast]
      by_cases heq : acmeOwner U c.domain = acmeOwner U last.domain
      · exact ⟨last, by simp, heq.symm, by rw [heq, Function.update_self]⟩
      · have hmem : c ∈ cs := by
          rcases List.mem_append.mp hc with h | h
          · exact h
          · rw [List.mem_singleton.mp h] at heq
            exact absurd rfl heq
        obtain ⟨c', hc', howner, hvalue⟩ := ih (fun c hc => hcs c (by simp [hc])) hmem
        exact ⟨c', by simp [hc'], howner, by rw [Function.update_of_ne heq, hvalue]⟩

/-- All published challenges stand exactly if those with one owner agree. -/
theorem forall_mem_published_iff {zone : LeZone} {cs : List Challenge} {txt : Str → List Str}
    (hcs : ∀ c ∈ cs, IsUnder U c.domain zone.dnsZone) :
    (∀ c ∈ cs, c.dnsValue ∈ published U zone cs txt (acmeOwner U c.domain)) ↔
      ∀ c ∈ cs, ∀ c' ∈ cs, acmeOwner U c.domain = acmeOwner U c'.domain →
        c.dnsValue = c'.dnsValue := by
  constructor
  · intro hall c hc c' hc' howner
    obtain ⟨last, -, -, hvalue⟩ := published_owner hcs hc
    have h := hall c hc
    have h' := hall c' hc'
    rw [← howner] at h'
    rw [hvalue, List.mem_singleton] at h h'
    rw [h, h']
  · intro hagree c hc
    obtain ⟨last, hlast, howner, hvalue⟩ := published_owner hcs hc
    rw [hvalue, List.mem_singleton]
    exact hagree c hc last hlast howner.symm

/-- An order that is ready stands in the zone. -/
theorem wp_attachDnsChallenges {async : Bool} {zoneId : Nat} {order : Order} {dnsZone : Str}
    {s : LeState} (hzone : s.zones zoneId = some dnsZone) :
    (attachDnsChallenges U async zoneId order).wp (leReplies U) Q
      (fun r s' => r = .ok .ready →
        s'.txt = published U ⟨zoneId, dnsZone⟩ order.challenges s.txt) s := by
  unfold attachDnsChallenges
  rw [Prog.wp_bind]
  refine Prog.wp_mono wp_reportPhase fun r s₁ h => ?_
  obtain ⟨rfl, progress, rfl⟩ := h
  dsimp only
  rw [Prog.wp_bind]
  have hzones : ∀ d, s.zones zoneId = some d → d = dnsZone := fun d hd =>
    Option.some.inj (hd.symm.trans hzone)
  refine Prog.wp_mono (wp_provisionChallenges hzones) fun r s₂ hprovisioned => ?_
  obtain ⟨result, provisioned⟩ := r
  cases result with
  | ok u => exact fun _ => hprovisioned rfl
  | error exc =>
      cases exc with
      | letsEncryptError msg =>
          rw [Prog.wp_bind]
          exact Prog.wp_of_forall fun _ s₃ => by simp
      | other msg => simp

/-- When the challenges of an order have been attached, all of them stand
exactly if the challenges with one owner ask for the same value. -/
theorem challenges_stand_iff (U : Ucd) (async automatedOnly : Bool) (config : LeConfig)
    (order : Order) (script : List LeTurn) (s s' : LeState) {zoneId : Nat} {dnsZone : Str}
    (hdns : config.challengeType = .dns01) (hid : config.zoneId = some zoneId)
    (hzone : s.zones zoneId = some dnsZone)
    (hunder : ∀ c ∈ order.challenges, IsUnder U c.domain dnsZone)
    (hready : (attachChallengesToEnrollment U async automatedOnly config order).prog.exec
      (leReplies U) script s = some (.ok .ready, s')) :
    (∀ c ∈ order.challenges, c.dnsValue ∈ s'.txt (acmeOwner U c.domain)) ↔
      ∀ c ∈ order.challenges, ∀ c' ∈ order.challenges,
        acmeOwner U c.domain = acmeOwner U c'.domain → c.dnsValue = c'.dnsValue := by
  unfold attachChallengesToEnrollment at hready
  rw [hdns, hid] at hready
  have htxt : s'.txt = published U ⟨zoneId, dnsZone⟩ order.challenges s.txt :=
    Prog.wp_exec (Q := fun _ _ _ => True) (wp_attachDnsChallenges hzone) hready
      (Prog.along_of_forall (fun _ _ _ => trivial) _ _ _) rfl
  rw [htxt]
  exact forall_mem_published_iff hunder

/-! ## a name and its wildcard -/

/-- One zone configuration, for `example.com`, and an enrollment with it. -/
def acmeState : LeState where
  zones := fun id => if id = 1 then some (lit "example.com") else none
  txt _ := []
  config := none
  enrollment := none
  progress := none
  outstanding := []
  finalized := false

def acmeZone : LeZone := ⟨1, lit "example.com"⟩

def acmeConfig : LeConfig := ⟨.dns01, some 1, lit "example.com", true⟩

/-- A challenge that is published and read back at the first attempt. -/
def provisionScript (value : Str) : List LeTurn :=
  [.quiet, .quiet, .quiet, .quiet, { records := [[value]] }, .quiet]

def wwwOrder : Order := ⟨0, [⟨lit "www.example.com", lit "a"⟩]⟩

/-- Two names, each with an owner of its own. -/
def hostsOrder : Order := ⟨0, wwwOrder.challenges ++ [⟨lit "mail.example.com", lit "b"⟩]⟩

/-- The authorizations of `example.com` and `*.example.com`, whose identifier
is `example.com` too. -/
def wildcardOrder : Order := ⟨0, [⟨lit "example.com", lit "a"⟩, ⟨lit "example.com", lit "b"⟩]⟩

/-- The hosts are in the zone. -/
theorem isUnder_hosts : ∀ c ∈ hostsOrder.challenges, IsUnder .ascii c.domain (lit "example.com") := by
  simp only [hostsOrder, wwwOrder, List.mem_append, List.mem_singleton]
  rintro c (rfl | rfl)
  · exact .inr ⟨lit "ww", 'w', by decide, by decide⟩
  · exact .inr ⟨lit "mai", 'l', by decide, by decide⟩

/-- Of two names the second publication leaves the first one alone. -/
theorem challenges_stand_hosts :
    ¬∃ c ∈ hostsOrder.challenges, c.dnsValue ∉
      ((acmeState.create .ascii acmeZone (lit "_acme-challenge.www") (lit "a")).create .ascii acmeZone
        (lit "_acme-challenge.mail") (lit "b")).txt (acmeOwner .ascii c.domain) := by
  rintro ⟨c, hc, hnot⟩
  have hstand := (challenges_stand_iff .ascii false false acmeConfig hostsOrder
    (provisionScript (lit "a") ++ provisionScript (lit "b")) acmeState _ rfl rfl rfl
    isUnder_hosts rfl).mpr (by decide)
  exact hnot (hstand c hc)

/-- The challenge of the name is gone when that of its wildcard is ready. -/
theorem wildcard_challenge_replaces :
    ∃ s', (attachChallengesToEnrollment .ascii false false acmeConfig wildcardOrder).prog.exec
        (leReplies .ascii) (provisionScript (lit "a") ++ provisionScript (lit "b")) acmeState =
          some (.ok .ready, s') ∧
      ¬ ∀ c ∈ wildcardOrder.challenges, c.dnsValue ∈ s'.txt (acmeOwner .ascii c.domain) :=
  ⟨_, rfl, by decide⟩

end ApiToDns
