import ApiToDns.Challenges

/-!
# Orphans

Challenge records that are left behind: the RRsets that an enrollment
operation created, and whose deletion nobody has attempted, should be among
the challenges of the stored enrollment, which a cancel deletes.
-/

namespace ApiToDns

open Py

variable (U : Ucd)

/-- The enrollment names the RRset. -/
def Enrollment.Lists (e : Enrollment) (r : LeZone × Str) : Prop :=
  e.config.zoneId = some r.1.id ∧
    ∃ c ∈ e.order.challenges, relativeAcmeName U c.domain r.1.dnsZone = r.2

/-- The stored enrollment names every RRset that is still to be deleted. -/
def NoOrphans (s : LeState) : Prop :=
  ∀ r ∈ s.outstanding, ∃ e, s.enrollment = some e ∧ e.Lists U r

def LeExc.isLetsEncryptError : LeExc → Bool
  | letsEncryptError _ => true
  | other _ => false

/-- Starts and renewals get an order only when no record is to be deleted; in
a start no lookup and no event of one raises another exception than a
`LetsEncryptError` once there is a record, and none is raised once a record has
been created, by the provider or by the event; and when the certificate has
been issued no deletion and no event of one raises while another record is to
be deleted. -/
def LeRequest.cond : LeRequest → LeTurn → LeOp → LeState → Prop
  | .start _, x, o, s | .startAsync _, x, o, s =>
      match o, x.raised with
      | .newOrder _, none => s.outstanding = []
      | .createTxt .., some (takesEffect, exc) =>
          takesEffect = false ∧ (exc.isLetsEncryptError = true ∨ s.outstanding = [])
      | .audit .recordCreated, some _ => False
      | .getTxt .., some (_, exc) | .audit .recordLookup, some (_, exc) =>
          exc.isLetsEncryptError = true ∨ s.outstanding = []
      | .deleteTxt zone name, some _ => s.finalized = true → ∀ r ∈ s.outstanding, r = (zone, name)
      | .audit .recordDeleted, some _ => s.finalized = true → s.outstanding = []
      | _, _ => True
  | .continue_, x, o, s =>
      match o, x.raised with
      | .deleteTxt zone name, some _ => s.finalized = true → ∀ r ∈ s.outstanding, r = (zone, name)
      | .audit .recordDeleted, some _ => s.finalized = true → s.outstanding = []
      | _, _ => True
  | .renew, x, o, s =>
      match o, x.raised with
      | .newOrder _, none => s.outstanding = []
      | _, _ => True
  | .cancel, _, _, _ | .zoneDelete _, _, _, _ => True

/-! ## deletions -/

/-- The RRsets to be deleted are challenges of the list in a zone
configuration that is still there. -/
def Within (s : LeState) (zoneId : Nat) (cs : List Challenge) : Prop :=
  ∀ r ∈ s.outstanding, s.zones zoneId = some r.1.dnsZone ∧ r.1.id = zoneId ∧
    ∃ c ∈ cs, relativeAcmeName U c.domain r.1.dnsZone = r.2

/-- What deletions leave alone; they create nothing. -/
structure LeState.Frame (s s' : LeState) : Prop where
  zones : s'.zones = s.zones
  enrollment : s'.enrollment = s.enrollment
  finalized : s'.finalized = s.finalized

/-- The frame of a state that stays as it is. -/
theorem LeState.Frame.refl (s : LeState) : s.Frame s := ⟨rfl, rfl, rfl⟩

/-- Two frames one after the other. -/
theorem LeState.Frame.trans {s s' s'' : LeState} (h : s.Frame s') (h' : s'.Frame s'') :
    s.Frame s'' :=
  ⟨h'.zones.trans h.zones, h'.enrollment.trans h.enrollment, h'.finalized.trans h.finalized⟩

variable {U} {Q : LeTurn → LeOp → LeState → Prop} {zoneId : Nat} {s : LeState}

/-- Fewer records are within more challenges. -/
theorem Within.mono {s' : LeState} {cs cs' : List Challenge} (h : Within U s zoneId cs)
    (hzones : s'.zones = s.zones) (hout : ∀ r ∈ s'.outstanding, r ∈ s.outstanding)
    (hcs : ∀ c ∈ cs, c ∈ cs') : Within U s' zoneId cs' := by
  intro r hr
  obtain ⟨hzone, hid, c, hc, hname⟩ := h r (hout r hr)
  exact ⟨by rw [hzones, hzone], hid, c, hcs c hc, hname⟩

/-- Within no challenge there is no record. -/
theorem Within.nil (h : Within U s zoneId []) : s.outstanding = [] := by
  refine List.eq_nil_iff_forall_not_mem.mpr fun r hr => ?_
  obtain ⟨-, -, c, hc, -⟩ := h r hr
  cases hc

/-- Without a record everything is within. -/
theorem within_of_nil (h : s.outstanding = []) (cs : List Challenge) : Within U s zoneId cs := by
  intro r hr
  rw [h] at hr
  cases hr

/-- What is left when the deletion of a challenge has been attempted. -/
def Deleted (U : Ucd) (zoneId : Nat) (c : Challenge) (s s' : LeState) : Prop :=
  s.Frame s' ∧ ∀ r ∈ s'.outstanding, r ∈ s.outstanding ∧
    ¬ (s.zones zoneId = some r.1.dnsZone ∧ r.1.id = zoneId ∧
      relativeAcmeName U c.domain r.1.dnsZone = r.2)

/-- A deleted record leaves the others within. -/
theorem Within.deleted {s' : LeState} {c : Challenge} {cs : List Challenge}
    (h : Within U s zoneId (c :: cs)) (hd : Deleted U zoneId c s s') : Within U s' zoneId cs := by
  intro r hr
  obtain ⟨hmem, hnot⟩ := hd.2 r hr
  obtain ⟨hzone, hid, c', hc', hname⟩ := h r hmem
  refine ⟨by rw [hd.1.zones, hzone], hid, ?_⟩
  rcases List.mem_cons.mp hc' with rfl | hc'
  · exact absurd ⟨hzone, hid, hname⟩ hnot
  · exact ⟨c', hc', hname⟩

/-- When an order is finalized, a deletion that raises leaves nothing, nor does
the event of one. -/
structure LastRaises (Q : LeTurn → LeOp → LeState → Prop) : Prop where
  delete : ∀ x zone name s, Q x (.deleteTxt zone name) s → x.raised ≠ none → s.finalized = true →
    ∀ r ∈ s.outstanding, r = (zone, name)
  audit : ∀ x s, Q x (.audit .recordDeleted) s → x.raised ≠ none → s.finalized = true →
    s.outstanding = []

/-- The deletion of a challenge attempts it; of a finalized order, only the
last one raises. -/
theorem wp_deleteDnsTxtChallenge {c : Challenge} :
    (deleteDnsTxtChallenge U zoneId c).prog.wp (leReplies U) Q
      (fun r s' => Deleted U zoneId c s s' ∧
        (r ≠ .ok () → LastRaises Q → s.finalized = true → s'.outstanding = [])) s := by
  unfold deleteDnsTxtChallenge
  rw [Code.wp_bind, wp_ask]
  intro _ _
  dsimp only [leReplies]
  cases hzone : s.zones zoneId with
  | none =>
      refine ⟨⟨.refl s, fun r hr => ⟨hr, fun hc => ?_⟩⟩, fun hne => absurd rfl hne⟩
      rw [hzone] at hc
      cases hc.1
  | some dnsZone =>
      rw [Option.map_some]
      dsimp only
      rw [Code.wp_bind, wp_ask]
      intro x hx
      have hafter : ∀ takesEffect, Deleted U zoneId c s
          (s.delete U ⟨zoneId, dnsZone⟩ (relativeAcmeName U c.domain dnsZone) takesEffect) := by
        refine fun takesEffect => ⟨⟨rfl, rfl, rfl⟩, fun r hr => ?_⟩
        obtain ⟨hmem, hne⟩ := List.mem_filter.mp hr
        refine ⟨hmem, fun hc => ?_⟩
        obtain ⟨⟨id, d⟩, name⟩ := r
        simp_all
      dsimp only [leReplies]
      cases hraised : x.raised with
      | some raised =>
          obtain ⟨takesEffect, exc⟩ := raised
          refine ⟨hafter takesEffect, fun _ hQ hfin => List.filter_eq_nil_iff.mpr fun r hr => ?_⟩
          simpa using hQ.delete x _ _ s hx (by rw [hraised]; simp) hfin r hr
      | none =>
          intro y hy
          dsimp only [leReplies]
          cases hevent : y.raised with
          | some raised =>
              exact ⟨hafter true, fun _ hQ hfin => hQ.audit y _ hy (by rw [hevent]; simp) hfin⟩
          | none => exact ⟨hafter true, fun hne => absurd rfl hne⟩

/-- A clean-up attempts every deletion. -/
theorem wp_cleanupDnsTxtChallenges {cs : List Challenge} :
    (cleanupDnsTxtChallenges U zoneId cs).wp (leReplies U) Q
      (fun _ s' => s.Frame s' ∧ (∀ r ∈ s'.outstanding, r ∈ s.outstanding) ∧
        (Within U s zoneId cs → s'.outstanding = [])) s := by
  induction cs generalizing s with
  | nil => exact ⟨.refl s, fun _ h => h, Within.nil⟩
  | cons c cs ih =>
      unfold cleanupDnsTxtChallenges
      rw [Prog.wp_bind]
      refine Prog.wp_mono wp_deleteDnsTxtChallenge fun r s₁ hdelete => ?_
      refine Prog.wp_mono ih fun r s₂ hrest => ?_
      exact ⟨hdelete.1.1.trans hrest.1, fun r hr => (hdelete.1.2 r (hrest.2.1 r hr)).1,
        fun h => hrest.2.2 (h.deleted hdelete.1)⟩

/-- What deleting challenges leaves. -/
theorem wp_deleteChallenges {cs : List Challenge} (h : Within U s zoneId cs) :
    (deleteChallenges U zoneId cs).prog.wp (leReplies U) Q
      (fun r s' => s.Frame s' ∧ (∀ r ∈ s'.outstanding, r ∈ s.outstanding) ∧
        (r = .ok () → s'.outstanding = []) ∧
        (LastRaises Q → s.finalized = true → s'.outstanding = [])) s := by
  induction cs generalizing s with
  | nil => exact ⟨.refl s, fun _ h => h, fun _ => h.nil, fun _ _ => h.nil⟩
  | cons c cs ih =>
      unfold deleteChallenges
      rw [Code.wp_bind]
      refine Prog.wp_mono wp_deleteDnsTxtChallenge fun r s₁ hdelete => ?_
      obtain ⟨hdeleted, hraise⟩ := hdelete
      have hsub : ∀ r ∈ s₁.outstanding, r ∈ s.outstanding := fun r hr => (hdeleted.2 r hr).1
      cases r with
      | ok u =>
          refine Prog.wp_mono (ih (h.deleted hdeleted)) fun r s₂ hrest => ?_
          obtain ⟨hframe', hsub', hok, hlast⟩ := hrest
          exact ⟨hdeleted.1.trans hframe', fun r hr => hsub r (hsub' r hr), hok,
            fun hQ hfin => hlast hQ (hdeleted.1.finalized.trans hfin)⟩
      | error exc =>
          exact ⟨hdeleted.1, hsub, by simp, hraise (by simp)⟩

/-! ## publications -/

/-- In a start a call of the provider, or the event of one, that raises
another exception than a `LetsEncryptError` leaves nothing. -/
structure StartCond (Q : LeTurn → LeOp → LeState → Prop) : Prop where
  create : ∀ x zone name value s takesEffect exc, Q x (.createTxt zone name value) s →
    x.raised = some (takesEffect, exc) →
      takesEffect = false ∧ (exc.isLetsEncryptError = true ∨ s.outstanding = [])
  get : ∀ x zone name s takesEffect exc, Q x (.getTxt zone name) s →
    x.raised = some (takesEffect, exc) → exc.isLetsEncryptError = true ∨ s.outstanding = []
  created : ∀ x s, Q x (.audit .recordCreated) s → x.raised = none
  lookup : ∀ x s takesEffect exc, Q x (.audit .recordLookup) s →
    x.raised = some (takesEffect, exc) → exc.isLetsEncryptError = true ∨ s.outstanding = []

/-- A created record is within its challenge. -/
theorem within_create {c : Challenge} {cs : List Challenge} {dnsZone : Str}
    (hzone : s.zones zoneId = some dnsZone) (h : Within U s zoneId cs) :
    Within U (s.create U ⟨zoneId, dnsZone⟩ (relativeAcmeName U c.domain dnsZone) c.dnsValue) zoneId
      (cs ++ [c]) := by
  intro r hr
  rcases List.mem_cons.mp hr with rfl | hr
  · exact ⟨hzone, rfl, c, by simp, rfl⟩
  · obtain ⟨hsome, hid, c', hc', hname⟩ := h r hr
    exact ⟨hsome, hid, c', by simp [hc'], hname⟩

/-- A challenge that is published, or whose publication raises. -/
theorem wp_createDnsTxtChallenge_within {c : Challenge} {cs : List Challenge}
    (h : Within U s zoneId cs) :
    (createDnsTxtChallenge U zoneId c).prog.wp (leReplies U) Q
      (fun r s' => s.Frame s' ∧ Within U s' zoneId (cs ++ [c]) ∧
        (StartCond Q → ∀ exc, r = .error exc → Within U s' zoneId cs ∧
          (exc.isLetsEncryptError = true ∨ s'.outstanding = []))) s := by
  have happend : Within U s zoneId (cs ++ [c]) := h.mono rfl (fun _ h => h) (by simp +contextual)
  unfold createDnsTxtChallenge
  rw [Code.wp_bind, wp_ask]
  intro _ _
  dsimp only [leReplies]
  cases hzone : s.zones zoneId with
  | none =>
      refine ⟨.refl s, happend, fun _ exc hexc => ⟨h, .inl ?_⟩⟩
      rw [← Except.error.inj hexc]
      rfl
  | some dnsZone =>
      rw [Option.map_some]
      dsimp only
      rw [Code.wp_bind, wp_ask]
      intro x hx
      dsimp only [leReplies]
      cases hraised : x.raised with
      | none =>
          intro y hy
          refine ⟨?_, ?_, fun hQ exc hexc => ?_⟩
          · dsimp only [leReplies]
            cases y.raised <;> exact ⟨rfl, rfl, rfl⟩
          · dsimp only [leReplies]
            cases y.raised <;> exact within_create hzone h
          · rw [leReplies, hQ.created y _ hy] at hexc
            cases hexc
      | some raised =>
          obtain ⟨takesEffect, exc⟩ := raised
          refine ⟨?_, ?_, fun hQ exc' hexc => ?_⟩
          · cases takesEffect <;> exact ⟨rfl, rfl, rfl⟩
          · cases takesEffect
            · exact happend
            · exact within_create hzone h
          · obtain ⟨heffect, hout⟩ := hQ.create x _ _ _ s takesEffect exc hx hraised
            rw [heffect, ← Except.error.inj hexc]
            exact ⟨h, hout⟩

/-- Looking for a record leaves the records alone. -/
theorem wp_verifyAttempts_within {async : Bool} {zone : LeZone} {name value : Str} {n : Nat} :
    (verifyAttempts async zone name value n).prog.wp (leReplies U) Q
      (fun r s' => s.Frame s' ∧ s'.outstanding = s.outstanding ∧
        (StartCond Q → ∀ exc, r = .error exc →
          exc.isLetsEncryptError = true ∨ s'.outstanding = [])) s := by
  induction n generalizing s with
  | zero =>
      refine ⟨.refl s, rfl, fun _ exc hexc => .inl ?_⟩
      rw [← Except.error.inj hexc]
      rfl
  | succ n ih =>
      unfold verifyAttempts
      rw [Code.wp_bind]
      refine Prog.wp_mono wp_reportPhase fun r s₁ h => ?_
      obtain ⟨rfl, progress, rfl⟩ := h
      dsimp only
      rw [Code.wp_bind, wp_ask]
      intro x hx
      dsimp only [leReplies]
      cases hraised : x.raised with
      | some raised =>
          refine ⟨⟨rfl, rfl, rfl⟩, rfl, fun hQ exc hexc => ?_⟩
          rw [← Except.error.inj hexc]
          exact hQ.get x _ _ _ raised.1 raised.2 hx hraised
      | none =>
          dsimp only
          rw [Code.wp_bind, wp_ask]
          intro y hy
          dsimp only [leReplies]
          cases hevent : y.raised with
          | some raised =>
              refine ⟨⟨rfl, rfl, rfl⟩, rfl, fun hQ exc hexc => ?_⟩
              rw [← Except.error.inj hexc]
              exact hQ.lookup y _ raised.1 raised.2 hy hevent
          | none =>
              dsimp only
              split
              · exact ⟨⟨rfl, rfl, rfl⟩, rfl, fun _ exc hexc => by cases hexc⟩
              · refine Prog.wp_mono ih fun r s₂ hrest => ?_
                exact ⟨⟨hrest.1.zones, hrest.1.enrollment, hrest.1.finalized⟩, hrest.2⟩

/-- So does verifying a challenge. -/
theorem wp_verifyDnsTxtChallenge_within {async : Bool} {total : Nat} {c : Challenge} :
    (verifyDnsTxtChallenge U async zoneId total c).prog.wp (leReplies U) Q
      (fun r s' => s.Frame s' ∧ s'.outstanding = s.outstanding ∧
        (StartCond Q → ∀ exc, r = .error exc →
          exc.isLetsEncryptError = true ∨ s'.outstanding = [])) s := by
  unfold verifyDnsTxtChallenge
  rw [Code.wp_bind, wp_ask]
  intro _ _
  dsimp only [leReplies]
  cases s.zones zoneId with
  | none =>
      refine ⟨.refl s, rfl, fun _ exc hexc => .inl ?_⟩
      rw [← Except.error.inj hexc]
      rfl
  | some dnsZone => exact wp_verifyAttempts_within

/-- The records of an order are its challenges; when a start's publication of
them raises, they are those to be taken back, or there are none. -/
theorem wp_provisionChallenges_within {async : Bool} {total : Nat} {cs provisioned : List Challenge}
    (h : Within U s zoneId provisioned) :
    (provisionChallenges U async zoneId total cs provisioned).wp (leReplies U) Q
      (fun r s' => s.Frame s' ∧ Within U s' zoneId (provisioned ++ cs) ∧
        (StartCond Q → ∀ exc, r.1 = .error exc → Within U s' zoneId r.2 ∧
          (exc.isLetsEncryptError = true ∨ s'.outstanding = []))) s := by
  induction cs generalizing provisioned s with
  | nil => exact ⟨.refl s, by rwa [List.append_nil], fun _ exc hexc => by cases hexc⟩
  | cons c rest ih =>
      have hmore : ∀ {s' : LeState}, Within U s' zoneId (provisioned ++ [c]) →
          Within U s' zoneId (provisioned ++ c :: rest) := fun h =>
        h.mono rfl (fun _ h => h) (by simp +contextual [or_imp])
      unfold provisionChallenges
      rw [Prog.wp_bind]
      refine Prog.wp_mono (wp_createDnsTxtChallenge_within h) fun r s₁ hcreated => ?_
      obtain ⟨hframe, hwithin, herror⟩ := hcreated
      cases r with
      | error exc =>
          refine ⟨hframe, hmore hwithin, fun hQ exc' hexc => ?_⟩
          rw [← Except.error.inj hexc]
          exact herror hQ exc rfl
      | ok u =>
          dsimp only
          rw [Prog.wp_bind]
          refine Prog.wp_mono wp_verifyDnsTxtChallenge_within fun r s₂ hverified => ?_
          obtain ⟨hframe', hsame, herror'⟩ := hverified
          have hwithin' : Within U s₂ zoneId (provisioned ++ [c]) :=
            hwithin.mono hframe'.zones (fun r hr => hsame ▸ hr) fun _ h => h
          cases r with
          | error exc =>
              refine ⟨hframe.trans hframe', hmore hwithin', fun hQ exc' hexc => ⟨hwithin', ?_⟩⟩
              rw [← Except.error.inj hexc]
              exact herror' hQ exc rfl
          | ok u =>
              refine Prog.wp_mono (ih hwithin') fun r s₃ hrest => ?_
              obtain ⟨hframe'', hwithin'', herror''⟩ := hrest
              refine ⟨(hframe.trans hframe').trans hframe'', ?_, herror''⟩
              rwa [List.append_assoc] at hwithin''

/-! ## enrollments -/

/-- The challenges of an order are published from a state without records:
what there is of them, unless nothing is. -/
theorem wp_attachDnsChallenges_within {async : Bool} {order : Order} (h : s.outstanding = []) :
    (attachDnsChallenges U async zoneId order).wp (leReplies U) Q
      (fun r s' => s.Frame s' ∧ Within U s' zoneId order.challenges ∧
        (StartCond Q → ∀ exc, r = .error exc → s'.outstanding = [])) s := by
  unfold attachDnsChallenges
  rw [Prog.wp_bind]
  refine Prog.wp_mono wp_reportPhase fun r s₁ hreport => ?_
  obtain ⟨rfl, progress, rfl⟩ := hreport
  dsimp only
  rw [Prog.wp_bind]
  refine Prog.wp_mono (wp_provisionChallenges_within (within_of_nil h [])) fun r s₂ hprovisioned => ?_
  obtain ⟨hframe, hwithin, herror⟩ := hprovisioned
  obtain ⟨result, provisioned⟩ := r
  have hframe' : s.Frame s₂ := ⟨hframe.zones, hframe.enrollment, hframe.finalized⟩
  cases result with
  | ok u => exact ⟨hframe', hwithin, fun _ exc hexc => by cases hexc⟩
  | error exc =>
      cases exc with
      | letsEncryptError msg =>
          dsimp only
          rw [Prog.wp_bind]
          refine Prog.wp_mono wp_cleanupDnsTxtChallenges fun r s₃ hclean => ?_
          obtain ⟨hframe'', hsub, hnil⟩ := hclean
          exact ⟨hframe'.trans hframe'', hwithin.mono hframe''.zones hsub fun _ h => h,
            fun hQ _ _ => hnil (herror hQ _ rfl).1⟩
      | other msg =>
          refine ⟨hframe', hwithin, fun hQ exc' _ => ?_⟩
          rcases (herror hQ _ rfl).2 with hle | hout
          · cases hle
          · exact hout

/-- The records to be deleted are challenges of the enrollment in its zone
configuration. -/
def WithinEnrollment (U : Ucd) (s : LeState) (config : LeConfig) (order : Order) : Prop :=
  s.outstanding = [] ∨ ∃ zoneId, config.zoneId = some zoneId ∧ Within U s zoneId order.challenges

/-- The records of an enrollment depend on zones and records only. -/
theorem WithinEnrollment.congr {s' : LeState} {config : LeConfig} {order : Order}
    (h : WithinEnrollment U s config order) (hzones : s'.zones = s.zones)
    (hout : s'.outstanding = s.outstanding) : WithinEnrollment U s' config order := by
  rcases h with hnil | ⟨zoneId, hid, hwithin⟩
  · exact .inl (hout.trans hnil)
  · exact .inr ⟨zoneId, hid, hwithin.mono hzones (fun r hr => hout ▸ hr) fun _ h => h⟩

/-- The records to be deleted are those of the stored enrollment. -/
def Accounted (U : Ucd) (s : LeState) : Prop :=
  s.outstanding = [] ∨ ∃ e, s.enrollment = some e ∧ WithinEnrollment U s e.config e.order

/-- Being accounted for depends on zones, enrollment and records only. -/
theorem Accounted.congr {s' : LeState} (h : Accounted U s) (hzones : s'.zones = s.zones)
    (henrollment : s'.enrollment = s.enrollment) (hout : s'.outstanding = s.outstanding) :
    Accounted U s' := by
  rcases h with hnil | ⟨e, he, hwithin⟩
  · exact .inl (hout.trans hnil)
  · exact .inr ⟨e, henrollment.trans he, hwithin.congr hzones hout⟩

/-- What is accounted for is within the enrollment. -/
theorem Accounted.withinEnrollment (h : Accounted U s) {e : Enrollment}
    (he : s.enrollment = some e) : WithinEnrollment U s e.config e.order := by
  rcases h with hnil | ⟨e', he', hwithin⟩
  · exact .inl hnil
  · rw [he, Option.some.injEq] at he'
    rwa [he']

/-- What is accounted for is no orphan. -/
theorem Accounted.noOrphans (h : Accounted U s) : NoOrphans U s := by
  intro r hr
  rcases h with hnil | ⟨e, he, hnil | ⟨zoneId, hid, hwithin⟩⟩
  · rw [hnil] at hr
    cases hr
  · rw [hnil] at hr
    cases hr
  · obtain ⟨-, rfl, c, hc, hname⟩ := hwithin r hr
    exact ⟨e, he, hid, c, hc, hname⟩

/-- What attaching challenges leaves. -/
theorem wp_attachChallengesToEnrollment {async automatedOnly : Bool} {config : LeConfig}
    {order : Order} (h : s.outstanding = []) :
    (attachChallengesToEnrollment U async automatedOnly config order).prog.wp (leReplies U) Q
      (fun r s' => s.Frame s' ∧ WithinEnrollment U s' config order ∧
        (StartCond Q → ∀ exc, r = .error exc → s'.outstanding = [])) s := by
  unfold attachChallengesToEnrollment
  cases hid : config.zoneId with
  | none =>
      cases config.challengeType <;> cases automatedOnly <;>
        exact ⟨.refl s, .inl h, fun _ _ _ => h⟩
  | some zoneId =>
      cases config.challengeType with
      | http01 => cases automatedOnly <;> exact ⟨.refl s, .inl h, fun _ _ _ => h⟩
      | dns01 =>
          refine Prog.wp_mono (wp_attachDnsChallenges_within h) fun r s₁ hattach => ?_
          exact ⟨hattach.1, .inr ⟨zoneId, hid, hattach.2.1⟩, hattach.2.2⟩

/-- An order leaves the records alone. -/
theorem wp_acmePrepareOrder {config : LeConfig} :
    (acmePrepareOrder config).prog.wp (leReplies U) Q
      (fun r s' => match r with
        | .ok _ => s' = { s with finalized := false } ∧
            ∃ x, Q x (.newOrder config) s ∧ x.raised = none
        | .error _ => s' = s) s := by
  unfold acmePrepareOrder
  rw [Code.wp_tryCatch, wp_ask]
  intro x hx
  dsimp only [leReplies]
  cases hraised : x.raised with
  | some raised => rfl
  | none => exact ⟨rfl, x, hx, hraised⟩

/-- So does finalizing it. -/
theorem wp_acmeFinalizeOrder {e : Enrollment} :
    (acmeFinalizeOrder e).prog.wp (leReplies U) Q
      (fun r s' => match r with
        | .ok _ => s' = { s with finalized := true }
        | .error _ => s' = s) s := by
  unfold acmeFinalizeOrder
  rw [Code.wp_tryCatch, wp_ask]
  intro x _
  dsimp only [leReplies]
  cases x.raised with
  | some raised => rfl
  | none => rfl

/-- So does installing the certificate. -/
theorem wp_installCert :
    (LeOp.ask .installCert).prog.wp (leReplies U) Q (fun _ s' => s' = s) s := by
  rw [wp_ask]
  intro x _
  dsimp only [leReplies]
  cases x.raised <;> rfl

/-- What deleting the challenges of an enrollment leaves. -/
theorem wp_deleteEnrollmentChallenges {e : Enrollment} (h : WithinEnrollment U s e.config e.order) :
    (deleteEnrollmentChallenges U e).prog.wp (leReplies U) Q
      (fun r s' => s.Frame s' ∧ (∀ r ∈ s'.outstanding, r ∈ s.outstanding) ∧
        (r = .ok () → s'.outstanding = []) ∧
        (LastRaises Q → s.finalized = true → s'.outstanding = [])) s := by
  unfold deleteEnrollmentChallenges
  cases hid : e.config.zoneId with
  | none =>
      have hnil : s.outstanding = [] := by
        rcases h with hnil | ⟨zoneId, hsome, -⟩
        · exact hnil
        · rw [hid] at hsome
          cases hsome
      exact ⟨.refl s, fun _ h => h, fun _ => hnil, fun _ _ => hnil⟩
  | some zoneId =>
      refine wp_deleteChallenges ?_
      rcases h with hnil | ⟨zoneId', hsome, hwithin⟩
      · exact within_of_nil hnil _
      · rw [hid, Option.some.injEq] at hsome
        rwa [hsome]

/-- A continuation leaves to the stored enrollment what it has not deleted, as
long as only the last deletion raises. -/
theorem wp_continueEnrollment {async : Bool} (hQ : LastRaises Q) (h : Accounted U s) :
    (continueEnrollment U async).prog.wp (leReplies U) Q (fun _ => Accounted U) s := by
  unfold continueEnrollment
  rw [Code.wp_bind, wp_ask]
  intro _ _
  dsimp only [leReplies]
  cases he : s.enrollment with
  | none => exact h
  | some e =>
      dsimp only
      rw [Code.wp_bind]
      refine Prog.wp_mono wp_reportPhase fun r s₁ hreport => ?_
      obtain ⟨rfl, progress, rfl⟩ := hreport
      dsimp only
      rw [Code.wp_bind]
      refine Prog.wp_mono wp_acmeFinalizeOrder fun r s₂ hfinal => ?_
      cases r with
      | error exc =>
          rw [show s₂ = _ from hfinal]
          exact h.congr rfl rfl rfl
      | ok u =>
          rw [show s₂ = _ from hfinal]
          dsimp only
          rw [Code.wp_bind]
          refine Prog.wp_mono wp_reportPhase fun r s₃ hreport => ?_
          obtain ⟨rfl, progress', rfl⟩ := hreport
          dsimp only
          rw [Code.wp_bind]
          refine Prog.wp_mono wp_installCert fun r s₄ hinstall => ?_
          rw [hinstall]
          cases r with
          | error exc => exact h.congr rfl rfl rfl
          | ok u =>
              dsimp only
              rw [Code.wp_bind, wp_ask]
              intro _ _
              dsimp only [leReplies]
              rw [Code.wp_bind, wp_ask]
              intro _ _
              dsimp only [leReplies]
              rw [Code.wp_bind]
              refine Prog.wp_mono (wp_deleteEnrollmentChallenges
                ((h.withinEnrollment he).congr rfl rfl)) fun r s₅ hdelete => ?_
              have hnil : s₅.outstanding = [] := hdelete.2.2.2 hQ rfl
              cases r <;> exact .inl hnil

/-- What the world does when an order is asked for, in a start or a renewal. -/
def OrdersClean (Q : LeTurn → LeOp → LeState → Prop) : Prop :=
  ∀ x config s, Q x (.newOrder config) s → x.raised = none → s.outstanding = []

/-- What attaching leaves, or clearing after a failure. -/
theorem wp_attachOrClear {async : Bool} {config : LeConfig} {order : Order} (hQ : StartCond Q)
    (h : s.outstanding = []) :
    (attachOrClear U async config order).prog.wp (leReplies U) Q
      (fun r s' => match r with
        | .ok _ => WithinEnrollment U s' config order
        | .error _ => s'.outstanding = []) s := by
  unfold attachOrClear
  rw [Code.wp_tryCatch]
  refine Prog.wp_mono (wp_attachChallengesToEnrollment h) fun r s₁ hattach => ?_
  obtain ⟨-, hwithin, herror⟩ := hattach
  cases r with
  | ok status => exact hwithin
  | error exc =>
      have hnil : s₁.outstanding = [] := herror hQ exc rfl
      cases exc with
      | other msg => exact hnil
      | letsEncryptError msg => exact fun _ _ => hnil

/-- A start leaves the records accounted for. -/
theorem wp_startEnrollment {async : Bool} {config : LeConfig} (horder : OrdersClean Q)
    (hstart : StartCond Q) (hlast : LastRaises Q) (h : Accounted U s) :
    (startEnrollment U async config).prog.wp (leReplies U) Q (fun _ => Accounted U) s := by
  unfold startEnrollment
  rw [Code.wp_bind]
  refine Prog.wp_mono wp_reportPhase fun r s₁ hreport => ?_
  obtain ⟨rfl, progress, rfl⟩ := hreport
  dsimp only
  rw [Code.wp_bind, wp_ask]
  intro x _
  dsimp only [leReplies]
  cases x.raised with
  | some raised => exact h.congr rfl rfl rfl
  | none =>
      dsimp only
      rw [Code.wp_bind]
      refine Prog.wp_mono wp_reportPhase fun r s₂ hreport => ?_
      obtain ⟨rfl, progress', rfl⟩ := hreport
      dsimp only
      rw [Code.wp_bind]
      refine Prog.wp_mono wp_acmePrepareOrder fun r s₃ hprepare => ?_
      cases r with
      | error exc =>
          rw [show s₃ = _ from hprepare]
          exact h.congr rfl rfl rfl
      | ok order =>
          obtain ⟨rfl, y, hy, hraised⟩ := hprepare
          have hnil := horder y config _ hy hraised
          dsimp only
          rw [Code.wp_bind]
          refine Prog.wp_mono (wp_attachOrClear hstart hnil) fun r s₄ hattach => ?_
          cases r with
          | error exc => exact .inl hattach
          | ok status =>
              dsimp only
              rw [Code.wp_bind, wp_ask]
              intro _ _
              dsimp only [leReplies]
              have hstored : Accounted U { s₄ with enrollment := some ⟨status, config, order⟩ } :=
                .inr ⟨_, rfl, WithinEnrollment.congr hattach rfl rfl⟩
              split
              · exact wp_continueEnrollment hlast hstored
              · exact hstored

/-- A cancellation leaves the records accounted for. -/
theorem wp_cancelEnrollment (h : Accounted U s) :
    (cancelEnrollment U).prog.wp (leReplies U) Q
      (fun r s' => s'.zones = s.zones ∧ Accounted U s' ∧ (r = .ok () → s'.outstanding = [])) s := by
  unfold cancelEnrollment
  rw [Code.wp_bind, wp_ask]
  intro _ _
  dsimp only [leReplies]
  cases he : s.enrollment with
  | none =>
      have hnil : s.outstanding = [] := by
        rcases h with hnil | ⟨e, hsome, -⟩
        · exact hnil
        · rw [he] at hsome
          cases hsome
      exact fun _ _ => ⟨rfl, .inl hnil, fun _ => hnil⟩
  | some e =>
      dsimp only
      rw [Code.wp_bind]
      have hwithin := h.withinEnrollment he
      refine Prog.wp_mono (wp_deleteEnrollmentChallenges hwithin) fun r s₁ hdelete => ?_
      obtain ⟨hframe, hsub, hok, -⟩ := hdelete
      cases r with
      | error exc =>
          refine ⟨hframe.zones, .inr ⟨e, hframe.enrollment.trans he, ?_⟩, by simp⟩
          rcases hwithin with hnil | ⟨zoneId, hid, hwithin⟩
          · refine .inl (List.eq_nil_iff_forall_not_mem.mpr fun r hr => ?_)
            simpa [hnil] using hsub r hr
          · exact .inr ⟨zoneId, hid, hwithin.mono hframe.zones hsub fun _ h => h⟩
      | ok u => exact fun _ _ => ⟨hframe.zones, .inl (hok rfl), fun _ => hok rfl⟩

/-- A renewal leaves the records within its order. -/
theorem wp_renewCertificate {config : LeConfig} {order : Order} (h : s.outstanding = []) :
    (renewCertificate U config order).prog.wp (leReplies U) Q
      (fun _ s' => WithinEnrollment U s' config order) s := by
  unfold renewCertificate
  rw [Code.wp_bind]
  refine Prog.wp_mono (wp_attachChallengesToEnrollment h) fun r s₁ hattach => ?_
  obtain ⟨-, hwithin, -⟩ := hattach
  cases r with
  | error exc => exact hwithin
  | ok status =>
      dsimp only
      rw [Code.wp_bind, wp_ask]
      intro _ _
      dsimp only [leReplies]
      rw [Code.wp_bind]
      refine Prog.wp_mono wp_acmeFinalizeOrder fun r s₂ hfinal => ?_
      cases r with
      | error exc =>
          rw [show s₂ = _ from hfinal]
          exact hwithin.congr rfl rfl
      | ok u =>
          rw [show s₂ = _ from hfinal]
          dsimp only
          rw [Code.wp_bind]
          refine Prog.wp_mono wp_installCert fun r s₃ hinstall => ?_
          rw [hinstall]
          cases r <;> exact hwithin.congr rfl rfl

/-- A renewal cleans up after itself, whatever has been raised. -/
theorem wp_renewDueCertificate {config : LeConfig} (horder : OrdersClean Q) (h : Accounted U s) :
    (renewDueCertificate U config).prog.wp (leReplies U) Q (fun _ => Accounted U) s := by
  unfold renewDueCertificate
  rw [Code.wp_bind]
  refine Prog.wp_mono wp_acmePrepareOrder fun r s₁ hprepare => ?_
  cases r with
  | error exc =>
      rw [show s₁ = _ from hprepare]
      exact h
  | ok order =>
      obtain ⟨rfl, y, hy, hraised⟩ := hprepare
      have hnil : s.outstanding = [] := horder y config _ hy hraised
      show Prog.wp _ _ (_ >>= _) _ _
      rw [Prog.wp_bind]
      refine Prog.wp_mono (wp_renewCertificate hnil) fun r s₂ hrenewed => ?_
      rw [Prog.wp_bind]
      have hclean : (cleanupEnrollmentChallenges U config order).wp (leReplies U) Q
          (fun _ s' => s'.outstanding = []) s₂ := by
        unfold cleanupEnrollmentChallenges
        rcases hrenewed with hnil | ⟨zoneId, hid, hwithin⟩
        · cases config.zoneId with
          | none => exact hnil
          | some zoneId =>
              exact Prog.wp_mono wp_cleanupDnsTxtChallenges fun _ _ h =>
                h.2.2 (within_of_nil hnil _)
        · rw [hid]
          exact Prog.wp_mono wp_cleanupDnsTxtChallenges fun _ _ h => h.2.2 hwithin
      refine Prog.wp_mono hclean fun _ s₃ hnil => ?_
      rw [Prog.wp_bind]
      exact fun _ _ => .inl hnil

/-- The renewal check leaves the records accounted for. -/
theorem wp_maybeRenewCertificate (horder : OrdersClean Q) (h : Accounted U s) :
    (maybeRenewCertificate U).prog.wp (leReplies U) Q (fun _ => Accounted U) s := by
  unfold maybeRenewCertificate
  rw [Code.wp_bind, wp_ask]
  intro _ _
  dsimp only [leReplies]
  rw [Code.wp_bind, wp_ask]
  intro _ _
  dsimp only [leReplies]
  cases s.config with
  | none => exact h
  | some config =>
      dsimp only
      split
      · rw [Code.wp_bind]
        refine Prog.wp_mono (wp_renewDueCertificate horder h) fun r s₁ hrenewed => ?_
        cases r <;> exact hrenewed
      · exact h

/-- The deletion of a zone configuration deletes the records of an enrollment
with it first. -/
theorem wp_zoneDelete (h : Accounted U s) :
    (zoneDelete U zoneId).prog.wp (leReplies U) Q (fun _ => Accounted U) s := by
  unfold zoneDelete
  rw [Code.wp_bind, wp_ask]
  intro _ _
  dsimp only [leReplies]
  cases hrow : s.zones zoneId with
  | none => exact h
  | some dnsZone =>
      rw [Option.map_some]
      dsimp only
      rw [Code.wp_bind]
      have hdetach : (detachDnsZoneFromLetsencrypt U zoneId).prog.wp (leReplies U) Q
          (fun r s' => Accounted U s' ∧
            (r = .ok () → ∀ r ∈ s'.outstanding, r.1.id ≠ zoneId)) s := by
        unfold detachDnsZoneFromLetsencrypt
        rw [Code.wp_bind, wp_ask]
        intro _ _
        dsimp only [leReplies]
        rw [Code.wp_bind, wp_ask]
        intro _ _
        dsimp only [leReplies]
        rw [Code.wp_bind]
        have hcancel : (cancelWithZone U zoneId s.enrollment).prog.wp (leReplies U) Q
            (fun r s' => Accounted U s' ∧
              (r = .ok () → ∀ r ∈ s'.outstanding, r.1.id ≠ zoneId)) s := by
          unfold cancelWithZone
          split
          · refine Prog.wp_mono (wp_cancelEnrollment h) fun r s₁ hcancelled => ?_
            refine ⟨hcancelled.2.1, fun hok r hr => ?_⟩
            rw [hcancelled.2.2 hok] at hr
            cases hr
          · next hother =>
              refine ⟨h, fun _ r hr hid => hother ?_⟩
              obtain ⟨e, he, hlists⟩ := h.noOrphans r hr
              rw [he, Option.bind_some, hlists.1, hid]
        refine Prog.wp_mono hcancel fun r s₁ hcancelled => ?_
        cases r with
        | error exc => exact ⟨hcancelled.1, by simp⟩
        | ok u =>
            dsimp only
            split
            · exact ⟨hcancelled.1, fun _ => hcancelled.2 rfl⟩
            · exact fun _ _ => ⟨hcancelled.1.congr rfl rfl rfl, fun _ => hcancelled.2 rfl⟩
      refine Prog.wp_mono hdetach fun r s₁ hdetached => ?_
      cases r with
      | error exc => exact hdetached.1
      | ok u =>
          intro _ _
          have hne := hdetached.2 rfl
          rcases hdetached.1 with hnil | ⟨e, he, hnil | ⟨id, hid, hwithin⟩⟩
          · exact .inl hnil
          · exact .inl hnil
          · refine .inr ⟨e, he, .inr ⟨id, hid, fun r hr => ?_⟩⟩
            obtain ⟨hsome, rfl, hname⟩ := hwithin r hr
            refine ⟨?_, rfl, hname⟩
            show Function.update s₁.zones zoneId none r.1.id = _
            rw [Function.update_of_ne (hne r hr), hsome]

/-- So does a request to its end. -/
theorem wp_endWith {α : Type} {c : LeCode α}
    (h : c.prog.wp (leReplies U) Q (fun _ => Accounted U) s) :
    (endWith c).wp (leReplies U) Q (fun _ => Accounted U) s := by
  unfold endWith
  rw [Prog.wp_bind]
  refine Prog.wp_mono h fun _ s₁ hs₁ => ?_
  rw [Prog.wp_bind]
  exact fun _ _ => hs₁

/-- So does the request that starts a worker. -/
theorem wp_settingsLetsencryptStartAsync {config : LeConfig} (horder : OrdersClean Q)
    (hstart : StartCond Q) (hlast : LastRaises Q) (h : Accounted U s) :
    (settingsLetsencryptStartAsync U config).prog.wp (leReplies U) Q (fun _ => Accounted U) s := by
  have hworker : ∀ s, Accounted U s →
      (runLeAutoEnrollment U config).prog.wp (leReplies U) Q (fun _ => Accounted U) s := by
    intro s h
    show Prog.wp _ _ (_ >>= _) _ _
    rw [Prog.wp_bind]
    have hsync : (runLeAutoEnrollmentSync U config).prog.wp (leReplies U) Q
        (fun _ => Accounted U) s := by
      unfold runLeAutoEnrollmentSync
      rw [Code.wp_tryCatch, Code.wp_bind]
      refine Prog.wp_mono (wp_startEnrollment horder hstart hlast h) fun r s₁ hs₁ => ?_
      cases r with
      | error exc => exact fun _ _ => hs₁.congr rfl rfl rfl
      | ok status =>
          intro x _
          dsimp only [leReplies]
          cases x.raised <;> exact fun _ _ => hs₁.congr rfl rfl rfl
    refine Prog.wp_mono hsync fun _ s₁ hs₁ => ?_
    unfold markEnrollmentWorkerFinished
    rw [Code.wp_bind, wp_ask]
    intro _ _
    dsimp only [leReplies]
    split
    · exact fun _ _ => hs₁.congr rfl rfl rfl
    · exact hs₁
  unfold settingsLetsencryptStartAsync
  rw [Code.wp_bind, wp_ask]
  intro _ _
  dsimp only [leReplies]
  cases enrollmentIsRunning s.progress with
  | true =>
      intro x _
      dsimp only [leReplies]
      cases x.raised <;> exact h
  | false =>
      intro x _
      dsimp only [leReplies]
      cases x.raised with
      | some raised => exact h.congr rfl rfl rfl
      | none => exact hworker _ (h.congr rfl rfl rfl)

/-! ## runs -/

/-- The condition of a start has orders clean. -/
theorem ordersClean_start (config : LeConfig) : OrdersClean (LeRequest.start config).cond := by
  intro x _ s h hraised
  simpa [LeRequest.cond, hraised] using h

/-- The condition of a start covers its failures. -/
theorem startCond_start (config : LeConfig) : StartCond (LeRequest.start config).cond where
  create x zone name value s takesEffect exc h hraised := by
    simpa [LeRequest.cond, hraised] using h
  get x zone name s takesEffect exc h hraised := by
    simpa [LeRequest.cond, hraised] using h
  created x s h := by
    cases hraised : x.raised with
    | none => rfl
    | some raised => simp [LeRequest.cond, hraised] at h
  lookup x s takesEffect exc h hraised := by
    simpa [LeRequest.cond, hraised] using h

/-- The condition of a continuation covers the last deletion. -/
theorem lastRaises_continue : LastRaises LeRequest.continue_.cond where
  delete x zone name s h hraised hfin := by
    obtain ⟨raised, hraised⟩ := Option.ne_none_iff_exists'.mp hraised
    simp only [LeRequest.cond, hraised] at h
    exact h hfin
  audit x s h hraised hfin := by
    obtain ⟨raised, hraised⟩ := Option.ne_none_iff_exists'.mp hraised
    simp only [LeRequest.cond, hraised] at h
    exact h hfin

/-- So does the condition of a start. -/
theorem lastRaises_start (config : LeConfig) : LastRaises (LeRequest.start config).cond where
  delete x zone name s h hraised hfin := by
    obtain ⟨raised, hraised⟩ := Option.ne_none_iff_exists'.mp hraised
    simp only [LeRequest.cond, hraised] at h
    exact h hfin
  audit x s h hraised hfin := by
    obtain ⟨raised, hraised⟩ := Option.ne_none_iff_exists'.mp hraised
    simp only [LeRequest.cond, hraised] at h
    exact h hfin

/-- The condition of a renewal has orders clean. -/
theorem ordersClean_renew : OrdersClean LeRequest.renew.cond := by
  intro x _ s h hraised
  simpa [LeRequest.cond, hraised] using h

/-- An operation leaves to the stored enrollment what it has not deleted. -/
theorem wp_request (req : LeRequest) (h : Accounted U s) :
    (req.prog U).wp (leReplies U) req.cond (fun _ => Accounted U) s := by
  cases req with
  | start config =>
      exact wp_endWith (wp_startEnrollment (ordersClean_start config) (startCond_start config)
        (lastRaises_start config) h)
  | startAsync config =>
      -- the condition of a start
      exact wp_endWith (wp_settingsLetsencryptStartAsync (ordersClean_start config)
        (startCond_start config) (lastRaises_start config) h)
  | continue_ => exact wp_endWith (wp_continueEnrollment lastRaises_continue h)
  | cancel => exact wp_endWith (Prog.wp_mono (wp_cancelEnrollment h) fun _ _ h => h.2.1)
  | renew => exact wp_endWith (wp_maybeRenewCertificate ordersClean_renew h)
  | zoneDelete zoneId => exact wp_endWith (wp_zoneDelete h)

/-- One operation after the other, each to its end; none if a script does not
fit its operation. -/
def runRequests (U : Ucd) : List (LeRequest × List LeTurn) → LeState → Option LeState
  | [], s => some s
  | (req, script) :: rest, s =>
      ((req.prog U).exec (leReplies U) script s).bind fun end_ => runRequests U rest end_.2

/-- Every operation meets its condition. -/
def MeetRequests (U : Ucd) : List (LeRequest × List LeTurn) → LeState → Prop
  | [], _ => True
  | (req, script) :: rest, s =>
      (req.prog U).Along (leReplies U) req.cond script s ∧
        ∀ end_, (req.prog U).exec (leReplies U) script s = some end_ →
          MeetRequests U rest end_.2

/-- The operations of enrollments leave no record behind, as long as orders
are asked for when there is none, nothing raises in a start once there is one,
and no deletion of an issued certificate's records raises but the last. -/
theorem no_orphans (U : Ucd) (runs : List (LeRequest × List LeTurn)) (s s' : LeState)
    (hs : s.outstanding = []) (hm : MeetRequests U runs s) (hrun : runRequests U runs s = some s') :
    NoOrphans U s' := by
  suffices ∀ s, Accounted U s → MeetRequests U runs s → runRequests U runs s = some s' →
      Accounted U s' from (this s (.inl hs) hm hrun).noOrphans
  clear hs hm hrun
  induction runs with
  | nil =>
      intro s hs _ hrun
      rwa [← Option.some.inj hrun]
  | cons run rest ih =>
      intro s hs hm hrun
      obtain ⟨req, script⟩ := run
      obtain ⟨end_, hexec, hrest⟩ := Option.bind_eq_some_iff.mp hrun
      obtain ⟨u, s₁⟩ := end_
      have hwp : (req.prog U).wp (leReplies U) req.cond (fun _ => Accounted U) s :=
        wp_request req hs
      have hacc := Prog.wp_exec hwp hexec hm.1
      exact ih s₁ hacc (hm.2 _ hexec) hrest

/-! ## a lookup that raises -/

/-- `LeRequest.cond`, as it is computed. -/
def LeRequest.condBool : LeRequest → LeTurn → LeOp → LeState → Bool
  | .start _, x, o, s | .startAsync _, x, o, s =>
      match o, x.raised with
      | .newOrder _, none => decide (s.outstanding = [])
      | .createTxt .., some (takesEffect, exc) =>
          !takesEffect && (exc.isLetsEncryptError || decide (s.outstanding = []))
      | .audit .recordCreated, some _ => false
      | .getTxt .., some (_, exc) | .audit .recordLookup, some (_, exc) =>
          exc.isLetsEncryptError || decide (s.outstanding = [])
      | .deleteTxt zone name, some _ => !s.finalized || s.outstanding.all fun r => r = (zone, name)
      | .audit .recordDeleted, some _ => !s.finalized || decide (s.outstanding = [])
      | _, _ => true
  | .continue_, x, o, s =>
      match o, x.raised with
      | .deleteTxt zone name, some _ => !s.finalized || s.outstanding.all fun r => r = (zone, name)
      | .audit .recordDeleted, some _ => !s.finalized || decide (s.outstanding = [])
      | _, _ => true
  | .renew, x, o, s =>
      match o, x.raised with
      | .newOrder _, none => decide (s.outstanding = [])
      | _, _ => true
  | .cancel, _, _, _ | .zoneDelete _, _, _, _ => true

/-- The condition can be computed. -/
theorem LeRequest.condBool_iff {req : LeRequest} {x : LeTurn} {o : LeOp} {s : LeState} :
    req.condBool x o s = true ↔ req.cond x o s := by
  obtain ⟨raised, _, _, _⟩ := x
  cases o with
  | audit event =>
      cases req <;> cases event <;> rcases raised with _ | ⟨_, _⟩ <;>
        simp [condBool, cond, imp_iff_not_or]
  | _ =>
      cases req <;> rcases raised with _ | ⟨_, _⟩ <;> simp [condBool, cond, imp_iff_not_or]

instance (req : LeRequest) (x : LeTurn) (o : LeOp) (s : LeState) : Decidable (req.cond x o s) :=
  decidable_of_iff _ LeRequest.condBool_iff

/-- A start that gets the order of `www.example.com`, before it publishes its
challenge. -/
def orderScript : List LeTurn := [.quiet, { order := wwwOrder }]

/-- The challenge is read back, the certificate issued and the record
deleted. -/
def issuedScript : List LeTurn := orderScript ++ provisionScript (lit "a") ++ List.replicate 10 .quiet

/-- The lookup of the record raises. -/
def lookupRaisesScript : List LeTurn :=
  orderScript ++ List.replicate 4 .quiet ++
    [{ raised := some (false, .other (lit "timed out")) }, .quiet]


theorem no_orphans_issued :
    ∃ s', runRequests .ascii [(.start acmeConfig, issuedScript)] acmeState = some s' ∧
      NoOrphans .ascii s' :=
  ⟨_, rfl, no_orphans .ascii [(.start acmeConfig, issuedScript)] acmeState _ rfl
    ⟨by decide, fun _ _ => trivial⟩ rfl⟩

/-- The record stands, and no enrollment names it. -/
theorem orphan_of_failed_lookup :
    ∃ s', runRequests .ascii [(.start acmeConfig, lookupRaisesScript)] acmeState = some s' ∧
      s'.enrollment = none ∧ ¬ NoOrphans .ascii s' :=
  ⟨_, rfl, rfl, fun h => by
    obtain ⟨e, he, -⟩ := h (acmeZone, lit "_acme-challenge.www") (by decide)
    cases he⟩

end ApiToDns
