import ApiToDns.RecordMap

/-!
# Serve

What serving a mutating request comes to: it is refused before any lookup,
or it is one lookup followed by at most one write of the same RRset.

`Change.program` is that normal form and `RecordRequest.serve_eq_program` the
theorem; everything proved about runs of the record API works on
`Change.program` and never unfolds `_apply_dns_mutation` again.
-/

namespace ApiToDns

open Py

variable (U : Ucd)

/-! ## the normal form -/

namespace Change

/-- The answer to an exception: PATCH answers the merge error itself. -/
def failure (c : Change) (exc : Exc) : Reply :=
  match c.verb, exc with
  | .patch _ _, .patchMergeError msg => .error ⟨502, .error (lit "dns_provider_failed") msg⟩
  | _, exc => .error (httpExceptionFromDnsError exc)

section

variable (zoneName zone : Str) (server : Json)

/-- The write of an RRset. -/
def payload (c : Change) (ttl : Int) (values : List Str) : DnsRecordRequest :=
  ⟨some zoneName, c.type.text, c.name, some ttl, values⟩

/-- The write that removes the RRset. -/
def deletion (c : Change) : DnsRecordRequest :=
  ⟨some zoneName, deleteType, c.name, some 300, [c.type.text]⟩

/-- The answer to a change that was made. -/
def done (c : Change) (action : Str) (values : List Str) : Reply :=
  (applied action c.name c.type values zone).reply zoneName

/-- The answer to a change that was refused. -/
def declined (c : Change) (httpStatus : Nat) (action : Str) (values : List Str) : Reply :=
  (refused action httpStatus c.name c.type values zone).reply zoneName

/-- Write and answer. -/
def writeThen (c : Change) (write : DnsRecordRequest) (action : Str) (values : List Str) :
    Prog providerSig Reply :=
  .call (.createOrUpdateRecord write server zone) fun written =>
    match written with
    | .ok _ => .ret (c.done zoneName zone action values)
    | .error exc => .ret (c.failure exc)

/-- What follows once the lookup has found these records. -/
def onRecords (c : Change) (records : List DnsRecordInfo) : Prog providerSig Reply :=
  match c.verb, records with
  | .create ttl values, [] =>
      c.writeThen zoneName zone server (c.payload zoneName ttl values) (lit "created") values
  | .create _ values, _ :: _ =>
      .ret (c.declined zoneName zone 409 (lit "record_already_exists") values)
  | .replace _ values, [] => .ret (c.declined zoneName zone 404 (lit "not_found") values)
  | .replace ttl values, _ :: _ =>
      c.writeThen zoneName zone server (c.payload zoneName ttl values) (lit "updated") values
  | .patch _ values, [] =>
      .ret (c.declined zoneName zone 404 (lit "not_found") (values.getD []))
  | .patch ttl values, existing :: _ =>
      match mergePatch existing ttl values with
      | .ok (ttl, values) =>
          c.writeThen zoneName zone server (c.payload zoneName ttl values) (lit "updated") values
      | .error exc => .ret (c.failure exc)
  | .delete, [] => .ret (c.declined zoneName zone 404 (lit "not_found") [])
  | .delete, _ :: _ => c.writeThen zoneName zone server (c.deletion zoneName) (lit "deleted") []

/-- What follows once the lookup has answered. -/
def afterLookup (c : Change) (looked : Except Exc (List DnsRecordInfo)) : Prog providerSig Reply :=
  match looked with
  | .ok records => c.onRecords zoneName zone server records
  | .error exc => .ret (c.failure exc)

/-- The provider calls of a change. -/
def program (c : Change) : Prog providerSig Reply :=
  .call (.getRecord c.name (some c.type.text) server zone) (c.afterLookup zoneName zone server)

end

end Change

/-! ## prepared arguments -/

/-- What prepared arguments satisfy: a mutable type and, where a write needs
them, values. -/
structure MutationCall.Ready (c : MutationCall) (p : PreparedMutation) : Prop where
  isMutable : p.recordType.isMutable = true
  values : c.requireValues = true → p.values ≠ []
  deleteTtl : c.mode = .delete → p.ttl = 300

/-- The change that prepared arguments ask for. -/
def MutationCall.change (c : MutationCall) (p : PreparedMutation) : Change :=
  ⟨p.recordName, p.recordType,
    match c.mode with
    | .create => .create p.ttl p.values
    | .replace => .replace p.ttl p.values
    | .patch => .patch (c.patchTtl.map fun _ => p.ttl) (c.patchValues.map fun _ => p.values)
    | .delete => .delete⟩

/-- What a patch is merged into. -/
theorem mergePatch_cases (existing : DnsRecordInfo) (ttl : Option Int)
    (values : Option (List Str)) :
    (∃ ttl' v vs, existing.ttl = some ttl' ∧ existing.values = some (v :: vs) ∧
      mergePatch existing ttl values = .ok (ttl.getD ttl', values.getD (v :: vs))) ∨
    ((∀ ttl' v vs, ¬(existing.ttl = some ttl' ∧ existing.values = some (v :: vs))) ∧
      mergePatch existing ttl values =
        .error (.patchMergeError (lit "Could not read existing TTL and values for PATCH merge."))) := by
  unfold mergePatch
  cases ht : existing.ttl with
  | none => right; simp
  | some ttl' =>
      cases hv : existing.values with
      | none => right; simp
      | some values' =>
          cases values' with
          | nil => right; simp
          | cons v vs => left; exact ⟨ttl', v, vs, rfl, rfl, rfl⟩

/-! ## the writes -/

section

variable {U} (settings : Dict) (zoneName zone : Str)

/-- The write that ends a change: one call, whose exception ends the code. -/
theorem prog_write {r : DnsRecordRequest} (hr : r.validate U = .ok r) (o : DnsMutationOutcome) :
    Code.prog (do
      let internal ← Code.lift (r.validate U)
      let _ ← createOrUpdateRecord internal (dnsServer settings) zone
      return o) =
      .call (.createOrUpdateRecord r (dnsServer settings) zone) fun written =>
        .ret (written.map fun _ => o) := by
  rw [hr]
  simp only [Code.prog_bind, Code.prog_lift, Code.andThen_ok, Prog.ret_bind,
    prog_createOrUpdateRecord, Prog.call_bind]
  congr 1
  funext written
  cases written with
  | ok b => rfl
  | error exc => rfl

variable (U)

/-- A write of a known type with values passes its own validation. -/
theorem validate_payload (ch : Change) (ttl : Int) {values : List Str} (hv : values ≠ []) :
    (ch.payload zoneName ttl values).validate U = .ok (ch.payload zoneName ttl values) :=
  DnsRecordRequest.validate_of_type U _ ch.type rfl hv

/-- A deletion passes. -/
theorem validate_deletion (ch : Change) (ht : ch.type.isMutable = true) :
    (ch.deletion zoneName).validate U = .ok (ch.deletion zoneName) :=
  DnsRecordRequest.validate_delete U _ ch.type rfl rfl ht

/-- The change's own answer to the end of the code. -/
def Change.answer (c : Change) (result : Except Exc Reply) : Reply :=
  match result with
  | .ok reply => reply
  | .error exc => c.failure exc

/-- Only a patch is answered differently. -/
theorem answer_eq_replyOf {ch : Change} (h : ∀ ttl values, ch.verb ≠ .patch ttl values) :
    ch.answer = replyOf := by
  funext result
  cases result with
  | ok reply => rfl
  | error exc =>
      simp only [Change.answer, Change.failure, replyOf]
      cases hv : ch.verb with
      | patch ttl values => exact absurd hv (h ttl values)
      | create ttl values => rfl
      | replace ttl values => rfl
      | delete => rfl

variable {U}

/-- A write followed by the answer to its outcome. -/
theorem prog_write_answer (ch : Change) {r : DnsRecordRequest} (hr : r.validate U = .ok r)
    (action : Str) (values : List Str) :
    (Code.prog (do
      let internal ← Code.lift (r.validate U)
      let _ ← createOrUpdateRecord internal (dnsServer settings) zone
      return applied action ch.name ch.type values zone) >>=
        Code.andThen fun o => .ret (.ok (o.reply zoneName))) >>=
          (fun result => .ret (ch.answer result)) =
      ch.writeThen zoneName zone (dnsServer settings) r action values := by
  rw [prog_write settings zone hr]
  simp only [Prog.call_bind, Prog.ret_bind, Change.writeThen]
  congr 1
  funext written
  cases written with
  | ok b => rfl
  | error exc => rfl

/-! ## from the arguments to the normal form -/

/-- POST, PUT and DELETE come to the normal form. -/
theorem run_rrset {c : MutationCall} {p : PreparedMutation} (h : c.Ready p)
    (hz : providerDnsZone U settings = .ok zone) (hp : c.prepare U zone = .ok p)
    (hmode : c.mode ≠ .patch) :
    ((c.run U settings zoneName).prog >>= fun result => .ret (replyOf result)) =
      (c.change p).program zoneName zone (dnsServer settings) := by
  have hverb (ttl : Option Int) (values : Option (List Str)) :
      (c.change p).verb ≠ .patch ttl values := by
    unfold MutationCall.change
    cases hm : c.mode <;> simp_all
  have hpayload (action : Str) (hv : c.requireValues = true) :=
    prog_write_answer settings zoneName zone (c.change p)
      (validate_payload U zoneName (c.change p) p.ttl (h.values hv)) action p.values
  have hdeletion :=
    prog_write_answer settings zoneName zone (c.change p)
      (validate_deletion U zoneName (c.change p) h.isMutable) (lit "deleted") []
  rw [← answer_eq_replyOf hverb]
  simp only [MutationCall.run, applyRrsetMutation, recordExistsAtType, hz, hp, if_neg hmode,
    Code.prog_bind, Code.prog_lift, Code.andThen_ok, Prog.ret_bind, Prog.call_bind, prog_getRecord,
    Change.program]
  congr 1
  funext looked
  cases looked with
  | error exc => rfl
  | ok records =>
      obtain ⟨cZone, cName, cType, cTtl, cValues, mode, patchTtl, patchValues⟩ := c
      cases mode with
      | patch => contradiction
      | create =>
          cases records with
          | nil => exact hpayload (lit "created") rfl
          | cons r rs => rfl
      | replace =>
          cases records with
          | nil => rfl
          | cons r rs => exact hpayload (lit "updated") rfl
      | delete =>
          have httl : p.ttl = 300 := h.deleteTtl rfl
          simp only [httl]
          cases records with
          | nil => rfl
          | cons r rs => exact hdeletion

/-- PATCH comes to the normal form. -/
theorem run_patch {c : MutationCall} {p : PreparedMutation} (h : c.Ready p)
    (hz : providerDnsZone U settings = .ok zone) (hp : c.prepare U zone = .ok p)
    (hmode : c.mode = .patch) :
    ((c.run U settings zoneName).prog >>= fun result => .ret (replyOf result)) =
      (c.change p).program zoneName zone (dnsServer settings) := by
  obtain ⟨cZone, cName, cType, cTtl, cValues, mode, patchTtl, patchValues⟩ := c
  simp only at hmode
  subst hmode
  simp only [MutationCall.run, applyPatchMutation, hz, hp, if_pos,
    Code.prog_bind, Code.prog_lift, Code.prog_tryCatch, Code.andThen_ok, Prog.ret_bind,
    Prog.call_bind, prog_getRecord, Change.program]
  congr 1
  funext looked
  cases looked with
  | error exc =>
      cases exc <;> rfl
  | ok records =>
      cases records with
      | nil => rfl
      | cons existing rest =>
          have hmerged := mergePatch_cases existing (patchTtl.map fun _ => p.ttl)
            (patchValues.map fun _ => p.values)
          simp only [Code.andThen_ok, Change.afterLookup, Change.onRecords, MutationCall.change]
          obtain ⟨ttl, v, vs, -, -, hm⟩ | ⟨-, hm⟩ := hmerged
          · have hvalues : ((patchValues.map fun _ => p.values).getD (v :: vs)) ≠ [] := by
              cases patchValues with
              | none => simp
              | some values => exact h.values rfl
            have hvalid (t : Int) :=
              validate_payload U zoneName ⟨p.recordName, p.recordType, .delete⟩ t hvalues
            simp only [Change.payload] at hvalid
            simp only [Code.prog_bind, hm, Code.prog_lift, Prog.ret_bind, Code.andThen_ok, hvalid,
              prog_createOrUpdateRecord, Prog.call_bind, Change.writeThen]
            congr 1
            funext written
            cases written with
            | ok b => rfl
            | error exc => cases exc <;> rfl
          · simp only [Code.prog_bind, hm, Code.prog_lift, Prog.ret_bind, Code.andThen_error]
            rfl

end

/-! ## from the request to the arguments -/

section

/-- What a client sees of an answer. -/
def Reply.outcome : Reply → Outcome
  | .record httpStatus body => .answered httpStatus body.action body.values
  | .error e => .failed e.status
  | .unprocessable _ => .failed 422

/-- A reading and the code's own validation agree: one result, or 400 against
a `ValueError`. -/
inductive Agrees : Except Nat α → Except Exc α → Prop where
  | ok (a : α) : Agrees (.ok a) (.ok a)
  | error {exc : Exc} (h : exc.isValueError = true) : Agrees (.error 400) (.error exc)

/-- Readings that agree step by step agree. -/
theorem Agrees.bind {x : Except Nat α} {y : Except Exc α} {f : α → Except Nat β}
    {g : α → Except Exc β} (h : Agrees x y) (hf : ∀ a, Agrees (f a) (g a)) :
    Agrees (x >>= f) (y >>= g) := by
  cases h with
  | ok a => exact hf a
  | error h => exact .error h

/-- The name check of `prepare_mutation`. -/
def checkedName (recordName : Str) : Except Exc Str :=
  if strip recordName = [] then .error (.valueError (lit "record_name is required."))
  else .ok (strip recordName)

/-- The value check of `prepare_mutation`, for arguments of type `t`. -/
def MutationCall.checkedValues (c : MutationCall) (t : RecordType) : Except Exc (List Str) :=
  if c.requireValues then normalizeRecordValues U t c.valuesToCheck else .ok []

/-- The readings of a name agree. -/
theorem agrees_readName (recordName : Str) :
    Agrees (readName recordName) (checkedName recordName) := by
  unfold readName checkedName
  by_cases h : strip recordName = []
  · rw [if_pos h, if_pos h]; exact .error rfl
  · rw [if_neg h, if_neg h]; exact .ok _

/-- The readings of a TTL agree. -/
theorem agrees_readTtl (ttl : Int) (required : Bool) :
    Agrees (readTtl ttl) (validateTtl (some ttl) required) := by
  unfold readTtl validateTtl
  by_cases h : TtlOk ttl
  · have hrange : ¬(ttl < 0 ∨ maxTtl < ttl) := by
      unfold TtlOk at h
      omega
    rw [if_pos h]
    simp only [if_neg hrange]
    exact .ok _
  · have hrange : ttl < 0 ∨ maxTtl < ttl := by
      unfold TtlOk at h
      omega
    rw [if_neg h]
    simp only [if_pos hrange]
    exact .error rfl

/-- The readings of values agree. -/
theorem agrees_readValues (t : RecordType) (values : List Str) :
    Agrees (readValues U t values) (normalizeRecordValues U t values) := by
  unfold readValues
  cases h : normalizeRecordValues U t values with
  | ok out => exact .ok _
  | error exc => exact .error (raises_normalizeRecordValues U t values exc h)

/-- The readings of required values agree. -/
theorem agrees_checkedValues (c : MutationCall) (t : RecordType) (h : c.requireValues = true) :
    Agrees (readValues U t c.valuesToCheck) (c.checkedValues U t) := by
  rw [MutationCall.checkedValues, if_pos h]
  exact agrees_readValues U t _

/-- When a type is public. -/
theorem publicType?_eq_some_iff {recordType : Str} {t : RecordType} :
    publicType? U recordType = some t ↔ normalizePublicRecordType U recordType = .ok t := by
  unfold normalizePublicRecordType publicType?
  rw [normalizeRecordTypeIn_ok_iff, Option.filter_eq_some_iff]

/-- The guards never stop a public type. -/
theorem guard_public (recordName : Str) {t : RecordType} (ht : t.isPublic = true)
    (dnsZone : Option Str) : guardMutationAllowed U recordName t dnsZone = .ok () := by
  unfold guardMutationAllowed
  cases t <;> simp_all [RecordType.isPublic]

variable {U} {zone : Str}

/-- Preparing arguments of a public type: the name, the TTL, the values. -/
theorem prepare_public {c : MutationCall} {t : RecordType}
    (ht : publicType? U c.recordType = some t) :
    c.prepare U zone = (do
      let name ← checkedName c.recordName
      let ttl ← validateTtl c.ttlToCheck (c.mode = .replace)
      let values ← c.checkedValues U t
      .ok ⟨name, t, ttl, values⟩) := by
  obtain ⟨htype, hpub⟩ := Option.filter_eq_some_iff.mp ht
  have htext : upperType U c.recordType = t.text := (RecordType.text_of_ofText? htype).symm
  have hmut : normalizeMutableRecordType U t.text = .ok t :=
    normalizeRecordTypeIn_text U (RecordType.isMutable_of_isPublic hpub)
  unfold MutationCall.prepare prepareMutation checkedName MutationCall.checkedValues
  rw [htext, hmut]
  by_cases hname : strip c.recordName = []
  · simp only [if_pos hname, error_bind]
    rfl
  · simp only [if_neg hname, ok_bind]
    simp only [pure_bind, ok_bind, guard_public U _ hpub]
    cases c.requireValues <;> rfl

/-- Reading the parts agrees with preparing them. -/
theorem agrees_prepare {c : MutationCall} {t : RecordType} {ttl : Except Nat Int}
    {values : Except Nat (List Str)} (ht : publicType? U c.recordType = some t)
    (httl : Agrees ttl (validateTtl c.ttlToCheck (c.mode = .replace)))
    (hvalues : Agrees values (c.checkedValues U t)) :
    Agrees (do
      let name ← readName c.recordName
      let ttl ← ttl
      let values ← values
      .ok ⟨name, t, ttl, values⟩) (c.prepare U zone) := by
  rw [prepare_public ht]
  exact (agrees_readName c.recordName).bind fun _ => httl.bind fun _ => hvalues.bind fun _ => .ok _

/-- What prepared arguments went through. -/
theorem prepareMutation_ok {recordName recordType : Str} {ttl : Option Int} {values : List Str}
    {dnsZone : Option Str} {requireValues requireTtl : Bool} {p : PreparedMutation}
    (hp : prepareMutation U recordName recordType ttl values dnsZone requireValues requireTtl =
      .ok p) :
    p.recordType.isMutable = true ∧ validateTtl ttl requireTtl = .ok p.ttl ∧
      (if requireValues then normalizeRecordValues U p.recordType values else .ok []) =
        .ok p.values := by
  unfold prepareMutation at hp
  dsimp only at hp
  split at hp
  · contradiction
  · obtain ⟨t, ht, hp⟩ := bind_eq_ok hp
    obtain ⟨_, -, hp⟩ := bind_eq_ok hp
    obtain ⟨finalTtl, httl, hp⟩ := bind_eq_ok hp
    have hmut : t.isMutable = true := ((normalizeRecordTypeIn_ok_iff U).mp ht).2
    split at hp
    · next hreq =>
        obtain ⟨finalValues, hvalues, hp⟩ := bind_eq_ok hp
        rw [← Except.ok.inj hp, if_pos hreq]
        exact ⟨hmut, httl, hvalues⟩
    · next hreq =>
        rw [← Except.ok.inj hp, if_neg hreq]
        exact ⟨hmut, httl, rfl⟩

/-- Arguments that are prepared are ready. -/
theorem ready_of_prepare {c : MutationCall} {p : PreparedMutation}
    (hdelete : c.mode = .delete → c.ttl = none) (hp : c.prepare U zone = .ok p) : c.Ready p := by
  obtain ⟨hmut, httl, hvalues⟩ := prepareMutation_ok hp
  refine ⟨hmut, ?_, ?_⟩
  · intro hreq
    rw [if_pos hreq] at hvalues
    obtain ⟨hlen, hne⟩ := length_normalizeRecordValues U hvalues
    have hpos := List.length_pos_iff.mpr hne
    exact List.length_pos_iff.mp (hlen ▸ hpos)
  · intro hmode
    have hnone : c.ttlToCheck = none := by
      simp [MutationCall.ttlToCheck, hmode, hdelete hmode]
    rw [hnone, hmode] at httl
    exact (Except.ok.inj httl).symm

variable (U zone)

/-- How the reading of a request relates to what the code makes of it. -/
inductive ReadSpec (r : RecordRequest) : Except Nat Change → Prop where
  | refused {reply : Reply} {status : Nat} (hcall : r.call U = .error reply)
      (hreply : reply.outcome = .failed status) : ReadSpec r (.error status)
  | invalid {c : MutationCall} {exc : Exc} (hcall : r.call U = .ok c)
      (hprep : c.prepare U zone = .error exc) (hexc : exc.isValueError = true) :
      ReadSpec r (.error 400)
  | ready {c : MutationCall} {p : PreparedMutation} (hcall : r.call U = .ok c)
      (hprep : c.prepare U zone = .ok p) (h : c.Ready p) : ReadSpec r (.ok (c.change p))

variable {U zone}

variable (zone) in
/-- Readings that agree part by part agree on the request. -/
theorem ReadSpec.of_agrees {r : RecordRequest} {c : MutationCall}
    {parts : Except Nat PreparedMutation} (hcall : r.call U = .ok c)
    (hdelete : c.mode = .delete → c.ttl = none)
    (hparts : Agrees parts (c.prepare U zone)) : ReadSpec U zone r (parts.map c.change) := by
  cases hprep : c.prepare U zone with
  | ok p =>
      rw [hprep] at hparts
      cases hparts
      exact .ready hcall hprep (ready_of_prepare hdelete hprep)
  | error exc =>
      rw [hprep] at hparts
      cases hparts with
      | error h => exact .invalid hcall hprep h

/-- A type that is not public is refused. -/
theorem publicType?_error {recordType : Str} (h : publicType? U recordType = none) :
    ∃ msg, normalizePublicRecordType U recordType = .error (.valueError msg) :=
  normalizeRecordTypeIn_error U h

/-- So it is by the schema. -/
theorem validateTypeAndValues_none {recordType : Str} (values : List Str)
    (h : publicType? U recordType = none) :
    ∃ exc, validateTypeAndValues U recordType values = .error exc := by
  obtain ⟨msg, hmsg⟩ := publicType?_error h
  unfold validateTypeAndValues
  rw [hmsg]
  exact ⟨_, rfl⟩

/-- The schema refuses empty values. -/
theorem validateTypeAndValues_nil (recordType : Str) :
    ∃ exc, validateTypeAndValues U recordType [] = .error exc := by
  unfold validateTypeAndValues
  cases normalizePublicRecordType U recordType with
  | ok t => exact ⟨_, rfl⟩
  | error exc => exact ⟨exc, rfl⟩

/-- It accepts a public type with values. -/
theorem validateTypeAndValues_cons {recordType v : Str} {vs : List Str} {t : RecordType}
    (h : publicType? U recordType = some t) :
    validateTypeAndValues U recordType (v :: vs) = .ok () := by
  unfold validateTypeAndValues
  rw [(publicType?_eq_some_iff U).mp h]
  rfl

/-- The three parts of a reading, and what is made of them. -/
theorem map_parts (name : Except Nat Str) (t : RecordType) (ttl : Except Nat Int)
    (values : Except Nat (List Str)) (f : PreparedMutation → Change) :
    (do
      let name ← name
      let ttl ← ttl
      let values ← values
      .ok (⟨name, t, ttl, values⟩ : PreparedMutation)).map f = (do
      let name ← name
      let ttl ← ttl
      let values ← values
      .ok (f ⟨name, t, ttl, values⟩)) := by
  cases name <;> cases ttl <;> cases values <;> rfl

/-- A default TTL is accepted as it is. -/
theorem agrees_readTtl_getD (ttl : Option Int) :
    Agrees (readTtl (ttl.getD 300)) (validateTtl ttl false) := by
  cases ttl with
  | none => exact .ok 300
  | some ttl => exact agrees_readTtl ttl false

/-- The readings of a POST agree. -/
theorem readSpec_post (body : RecordBody) :
    ReadSpec U zone (.post body) (RecordRequest.read U (.post body)) := by
  obtain ⟨zoneName, recordType, recordName, ttl, values⟩ := body
  cases recordType with
  | absent | null => cases recordName <;> cases values <;> exact .refused rfl rfl
  | given recordType =>
      cases recordName with
      | absent | null => cases values <;> exact .refused rfl rfl
      | given recordName =>
          have hinvalid {exc : Exc} {vs : List Str} (hvalues : values.getOr (some []) = some vs)
              (hexc : validateTypeAndValues U recordType vs = .error exc) :
              ReadSpec U zone (.post ⟨zoneName, .given recordType, .given recordName, ttl, values⟩)
                (.error 422) := by
            refine .refused ?_ (rfl : (Reply.unprocessable [.value exc]).outcome = .failed 422)
            simp only [RecordRequest.call, DnsRecordCreateRequest.parse, Field.getOr_given, hvalues,
              hexc]
          obtain ⟨exc, hnil⟩ := validateTypeAndValues_nil (U := U) recordType
          cases values with
          | absent => exact hinvalid rfl hnil
          | null => exact .refused rfl rfl
          | given values =>
              cases values with
              | nil => exact hinvalid rfl hnil
              | cons v vs =>
                  cases ht : publicType? U recordType with
                  | none =>
                      obtain ⟨exc, hexc⟩ := validateTypeAndValues_none (v :: vs) ht
                      simp only [RecordRequest.read, ht]
                      exact hinvalid rfl hexc
                  | some t =>
                      have hcall : RecordRequest.call U
                          (.post ⟨zoneName, .given recordType, .given recordName, ttl,
                            .given (v :: vs)⟩) =
                          .ok ⟨zoneName.getOr none, recordName, recordType, ttl.getOr (some 300),
                            v :: vs, .create, none, none⟩ := by
                        simp only [RecordRequest.call, DnsRecordCreateRequest.parse,
                          Field.getOr_given, validateTypeAndValues_cons ht, createDnsRecord]
                      have hspec := ReadSpec.of_agrees zone hcall (by simp)
                        (agrees_prepare ht (agrees_readTtl_getD _) (agrees_checkedValues U _ t rfl))
                      rw [map_parts] at hspec
                      simp only [RecordRequest.read, ht]
                      exact hspec

/-- The readings of a PUT agree. -/
theorem readSpec_put (body : RecordBody) :
    ReadSpec U zone (.put body) (RecordRequest.read U (.put body)) := by
  obtain ⟨zoneName, recordType, recordName, ttl, values⟩ := body
  cases recordType with
  | absent | null => cases recordName <;> cases ttl <;> cases values <;> exact .refused rfl rfl
  | given recordType =>
      cases recordName with
      | absent | null => cases ttl <;> cases values <;> exact .refused rfl rfl
      | given recordName =>
          cases ttl with
          | absent | null => cases values <;> exact .refused rfl rfl
          | given ttl =>
              have hinvalid {exc : Exc} {vs : List Str} (hvalues : values.getOr (some []) = some vs)
                  (hexc : validateTypeAndValues U recordType vs = .error exc) :
                  ReadSpec U zone
                    (.put ⟨zoneName, .given recordType, .given recordName, .given ttl, values⟩)
                    (.error 422) := by
                refine .refused ?_ (rfl : (Reply.unprocessable [.value exc]).outcome = .failed 422)
                simp only [RecordRequest.call, DnsRecordReplaceRequest.parse, Field.getOr_given,
                  hvalues, hexc]
              obtain ⟨exc, hnil⟩ := validateTypeAndValues_nil (U := U) recordType
              cases values with
              | absent => exact hinvalid rfl hnil
              | null => exact .refused rfl rfl
              | given values =>
                  cases values with
                  | nil => exact hinvalid rfl hnil
                  | cons v vs =>
                      cases ht : publicType? U recordType with
                      | none =>
                          obtain ⟨exc, hexc⟩ := validateTypeAndValues_none (v :: vs) ht
                          simp only [RecordRequest.read, ht]
                          exact hinvalid rfl hexc
                      | some t =>
                          have hcall : RecordRequest.call U
                              (.put ⟨zoneName, .given recordType, .given recordName, .given ttl,
                                .given (v :: vs)⟩) =
                              .ok ⟨zoneName.getOr none, recordName, recordType, some ttl, v :: vs,
                                .replace, none, none⟩ := by
                            simp only [RecordRequest.call, DnsRecordReplaceRequest.parse,
                              Field.getOr_given, validateTypeAndValues_cons ht, replaceDnsRecord]
                          have hspec := ReadSpec.of_agrees zone hcall (by simp)
                            (agrees_prepare ht (agrees_readTtl ttl _) (agrees_checkedValues U _ t rfl))
                          rw [map_parts] at hspec
                          simp only [RecordRequest.read, ht]
                          exact hspec

/-- The body of PATCH is refused for its type, or for saying nothing. -/
theorem patch_validate_error {r : DnsRecordPatchRequest}
    (h : publicType? U r.recordType = none ∨ (r.ttl = none ∧ r.values = none) ∨
      r.values = some []) : ∃ exc, r.validate U = .error exc := by
  unfold DnsRecordPatchRequest.validate
  cases ht : publicType? U r.recordType with
  | none =>
      obtain ⟨msg, hmsg⟩ := publicType?_error ht
      rw [hmsg]
      exact ⟨_, rfl⟩
  | some t =>
      rw [(publicType?_eq_some_iff U).mp ht]
      simp only [ht, reduceCtorEq, false_or, ok_bind] at h ⊢
      by_cases hnone : r.ttl = none ∧ r.values = none
      · rw [if_pos hnone]
        exact ⟨_, rfl⟩
      · have hnil := h.resolve_left hnone
        rw [if_neg hnone, if_pos hnil]
        exact ⟨_, rfl⟩

/-- When a patch passes. -/
theorem patch_validate_ok {r : DnsRecordPatchRequest} {t : RecordType}
    (ht : publicType? U r.recordType = some t) (hnone : ¬(r.ttl = none ∧ r.values = none))
    (hnil : r.values ≠ some []) : r.validate U = .ok () := by
  unfold DnsRecordPatchRequest.validate
  rw [(publicType?_eq_some_iff U).mp ht]
  simp only [ok_bind]
  rw [if_neg hnone, if_neg hnil]
  rfl

/-- The values of a PATCH as they are read; none are needed. -/
def readPatchValues (U : Ucd) (t : RecordType) : Option (List Str) → Except Nat (List Str)
  | none => .ok []
  | some values => readValues U t values

variable (zone) in
/-- The parts of a PATCH: what is missing is neither read nor validated. -/
theorem agrees_patch {t : RecordType} (c : MutationCall) (hmode : c.mode = .patch)
    (ht : publicType? U c.recordType = some t) :
    ∃ parts : Except Nat PreparedMutation, Agrees parts (c.prepare U zone) ∧
      parts.map c.change = (do
        let name ← readName c.recordName
        let ttl ← c.patchTtl.mapM readTtl
        let values ← c.patchValues.mapM (readValues U t)
        .ok ⟨name, t, .patch ttl values⟩) := by
  obtain ⟨cZone, cName, cType, cTtl, cValues, mode, patchTtl, patchValues⟩ := c
  simp only at hmode
  subst hmode
  have hvalues : Agrees (readPatchValues U t patchValues)
      (MutationCall.checkedValues U
        ⟨cZone, cName, cType, cTtl, cValues, .patch, patchTtl, patchValues⟩ t) := by
    cases patchValues with
    | none => exact .ok []
    | some vs =>
        exact agrees_checkedValues U
          ⟨cZone, cName, cType, cTtl, cValues, .patch, patchTtl, some vs⟩ t rfl
  refine ⟨_, agrees_prepare ht (agrees_readTtl_getD patchTtl) hvalues, ?_⟩
  rw [map_parts]
  simp only [MutationCall.change]
  cases readName cName with
  | error status => rfl
  | ok name =>
      cases patchTtl with
      | none =>
          cases patchValues with
          | none => rfl
          | some vs =>
              rw [Option.mapM_none, Option.mapM_some]
              simp only [readPatchValues]
              cases readValues U t vs <;> rfl
      | some ttl =>
          rw [Option.mapM_some, Option.getD_some]
          cases patchValues with
          | none => cases readTtl ttl <;> rfl
          | some vs =>
              rw [Option.mapM_some]
              simp only [readPatchValues]
              cases readTtl ttl <;> cases readValues U t vs <;> rfl

/-- The readings of a PATCH agree. -/
theorem readSpec_patch (body : RecordBody) :
    ReadSpec U zone (.patch body) (RecordRequest.read U (.patch body)) := by
  obtain ⟨zoneName, recordType, recordName, ttl, values⟩ := body
  cases recordType with
  | absent | null => cases recordName <;> exact .refused rfl rfl
  | given recordType =>
      cases recordName with
      | absent | null => exact .refused rfl rfl
      | given recordName =>
          have hinvalid (h : publicType? U recordType = none ∨
              (ttl.getOr none = none ∧ values.getOr none = none) ∨ values.getOr none = some []) :
              ReadSpec U zone
                (.patch ⟨zoneName, .given recordType, .given recordName, ttl, values⟩)
                (.error 422) := by
            obtain ⟨exc, hexc⟩ := patch_validate_error (U := U)
              (r := ⟨zoneName.getOr none, recordType, recordName, ttl.getOr none,
                values.getOr none⟩) h
            refine .refused ?_ (rfl : (Reply.unprocessable [.value exc]).outcome = .failed 422)
            simp only [RecordRequest.call, DnsRecordPatchRequest.parse, Field.getOr_given, hexc]
          cases ht : publicType? U recordType with
          | none =>
              simp only [RecordRequest.read, ht]
              exact hinvalid (.inl ht)
          | some t =>
              by_cases hnil : values.getOr none = some []
              · simp only [RecordRequest.read, ht, hnil]
                exact hinvalid (.inr (.inr hnil))
              · by_cases hnone : ttl.getOr none = none ∧ values.getOr none = none
                · simp only [RecordRequest.read, ht, hnone.1, hnone.2]
                  exact hinvalid (.inr (.inl hnone))
                · have hcall : RecordRequest.call U
                      (.patch ⟨zoneName, .given recordType, .given recordName, ttl, values⟩) =
                      .ok ⟨zoneName.getOr none, recordName, recordType, none, [], .patch,
                        ttl.getOr none, values.getOr none⟩ := by
                    simp only [RecordRequest.call, DnsRecordPatchRequest.parse, Field.getOr_given,
                      patch_validate_ok (r := ⟨zoneName.getOr none, recordType, recordName,
                        ttl.getOr none, values.getOr none⟩) ht hnone hnil, patchDnsRecord]
                  obtain ⟨parts, hparts, hmap⟩ := agrees_patch zone
                    ⟨zoneName.getOr none, recordName, recordType, none, [], .patch,
                      ttl.getOr none, values.getOr none⟩ rfl ht
                  have hspec := ReadSpec.of_agrees zone hcall (by simp) hparts
                  rw [hmap] at hspec
                  simp only [RecordRequest.read, ht]
                  generalize ttl.getOr none = patchTtl at hnone hspec ⊢
                  generalize values.getOr none = patchValues at hnone hnil hspec ⊢
                  cases patchValues with
                  | none =>
                      cases patchTtl with
                      | none => exact absurd ⟨rfl, rfl⟩ hnone
                      | some ttl => exact hspec
                  | some vs =>
                      cases vs with
                      | nil => exact absurd rfl hnil
                      | cons v vs => cases patchTtl <;> exact hspec

/-- The readings of a DELETE agree. -/
theorem readSpec_delete (zoneName recordName recordType : Option Str) :
    ReadSpec U zone (.delete zoneName recordName recordType)
      (RecordRequest.read U (.delete zoneName recordName recordType)) := by
  cases zoneName with
  | none => cases recordName <;> cases recordType <;> exact .refused rfl rfl
  | some zoneName =>
      cases recordName with
      | none => cases recordType <;> exact .refused rfl rfl
      | some recordName =>
          cases recordType with
          | none => exact .refused rfl rfl
          | some recordType =>
              cases ht : publicType? U recordType with
              | none =>
                  obtain ⟨msg, hmsg⟩ := publicType?_error ht
                  simp only [RecordRequest.read, ht]
                  have hreply : (Reply.error ⟨400, .error (lit "invalid_request") msg⟩).outcome =
                      .failed 400 := rfl
                  refine .refused ?_ hreply
                  simp only [RecordRequest.call, deleteDnsRecord, hmsg]
              | some t =>
                  have hcall : RecordRequest.call U
                      (.delete (some zoneName) (some recordName) (some recordType)) =
                      .ok ⟨some zoneName, recordName, t.text, none, [], .delete, none, none⟩ := by
                    simp only [RecordRequest.call, deleteDnsRecord,
                      (publicType?_eq_some_iff U).mp ht]
                  have htext : publicType? U t.text = some t := by
                    have hpub : t.isPublic = true := (Option.filter_eq_some_iff.mp ht).2
                    rw [publicType?, upperType_text, RecordType.ofText?_text, Option.filter_some,
                      if_pos hpub]
                  have hspec := ReadSpec.of_agrees zone hcall (by simp)
                    (agrees_prepare htext (agrees_readTtl_getD none) (.ok []))
                  rw [map_parts] at hspec
                  simp only [RecordRequest.read, ht]
                  exact hspec

/-- The reading of a request tells what the code makes of it. -/
theorem readSpec (r : RecordRequest) : ReadSpec U zone r (r.read U) := by
  cases r with
  | post body => exact readSpec_post body
  | put body => exact readSpec_put body
  | patch body => exact readSpec_patch body
  | delete zoneName recordName recordType => exact readSpec_delete zoneName recordName recordType

end

/-! ## serving a request -/

section

variable {U} {settings : Dict} {zone : Str} {r : RecordRequest}

/-- A request that asks for a change is served by the change's calls. -/
theorem serve_eq_program (zoneName : Str) (hz : providerDnsZone U settings = .ok zone) {ch : Change}
    (h : r.read U = .ok ch) :
    r.serve U settings zoneName = ch.program zoneName zone (dnsServer settings) := by
  have hspec : ReadSpec U zone r (.ok ch) := h ▸ readSpec r
  cases hspec with
  | @ready c p hcall hprep hready =>
      rw [RecordRequest.serve, hcall]
      by_cases hmode : c.mode = .patch
      · exact run_patch settings zoneName zone hready hz hprep hmode
      · exact run_rrset settings zoneName zone hready hz hprep hmode

/-- A value error is answered with 400. -/
theorem outcome_of_valueError {exc : Exc} (h : exc.isValueError = true) :
    (replyOf (.error exc)).outcome = .failed 400 := by
  simp [replyOf, httpExceptionFromDnsError, h, Reply.outcome]

/-- `provider_dns_zone` raises value errors only. -/
theorem raises_providerDnsZone (settings : Dict) : RaisesValueError (providerDnsZone U settings) :=
  .ite (.error rfl) (.ok _)

/-- Without a zone the code stops before any lookup. -/
theorem serve_without_zone (zoneName : Str) {exc : Exc} {c : MutationCall}
    (hz : providerDnsZone U settings = .error exc) (hcall : r.call U = .ok c) :
    r.serve U settings zoneName = .ret (replyOf (.error exc)) := by
  simp only [RecordRequest.serve, hcall, MutationCall.run, hz, Code.prog_bind, Code.prog_lift,
    Prog.ret_bind, Code.andThen_error]

/-- A request that asks for nothing is answered with its status, without a
lookup. -/
theorem serve_of_read_error (settings : Dict) (zoneName : Str) {status : Nat}
    (h : r.read U = .error status) :
    ∃ reply, r.serve U settings zoneName = .ret reply ∧ reply.outcome = .failed status := by
  cases hz : providerDnsZone U settings with
  | error exc =>
      have hspec : ReadSpec U [] r (.error status) := h ▸ readSpec r
      cases hspec with
      | @refused reply _ hcall hreply =>
          exact ⟨reply, by rw [RecordRequest.serve, hcall], hreply⟩
      | invalid hcall _ _ =>
          exact ⟨_, serve_without_zone zoneName hz hcall,
            outcome_of_valueError (raises_providerDnsZone settings exc hz)⟩
  | ok zone =>
      have hspec : ReadSpec U zone r (.error status) := h ▸ readSpec r
      cases hspec with
      | @refused reply _ hcall hreply =>
          exact ⟨reply, by rw [RecordRequest.serve, hcall], hreply⟩
      | @invalid c exc hcall hprep hexc =>
          refine ⟨replyOf (.error exc), ?_, outcome_of_valueError hexc⟩
          simp only [RecordRequest.serve, hcall, MutationCall.run, hz, hprep, Code.prog_bind,
            Code.prog_lift, Prog.ret_bind, Code.andThen_ok, Code.andThen_error]

/-- A request that asks for a change under a configuration without a zone is
answered 400, without a lookup. -/
theorem serve_of_no_zone (zoneName : Str) {exc : Exc}
    (hz : providerDnsZone U settings = .error exc) {ch : Change} (h : r.read U = .ok ch) :
    ∃ reply, r.serve U settings zoneName = .ret reply ∧ reply.outcome = .failed 400 := by
  have hspec : ReadSpec U [] r (.ok ch) := h ▸ readSpec r
  cases hspec with
  | ready hcall _ _ =>
      exact ⟨_, serve_without_zone zoneName hz hcall,
        outcome_of_valueError (raises_providerDnsZone settings exc hz)⟩

end

end ApiToDns
