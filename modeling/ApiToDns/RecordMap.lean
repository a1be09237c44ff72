import ApiToDns.RecordApi

/-!
# RecordMap

What the record API is for: a map from (owner, type) to RRsets, read and
changed by four verbs.

`RecordRequest.read` says what a request asks for in these terms, and
`Change.onCell` what the change does to the one RRset it is about and how it
is answered.  Neither mentions a provider.
-/

namespace ApiToDns

open Py

variable (U : Ucd)

/-- A stored RRset; a provider may fail to report its TTL or its values. -/
structure RRset where
  ttl : Option Int
  values : Option (List Str)
deriving DecidableEq, Repr

/-- The stored RRset that a complete write leaves. -/
def RRset.full (ttl : Int) (values : List Str) : RRset := ⟨some ttl, some values⟩

/-! ## changes -/

/-- What a mutating request asks for, its values normalised. -/
inductive Verb where
  | create (ttl : Int) (values : List Str)
  | replace (ttl : Int) (values : List Str)
  | patch (ttl : Option Int) (values : Option (List Str))
  | delete
deriving DecidableEq, Repr

/-- A change of one RRset. -/
structure Change where
  name : Str
  type : RecordType
  verb : Verb
deriving DecidableEq, Repr

/-- What a client sees of an answer: the status and, unless the request
failed, the action and the values. -/
structure Outcome where
  httpStatus : Nat
  body : Option (Str × List Str)
deriving DecidableEq, Repr

/-- The outcome of a request that failed. -/
def Outcome.failed (httpStatus : Nat) : Outcome := ⟨httpStatus, none⟩

/-- The outcome with a body. -/
def Outcome.answered (httpStatus : Nat) (action : Str) (values : List Str) : Outcome :=
  ⟨httpStatus, some (action, values)⟩

/-- The action an outcome names. -/
def Outcome.action (out : Outcome) : Option Str := out.body.map Prod.fst

@[simp] theorem Outcome.action_failed (httpStatus : Nat) :
    (Outcome.failed httpStatus).action = none := rfl

@[simp] theorem Outcome.action_answered (httpStatus : Nat) (action : Str) (values : List Str) :
    (Outcome.answered httpStatus action values).action = some action := rfl

/-- The outcome says that an RRset was created. -/
def Outcome.IsCreated (out : Outcome) : Prop := out.action = some (lit "created")

/-- The outcome says that an RRset was updated. -/
def Outcome.IsUpdated (out : Outcome) : Prop := out.action = some (lit "updated")

instance (out : Outcome) : Decidable out.IsCreated := inferInstanceAs (Decidable (_ = _))

instance (out : Outcome) : Decidable out.IsUpdated := inferInstanceAs (Decidable (_ = _))

/-- The effect of a change on the RRset it is about. -/
def Change.onCell (c : Change) (cell : Option RRset) : Outcome × Option RRset :=
  match c.verb, cell with
  | .create ttl values, none => (.answered 200 (lit "created") values, some (.full ttl values))
  | .create _ values, some rr => (.answered 409 (lit "record_already_exists") values, some rr)
  | .replace _ values, none => (.answered 404 (lit "not_found") values, none)
  | .replace ttl values, some _ =>
      (.answered 200 (lit "updated") values, some (.full ttl values))
  | .patch _ values, none => (.answered 404 (lit "not_found") (values.getD []), none)
  | .patch ttl values, some ⟨some ttl', some (v :: vs)⟩ =>
      let merged := values.getD (v :: vs)
      (.answered 200 (lit "updated") merged, some (.full (ttl.getD ttl') merged))
  -- the stored RRset cannot be read in full, so nothing is merged into it
  | .patch _ _, some rr => (.failed 502, some rr)
  | .delete, none => (.answered 404 (lit "not_found") [], none)
  | .delete, some _ => (.answered 200 (lit "deleted") [], none)

/-! ## reading a request -/

/-- The public type a text names. -/
def publicType? (recordType : Str) : Option RecordType :=
  (RecordType.ofText? (upperType U recordType)).filter RecordType.isPublic

/-- An acceptable TTL. -/
def TtlOk (ttl : Int) : Prop := 0 ≤ ttl ∧ ttl ≤ maxTtl

instance (ttl : Int) : Decidable (TtlOk ttl) := inferInstanceAs (Decidable (_ ∧ _))

/-- The normalised values, or 400. -/
def readValues (t : RecordType) (values : List Str) : Except Nat (List Str) :=
  match normalizeRecordValues U t values with
  | .ok values => .ok values
  | .error _ => .error 400

/-- The trimmed record name, or 400 when it is blank. -/
def readName (recordName : Str) : Except Nat Str :=
  if strip recordName = [] then .error 400 else .ok (strip recordName)

/-- The TTL, or 400 when it is out of range. -/
def readTtl (ttl : Int) : Except Nat Int := if TtlOk ttl then .ok ttl else .error 400

/-- What a request asks for, or the status it is refused with before any
lookup. -/
def RecordRequest.read : RecordRequest → Except Nat Change
  | post ⟨_, .given recordType, .given recordName, ttl, .given (v :: vs)⟩ =>
      match publicType? U recordType with
      | none => .error 422
      | some t => do
          let name ← readName recordName
          -- a missing and a null TTL both stand for the default
          let ttl ← readTtl ((ttl.getOr (some 300)).getD 300)
          let values ← readValues U t (v :: vs)
          return ⟨name, t, .create ttl values⟩
  | put ⟨_, .given recordType, .given recordName, .given ttl, .given (v :: vs)⟩ =>
      match publicType? U recordType with
      | none => .error 422
      | some t => do
          let name ← readName recordName
          let ttl ← readTtl ttl
          let values ← readValues U t (v :: vs)
          return ⟨name, t, .replace ttl values⟩
  | patch ⟨_, .given recordType, .given recordName, ttl, values⟩ =>
      match publicType? U recordType, ttl.getOr none, values.getOr none with
      | none, _, _ | _, _, some [] | _, none, none => .error 422
      | some t, ttl, values => do
          let name ← readName recordName
          let ttl ← ttl.mapM readTtl
          let values ← values.mapM (readValues U t)
          return ⟨name, t, .patch ttl values⟩
  | delete (some _) (some recordName) (some recordType) =>
      match publicType? U recordType with
      | none => .error 400
      | some t => do
          let name ← readName recordName
          return ⟨name, t, .delete⟩
  | _ => .error 422

variable {U}

/-- A POST creates. -/
theorem verb_of_read_post {body : RecordBody} {ch : Change}
    (h : RecordRequest.read U (.post body) = .ok ch) : ∃ ttl values, ch.verb = .create ttl values := by
  unfold RecordRequest.read at h
  split at h
  · split at h
    · contradiction
    · obtain ⟨name, -, h⟩ := bind_eq_ok h
      obtain ⟨ttl, -, h⟩ := bind_eq_ok h
      obtain ⟨values, -, h⟩ := bind_eq_ok h
      rw [← Except.ok.inj h]
      exact ⟨_, _, rfl⟩
  all_goals contradiction

/-- A PATCH patches. -/
theorem verb_of_read_patch {body : RecordBody} {ch : Change}
    (h : RecordRequest.read U (.patch body) = .ok ch) : ∃ ttl values, ch.verb = .patch ttl values := by
  unfold RecordRequest.read at h
  split at h
  case h_3 =>
    split at h
    case h_4 =>
      obtain ⟨name, -, h⟩ := bind_eq_ok h
      obtain ⟨ttl, -, h⟩ := bind_eq_ok h
      obtain ⟨values, -, h⟩ := bind_eq_ok h
      rw [← Except.ok.inj h]
      exact ⟨_, _, rfl⟩
    all_goals contradiction
  all_goals contradiction

variable (U)

/-! ## the map -/

/-- RRsets by owner and type. -/
abbrev RecordMap (O : Type) := O → RecordType → Option RRset

/-- Change one RRset. -/
def RecordMap.set [DecidableEq O] (m : RecordMap O) (o : O) (t : RecordType) (rr : Option RRset) :
    RecordMap O :=
  fun o' t' => if o' = o ∧ t' = t then rr else m o' t'

/-- A cell that is set has its RRset. -/
@[simp] theorem RecordMap.set_self [DecidableEq O] (m : RecordMap O) (o : O) (t : RecordType)
    (rr : Option RRset) : m.set o t rr o t = rr := by
  simp [RecordMap.set]

/-- The other cells stay as they are. -/
theorem RecordMap.set_other [DecidableEq O] (m : RecordMap O) {o o' : O} {t t' : RecordType}
    (rr : Option RRset) (h : ¬(o' = o ∧ t' = t)) : m.set o t rr o' t' = m o' t' := by
  simp only [RecordMap.set, if_neg h]

/-- Setting a cell to itself changes nothing. -/
@[simp] theorem RecordMap.set_eq_self [DecidableEq O] (m : RecordMap O) (o : O) (t : RecordType) :
    m.set o t (m o t) = m := by
  funext o' t'
  by_cases h : o' = o ∧ t' = t
  · obtain ⟨ho, ht⟩ := h
    subst ho ht
    rw [RecordMap.set_self]
  · rw [RecordMap.set_other m _ h]

/-- The TTL a change supplies. -/
def Verb.ttl? : Verb → Option Int
  | create ttl _ | replace ttl _ => some ttl
  | patch ttl _ => ttl
  | delete => none

/-- The values a change supplies. -/
def Verb.values? : Verb → Option (List Str)
  | create _ values | replace _ values => some values
  | patch _ values => values
  | delete => none

/-- The RRset can be read in full, so that a PATCH can be merged into it. -/
def RRset.whole : RRset → Bool
  | ⟨some _, some (_ :: _)⟩ => true
  | _ => false

/-- A whole RRset has a TTL and a value. -/
theorem RRset.whole_iff {rr : RRset} :
    rr.whole = true ↔ ∃ ttl v vs, rr.ttl = some ttl ∧ rr.values = some (v :: vs) := by
  obtain ⟨ttl, values⟩ := rr
  rcases ttl with _ | ttl <;> rcases values with _ | _ | ⟨v, vs⟩ <;> simp [RRset.whole]

/-- What has been seen of an RRset still holds as far as the verb relies on it:
the RRset is there or it is not, and a PATCH finds the fields that it does not
supply as they were. -/
def Verb.Fits (verb : Verb) (seen now : Option RRset) : Prop :=
  match verb with
  | patch ttl values =>
      seen.map RRset.whole = now.map RRset.whole ∧
        (ttl = none → seen.bind RRset.ttl = now.bind RRset.ttl) ∧
        (values = none → seen.bind RRset.values = now.bind RRset.values)
  | _ => seen.isSome = now.isSome

instance (verb : Verb) (seen now : Option RRset) : Decidable (verb.Fits seen now) := by
  unfold Verb.Fits
  cases verb <;> exact inferInstance

/-- A PATCH that updates supplies a field or keeps it; else it changes
nothing. -/
theorem onCell_patch {ch : Change} {ttl : Option Int} {values : Option (List Str)}
    (hverb : ch.verb = .patch ttl values) (cell : Option RRset) :
    ((ch.onCell cell).1.IsUpdated ∧
      (ch.onCell cell).2.bind RRset.ttl = ttl.or (cell.bind RRset.ttl) ∧
      (ch.onCell cell).2.bind RRset.values = values.or (cell.bind RRset.values)) ∨
    (¬(ch.onCell cell).1.IsUpdated ∧ (ch.onCell cell).2 = cell) := by
  unfold Change.onCell
  rw [hverb]
  cases cell with
  | none =>
      right
      simp only [Outcome.IsUpdated, Outcome.action_answered, Option.some.injEq, and_true]
      decide
  | some rr =>
      obtain ⟨rttl, rvalues⟩ := rr
      cases rttl with
      | none => right; simp [Outcome.IsUpdated]
      | some ttl' =>
          cases rvalues with
          | none => right; simp [Outcome.IsUpdated]
          | some values' =>
              cases values' with
              | nil => right; simp [Outcome.IsUpdated]
              | cons v vs =>
                  left
                  cases ttl <;> cases values <;> simp [Outcome.IsUpdated, RRset.full]

/-- One request against the map; `owner` tells which owner a record name
denotes, and there is none while the configuration names no zone. -/
def RecordMap.step [DecidableEq O] (owner : Option (Str → O)) (r : RecordRequest)
    (m : RecordMap O) : Outcome × RecordMap O :=
  match r.read U, owner with
  | .error status, _ => (.failed status, m)
  | .ok _, none => (.failed 400, m)
  | .ok c, some owner =>
      let (outcome, cell) := c.onCell (m (owner c.name) c.type)
      (outcome, m.set (owner c.name) c.type cell)

end ApiToDns
