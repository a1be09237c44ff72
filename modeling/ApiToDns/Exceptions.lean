import ApiToDns.Py.Str
import Mathlib.Data.List.Forall2

/-!
# Exceptions

The exceptions of the record code and the HTTP errors they are answered
with (`http_utils.http_exception_from_dns_error`).
-/

namespace ApiToDns

open Py

/-- An exception, with its text.  `validationError` (pydantic) and
`patchMergeError` are subclasses of `ValueError`, `providerDisabled` is one
of `RuntimeError`. -/
inductive Exc where
  | valueError (msg : Str)
  | validationError (msg : Str)
  | patchMergeError (msg : Str)
  | providerDisabled (msg : Str)
  | runtimeError (msg : Str)
  | importError (msg : Str)
  | other (msg : Str)
deriving DecidableEq, Repr

/-- `isinstance(exc, ValueError)`. -/
def Exc.isValueError : Exc → Bool
  | .valueError _ | .validationError _ | .patchMergeError _ => true
  | _ => false

/-- The `detail` of an HTTP error. -/
inductive Detail where
  | text (s : Str)
  /-- `{"error": code, "message": message}` -/
  | error (code message : Str)
  /-- as `error`, the message being the redacted first line of the
  exception's text, or the fallback -/
  | sanitized (code : Str) (exc : Exc) (fallback : Str)
deriving DecidableEq, Repr

/-- `HTTPException`. -/
structure HttpError where
  status : Nat
  detail : Detail
deriving DecidableEq, Repr

/-- `http_exception_from_dns_error`. -/
def httpExceptionFromDnsError (exc : Exc) : HttpError :=
  if exc.isValueError then
    ⟨400, .sanitized (lit "invalid_request") exc (lit "invalid request")⟩
  else
    match exc with
    | .providerDisabled _ =>
        ⟨503, .sanitized (lit "provider_disabled") exc (lit "DNS provider is disabled")⟩
    | .runtimeError _ =>
        ⟨502, .sanitized (lit "dns_provider_failed") exc (lit "DNS provider request failed")⟩
    | .importError _ =>
        ⟨503, .sanitized (lit "dependency_unavailable") exc
          (lit "Required dependency is unavailable")⟩
    | _ =>
        ⟨500, .error (lit "unexpected")
          (lit "An unexpected error occurred while contacting the DNS provider")⟩

/-- An error of the record code is never answered as a missing or an
existing record. -/
theorem status_httpExceptionFromDnsError (exc : Exc) :
    (httpExceptionFromDnsError exc).status ∈ [400, 500, 502, 503] := by
  cases exc <;> simp [httpExceptionFromDnsError, Exc.isValueError]

/-! ## validation -/

@[simp] theorem ok_bind {ε : Type} (a : α) (f : α → Except ε β) :
    (Except.ok a >>= f) = f a := rfl

@[simp] theorem error_bind {ε : Type} (e : ε) (f : α → Except ε β) :
    (Except.error e >>= f) = Except.error e := rfl

/-- A sequence that succeeds succeeds in both parts. -/
theorem bind_eq_ok {ε : Type} {x : Except ε α} {f : α → Except ε β} {b : β}
    (h : x >>= f = .ok b) : ∃ a, x = .ok a ∧ f a = .ok b := by
  cases x with
  | ok a => exact ⟨a, rfl, h⟩
  | error e => contradiction

/-- A sequence succeeds if both parts do. -/
theorem bind_eq_ok_iff {ε : Type} {x : Except ε α} {f : α → Except ε β} {b : β} :
    x >>= f = .ok b ↔ ∃ a, x = .ok a ∧ f a = .ok b := by
  constructor
  · exact bind_eq_ok
  · intro h
    obtain ⟨a, ha, hb⟩ := h
    rw [ha]
    exact hb

/-- A result is a success, or nothing. -/
@[simp] theorem toOption_eq_some_iff {ε : Type} {x : Except ε α} {a : α} :
    x.toOption = some a ↔ x = .ok a := by
  cases x with
  | ok b => simp [Except.toOption]
  | error e => simp [Except.toOption]

/-- Validating a list succeeds with what validating each member gives. -/
theorem mapM_eq_ok_iff {ε : Type} {f : α → Except ε β} {as : List α} {bs : List β} :
    as.mapM f = .ok bs ↔ List.Forall₂ (fun a b => f a = .ok b) as bs := by
  induction as generalizing bs with
  | nil =>
      rw [List.mapM_nil, List.forall₂_nil_left_iff]
      constructor
      · intro h; exact (Except.ok.inj h).symm
      · intro h; rw [h]; rfl
  | cons a as ih =>
      rw [List.mapM_cons]
      cases ha : f a with
      | error e =>
          constructor
          · intro h; contradiction
          · intro h
            cases h with
            | cons hb _ => rw [ha] at hb; contradiction
      | ok b =>
          cases has : as.mapM f with
          | error e =>
              constructor
              · intro h; contradiction
              · intro h
                cases h with
                | cons _ hbs => rw [ih.mpr hbs] at has; contradiction
          | ok bs' =>
              constructor
              · intro h
                have hbs : b :: bs' = bs := Except.ok.inj h
                rw [← hbs]
                exact .cons ha (ih.mp has)
              · intro h
                cases h with
                | cons hb hbs =>
                    have heq := Except.ok.inj (ha.symm.trans hb)
                    have heqs := Except.ok.inj (has.symm.trans (ih.mpr hbs))
                    rw [heq, heqs]
                    rfl

/-- A list succeeds item by item. -/
theorem mapM_cons_eq_ok_iff {ε : Type} {f : α → Except ε β} {a : α} {as : List α} {bs : List β} :
    (a :: as).mapM f = .ok bs ↔ ∃ b bs', f a = .ok b ∧ as.mapM f = .ok bs' ∧ bs = b :: bs' := by
  rw [List.mapM_cons, bind_eq_ok_iff]
  simp only [bind_eq_ok_iff]
  constructor
  · intro h
    obtain ⟨b, hb, bs', hbs', heq⟩ := h
    exact ⟨b, bs', hb, hbs', (Except.ok.inj heq).symm⟩
  · intro h
    obtain ⟨b, bs', hb, hbs', heq⟩ := h
    exact ⟨b, hb, bs', hbs', by rw [heq]; rfl⟩

/-- What is done with a success. -/
theorem map_eq_ok_iff {ε : Type} {g : α → β} {x : Except ε α} {b : β} :
    g <$> x = .ok b ↔ ∃ a, x = .ok a ∧ g a = b := by
  cases x <;> simp

/-- Validating with `g` after `f` is `g` after validating with `f`. -/
theorem mapM_map_eq {ε : Type} {f : α → Except ε β} {g : β → γ} {as : List α} :
    as.mapM (fun a => g <$> f a) = List.map g <$> as.mapM f := by
  induction as with
  | nil => rfl
  | cons a as ih =>
      rw [List.mapM_cons, List.mapM_cons, ih]
      cases f a with
      | error e => rfl
      | ok b => cases as.mapM f <;> rfl

/-- Each result comes from a member of the list. -/
theorem mem_of_mapM_eq_ok {ε : Type} {f : α → Except ε β} {as : List α} {bs : List β} {b : β}
    (h : as.mapM f = .ok bs) (hb : b ∈ bs) : ∃ a ∈ as, f a = .ok b := by
  have hall := mapM_eq_ok_iff.mp h
  induction hall with
  | nil => contradiction
  | @cons a b' as bs ha hrest ih =>
      cases List.mem_cons.mp hb with
      | inl hb => exact ⟨a, List.mem_cons_self .., hb ▸ ha⟩
      | inr hb =>
          obtain ⟨a', hmem, ha'⟩ := ih (mapM_eq_ok_iff.mpr hrest) hb
          exact ⟨a', List.mem_cons_of_mem a hmem, ha'⟩

/-- Each member of the list has a result. -/
theorem exists_of_mapM_eq_ok {ε : Type} {f : α → Except ε β} {as : List α} {bs : List β} {a : α}
    (h : as.mapM f = .ok bs) (ha : a ∈ as) : ∃ b ∈ bs, f a = .ok b := by
  have hall := mapM_eq_ok_iff.mp h
  clear h
  induction hall with
  | nil => contradiction
  | @cons a' b as bs hb _ ih =>
      cases List.mem_cons.mp ha with
      | inl ha => exact ⟨b, by simp, by rw [ha]; exact hb⟩
      | inr ha =>
          obtain ⟨b', hmem, hb'⟩ := ih ha
          exact ⟨b', by simp [hmem], hb'⟩

/-- A list can be validated if each of its members can. -/
theorem exists_mapM_eq_ok_iff {ε : Type} {f : α → Except ε β} {as : List α} :
    (∃ bs, as.mapM f = .ok bs) ↔ ∀ a ∈ as, ∃ b, f a = .ok b := by
  constructor
  · intro h a ha
    obtain ⟨bs, hbs⟩ := h
    obtain ⟨b, -, hb⟩ := exists_of_mapM_eq_ok hbs ha
    exact ⟨b, hb⟩
  · intro h
    induction as with
    | nil => exact ⟨[], rfl⟩
    | cons a as ih =>
        obtain ⟨hhead, htail⟩ := List.forall_mem_cons.mp h
        obtain ⟨b, hb⟩ := hhead
        obtain ⟨bs, hbs⟩ := ih htail
        exact ⟨b :: bs, mapM_cons_eq_ok_iff.mpr ⟨b, bs, hb, hbs, rfl⟩⟩

/-- What each result shares with its member the lists share. -/
theorem map_eq_of_mapM_eq_ok {ε : Type} {f : α → Except ε β} {as : List α} {bs : List β}
    {g : α → γ} {g' : β → γ} (h : as.mapM f = .ok bs)
    (hg : ∀ a ∈ as, ∀ b, f a = .ok b → g' b = g a) : bs.map g' = as.map g := by
  have hall := mapM_eq_ok_iff.mp h
  clear h
  induction hall with
  | nil => rfl
  | @cons a b as bs hb _ ih =>
      rw [List.map_cons, List.map_cons, hg a (by simp) b hb, ih fun a ha => hg a (by simp [ha])]

/-- A list that can be encoded is decoded to itself exactly if each of its
members is. -/
theorem mapM_round_trip_iff {ε : Type} {encode : α → Except ε β} {decode : β → Except ε α}
    {as : List α} :
    (∃ bs, as.mapM encode = .ok bs ∧ bs.mapM decode = .ok as) ↔
      ∀ a ∈ as, ∃ b, encode a = .ok b ∧ decode b = .ok a := by
  induction as with
  | nil =>
      constructor
      · intro _ a ha
        contradiction
      · intro _
        exact ⟨[], rfl, rfl⟩
  | cons a as ih =>
      rw [List.forall_mem_cons, ← ih]
      simp only [mapM_cons_eq_ok_iff]
      constructor
      · rintro ⟨bs, ⟨b, bs', hb, hbs', rfl⟩, hdecode⟩
        obtain ⟨a', as', ha', has', heq⟩ := mapM_cons_eq_ok_iff.mp hdecode
        obtain ⟨rfl, rfl⟩ := List.cons.inj heq
        exact ⟨⟨b, hb, ha'⟩, bs', hbs', has'⟩
      · rintro ⟨⟨b, hb, ha⟩, bs', hbs', has⟩
        exact ⟨b :: bs', ⟨b, bs', hb, hbs', rfl⟩, mapM_cons_eq_ok_iff.mpr ⟨a, as, ha, has, rfl⟩⟩

/-- The code raises nothing but `ValueError`s. -/
def RaisesValueError (x : Except Exc α) : Prop := ∀ exc, x = .error exc → exc.isValueError = true

namespace RaisesValueError

/-- A success raises nothing. -/
theorem ok (a : α) : RaisesValueError (.ok a : Except Exc α) := by
  intro exc h
  contradiction

/-- A pure value raises nothing. -/
theorem pure (a : α) : RaisesValueError (Pure.pure a : Except Exc α) := ok a

/-- A value error is one. -/
theorem error {exc : Exc} (h : exc.isValueError = true) :
    RaisesValueError (.error exc : Except Exc α) := by
  intro exc' h'
  rw [← Except.error.inj h']
  exact h

/-- Two parts that raise value errors only. -/
theorem bind {x : Except Exc α} {f : α → Except Exc β} (hx : RaisesValueError x)
    (hf : ∀ a, RaisesValueError (f a)) : RaisesValueError (x >>= f) := by
  cases x with
  | error exc => exact error (hx exc rfl)
  | ok a => exact hf a

/-- Two branches that raise value errors only. -/
theorem ite {p : Prop} [Decidable p] {x y : Except Exc α} (hx : RaisesValueError x)
    (hy : RaisesValueError y) : RaisesValueError (if p then x else y) := by
  by_cases h : p
  · rw [if_pos h]; exact hx
  · rw [if_neg h]; exact hy

/-- A list whose items raise value errors only. -/
theorem mapM {f : α → Except Exc β} (hf : ∀ a, RaisesValueError (f a)) (as : List α) :
    RaisesValueError (as.mapM f) := by
  induction as with
  | nil => exact pure []
  | cons a as ih =>
      rw [List.mapM_cons]
      exact bind (hf a) fun b => bind ih fun bs => pure (b :: bs)

end RaisesValueError

end ApiToDns
