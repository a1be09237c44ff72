import ApiToDns.Platform
import Mathlib.Data.List.Find
import Mathlib.Data.Set.Operations

/-!
# KeyMigration

API keys at rest: how a key is made, hashed and looked up (`security.py`,
`zone_service.py`), and the start-up migration that hashes the keys that are
still stored as they were handed out (`db.py`).

* `isApiKeyHash` — how the migration tells a digest from a key;
* `migrateHashPlaintextApiKeys` — the migration;
* `MixedKeys` — tables with keys of both kinds;
* `migration_keeps_keys` — what the migration leaves of such a table.
-/

namespace ApiToDns.KeyMigration

open Py

/-! ## keys and digests -/

/-- What the standard library computes. -/
structure Hashing where
  ucd : Ucd
  sha256 : List UInt8 → Vector UInt8 32

/-- The alphabet of `urlsafe_b64encode`. -/
def urlSafe (c : Char) : Char :=
  if c = '+' then '-' else if c = '/' then '_' else c

/-- `generate_api_key`, from the random bytes of `secrets`. -/
def generateApiKey (token : Vector UInt8 32) : Str :=
  ((Base64.encode token.toList).map urlSafe).rdropWhile (· == '=')

def isUrlSafe (c : Char) : Bool := c.isAlphanum || c = '-' || c = '_'

/-- The keys that are handed out. -/
def IsRawKey (key : Str) : Prop := key.length = 43 ∧ ∀ c ∈ key, isUrlSafe c = true

instance (key : Str) : Decidable (IsRawKey key) :=
  inferInstanceAs (Decidable (key.length = 43 ∧ ∀ c ∈ key, isUrlSafe c = true))

/-- The two digits of a byte in `hexdigest()`. -/
def hexOfByte (b : UInt8) : Str := [Nat.digitChar (b.toNat / 16), Nat.digitChar (b.toNat % 16)]

/-- `hexdigest()`. -/
def hexdigest (digest : Vector UInt8 32) : Str := digest.toList.flatMap hexOfByte

/-- `api_key_prefix`. -/
def apiKeyPrefix (rawKey : Str) : Str := rawKey.take 12

section Digests

variable (H : Hashing)

/-- `hash_api_key`. -/
def hashApiKey (rawKey : Str) : Str := hexdigest (H.sha256 (Utf8.encode rawKey))

/-- A digit in base 16; `int` knows the decimal digits of every script. -/
def isHexDigit (c : Char) : Bool :=
  (H.ucd.decimal c).isSome || ('a' ≤ c && c ≤ 'f') || ('A' ≤ c && c ≤ 'F')

/-- Digits with single underscores between them; `prev` tells whether a digit
stands to the left. -/
def isHexRun (prev : Bool) : Str → Bool
  | [] => prev
  | '_' :: cs => prev && isHexRun false cs
  | c :: cs => isHexDigit H c && isHexRun true cs

/-- What follows the sign: `0x` may stand before the digits, and an underscore
after it. -/
def isHexNumeral : Str → Bool
  | z :: x :: ds =>
      if H.ucd.decimal z = some 0 ∧ (x = 'x' ∨ x = 'X') then
        match ds with
        | '_' :: ds => isHexRun H false ds
        | ds => isHexRun H false ds
      else isHexRun H false (z :: x :: ds)
  | ds => isHexRun H false ds

/-- `int(s, 16)` raises nothing. -/
def isHexInt (s : Str) : Bool :=
  match strip s with
  | '+' :: ds | '-' :: ds => isHexNumeral H ds
  | ds => isHexNumeral H ds

/-- `is_api_key_hash`. -/
def isApiKeyHash (value : Str) : Bool := value.length = 64 && isHexInt H value

/-- `get_api_key`. -/
def getApiKey (keys : Table ApiKey) (apiKey : Str) : Option (Row ApiKey) :=
  keys.rows.find? fun row => row.val.key = hashApiKey H apiKey && row.val.active

/-! ## the migration -/

/-- What the migration writes into a row, if anything. -/
def rehashed (row : Row ApiKey) : Option ApiKey :=
  if isApiKeyHash H row.val.key then
    if strip (row.val.keyPrefix.getD []) = [] then
      some { row.val with keyPrefix := some (lit "hashed") }
    else none
  else
    some
      { row.val with
        keyPrefix := some (apiKeyPrefix row.val.key)
        key := hashApiKey H row.val.key }

/-- `_migrate_hash_plaintext_api_keys`: the rows are written when it commits. -/
def migrateHashPlaintextApiKeys (keys : Table ApiKey) : Except Exc (Table ApiKey) :=
  match keys.setAll (rehashed H) with
  | some keys => .ok keys
  | none => .error integrityError

end Digests

/-! ## the shape of keys and digests -/

set_option maxRecDepth 2000 in
/-- The digits of a key are URL-safe. -/
theorem isUrlSafe_digit {n : Nat} (h : n < 64) :
    isUrlSafe (urlSafe (Base64.digit n)) = true ∧ urlSafe (Base64.digit n) ≠ '=' := by
  have hall : ∀ i : Fin 64, isUrlSafe (urlSafe (Base64.digit i)) = true ∧
      urlSafe (Base64.digit i) ≠ '=' := by decide
  exact hall ⟨n, h⟩

/-- A generated key has 43 URL-safe characters. -/
theorem isRawKey_generateApiKey (token : Vector UInt8 32) : IsRawKey (generateApiKey token) := by
  have hlen : token.toList.length = 32 := by simp
  have hrem : token.toList.length % 3 = 2 := by omega
  obtain ⟨s, hs, hdigits⟩ := Base64.exists_encode_eq_concat_pad hrem
  have hsafe : ∀ c ∈ s.map urlSafe, isUrlSafe c = true ∧ c ≠ '=' := by
    intro c hc
    obtain ⟨d, hd, rfl⟩ := List.mem_map.mp hc
    obtain ⟨n, hn, rfl⟩ := hdigits d hd
    exact isUrlSafe_digit hn
  have hkey : generateApiKey token = s.map urlSafe := by
    rw [generateApiKey, hs, List.map_append, List.map_singleton,
      List.rdropWhile_concat_pos _ _ _ (by decide), List.rdropWhile_eq_self_iff]
    intro hne
    simpa using (hsafe _ (List.getLast_mem hne)).2
  have hcount := Base64.length_encode token.toList
  rw [hs, List.length_append, hlen] at hcount
  rw [hkey]
  refine ⟨?_, fun c hc => (hsafe c hc).1⟩
  simp at hcount ⊢
  omega

/-- None of them is whitespace. -/
theorem isSpace_of_isUrlSafe {c : Char} (h : isUrlSafe c = true) : isSpace c = false := by
  simp only [isUrlSafe, Bool.or_eq_true, Char.isAlphanum, decide_eq_true_eq] at h
  rcases h with ((h | h) | rfl) | rfl
  · have hrange := (isAlpha_iff c).mp h
    simp only [isSpace, Bool.or_eq_false_iff, Bool.and_eq_false_iff, decide_eq_false_iff_not,
      beq_eq_false_iff_ne]
    omega
  · exact isSpace_of_isDigit h
  · decide
  · decide

/-- A digest has 64 characters. -/
theorem length_hexdigest (digest : Vector UInt8 32) : (hexdigest digest).length = 64 := by
  simp [hexdigest, hexOfByte, List.length_flatMap]

/-- They are hexadecimal digits. -/
theorem mem_hexdigest {digest : Vector UInt8 32} {c : Char} (h : c ∈ hexdigest digest) :
    ∃ d < 16, c = Nat.digitChar d := by
  obtain ⟨b, -, hc⟩ := List.mem_flatMap.mp h
  have hb := b.toNat_lt
  simp only [hexOfByte, List.mem_cons, List.not_mem_nil, or_false] at hc
  rcases hc with rfl | rfl
  · exact ⟨_, by omega, rfl⟩
  · exact ⟨_, by omega, rfl⟩

section Digests

variable {H : Hashing}

/-- So is the hash of a key. -/
theorem length_hashApiKey (rawKey : Str) : (hashApiKey H rawKey).length = 64 := length_hexdigest _

/-- A hash is no raw key. -/
theorem not_isRawKey_hashApiKey (rawKey : Str) : ¬IsRawKey (hashApiKey H rawKey) := by
  intro h
  have hlen := h.1
  rw [length_hashApiKey] at hlen
  contradiction

/-- A hexadecimal digit is one to the code. -/
theorem isHexDigit_digitChar {d : Nat} (h : d < 16) : isHexDigit H (Nat.digitChar d) = true := by
  by_cases hdec : d < 10
  · have hdigit : (Nat.digitChar d).isDigit = true := by simp [Nat.isDigit_digitChar, hdec]
    simp [isHexDigit, H.ucd.decimal_of_isDigit hdigit]
  · have hletter : ∀ d : Fin 16, 10 ≤ d.val →
        'a' ≤ Nat.digitChar d ∧ Nat.digitChar d ≤ 'f' := by decide
    have := hletter ⟨d, h⟩ (by simpa using hdec)
    simp [isHexDigit, this]

/-- Hexadecimal digits are a run of them. -/
theorem isHexRun_digits {s : Str} (h : ∀ c ∈ s, ∃ d < 16, c = Nat.digitChar d) {prev : Bool}
    (hne : prev = true ∨ s ≠ []) : isHexRun H prev s = true := by
  induction s generalizing prev with
  | nil => simpa [isHexRun] using hne
  | cons c cs ih =>
      obtain ⟨d, hd, rfl⟩ := h c (by simp)
      have hrest : isHexRun H true cs = true := ih (fun c hc => h c (by simp [hc])) (.inl rfl)
      have hund : Nat.digitChar d ≠ '_' := by
        have : ∀ d : Fin 16, Nat.digitChar d ≠ '_' := by decide
        exact this ⟨d, hd⟩
      unfold isHexRun
      split
      · next heq => exact absurd heq (by simp)
      · next heq => exact absurd (List.cons.inj heq).1 hund
      · next heq =>
          obtain ⟨rfl, rfl⟩ := List.cons.inj heq
          simp [isHexDigit_digitChar hd, hrest]

/-- A digest is told from a key. -/
theorem isApiKeyHash_hashApiKey (rawKey : Str) : isApiKeyHash H (hashApiKey H rawKey) = true := by
  have hmem : ∀ c ∈ hashApiKey H rawKey, ∃ d < 16, c = Nat.digitChar d := fun c hc =>
    mem_hexdigest hc
  have hclear : ∀ d : Fin 16, isSpace (Nat.digitChar d) = false ∧ Nat.digitChar d ≠ '+' ∧
      Nat.digitChar d ≠ '-' ∧ Nat.digitChar d ≠ 'x' ∧ Nat.digitChar d ≠ 'X' := by decide
  have hchar : ∀ c ∈ hashApiKey H rawKey, isSpace c = false ∧ c ≠ '+' ∧ c ≠ '-' ∧ c ≠ 'x' ∧
      c ≠ 'X' := by
    intro c hc
    obtain ⟨d, hd, rfl⟩ := hmem c hc
    exact hclear ⟨d, hd⟩
  have hne : hashApiKey H rawKey ≠ [] := by
    intro hnil
    have hlen := length_hashApiKey (H := H) rawKey
    rw [hnil] at hlen
    contradiction
  have hrun : isHexRun H false (hashApiKey H rawKey) = true := isHexRun_digits hmem (.inr hne)
  have hnumeral : isHexNumeral H (hashApiKey H rawKey) = true := by
    unfold isHexNumeral
    split
    · next z x ds heq =>
        have hx := hchar x (by simp [heq])
        rw [if_neg (by simp [hx]), ← heq]
        exact hrun
    · exact hrun
  have hstrip : strip (hashApiKey H rawKey) = hashApiKey H rawKey :=
    strip_of_no_space fun c hc => (hchar c hc).1
  have hint : isHexInt H (hashApiKey H rawKey) = true := by
    unfold isHexInt
    rw [hstrip]
    split
    · next heq => exact absurd rfl (hchar '+' (by simp [heq])).2.1
    · next heq => exact absurd rfl (hchar '-' (by simp [heq])).2.2.1
    · exact hnumeral
  simp [isApiKeyHash, length_hashApiKey, hint]

/-- A key is not taken for a digest. -/
theorem not_isApiKeyHash_of_isRawKey {key : Str} (h : IsRawKey key) :
    isApiKeyHash H key = false := by
  simp [isApiKeyHash, h.1]

/-- The prefix of a raw key is not blank. -/
theorem strip_apiKeyPrefix_ne_nil {key : Str} (h : IsRawKey key) : strip (apiKeyPrefix key) ≠ [] := by
  have hsafe : ∀ c ∈ apiKeyPrefix key, isSpace c = false := fun c hc =>
    isSpace_of_isUrlSafe (h.2 c (List.mem_of_mem_take hc))
  rw [strip_of_no_space hsafe]
  intro hnil
  have hlen : (apiKeyPrefix key).length = 12 := by simp [apiKeyPrefix, h.1]
  rw [hnil] at hlen
  contradiction

end Digests

/-! ## tables with keys of both kinds -/

/-- Every row stores its raw key, as it was handed out or as its digest;
`rawKey` tells the raw key by the rowid. -/
structure MixedKeys (H : Hashing) (keys : Table ApiKey) (rawKey : Nat → Str) : Prop where
  raw : ∀ row ∈ keys.rows, IsRawKey (rawKey row.id)
  stored : ∀ row ∈ keys.rows,
    row.val.key = rawKey row.id ∨ row.val.key = hashApiKey H (rawKey row.id)
  distinct : ∀ r ∈ keys.rows, ∀ s ∈ keys.rows, rawKey r.id = rawKey s.id → r = s

/-- SHA-256 tells the texts of `S` apart, and `S` has the raw keys and their
digests. -/
structure Separates (H : Hashing) (keys : Table ApiKey) (rawKey : Nat → Str) (S : Set Str) :
    Prop where
  raw_mem : ∀ row ∈ keys.rows, rawKey row.id ∈ S
  digest_mem : ∀ row ∈ keys.rows, hashApiKey H (rawKey row.id) ∈ S
  injective : Set.InjOn (hashApiKey H) S

/-- The active row that a presented text belongs to before the migration, by
equality or by its digest. -/
def authenticated (H : Hashing) (keys : Table ApiKey) (presented : Str) : Option (Row ApiKey) :=
  keys.rows.find? fun row =>
    (row.val.key = presented || row.val.key = hashApiKey H presented) && row.val.active

/-- A row, whatever it stores of its key. -/
def withoutKey (row : Row ApiKey) : Row ApiKey :=
  ⟨row.id, { row.val with key := [], keyPrefix := none }⟩

section Migration

variable {H : Hashing} {keys : Table ApiKey} {rawKey : Nat → Str} {S : Set Str}

/-- What the migration makes of a row. -/
theorem rehashed_eq_some {row : Row ApiKey} {v : ApiKey} (h : rehashed H row = some v) :
    (isApiKeyHash H row.val.key = true ∧
      v = { row.val with keyPrefix := some (lit "hashed") }) ∨
    (isApiKeyHash H row.val.key = false ∧
      v = { row.val with
            keyPrefix := some (apiKeyPrefix row.val.key)
            key := hashApiKey H row.val.key }) := by
  unfold rehashed at h
  cases hhash : isApiKeyHash H row.val.key with
  | true =>
      rw [if_pos hhash] at h
      split at h
      · exact .inl ⟨rfl, (Option.some.inj h).symm⟩
      · contradiction
  | false =>
      rw [if_neg (by simp [hhash])] at h
      exact .inr ⟨rfl, (Option.some.inj h).symm⟩

/-- It changes the key and its prefix only. -/
theorem withoutKey_changed (row : Row ApiKey) :
    withoutKey (Table.changed (rehashed H) row) = withoutKey row := by
  unfold Table.changed withoutKey
  cases h : rehashed H row with
  | none => rfl
  | some v => rcases rehashed_eq_some h with ⟨-, rfl⟩ | ⟨-, rfl⟩ <;> rfl

/-- After the migration every row stores the digest of its raw key. -/
theorem MixedKeys.key_changed (h : MixedKeys H keys rawKey) {row : Row ApiKey}
    (hrow : row ∈ keys.rows) :
    (Table.changed (rehashed H) row).val.key = hashApiKey H (rawKey row.id) := by
  have hraw := not_isApiKeyHash_of_isRawKey (H := H) (h.raw row hrow)
  have hdigest := isApiKeyHash_hashApiKey (H := H) (rawKey row.id)
  unfold Table.changed
  rcases h.stored row hrow with hkey | hkey
  · simp [rehashed, hkey, hraw]
  · by_cases hblank : strip (row.val.keyPrefix.getD []) = []
    · simp [rehashed, hkey, hdigest, hblank]
    · simp [rehashed, hkey, hdigest, hblank]

/-- What is shown of the key is not blank after the migration. -/
theorem MixedKeys.prefix_changed (h : MixedKeys H keys rawKey) {row : Row ApiKey}
    (hrow : row ∈ keys.rows) :
    strip ((Table.changed (rehashed H) row).val.keyPrefix.getD []) ≠ [] := by
  have hraw := not_isApiKeyHash_of_isRawKey (H := H) (h.raw row hrow)
  have hdigest := isApiKeyHash_hashApiKey (H := H) (rawKey row.id)
  unfold Table.changed
  rcases h.stored row hrow with hkey | hkey
  · simp [rehashed, hkey, hraw, strip_apiKeyPrefix_ne_nil (h.raw row hrow)]
  · by_cases hblank : strip (row.val.keyPrefix.getD []) = []
    · have hmarker : strip (lit "hashed") ≠ [] := by decide
      simp [rehashed, hkey, hdigest, hblank, hmarker]
    · simp [rehashed, hkey, hdigest, hblank]

/-- A hash that separates the keys tells them from other texts. -/
theorem Separates.hash_inj (hS : Separates H keys rawKey S) {row : Row ApiKey}
    (hrow : row ∈ keys.rows) {s : Str} (hs : s ∈ S) :
    hashApiKey H (rawKey row.id) = hashApiKey H s ↔ rawKey row.id = s :=
  ⟨fun heq => hS.injective (hS.raw_mem row hrow) hs heq, fun heq => heq ▸ rfl⟩

/-- The new digests clash with no key. -/
theorem MixedKeys.apart (h : MixedKeys H keys rawKey) (hS : Separates H keys rawKey S)
    {r s : Row ApiKey} (hr : r ∈ keys.rows) (hs : s ∈ keys.rows) (hne : r ≠ s) :
    Table.Apart (rehashed H) r s := by
  intro v hv k hk
  have hdigest : hashApiKey H (rawKey r.id) ≠ hashApiKey H (rawKey s.id) := fun heq =>
    hne (h.distinct r hr s hs ((hS.hash_inj hr (hS.raw_mem s hs)).mp heq))
  have hk' : k = hashApiKey H (rawKey r.id) := by
    have hval : (Table.changed (rehashed H) r).val = v := by
      rw [Table.changed, Option.mem_def.mp hv, Option.getD_some]
    rw [← h.key_changed hr, hval]
    exact (Option.some.inj hk).symm
  constructor
  · intro hsk
    have hkey : s.val.key = k := Option.some.inj hsk
    rcases h.stored s hs with hstored | hstored
    · exact not_isRawKey_hashApiKey (H := H) (rawKey r.id)
        (by rw [← hk', ← hkey, hstored]; exact h.raw s hs)
    · exact hdigest (by rw [← hk', ← hkey, hstored])
  · intro hsk
    have hkey : (Table.changed (rehashed H) s).val.key = k := Option.some.inj hsk
    exact hdigest (by rw [← hk', ← hkey, h.key_changed hs])

/-- The migration goes through. -/
theorem MixedKeys.migrated (h : MixedKeys H keys rawKey) (hS : Separates H keys rawKey S) :
    ∃ keys', migrateHashPlaintextApiKeys H keys = .ok keys' ∧
      keys'.rows = keys.rows.map (Table.changed (rehashed H)) := by
  obtain ⟨keys', hset, hrows⟩ := Table.setAll_of_apart fun r hr s hs hne => h.apart hS hr hs hne
  exact ⟨keys', by rw [migrateHashPlaintextApiKeys, hset], hrows⟩

/-- Looked up by its digest, a raw key belongs to the row it belonged to. -/
theorem MixedKeys.getApiKey_eq (h : MixedKeys H keys rawKey) (hS : Separates H keys rawKey S)
    {keys' : Table ApiKey} (hrows : keys'.rows = keys.rows.map (Table.changed (rehashed H)))
    {presented : Str} (hmem : presented ∈ S) (hraw : IsRawKey presented) :
    (getApiKey H keys' presented).map withoutKey =
      (authenticated H keys presented).map withoutKey := by
  have hsame : ∀ row ∈ keys.rows,
      ((Table.changed (rehashed H) row).val.key = hashApiKey H presented) ↔
        (row.val.key = presented ∨ row.val.key = hashApiKey H presented) := by
    intro row hrow
    rw [h.key_changed hrow, hS.hash_inj hrow hmem]
    rcases h.stored row hrow with hkey | hkey
    · have hne : rawKey row.id ≠ hashApiKey H presented := fun heq =>
        not_isRawKey_hashApiKey (H := H) presented (heq ▸ h.raw row hrow)
      simp [hkey, hne]
    · have hne : hashApiKey H (rawKey row.id) ≠ presented := fun heq =>
        not_isRawKey_hashApiKey (H := H) (rawKey row.id) (heq ▸ hraw)
      simp [hkey, hne, hS.hash_inj hrow hmem]
  have hactive : ∀ row : Row ApiKey,
      (Table.changed (rehashed H) row).val.active = row.val.active := by
    intro row
    have hwithout := withoutKey_changed (H := H) row
    have hactive := congrArg (fun row : Row ApiKey => row.val.active) hwithout
    exact hactive
  have hfind : keys.rows.find? ((fun row => row.val.key = hashApiKey H presented &&
      row.val.active) ∘ Table.changed (rehashed H)) = authenticated H keys presented := by
    unfold authenticated
    refine List.find?_congr fun row hrow => ?_
    simp [hactive, hsame row hrow]
  rw [getApiKey, hrows, List.find?_map, hfind, Option.map_map]
  exact congrFun (congrArg Option.map (funext withoutKey_changed)) _

/-- What a row stores authenticates nothing. -/
theorem MixedKeys.getApiKey_stored (h : MixedKeys H keys rawKey)
    (hS : Separates H keys rawKey S) {keys' : Table ApiKey}
    (hrows : keys'.rows = keys.rows.map (Table.changed (rehashed H))) {row : Row ApiKey}
    (hrow : row ∈ keys'.rows) : getApiKey H keys' row.val.key = none := by
  rw [hrows] at hrow
  obtain ⟨r, hr, rfl⟩ := List.mem_map.mp hrow
  rw [getApiKey, hrows, List.find?_eq_none, h.key_changed hr]
  intro s' hs'
  obtain ⟨s, hs, rfl⟩ := List.mem_map.mp hs'
  rw [h.key_changed hs]
  intro heq
  simp only [Bool.and_eq_true, decide_eq_true_eq] at heq
  have hraw := (hS.hash_inj hs (hS.digest_mem r hr)).mp heq.1
  exact not_isRawKey_hashApiKey (H := H) (rawKey r.id) (hraw ▸ h.raw s hs)

/-- A second run changes no row. -/
theorem MixedKeys.migrated_again (h : MixedKeys H keys rawKey) {keys' : Table ApiKey}
    (hrows : keys'.rows = keys.rows.map (Table.changed (rehashed H))) :
    migrateHashPlaintextApiKeys H keys' = .ok keys' := by
  have hnone : ∀ row ∈ keys'.rows, rehashed H row = none := by
    intro row hrow
    rw [hrows] at hrow
    obtain ⟨r, hr, rfl⟩ := List.mem_map.mp hrow
    rw [rehashed, h.key_changed hr, if_pos (isApiKeyHash_hashApiKey _),
      if_neg (h.prefix_changed hr)]
  rw [migrateHashPlaintextApiKeys, Table.setAll_of_none hnone]

/-- The migration keeps the keys working: a raw key authenticates the row it
authenticated, no row holds a raw key, what is stored authenticates nothing,
and a second run changes no row. -/
theorem migration_keeps_keys (hmixed : MixedKeys H keys rawKey)
    (hsep : Separates H keys rawKey S) :
    ∃ keys', migrateHashPlaintextApiKeys H keys = .ok keys' ∧
      (∀ presented ∈ S, IsRawKey presented →
        (getApiKey H keys' presented).map withoutKey =
          (authenticated H keys presented).map withoutKey) ∧
      (∀ row ∈ keys'.rows, ¬IsRawKey row.val.key) ∧
      (∀ row ∈ keys'.rows, getApiKey H keys' row.val.key = none) ∧
      migrateHashPlaintextApiKeys H keys' = .ok keys' := by
  obtain ⟨keys', hok, hrows⟩ := hmixed.migrated hsep
  refine ⟨keys', hok, fun presented hmem hraw => hmixed.getApiKey_eq hsep hrows hmem hraw, ?_,
    fun row hrow => hmixed.getApiKey_stored hsep hrows hrow, hmixed.migrated_again hrows⟩
  intro row hrow
  rw [hrows] at hrow
  obtain ⟨r, hr, rfl⟩ := List.mem_map.mp hrow
  rw [hmixed.key_changed hr]
  exact not_isRawKey_hashApiKey _

end Migration

/-! ## an installation with a key of each kind -/

def plainKey : Str := lit "AAECAwQFBgcICQoLDA0ODxAREhMUFRYXGBkaGxwdHh8"

def hashedKey : Str := lit "ICEiIyQlJicoKSorLC0uLzAxMjM0NTY3ODk6Ozw9Pj8"

def plainDigest : Str := lit "ea866a757e4c38babfa8127cbe9a409d3e1f93a00ff1488ff735fcf917afffd0"

def hashedDigest : Str := lit "cf0931e168b49e987503caf18af6fe253b6b3d82a81008c3e8e1ee67c7c8dc55"

/-- SHA-256 on the keys and the digests. -/
def twoKeys : Hashing where
  ucd := .ascii
  sha256 bs :=
    if bs = Utf8.encode plainKey then
      #v[0xEA, 0x86, 0x6A, 0x75, 0x7E, 0x4C, 0x38, 0xBA, 0xBF, 0xA8, 0x12, 0x7C, 0xBE, 0x9A, 0x40, 0x9D,
        0x3E, 0x1F, 0x93, 0xA0, 0x0F, 0xF1, 0x48, 0x8F, 0xF7, 0x35, 0xFC, 0xF9, 0x17, 0xAF, 0xFF, 0xD0]
    else if bs = Utf8.encode hashedKey then
      #v[0xCF, 0x09, 0x31, 0xE1, 0x68, 0xB4, 0x9E, 0x98, 0x75, 0x03, 0xCA, 0xF1, 0x8A, 0xF6, 0xFE, 0x25,
        0x3B, 0x6B, 0x3D, 0x82, 0xA8, 0x10, 0x08, 0xC3, 0xE8, 0xE1, 0xEE, 0x67, 0xC7, 0xC8, 0xDC, 0x55]
    else if bs = Utf8.encode plainDigest then
      #v[0x05, 0x0D, 0x5B, 0xEE, 0x93, 0xD6, 0xB5, 0x96, 0xA9, 0xC9, 0xD9, 0x6E, 0xCE, 0xC3, 0x16, 0x2A,
        0x36, 0x65, 0x71, 0x90, 0x70, 0xCF, 0x29, 0x37, 0xBE, 0xBD, 0x03, 0xAA, 0x42, 0x7A, 0x1D, 0x4B]
    else
      #v[0x70, 0x72, 0x57, 0x1C, 0x4D, 0x36, 0x52, 0x15, 0x1B, 0xA6, 0x93, 0xAE, 0xF8, 0x4E, 0x41, 0x46,
        0xA6, 0xA9, 0x3B, 0x90, 0x22, 0x7B, 0x7F, 0xD0, 0x1D, 0x7D, 0x3E, 0x2D, 0x21, 0x32, 0xB2, 0xF7]

def rawKeyOf (id : Nat) : Str := if id = 1 then plainKey else hashedKey

/-- The first key is stored as it was handed out, the second one as its digest. -/
def oldKeys : Table ApiKey :=
  .ofList
    [ ⟨lit "old", plainKey, some [], apiKeyAccessReadWrite, true, ⟨lit "2024-01-01T00:00:00"⟩⟩,
      ⟨lit "new", hashedDigest, some (lit "ICEiIyQlJico"), apiKeyAccessReadOnly, true,
        ⟨lit "2025-01-01T00:00:00"⟩⟩ ]

set_option maxRecDepth 4000 in
/-- The old keys are partly hashed. -/
theorem mixedKeys_oldKeys : MixedKeys twoKeys oldKeys rawKeyOf where
  raw := by decide
  stored := by decide
  distinct := by decide

/-- The texts. -/
def twoKeysTexts : List Str := [plainKey, hashedKey, plainDigest, hashedDigest]

set_option maxRecDepth 4000 in
/-- The hash separates them. -/
theorem separates_oldKeys : Separates twoKeys oldKeys rawKeyOf {s | s ∈ twoKeysTexts} where
  raw_mem := by
    show ∀ row ∈ oldKeys.rows, rawKeyOf row.id ∈ twoKeysTexts
    decide
  digest_mem := by
    show ∀ row ∈ oldKeys.rows, hashApiKey twoKeys (rawKeyOf row.id) ∈ twoKeysTexts
    decide
  injective := by
    show ∀ s, s ∈ twoKeysTexts → ∀ t, t ∈ twoKeysTexts →
      hashApiKey twoKeys s = hashApiKey twoKeys t → s = t
    decide

/-- Both keys keep working. -/
theorem migration_keeps_both_keys :
    ∃ keys', migrateHashPlaintextApiKeys twoKeys oldKeys = .ok keys' ∧
      (∀ presented ∈ {s | s ∈ twoKeysTexts}, IsRawKey presented →
        (getApiKey twoKeys keys' presented).map withoutKey =
          (authenticated twoKeys oldKeys presented).map withoutKey) ∧
      (∀ row ∈ keys'.rows, ¬IsRawKey row.val.key) ∧
      (∀ row ∈ keys'.rows, getApiKey twoKeys keys' row.val.key = none) ∧
      migrateHashPlaintextApiKeys twoKeys keys' = .ok keys' :=
  migration_keeps_keys mixedKeys_oldKeys separates_oldKeys

end ApiToDns.KeyMigration
