import ApiToDns.Lib.Prog
import ApiToDns.Py.Str

/-!
# RateLimit

The rate limiter (`rate_limit.py`): the limited routes and their rules, whose
bucket a request counts in, and the counting itself as a program over the
clock and the table `rate_limit_bucket`.
-/

namespace ApiToDns

open Py

/-! ## rules -/

/-- The keys of `_DEFAULT_LIMITS`, in its order. -/
inductive LimitedRoute where
  | login
  | keycheck
  | dnsRecord
  | dnsBrowser
deriving DecidableEq, Repr

def LimitedRoute.text : LimitedRoute → Str
  | .login => lit "/login"
  | .keycheck => lit "/keycheck"
  | .dnsRecord => lit "/dns-record"
  | .dnsBrowser => lit "/zones/*/records"

/-- The variable that overrides a rule. -/
def LimitedRoute.envName : LimitedRoute → Str
  | .login => lit "RATE_LIMIT_LOGIN"
  | .keycheck => lit "RATE_LIMIT_KEYCHECK"
  | .dnsRecord => lit "RATE_LIMIT_DNS_RECORD"
  | .dnsBrowser => lit "RATE_LIMIT_DNS_BROWSER"

/-- `(max_requests, window_seconds)`. -/
structure RateRule where
  maxRequests : Nat
  window : Nat
  maxRequests_pos : 0 < maxRequests
  window_pos : 0 < window
deriving DecidableEq, Repr

abbrev Limits := LimitedRoute → RateRule

/-- `_DEFAULT_LIMITS`. -/
def defaultLimits : Limits
  | .login => ⟨20, 60, by decide, by decide⟩
  | .keycheck => ⟨60, 60, by decide, by decide⟩
  | .dnsRecord => ⟨180, 60, by decide, by decide⟩
  | .dnsBrowser => ⟨60, 60, by decide, by decide⟩

/-- What the limiter finds outside: `os.getenv`, `sha256(…).hexdigest()` of a
text, and the user name of a session cookie that `verify_session_cookie`
accepts. -/
structure LimiterHost where
  ucd : Ucd
  getenv : Str → Option Str
  sha256Hex : Str → Str
  sessionUsername : Str → Option Str

namespace LimiterHost

variable (H : LimiterHost)

/-- The rule in the text of a variable. -/
def overrideOf (text : Str) : Option RateRule :=
  let raw := strip text
  if raw = [] ∨ ':' ∉ raw then none
  else
    let countS := raw.takeWhile (· ≠ ':')
    let windowS := (raw.dropWhile (· ≠ ':')).tail
    match H.ucd.parseInt countS, H.ucd.parseInt windowS with
    | some count, some window => some ⟨(max 1 count).toNat, (max 1 window).toNat, by omega, by omega⟩
    | _, _ => none

/-- `_limits`. -/
def limits : Limits := fun route =>
  (H.overrideOf ((H.getenv route.envName).getD [])).getD (defaultLimits route)

/-- `API_TO_DNS_DISABLE_RATE_LIMIT` is set. -/
def disabled : Bool :=
  H.ucd.lower (strip ((H.getenv (lit "API_TO_DNS_DISABLE_RATE_LIMIT")).getD [])) ∈
    [lit "1", lit "true", lit "yes"]

end LimiterHost

/-! ## requests -/

/-- What the limiter reads of a request. -/
structure LimitedRequest where
  path : Str
  xApiKey : Option Str
  authorization : Option Str
  session : Option Str
  /-- `request.client.host` -/
  client : Option Str
deriving DecidableEq

/-- `_is_dns_browser_path`. -/
def isDnsBrowserPath (path : Str) : Bool :=
  match (path.splitOn '/').filter (· ≠ []) with
  | zones :: _ :: records :: rest =>
      zones = lit "zones" && records = lit "records" && (rest = [] || rest = [lit "search"])
  | _ => false

/-- `_match_route`; the rule is the one of the route. -/
def matchRoute (path : Str) : Option LimitedRoute :=
  if isDnsBrowserPath path then some .dnsBrowser
  else
    [LimitedRoute.login, .keycheck, .dnsRecord].find? fun route =>
      path = route.text || startsWith path (route.text ++ lit "/")

/-- `api_key_from_headers` (`http_utils.py`). -/
def apiKeyFromHeaders (xApiKey authorization : Option Str) : Option Str :=
  if xApiKey.getD [] = [] ∧ startsWith (authorization.getD []) (lit "Bearer ") then
    some (strip ((authorization.getD []).drop (lit "Bearer ").length))
  else xApiKey

/-- The bucket of a client address. -/
def ipIdentity (client : Option Str) : Str := lit "ip:" ++ client.getD (lit "unknown")

namespace LimiterHost

variable (H : LimiterHost)

/-- The digest of the key in the headers, if they have one. -/
def keyDigest (req : LimitedRequest) : Option Str :=
  match apiKeyFromHeaders req.xApiKey req.authorization with
  | none | some [] => none
  | some key => some (H.sha256Hex key)

/-- `_identity_hash`. -/
def identityHash (req : LimitedRequest) : Str :=
  if isDnsBrowserPath req.path then
    match (req.session.filter (· ≠ [])).bind H.sessionUsername with
    | some username => lit "session:" ++ H.ucd.lower (strip username)
    | none => ipIdentity req.client
  else
    match H.keyDigest req with
    | some digest => lit "key:" ++ digest
    | none => ipIdentity req.client

end LimiterHost

/-! ## buckets -/

/-- The unique columns of `rate_limit_bucket`. -/
structure BucketKey where
  route : LimitedRoute
  identity : Str
  windowStart : Nat
deriving DecidableEq

structure Bucket where
  count : Nat
  expiresAt : Nat
deriving DecidableEq

/-- The end of the window of a bucket. -/
def BucketKey.expiresAt (L : Limits) (key : BucketKey) : Nat :=
  key.windowStart + (L key.route).window

/-- The table `rate_limit_bucket` under fixed rules: a bucket expires at the
end of its window. -/
structure Buckets (L : Limits) where
  row : BucketKey → Option Bucket
  expires : ∀ key b, row key = some b → b.expiresAt = key.expiresAt L

namespace Buckets

variable {L : Limits}

def empty : Buckets L := ⟨fun _ => none, by simp⟩

/-- `DELETE … WHERE expires_at < :now`. -/
def cleanup (t : Buckets L) (now : Nat) : Buckets L where
  row key := (t.row key).filter fun b => now ≤ b.expiresAt
  expires key b h := t.expires key b (Option.filter_eq_some_iff.mp h).1

/-- The row after `INSERT … ON CONFLICT … DO UPDATE SET count = count + 1`. -/
def counted (key : BucketKey) : Option Bucket → Bucket
  | some b => { b with count := b.count + 1 }
  | none => ⟨1, key.expiresAt L⟩

/-- The upsert. -/
def upsert (t : Buckets L) (key : BucketKey) : Buckets L where
  row := Function.update t.row key (some (counted (L := L) key (t.row key)))
  expires key' b h := by
    by_cases heq : key' = key
    · subst heq
      rw [Function.update_self, Option.some.injEq] at h
      rw [← h]
      cases hb : t.row key' with
      | none => rfl
      | some b' => exact t.expires key' b' hb
    · rw [Function.update_of_ne heq] at h
      exact t.expires key' b h

/-- A counted key has one more. -/
@[simp] theorem row_upsert_self (t : Buckets L) (key : BucketKey) :
    (t.upsert key).row key = some (counted (L := L) key (t.row key)) :=
  Function.update_self _ _ _

/-- The other keys stay as they are. -/
theorem row_upsert_of_ne (t : Buckets L) {key key' : BucketKey} (h : key' ≠ key) :
    (t.upsert key).row key' = t.row key' :=
  Function.update_of_ne h _ _

/-- The count of a bucket, none where there is no bucket. -/
def countOf (t : Buckets L) (key : BucketKey) : Nat := ((t.row key).map Bucket.count).getD 0

/-- One attempt to count a request that the database lets through: the count
that is read, and the table. -/
def transact (t : Buckets L) (cleans : Bool) (now : Nat) (key : BucketKey) : Nat × Buckets L :=
  let cleaned := if cleans then t.cleanup now else t
  let counted := cleaned.upsert key
  (((counted.row key).map Bucket.count).getD 1, counted)

/-- The counts after one more. -/
theorem countOf_upsert (t : Buckets L) (key key' : BucketKey) :
    (t.upsert key).countOf key' = t.countOf key' + if key' = key then 1 else 0 := by
  unfold countOf
  by_cases h : key' = key
  · rw [h, row_upsert_self, if_pos rfl]
    cases t.row key <;> simp [counted]
  · rw [row_upsert_of_ne t h, if_neg h, Nat.add_zero]

/-- A clean-up leaves the buckets whose window has not ended. -/
theorem row_cleanup (t : Buckets L) {now : Nat} {key : BucketKey} (h : now ≤ key.expiresAt L) :
    (t.cleanup now).row key = t.row key := by
  cases hb : t.row key with
  | none => simp [cleanup, hb]
  | some b => simp [cleanup, hb, t.expires key b hb, h]

/-- The count that a request reads. -/
theorem fst_transact (t : Buckets L) (cleans : Bool) (now : Nat) (key : BucketKey) :
    (t.transact cleans now key).1 =
      (if cleans then t.cleanup now else t).countOf key + 1 := by
  unfold transact
  have h := countOf_upsert (if cleans then t.cleanup now else t) key key
  rw [if_pos rfl] at h
  rw [← h]
  simp [countOf]

/-- In its own window an attempt counts one up, whether or not it cleans. -/
theorem fst_transact_of_le (t : Buckets L) (cleans : Bool) {now : Nat} {key : BucketKey}
    (h : now ≤ key.expiresAt L) : (t.transact cleans now key).1 = t.countOf key + 1 := by
  rw [fst_transact]
  cases cleans
  · rfl
  · simp [countOf, row_cleanup t h]

/-- The counts after a request. -/
theorem countOf_transact (t : Buckets L) (cleans : Bool) {now : Nat} {key key' : BucketKey}
    (h : now ≤ key'.expiresAt L) :
    (t.transact cleans now key).2.countOf key' = t.countOf key' + if key' = key then 1 else 0 := by
  show (Buckets.upsert _ key).countOf key' = _
  rw [countOf_upsert]
  cases cleans
  · rfl
  · simp [countOf, row_cleanup t h]

end Buckets

/-! ## the check -/

/-- The reply to one attempt. -/
inductive AttemptReply where
  | count (n : Nat)
  /-- `OperationalError`, the database being locked or busy -/
  | locked
  /-- any other exception -/
  | failed
deriving DecidableEq

inductive LimiterOp where
  /-- `int(time.time())` -/
  | clock
  | transact (key : BucketKey) (now : Nat)

abbrev LimiterOp.Reply : LimiterOp → Type
  | clock => Nat
  | transact .. => AttemptReply

abbrev limiterSig : Sig := ⟨LimiterOp, LimiterOp.Reply⟩

/-- `_RATE_LIMIT_DB_LOCK_ATTEMPTS`. -/
def rateLimitDbLockAttempts : Nat := 3

/-- The loop over the attempts, `left` of them left; the waits between them
are left out. -/
def attempts (key : BucketKey) (now maxRequests : Nat) : Nat → Prog limiterSig Bool
  | 0 => .ret true
  | left + 1 =>
      .call (.transact key now) fun
        | .count n => .ret (decide (maxRequests < n))
        | .locked => attempts key now maxRequests left
        | .failed => .ret true

namespace LimiterHost

variable (H : LimiterHost)

/-- The bucket of a request that reads the clock at `now`. -/
def bucketKey (route : LimitedRoute) (req : LimitedRequest) (now : Nat) : BucketKey :=
  ⟨route, H.identityHash req, now - now % (H.limits route).window⟩

/-- `rate_limit_exceeded`. -/
def rateLimitExceeded (req : LimitedRequest) : Prog limiterSig Bool :=
  if H.disabled then .ret false
  else
    match matchRoute req.path with
    | none => .ret false
    | some route =>
        .call .clock fun now =>
          attempts (H.bucketKey route req now) now (H.limits route).maxRequests
            rateLimitDbLockAttempts

end LimiterHost

end ApiToDns
