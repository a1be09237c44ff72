import ApiToDns.Web
import ApiToDns.ZoneConfig
import Mathlib.Data.List.Sort

/-!
# ApiKeys

Creating and editing API keys (`routes/api_keys.py`).  The key's row, and the
removal of the links to its zones, are committed before the new links are added,
and the page is put together after both: a request that fails in between has
already changed the key.

* `createApiKeyRoute`, `apiKeyUpdate` — the requests as they run;
* `Saved`, `Unchanged` — the two outcomes a request should have;
* `atomic_iff` — the requests that have one of them.
-/

namespace ApiToDns.ApiKeys

open Py

/-! ## the requests -/

/-- The fields of the form. -/
structure ApiKeyForm where
  label : Str
  zoneIds : List Int
  accessMode : Option Str

/-- What is stored of a generated key, and the time. -/
structure NewKey where
  digest : Str
  shown : Str
  createdAt : Datetime

/-- What a request that raises nothing is answered with. -/
inductive ApiKeyReply where
  /-- the list of the keys, by a redirection -/
  | redirect
  /-- the page with an error -/
  | refused (msg : Str)
  /-- the page that says that the key is created or updated -/
  | saved
deriving DecidableEq

/-- The access mode a form asks for. -/
def selectedAccessMode (U : Ucd) (accessMode : Option Str) (default : Str) : Str :=
  match accessMode with
  | none => default
  | some accessMode => U.lower (strip accessMode)

/-- `_api_key_access_mode`. -/
def apiKeyAccessMode (U : Ucd) (accessMode : Option Str) (default : Str) : Except Str Str :=
  if selectedAccessMode U accessMode default ∈ apiKeyAccessModes then
    .ok (selectedAccessMode U accessMode default)
  else .error (lit "Access mode must be read_only or read_write.")

/-- The label and the access mode of a key are set. -/
def changeApiKey (keys : Table ApiKey) (id : Nat) (label accessMode : Str) : Table ApiKey :=
  keys.update (fun row => if row.id = id then { row.val with label, accessMode } else row.val)
    fun row => by split <;> rfl

/-- The submitted ids for which `db.get` finds a zone. -/
def existingZoneIds (db : Db) (zoneIds : List Int) : List Int :=
  zoneIds.filter fun id => (db.zones.get? id.toNat).isSome

/-- The links to the submitted zones are added and committed. -/
def addLinks (db : Db) (keyId : Nat) (zoneIds : List Int) : Except Exc Db := do
  let zoneIds ← zoneIds.mapM bindInt
  let links := (existingZoneIds db zoneIds).map fun id => ⟨keyId, id.toNat⟩
  match db.allowedZones.insertAll links with
  | some allowedZones => .ok { db with allowedZones }
  | none => .error integrityError

section Requests

variable (P : Platform) (processKey : Str)

/-- `list_dns_zones`. -/
def listDnsZones (db : Db) : List (Row DnsZoneConfig) :=
  db.zones.rows.insertionSort fun a b => a.val.zoneName ≤ b.val.zoneName

/-- The page with a reply: it lists the zones, and includes the page header. -/
def apiKeysPage (db : Db) (reply : ApiKeyReply) : Except Exc ApiKeyReply := do
  let _ ← (listDnsZones db).mapM (dnsZonePublicDict P processKey)
  navContext P processKey db
  .ok reply

/-- What follows the first commit of a request: the links, the entry in the
log and the page. -/
def linkZones (db : Db) (keyId : Nat) (zoneIds : List Int) : Except Exc ApiKeyReply × Db :=
  match addLinks db keyId zoneIds with
  | .error e => (.error e, db)
  | .ok db => (do emitActivityEvent P processKey db; apiKeysPage P processKey db .saved, db)

/-- An edit of a key, by either form. -/
def editApiKey (db : Db) (keyId : Int) (form : ApiKeyForm) : Except Exc ApiKeyReply × Db :=
  match bindInt keyId with
  | .error e => (.error e, db)
  | .ok keyId =>
      match db.apiKeys.get? keyId.toNat with
      | none => (.ok .redirect, db)
      | some row =>
          match apiKeyAccessMode P.ucd form.accessMode row.val.accessMode with
          | .error msg => (apiKeysPage P processKey db (.refused msg), db)
          | .ok accessMode =>
              if form.zoneIds = [] then
                (apiKeysPage P processKey db (.refused (lit "Select at least one DNS zone.")), db)
              else
                let db :=
                  { db with
                    apiKeys := changeApiKey db.apiKeys row.id form.label accessMode
                    allowedZones := db.allowedZones.delete fun link => link.val.apiKeyId = row.id }
                linkZones P processKey db row.id form.zoneIds

/-- `api_key_update`. -/
def apiKeyUpdate (db : Db) (keyId : Int) (form : ApiKeyForm) : Except Exc ApiKeyReply × Db :=
  editApiKey P processKey db keyId form

/-- `create_api_key_route`, which also edits the key that it is given. -/
def createApiKeyRoute (db : Db) (new : NewKey) (keyId : Option Int) (form : ApiKeyForm) :
    Except Exc ApiKeyReply × Db :=
  match keyId with
  | some keyId => editApiKey P processKey db keyId form
  | none =>
      match apiKeyAccessMode P.ucd form.accessMode apiKeyAccessReadOnly with
      | .error msg => (apiKeysPage P processKey db (.refused msg), db)
      | .ok accessMode =>
          if form.zoneIds = [] then
            (apiKeysPage P processKey db
              (.refused (lit "Select at least one DNS zone for this API key.")), db)
          else
            let apiKey : ApiKey :=
              { label := form.label, key := new.digest, keyPrefix := some new.shown, accessMode
                active := true, createdAt := new.createdAt }
            match db.apiKeys.insert apiKey with
            | none => (.error integrityError, db)
            | some apiKeys =>
                linkZones P processKey { db with apiKeys } db.apiKeys.nextId form.zoneIds

end Requests

/-- A request that creates or edits a key. -/
inductive ApiKeyRequest where
  | create (new : NewKey) (form : ApiKeyForm)
  /-- the form in the list of the keys -/
  | inlineEdit (new : NewKey) (keyId : Int) (form : ApiKeyForm)
  /-- the form on a page of its own -/
  | update (keyId : Int) (form : ApiKeyForm)

namespace ApiKeyRequest

def form : ApiKeyRequest → ApiKeyForm
  | create _ form | inlineEdit _ _ form | update _ form => form

/-- The rowid of the key that the request is about. -/
def keyId (db : Db) : ApiKeyRequest → Nat
  | create _ _ => db.apiKeys.nextId
  | inlineEdit _ keyId _ | update keyId _ => keyId.toNat

/-- The request as it runs. -/
def serve (P : Platform) (processKey : Str) (db : Db) : ApiKeyRequest →
    Except Exc ApiKeyReply × Db
  | create new form => createApiKeyRoute P processKey db new none form
  | inlineEdit new keyId form => createApiKeyRoute P processKey db new (some keyId) form
  | update keyId form => apiKeyUpdate P processKey db keyId form

/-- The access mode that the request asks for: without one the key's own, or
for a new key the one that only reads. -/
def accessMode (U : Ucd) (db : Db) : ApiKeyRequest → Str
  | create _ form => selectedAccessMode U form.accessMode apiKeyAccessReadOnly
  | inlineEdit _ keyId form | update keyId form =>
      selectedAccessMode U form.accessMode
        (((db.apiKeys.get? keyId.toNat).map fun row => row.val.accessMode).getD [])

end ApiKeyRequest

/-! ## the two outcomes -/

/-- The key may use the zone. -/
def Allowed (db : Db) (keyId zoneId : Nat) : Prop :=
  ∃ link ∈ db.allowedZones.rows, link.val = ⟨keyId, zoneId⟩

instance (db : Db) (keyId zoneId : Nat) : Decidable (Allowed db keyId zoneId) :=
  inferInstanceAs (Decidable (∃ link ∈ db.allowedZones.rows, link.val = _))

/-- The zone exists and its id is submitted. -/
def Submitted (db : Db) (zoneIds : List Int) (zoneId : Nat) : Prop :=
  (db.zones.get? zoneId).isSome ∧ (zoneId : Int) ∈ zoneIds

/-- The key has what was submitted. -/
structure Saved (keyId : Nat) (form : ApiKeyForm) (accessMode : Str) (db db' : Db) : Prop where
  key : ∃ row, db'.apiKeys.get? keyId = some row ∧ row.val.label = form.label ∧
    row.val.accessMode = accessMode
  zones : ∀ zoneId, Allowed db' keyId zoneId ↔ Submitted db form.zoneIds zoneId

/-- No key and no link is another one than before. -/
structure Unchanged (db db' : Db) : Prop where
  keys : db'.apiKeys = db.apiKeys
  zones : ∀ keyId zoneId, Allowed db' keyId zoneId ↔ Allowed db keyId zoneId

/-- A request succeeds, and the key has what was submitted, or fails, and
nothing has changed. -/
def Atomic (P : Platform) (processKey : Str) (request : ApiKeyRequest) (db : Db) : Prop :=
  ∀ reply db', request.serve P processKey db = (reply, db') →
    (reply = .ok .saved ∧
        Saved (request.keyId db) request.form (request.accessMode P.ucd db) db db') ∨
      (reply ≠ .ok .saved ∧ Unchanged db db')

/-! ## when a request has one of them -/

/-- A request that writes nothing. -/
def Refused (U : Ucd) (db : Db) (request : ApiKeyRequest) : Prop :=
  request.form.zoneIds = [] ∨ request.accessMode U db ∉ apiKeyAccessModes ∨
    match request with
    | .create new _ => ∃ row ∈ db.apiKeys.rows, row.val.key = new.digest
    | .inlineEdit _ keyId _ | .update keyId _ =>
        fitsColumn keyId = false ∨ db.apiKeys.get? keyId.toNat = none

/-- The links of a request can be added: each id fits a column, no zone is
submitted twice, and a new key gets no rowid with links left. -/
def Linkable (db : Db) (request : ApiKeyRequest) : Prop :=
  (∀ id ∈ request.form.zoneIds, fitsColumn id = true) ∧
    (existingZoneIds db request.form.zoneIds).Nodup ∧
    match request with
    | .create _ _ => ∀ zoneId, ¬Allowed db db.apiKeys.nextId zoneId
    | _ => True

/-- The log level, the zones and what the page header shows can be read. -/
structure Readable (P : Platform) (processKey : Str) (db : Db) : Prop where
  logLevel : emitActivityEvent P processKey db = .ok ()
  zones : ∀ zone ∈ db.zones.rows, ∃ shown, dnsZonePublicDict P processKey zone = .ok shown
  header : navContext P processKey db = .ok ()

/-- An edit of a key that has what the edit leaves. -/
def Idle (U : Ucd) (db : Db) (request : ApiKeyRequest) : Prop :=
  match request with
  | .create _ _ => False
  | .inlineEdit _ keyId _ | .update keyId _ =>
      ∃ row, db.apiKeys.get? keyId.toNat = some row ∧ row.val.label = request.form.label ∧
        row.val.accessMode = request.accessMode U db ∧
        ∀ zoneId, Allowed db row.id zoneId ↔
          Linkable db request ∧ Submitted db request.form.zoneIds zoneId

/-- Being atomic, by what the request answers. -/
theorem atomic_iff_serve {P : Platform} {processKey : Str} {request : ApiKeyRequest} {db : Db} :
    Atomic P processKey request db ↔
      ((request.serve P processKey db).1 = .ok .saved ∧
          Saved (request.keyId db) request.form (request.accessMode P.ucd db) db
            (request.serve P processKey db).2) ∨
        ((request.serve P processKey db).1 ≠ .ok .saved ∧
          Unchanged db (request.serve P processKey db).2) := by
  constructor
  · intro h
    exact h _ _ rfl
  · intro h reply db' heq
    rwa [heq] at h

/-- What is as it was is unchanged. -/
theorem Unchanged.refl (db : Db) : Unchanged db db := ⟨rfl, fun _ _ => Iff.rfl⟩

/-! ### the links -/

section Links

variable {db db' : Db} {keyId keyId' zoneId : Nat} {zoneIds : List Int}

/-- A number binds if a column holds it. -/
theorem bindInt_eq_ok_iff {i j : Int} : bindInt i = .ok j ↔ fitsColumn i = true ∧ i = j := by
  unfold bindInt
  split <;> simp_all

/-- Numbers bind if a column holds each of them. -/
theorem mapM_bindInt_eq_ok_iff {ids ids' : List Int} :
    ids.mapM bindInt = .ok ids' ↔ (∀ id ∈ ids, fitsColumn id = true) ∧ ids = ids' := by
  rw [mapM_eq_ok_iff]
  constructor
  · intro h
    induction h with
    | nil => simp
    | cons hid _ ih =>
        obtain ⟨hfits, rfl⟩ := bindInt_eq_ok_iff.mp hid
        exact ⟨List.forall_mem_cons.mpr ⟨hfits, ih.1⟩, by rw [ih.2]⟩
  · intro h
    obtain ⟨hfits, rfl⟩ := h
    rw [List.forall₂_same]
    intro id hid
    exact bindInt_eq_ok_iff.mpr ⟨hfits id hid, rfl⟩

/-- The submitted ids of zones that exist. -/
theorem mem_existingZoneIds {id : Int} :
    id ∈ existingZoneIds db zoneIds ↔ id ∈ zoneIds ∧ Submitted db zoneIds id.toNat := by
  rw [existingZoneIds, List.mem_filter, Submitted]
  constructor
  · intro h
    obtain ⟨hmem, hsome⟩ := h
    have hpos : 0 ≤ id := by
      by_contra hneg
      rw [Int.toNat_of_nonpos (by omega), Table.get?_zero] at hsome
      contradiction
    refine ⟨hmem, hsome, ?_⟩
    rwa [Int.toNat_of_nonneg hpos]
  · intro h
    exact ⟨h.1, h.2.1⟩

/-- A zone is submitted if its id is. -/
theorem submitted_iff : Submitted db zoneIds zoneId ↔ (zoneId : Int) ∈ existingZoneIds db zoneIds := by
  rw [mem_existingZoneIds, Int.toNat_natCast, Submitted]
  tauto

/-- The ids of zones that exist differ in their rowids. -/
theorem toNat_injOn_existing {id id' : Int} (h : id ∈ existingZoneIds db zoneIds)
    (h' : id' ∈ existingZoneIds db zoneIds) (heq : id.toNat = id'.toNat) : id = id' := by
  have hpos : ∀ {i : Int}, i ∈ existingZoneIds db zoneIds → 0 < i := by
    intro i hi
    have hsome := (mem_existingZoneIds.mp hi).2.1
    by_contra hneg
    rw [Int.toNat_of_nonpos (by omega), Table.get?_zero] at hsome
    contradiction
  have := hpos h
  have := hpos h'
  omega

/-- The new links of a key. -/
def newLinks (db : Db) (keyId : Nat) (zoneIds : List Int) : List ApiKeyAllowedZone :=
  (existingZoneIds db zoneIds).map fun id => ⟨keyId, id.toNat⟩

/-- The links that are added. -/
theorem mem_newLinks {link : ApiKeyAllowedZone} :
    link ∈ newLinks db keyId zoneIds ↔
      link.apiKeyId = keyId ∧ Submitted db zoneIds link.dnsZoneConfigId := by
  obtain ⟨k, z⟩ := link
  rw [newLinks, List.mem_map, submitted_iff]
  constructor
  · intro h
    obtain ⟨id, hid, heq⟩ := h
    obtain ⟨rfl, rfl⟩ := ApiKeyAllowedZone.mk.inj heq
    exact ⟨rfl, submitted_iff.mp (mem_existingZoneIds.mp hid).2⟩
  · intro h
    obtain ⟨hkey, hzone⟩ := h
    exact ⟨(z : Int), hzone, by simp [← hkey]⟩

/-- When the links go in. -/
theorem addLinks_eq_ok_iff :
    addLinks db keyId zoneIds = .ok db' ↔
      (∀ id ∈ zoneIds, fitsColumn id = true) ∧
        ∃ t, db.allowedZones.insertAll (newLinks db keyId zoneIds) = some t ∧
          db' = { db with allowedZones := t } := by
  unfold addLinks
  rw [bind_eq_ok_iff]
  simp only [mapM_bindInt_eq_ok_iff, and_assoc, exists_and_left, exists_eq_left']
  refine and_congr_right fun _ => ?_
  rw [newLinks]
  cases db.allowedZones.insertAll _ <;> simp [eq_comm]

/-- Adding the links changes the links only. -/
theorem addLinks_frame (h : addLinks db keyId zoneIds = .ok db') :
    db'.apiKeys = db.apiKeys ∧ db'.zones = db.zones ∧ db'.settings = db.settings := by
  obtain ⟨-, t, -, rfl⟩ := addLinks_eq_ok_iff.mp h
  exact ⟨rfl, rfl, rfl⟩

/-- What the keys may use after the links went in. -/
theorem allowed_addLinks (h : addLinks db keyId zoneIds = .ok db') :
    Allowed db' keyId' zoneId ↔
      Allowed db keyId' zoneId ∨ keyId' = keyId ∧ Submitted db zoneIds zoneId := by
  obtain ⟨-, t, ht, rfl⟩ := addLinks_eq_ok_iff.mp h
  have hiff := Table.exists_val_insertAll_iff ht (v := ⟨keyId', zoneId⟩)
  rw [mem_newLinks] at hiff
  exact hiff

/-- The links clash if a zone is submitted twice. -/
theorem nodup_newLinks_iff :
    ((newLinks db keyId zoneIds).filterMap Record.key?).Nodup ↔
      (existingZoneIds db zoneIds).Nodup := by
  have hkeys : (newLinks db keyId zoneIds).filterMap Record.key? =
      (existingZoneIds db zoneIds).map fun id => (keyId, id.toNat) := by
    rw [newLinks, List.filterMap_map, ← List.filterMap_eq_map]
    rfl
  rw [hkeys]
  constructor
  · exact List.Nodup.of_map _
  · intro hnodup
    refine List.Nodup.map_on (fun id hid id' hid' heq => ?_) hnodup
    exact toNat_injOn_existing hid hid' (congrArg Prod.snd heq)

/-- The pairs in the table are what the keys may use. -/
theorem mem_keys_allowedZones {key : Nat × Nat} :
    key ∈ db.allowedZones.rows.filterMap Row.key? ↔ Allowed db key.1 key.2 := by
  rw [List.mem_filterMap, Allowed]
  refine exists_congr fun link => and_congr_right fun _ => ?_
  obtain ⟨k, z⟩ := key
  obtain ⟨id, k', z'⟩ := link
  simp [Row.key?, Record.key?]

variable (db keyId zoneIds) in
/-- The links can be added exactly if none of them is there, or comes twice. -/
theorem exists_addLinks_iff :
    (∃ db', addLinks db keyId zoneIds = .ok db') ↔
      (∀ id ∈ zoneIds, fitsColumn id = true) ∧ (existingZoneIds db zoneIds).Nodup ∧
        ∀ zoneId, Submitted db zoneIds zoneId → ¬Allowed db keyId zoneId := by
  have hinsert : (∃ t, db.allowedZones.insertAll (newLinks db keyId zoneIds) = some t) ↔
      (existingZoneIds db zoneIds).Nodup ∧
        ∀ zoneId, Submitted db zoneIds zoneId → ¬Allowed db keyId zoneId := by
    rw [Table.insertAll_isSome_iff, List.nodup_append, nodup_newLinks_iff]
    constructor
    · intro h
      obtain ⟨-, hnodup, hdisjoint⟩ := h
      refine ⟨hnodup, fun zoneId hzone hallowed => ?_⟩
      refine hdisjoint (keyId, zoneId) (mem_keys_allowedZones.mpr hallowed) (keyId, zoneId) ?_ rfl
      exact List.mem_filterMap.mpr ⟨⟨keyId, zoneId⟩, mem_newLinks.mpr ⟨rfl, hzone⟩, rfl⟩
    · intro h
      refine ⟨db.allowedZones.unique, h.1, fun key hkey key' hkey' heq => ?_⟩
      obtain ⟨link, hlink, hlinkKey⟩ := List.mem_filterMap.mp hkey'
      obtain ⟨hkeyId, hzone⟩ := mem_newLinks.mp hlink
      rw [mem_keys_allowedZones, heq, ← Option.some.inj hlinkKey, hkeyId] at hkey
      exact h.2 _ hzone hkey
  rw [← hinsert]
  simp [addLinks_eq_ok_iff]

end Links

/-! ### the page -/

section Page

variable {P : Platform} {processKey : Str} {db db' : Db} {keyId : Nat} {zoneIds : List Int}

/-- All zones are listed. -/
theorem mem_listDnsZones {zone : Row DnsZoneConfig} : zone ∈ listDnsZones db ↔ zone ∈ db.zones.rows :=
  (List.perm_insertionSort _ _).mem_iff

/-- A page that refuses does not say that the key is saved. -/
theorem apiKeysPage_ne_saved {reply : ApiKeyReply} (h : reply ≠ .saved) :
    apiKeysPage P processKey db reply ≠ .ok .saved := by
  intro heq
  obtain ⟨shown, -, hrest⟩ := bind_eq_ok heq
  obtain ⟨-, -, hreply⟩ := bind_eq_ok hrest
  exact h (Except.ok.inj hreply)

/-- The page is shown if the zones and its header can be read. -/
theorem apiKeysPage_eq_ok_iff {reply : ApiKeyReply} :
    apiKeysPage P processKey db reply = .ok reply ↔
      (∀ zone ∈ db.zones.rows, ∃ shown, dnsZonePublicDict P processKey zone = .ok shown) ∧
        navContext P processKey db = .ok () := by
  have hall : (∃ shown, (listDnsZones db).mapM (dnsZonePublicDict P processKey) = .ok shown) ↔
      ∀ zone ∈ db.zones.rows, ∃ shown, dnsZonePublicDict P processKey zone = .ok shown := by
    simp only [exists_mapM_eq_ok_iff, mem_listDnsZones]
  rw [← hall, apiKeysPage, bind_eq_ok_iff]
  constructor
  · rintro ⟨shown, hshown, hrest⟩
    obtain ⟨_, hheader, -⟩ := bind_eq_ok hrest
    exact ⟨⟨shown, hshown⟩, hheader⟩
  · rintro ⟨⟨shown, hshown⟩, hheader⟩
    exact ⟨shown, hshown, by rw [hheader]; rfl⟩

/-- The database is readable if the page after a change comes up. -/
theorem readable_iff :
    Readable P processKey db ↔
      (do emitActivityEvent P processKey db; apiKeysPage P processKey db .saved) = .ok .saved := by
  rw [bind_eq_ok_iff]
  simp only [apiKeysPage_eq_ok_iff]
  constructor
  · intro h
    exact ⟨(), h.logLevel, h.zones, h.header⟩
  · rintro ⟨_, hlevel, hzones, hheader⟩
    exact ⟨hlevel, hzones, hheader⟩

/-- The header of a page depends on the settings only. -/
theorem navContext_congr (hsettings : db'.settings = db.settings) :
    navContext P processKey db' = navContext P processKey db := by
  unfold navContext readTyped typedOr getTypedSetting getSetting
  rw [hsettings]

/-- So does an activity event. -/
theorem emitActivityEvent_congr (hsettings : db'.settings = db.settings) :
    emitActivityEvent P processKey db' = emitActivityEvent P processKey db := by
  unfold emitActivityEvent readTyped typedOr getTypedSetting getSetting
  rw [hsettings]

/-- Only the zones and the settings are read. -/
theorem readable_congr (hzones : db'.zones = db.zones) (hsettings : db'.settings = db.settings) :
    Readable P processKey db' ↔ Readable P processKey db := by
  constructor
  · intro h
    exact ⟨emitActivityEvent_congr hsettings ▸ h.logLevel, hzones ▸ h.zones,
      navContext_congr hsettings ▸ h.header⟩
  · intro h
    exact ⟨(emitActivityEvent_congr hsettings).trans h.logLevel, hzones ▸ h.zones,
      (navContext_congr hsettings).trans h.header⟩

variable (P processKey) in
/-- The links cannot be added, and nothing follows. -/
theorem linkZones_of_not (h : ¬∃ db', addLinks db keyId zoneIds = .ok db') :
    (linkZones P processKey db keyId zoneIds).1 ≠ .ok .saved ∧
      (linkZones P processKey db keyId zoneIds).2 = db := by
  unfold linkZones
  split
  · simp
  · next db' heq => exact absurd ⟨db', heq⟩ h

variable (P processKey) in
/-- The links are added, and the page is shown if everything can be read. -/
theorem linkZones_of_addLinks (h : addLinks db keyId zoneIds = .ok db') :
    ((linkZones P processKey db keyId zoneIds).1 = .ok .saved ↔ Readable P processKey db) ∧
      (linkZones P processKey db keyId zoneIds).2 = db' := by
  obtain ⟨-, hzones, hsettings⟩ := addLinks_frame h
  rw [← readable_congr hzones hsettings, readable_iff]
  unfold linkZones
  rw [h]
  exact ⟨Iff.rfl, rfl⟩

end Page

/-! ### an edit -/

section Edit

variable {P : Platform} {processKey : Str} {db : Db} {keyId : Int} {form : ApiKeyForm}
  {row : Row ApiKey} {accessMode : Str}

/-- The database after the first commit of an edit. -/
def edited (db : Db) (row : Row ApiKey) (label accessMode : Str) : Db :=
  { db with
    apiKeys := changeApiKey db.apiKeys row.id label accessMode
    allowedZones := db.allowedZones.delete fun link => link.val.apiKeyId = row.id }

/-- What an edit of a key that is there does. -/
theorem editApiKey_of_get (hfits : fitsColumn keyId = true)
    (hget : db.apiKeys.get? keyId.toNat = some row) :
    editApiKey P processKey db keyId form =
      if selectedAccessMode P.ucd form.accessMode row.val.accessMode ∉ apiKeyAccessModes then
        (apiKeysPage P processKey db
          (.refused (lit "Access mode must be read_only or read_write.")), db)
      else if form.zoneIds = [] then
        (apiKeysPage P processKey db (.refused (lit "Select at least one DNS zone.")), db)
      else
        linkZones P processKey
          (edited db row form.label (selectedAccessMode P.ucd form.accessMode row.val.accessMode))
          row.id form.zoneIds := by
  unfold editApiKey
  rw [bindInt_eq_ok_iff.mpr ⟨hfits, rfl⟩]
  dsimp only
  rw [hget]
  dsimp only
  unfold apiKeyAccessMode
  by_cases hmode : selectedAccessMode P.ucd form.accessMode row.val.accessMode ∈ apiKeyAccessModes
  · simp [hmode, edited]
  · simp [hmode]

variable (P processKey db keyId form) in
/-- The key of an edit is there, or nothing is done. -/
theorem editApiKey_cases :
    ((fitsColumn keyId = false ∨ db.apiKeys.get? keyId.toNat = none) ∧
        (editApiKey P processKey db keyId form).1 ≠ .ok .saved ∧
        (editApiKey P processKey db keyId form).2 = db) ∨
      fitsColumn keyId = true ∧ ∃ row, db.apiKeys.get? keyId.toNat = some row := by
  cases hfits : fitsColumn keyId with
  | false =>
      left
      unfold editApiKey bindInt
      simp [hfits]
  | true =>
      cases hget : db.apiKeys.get? keyId.toNat with
      | none =>
          left
          unfold editApiKey
          rw [bindInt_eq_ok_iff.mpr ⟨hfits, rfl⟩]
          simp [hget]
      | some row => exact .inr ⟨rfl, row, rfl⟩

/-- What the keys may use between the two commits of an edit. -/
theorem allowed_edited {label : Str} {keyId zoneId : Nat} :
    Allowed (edited db row label accessMode) keyId zoneId ↔
      Allowed db keyId zoneId ∧ keyId ≠ row.id := by
  simp only [Allowed, edited, Table.mem_delete, decide_eq_false_iff_not]
  constructor
  · intro h
    obtain ⟨link, ⟨hmem, hne⟩, hval⟩ := h
    exact ⟨⟨link, hmem, hval⟩, by rwa [hval] at hne⟩
  · intro h
    obtain ⟨⟨link, hmem, hval⟩, hne⟩ := h
    exact ⟨link, ⟨hmem, by rwa [hval]⟩, hval⟩

/-- The keys after one of them is changed. -/
theorem mem_changeApiKey {keys : Table ApiKey} {id : Nat} {label accessMode : Str}
    {row : Row ApiKey} :
    row ∈ (changeApiKey keys id label accessMode).rows ↔
      ∃ old ∈ keys.rows,
        ⟨old.id, if old.id = id then { old.val with label, accessMode } else old.val⟩ = row :=
  Table.mem_update

/-- The edited key is found. -/
theorem get_edited (label accessMode : Str) (h : row ∈ db.apiKeys.rows) :
    (edited db row label accessMode).apiKeys.get? row.id =
      some ⟨row.id, { row.val with label, accessMode }⟩ := by
  have hmem : (⟨row.id, { row.val with label, accessMode }⟩ : Row ApiKey) ∈
      (changeApiKey db.apiKeys row.id label accessMode).rows :=
    mem_changeApiKey.mpr ⟨row, h, by simp⟩
  exact Table.get?_eq_some_iff.mpr ⟨hmem, rfl⟩

/-- When an edit leaves the keys as they are. -/
theorem edited_apiKeys_eq_iff {label : Str} (h : row ∈ db.apiKeys.rows) :
    (edited db row label accessMode).apiKeys = db.apiKeys ↔
      row.val.label = label ∧ row.val.accessMode = accessMode := by
  constructor
  · intro heq
    have hget := get_edited label accessMode h
    rw [heq, Table.get?_eq_some_iff.mpr ⟨h, rfl⟩] at hget
    have hrow := Option.some.inj hget
    rw [hrow]
    exact ⟨rfl, rfl⟩
  · intro heq
    obtain ⟨rfl, rfl⟩ := heq
    have hrows : ∀ other ∈ db.apiKeys.rows,
        (⟨other.id, if other.id = row.id then
          { other.val with label := row.val.label, accessMode := row.val.accessMode }
          else other.val⟩ : Row ApiKey) = other := by
      intro other hother
      split
      · next heq => rw [db.apiKeys.eq_of_id hother h heq]
      · rfl
    exact Table.ext ((List.map_congr_left hrows).trans (List.map_id _))

/-- An edit leaves everything as it is exactly if it leaves the key what it has. -/
theorem unchanged_edited_iff {db' : Db} {label : Str} {Linked : Nat → Prop}
    (h : row ∈ db.apiKeys.rows)
    (hkeys : db'.apiKeys = (edited db row label accessMode).apiKeys)
    (hallowed : ∀ keyId zoneId, Allowed db' keyId zoneId ↔
      Allowed (edited db row label accessMode) keyId zoneId ∨ keyId = row.id ∧ Linked zoneId) :
    Unchanged db db' ↔
      row.val.label = label ∧ row.val.accessMode = accessMode ∧
        ∀ zoneId, Allowed db row.id zoneId ↔ Linked zoneId := by
  rw [← and_assoc, ← edited_apiKeys_eq_iff h, ← hkeys]
  simp only [allowed_edited] at hallowed
  constructor
  · intro hsame
    refine ⟨hsame.keys, fun zoneId => ?_⟩
    rw [← hsame.zones, hallowed]
    simp
  · intro hsame
    obtain ⟨hkeys, hzones⟩ := hsame
    refine ⟨hkeys, fun keyId zoneId => ?_⟩
    rw [hallowed]
    by_cases hkey : keyId = row.id
    · simp [hkey, hzones]
    · simp [hkey]

variable (db row accessMode) in
/-- When the links of an edit go in. -/
theorem exists_addLinks_edited_iff (label : Str) (zoneIds : List Int) :
    (∃ db', addLinks (edited db row label accessMode) row.id zoneIds = .ok db') ↔
      (∀ id ∈ zoneIds, fitsColumn id = true) ∧ (existingZoneIds db zoneIds).Nodup := by
  rw [exists_addLinks_iff]
  simp only [allowed_edited, ne_eq, not_true_eq_false, and_false, not_false_eq_true, implies_true,
    and_true]
  exact Iff.rfl

/-- What the part of an edit after the first commit comes to. -/
theorem linkZones_edited_iff {linkable : Prop} (h : row ∈ db.apiKeys.rows)
    (hlinkable : linkable ↔
      (∀ id ∈ form.zoneIds, fitsColumn id = true) ∧ (existingZoneIds db form.zoneIds).Nodup) :
    ((linkZones P processKey (edited db row form.label accessMode) row.id form.zoneIds).1 =
            .ok .saved ∧
          Saved row.id form accessMode db
            (linkZones P processKey (edited db row form.label accessMode) row.id form.zoneIds).2) ∨
        ((linkZones P processKey (edited db row form.label accessMode) row.id form.zoneIds).1 ≠
            .ok .saved ∧
          Unchanged db
            (linkZones P processKey (edited db row form.label accessMode) row.id form.zoneIds).2) ↔
      (linkable ∧ Readable P processKey db) ∨
        (row.val.label = form.label ∧ row.val.accessMode = accessMode ∧
          ∀ zoneId, Allowed db row.id zoneId ↔ linkable ∧ Submitted db form.zoneIds zoneId) := by
  have hadd := hlinkable.trans (exists_addLinks_edited_iff db row accessMode form.label
    form.zoneIds).symm
  by_cases hlinks : linkable
  · obtain ⟨db', hdb'⟩ := hadd.mp hlinks
    obtain ⟨hreply, hafter⟩ := linkZones_of_addLinks P processKey hdb'
    have hallowed : ∀ keyId zoneId, Allowed db' keyId zoneId ↔
        Allowed (edited db row form.label accessMode) keyId zoneId ∨
          keyId = row.id ∧ linkable ∧ Submitted db form.zoneIds zoneId := by
      intro keyId zoneId
      rw [allowed_addLinks hdb']
      simp only [hlinks, true_and]
      exact Iff.rfl
    have hkeys := (addLinks_frame hdb').1
    have hreadable : Readable P processKey (edited db row form.label accessMode) ↔
        Readable P processKey db := readable_congr rfl rfl
    rw [hafter, ne_eq, hreply, hreadable, ← unchanged_edited_iff h hkeys hallowed]
    by_cases hread : Readable P processKey db
    · have hsaved : Saved row.id form accessMode db db' := by
        refine ⟨⟨⟨row.id, { row.val with label := form.label, accessMode }⟩, ?_, rfl, rfl⟩, ?_⟩
        · rw [hkeys]
          exact get_edited _ _ h
        · intro zoneId
          rw [hallowed, allowed_edited]
          simp [hlinks]
      exact iff_of_true (.inl ⟨hread, hsaved⟩) (.inl ⟨hlinks, hread⟩)
    · simp [hread]
  · obtain ⟨hne, hafter⟩ := linkZones_of_not P processKey fun hsome =>
      hlinks (hadd.mpr hsome)
    have hallowed : ∀ keyId zoneId, Allowed (edited db row form.label accessMode) keyId zoneId ↔
        Allowed (edited db row form.label accessMode) keyId zoneId ∨
          keyId = row.id ∧ linkable ∧ Submitted db form.zoneIds zoneId := by
      simp [hlinks]
    rw [hafter, ← unchanged_edited_iff h rfl hallowed]
    simp [hne, hlinks]

variable (P processKey db keyId form) in
/-- An edit is atomic exactly if it is refused, goes through, or changes nothing. -/
theorem atomic_inlineEdit_iff (new : NewKey) :
    Atomic P processKey (.inlineEdit new keyId form) db ↔
      Refused P.ucd db (.inlineEdit new keyId form) ∨
        (Linkable db (.inlineEdit new keyId form) ∧ Readable P processKey db) ∨
          Idle P.ucd db (.inlineEdit new keyId form) := by
  have hserve : (ApiKeyRequest.inlineEdit new keyId form).serve P processKey db =
      editApiKey P processKey db keyId form := rfl
  rw [atomic_iff_serve, hserve]
  rcases editApiKey_cases P processKey db keyId form with ⟨hmissing, hne, hsame⟩ | ⟨hfits, row, hget⟩
  · refine iff_of_true (.inr ⟨hne, ?_⟩) (.inl (.inr (.inr hmissing)))
    rw [hsame]
    exact .refl db
  · obtain ⟨hmem, hid⟩ := Table.get?_eq_some_iff.mp hget
    have hmode : ApiKeyRequest.accessMode P.ucd db (.inlineEdit new keyId form) =
        selectedAccessMode P.ucd form.accessMode row.val.accessMode := by
      simp [ApiKeyRequest.accessMode, hget]
    have hrefused : Refused P.ucd db (.inlineEdit new keyId form) ↔
        form.zoneIds = [] ∨
          selectedAccessMode P.ucd form.accessMode row.val.accessMode ∉ apiKeyAccessModes := by
      simp [Refused, ApiKeyRequest.form, hmode, hfits, hget]
    rw [hrefused, editApiKey_of_get hfits hget]
    by_cases hbad : selectedAccessMode P.ucd form.accessMode row.val.accessMode ∈ apiKeyAccessModes
    · by_cases hnone : form.zoneIds = []
      · rw [if_neg (not_not.mpr hbad), if_pos hnone]
        exact iff_of_true (.inr ⟨apiKeysPage_ne_saved (by simp), .refl db⟩) (.inl (.inl hnone))
      · have hlinkable : Linkable db (.inlineEdit new keyId form) ↔
            (∀ id ∈ form.zoneIds, fitsColumn id = true) ∧
              (existingZoneIds db form.zoneIds).Nodup := by
          simp [Linkable, ApiKeyRequest.form]
        have hidle : Idle P.ucd db (.inlineEdit new keyId form) ↔
            row.val.label = form.label ∧
              row.val.accessMode = selectedAccessMode P.ucd form.accessMode row.val.accessMode ∧
              ∀ zoneId, Allowed db row.id zoneId ↔
                Linkable db (.inlineEdit new keyId form) ∧ Submitted db form.zoneIds zoneId := by
          simp [Idle, hget, hmode, ApiKeyRequest.form]
        rw [if_neg (not_not.mpr hbad), if_neg hnone, hidle, ← linkZones_edited_iff hmem hlinkable]
        simp [hnone, hbad, hmode, ApiKeyRequest.keyId, ApiKeyRequest.form, hid]
    · rw [if_pos hbad]
      exact iff_of_true (.inr ⟨apiKeysPage_ne_saved (by simp), .refl db⟩) (.inl (.inr hbad))

end Edit

/-! ### a new key -/

section Create

variable {P : Platform} {processKey : Str} {db db' : Db} {form : ApiKeyForm} {apiKey : ApiKey}
  {apiKeys : Table ApiKey}

/-- A key does not go in if its digest is there. -/
theorem insert_apiKey_eq_none_iff :
    db.apiKeys.insert apiKey = none ↔ ∃ row ∈ db.apiKeys.rows, row.val.key = apiKey.key := by
  rw [Table.insert_eq_none_iff, Table.Free]
  simp [Row.key?, Record.key?, eq_comm]

/-- A key that goes in changes the table. -/
theorem ne_of_insert (h : db.apiKeys.insert apiKey = some apiKeys) : apiKeys ≠ db.apiKeys := by
  intro heq
  have hlength := congrArg List.length (Table.insert_eq_some_iff.mp h).2
  rw [heq, List.length_append, List.length_singleton] at hlength
  omega

/-- A key that went in is found. -/
theorem get_insert (h : db.apiKeys.insert apiKey = some apiKeys) :
    apiKeys.get? db.apiKeys.nextId = some ⟨db.apiKeys.nextId, apiKey⟩ := by
  rw [Table.get?_eq_some_iff, (Table.insert_eq_some_iff.mp h).2]
  simp

/-- The rowid of the new key has no links. -/
def Fresh (db : Db) : Prop := ∀ zoneId, ¬Allowed db db.apiKeys.nextId zoneId

variable (P processKey) in
/-- Once its row is committed, a new key is as it should be exactly if the rest
goes through and its rowid had no links. -/
theorem linkZones_create_iff (h : db.apiKeys.insert apiKey = some apiKeys)
    (hlabel : apiKey.label = form.label) :
    ((linkZones P processKey { db with apiKeys } db.apiKeys.nextId form.zoneIds).1 = .ok .saved ∧
          Saved db.apiKeys.nextId form apiKey.accessMode db
            (linkZones P processKey { db with apiKeys } db.apiKeys.nextId form.zoneIds).2) ∨
        ((linkZones P processKey { db with apiKeys } db.apiKeys.nextId form.zoneIds).1 ≠
            .ok .saved ∧
          Unchanged db
            (linkZones P processKey { db with apiKeys } db.apiKeys.nextId form.zoneIds).2) ↔
      ((∀ id ∈ form.zoneIds, fitsColumn id = true) ∧ (existingZoneIds db form.zoneIds).Nodup ∧
        Fresh db) ∧ Readable P processKey db := by
  have hadd := exists_addLinks_iff { db with apiKeys } db.apiKeys.nextId form.zoneIds
  by_cases hlinks : ∃ db', addLinks { db with apiKeys } db.apiKeys.nextId form.zoneIds = .ok db'
  · obtain ⟨db', hdb'⟩ := hlinks
    obtain ⟨hfits, hnodup, hnone⟩ := hadd.mp ⟨db', hdb'⟩
    obtain ⟨hreply, hafter⟩ := linkZones_of_addLinks P processKey hdb'
    have hreadable : Readable P processKey { db with apiKeys } ↔ Readable P processKey db :=
      readable_congr rfl rfl
    have hkeys := (addLinks_frame hdb').1
    have hchanged : ¬Unchanged db db' := fun hsame =>
      ne_of_insert h (hkeys.symm.trans hsame.keys)
    have hsaved : Saved db.apiKeys.nextId form apiKey.accessMode db db' ↔ Fresh db := by
      have hallowed : ∀ zoneId, Allowed db' db.apiKeys.nextId zoneId ↔
          Allowed db db.apiKeys.nextId zoneId ∨ Submitted db form.zoneIds zoneId := by
        intro zoneId
        rw [allowed_addLinks hdb']
        simp only [true_and]
        exact Iff.rfl
      constructor
      · intro hsaved zoneId hleft
        exact hnone zoneId ((hsaved.zones zoneId).mp ((hallowed zoneId).mpr (.inl hleft))) hleft
      · intro hfresh
        refine ⟨⟨⟨db.apiKeys.nextId, apiKey⟩, ?_, hlabel, rfl⟩, fun zoneId => ?_⟩
        · rw [hkeys]
          exact get_insert h
        · rw [hallowed]
          simp [hfresh zoneId]
    rw [hafter, ne_eq, hreply, hreadable, hsaved]
    simp only [hchanged, and_false, or_false]
    constructor
    · intro hboth
      exact ⟨⟨hfits, hnodup, hboth.2⟩, hboth.1⟩
    · intro hall
      exact ⟨hall.2, hall.1.2.2⟩
  · obtain ⟨hne, hafter⟩ := linkZones_of_not P processKey hlinks
    have hchanged : ¬Unchanged db { db with apiKeys } := fun hsame => ne_of_insert h hsame.keys
    have hnot : ¬((∀ id ∈ form.zoneIds, fitsColumn id = true) ∧
        (existingZoneIds db form.zoneIds).Nodup ∧ Fresh db) := by
      intro hall
      exact hlinks (hadd.mpr ⟨hall.1, hall.2.1, fun zoneId _ => hall.2.2 zoneId⟩)
    rw [hafter]
    simp [hne, hchanged, hnot]

/-- What the creation of a key does. -/
theorem createApiKeyRoute_none {new : NewKey}
    (hkey : apiKey =
      { label := form.label, key := new.digest, keyPrefix := some new.shown,
        accessMode := selectedAccessMode P.ucd form.accessMode apiKeyAccessReadOnly
        active := true, createdAt := new.createdAt }) :
    createApiKeyRoute P processKey db new none form =
      if apiKey.accessMode ∉ apiKeyAccessModes then
        (apiKeysPage P processKey db
          (.refused (lit "Access mode must be read_only or read_write.")), db)
      else if form.zoneIds = [] then
        (apiKeysPage P processKey db
          (.refused (lit "Select at least one DNS zone for this API key.")), db)
      else
        match db.apiKeys.insert apiKey with
        | none => (.error integrityError, db)
        | some apiKeys => linkZones P processKey { db with apiKeys } db.apiKeys.nextId form.zoneIds := by
  subst hkey
  unfold createApiKeyRoute apiKeyAccessMode
  by_cases hmode :
      selectedAccessMode P.ucd form.accessMode apiKeyAccessReadOnly ∈ apiKeyAccessModes
  · simp [hmode]
  · simp [hmode]

/-- A new key is created as it should be exactly if that is refused, or goes
through and its rowid has no links. -/
theorem atomic_create_iff {new : NewKey} :
    Atomic P processKey (.create new form) db ↔
      Refused P.ucd db (.create new form) ∨
        (Linkable db (.create new form) ∧ Readable P processKey db) ∨
          Idle P.ucd db (.create new form) := by
  have hserve : (ApiKeyRequest.create new form).serve P processKey db =
      createApiKeyRoute P processKey db new none form := rfl
  rw [atomic_iff_serve, hserve]
  generalize hkey : ({ label := form.label, key := new.digest, keyPrefix := some new.shown,
                       accessMode := selectedAccessMode P.ucd form.accessMode apiKeyAccessReadOnly,
                       active := true, createdAt := new.createdAt } : ApiKey) = apiKey
  have hlabel : apiKey.label = form.label := by rw [← hkey]
  have hdigest : apiKey.key = new.digest := by rw [← hkey]
  have haccess : ApiKeyRequest.accessMode P.ucd db (.create new form) = apiKey.accessMode := by
    rw [← hkey]
    rfl
  have hrefused : Refused P.ucd db (.create new form) ↔ form.zoneIds = [] ∨
      apiKey.accessMode ∉ apiKeyAccessModes ∨ ∃ row ∈ db.apiKeys.rows, row.val.key = apiKey.key := by
    rw [hdigest, ← haccess]
    exact Iff.rfl
  have hidle : ¬Idle P.ucd db (.create new form) := id
  rw [hrefused, createApiKeyRoute_none hkey.symm, haccess]
  by_cases hmode : apiKey.accessMode ∈ apiKeyAccessModes
  · rw [if_neg (not_not.mpr hmode)]
    by_cases hnone : form.zoneIds = []
    · rw [if_pos hnone]
      exact iff_of_true (.inr ⟨apiKeysPage_ne_saved (by simp), .refl db⟩) (.inl (.inl hnone))
    · rw [if_neg hnone]
      cases hinsert : db.apiKeys.insert apiKey with
      | none =>
          have htaken := insert_apiKey_eq_none_iff.mp hinsert
          exact iff_of_true (.inr ⟨by simp, .refl db⟩) (.inl (.inr (.inr htaken)))
      | some apiKeys =>
          have hfree : ¬∃ row ∈ db.apiKeys.rows, row.val.key = apiKey.key := by
            intro htaken
            rw [insert_apiKey_eq_none_iff.mpr htaken] at hinsert
            contradiction
          have hlinks := linkZones_create_iff P processKey hinsert hlabel
          simp only [hnone, hmode, hfree, hidle, not_true_eq_false, false_or, or_false]
          exact hlinks
  · rw [if_pos hmode]
    exact iff_of_true (.inr ⟨apiKeysPage_ne_saved (by simp), .refl db⟩) (.inl (.inr (.inl hmode)))

end Create

/-- A request is atomic exactly if it is refused, if its links can be added and
the log level, the zones and the page header can be read, or if it is an edit that
leaves the key what it has. -/
theorem atomic_iff (P : Platform) (processKey : Str) (request : ApiKeyRequest) (db : Db) :
    Atomic P processKey request db ↔
      Refused P.ucd db request ∨ (Linkable db request ∧ Readable P processKey db) ∨
        Idle P.ucd db request := by
  cases request with
  | create new form => exact atomic_create_iff
  | inlineEdit new keyId form => exact atomic_inlineEdit_iff P processKey db keyId form new
  | update keyId form =>
      -- the two forms run the same edit
      have hiff := atomic_inlineEdit_iff P processKey db keyId form ⟨[], [], ⟨[]⟩⟩
      exact hiff

/-- A key that may use one zone. -/
def oneKeyDb : Db :=
  { Db.empty with
    apiKeys := .ofList
      [⟨lit "ci", lit "digest", some (lit "abc"), apiKeyAccessReadWrite, true,
        ⟨lit "2026-01-01T00:00:00"⟩⟩]
    zones := .ofList [⟨lit "example.com", lit "token"⟩]
    allowedZones := .ofList [⟨1, 1⟩] }

/-- The zone of the key is submitted twice: the edit fails and takes it away. -/
theorem not_atomic_twice :
    ¬Atomic .plain (lit "key") (.update 1 ⟨lit "ci", [1, 1], none⟩) oneKeyDb ∧
      Allowed oneKeyDb 1 1 ∧
      ∀ zoneId, ¬Allowed (apiKeyUpdate .plain (lit "key") oneKeyDb 1
        ⟨lit "ci", [1, 1], none⟩).2 1 zoneId := by
  have hfailed : (apiKeyUpdate .plain (lit "key") oneKeyDb 1 ⟨lit "ci", [1, 1], none⟩).1 =
      .error integrityError := by rfl
  have hlinks : (apiKeyUpdate .plain (lit "key") oneKeyDb 1
      ⟨lit "ci", [1, 1], none⟩).2.allowedZones.rows = [] := by rfl
  have hnone : ∀ zoneId, ¬Allowed (apiKeyUpdate .plain (lit "key") oneKeyDb 1
      ⟨lit "ci", [1, 1], none⟩).2 1 zoneId := by
    intro zoneId hallowed
    obtain ⟨link, hmem, -⟩ := hallowed
    rw [hlinks] at hmem
    contradiction
  have hbefore : Allowed oneKeyDb 1 1 := by decide
  refine ⟨fun hatomic => ?_, hbefore, hnone⟩
  rcases hatomic _ _ rfl with ⟨hsaved, -⟩ | ⟨-, hsame⟩
  · exact absurd (hfailed.symm.trans hsaved) (by simp)
  · exact hnone 1 ((hsame.zones 1 1).mpr hbefore)

end ApiToDns.ApiKeys
