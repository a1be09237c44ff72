import ApiToDns.Lib.Division
import ApiToDns.Plugins.DnsPython

/-!
# BindBrowse

`BindTsigDnsClient.list_records`: the answers of a zone transfer are read one
after the other, and each that matches becomes an entry, as far as a limit and
a cap on how many are looked at.  An RRset that the server divides between two
messages becomes two entries; browsing is exact as long as none that is listed
is divided (`browsesExactly_iff`).
-/

namespace ApiToDns.Bind

open Py Division

/-! ## the loop -/

/-- A record set of an answer section of a transfer; `rdtype` is the text of its
type, which need not be one that the program knows. -/
structure XfrRrset where
  /-- relative to the origin -/
  name : Name
  rdtype : Str
  ttl : Nat
  rdatas : List Rdata
deriving DecidableEq, Repr

/-- `_AXFR_MAX_RRSETS_SCANNED`. -/
def axfrMaxRrsetsScanned : Nat := 5000

section

variable (U : Ucd) (casefold : Str → Str) (d : DnsPython)

/-- `rrset.name.to_text()`, or `@`. -/
def relativeText (name : Name) : Str :=
  let relative := d.nameToText name
  if relative = ['.'] ∨ relative = [] then ['@'] else relative

/-- What `_iter_axfr_rrsets` yields of the answers: every SOA but the first is
skipped. -/
def iterAxfrRrsets : Bool → List XfrRrset → List (Str × XfrRrset)
  | _, [] => []
  | seenSoa, rrset :: rest =>
      if rrset.rdtype = RecordType.soa.text then
        if seenSoa then iterAxfrRrsets seenSoa rest
        else (relativeText d rrset.name, rrset) :: iterAxfrRrsets true rest
      else (relativeText d rrset.name, rrset) :: iterAxfrRrsets seenSoa rest

/-- What is asked for. -/
structure BindQuery where
  namePattern : Option Str
  wantedType : Option RecordType
  limit : Int

/-- The type of a record set of that name and type, if it is asked for. -/
def matchedType (q : BindQuery) (key : Str × Str) : Option RecordType :=
  if recordNameMatches casefold q.namePattern key.1 then
    (RecordType.ofText? key.2).filter fun rt => q.wantedType = none ∨ q.wantedType = some rt
  else none

/-- The entry of a record set. -/
def rdatasetToInfo (relative : Str) (rt : RecordType) (rdataset : XfrRrset) :
    Except Exc DnsRecordInfo := do
  let values ← rdataset.rdatas.mapM (formatRdataValue U d rt)
  return ⟨relative, rt.text, some rdataset.ttl, some values⟩

/-- The loop of `list_records`. -/
def browseRrsets (q : BindQuery) :
    List (Str × XfrRrset) → Nat → List DnsRecordInfo → Except Exc DnsRecordListResult
  | [], _, records => .ok ⟨records, false⟩
  | (relative, rdataset) :: rest, scanned, records =>
      if axfrMaxRrsetsScanned < scanned + 1 then .ok ⟨records, true⟩
      else
        match matchedType casefold q (relative, rdataset.rdtype) with
        | none => browseRrsets q rest (scanned + 1) records
        | some rt =>
            if q.limit ≤ records.length then .ok ⟨records, true⟩
            else do
              let info ← rdatasetToInfo U d relative rt rdataset
              browseRrsets q rest (scanned + 1) (records ++ [info])

/-- `BindTsigDnsClient.list_records`, the transfer having given the messages. -/
def browseRecords (namePattern recordType : Option Str) (limit : Int) (server : Json) (dnsZone : Str)
    (messages : List (List XfrRrset)) : Except Exc DnsRecordListResult := do
  let _ ← target server dnsZone
  let wantedType ← normalizeLookupRecordType U recordType
  browseRrsets U casefold d ⟨namePattern, wantedType, limit⟩
    (iterAxfrRrsets d false messages.flatten) 0 []

end

/-! ## zones and transfers -/

section

variable {U : Ucd} {casefold : Str → Str} {d : DnsPython} {q : BindQuery}

/-- The name and the type of a record set. -/
def XfrRrset.key (d : DnsPython) (r : XfrRrset) : Str × Str := (relativeText d r.name, r.rdtype)

/-- The answers of the messages transfer the zone: its SOA stands at both ends, and
between them every other record set, as a whole or in parts. -/
structure Transfers (d : DnsPython) (zone : List XfrRrset) (messages : List (List XfrRrset)) :
    Prop where
  exists_parts : ∃ soa parts, messages.flatten = soa :: parts ++ [soa] ∧
    soa.rdtype = RecordType.soa.text ∧ (∀ p ∈ parts, p.rdtype ≠ RecordType.soa.text) ∧
    Divides (XfrRrset.key d) XfrRrset.rdatas zone (soa :: parts)
  ttl : ∀ p ∈ messages.flatten, ∀ w ∈ zone, w.key d = p.key d → w.ttl = p.ttl

/-- The answers without the SOA at the end. -/
def transferred (messages : List (List XfrRrset)) : List XfrRrset := messages.flatten.dropLast

/-- The answers that match, with the types they match as, among those that are
looked at. -/
def matching (casefold : Str → Str) (d : DnsPython) (q : BindQuery) (parts : List XfrRrset) :
    List (RecordType × XfrRrset) :=
  (parts.take axfrMaxRrsetsScanned).filterMap fun p =>
    (matchedType casefold q (p.key d)).map fun rt => (rt, p)

/-- After the first SOA everything up to the second is passed on. -/
theorem iterAxfr_of_seen {parts : List XfrRrset} {soa : XfrRrset}
    (hparts : ∀ p ∈ parts, p.rdtype ≠ RecordType.soa.text) (hsoa : soa.rdtype = RecordType.soa.text) :
    iterAxfrRrsets d true (parts ++ [soa]) = parts.map fun p => (relativeText d p.name, p) := by
  induction parts with
  | nil => simp [iterAxfrRrsets, hsoa]
  | cons p parts ih =>
      obtain ⟨hp, hrest⟩ := List.forall_mem_cons.mp hparts
      simp [iterAxfrRrsets, hp, ih hrest]

/-- The transfer yields everything but the SOA at the end. -/
theorem iterAxfr_transfers {zone : List XfrRrset} {messages : List (List XfrRrset)}
    (h : Transfers d zone messages) :
    iterAxfrRrsets d false messages.flatten =
      (transferred messages).map fun p => (relativeText d p.name, p) := by
  obtain ⟨soa, parts, hflat, hsoa, hparts, -⟩ := h.exists_parts
  rw [transferred, hflat, List.dropLast_concat, List.cons_append, List.map_cons, iterAxfrRrsets,
    if_pos hsoa]
  simp [iterAxfr_of_seen hparts hsoa]

/-- What the loop ends with: the first entries that match, as far as the limit. -/
theorem browseRrsets_eq (parts : List XfrRrset) (scanned : Nat) (records : List DnsRecordInfo) :
    browseRrsets U casefold d q (parts.map fun p => (relativeText d p.name, p)) scanned records =
      let found := (parts.take (axfrMaxRrsetsScanned - scanned)).filterMap fun p =>
        (matchedType casefold q (p.key d)).map fun rt => (rt, p)
      (found.take (q.limit.toNat - records.length)).mapM (fun f =>
          rdatasetToInfo U d (relativeText d f.2.name) f.1 f.2) >>= fun infos =>
        .ok ⟨records ++ infos, decide (q.limit.toNat - records.length < found.length ∨
          axfrMaxRrsetsScanned - scanned < parts.length)⟩ := by
  induction parts generalizing scanned records with
  | nil => simp [browseRrsets]
  | cons p parts ih =>
      dsimp only
      rw [List.map_cons, browseRrsets]
      by_cases hcap : axfrMaxRrsetsScanned < scanned + 1
      · rw [if_pos hcap, show axfrMaxRrsetsScanned - scanned = 0 by omega]
        simp
      · rw [if_neg hcap,
          show axfrMaxRrsetsScanned - scanned = axfrMaxRrsetsScanned - (scanned + 1) + 1 by omega,
          List.take_succ_cons, List.filterMap_cons]
        cases hmatch : matchedType casefold q (p.key d) with
        | none =>
            have hmatch' : matchedType casefold q (relativeText d p.name, p.rdtype) = none := hmatch
            rw [hmatch']
            dsimp only [Option.map_none]
            rw [ih]
            simp
        | some rt =>
            have hmatch' : matchedType casefold q (relativeText d p.name, p.rdtype) = some rt := hmatch
            rw [hmatch']
            dsimp only [Option.map_some]
            by_cases hlimit : q.limit ≤ records.length
            · rw [if_pos hlimit, show q.limit.toNat - records.length = 0 by omega]
              simp
            · rw [if_neg hlimit,
                show q.limit.toNat - records.length = q.limit.toNat - (records.length + 1) + 1 by omega,
                List.take_succ_cons, List.mapM_cons]
              cases rdatasetToInfo U d (relativeText d p.name) rt p with
              | error e => rfl
              | ok info =>
                  rw [ok_bind, ih]
                  simp

/-! ## what is listed -/

variable {zone parts : List XfrRrset} {messages : List (List XfrRrset)}

/-- A matched RRset has the type it is asked for. -/
theorem ofText?_of_matchedType {key : Str × Str} {rt : RecordType}
    (h : matchedType casefold q key = some rt) : RecordType.ofText? key.2 = some rt := by
  unfold matchedType at h
  split at h
  · exact (Option.filter_eq_some_iff.mp h).1
  · contradiction

/-- The RRsets that match among those scanned. -/
theorem mem_matching_iff {f : RecordType × XfrRrset} :
    f ∈ matching casefold d q parts ↔
      f.2 ∈ parts.take axfrMaxRrsetsScanned ∧ matchedType casefold q (f.2.key d) = some f.1 := by
  obtain ⟨rt, p⟩ := f
  simp only [matching, List.mem_filterMap, Option.map_eq_some_iff, Prod.mk.injEq]
  constructor
  · intro h
    obtain ⟨p', hp', rt', hmatch, rfl, rfl⟩ := h
    exact ⟨hp', hmatch⟩
  · intro h
    exact ⟨p, h.1, rt, h.2, rfl, rfl⟩

/-- Matching keeps the order. -/
theorem matching_sublist (casefold : Str → Str) (d : DnsPython) (q : BindQuery)
    (parts : List XfrRrset) : ((matching casefold d q parts).map Prod.snd).Sublist parts := by
  have hfilter : (matching casefold d q parts).map Prod.snd =
      (parts.take axfrMaxRrsetsScanned).filter fun p => (matchedType casefold q (p.key d)).isSome := by
    unfold matching
    induction parts.take axfrMaxRrsetsScanned with
    | nil => rfl
    | cons p ps ih => cases hmatch : matchedType casefold q (p.key d) <;> simp [hmatch, ih]
  rw [hfilter]
  exact List.filter_sublist.trans (List.take_sublist _ _)

/-- What is read of an RRset. -/
theorem rdatasetToInfo_eq_ok_iff {relative : Str} {rt : RecordType} {p : XfrRrset}
    {info : DnsRecordInfo} :
    rdatasetToInfo U d relative rt p = .ok info ↔
      ∃ shown, p.rdatas.mapM (formatRdataValue U d rt) = .ok shown ∧
        info = ⟨relative, rt.text, some p.ttl, some shown⟩ := by
  unfold rdatasetToInfo
  rw [bind_eq_ok_iff]
  refine exists_congr fun shown => and_congr_right fun _ => ?_
  constructor
  · intro h
    exact (Except.ok.inj h).symm
  · intro h
    rw [h]
    rfl

/-- The name and the type of an entry. -/
def keyOf (info : DnsRecordInfo) : Str × Str := (info.recordName, info.recordType)

/-- What is read of an RRset has its name and type. -/
theorem keyOf_rdatasetToInfo {f : RecordType × XfrRrset} {info : DnsRecordInfo}
    (hf : f ∈ matching casefold d q parts)
    (h : rdatasetToInfo U d (relativeText d f.2.name) f.1 f.2 = .ok info) :
    keyOf info = f.2.key d := by
  obtain ⟨shown, -, rfl⟩ := rdatasetToInfo_eq_ok_iff.mp h
  have htype := ofText?_of_matchedType (mem_matching_iff.mp hf).2
  exact Prod.ext rfl (RecordType.text_of_ofText? htype)

/-- The entry has the values of the record set, in some order. -/
structure Shows (U : Ucd) (d : DnsPython) (w : XfrRrset) (info : DnsRecordInfo) : Prop where
  key : keyOf info = w.key d
  ttl : info.ttl = some w.ttl
  values : ∃ rt listed shown, RecordType.ofText? w.rdtype = some rt ∧ info.values = some listed ∧
    w.rdatas.mapM (formatRdataValue U d rt) = .ok shown ∧ listed.Perm shown

/-- The record set of the zone is asked for. -/
def Asked (casefold : Str → Str) (d : DnsPython) (q : BindQuery) (w : XfrRrset) : Prop :=
  ∃ rt, matchedType casefold q (w.key d) = some rt

/-- What a listing of the zone should be. -/
structure ExactListing (U : Ucd) (casefold : Str → Str) (d : DnsPython) (q : BindQuery)
    (zone : List XfrRrset) (messages : List (List XfrRrset)) (result : DnsRecordListResult) :
    Prop where
  whole : ∀ info ∈ result.records, ∃ w ∈ zone, Asked casefold d q w ∧ Shows U d w info
  once : (result.records.map keyOf).Nodup
  limit : result.records.length ≤ q.limit.toNat
  truncated : result.truncated = true ↔
    (∃ w ∈ zone, Asked casefold d q w ∧ ∀ info ∈ result.records, keyOf info ≠ w.key d) ∨
      axfrMaxRrsetsScanned < (transferred messages).length

/-- The answers that become entries. -/
def listed (casefold : Str → Str) (d : DnsPython) (q : BindQuery) (messages : List (List XfrRrset)) :
    List (RecordType × XfrRrset) :=
  (matching casefold d q (transferred messages)).take q.limit.toNat

/-- No RRset that is listed is divided, and the values of those that are can be
read. -/
def Undivided (U : Ucd) (casefold : Str → Str) (d : DnsPython) (q : BindQuery)
    (messages : List (List XfrRrset)) : Prop :=
  ∀ f ∈ listed casefold d q messages,
    ofKey (XfrRrset.key d) (transferred messages) (f.2.key d) = [f.2] ∧
      ∃ shown, f.2.rdatas.mapM (formatRdataValue U d f.1) = .ok shown

/-- What the browsing answers. -/
theorem browseRrsets_eq_ok_iff (h : Transfers d zone messages) {result : DnsRecordListResult} :
    browseRrsets U casefold d q (iterAxfrRrsets d false messages.flatten) 0 [] = .ok result ↔
      ∃ infos, (listed casefold d q messages).mapM (fun f =>
          rdatasetToInfo U d (relativeText d f.2.name) f.1 f.2) = .ok infos ∧
        result = ⟨infos, decide
          (q.limit.toNat < (matching casefold d q (transferred messages)).length ∨
            axfrMaxRrsetsScanned < (transferred messages).length)⟩ := by
  rw [iterAxfr_transfers h, browseRrsets_eq]
  dsimp only
  rw [bind_eq_ok_iff]
  refine exists_congr fun infos => and_congr_right fun _ => ?_
  simp only [Except.ok.injEq, List.nil_append, List.length_nil, Nat.sub_zero]
  exact eq_comm

/-- A transfer divides the zone. -/
theorem Transfers.divides (h : Transfers d zone messages) :
    Divides (XfrRrset.key d) XfrRrset.rdatas zone (transferred messages) := by
  obtain ⟨soa, parts, hflat, -, -, hdivides⟩ := h.exists_parts
  rwa [transferred, hflat, List.dropLast_concat]

/-- What is listed was transferred. -/
theorem mem_transferred_of_listed {f : RecordType × XfrRrset} (hf : f ∈ listed casefold d q messages) :
    f ∈ matching casefold d q (transferred messages) ∧ f.2 ∈ transferred messages := by
  have hmem := List.mem_of_mem_take hf
  exact ⟨hmem, List.mem_of_mem_take (mem_matching_iff.mp hmem).1⟩

/-- An entry that has the values of its whole RRset is that of an answer that has
them. -/
theorem undivided_of_whole (h : Transfers d zone messages) {infos : List DnsRecordInfo}
    (hinfos : (listed casefold d q messages).mapM (fun f =>
      rdatasetToInfo U d (relativeText d f.2.name) f.1 f.2) = .ok infos)
    (hwhole : ∀ info ∈ infos, ∃ w ∈ zone, Asked casefold d q w ∧ Shows U d w info) :
    Undivided U casefold d q messages := by
  intro f hf
  obtain ⟨hmatching, hpart⟩ := mem_transferred_of_listed hf
  obtain ⟨info, hinfo, hof⟩ := exists_of_mapM_eq_ok hinfos hf
  obtain ⟨shown, hshown, hinfo'⟩ := rdatasetToInfo_eq_ok_iff.mp hof
  obtain ⟨w, hw, -, hshows⟩ := hwhole info hinfo
  refine ⟨?_, shown, hshown⟩
  have hkey : w.key d = f.2.key d := hshows.key.symm.trans (keyOf_rdatasetToInfo hmatching hof)
  obtain ⟨rt, values, all, -, hvalues, hall, hperm⟩ := hshows.values
  have hlen : f.2.rdatas.length = w.rdatas.length := by
    rw [hinfo', Option.some.injEq] at hvalues
    rw [(mapM_eq_ok_iff.mp hshown).length_eq, (mapM_eq_ok_iff.mp hall).length_eq, hvalues,
      hperm.length_eq]
  exact h.divides.alone_of_length hw hpart hkey hlen

/-- An answer with the whole RRset becomes an entry with all of its values. -/
theorem shows_of_alone (h : Transfers d zone messages) {f : RecordType × XfrRrset}
    (hf : f ∈ listed casefold d q messages)
    (halone : ofKey (XfrRrset.key d) (transferred messages) (f.2.key d) = [f.2])
    {info : DnsRecordInfo} (hinfo : rdatasetToInfo U d (relativeText d f.2.name) f.1 f.2 = .ok info) :
    ∃ w ∈ zone, Asked casefold d q w ∧ Shows U d w info := by
  obtain ⟨hmatching, hpart⟩ := mem_transferred_of_listed hf
  have hmatch := (mem_matching_iff.mp hmatching).2
  obtain ⟨w, hw, hkey⟩ := h.divides.exists_whole f.2 hpart
  have hkeyOf := keyOf_rdatasetToInfo hmatching hinfo
  obtain ⟨shown, hshown, hinfo'⟩ := rdatasetToInfo_eq_ok_iff.mp hinfo
  have hperm := h.divides.perm_of_alone hw hkey halone
  obtain ⟨all, hall, hsame⟩ := forall₂_of_perm hperm.symm (mapM_eq_ok_iff.mp hshown)
  have httl := h.ttl f.2 (List.dropLast_subset _ hpart) w hw hkey
  refine ⟨w, hw, ⟨f.1, by rw [hkey, hmatch]⟩, hkeyOf.trans hkey.symm, ?_, ?_⟩
  · simp [hinfo', httl]
  · have htype : w.rdtype = f.2.rdtype := congrArg Prod.snd hkey
    refine ⟨f.1, shown, all, ?_, by rw [hinfo'], mapM_eq_ok_iff.mpr hall, hsame.symm⟩
    rw [htype]
    exact ofText?_of_matchedType hmatch

/-- No answer behind the limit has the key of an entry. -/
theorem key_ne_of_beyond (hundivided : Undivided U casefold d q messages)
    {f f' : RecordType × XfrRrset} (hf : f ∈ listed casefold d q messages)
    (hf' : f' ∈ (matching casefold d q (transferred messages)).drop q.limit.toNat) :
    f.2.key d ≠ f'.2.key d := by
  intro heq
  have hsub : [f.2, f'.2].Sublist (transferred messages) := by
    have hpair : [f, f'].Sublist (matching casefold d q (transferred messages)) := by
      rw [← List.take_append_drop q.limit.toNat (matching casefold d q (transferred messages))]
      exact (List.singleton_sublist.mpr hf).append (List.singleton_sublist.mpr hf')
    exact (hpair.map Prod.snd).trans (matching_sublist casefold d q _)
  have hboth := hsub.filter fun p => decide (p.key d = f.2.key d)
  rw [show (transferred messages).filter (fun p => decide (p.key d = f.2.key d)) = [f.2] from
    (hundivided f hf).1] at hboth
  have hlen := hboth.length_le
  simp [heq] at hlen

/-- The listing is exact when no RRset that is listed is divided. -/
theorem exactListing_of_undivided (h : Transfers d zone messages)
    (hundivided : Undivided U casefold d q messages) {infos : List DnsRecordInfo}
    (hinfos : (listed casefold d q messages).mapM (fun f =>
      rdatasetToInfo U d (relativeText d f.2.name) f.1 f.2) = .ok infos) :
    ExactListing U casefold d q zone messages ⟨infos, decide
      (q.limit.toNat < (matching casefold d q (transferred messages)).length ∨
        axfrMaxRrsetsScanned < (transferred messages).length)⟩ := by
  have hkeys : infos.map keyOf = (listed casefold d q messages).map fun f => f.2.key d :=
    map_eq_of_mapM_eq_ok hinfos fun f hf info hinfo =>
      keyOf_rdatasetToInfo (mem_transferred_of_listed hf).1 hinfo
  have hmem : ∀ k, (∀ info ∈ infos, keyOf info ≠ k) ↔
      ∀ f ∈ listed casefold d q messages, f.2.key d ≠ k := by
    intro k
    have hall : (∀ k' ∈ infos.map keyOf, k' ≠ k) ↔
        ∀ k' ∈ (listed casefold d q messages).map fun f => f.2.key d, k' ≠ k := by rw [hkeys]
    rwa [List.forall_mem_map, List.forall_mem_map] at hall
  refine ⟨fun info hinfo => ?_, ?_, ?_, ?_⟩
  · obtain ⟨f, hf, hof⟩ := mem_of_mapM_eq_ok hinfos hinfo
    exact shows_of_alone h hf (hundivided f hf).1 hof
  · have hsub : ((listed casefold d q messages).map Prod.snd).Sublist (transferred messages) :=
      ((List.take_sublist _ _).map Prod.snd).trans (matching_sublist casefold d q _)
    have halone : ∀ p ∈ (listed casefold d q messages).map Prod.snd,
        ofKey (XfrRrset.key d) (transferred messages) (p.key d) = [p] := by
      rw [List.forall_mem_map]
      exact fun f hf => (hundivided f hf).1
    have hnodup := nodup_keys_of_alone hsub halone
    rw [hkeys]
    simpa [List.map_map, Function.comp_def] using hnodup
  · rw [← (mapM_eq_ok_iff.mp hinfos).length_eq]
    exact List.length_take_le _ _
  · rw [decide_eq_true_iff]
    refine or_congr_left' fun hcap => ?_
    simp only [hmem]
    constructor
    · intro hmore
      have hne : (matching casefold d q (transferred messages)).drop q.limit.toNat ≠ [] := by
        rw [Ne, List.drop_eq_nil_iff]
        omega
      obtain ⟨f', hf'⟩ := List.exists_mem_of_ne_nil _ hne
      have hmatching := mem_matching_iff.mp (List.mem_of_mem_drop hf')
      obtain ⟨w, hw, hkey⟩ := h.divides.exists_whole f'.2 (List.mem_of_mem_take hmatching.1)
      refine ⟨w, hw, ⟨f'.1, by rw [hkey, hmatching.2]⟩, fun f hf => ?_⟩
      rw [hkey]
      exact key_ne_of_beyond hundivided hf hf'
    · intro homitted
      obtain ⟨w, hw, ⟨rt, hmatch⟩, hnone⟩ := homitted
      by_contra hfew
      obtain ⟨p, hp, hkey⟩ := h.divides.exists_part hw
      have hin : (rt, p) ∈ listed casefold d q messages := by
        rw [listed, List.take_of_length_le (by omega), mem_matching_iff,
          List.take_of_length_le (by omega)]
        exact ⟨hp, by rw [hkey, hmatch]⟩
      exact hnone _ hin hkey

/-- The listing of a zone that is transferred in these messages is exact. -/
def BrowsesExactly (U : Ucd) (casefold : Str → Str) (d : DnsPython)
    (namePattern recordType : Option Str) (wantedType : Option RecordType) (limit : Int)
    (server : Json) (dnsZone : Str) (zone : List XfrRrset) (messages : List (List XfrRrset)) : Prop :=
  ∃ result, browseRecords U casefold d namePattern recordType limit server dnsZone messages =
      .ok result ∧
    ExactListing U casefold d ⟨namePattern, wantedType, limit⟩ zone messages result

/-- Browsing is exact if and only if no RRset that is listed is divided, and the
values of those that are listed can be read. -/
theorem browsesExactly_iff {namePattern recordType : Option Str} {wantedType : Option RecordType}
    {limit : Int} {server : Json} {dnsZone zoneName : Str} (htarget : target server dnsZone = .ok zoneName)
    (hwanted : normalizeLookupRecordType U recordType = .ok wantedType)
    (h : Transfers d zone messages) :
    BrowsesExactly U casefold d namePattern recordType wantedType limit server dnsZone zone messages ↔
      Undivided U casefold d ⟨namePattern, wantedType, limit⟩ messages := by
  unfold BrowsesExactly browseRecords
  simp only [htarget, hwanted, ok_bind, browseRrsets_eq_ok_iff h]
  constructor
  · intro hexact
    obtain ⟨result, ⟨infos, hinfos, rfl⟩, hlisting⟩ := hexact
    exact undivided_of_whole h hinfos hlisting.whole
  · intro hundivided
    have hread : ∀ f ∈ listed casefold d ⟨namePattern, wantedType, limit⟩ messages,
        ∃ info, rdatasetToInfo U d (relativeText d f.2.name) f.1 f.2 = .ok info := by
      intro f hf
      obtain ⟨shown, hshown⟩ := (hundivided f hf).2
      exact ⟨_, rdatasetToInfo_eq_ok_iff.mpr ⟨shown, hshown, rfl⟩⟩
    obtain ⟨infos, hinfos⟩ := exists_mapM_eq_ok_iff.mpr hread
    exact ⟨_, ⟨infos, hinfos, rfl⟩, exactListing_of_undivided h hundivided hinfos⟩

end

/-! ## an RRset in two messages -/

/-- The SOA of a zone. -/
def zoneSoa : XfrRrset := ⟨root, lit "SOA", 300, [.soa (lit "ns1 admin 1 2 3 4 5")]⟩

/-- Addresses of `www`. -/
def wwwAddresses (texts : List String) : XfrRrset :=
  ⟨[lit "www"], lit "A", 300, texts.map fun text => .address (lit text)⟩

/-- A zone with two addresses of `www`. -/
def wwwZone : List XfrRrset := [zoneSoa, wwwAddresses ["192.0.2.1", "192.0.2.2"]]

/-- The zone in two messages, the addresses in the first. -/
def wholeMessages : List (List XfrRrset) :=
  [[zoneSoa, wwwAddresses ["192.0.2.1", "192.0.2.2"]], [zoneSoa]]

/-- The zone in two messages, an address in each. -/
def dividedMessages : List (List XfrRrset) :=
  [[zoneSoa, wwwAddresses ["192.0.2.1"]], [wwwAddresses ["192.0.2.2"], zoneSoa]]

/-- The messages transfer the zone. -/
theorem transfers_wholeMessages : Transfers (.plain .ascii) wwwZone wholeMessages where
  exists_parts := ⟨zoneSoa, [wwwAddresses ["192.0.2.1", "192.0.2.2"]], rfl, rfl, by decide,
    by decide, by decide, by decide, by decide, by decide⟩
  ttl := by decide

theorem browsesExactly_wholeMessages :
    BrowsesExactly .ascii foldAscii (.plain .ascii) none none none 100 (.str (lit "192.0.2.53"))
        (lit "example.com") wwwZone wholeMessages ↔
      Undivided .ascii foldAscii (.plain .ascii) ⟨none, none, 100⟩ wholeMessages := by
  have htarget : target (.str (lit "192.0.2.53")) (lit "example.com") = .ok (lit "example.com") := by
    decide
  exact browsesExactly_iff htarget rfl transfers_wholeMessages

/-- `www` is listed twice, with one address each time. -/
theorem not_browsesExactly_dividedMessages :
    Transfers (.plain .ascii) wwwZone dividedMessages ∧
      ¬BrowsesExactly .ascii foldAscii (.plain .ascii) none none none 100
        (.str (lit "192.0.2.53")) (lit "example.com") wwwZone dividedMessages := by
  refine ⟨⟨⟨zoneSoa, [wwwAddresses ["192.0.2.1"], wwwAddresses ["192.0.2.2"]], rfl, rfl, by decide,
    by decide, by decide, by decide, by decide, by decide⟩, by decide⟩, fun h => ?_⟩
  obtain ⟨result, hresult, hexact⟩ := h
  have hlisted : browseRecords .ascii foldAscii (.plain .ascii) none none 100
      (.str (lit "192.0.2.53")) (lit "example.com") dividedMessages =
        .ok ⟨[⟨['@'], lit "SOA", some 300, some [lit "ns1 admin 1 2 3 4 5"]⟩,
          ⟨lit "www", lit "A", some 300, some [lit "192.0.2.1"]⟩,
          ⟨lit "www", lit "A", some 300, some [lit "192.0.2.2"]⟩], false⟩ := by
    decide
  rw [← Except.ok.inj (hlisted.symm.trans hresult)] at hexact
  have honce := hexact.once
  exact absurd honce (by decide)

end ApiToDns.Bind
