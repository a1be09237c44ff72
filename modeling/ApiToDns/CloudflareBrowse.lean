import ApiToDns.CloudflarePages
import ApiToDns.Lib.Grouping
import Mathlib.Data.Nat.Find

/-!
# CloudflareBrowse

`CloudflareDnsClient.list_records`: the rows of a zone are read page by page
and grouped under their names and types, as far as a limit.  Once the limit is
exceeded the paging stops at the first page that adds nothing to a group, and
it stops at an empty page; what follows then is lost (`browses_exactly_iff`).
-/

namespace ApiToDns.Cloudflare

open Py Code Grouping

section

variable (P : Platform) (casefold : Str → Str)

/-- What is asked for: rows of the names that match a pattern, of one type or of
any, in at most `limit` groups. -/
structure Query where
  zoneName : Str
  namePattern : Option Str
  requestedType : Option Str
  limit : Nat

/-- The query of a call. -/
def queryOf (namePattern recordType : Option Str) (limit : Int) (dnsZone : Str) : Query where
  zoneName := bareName dnsZone
  namePattern := namePattern
  requestedType := (recordType.filter (· ≠ [])).map P.ucd.upper
  limit := (max 1 limit).toNat

/-- The name and the type that a row is grouped under, if it is asked for. -/
def rowKey (q : Query) (row : Dict) : Option (Str × RecordType) :=
  let rowType := P.ucd.upper (textOr P (row.get (lit "type")))
  match RecordType.ofText? rowType with
  | none => none
  | some rt =>
      if q.requestedType ≠ none ∧ q.requestedType ≠ some rowType then none
      else
        let displayName := relativeName P.ucd q.zoneName (textOr P (row.get (lit "name")))
        if recordNameMatches casefold q.namePattern displayName then some (displayName, rt) else none

/-- The variables of the loop. -/
structure Browse where
  grouped : List ((Str × RecordType) × List Dict)
  truncated : Bool
  appendedExisting : Bool

/-- The loop over the rows of a page. -/
def browseRow (q : Query) (b : Browse) (row : Dict) : Browse :=
  match rowKey P casefold q row with
  | none => b
  | some key =>
      if key ∈ b.grouped.map Prod.fst then
        { b with
          grouped := b.grouped.map fun g => if g.1 = key then (g.1, g.2 ++ [row]) else g
          appendedExisting := true }
      else if q.limit ≤ b.grouped.length then { b with truncated := true }
      else { b with grouped := b.grouped ++ [(key, [row])], appendedExisting := true }

/-- The request of a page. -/
def browseOp (zoneId : Str) (requestedType : Option Str) (page : Nat) : HttpOp where
  method := .get
  path := recordsPath zoneId
  params := [(lit "page", natStr page), (lit "per_page", lit "100"), (lit "order", lit "name"),
    (lit "direction", lit "asc")] ++ requestedType.toList.map fun t => (lit "type", t)

/-- `int(info.get("total_pages") or 0)`. -/
def totalPages (body : Dict) : Except Exc Int := do
  let info ← asDict ((body.get (lit "result_info")).orElse (.obj []))
  intOr P (info.get (lit "total_pages"))

/-- The loop over the pages, at most `fuel` times. -/
def browsePages (zoneId : Str) (q : Query) : Nat → Nat → Browse → HttpCode Browse
  | 0, _, _ => throw (.other (lit "out of fuel"))
  | fuel + 1, page, b => do
      let body ← request P (browseOp zoneId q.requestedType page)
      let found ← Code.lift (resultOf body)
      let rows := objects found
      let b := rows.foldl (browseRow P casefold q) { b with appendedExisting := false }
      let total ← Code.lift (totalPages P body)
      if b.truncated && !b.appendedExisting then return b
      else if rows = [] ∨ (total ≠ 0 ∧ total ≤ page) ∨ (total = 0 ∧ rows.length < 100) then return b
      else browsePages zoneId q fuel (page + 1) b

/-- What is reported of the groups. -/
def infosOf (groups : List ((Str × RecordType) × List Dict)) : Except Exc (List DnsRecordInfo) :=
  groups.mapM fun g => rowsToInfo P g.1.1 g.1.2 g.2

/-- `CloudflareDnsClient.list_records`, with at most `fuel` pages. -/
def browseRecords (cfg : Config) (fuel : Nat) (namePattern recordType : Option Str) (limit : Int)
    (server : Json) (dnsZone : Str) : HttpCode DnsRecordListResult := do
  if server.truthy then
    throw (.valueError (lit "Cloudflare DNS ignores per-server host settings; use the Cloudflare fields on the zone configuration."))
  else if dnsZone = [] then
    throw (.valueError (lit "DNS zone (domain) is required in the zone configuration."))
  else
    let q := queryOf P namePattern recordType limit dnsZone
    let zoneId ← resolveZoneId P cfg q.zoneName
    let b ← browsePages P casefold zoneId q fuel 1 ⟨[], false, false⟩
    let records ← Code.lift (infosOf P b.grouped)
    return ⟨records, b.truncated⟩

end

/-! ## rows -/

section

variable {P : Platform} {casefold : Str → Str} {q : Query}

/-- The variables of the loop after the rows `seen`. -/
def stateOf (P : Platform) (casefold : Str → Str) (q : Query) (seen : List Dict) (appended : Bool) :
    Browse :=
  ⟨firstGroups (rowKey P casefold q) q.limit seen,
    decide (Exceeds (rowKey P casefold q) q.limit seen), appended⟩

/-- The state after one more row. -/
theorem browseRow_stateOf (seen : List Dict) (appended : Bool) (row : Dict) :
    browseRow P casefold q (stateOf P casefold q seen appended) row =
      stateOf P casefold q (seen ++ [row]) (appended ||
        decide (∃ k ∈ (keys (rowKey P casefold q) (seen ++ [row])).take q.limit,
          rowKey P casefold q row = some k)) := by
  have hgroups := firstGroups_concat (rowKey P casefold q) q.limit seen row
  have hkeys := keys_concat (rowKey P casefold q) seen row
  unfold browseRow
  cases hrow : rowKey P casefold q row with
  | none =>
      rw [hrow] at hgroups hkeys
      simp [stateOf, hgroups, hkeys]
  | some key =>
      rw [hrow] at hgroups hkeys
      dsimp only [Option.elim] at hgroups hkeys ⊢
      have hlen : (firstGroups (rowKey P casefold q) q.limit seen).length =
          min q.limit (keys (rowKey P casefold q) seen).length := by simp [firstGroups]
      simp only [stateOf, map_fst_firstGroups, decide_exceeds, Option.some.injEq, hgroups, hkeys, hlen,
        exists_eq_right']
      generalize keys (rowKey P casefold q) seen = ks at *
      by_cases hmem : key ∈ ks.take q.limit
      · have hthere : key ∈ ks := List.mem_of_mem_take hmem
        simp [hmem, addKey, hthere]
      · by_cases hfull : q.limit ≤ ks.length
        · have hold : ¬(ks.length < q.limit ∧ key ∉ ks) := by omega
          have hexceeds : q.limit < (addKey ks key).length := by
            unfold addKey
            split
            · next hthere =>
                by_contra hle
                rw [List.take_of_length_le (by omega)] at hmem
                exact hmem hthere
            · rw [List.length_append, List.length_singleton]
              omega
          have hnot : key ∉ (addKey ks key).take q.limit := by
            unfold addKey
            split
            · exact hmem
            · rwa [List.take_append_of_le_length hfull]
          simp [hmem, hfull, hold, hexceeds, hnot]
        · have hnew : key ∉ ks := by rwa [List.take_of_length_le (by omega)] at hmem
          have hroom : ks.length < q.limit := by omega
          have hadded : (addKey ks key).take q.limit = ks ++ [key] := by
            rw [addKey, if_neg hnew, List.take_of_length_le (by simp; omega)]
          have hwithin : ¬q.limit < (addKey ks key).length := by simp [addKey, hnew]; omega
          have hwithin' : ¬q.limit < ks.length := by omega
          have hmin : ¬q.limit ≤ min q.limit ks.length := by omega
          simp [hmem, hmin, hnew, hroom, hadded, hwithin, hwithin']

/-- After a page the groups are those of all rows so far, and it is known
whether the page added to one. -/
theorem foldl_browseRow (seen page : List Dict) :
    page.foldl (browseRow P casefold q) (stateOf P casefold q seen false) =
      stateOf P casefold q (seen ++ page)
        (decide (Extends (rowKey P casefold q) q.limit seen page)) := by
  induction page using List.reverseRecOn with
  | nil => simp [stateOf, Extends]
  | append_singleton page row ih =>
      rw [List.foldl_append, ih, List.foldl_cons, List.foldl_nil, browseRow_stateOf,
        List.append_assoc, decide_eq_decide.mpr extends_concat_iff, Bool.decide_or, List.append_assoc]

/-! ## pages -/

/-- The rows before a page. -/
def before (pages : List (List Dict)) (n : Nat) : List Dict := (pages.take n).flatten

/-- The rows before the next page. -/
theorem before_succ (pages : List (List Dict)) (n : Nat) :
    before pages (n + 1) = before pages n ++ pages.getD n [] := by
  rw [before, before, List.take_add_one, List.flatten_append, List.getD_eq_getElem?_getD]
  cases pages[n]? <;> simp

/-- After the last page these are all rows. -/
theorem before_of_le {pages : List (List Dict)} {n : Nat} (h : pages.length ≤ n) :
    before pages n = pages.flatten := by rw [before, List.take_of_length_le h]

/-- All rows are those before a page and those from it on. -/
theorem flatten_eq_before (pages : List (List Dict)) (n : Nat) :
    pages.flatten = before pages n ++ (pages.drop n).flatten := by
  rw [before, ← List.flatten_append, List.take_append_drop]

section Paging

variable {σ : Type} {h : Handler httpSig σ} {cfg : Config} {zoneId : Str}
  {pages : List (List Dict)} {total n fuel : Nat}

/-- An API that lists the rows page by page, with the number of pages or without. -/
structure ListsPages (P : Platform) (cfg : Config) (h : Handler httpSig σ) (q : Query)
    (zoneId : Str) (pages : List (List Dict)) (total : Nat) : Prop where
  resolve : ∀ s, ∃ s', (resolveZoneId P cfg q.zoneName).run h s = (.ok zoneId, s')
  page : ∀ n s, ∃ body s', (request P (browseOp zoneId q.requestedType (n + 1))).run h s =
      (.ok body, s') ∧
    resultOf body = .ok ((pages.getD n []).map .obj) ∧ totalPages P body = .ok (total : Int)

/-- The rows are divided into pages of any sizes if their number is reported,
and into pages of 100 rows, the last one apart, otherwise. -/
def Divided (pages : List (List Dict)) (total : Nat) : Prop :=
  total = pages.length ∨ (total = 0 ∧ ∀ n, n + 1 < pages.length → (pages.getD n []).length = 100)

/-- The loop ends after a page. -/
def Stops (P : Platform) (casefold : Str → Str) (q : Query) (pages : List (List Dict))
    (total n : Nat) : Prop :=
  AddsNothing (rowKey P casefold q) q.limit (before pages n) (pages.getD n []) ∨
    (pages.getD n [] = [] ∨ (total ≠ 0 ∧ total ≤ n + 1) ∨
      (total = 0 ∧ (pages.getD n []).length < 100))

variable (casefold n fuel) in
/-- A page ends the loop, or the next one follows. -/
theorem run_browsePages_succ (hl : ListsPages P cfg h q zoneId pages total) (appended : Bool) (s : σ) :
    ∃ s',
      (Stops P casefold q pages total n →
        (browsePages P casefold zoneId q (fuel + 1) (n + 1)
          (stateOf P casefold q (before pages n) appended)).run h s =
            (.ok (stateOf P casefold q (before pages (n + 1)) (decide (Extends (rowKey P casefold q)
              q.limit (before pages n) (pages.getD n [])))), s')) ∧
      (¬Stops P casefold q pages total n →
        (browsePages P casefold zoneId q (fuel + 1) (n + 1)
          (stateOf P casefold q (before pages n) appended)).run h s =
            (browsePages P casefold zoneId q fuel (n + 2)
              (stateOf P casefold q (before pages (n + 1)) (decide (Extends (rowKey P casefold q)
                q.limit (before pages n) (pages.getD n []))))).run h s') := by
  obtain ⟨body, s', hrun, hresult, htotal⟩ := hl.page n s
  refine ⟨s', ?_⟩
  rw [browsePages, run_bind_ok hrun, hresult, lift_ok, pure_bind, htotal, lift_ok]
  dsimp only
  rw [pure_bind, objects_map_obj]
  have hfold : (pages.getD n []).foldl (browseRow P casefold q)
      { stateOf P casefold q (before pages n) appended with appendedExisting := false } =
        stateOf P casefold q (before pages (n + 1)) (decide (Extends (rowKey P casefold q)
          q.limit (before pages n) (pages.getD n []))) := by
    rw [before_succ]
    exact foldl_browseRow _ _
  rw [hfold]
  generalize hb : stateOf P casefold q (before pages (n + 1)) (decide (Extends (rowKey P casefold q)
    q.limit (before pages n) (pages.getD n []))) = b
  have hidle : (b.truncated && !b.appendedExisting) = true ↔
      AddsNothing (rowKey P casefold q) q.limit (before pages n) (pages.getD n []) := by
    subst hb
    rw [addsNothing_iff, ← before_succ, Bool.and_eq_true, Bool.not_eq_true']
    exact and_congr decide_eq_true_iff decide_eq_false_iff_not
  have hlast : (pages.getD n [] = [] ∨ ((total : Int) ≠ 0 ∧ (total : Int) ≤ ((n + 1 : Nat) : Int)) ∨
      ((total : Int) = 0 ∧ (pages.getD n []).length < 100)) ↔
      (pages.getD n [] = [] ∨ (total ≠ 0 ∧ total ≤ n + 1) ∨
        (total = 0 ∧ (pages.getD n []).length < 100)) := by
    refine or_congr_right (or_congr ?_ ?_) <;> omega
  unfold Stops
  rw [← hidle, ← hlast]
  constructor
  · intro hstops
    split_ifs with hi hl
    · rfl
    · rfl
    · exact absurd hstops (not_or.mpr ⟨hi, hl⟩)
  · intro hstops
    rw [not_or] at hstops
    rw [if_neg hstops.1, if_neg hstops.2]

variable (casefold n fuel) in
/-- The loop ends, with the groups of the rows up to the page it stops at. -/
theorem run_browsePages (hl : ListsPages P cfg h q zoneId pages total) {last : Nat}
    (hlast : Stops P casefold q pages total last)
    (hfirst : ∀ n < last, ¬Stops P casefold q pages total n) (hn : n ≤ last) (hfuel : last < n + fuel)
    (appended : Bool) (s : σ) :
    ∃ appended' s', (browsePages P casefold zoneId q fuel (n + 1)
        (stateOf P casefold q (before pages n) appended)).run h s =
      (.ok (stateOf P casefold q (before pages (last + 1)) appended'), s') := by
  induction fuel generalizing n appended s with
  | zero => omega
  | succ fuel ih =>
      obtain ⟨s', hstop, hgo⟩ := run_browsePages_succ casefold n fuel hl appended s
      rcases Nat.eq_or_lt_of_le hn with rfl | hlt
      · exact ⟨_, s', hstop hlast⟩
      · rw [hgo (hfirst n hlt)]
        exact ih _ hlt (by omega) _ s'

/-- The loop stops at the page after the last one, if not before. -/
theorem exists_first_stop (P : Platform) (casefold : Str → Str) (q : Query)
    (pages : List (List Dict)) (total : Nat) :
    ∃ last ≤ pages.length, Stops P casefold q pages total last ∧
      ∀ n < last, ¬Stops P casefold q pages total n := by
  classical
  have hend : Stops P casefold q pages total pages.length := by
    refine .inr (.inl ?_)
    rw [List.getD_eq_default _ _ (Nat.le_refl _)]
  exact ⟨Nat.find ⟨_, hend⟩, Nat.find_min' _ hend, Nat.find_spec ⟨_, hend⟩,
    fun n hn => Nat.find_min ⟨_, hend⟩ hn⟩

/-! ## what is lost -/

/-- Nothing is lost after a page that adds nothing once the limit is exceeded,
nor after an empty one. -/
def NothingLost (P : Platform) (casefold : Str → Str) (q : Query) (pages : List (List Dict)) : Prop :=
  ∀ n < pages.length, AddsNothing (rowKey P casefold q) q.limit (before pages n) (pages.getD n []) ∨
      pages.getD n [] = [] →
    (∀ row ∈ (pages.drop (n + 1)).flatten,
      ∀ k ∈ (keys (rowKey P casefold q) pages.flatten).take q.limit, rowKey P casefold q row ≠ some k) ∧
    (Exceeds (rowKey P casefold q) q.limit pages.flatten →
      Exceeds (rowKey P casefold q) q.limit (before pages (n + 1)))

/-- The rows of the first groups, and whether there are more of them. -/
def SameGroups (P : Platform) (casefold : Str → Str) (q : Query) (all seen : List Dict) : Prop :=
  firstGroups (rowKey P casefold q) q.limit all = firstGroups (rowKey P casefold q) q.limit seen ∧
    (Exceeds (rowKey P casefold q) q.limit all ↔ Exceeds (rowKey P casefold q) q.limit seen)

/-- When the pages before one have the first groups. -/
theorem sameGroups_before_iff {n : Nat} :
    SameGroups P casefold q pages.flatten (before pages n) ↔
      (∀ row ∈ (pages.drop n).flatten,
        ∀ k ∈ (keys (rowKey P casefold q) pages.flatten).take q.limit,
          rowKey P casefold q row ≠ some k) ∧
      (Exceeds (rowKey P casefold q) q.limit pages.flatten →
        Exceeds (rowKey P casefold q) q.limit (before pages n)) := by
  have hback : Exceeds (rowKey P casefold q) q.limit (before pages n) →
      Exceeds (rowKey P casefold q) q.limit pages.flatten := by
    intro hexceeds
    rw [flatten_eq_before pages n]
    exact hexceeds.append _
  have hmore : (Exceeds (rowKey P casefold q) q.limit pages.flatten ↔
      Exceeds (rowKey P casefold q) q.limit (before pages n)) ↔
      (Exceeds (rowKey P casefold q) q.limit pages.flatten →
        Exceeds (rowKey P casefold q) q.limit (before pages n)) := ⟨Iff.mp, fun hmore => ⟨hmore, hback⟩⟩
  rw [SameGroups, hmore]
  refine and_congr_left fun _ => ?_
  rw [flatten_eq_before pages n]
  exact firstGroups_append_eq_iff

/-- Nothing is lost exactly if the page the loop stops at is the last one that
matters. -/
theorem nothingLost_iff (hd : Divided pages total) {last : Nat} (hle : last ≤ pages.length)
    (hlast : Stops P casefold q pages total last)
    (hfirst : ∀ n < last, ¬Stops P casefold q pages total n) :
    NothingLost P casefold q pages ↔ SameGroups P casefold q pages.flatten (before pages (last + 1)) := by
  constructor
  · intro hnothing
    rcases Nat.lt_or_ge last pages.length with hlt | hge
    · by_cases hidle : AddsNothing (rowKey P casefold q) q.limit (before pages last) (pages.getD last []) ∨
          pages.getD last [] = []
      · exact sameGroups_before_iff.mpr (hnothing last hlt hidle)
      · -- the number of pages says that this is the last one
        rw [not_or] at hidle
        have hreported := (hlast.resolve_left hidle.1).resolve_left hidle.2
        have hend : pages.length ≤ last + 1 := by
          rcases hd with htotal | ⟨htotal, hfull⟩
          · omega
          · by_contra hmore
            have hlen := hfull last (by omega)
            omega
        rw [before_of_le hend]
        exact ⟨rfl, Iff.rfl⟩
    · rw [before_of_le (by omega)]
      exact ⟨rfl, Iff.rfl⟩
  · intro hsame n hn hidle
    have hstops : Stops P casefold q pages total n := hidle.imp_right .inl
    have hnotbefore : last ≤ n := by
      by_contra hlt
      exact hfirst n (by omega) hstops
    obtain ⟨hrows, hexceeds⟩ := sameGroups_before_iff.mp hsame
    refine ⟨fun row hrow => hrows row ?_, fun hall => ?_⟩
    · obtain ⟨page, hpage, hmem⟩ := List.mem_flatten.mp hrow
      refine List.mem_flatten.mpr ⟨page, ?_, hmem⟩
      rw [show n + 1 = last + 1 + (n - last) by omega, ← List.drop_drop] at hpage
      exact List.mem_of_mem_drop hpage
    · have hseen := hexceeds hall
      have hsplit : before pages (n + 1) =
          before pages (last + 1) ++ ((pages.take (n + 1)).drop (last + 1)).flatten := by
        rw [before, before, ← List.flatten_append]
        congr 1
        conv_lhs => rw [← List.take_append_drop (last + 1) (pages.take (n + 1))]
        rw [List.take_take, Nat.min_eq_left (by omega)]
      rw [hsplit]
      exact hseen.append _

/-! ## what is reported -/

/-- What is read of the rows of a group. -/
theorem rowsToInfo_ok {displayName : Str} {rt : RecordType} {rows : List Dict} {info : DnsRecordInfo}
    (h : rowsToInfo P displayName rt rows = .ok info) :
    info.recordName = displayName ∧ info.recordType = rt.text ∧
      info.values.map List.length = some rows.length := by
  obtain ⟨ttls, -, h⟩ := bind_eq_ok h
  obtain ⟨values, hvalues, h⟩ := bind_eq_ok h
  rw [← Except.ok.inj h]
  have hlen := (mapM_eq_ok_iff.mp hvalues).length_eq
  simp [hlen]

/-- Reports that are the same are of the same groups, if one of them is of more
rows than the other. -/
theorem firstGroups_eq_of_infos {seen rest : List Dict} {infos : List DnsRecordInfo}
    (hall : infosOf P (firstGroups (rowKey P casefold q) q.limit (seen ++ rest)) = .ok infos)
    (hseen : infosOf P (firstGroups (rowKey P casefold q) q.limit seen) = .ok infos) :
    firstGroups (rowKey P casefold q) q.limit (seen ++ rest) =
      firstGroups (rowKey P casefold q) q.limit seen := by
  have hshared : ∀ groups, infosOf P groups = .ok infos →
      infos.map (fun info => (info.recordName, info.recordType, info.values.map List.length)) =
        groups.map fun g : (Str × RecordType) × List Dict => (g.1.1, g.1.2.text, some g.2.length) := by
    intro groups hgroups
    refine map_eq_of_mapM_eq_ok hgroups fun g _ info hinfo => ?_
    obtain ⟨hname, htype, hvalues⟩ := rowsToInfo_ok hinfo
    rw [hname, htype, hvalues]
  have heq := (hshared _ hall).symm.trans (hshared _ hseen)
  rw [firstGroups_append_eq_iff]
  intro row hrow key hkey hrowKey
  have hmem : (key.1, key.2.text, some (group (rowKey P casefold q) (seen ++ rest) key).length) ∈
      (firstGroups (rowKey P casefold q) q.limit seen).map fun g => (g.1.1, g.1.2.text, some g.2.length) := by
    rw [← heq]
    exact List.mem_map.mpr ⟨(key, _), List.mem_map_of_mem hkey, rfl⟩
  obtain ⟨g, hg, htuple⟩ := List.mem_map.mp hmem
  obtain ⟨key', -, rfl⟩ := List.mem_map.mp hg
  simp only [Prod.mk.injEq, Option.some.injEq] at htuple
  obtain ⟨hname, htype, hlen⟩ := htuple
  obtain rfl : key' = key := Prod.ext hname (RecordType.text_injective htype)
  rw [group_append, List.length_append] at hlen
  have hnone : group (rowKey P casefold q) rest key' = [] := List.length_eq_zero_iff.mp (by omega)
  exact group_eq_nil_iff.mp hnone row hrow hrowKey

/-! ## the call -/

section Call

variable {namePattern recordType : Option Str} {limit : Int} {server : Json} {dnsZone : Str}

variable (casefold fuel) in
/-- The call answers with what was seen up to the first stop. -/
theorem run_browseRecords (hl : ListsPages P cfg h (queryOf P namePattern recordType limit dnsZone)
      zoneId pages total)
    (hserver : server.truthy = false) (hzone : dnsZone ≠ []) {last : Nat}
    (hlast : Stops P casefold (queryOf P namePattern recordType limit dnsZone) pages total last)
    (hfirst : ∀ n < last,
      ¬Stops P casefold (queryOf P namePattern recordType limit dnsZone) pages total n)
    (hfuel : last < fuel) (s : σ) :
    ∃ s', (browseRecords P casefold cfg fuel namePattern recordType limit server dnsZone).run h s =
      ((infosOf P (firstGroups (rowKey P casefold (queryOf P namePattern recordType limit dnsZone))
          (queryOf P namePattern recordType limit dnsZone).limit (before pages (last + 1)))).map
        fun infos => ⟨infos, decide (Exceeds
          (rowKey P casefold (queryOf P namePattern recordType limit dnsZone))
          (queryOf P namePattern recordType limit dnsZone).limit (before pages (last + 1)))⟩, s') := by
  obtain ⟨s₁, hresolve⟩ := hl.resolve s
  obtain ⟨appended, s₂, hpages⟩ := run_browsePages casefold 0 fuel hl
    hlast hfirst (Nat.zero_le _) (by omega) false s₁
  have hempty : stateOf P casefold (queryOf P namePattern recordType limit dnsZone) (before pages 0)
      false = ⟨[], false, false⟩ := by simp [stateOf, before, firstGroups, Exceeds, keys]
  rw [hempty] at hpages
  refine ⟨s₂, ?_⟩
  unfold browseRecords
  rw [if_neg (by simp [hserver]), if_neg hzone]
  dsimp only
  rw [run_bind_ok hresolve, run_bind_ok hpages]
  dsimp only [stateOf]
  cases infosOf P _ <;> rfl

/-- The call ends with the first matching names and types, each with what is
read of all its rows, and says whether there are more. -/
def BrowsesExactly (P : Platform) (casefold : Str → Str) (cfg : Config) (h : Handler httpSig σ)
    (namePattern recordType : Option Str) (limit : Int) (server : Json) (dnsZone : Str)
    (rows : List Dict) (s : σ) : Prop :=
  let q := queryOf P namePattern recordType limit dnsZone
  ∃ infos, infosOf P (firstGroups (rowKey P casefold q) q.limit rows) = .ok infos ∧
    ∃ enough, ∀ fuel, enough ≤ fuel →
      ∃ s', (browseRecords P casefold cfg fuel namePattern recordType limit server dnsZone).run h s =
        (.ok ⟨infos, decide (Exceeds (rowKey P casefold q) q.limit rows)⟩, s')

/-- Browsing is exact if nothing is lost after a page at which the paging stops
early, and the rows that are asked for can be read. -/
theorem browses_exactly_iff
    (hl : ListsPages P cfg h (queryOf P namePattern recordType limit dnsZone) zoneId pages total)
    (hd : Divided pages total) (hserver : server.truthy = false) (hzone : dnsZone ≠ []) (s : σ) :
    BrowsesExactly P casefold cfg h namePattern recordType limit server dnsZone pages.flatten s ↔
      NothingLost P casefold (queryOf P namePattern recordType limit dnsZone) pages ∧
        ∃ infos, infosOf P (firstGroups
          (rowKey P casefold (queryOf P namePattern recordType limit dnsZone))
          (queryOf P namePattern recordType limit dnsZone).limit pages.flatten) = .ok infos := by
  obtain ⟨last, hle, hlast, hfirst⟩ := exists_first_stop P casefold
    (queryOf P namePattern recordType limit dnsZone) pages total
  have hrun := fun fuel (hfuel : last < fuel) =>
    run_browseRecords casefold fuel hl hserver hzone hlast hfirst hfuel s
  rw [BrowsesExactly, nothingLost_iff hd hle hlast hfirst]
  generalize queryOf P namePattern recordType limit dnsZone = q at *
  constructor
  · rintro ⟨infos, hinfos, enough, hexact⟩
    refine ⟨?_, infos, hinfos⟩
    obtain ⟨s', hends⟩ := hexact (max enough (last + 1)) (Nat.le_max_left _ _)
    obtain ⟨s'', hends'⟩ := hrun (max enough (last + 1)) (by omega)
    rw [hends'] at hends
    obtain ⟨hresult, -⟩ := Prod.ext_iff.mp hends
    obtain ⟨infos', hseen, hresult⟩ := map_eq_ok_iff.mp hresult
    obtain ⟨rfl, htruncated⟩ := DnsRecordListResult.mk.inj hresult
    rw [flatten_eq_before pages (last + 1)] at hinfos htruncated ⊢
    exact ⟨firstGroups_eq_of_infos hinfos hseen, (decide_eq_decide.mp htruncated).symm⟩
  · rintro ⟨⟨hgroups, hexceeds⟩, infos, hinfos⟩
    refine ⟨infos, hinfos, last + 1, fun fuel hfuel => ?_⟩
    obtain ⟨s', hends⟩ := hrun fuel hfuel
    rw [← hgroups, hinfos] at hends
    refine ⟨s', hends.trans ?_⟩
    rw [decide_eq_decide.mpr hexceeds]
    rfl

end Call

end Paging

end

/-! ### an address after a page of texts -/

/-- The page that a request asks for. -/
def pageOf (pages : List (List Dict)) (page : Str) : List Dict :=
  ((List.range pages.length).filter fun n => natStr (n + 1) = page).flatMap (pages.getD · [])

/-- A Cloudflare that lists the rows of its one zone page by page and says how
many pages there are. -/
def paged (pages : List (List Dict)) : Handler httpSig Unit := fun o s =>
  match o.params with
  | (_, page) :: _ =>
      (.ok ⟨200, some (.obj [(lit "success", .bool true),
        (lit "result", .arr ((pageOf pages page).map .obj)),
        (lit "result_info", .obj [(lit "total_pages", .int pages.length)])])⟩, s)
  | [] => (.error [], s)

/-- A page is asked for by its number. -/
theorem pageOf_natStr (pages : List (List Dict)) (n : Nat) :
    pageOf pages (natStr (n + 1)) = pages.getD n [] := by
  have hpage : (List.range pages.length).filter (fun m => natStr (m + 1) = natStr (n + 1)) =
      (List.range pages.length).filter (· == n) := by
    refine List.filter_congr fun m _ => ?_
    simp [natStr_inj, beq_eq_decide]
  rw [pageOf, hpage, List.filter_beq, List.nodup_range.count]
  split
  · simp
  · next hnot =>
      rw [List.mem_range] at hnot
      rw [List.getD_eq_default _ _ (by omega)]
      rfl

/-- It lists its pages. -/
theorem paged_listsPages (P : Platform) (q : Query) (pages : List (List Dict)) :
    ListsPages P unproxied (paged pages) q (lit "z1") pages pages.length where
  resolve s := ⟨s, rfl⟩
  page n s := by
    refine ⟨_, s, rfl, ?_, intOr_natCast P _⟩
    rw [pageOf_natStr]
    generalize pages.getD n [] = rows
    cases rows <;> rfl

/-- A row of `a.example.com`. -/
def aRow (rt : RecordType) (content : String) : Dict :=
  [(lit "type", .str rt.text), (lit "name", .str (lit "a.example.com")),
    (lit "content", .str (lit content))]

/-- Two addresses on the first and the last page, a text between them. -/
def splitAddress : List (List Dict) :=
  [[aRow .a "192.0.2.1"], [aRow .txt "one"], [aRow .a "192.0.2.2"]]

/-- The addresses on the first two pages, the texts on the last two. -/
def addressesThenTexts : List (List Dict) :=
  [[aRow .a "192.0.2.1"], [aRow .a "192.0.2.2", aRow .txt "one"], [aRow .txt "two"]]

/-- With a limit of one the last page adds nothing, and nothing is lost. -/
theorem nothingLost_addressesThenTexts :
    NothingLost .plain id (queryOf .plain none none 1 (lit "example.com")) addressesThenTexts := by
  intro n hn hstop
  have hlast : n = 2 := by
    match n, hn with
    | 0, _ => exact absurd hstop (by unfold AddsNothing; decide)
    | 1, _ => exact absurd hstop (by unfold AddsNothing; decide)
    | 2, _ => rfl
  subst hlast
  refine ⟨by decide, fun _ => ?_⟩
  decide

theorem browses_exactly_iff_addresses :
    BrowsesExactly .plain id unproxied (paged addressesThenTexts) none none 1 .null
      (lit "example.com") addressesThenTexts.flatten () :=
  (browses_exactly_iff (paged_listsPages .plain _ addressesThenTexts) (.inl rfl) rfl (by decide)
    ()).mpr ⟨nothingLost_addressesThenTexts, _, rfl⟩

/-- The second of two addresses is lost: the page before it only has a text, and
the limit is one. -/
theorem second_address_lost :
    ListsPages .plain unproxied (paged splitAddress)
        (queryOf .plain none none 1 (lit "example.com")) (lit "z1") splitAddress 3 ∧
      ¬BrowsesExactly .plain id unproxied (paged splitAddress) none none 1 .null (lit "example.com")
        splitAddress.flatten () := by
  refine ⟨paged_listsPages .plain _ splitAddress, ?_⟩
  rintro ⟨infos, hinfos, enough, hexact⟩
  obtain ⟨s', hends⟩ := hexact (enough + 2) (by omega)
  have hrun : (browseRecords .plain id unproxied (enough + 2) none none 1 .null
      (lit "example.com")).run (paged splitAddress) () =
        (.ok ⟨[⟨lit "a", lit "A", none, some [lit "192.0.2.1"]⟩], true⟩, ()) := rfl
  rw [hrun] at hends
  have hall : infosOf .plain (firstGroups
      (rowKey .plain id (queryOf .plain none none 1 (lit "example.com")))
      (queryOf .plain none none 1 (lit "example.com")).limit splitAddress.flatten) =
        .ok [⟨lit "a", lit "A", none, some [lit "192.0.2.1", lit "192.0.2.2"]⟩] := rfl
  obtain rfl := Except.ok.inj (hall.symm.trans hinfos)
  obtain ⟨hresult, -⟩ := Prod.ext_iff.mp hends
  exact absurd (Except.ok.inj hresult) (by decide)

end ApiToDns.Cloudflare
