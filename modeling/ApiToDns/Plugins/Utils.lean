import ApiToDns.Py.Fnmatch
import ApiToDns.Py.Str

/-!
# Plugins.Utils

The text helpers the provider plugins share (`plugins/utils.py`): owner names
relative to their zone, and the spelling of record types and string literals
in PowerShell.
-/

namespace ApiToDns

open Py

variable (U : Ucd)

/-- `s.strip().rstrip(".")`. -/
def bareName (s : Str) : Str := rstripDots (strip s)

/-- `ps_single_quoted`. -/
def psSingleQuoted (s : Str) : Str :=
  '\'' :: s.flatMap (fun c => if c = '\'' then ['\'', '\''] else [c]) ++ ['\'']

/-- `winrm_rr_type`. -/
def winrmRrType (upperRr : Str) : Str :=
  let u := U.upper (strip upperRr)
  if u = lit "TXT" then lit "Txt" else u

/-- `winrm_record_type_to_api`. -/
def winrmRecordTypeToApi (psType : Str) : Str :=
  let t := strip psType
  if U.upper t = lit "TXT" ∨ t = lit "Txt" then lit "TXT" else U.upper t

/-- `dns_relative_name`. -/
def dnsRelativeName (zoneName recordName : Str) : Str :=
  let z := bareName zoneName
  let r := bareName recordName
  if r = [] ∨ r = ['@'] ∨ U.lower r = U.lower z then ['@']
  else
    let suffix := '.' :: z
    if endsWith (U.lower r) (U.lower suffix) then
      let rest := dropEnd r suffix.length
      if rest = [] then ['@'] else rest
    else r

/-- A quotation mark at either end, on at least two characters. -/
def isQuoted (s : Str) : Bool := 2 ≤ s.length && startsWith s ['"'] && endsWith s ['"']

/-- `s[1:-1]`. -/
def inner (s : Str) : Str := dropEnd (s.drop 1) 1

/-- `record_name_matches`; `casefold` is that of Python's texts. -/
def recordNameMatches (casefold : Str → Str) (pattern : Option Str) (recordName : Str) : Bool :=
  match pattern with
  | none | some [] => true
  | some pattern => fnmatchcase (casefold recordName) (casefold pattern)

/-- The value of a CAA record without its quotation marks. -/
def bareCaaValue (caaValue : Str) : Str := if isQuoted caaValue then inner caaValue else caaValue

/-! ## bare names -/

/-- A bare name is a part of the name. -/
theorem bareName_isInfix (s : Str) : bareName s <:+: s :=
  (List.rdropWhile_prefix _ _).isInfix.trans
    ((List.rdropWhile_prefix _ _).isInfix.trans (List.dropWhile_suffix _).isInfix)

/-- A bare name is no longer. -/
theorem length_bareName_le (s : Str) : (bareName s).length ≤ s.length :=
  (bareName_isInfix s).length_le

/-- A name that loses nothing is bare. -/
theorem bareName_eq_of_length {s : Str} (h : (bareName s).length = s.length) : bareName s = s :=
  (bareName_isInfix s).eq_of_length h

/-- Stripping white space first changes nothing. -/
@[simp] theorem bareName_strip (s : Str) : bareName (strip s) = bareName s := by
  rw [bareName, strip_strip, bareName]

@[simp] theorem bareName_at : bareName ['@'] = ['@'] := by decide

end ApiToDns
