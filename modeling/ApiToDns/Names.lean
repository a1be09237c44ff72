import ApiToDns.Mutation
import ApiToDns.Plugins.Cloudflare

/-!
# Names

Whether the text functions on owner names fit together: the apex guard with
the owners the plugins address, and the display names of records with the
owners they are sent back for.

`bareName` is the normal form all of them start from.  A name and its zone
are compared by their lower-casings, and the zone's suffix is then cut off by
the length of the zone; `CutToApex` is the one place where the cut can lead to
the apex.
-/

namespace ApiToDns

open Py

variable (U : Ucd)

/-! ## spellings of the apex -/

/-- The bare name `n` is cut down to the apex of the bare zone `zn`. -/
def CutToApex (zn n : Str) : Prop :=
  U.lower n = U.lower zn ∨
    (U.lower ('.' :: zn) <:+ U.lower n ∧
      (dropEnd n (zn.length + 1) = [] ∨ dropEnd n (zn.length + 1) = ['@']))

instance (zn n : Str) : Decidable (CutToApex U zn n) := inferInstanceAs (Decidable (_ ∨ _))

/-- On ASCII names the cut leads to the apex from the zone itself, and from
the zone behind `.` or `@.`. -/
theorem cutToApex_ascii_iff {zn n : Str} (hzn : ∀ c ∈ zn, isAscii c = true)
    (hn : ∀ c ∈ n, isAscii c = true) :
    CutToApex U zn n ↔
      EqAsciiCase n zn ∨ EqAsciiCase n ('.' :: zn) ∨ EqAsciiCase n ('@' :: '.' :: zn) := by
  have hdot : ∀ c ∈ '.' :: zn, isAscii c = true := by
    intro c hc
    cases List.mem_cons.mp hc with
    | inl h => rw [h]; rfl
    | inr h => exact hzn c h
  unfold CutToApex
  rw [U.lower_ascii hn, U.lower_ascii hzn, U.lower_ascii hdot]
  refine or_congr Iff.rfl ?_
  constructor
  · intro ⟨hsuffix, hcut⟩
    have hsplit : dropEnd n (zn.length + 1) ++ n.drop (n.length - (zn.length + 1)) = n :=
      List.take_append_drop _ _
    have htail : EqAsciiCase (n.drop (n.length - (zn.length + 1))) ('.' :: zn) := by
      have hdrop := List.suffix_iff_eq_drop.mp hsuffix
      simp only [foldAscii, List.length_map, List.length_cons, ← List.map_drop] at hdrop
      exact hdrop.symm
    cases hcut with
    | inl h =>
        rw [h, List.nil_append] at hsplit
        rw [hsplit] at htail
        exact .inl htail
    | inr h =>
        rw [h] at hsplit
        rw [← hsplit]
        exact .inr (EqAsciiCase.cons_iff.mpr ⟨rfl, htail⟩)
  · intro h
    cases h with
    | inl h =>
        have hlen := h.length_eq
        rw [List.length_cons] at hlen
        refine ⟨h ▸ List.suffix_rfl, .inl ?_⟩
        rw [dropEnd, List.rdrop, hlen, Nat.sub_self, List.take_zero]
    | inr h =>
        cases n with
        | nil => simp [EqAsciiCase, foldAscii] at h
        | cons c rest =>
            obtain ⟨hc, hrest⟩ := EqAsciiCase.cons_iff.mp h
            have hat : c = '@' := (toLower_eq_iff_of_not_isAlpha (by decide)).mp hc
            have hlen := hrest.length_eq
            rw [List.length_cons] at hlen
            refine ⟨?_, .inr ?_⟩
            · have hfold : foldAscii rest = foldAscii ('.' :: zn) := hrest
              rw [← hfold]
              exact List.suffix_cons _ _
            · rw [hat, ← hlen]
              exact dropEnd_append ['@'] rest

/-- The bare name is one of the two that always mean the apex. -/
def IsApexMark (n : Str) : Prop := n = [] ∨ n = ['@']

instance (n : Str) : Decidable (IsApexMark n) := inferInstanceAs (Decidable (_ ∨ _))

/-- A name is shown as the apex if it is marked so or cut down to it. -/
theorem dnsRelativeName_eq_at_iff (z r : Str) :
    dnsRelativeName U z r = ['@'] ↔
      IsApexMark (bareName r) ∨ CutToApex U (bareName z) (bareName r) := by
  unfold dnsRelativeName IsApexMark CutToApex
  simp only [endsWith_iff, List.length_cons]
  by_cases hnil : bareName r = []
  · simp [hnil]
  · by_cases hat : bareName r = ['@']
    · simp [hat]
    · by_cases hzone : U.lower (bareName r) = U.lower (bareName z)
      · simp [hzone]
      · simp only [hnil, hat, hzone, or_self, if_false, false_or]
        by_cases hsuffix : U.lower ('.' :: bareName z) <:+ U.lower (bareName r)
        · by_cases hrest : dropEnd (bareName r) ((bareName z).length + 1) = []
          · simp [hsuffix, hrest]
          · simp [hsuffix, hrest]
        · simp [hsuffix, hat]

/-- What the guard takes for the apex. -/
theorem isApexName_iff {z : Str} (r : Str) (hz : bareName z ≠ []) :
    isApexName U r (some z) = true ↔
      IsApexMark (bareName r) ∨ U.lower (bareName r) = U.lower (bareName z) ∨
        U.lower (bareName r) = '.' :: U.lower (bareName z) := by
  have hz' : z ≠ [] := by
    rintro rfl
    exact hz rfl
  unfold isApexName IsApexMark
  simp only [hz', if_false]
  rw [← bareName, ← bareName, if_neg hz]
  by_cases hmark : bareName r = [] ∨ bareName r = ['@']
  · simp [hmark]
  · rw [if_neg hmark]
    by_cases hzone : U.lower (bareName r) = U.lower (bareName z)
    · simp [hzone]
    · simp only [hmark, hzone, if_false, false_or, Bool.and_eq_true, endsWith_iff, beq_iff_eq]
      constructor
      · intro ⟨⟨rest, hrest⟩, hcut⟩
        rw [← hrest, dropEnd_append] at hcut
        rw [← hrest, hcut]
        rfl
      · intro heq
        rw [heq]
        refine ⟨List.suffix_rfl, ?_⟩
        exact dropEnd_append [] _

/-- What Cloudflare addresses as the apex. -/
theorem fqdn_eqAsciiCase_iff (z r : Str) :
    EqAsciiCase (Cloudflare.fqdn U z r) (bareName z) ↔
      IsApexMark (bareName r) ∨ EqAsciiCase (bareName r) (bareName z) := by
  unfold Cloudflare.fqdn IsApexMark
  by_cases hmark : bareName r = [] ∨ bareName r = ['@']
  · simp [hmark, EqAsciiCase.refl]
  · rw [if_neg hmark]
    by_cases hfull : endsWith (U.lower (bareName r)) (U.lower ('.' :: bareName z)) ∨
        U.lower (bareName r) = U.lower (bareName z)
    · rw [if_pos hfull]
      simp [hmark]
    · rw [if_neg hfull]
      constructor
      · intro h
        have hlen := h.length_eq
        simp only [List.length_append, List.length_cons] at hlen
        omega
      · intro h
        exact absurd (.inr (U.lower_congr (h.resolve_left hmark))) hfull

/-! ## the guard and the owners the plugins address -/

/-- The provider plugins. -/
inductive Plugin where
  | azure | bind | cloudflare | microsoft
deriving DecidableEq, Repr

/-- The owner `create_or_update_record` of a plugin addresses. -/
def Plugin.owner (dnsZone recordName : Str) : Plugin → Str
  | azure => dnsRelativeName U dnsZone recordName
  | bind => dnsRelativeName U (bareName dnsZone) recordName
  | cloudflare => Cloudflare.fqdn U (bareName dnsZone) recordName
  | microsoft => dnsRelativeName U (strip dnsZone) recordName

/-- The plugin addresses the apex of the zone. -/
def Plugin.AddressesApex (dnsZone recordName : Str) (p : Plugin) : Prop :=
  match p with
  | cloudflare => EqAsciiCase (p.owner U dnsZone recordName) (bareName (bareName dnsZone))
  | _ => p.owner U dnsZone recordName = ['@']

instance (z r : Str) (p : Plugin) : Decidable (p.AddressesApex U z r) :=
  match p with
  | .azure | .bind | .microsoft => inferInstanceAs (Decidable (_ = ['@']))
  | .cloudflare => inferInstanceAs (Decidable (EqAsciiCase _ _))

/-- The guard and the name mappings agree on the name, and no accepted change
of NS records is addressed to the apex. -/
def ApexGuarded (z r : Str) : Prop :=
  ((isApexName U r (some z) = true ↔ dnsRelativeName U z r = ['@']) ∧
    (dnsRelativeName U z r = ['@'] ↔ EqAsciiCase (Cloudflare.fqdn U z r) (bareName z))) ∧
  ∀ recordType ttl values requireValues requireTtl p,
    prepareMutation U r recordType ttl values (some z) requireValues requireTtl = .ok p →
    p.recordType = .ns → ∀ plugin : Plugin, ¬plugin.AddressesApex U z p.recordName

/-- What some plugin addresses as the apex. -/
theorem addressesApex_iff (z r : Str) :
    (∃ plugin : Plugin, plugin.AddressesApex U z r) ↔
      IsApexMark (bareName r) ∨ CutToApex U (bareName z) (bareName r) ∨
        CutToApex U (bareName (bareName z)) (bareName r) := by
  have hcut : EqAsciiCase (bareName r) (bareName (bareName z)) →
      CutToApex U (bareName (bareName z)) (bareName r) := fun h => .inl (U.lower_congr h)
  constructor
  · intro ⟨plugin, h⟩
    cases plugin with
    | azure =>
        have h := (dnsRelativeName_eq_at_iff U z r).mp h
        exact h.imp id .inl
    | bind =>
        have h := (dnsRelativeName_eq_at_iff U (bareName z) r).mp h
        exact h.imp id .inr
    | cloudflare =>
        have h := (fqdn_eqAsciiCase_iff U (bareName z) r).mp h
        exact h.imp id fun h => .inr (hcut h)
    | microsoft =>
        have h := (dnsRelativeName_eq_at_iff U (strip z) r).mp h
        rw [bareName_strip] at h
        exact h.imp id .inl
  · intro h
    by_cases hz : IsApexMark (bareName r) ∨ CutToApex U (bareName z) (bareName r)
    · exact ⟨.azure, (dnsRelativeName_eq_at_iff U z r).mpr hz⟩
    · refine ⟨.bind, (dnsRelativeName_eq_at_iff U (bareName z) r).mpr ?_⟩
      rw [not_or] at hz
      exact .inr ((h.resolve_left hz.1).resolve_left hz.2)

/-- A prepared change of NS records is not about what the guard takes for the
apex. -/
theorem prepareMutation_ns {r recordType : Str} {ttl : Option Int} {values : List Str}
    {z : Option Str} {requireValues requireTtl : Bool} {p : PreparedMutation}
    (h : prepareMutation U r recordType ttl values z requireValues requireTtl = .ok p)
    (hns : p.recordType = .ns) : p.recordName = strip r ∧ isApexName U (strip r) z = false := by
  unfold prepareMutation at h
  by_cases hname : strip r = []
  · rw [if_pos hname] at h
    contradiction
  rw [if_neg hname] at h
  obtain ⟨rt, -, h⟩ := bind_eq_ok h
  obtain ⟨u, hguard, h⟩ := bind_eq_ok h
  obtain ⟨ttl', -, h⟩ := bind_eq_ok h
  obtain ⟨values', h⟩ : ∃ values', Except.ok ⟨strip r, rt, ttl', values'⟩ = Except.ok p := by
    cases requireValues with
    | false => exact ⟨_, h⟩
    | true =>
        obtain ⟨values', -, h⟩ := bind_eq_ok h
        exact ⟨values', h⟩
  have hp : (⟨strip r, rt, ttl', values'⟩ : PreparedMutation) = p := Except.ok.inj h
  subst hp
  have hrt : rt = .ns := hns
  subst hrt
  refine ⟨rfl, ?_⟩
  unfold guardMutationAllowed at hguard
  cases hapex : isApexName U (strip r) z with
  | false => rfl
  | true => simp [hapex] at hguard

/-- A change that deletes NS records is prepared unless the guard takes the
name for the apex. -/
theorem prepareMutation_ns_ok {r z : Str} (hr : strip r ≠ [])
    (hguard : isApexName U (strip r) (some z) = false) :
    prepareMutation U r (lit "NS") none [] (some z) false false = .ok ⟨strip r, .ns, 300, []⟩ := by
  have htype : normalizeMutableRecordType U (lit "NS") = .ok .ns :=
    normalizeRecordTypeIn_text U (t := .ns) (by decide)
  have hallowed : guardMutationAllowed U (strip r) .ns (some z) = .ok () := by
    simp [guardMutationAllowed, hguard]
  unfold prepareMutation
  simp only [hr, if_false, htype, hallowed, ok_bind, pure_bind]
  rfl

/-- The guard and the name mappings agree on a name, and keep NS records of
the apex from every plugin, exactly when the name is a plain mark of the apex,
or is the zone up to ASCII case, or when neither the guard nor a plugin takes
it for the apex otherwise. -/
theorem apexGuarded_iff {z : Str} (r : Str) (hz : bareName z ≠ []) :
    ApexGuarded U z r ↔
      IsApexMark (bareName r) ∨ EqAsciiCase (bareName r) (bareName z) ∨
        (U.lower (bareName r) ≠ '.' :: U.lower (bareName z) ∧
          ¬CutToApex U (bareName z) (bareName r) ∧
          ¬CutToApex U (bareName (bareName z)) (bareName r)) := by
  have happly := addressesApex_iff U z (strip r)
  have hguard := isApexName_iff U r hz
  have hstrip : isApexName U (strip r) (some z) = isApexName U r (some z) := by
    rw [Bool.eq_iff_iff, isApexName_iff U _ hz, bareName_strip, hguard]
  rw [bareName_strip] at happly
  unfold ApexGuarded
  rw [hguard, dnsRelativeName_eq_at_iff, fqdn_eqAsciiCase_iff]
  by_cases hmark : IsApexMark (bareName r)
  · simp only [hmark, true_or, iff_self, and_self, true_and, iff_true]
    intro recordType ttl values requireValues requireTtl p hp hns
    have hnot := (prepareMutation_ns U hp hns).2
    rw [hstrip, Bool.eq_false_iff] at hnot
    exact absurd (hguard.mpr (.inl hmark)) hnot
  · by_cases hzone : EqAsciiCase (bareName r) (bareName z)
    · have hlower := U.lower_congr hzone
      have hcut : CutToApex U (bareName z) (bareName r) := .inl hlower
      simp only [hmark, hzone, hlower, hcut, true_or, or_true, iff_self, and_self, true_and,
        iff_true]
      intro recordType ttl values requireValues requireTtl p hp hns
      have hnot := (prepareMutation_ns U hp hns).2
      rw [hstrip, Bool.eq_false_iff] at hnot
      exact absurd (hguard.mpr (.inr (.inl hlower))) hnot
    · simp only [hmark, hzone, false_or, or_self, iff_false]
      rw [or_iff_right hmark] at happly
      constructor
      · intro h
        obtain ⟨⟨hagree, hcut⟩, hall⟩ := h
        have hnot := mt hagree.mp hcut
        rw [not_or] at hnot
        refine ⟨hnot.2, hcut, fun hcut' => ?_⟩
        obtain ⟨plugin, happlies⟩ := happly.mpr (.inr hcut')
        have hname : strip r ≠ [] := fun h => hmark (.inl (by rw [bareName, h]; rfl))
        have hallowed : isApexName U (strip r) (some z) = false := by
          rw [hstrip, Bool.eq_false_iff, ne_eq, hguard, not_or, not_or]
          exact ⟨hmark, hnot⟩
        exact hall _ _ _ _ _ _ (prepareMutation_ns_ok U hname hallowed) rfl plugin happlies
      · intro h
        obtain ⟨hdot, hcut, hcut'⟩ := h
        refine ⟨⟨⟨fun h => ?_, fun h => absurd h hcut⟩, hcut⟩, ?_⟩
        · exact absurd (h.resolve_right hdot) (not_or.mp hcut).1
        · intro recordType ttl values requireValues requireTtl p hp hns plugin happlies
          rw [(prepareMutation_ns U hp hns).1] at happlies
          exact (happly.mp ⟨plugin, happlies⟩).elim hcut hcut'

theorem apexGuarded_www : ApexGuarded Ucd.ascii (lit "example.com") (lit "www") :=
  (apexGuarded_iff Ucd.ascii (lit "www") (by decide)).mpr (.inr (.inr (by decide)))

/-- `@` before the zone gets past the guard: the NS records of the apex are
changed. -/
theorem not_apexGuarded_at_zone :
    ¬ApexGuarded Ucd.ascii (lit "example.com") (lit "@.example.com") ∧
      ∃ p, prepareMutation Ucd.ascii (lit "@.example.com") (lit "NS") (some 60)
          [lit "ns1.example.net"] (some (lit "example.com")) true true = .ok p ∧
        p.recordType = .ns ∧ Plugin.bind.AddressesApex Ucd.ascii (lit "example.com") p.recordName := by
  refine ⟨fun h => ?_, ⟨lit "@.example.com", .ns, 60, [lit "ns1.example.net"]⟩, by decide,
    rfl, by decide⟩
  exact absurd (h.1.1.mpr (by decide)) (by decide)

/-! ## display names -/

/-- `f` names the zone `z`, or a name under it. -/
def AtOrUnder (z f : Str) : Prop :=
  EqAsciiCase (bareName f) (bareName z) ∨
    ∃ d s, bareName f = d ++ '.' :: s ∧ d ≠ [] ∧ EqAsciiCase s (bareName z)

/-- The display name of `f` addresses `f` again. -/
def ShownAddressed (z f : Str) : Prop :=
  EqAsciiCase (Cloudflare.fqdn U z (Cloudflare.relativeName U z f)) (bareName f) ∧
    dnsRelativeName U z (dnsRelativeName U z f) = dnsRelativeName U z f

/-- The relative name `d` stands for itself in the bare zone `zn`: it is bare,
is not `@`, and does not look like the zone or a name under it. -/
def StandsForItself (zn d : Str) : Prop :=
  bareName d = d ∧ d ≠ ['@'] ∧ U.lower d ≠ U.lower zn ∧
    ¬U.lower ('.' :: zn) <:+ U.lower d

instance (zn d : Str) : Decidable (StandsForItself U zn d) :=
  inferInstanceAs (Decidable (_ ∧ _ ∧ _ ∧ _))

/-- The zone itself is shown as the apex. -/
theorem relativeName_of_eq {z f : Str} (h : EqAsciiCase (bareName f) (bareName z)) :
    Cloudflare.relativeName U z f = ['@'] ∧ dnsRelativeName U z f = ['@'] := by
  have hlower := U.lower_congr h
  constructor
  · simp [Cloudflare.relativeName, hlower]
  · simp [dnsRelativeName, hlower]

/-- A name under the zone is longer than the zone, also in lower case. -/
theorem lower_ne_of_under {zn d s : Str} (hs : EqAsciiCase s zn) :
    U.lower (d ++ '.' :: s) ≠ U.lower zn := by
  intro h
  have hsplit : d ++ '.' :: s = (d ++ ['.']) ++ s := by simp
  have hlen := congrArg List.length h
  have hpos := U.length_le_length_lower (d ++ ['.'])
  rw [hsplit, U.length_lower_append, U.lower_congr hs] at hlen
  rw [List.length_append, List.length_singleton] at hpos
  omega

/-- A name below the zone is no apex mark. -/
theorem under_ne_apexMark {d : Str} (s : Str) (hd : d ≠ []) : ¬IsApexMark (d ++ '.' :: s) := by
  unfold IsApexMark
  simp [List.append_eq_singleton_iff, hd]

/-- What is left of a name below the zone. -/
theorem dropEnd_of_under {zn d s : Str} (hs : EqAsciiCase s zn) :
    dropEnd (d ++ '.' :: s) (zn.length + 1) = d := by
  refine dropEnd_append_of_length ?_
  rw [List.length_cons, hs.length_eq]

/-- The display name of a name under the zone: its relative part, if the
suffix test recognises the zone. -/
theorem relativeName_of_under {z f d s : Str} (hf : bareName f = d ++ '.' :: s) (hd : d ≠ [])
    (hs : EqAsciiCase s (bareName z)) :
    Cloudflare.relativeName U z f =
        (if U.lower ('.' :: bareName z) <:+ U.lower (bareName f) then d else bareName f) ∧
      dnsRelativeName U z f = Cloudflare.relativeName U z f := by
  have hne := lower_ne_of_under U (d := d) hs
  have hcut := dropEnd_of_under (d := d) hs
  have ⟨hnil, hat⟩ := not_or.mp (under_ne_apexMark s hd)
  constructor
  · simp only [Cloudflare.relativeName, hf, hne, if_false, endsWith_iff, List.length_cons, hcut, hd]
  · simp only [Cloudflare.relativeName, dnsRelativeName, hf, hne, hnil, hat, or_self, if_false]

/-- What is no longer than a name under the zone, and is not its relative
part, does not address it. -/
theorem fqdn_eqAsciiCase_under_iff {z d s : Str} (hs : EqAsciiCase s (bareName z)) (hd : d ≠ []) :
    EqAsciiCase (Cloudflare.fqdn U z d) (d ++ '.' :: s) ↔ StandsForItself U (bareName z) d := by
  have hlen := hs.length_eq
  have hle := length_bareName_le d
  have hpos := List.length_pos_iff.mpr hd
  unfold StandsForItself Cloudflare.fqdn
  simp only [endsWith_iff]
  by_cases hmark : bareName d = [] ∨ bareName d = ['@']
  · rw [if_pos hmark]
    constructor
    · intro h
      have := h.length_eq
      simp only [List.length_append, List.length_cons] at this
      omega
    · intro h
      obtain ⟨hbare, hat, -⟩ := h
      rw [hbare] at hmark
      exact absurd hmark (not_or.mpr ⟨hd, hat⟩)
  · rw [if_neg hmark]
    by_cases hfull : U.lower ('.' :: bareName z) <:+ U.lower (bareName d) ∨
        U.lower (bareName d) = U.lower (bareName z)
    · rw [if_pos hfull]
      constructor
      · intro h
        have := h.length_eq
        simp only [List.length_append, List.length_cons] at this
        omega
      · intro h
        obtain ⟨hbare, -, hzone, hsuffix⟩ := h
        rw [hbare] at hfull
        exact absurd hfull (not_or.mpr ⟨hsuffix, hzone⟩)
    · rw [if_neg hfull]
      rw [not_or] at hmark hfull
      constructor
      · intro h
        have hsame := h.length_eq
        simp only [List.length_append, List.length_cons] at hsame
        have hbare : bareName d = d := bareName_eq_of_length (by omega)
        rw [hbare] at hmark hfull
        exact ⟨hbare, hmark.2, hfull.2, hfull.1⟩
      · intro h
        obtain ⟨hbare, -⟩ := h
        rw [hbare]
        exact (EqAsciiCase.refl d).append (EqAsciiCase.cons_iff.mpr ⟨rfl, hs.symm⟩)

/-- A name that stands for itself is shown as it is. -/
theorem dnsRelativeName_of_standsForItself {z d : Str} (hd : d ≠ [])
    (h : StandsForItself U (bareName z) d) : dnsRelativeName U z d = d := by
  obtain ⟨hbare, hat, hzone, hsuffix⟩ := h
  simp only [dnsRelativeName, hbare, hd, hat, hzone, or_self, if_false, endsWith_iff, hsuffix]

/-- A name that is its own relative name is bare. -/
theorem bareName_of_dnsRelativeName {z d : Str} (h : dnsRelativeName U z d = d) (hat : d ≠ ['@'])  :
    bareName d = d := by
  have hle := length_bareName_le d
  unfold dnsRelativeName at h
  simp only [endsWith_iff] at h
  split_ifs at h with hmark hsuffix hrest
  · exact absurd h.symm hat
  · exact absurd h.symm hat
  · have hcut := length_dropEnd (bareName d) ('.' :: bareName z).length
    rw [h, List.length_cons] at hcut
    exact bareName_eq_of_length (by omega)
  · exact h

/-- The display name of a name at or under the zone addresses that name again
exactly when it names the zone, or when its zone is recognised and the part
before it stands for itself. -/
theorem shownAddressed_iff {z f : Str} (hf : AtOrUnder z f) :
    ShownAddressed U z f ↔
      EqAsciiCase (bareName f) (bareName z) ∨
        (U.lower ('.' :: bareName z) <:+ U.lower (bareName f) ∧
          StandsForItself U (bareName z) (dropEnd (bareName f) ((bareName z).length + 1))) := by
  unfold ShownAddressed
  by_cases hzone : EqAsciiCase (bareName f) (bareName z)
  · obtain ⟨hrel, hrel'⟩ := relativeName_of_eq U hzone
    have hat : dnsRelativeName U z ['@'] = ['@'] := by simp [dnsRelativeName]
    have hapex : Cloudflare.fqdn U z ['@'] = bareName z := by simp [Cloudflare.fqdn]
    rw [hrel, hrel', hat, hapex]
    exact iff_of_true ⟨hzone.symm, rfl⟩ (.inl hzone)
  · obtain ⟨d, s, hf, hd, hs⟩ := hf.resolve_left hzone
    obtain ⟨hrel, hrel'⟩ := relativeName_of_under U hf hd hs
    rw [hrel', hrel, or_iff_right hzone, hf, dropEnd_of_under hs]
    by_cases hsuffix : U.lower ('.' :: bareName z) <:+ U.lower (d ++ '.' :: s)
    · rw [if_pos hsuffix, fqdn_eqAsciiCase_under_iff U hs hd]
      exact ⟨fun h => ⟨hsuffix, h.1⟩, fun h => ⟨h.2, dnsRelativeName_of_standsForItself U hd h.2⟩⟩
    · rw [if_neg hsuffix]
      refine iff_of_false (fun ⟨hfqdn, hself⟩ => ?_) fun h => hsuffix h.1
      have ⟨hnil, hat⟩ := not_or.mp (under_ne_apexMark s hd)
      have hbare := bareName_of_dnsRelativeName U hself hat
      have hzone := lower_ne_of_under U (d := d) hs
      simp only [Cloudflare.fqdn, hbare, hnil, hat, or_self, if_false, endsWith_iff, hsuffix,
        hzone] at hfqdn
      have hlen := hfqdn.length_eq
      simp only [List.length_append, List.length_cons] at hlen
      omega

theorem shownAddressed_www :
    ShownAddressed Ucd.ascii (lit "example.com") (lit "www.example.com") :=
  (shownAddressed_iff Ucd.ascii (z := lit "example.com") (f := lit "www.example.com")
    (.inr ⟨lit "www", lit "example.com", rfl, by decide, rfl⟩)).mpr (.inr (by decide))

/-- A name under the zone whose relative part spells the zone is shown as the
zone's own name, which addresses the apex. -/
theorem not_shownAddressed_zone_zone :
    AtOrUnder (lit "example.com") (lit "example.com.example.com") ∧
      ¬ShownAddressed Ucd.ascii (lit "example.com") (lit "example.com.example.com") ∧
      dnsRelativeName Ucd.ascii (lit "example.com")
        (dnsRelativeName Ucd.ascii (lit "example.com") (lit "example.com.example.com")) = ['@'] := by
  refine ⟨.inr ⟨lit "example.com", lit "example.com", rfl, by decide, rfl⟩, fun h => ?_, by decide⟩
  exact absurd h.2 (by decide)

end ApiToDns
