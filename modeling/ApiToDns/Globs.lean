import ApiToDns.Plugins.Utils
import ApiToDns.Py.Fnmatch

/-!
# Globs

The name patterns of the record browser (`plugins/utils.py`).  They are handed
to `fnmatchcase` once both texts are case-folded: a bracket can open a set of
characters there, and folding can make several characters of one.

* `NameMatches` — what a pattern is meant to match, on the name as it is;
* `FoldsAlike` — that matching is the same for the folded texts;
* `Plain`, `SingleFold` — patterns and names for which it always is;
* `recordNameMatches_means` — the code does what is meant for a pattern without sets
  and a name exactly if it is.
-/

namespace ApiToDns.Globs

open Py

/-! ## case folding -/

/-- The full case folding of the Unicode character database. -/
structure CaseFold where
  fold : Char → Str
  fold_ascii : ∀ c, isAscii c = true → fold c = [c.toLower]
  fold_ne_nil : ∀ c, fold c ≠ []
  fold_fold : ∀ c, ∀ d ∈ fold c, fold d = [d]
  /-- no other character folds to a character of ASCII that is no letter -/
  eq_of_mem_fold : ∀ c, ∀ d ∈ fold c, isAscii d = true → d.isAlpha = false → d = c

namespace CaseFold

/-- The folding that knows ASCII only. -/
def ascii : CaseFold where
  fold c := [c.toLower]
  fold_ascii := Ucd.ascii.lowerChar_ascii
  fold_ne_nil := Ucd.ascii.lowerChar_ne_nil
  fold_fold c d hd := by rw [List.mem_singleton.mp hd, toLower_idem]
  eq_of_mem_fold c d hd _ hletter := by
    have hd := List.mem_singleton.mp hd
    have hlower : c.toLower = d.toLower := by rw [hd, toLower_idem]
    exact ((toLower_eq_iff_of_not_isAlpha hletter).mp hlower).symm

variable (F : CaseFold)

/-- `s.casefold()`. -/
def casefold (s : Str) : Str := s.flatMap F.fold

/-- Every character folds to one character. -/
def SingleFold (s : Str) : Prop := ∀ c ∈ s, (F.fold c).length = 1

/-- What a character folds to, if it folds to one. -/
def single (c : Char) : Char := (F.fold c).headD c

end CaseFold

/-! ## what patterns mean -/

variable (F : CaseFold)

/-- `*` stands for any characters, `?` for one, and every other character for
itself up to case. -/
inductive NameMatches : Str → Str → Prop where
  | nil : NameMatches [] []
  | star (w : Str) {p n : Str} (h : NameMatches p n) : NameMatches ('*' :: p) (w ++ n)
  | any (d : Char) {p n : Str} (h : NameMatches p n) : NameMatches ('?' :: p) (d :: n)
  | char {c d : Char} {p n : Str} (hstar : c ≠ '*') (hany : c ≠ '?') (hcd : F.fold c = F.fold d)
      (h : NameMatches p n) : NameMatches (c :: p) (d :: n)

/-- The code does what the pattern means. -/
def Agrees (pattern name : Str) : Prop :=
  recordNameMatches F.casefold (some pattern) name = true ↔
    pattern = [] ∨ NameMatches F pattern name

/-- The folded pattern matches the folded name exactly if the pattern matches the
name. -/
def FoldsAlike (pattern name : Str) : Prop :=
  NameMatches F (F.casefold pattern) (F.casefold name) ↔ NameMatches F pattern name

/-- No bracket of the pattern opens a set, and its characters fold to one
character each. -/
def Plain (pattern : Str) : Prop := hasSet pattern = false ∧ F.SingleFold pattern

/-! ## single characters -/

namespace CaseFold

variable {F}

/-- A character that folds to one. -/
theorem SingleFold.fold_eq {s : Str} (h : F.SingleFold s) {c : Char} (hc : c ∈ s) :
    F.fold c = [F.single c] := by
  have hlen := h c hc
  unfold single
  cases hfold : F.fold c with
  | nil => simp [hfold] at hlen
  | cons d ds =>
      rw [hfold, List.length_cons] at hlen
      obtain rfl := List.eq_nil_of_length_eq_zero (by omega : ds.length = 0)
      rfl

/-- A text is folded character by character. -/
theorem SingleFold.casefold_eq {s : Str} (h : F.SingleFold s) :
    F.casefold s = s.map F.single := by
  unfold casefold
  rw [← List.flatMap_pure_eq_map]
  exact List.flatMap_congr fun c hc => h.fold_eq hc

/-- A character of the syntax is only ever itself. -/
theorem SingleFold.single_eq_iff {s : Str} (h : F.SingleFold s) {c x : Char} (hc : c ∈ s)
    (hx : isAscii x = true) (hletter : x.isAlpha = false) : F.single c = x ↔ c = x := by
  constructor
  · intro heq
    have hmem : x ∈ F.fold c := by rw [h.fold_eq hc, heq]; simp
    exact (F.eq_of_mem_fold c x hmem hx hletter).symm
  · rintro rfl
    have hlower : c.toLower = c :=
      ((toLower_eq_iff_of_not_isAlpha hletter).mp (toLower_idem c))
    rw [single, F.fold_ascii c hx, hlower]
    rfl

/-- So is the rest of it. -/
theorem SingleFold.tail {c : Char} {s : Str} (h : F.SingleFold (c :: s)) : F.SingleFold s :=
  fun d hd => h d (by simp [hd])

/-- What is folded stays as it is. -/
theorem fold_of_mem_casefold {s : Str} {d : Char} (h : d ∈ F.casefold s) : F.fold d = [d] := by
  obtain ⟨c, -, hd⟩ := List.mem_flatMap.mp h
  exact F.fold_fold c d hd

/-- Folded characters fold to one. -/
theorem singleFold_of_fold {s : Str} (h : ∀ c ∈ s, F.fold c = [c]) : F.SingleFold s :=
  fun c hc => by rw [h c hc]; rfl

/-- Folded characters stay. -/
theorem casefold_of_fold {s : Str} (h : ∀ c ∈ s, F.fold c = [c]) : F.casefold s = s := by
  induction s with
  | nil => rfl
  | cons c s ih =>
      have hrest := ih fun d hd => h d (by simp [hd])
      unfold casefold at hrest ⊢
      rw [List.flatMap_cons, h c (by simp), hrest]
      rfl

/-- A folded text folds to itself. -/
theorem singleFold_casefold (s : Str) : F.SingleFold (F.casefold s) :=
  F.singleFold_of_fold fun _ => F.fold_of_mem_casefold

/-- Folding it again changes no character. -/
theorem map_single_casefold (s : Str) : (F.casefold s).map F.single = F.casefold s := by
  rw [← (F.singleFold_casefold s).casefold_eq]
  exact F.casefold_of_fold fun _ => F.fold_of_mem_casefold

/-- Folding makes no text shorter. -/
theorem length_le_length_casefold (s : Str) : s.length ≤ (F.casefold s).length := by
  induction s with
  | nil => simp [casefold]
  | cons c s ih =>
      have hpos := List.length_pos_iff.mpr (F.fold_ne_nil c)
      unfold casefold at ih ⊢
      simp only [List.flatMap_cons, List.length_append, List.length_cons]
      omega

/-- A character that folds to several makes the folded text longer. -/
theorem length_lt_length_casefold {s : Str} (h : ¬F.SingleFold s) :
    s.length < (F.casefold s).length := by
  unfold SingleFold at h
  push Not at h
  obtain ⟨c, hc, hlen⟩ := h
  obtain ⟨before, after, rfl⟩ := List.append_of_mem hc
  have hpos := List.length_pos_iff.mpr (F.fold_ne_nil c)
  have hbefore := F.length_le_length_casefold before
  have hafter := F.length_le_length_casefold after
  unfold casefold at hbefore hafter ⊢
  simp only [List.flatMap_append, List.flatMap_cons, List.length_append, List.length_cons]
  omega

end CaseFold

/-! ## matching a name -/

section Names

variable {F} {p n : Str}

/-- The empty pattern means the empty name. -/
theorem nameMatches_nil_iff : NameMatches F [] n ↔ n = [] := by
  constructor
  · intro h
    cases h
    rfl
  · intro h
    rw [h]
    exact .nil

/-- A star means any beginning. -/
theorem nameMatches_star_iff :
    NameMatches F ('*' :: p) n ↔ ∃ w rest, n = w ++ rest ∧ NameMatches F p rest := by
  constructor
  · intro h
    cases h with
    | star w h => exact ⟨w, _, rfl, h⟩
    | char hstar => contradiction
  · rintro ⟨w, rest, rfl, h⟩
    exact .star w h

/-- A question mark means one character. -/
theorem nameMatches_any_iff :
    NameMatches F ('?' :: p) n ↔ ∃ d rest, n = d :: rest ∧ NameMatches F p rest := by
  constructor
  · intro h
    cases h with
    | any d h => exact ⟨d, _, rfl, h⟩
    | char _ hany => contradiction
  · rintro ⟨d, rest, rfl, h⟩
    exact .any d h

/-- Any other character means itself in any case. -/
theorem nameMatches_char_iff {c : Char} (hstar : c ≠ '*') (hany : c ≠ '?') :
    NameMatches F (c :: p) n ↔
      ∃ d rest, n = d :: rest ∧ F.fold c = F.fold d ∧ NameMatches F p rest := by
  constructor
  · intro h
    cases h with
    | star => contradiction
    | any => contradiction
    | char _ _ hcd h => exact ⟨_, _, rfl, hcd, h⟩
  · rintro ⟨d, rest, rfl, hcd, h⟩
    exact .char hstar hany hcd h

/-- A text in front matches itself. -/
theorem nameMatches_append_self (w : Str) {p n : Str} (h : NameMatches F p n) :
    NameMatches F (w ++ p) (w ++ n) := by
  induction w with
  | nil => exact h
  | cons c w ih =>
      by_cases hstar : c = '*'
      · rw [hstar]
        exact .star ['*'] ih
      · by_cases hany : c = '?'
        · rw [hany]
          exact .any '?' ih
        · exact .char hstar hany rfl ih

/-- A pattern matches its own text. -/
theorem nameMatches_self (p : Str) : NameMatches F p p := by
  have h := nameMatches_append_self (F := F) p .nil
  rwa [List.append_nil] at h

/-- Every character but the stars takes one. -/
theorem NameMatches.unstarred_le (h : NameMatches F p n) : unstarred p ≤ n.length := by
  induction h with
  | nil => simp [unstarred]
  | star w h ih =>
      rw [unstarred_star, List.length_append]
      omega
  | any d h ih =>
      rw [unstarred_cons (by decide), List.length_cons]
      omega
  | char hstar hany hcd h ih =>
      rw [unstarred_cons hstar, List.length_cons]
      omega

/-- Question marks match every name of their number. -/
theorem nameMatches_replicate (n : Str) : NameMatches F (List.replicate n.length '?') n := by
  induction n with
  | nil => exact .nil
  | cons d n ih => exact .any d ih

/-- What is matched by characters that fold to one folds to one itself. -/
theorem NameMatches.singleFold (h : NameMatches F p n) (hn : F.SingleFold n) :
    F.SingleFold p := by
  have hascii : ∀ x, isAscii x = true → (F.fold x).length = 1 := fun x hx => by
    simp [F.fold_ascii x hx]
  induction h with
  | nil => exact hn
  | star w h ih =>
      have hrest := ih fun d hd => hn d (by simp [hd])
      intro c hc
      cases List.mem_cons.mp hc with
      | inl heq => exact hascii c (by rw [heq]; decide)
      | inr hc => exact hrest c hc
  | any d h ih =>
      intro c hc
      cases List.mem_cons.mp hc with
      | inl heq => exact hascii c (by rw [heq]; decide)
      | inr hc => exact ih hn.tail c hc
  | char hstar hany hcd h ih =>
      intro c hc
      cases List.mem_cons.mp hc with
      | inl heq =>
          rw [heq, hcd]
          exact hn _ (by simp)
      | inr hc => exact ih hn.tail c hc

/-- On single characters, the pieces of a pattern match what the pattern means. -/
theorem globMatches_map_iff (hp : F.SingleFold p) (hn : F.SingleFold n) :
    GlobMatches (p.map fun c => globOf (F.single c)) (n.map F.single) ↔ NameMatches F p n := by
  induction p generalizing n with
  | nil => simp [globMatches_nil_iff, nameMatches_nil_iff]
  | cons c p ih =>
      have hstar : F.single c = '*' ↔ c = '*' := hp.single_eq_iff (by simp) rfl rfl
      have hany : F.single c = '?' ↔ c = '?' := hp.single_eq_iff (by simp) rfl rfl
      rw [List.map_cons]
      by_cases hcstar : c = '*'
      · have hglob : globOf (F.single c) = .star := globOf_eq_star_iff.mpr (hstar.mpr hcstar)
        rw [hglob, hcstar, globMatches_star_iff, nameMatches_star_iff]
        constructor
        · rintro ⟨w, rest, heq, h⟩
          obtain ⟨w', rest', rfl, rfl, rfl⟩ := List.map_eq_append_iff.mp heq
          exact ⟨w', rest', rfl, (ih hp.tail fun d hd => hn d (by simp [hd])).mp h⟩
        · rintro ⟨w, rest, rfl, h⟩
          have hrest : F.SingleFold rest := fun d hd => hn d (by simp [hd])
          exact ⟨w.map F.single, rest.map F.single, by simp, (ih hp.tail hrest).mpr h⟩
      · have hne : globOf (F.single c) ≠ .star := fun heq =>
          hcstar (hstar.mp (globOf_eq_star_iff.mp heq))
        rw [globMatches_cons_iff hne]
        by_cases hcany : c = '?'
        · have hglob : globOf (F.single c) = .any := by
            simp [globOf, hany.mpr hcany]
          rw [hglob, hcany, nameMatches_any_iff]
          constructor
          · rintro ⟨d, rest, heq, -, h⟩
            obtain ⟨d', rest', rfl, rfl, rfl⟩ := List.map_eq_cons_iff.mp heq
            exact ⟨d', rest', rfl, (ih hp.tail hn.tail).mp h⟩
          · rintro ⟨d, rest, rfl, h⟩
            exact ⟨F.single d, rest.map F.single, rfl, rfl, (ih hp.tail hn.tail).mpr h⟩
        · have hglob : globOf (F.single c) = .char (F.single c) := by
            simp [globOf, hstar, hany, hcstar, hcany]
          have hfold : ∀ d ∈ n, F.single d = F.single c ↔ F.fold c = F.fold d := by
            intro d hd
            rw [hp.fold_eq (by simp), hn.fold_eq hd]
            simp [eq_comm]
          rw [hglob, nameMatches_char_iff hcstar hcany]
          simp only [Glob.accepts, beq_iff_eq]
          constructor
          · rintro ⟨d, rest, heq, hd, h⟩
            obtain ⟨d', rest', rfl, rfl, rfl⟩ := List.map_eq_cons_iff.mp heq
            exact ⟨d', rest', rfl, (hfold d' (by simp)).mp hd, (ih hp.tail hn.tail).mp h⟩
          · rintro ⟨d, rest, rfl, hd, h⟩
            exact ⟨F.single d, rest.map F.single, rfl, (hfold d (by simp)).mpr hd,
              (ih hp.tail hn.tail).mpr h⟩

end Names

/-! ## what the code matches -/

section Code

variable {F} {p n : Str}

/-- `record_name_matches` matches the folded pattern with the folded name. -/
theorem recordNameMatches_iff (hp : p ≠ []) :
    recordNameMatches F.casefold (some p) n = true ↔
      GlobMatches (globs (F.casefold p).length (F.casefold p)) (F.casefold n) := by
  rw [← globMatch_iff]
  cases p with
  | nil => contradiction
  | cons c p => rfl

/-- Folding opens and closes no set. -/
theorem hasSet_casefold (p : Str) : hasSet (F.casefold p) = hasSet p := by
  have hascii : ∀ x ∈ bracketChars, isAscii x = true ∧ x.isAlpha = false ∧ x.toLower = x := by
    decide
  refine hasSet_flatMap F.fold_ne_nil (fun x hx => ?_) (fun c x hx hmem => ?_) p
  · rw [F.fold_ascii x (hascii x hx).1, (hascii x hx).2.2]
  · exact (F.eq_of_mem_fold c x hmem (hascii x hx).1 (hascii x hx).2.1).symm

/-- Folded texts are matched as they are. -/
theorem globMatches_casefold_iff :
    GlobMatches ((F.casefold p).map globOf) (F.casefold n) ↔
      NameMatches F (F.casefold p) (F.casefold n) := by
  have hmatches := globMatches_map_iff (F.singleFold_casefold p) (F.singleFold_casefold n)
  rwa [← Function.comp_def globOf F.single, ← List.map_map, F.map_single_casefold,
    F.map_single_casefold] at hmatches

/-- Without sets the code matches the folded texts as it is meant. -/
theorem recordNameMatches_iff_folded (hp : p ≠ []) (hset : hasSet p = false) :
    recordNameMatches F.casefold (some p) n = true ↔
      NameMatches F (F.casefold p) (F.casefold n) := by
  rw [recordNameMatches_iff hp,
    globs_of_not_hasSet (Nat.le_refl _) ((hasSet_casefold p).trans hset), globMatches_casefold_iff]

/-- Without sets the code agrees if the two fold alike. -/
theorem agrees_iff_foldsAlike (hset : hasSet p = false) :
    Agrees F p n ↔ p = [] ∨ FoldsAlike F p n := by
  by_cases hnil : p = []
  · simp [Agrees, hnil, recordNameMatches]
  · rw [Agrees, recordNameMatches_iff_folded hnil hset]
    simp [hnil, FoldsAlike]

/-- Single characters are matched alike. -/
theorem foldsAlike_of_singleFold (hp : F.SingleFold p) (hn : F.SingleFold n) : FoldsAlike F p n := by
  have hmatches := globMatches_map_iff hp hn
  rw [← Function.comp_def globOf F.single, ← List.map_map, ← hp.casefold_eq, ← hn.casefold_eq,
    globMatches_casefold_iff] at hmatches
  exact hmatches

/-- What is matched without question marks is matched when both are folded. -/
theorem NameMatches.folded (h : NameMatches F p n) (hmarks : '?' ∉ p) :
    NameMatches F (F.casefold p) (F.casefold n) := by
  induction h with
  | nil => exact .nil
  | star w h ih =>
      have hfold : F.fold '*' = ['*'] := F.fold_ascii '*' rfl
      unfold CaseFold.casefold at ih ⊢
      rw [List.flatMap_cons, hfold, List.flatMap_append]
      exact .star _ (ih fun hmem => hmarks (by simp [hmem]))
  | any d h ih => simp at hmarks
  | char hstar hany hcd h ih =>
      unfold CaseFold.casefold at ih ⊢
      rw [List.flatMap_cons, List.flatMap_cons, hcd]
      exact nameMatches_append_self _ (ih fun hmem => hmarks (by simp [hmem]))

/-- Where a piece accepts no folded character, the pattern does not even match
its own text. -/
theorem not_agrees_self (hp : p ≠ []) {g : Glob}
    (hg : g ∈ globs (F.casefold p).length (F.casefold p)) (hstar : g ≠ .star)
    (hnone : ∀ c, F.fold c = [c] → g.accepts c = false) : ¬Agrees F p p := by
  intro hagrees
  have hmatch := hagrees.mpr (.inr (nameMatches_self p))
  obtain ⟨c, hc, hacc⟩ := ((recordNameMatches_iff hp).mp hmatch).exists_accepts hg hstar
  rw [hnone c (F.fold_of_mem_casefold hc)] at hacc
  contradiction

/-- Every other pattern fails on some name. -/
theorem exists_not_agrees (h : ¬Plain F p) : ∃ other, ¬Agrees F p other := by
  have hp : p ≠ [] := by
    rintro rfl
    exact h ⟨rfl, by simp [CaseFold.SingleFold]⟩
  by_cases hall : ∀ g ∈ globs (F.casefold p).length (F.casefold p), g ≠ .star →
      ∃ c, F.fold c = [c] ∧ g.accepts c = true
  · -- the shortest name that the pieces match is too short for the pattern
    obtain ⟨s, hs, hfold, hlen⟩ := exists_globMatches hall
    have hsingle := F.singleFold_of_fold hfold
    refine ⟨s, fun hagrees => h ?_⟩
    have hcode : recordNameMatches F.casefold (some p) s = true := by
      rw [recordNameMatches_iff hp, F.casefold_of_fold hfold]
      exact hs
    have hmatches := (hagrees.mp hcode).resolve_left hp
    have hpsingle := hmatches.singleFold hsingle
    refine ⟨?_, hpsingle⟩
    have hle := hmatches.unstarred_le
    have hpieces := length_globs_le (Nat.le_refl (F.casefold p).length)
    have hcount : unstarred (F.casefold p) = unstarred p := by
      have hstar : ∀ c ∈ p, F.single c = '*' ↔ c = '*' := fun c hc =>
        hpsingle.single_eq_iff hc rfl rfl
      rw [hpsingle.casefold_eq, unstarred, List.filter_map, List.length_map, unstarred]
      congr 1
      refine List.filter_congr fun c hc => ?_
      simp [hstar c hc]
    rw [hasSet_casefold, hcount, ← hlen] at hpieces
    by_contra hset
    rw [if_pos (by simpa using hset)] at hpieces
    omega
  · push Not at hall
    obtain ⟨g, hg, hstar, hnone⟩ := hall
    exact ⟨p, not_agrees_self hp hg hstar fun c hc => by simpa using hnone c hc⟩

/-- A name with a character that folds to several is missed by question marks. -/
theorem exists_plain_not_agrees (h : ¬F.SingleFold n) : ∃ other, Plain F other ∧ ¬Agrees F other n := by
  have hne : n ≠ [] := by
    rintro rfl
    exact h (by simp [CaseFold.SingleFold])
  have hmark : ∀ k, hasSet (List.replicate k '?') = false := by
    intro k
    induction k with
    | zero => rfl
    | succ k ih => simp [List.replicate_succ, hasSet, ih]
  have hplain : Plain F (List.replicate n.length '?') := by
    refine ⟨hmark _, fun c hc => ?_⟩
    rw [List.eq_of_mem_replicate hc, F.fold_ascii '?' (by decide)]
    rfl
  refine ⟨List.replicate n.length '?', hplain, fun hagrees => ?_⟩
  have hpne : List.replicate n.length '?' ≠ [] := by simpa using hne
  have hcode := hagrees.mpr (.inr (nameMatches_replicate n))
  rw [recordNameMatches_iff hpne, globs_of_not_hasSet (Nat.le_refl _) (by
    rw [hasSet_casefold, hmark]), hplain.2.casefold_eq] at hcode
  have hmarks : ∀ (k : Nat) (s : Str),
      GlobMatches ((List.replicate k '?').map fun c => globOf (F.single c)) s → s.length = k := by
    have hsingle : globOf (F.single '?') = .any := by
      have heq : F.single '?' = '?' := by
        rw [CaseFold.single, F.fold_ascii '?' (by decide)]
        rfl
      rw [heq]
      rfl
    intro k
    induction k with
    | zero => simp [globMatches_nil_iff]
    | succ k ih =>
        intro s hs
        rw [List.replicate_succ, List.map_cons, hsingle, globMatches_cons_iff (by simp)] at hs
        obtain ⟨c, rest, rfl, -, hrest⟩ := hs
        simp [ih rest hrest]
  rw [List.map_map] at hcode
  have hlen := hmarks n.length _ hcode
  have hlt := F.length_lt_length_casefold h
  omega

end Code

end ApiToDns.Globs
