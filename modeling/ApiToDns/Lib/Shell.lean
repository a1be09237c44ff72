/-!
# Lib.Shell

How a POSIX shell reads a list of `export NAME=word` lines, as far as words
are made of literal characters and quoted parts, and the quoting that makes
such a word of any text.  Text outside this fragment has no value here.

* `word_quote` — a quoted text is one word, which says that text;
* `assignments_exports` — the lines assign each name its text, and nothing else.

This module depends only on the Lean 4 core library.
-/

namespace Shell

/-- Where a reader of a word is. -/
inductive Mode where
  | bare
  | single
  | double

/-- A character that needs no quotes. -/
def isSafe (c : Char) : Bool :=
  c.isAlphanum || ['_', '@', '%', '+', '=', ':', ',', '.', '/', '-'].contains c

/-- The text a word says, and what comes after it; `none` outside the
fragment. -/
def word : Mode → List Char → Option (List Char × List Char)
  | .bare, [] => some ([], [])
  | _, [] => none
  | .bare, c :: rest =>
      if c = '\n' then some ([], c :: rest)
      else if c = '\'' then word .single rest
      else if c = '"' then word .double rest
      else if isSafe c then (word .bare rest).map fun r => (c :: r.1, r.2)
      else none
  | .single, c :: rest =>
      if c = '\'' then word .bare rest else (word .single rest).map fun r => (c :: r.1, r.2)
  | .double, c :: rest =>
      if c = '"' then word .bare rest
      else if ['$', '\x60', '\\'].contains c then none
      else (word .double rest).map fun r => (c :: r.1, r.2)

/-- Inside single quotes, a single quote ends them, stands in double quotes,
and begins them again. -/
def quoteChar (c : Char) : List Char := if c = '\'' then ['\'', '"', '\'', '"', '\''] else [c]

/-- `shlex.quote(s)`. -/
def quote (s : List Char) : List Char :=
  if s = [] then ['\'', '\'']
  else if s.all isSafe then s
  else ['\''] ++ s.flatMap quoteChar ++ ['\'']

/-- What may follow a word. -/
def Ends (rest : List Char) : Prop := rest = [] ∨ ∃ more, rest = '\n' :: more

/-- A bare word ends at a separator. -/
theorem word_ends {rest : List Char} (h : Ends rest) : word .bare rest = some ([], rest) := by
  rcases h with rfl | ⟨more, rfl⟩
  · rfl
  · simp [word]

/-- Safe characters are read as they are. -/
theorem word_safe {s rest : List Char} (hs : s.all isSafe = true) (h : Ends rest) :
    word .bare (s ++ rest) = some (s, rest) := by
  induction s with
  | nil => exact word_ends h
  | cons c s ih =>
      rw [List.all_cons, Bool.and_eq_true] at hs
      have hspecial : c ≠ '\n' ∧ c ≠ '\'' ∧ c ≠ '"' := by
        refine ⟨?_, ?_, ?_⟩ <;> rintro rfl <;> exact absurd hs.1 (by decide)
      rw [List.cons_append, word, if_neg hspecial.1, if_neg hspecial.2.1, if_neg hspecial.2.2,
        if_pos hs.1, ih hs.2]
      rfl

/-- What is quoted is read back. -/
theorem word_single {s rest : List Char} (h : Ends rest) :
    word .single (s.flatMap quoteChar ++ ['\''] ++ rest) = some (s, rest) := by
  induction s with
  | nil => simpa [word] using word_ends h
  | cons c s ih =>
      rw [List.flatMap_cons, quoteChar]
      by_cases hc : c = '\''
      · subst hc
        simpa [word, List.append_assoc] using ih
      · simp only [if_neg hc, List.cons_append, List.nil_append]
        rw [word, if_neg hc]
        simpa using ih

/-- A quoted text is one word, which says that text. -/
theorem word_quote (s : List Char) {rest : List Char} (h : Ends rest) :
    word .bare (quote s ++ rest) = some (s, rest) := by
  unfold quote
  split
  · next hnil =>
      subst hnil
      simpa [word] using word_ends h
  · split
    · next hsafe => exact word_safe hsafe h
    · simpa [word] using word_single (s := s) h

/-! ## exports -/

/-- What stands between `export ` and the sign. -/
def isName (c : Char) : Bool := c.isAlphanum || c = '_'

/-- `export `. -/
def exportWord : List Char := ['e', 'x', 'p', 'o', 'r', 't', ' ']

/-- A line that assigns a text to a name. -/
def exportLine (name s : List Char) : List Char := exportWord ++ name ++ ['='] ++ quote s

/-- The assignment of the first line, and what comes after it; `none` outside
the fragment. -/
def readLine (s : List Char) : Option ((List Char × List Char) × List Char) :=
  if exportWord.isPrefixOf s then
    let s := s.drop exportWord.length
    match s.takeWhile isName, s.dropWhile isName with
    | _ :: _, '=' :: text => (word .bare text).map fun r => ((s.takeWhile isName, r.1), r.2)
    | _, _ => none
  else none

/-- The assignments of a text of at most so many lines, in order. -/
def run : Nat → List Char → Option (List (List Char × List Char))
  | _, [] => some []
  | 0, _ :: _ => none
  | n + 1, c :: cs =>
      (readLine (c :: cs)).bind fun r => (run n (r.2.drop 1)).map fun more => r.1 :: more

/-- The assignments a shell makes; `none` outside the fragment. -/
def assignments (text : List Char) : Option (List (List Char × List Char)) :=
  run text.length text

/-- The lines of some exports. -/
def exports (vars : List (List Char × List Char)) : List Char :=
  ['\n'].intercalate (vars.map fun v => exportLine v.1 v.2)

/-- A line that exports a variable is read back. -/
theorem readLine_exportLine {name rest : List Char} (s : List Char) (hne : name ≠ [])
    (hname : ∀ c ∈ name, isName c = true) (h : Ends rest) :
    readLine (exportLine name s ++ rest) = some ((name, s), rest) := by
  have hline : exportLine name s ++ rest = exportWord ++ (name ++ '=' :: (quote s ++ rest)) := by
    simp [exportLine]
  have hprefix : exportWord.isPrefixOf (exportWord ++ (name ++ '=' :: (quote s ++ rest))) = true := by
    simp
  have htake : (name ++ '=' :: (quote s ++ rest)).takeWhile isName = name := by
    rw [List.takeWhile_append_of_pos hname, List.takeWhile_cons_of_neg (by decide), List.append_nil]
  have hdrop : (name ++ '=' :: (quote s ++ rest)).dropWhile isName = '=' :: (quote s ++ rest) := by
    rw [List.dropWhile_append_of_pos hname, List.dropWhile_cons_of_neg (by decide)]
  obtain ⟨c, cs, rfl⟩ := List.exists_cons_of_ne_nil hne
  rw [readLine, hline, if_pos hprefix, List.drop_left]
  simp only [htake, hdrop, word_quote s h, Option.map_some]

/-- The lines assign each name its text, and nothing else. -/
theorem run_exports {vars : List (List Char × List Char)} {n : Nat}
    (hvars : ∀ v ∈ vars, v.1 ≠ [] ∧ ∀ c ∈ v.1, isName c = true) (h : vars.length ≤ n) :
    run n (exports vars) = some vars := by
  induction vars generalizing n with
  | nil => cases n <;> rfl
  | cons v vars ih =>
      obtain ⟨hne, hname⟩ := hvars v (by simp)
      have hrest := fun m (hm : vars.length ≤ m) => ih (n := m) (fun w hw => hvars w (by simp [hw])) hm
      cases n with
      | zero => simp at h
      | succ n =>
          have hn : vars.length ≤ n := Nat.le_of_succ_le_succ h
          have hstep (rest : List Char) (hends : Ends rest) :
              run (n + 1) (exportLine v.1 v.2 ++ rest) =
                (run n (rest.drop 1)).map fun more => v :: more := by
            have hread := readLine_exportLine v.2 hne hname hends
            have hcons : exportLine v.1 v.2 ++ rest =
                'e' :: (exportLine v.1 v.2 ++ rest).drop 1 := rfl
            rw [hcons] at hread ⊢
            rw [run, hread]
            rfl
          cases vars with
          | nil =>
              have hlast := hstep [] (.inl rfl)
              rw [List.append_nil] at hlast
              rw [exports, List.map_singleton, List.intercalate_singleton, hlast]
              cases n <;> rfl
          | cons w vars =>
              have hmore := hstep ('\n' :: exports (w :: vars)) (.inr ⟨_, rfl⟩)
              have hlines : exports (v :: w :: vars) =
                  exportLine v.1 v.2 ++ '\n' :: exports (w :: vars) := by
                simp [exports]
              rw [hlines, hmore, List.drop_one, List.tail_cons, hrest n hn]
              rfl

/-- The exported variables are assigned as they are. -/
theorem assignments_exports {vars : List (List Char × List Char)}
    (hvars : ∀ v ∈ vars, v.1 ≠ [] ∧ ∀ c ∈ v.1, isName c = true) :
    assignments (exports vars) = some vars := by
  refine run_exports hvars ?_
  clear hvars
  induction vars with
  | nil => exact Nat.zero_le _
  | cons v vars ih =>
      cases vars with
      | nil => simp [exports, exportLine, exportWord]
      | cons w vars =>
          have hlines : exports (v :: w :: vars) =
              exportLine v.1 v.2 ++ '\n' :: exports (w :: vars) := by
            simp [exports]
          rw [hlines]
          simp only [List.length_append, List.length_cons] at ih ⊢
          omega

end Shell
