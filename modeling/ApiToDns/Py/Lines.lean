import ApiToDns.Py.Str

/-!
# Py.Lines

`str.splitlines`, and the universal newlines of a file that is read as text.
-/

namespace Py

/-- Where `str.splitlines` ends a line; of a text that was read with universal
newlines. -/
def isLineBreak (c : Char) : Bool :=
  let n := c.toNat
  (10 ≤ n && n ≤ 13) || (28 ≤ n && n ≤ 30) || n == 0x85 || n == 0x2028 || n == 0x2029

/-- `text.splitlines()`. -/
def splitLines (text : Str) : List Str :=
  let lines := text.splitOnP isLineBreak
  if lines.getLast? = some [] then lines.dropLast else lines

/-- `read_text` with universal newlines. -/
def universalNewlines : Str → Str
  | [] => []
  | '\r' :: '\n' :: rest => '\n' :: universalNewlines rest
  | c :: rest => (if c = '\r' then '\n' else c) :: universalNewlines rest

/-- A text without carriage returns is read as it is. -/
theorem universalNewlines_eq_self {s : Str} (h : ∀ c ∈ s, c ≠ '\r') : universalNewlines s = s := by
  fun_induction universalNewlines s with
  | case1 => rfl
  | case2 rest ih => exact absurd rfl (h '\r' (by simp))
  | case3 c rest hne ih =>
      rw [if_neg (h c (by simp)), ih fun d hd => h d (by simp [hd])]

/-- No line has a line break. -/
theorem not_isLineBreak_of_mem_splitLines {text line : Str} (h : line ∈ splitLines text) :
    ∀ c ∈ line, isLineBreak c = false := by
  unfold splitLines at h
  dsimp only at h
  have hmem : line ∈ text.splitOnP isLineBreak := by
    split at h
    · exact List.mem_of_mem_dropLast h
    · exact h
  exact eq_false_of_mem_splitOnP hmem

end Py
