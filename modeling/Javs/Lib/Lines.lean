import Mathlib.Data.List.DropRight
import Mathlib.Tactic.Lemma

/-!
Lines of a text, and the space around them.

A text is cut behind its newlines; a newline, or a carriage return and a newline, at the end
of a piece are no part of the line. Trimming takes the white space off both ends of a line, so
that of a line that is trimmed anyway it does not matter how it ended.
-/

namespace Javs.Lib

/-- The pieces of a text, each with the newline that ends it; the last one may have none. -/
def splitInclusive : List Char → List (List Char)
  | [] => []
  | c :: t =>
    if c = '\n' then [c] :: splitInclusive t
    else
      match splitInclusive t with
      | [] => [[c]]
      | l :: ls => (c :: l) :: ls

def stripEol (l : List Char) : List Char :=
  if l.getLast? = some '\n' then
    if l.dropLast.getLast? = some '\r' then l.dropLast.dropLast else l.dropLast
  else l

def lines (t : List Char) : List (List Char) := (splitInclusive t).map stripEol

/-- `char::is_whitespace`: the characters with the property `White_Space`. -/
def isWhitespace (c : Char) : Bool :=
  let n := c.toNat
  (0x09 ≤ n ∧ n ≤ 0x0D) ∨ n = 0x20 ∨ n = 0x85 ∨ n = 0xA0 ∨ n = 0x1680 ∨
    (0x2000 ≤ n ∧ n ≤ 0x200A) ∨ n = 0x2028 ∨ n = 0x2029 ∨ n = 0x202F ∨ n = 0x205F ∨ n = 0x3000

def trim (t : List Char) : List Char := (t.rdropWhile isWhitespace).dropWhile isWhitespace

/-! ### Cutting -/

def EndsLine (t : List Char) : Prop := t = [] ∨ t.getLast? = some '\n'

lemma EndsLine.tail {c : Char} {t : List Char} (h : EndsLine (c :: t)) : EndsLine t := by
  rcases t with _ | ⟨d, t⟩
  · exact .inl rfl
  · rcases h with h | h
    · cases h
    · exact .inr (by simpa using h)

lemma splitInclusive_line {l : List Char} (h : '\n' ∉ l) (t : List Char) :
    splitInclusive (l ++ '\n' :: t) = (l ++ ['\n']) :: splitInclusive t := by
  induction l with
  | nil => simp [splitInclusive]
  | cons c l ih =>
    have hc : c ≠ '\n' := fun hc => h (hc ▸ List.mem_cons_self)
    have hl : '\n' ∉ l := fun hl => h (List.mem_cons_of_mem c hl)
    rw [List.cons_append, splitInclusive, if_neg hc, ih hl]
    rfl

lemma splitInclusive_last {l : List Char} (h : '\n' ∉ l) (hne : l ≠ []) :
    splitInclusive l = [l] := by
  induction l with
  | nil => exact absurd rfl hne
  | cons c l ih =>
    have hc : c ≠ '\n' := fun hc => h (hc ▸ List.mem_cons_self)
    have hl : '\n' ∉ l := fun hl => h (List.mem_cons_of_mem c hl)
    rw [splitInclusive, if_neg hc]
    rcases l with _ | ⟨d, l⟩
    · rfl
    · rw [ih hl (by simp)]

lemma splitInclusive_append {t : List Char} (h : EndsLine t) (u : List Char) :
    splitInclusive (t ++ u) = splitInclusive t ++ splitInclusive u := by
  induction t with
  | nil => rfl
  | cons c t ih =>
    rw [List.cons_append, splitInclusive, splitInclusive, ih h.tail]
    by_cases hc : c = '\n'
    · rw [if_pos hc, if_pos hc]
      rfl
    · rw [if_neg hc, if_neg hc]
      -- the rest is not empty: it holds the newline the text ends with
      rcases hs : splitInclusive t with _ | ⟨l, ls⟩
      · rcases t with _ | ⟨d, t⟩
        · rcases h with h | h
          · cases h
          · exact absurd (Option.some.inj h) hc
        · rw [splitInclusive] at hs
          split at hs
          · cases hs
          · split at hs <;> cases hs
      · rfl

/-! ### Trimming -/

lemma trim_append {u : List Char} (h : ∀ c ∈ u, isWhitespace c = true) (t : List Char) :
    trim (t ++ u) = trim t := by
  have hdrop : (t ++ u).rdropWhile isWhitespace = t.rdropWhile isWhitespace := by
    rw [List.rdropWhile, List.reverse_append, List.dropWhile_append_of_pos]
    · rfl
    · intro c hc
      exact h c (List.mem_reverse.mp hc)
  rw [trim, hdrop, trim]

lemma trim_of_solid {lead p : List Char} (hlead : ∀ c ∈ lead, isWhitespace c = true)
    {a z : Char} (ha : p.head? = some a) (hz : p.getLast? = some z) (hsa : isWhitespace a = false)
    (hsz : isWhitespace z = false) (rest : List Char) :
    trim (lead ++ (p ++ rest)) = p ++ rest.rdropWhile isWhitespace := by
  have hright : (lead ++ (p ++ rest)).rdropWhile isWhitespace =
      lead ++ (p ++ rest.rdropWhile isWhitespace) := by
    obtain ⟨q, rfl⟩ : ∃ q, p = q ++ [z] := by
      refine ⟨p.dropLast, ?_⟩
      rw [List.dropLast_append_getLast? z hz]
    -- from the end of the text inwards; the last character of `p` stops it
    induction rest using List.reverseRecOn with
    | nil =>
      rw [List.append_nil, List.rdropWhile_nil, List.append_nil, ← List.append_assoc,
        List.rdropWhile_concat_neg _ _ _ (by simp [hsz])]
    | append_singleton rest c ih =>
      by_cases hc : isWhitespace c = true
      · rw [← List.append_assoc, ← List.append_assoc, List.rdropWhile_concat_pos _ _ _ hc,
          List.append_assoc, ih, List.rdropWhile_concat_pos _ _ _ hc]
      · rw [← List.append_assoc, ← List.append_assoc, List.rdropWhile_concat_neg _ _ _ hc,
          List.rdropWhile_concat_neg _ _ _ hc]
        simp only [List.append_assoc]
  obtain ⟨q, rfl⟩ : ∃ q, p = a :: q := by
    rcases p with _ | ⟨b, q⟩
    · cases ha
    · exact ⟨q, by rw [Option.some.inj ha]⟩
  rw [trim, hright, List.dropWhile_append_of_pos hlead, List.cons_append,
    List.dropWhile_cons_of_neg (by simp [hsa])]

lemma trim_stripEol (l : List Char) : trim (stripEol l) = trim l := by
  have hsplit {c : Char} {m : List Char} (h : m.getLast? = some c) : m = m.dropLast ++ [c] :=
    (List.dropLast_append_getLast? c h).symm
  have hone {c : Char} (hc : isWhitespace c = true) (m : List Char) :
      trim (m ++ [c]) = trim m := trim_append (by simpa using hc) m
  unfold stripEol
  split
  · rename_i hnl
    split
    · rename_i hcr
      rw [hsplit hnl, hone (by decide), hsplit hcr, hone (by decide), List.dropLast_concat,
        List.dropLast_concat]
    · rw [hsplit hnl, hone (by decide), List.dropLast_concat]
  · rfl

end Javs.Lib
