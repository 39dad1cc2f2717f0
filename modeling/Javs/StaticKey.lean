import Mathlib.Data.List.GetD
import Javs.Lib.Lines
import Javs.ControlChannel
import Javs.Envelope

/-!
Static-key files.

The parser walks over the lines of the file, keeps whether it is inside a block, and collects
what stands there. On the one hand every way of writing a key down is read as that key; on
the other hand, where a key is read, the lines of the blocks spell it. A block that is not
ended reaches to the end of the text: no END marker is asked for.
-/

namespace Javs

open Bytes Lib

/-! ### The parser -/

def beginMarker : Text := "-----BEGIN".toList
def endMarker : Text := "-----END".toList

lemma beginMarker_eq : beginMarker = ['-', '-', '-', '-', '-', 'B', 'E', 'G', 'I', 'N'] := rfl
lemma endMarker_eq : endMarker = ['-', '-', '-', '-', '-', 'E', 'N', 'D'] := rfl

structure KeyScan where
  hexBuf : Text := []
  inside : Bool := false

def KeyScan.next (s : KeyScan) (raw : Text) : KeyScan :=
  let line := trim raw
  if beginMarker <+: line then { s with inside := true }
  else if endMarker <+: line then { s with inside := false }
  else if s.inside ∧ line ≠ [] ∧ ¬ ['#'] <+: line then { s with hexBuf := s.hexBuf ++ line }
  else s

/-- `hexDecode` is `hex::decode`, on a string. -/
def parseStaticKeyText (hexDecode : Text → Option Bytes) (text : Text) : Res Bytes :=
  let hexBuf := ((lines text).foldl KeyScan.next {}).hexBuf
  let len := (utf8 hexBuf).length
  if len ≠ staticKeyLen * 2 then
    .error (.bail s!"OpenVPN static key: expected {staticKeyLen * 2} hex chars, got {len}")
  else
    match hexDecode hexBuf with
    | none => .error (.bail "decoding key hex")
    | some bytes =>
      if bytes.length = staticKeyLen then .ok bytes
      else .error (.panic "copy_from_slice: source slice length does not match")

/-! ### Hexadecimal digits -/

def hexDigit (c : Char) : Option ℕ :=
  let n := c.toNat
  if 48 ≤ n ∧ n ≤ 57 then some (n - 48)
  else if 97 ≤ n ∧ n ≤ 102 then some (n - 87)
  else if 65 ≤ n ∧ n ≤ 70 then some (n - 55)
  else none

/-- The digits, of either case, spell the bytes. -/
inductive HexOf : Text → Bytes → Prop
  | nil : HexOf [] []
  | byte {h l : Char} {x y : ℕ} {t : Text} {b : Bytes} (hh : hexDigit h = some x)
      (hl : hexDigit l = some y) (ht : HexOf t b) :
      HexOf (h :: l :: t) (UInt8.ofNat (16 * x + y) :: b)

/-- What is documented of `hex::decode`: it takes the digits of either case, two for a byte, and
nothing else. -/
def DecodesHex (hexDecode : Text → Option Bytes) : Prop := ∀ t b, hexDecode t = some b ↔ HexOf t b

section Digits

variable {t : Text} {b : Bytes}

lemma HexOf.length (h : HexOf t b) : t.length = 2 * b.length := by
  induction h with
  | nil => rfl
  | byte _ _ _ ih =>
    simp only [List.length_cons, ih]
    omega

lemma HexOf.digits (h : HexOf t b) : ∀ c ∈ t, (hexDigit c).isSome := by
  induction h with
  | nil => simp
  | byte hh hl _ ih =>
    intro c hc
    rcases List.mem_cons.mp hc with rfl | hc
    · simp [hh]
    · rcases List.mem_cons.mp hc with rfl | hc
      · simp [hl]
      · exact ih c hc

lemma hexDigit_bounds {c : Char} (h : (hexDigit c).isSome) : 48 ≤ c.toNat ∧ c.toNat ≤ 102 := by
  unfold hexDigit at h
  dsimp only at h
  split_ifs at h
  · omega
  · omega
  · omega
  · cases h

lemma not_isWhitespace_of_hexDigit {c : Char} (h : (hexDigit c).isSome) :
    isWhitespace c = false := by
  have hb := hexDigit_bounds h
  simp only [isWhitespace, decide_eq_false_iff_not]
  omega

lemma utf8Char_of_hexDigit {c : Char} (h : (hexDigit c).isSome) :
    utf8Char c = [UInt8.ofNat c.toNat] := by
  have hb := hexDigit_bounds h
  rw [utf8Char, if_pos (by omega)]

lemma length_utf8_of_digits (h : ∀ c ∈ t, (hexDigit c).isSome) : (utf8 t).length = t.length := by
  induction t with
  | nil => rfl
  | cons c t ih =>
    have hc := utf8Char_of_hexDigit (h c List.mem_cons_self)
    have ht := ih fun d hd => h d (List.mem_cons_of_mem c hd)
    rw [utf8, List.flatMap_cons, hc, List.length_append, ← utf8, ht, List.length_singleton,
      List.length_cons, Nat.add_comm]

end Digits

lemma parseStaticKeyText_eq_ok {hexDecode : Text → Option Bytes} (hhex : DecodesHex hexDecode)
    {text : Text} {key : Bytes} : parseStaticKeyText hexDecode text = .ok key ↔
      HexOf ((lines text).foldl KeyScan.next {}).hexBuf key ∧ key.length = staticKeyLen := by
  unfold parseStaticKeyText
  dsimp only
  generalize ((lines text).foldl KeyScan.next {}).hexBuf = buf
  rw [Res.guard_eq_ok]
  constructor
  · rintro ⟨-, h⟩
    split at h
    · cases h
    · rename_i bytes hb
      split at h
      · rename_i hlen
        cases h
        exact ⟨(hhex _ _).mp hb, hlen⟩
      · cases h
  · rintro ⟨h, hlen⟩
    refine ⟨?_, ?_⟩
    · rw [length_utf8_of_digits h.digits, h.length, hlen]
      decide
    · rw [(hhex _ _).mpr h]
      dsimp only
      rw [if_pos hlen]

/-! ### What stands in the blocks -/

def isBegin (l : Text) : Bool := beginMarker <+: trim l
def isEnd (l : Text) : Bool := endMarker <+: trim l
def isMarker (l : Text) : Bool := isBegin l || isEnd l

def isKeyLine (l : Text) : Bool := !isMarker l && !(trim l).isEmpty && !(['#'] <+: trim l : Bool)

/-- The last marker line of the lines is a BEGIN. -/
def opened (ls : List Text) : Bool := (ls.reverse.find? isMarker).any isBegin

/-- The last marker line above line `i` is a BEGIN. -/
def inBlock (ls : List Text) (i : ℕ) : Bool := opened (ls.take i)

/-- Line `i` is in a block, and the block is ended. -/
def inEndedBlock (ls : List Text) (i : ℕ) : Bool := inBlock ls i && (ls.drop i).any isEnd

/-- The lines that are neither blank nor comments where `inside` holds, trimmed and joined. -/
def keyText (inside : List Text → ℕ → Bool) (ls : List Text) : Text :=
  (List.range ls.length).flatMap fun i =>
    if inside ls i && isKeyLine (ls.getD i []) then trim (ls.getD i []) else []

lemma opened_snoc (ls : List Text) (l : Text) :
    opened (ls ++ [l]) = if isMarker l then isBegin l else opened ls := by
  rw [opened, List.reverse_append, List.reverse_singleton, List.singleton_append, List.find?_cons]
  split <;> simp_all [opened]

lemma keyText_snoc (ls : List Text) (l : Text) :
    keyText inBlock (ls ++ [l]) =
      keyText inBlock ls ++ if opened ls && isKeyLine l then trim l else [] := by
  unfold keyText
  rw [List.length_append, List.length_singleton, List.range_succ, List.flatMap_append,
    List.flatMap_singleton]
  congr 1
  · refine List.flatMap_congr fun i hi => ?_
    have hlt := List.mem_range.mp hi
    rw [List.getD_append _ _ _ _ hlt, inBlock, inBlock,
      List.take_append_of_le_length (Nat.le_of_lt hlt)]
  · rw [inBlock, List.take_left, List.getD_append_right _ _ _ _ (Nat.le_refl _), Nat.sub_self]
    rfl

/-- **The loop.** After some lines it has collected what stands in the blocks, and is inside if
the last marker was a BEGIN. -/
lemma scan_eq (ls : List Text) :
    ls.foldl KeyScan.next {} = ⟨keyText inBlock ls, opened ls⟩ := by
  induction ls using List.reverseRecOn with
  | nil => rfl
  | append_singleton ls l ih =>
    rw [List.foldl_append, List.foldl_cons, List.foldl_nil, ih, keyText_snoc, opened_snoc,
      KeyScan.next]
    dsimp only
    by_cases hb : beginMarker <+: trim l
    · simp [hb, isMarker, isBegin, isKeyLine]
    · by_cases he : endMarker <+: trim l
      · simp [hb, he, isMarker, isBegin, isEnd, isKeyLine]
      · simp only [hb, he, isMarker, isBegin, isEnd, isKeyLine, decide_false, Bool.or_false,
          if_false, Bool.not_false, Bool.true_and, Bool.false_eq_true]
        split_ifs with h1 h2 h2 <;> simp_all

/-! ### Ways of writing a key down -/

inductive Eol
  | lf
  | crlf

def Eol.text : Eol → Text
  | .lf => ['\n']
  | .crlf => ['\r', '\n']

def Padding (t : Text) : Prop := ∀ c ∈ t, isWhitespace c = true ∧ c ≠ '\n'

instance (t : Text) : Decidable (Padding t) :=
  decidable_of_iff (t.all (fun c => isWhitespace c && c != '\n') = true) (by simp [Padding])

inductive Content
  /-- Some of the digits; none on a blank line. -/
  | digits (piece : Text)
  | comment (rest : Text)

def Content.text : Content → Text
  | .digits piece => piece
  | .comment rest => '#' :: rest

def Content.piece : Content → Text
  | .digits piece => piece
  | .comment _ => []

structure BodyLine where
  lead : Text
  content : Content
  trail : Text
  eol : Eol

def BodyLine.text (l : BodyLine) : Text := l.lead ++ l.content.text ++ l.trail ++ l.eol.text

/-- A key file: a block, and text around it. -/
structure Rendering where
  before : Text
  beginLead : Text
  beginRest : Text
  beginEol : Eol
  body : List BodyLine
  endLead : Text
  endRest : Text
  after : Text

def Rendering.text (r : Rendering) : Text :=
  r.before ++ (r.beginLead ++ beginMarker ++ r.beginRest ++ r.beginEol.text) ++
    r.body.flatMap BodyLine.text ++ (r.endLead ++ endMarker ++ r.endRest) ++ r.after

def Unmarked (t : Text) : Prop := ∀ l ∈ lines t, isMarker l = false

/-- The rendering is one of the key: the markers are on lines of their own, there are none in
the text around the block, and the digits of the lines in it spell the key. -/
structure Rendering.Of (r : Rendering) (key : Bytes) : Prop where
  before : EndsLine r.before ∧ Unmarked r.before
  beginLine : Padding r.beginLead ∧ '\n' ∉ r.beginRest
  body : ∀ l ∈ r.body, Padding l.lead ∧ '\n' ∉ l.content.text ∧ Padding l.trail
  endLine : Padding r.endLead ∧ '\n' ∉ r.endRest
  after : r.after = [] ∨ ∃ eol rest, r.after = Eol.text eol ++ rest ∧ Unmarked rest
  digits : HexOf (r.body.flatMap fun l => l.content.piece) key
  length : key.length = staticKeyLen

section Scan

variable {s : KeyScan} {l t : Text}

lemma next_stripEol (s : KeyScan) (l : Text) : s.next (stripEol l) = s.next l := by
  rw [KeyScan.next, trim_stripEol, KeyScan.next]

lemma scan_lines (s : KeyScan) (t : Text) :
    (lines t).foldl KeyScan.next s = (splitInclusive t).foldl KeyScan.next s := by
  rw [lines, List.foldl_map]
  simp only [next_stripEol]

lemma scan_unmarked (hs : s.inside = false) (h : Unmarked t) :
    (splitInclusive t).foldl KeyScan.next s = s := by
  rw [← scan_lines]
  unfold Unmarked at h
  generalize lines t = ls at h ⊢
  induction ls with
  | nil => rfl
  | cons l ls ih =>
    have hl := h l List.mem_cons_self
    simp only [isMarker, isBegin, isEnd, Bool.or_eq_false_iff, decide_eq_false_iff_not] at hl
    have hnext : s.next l = s := by
      rw [KeyScan.next]
      simp only [hl.1, hl.2, hs, if_false, Bool.false_eq_true, false_and]
    rw [List.foldl_cons, hnext]
    exact ih fun m hm => h m (List.mem_cons_of_mem l hm)

lemma Padding.whitespace (h : Padding t) : ∀ c ∈ t, isWhitespace c = true := fun c hc => (h c hc).1

lemma Padding.not_mem (h : Padding t) : '\n' ∉ t := fun hm => (h _ hm).2 rfl

lemma Eol.whitespace (e : Eol) : ∀ c ∈ e.text, isWhitespace c = true := by
  have hall : e.text.all isWhitespace = true := by cases e <;> decide
  exact List.all_eq_true.mp hall

lemma splitInclusive_eol (h : '\n' ∉ l) (e : Eol) (t : Text) :
    splitInclusive (l ++ e.text ++ t) = (l ++ e.text) :: splitInclusive t := by
  cases e with
  | lf =>
    rw [Eol.text, List.append_assoc, List.singleton_append, splitInclusive_line h]
  | crlf =>
    have hcr : '\n' ∉ l ++ ['\r'] := by
      simpa using h
    have hsplit := splitInclusive_line hcr t
    rw [List.append_assoc, List.append_assoc] at hsplit
    rw [Eol.text, List.append_assoc]
    exact hsplit

lemma trim_marker {lead : Text} (hlead : Padding lead) {marker : Text} {a z : Char}
    (ha : marker.head? = some a) (hz : marker.getLast? = some z) (hsa : isWhitespace a = false)
    (hsz : isWhitespace z = false) (rest : Text) : marker <+: trim (lead ++ marker ++ rest) := by
  rw [List.append_assoc, trim_of_solid hlead.whitespace ha hz hsa hsz]
  exact List.prefix_append _ _

lemma next_begin {lead : Text} (hlead : Padding lead) (rest : Text) (s : KeyScan) :
    s.next (lead ++ beginMarker ++ rest) = { s with inside := true } := by
  have hpre : beginMarker <+: trim (lead ++ beginMarker ++ rest) :=
    trim_marker hlead (a := '-') (z := 'N') rfl rfl (by decide) (by decide) rest
  rw [KeyScan.next]
  exact if_pos hpre

lemma next_end {lead : Text} (hlead : Padding lead) (rest : Text) (s : KeyScan) :
    s.next (lead ++ endMarker ++ rest) = { s with inside := false } := by
  have htrim : trim (lead ++ endMarker ++ rest) = endMarker ++ rest.rdropWhile isWhitespace := by
    rw [List.append_assoc]
    exact trim_of_solid hlead.whitespace (a := '-') (z := 'D') rfl rfl (by decide) (by decide) rest
  rw [KeyScan.next, htrim, if_neg (by simp [beginMarker_eq, endMarker_eq]),
    if_pos (List.prefix_append _ _)]

lemma next_of_head (hin : s.inside = true) {c : Char} {r : Text} (ht : trim l = c :: r)
    (hc : c ≠ '-') :
    s.next l = if c = '#' then s else { s with hexBuf := s.hexBuf ++ trim l } := by
  have hb : ¬ beginMarker <+: trim l := by simp [ht, beginMarker_eq, hc.symm]
  have he : ¬ endMarker <+: trim l := by simp [ht, endMarker_eq, hc.symm]
  rw [KeyScan.next, if_neg hb, if_neg he]
  by_cases hcom : c = '#'
  · rw [if_pos hcom, if_neg (by simp [ht, hcom])]
  · rw [if_neg hcom, if_pos ⟨hin, by simp [ht], by simp [ht, Ne.symm hcom]⟩]

/-- **A line of the block** adds its digits. -/
lemma next_bodyLine (hin : s.inside = true) {b : BodyLine} (hlead : Padding b.lead)
    (htrail : Padding b.trail) (hdig : ∀ c ∈ b.content.piece, (hexDigit c).isSome) :
    s.next b.text = { s with hexBuf := s.hexBuf ++ b.content.piece } := by
  have hend : ∀ c ∈ b.trail ++ b.eol.text, isWhitespace c = true := by
    intro c hc
    rcases List.mem_append.mp hc with hc | hc
    · exact htrail.whitespace c hc
    · exact b.eol.whitespace c hc
  have htrim : trim b.text = trim (b.lead ++ b.content.text) := by
    rw [BodyLine.text, List.append_assoc, trim_append hend]
  rcases hcon : b.content with piece | rest <;> rw [hcon] at htrim hdig <;>
    simp only [Content.text, Content.piece] at htrim hdig ⊢
  · rcases piece with _ | ⟨c, piece⟩
    · have hblank : trim b.text = [] := by
        rw [htrim, List.append_nil]
        exact trim_append hlead.whitespace []
      rw [KeyScan.next, hblank]
      simp [beginMarker_eq, endMarker_eq]
    · obtain ⟨z, hz⟩ : ∃ z, (c :: piece).getLast? = some z :=
        ⟨_, List.getLast?_eq_some_getLast (by simp)⟩
      have hc := hdig c List.mem_cons_self
      -- a digit is no white space, so trimming stops at the piece itself
      have hsolid : trim b.text = c :: piece := by
        rw [htrim, ← List.append_nil (c :: piece),
          trim_of_solid hlead.whitespace rfl hz (not_isWhitespace_of_hexDigit hc)
            (not_isWhitespace_of_hexDigit (hdig z (List.mem_of_getLast? hz))), List.rdropWhile_nil]
      have hne {d : Char} (hd : (hexDigit d).isSome = false) : c ≠ d := by
        rintro rfl
        rw [hc] at hd
        cases hd
      rw [next_of_head hin hsolid (hne (by decide)), if_neg (hne (by decide)), hsolid]
  · have hcom : trim b.text = '#' :: rest.rdropWhile isWhitespace := by
      rw [htrim]
      exact trim_of_solid (p := ['#']) hlead.whitespace rfl rfl (by decide) (by decide) rest
    rw [next_of_head hin hcom (by decide), if_pos rfl, List.append_nil]

lemma scan_body {body : List BodyLine}
    (hbody : ∀ l ∈ body, Padding l.lead ∧ '\n' ∉ l.content.text ∧ Padding l.trail)
    (hdig : ∀ c ∈ body.flatMap fun l => l.content.piece, (hexDigit c).isSome) (t : Text)
    (hin : s.inside = true) :
    (splitInclusive (body.flatMap BodyLine.text ++ t)).foldl KeyScan.next s =
      (splitInclusive t).foldl KeyScan.next
        { s with hexBuf := s.hexBuf ++ body.flatMap fun l => l.content.piece } := by
  induction body generalizing s with
  | nil => simp
  | cons b body ih =>
    obtain ⟨hlead, hcon, htrail⟩ := hbody b List.mem_cons_self
    have hline : '\n' ∉ b.lead ++ b.content.text ++ b.trail := by
      simp only [List.mem_append, not_or]
      exact ⟨⟨hlead.not_mem, hcon⟩, htrail.not_mem⟩
    have hsplit := splitInclusive_eol hline b.eol (body.flatMap BodyLine.text ++ t)
    rw [List.flatMap_cons] at hdig
    rw [List.flatMap_cons, List.append_assoc, BodyLine.text, hsplit, List.foldl_cons,
      ← BodyLine.text,
      next_bodyLine hin hlead htrail fun c hc => hdig c (List.mem_append_left _ hc),
      ih (fun l hl => hbody l (List.mem_cons_of_mem b hl))
        (fun c hc => hdig c (List.mem_append_right _ hc)) (by exact hin), List.flatMap_cons,
      List.append_assoc]

end Scan

lemma Rendering.Of.scan {r : Rendering} {key : Bytes} (h : r.Of key) :
    ((lines r.text).foldl KeyScan.next {}).hexBuf = r.body.flatMap fun l => l.content.piece := by
  obtain ⟨hbl, hbr⟩ := h.beginLine
  obtain ⟨hel, her⟩ := h.endLine
  have hbegin : '\n' ∉ r.beginLead ++ beginMarker ++ r.beginRest := by
    simp only [List.mem_append, not_or]
    exact ⟨⟨hbl.not_mem, by decide⟩, hbr⟩
  have hend : '\n' ∉ r.endLead ++ endMarker ++ r.endRest := by
    simp only [List.mem_append, not_or]
    exact ⟨⟨hel.not_mem, by decide⟩, her⟩
  have htext : r.text = r.before ++ (r.beginLead ++ beginMarker ++ r.beginRest ++ r.beginEol.text ++
      (r.body.flatMap BodyLine.text ++ (r.endLead ++ endMarker ++ r.endRest ++ r.after))) := by
    simp only [Rendering.text, List.append_assoc]
  rw [scan_lines, htext, splitInclusive_append h.before.1, List.foldl_append,
    scan_unmarked rfl h.before.2, splitInclusive_eol hbegin, List.foldl_cons, List.append_assoc,
    next_begin hbl, scan_body h.body h.digits.digits _ rfl]
  rcases h.after with hnone | ⟨eol, rest, hrest, hun⟩
  · rw [hnone, List.append_nil, splitInclusive_last hend (by simp [endMarker_eq]), List.foldl_cons,
      next_end hel]
    rfl
  · rw [hrest, ← List.append_assoc, splitInclusive_eol hend, List.foldl_cons, List.append_assoc,
      next_end hel, scan_unmarked rfl hun]
    rfl

/-- **Static keys.** Every rendering of a key is parsed to that key. Conversely, where a key is
parsed, the lines of the blocks that are neither blank nor comments are 512 digits that spell
it, a block reaching from its BEGIN marker to the next END marker or to the end of the text. -/
theorem parseStaticKeyText_exact (hexDecode : Text → Option Bytes) (hhex : DecodesHex hexDecode) :
    (∀ (r : Rendering) (key : Bytes), r.Of key → parseStaticKeyText hexDecode r.text = .ok key) ∧
    ∀ text key, parseStaticKeyText hexDecode text = .ok key →
      (keyText inBlock (lines text)).length = 512 ∧ HexOf (keyText inBlock (lines text)) key := by
  constructor
  · intro r key h
    rw [parseStaticKeyText_eq_ok hhex, h.scan]
    exact ⟨h.digits, h.length⟩
  · intro text key h
    obtain ⟨hkey, hlen⟩ := (parseStaticKeyText_eq_ok hhex).mp h
    rw [scan_eq] at hkey
    refine ⟨?_, hkey⟩
    rw [hkey.length, hlen]
    rfl

/-! ### Two files -/

def plainHexDecode : Text → Option Bytes
  | [] => some []
  | [_] => none
  | h :: l :: t => do
    let x ← hexDigit h
    let y ← hexDigit l
    let b ← plainHexDecode t
    return UInt8.ofNat (16 * x + y) :: b

lemma decodesHex_plain : DecodesHex plainHexDecode := by
  intro t b
  constructor
  · intro h
    induction t using plainHexDecode.induct generalizing b with
    | case1 =>
      cases h
      exact .nil
    | case2 => cases h
    | case3 hi lo t ih =>
      simp only [plainHexDecode, Option.bind_eq_bind, Option.bind_eq_some_iff] at h
      obtain ⟨x, hx, y, hy, rest, hrest, hb⟩ := h
      cases hb
      exact .byte hx hy (ih rest hrest)
  · intro h
    induction h with
    | nil => rfl
    | byte hh hl _ ih =>
      simp only [plainHexDecode, hh, hl, ih]
      rfl

/-- A key file with digits of either case, cut in the middle of a byte, with space around them,
a comment and a blank line, and text before and after. -/
def mixedFile : Rendering where
  before := "ta.key\r\n".toList
  beginLead := [' ']
  beginRest := " OpenVPN Static key V1-----".toList
  beginEol := .crlf
  body := [⟨[], .comment " 2048 bit".toList, [], .lf⟩,
    ⟨['\t'], .digits ('a' :: (List.replicate 200 ['B', 'A']).flatten), [' '], .crlf⟩,
    ⟨[' '], .digits [], [], .lf⟩,
    ⟨[], .digits ((List.replicate 55 ['b', 'A']).flatten ++ ['b']), [], .lf⟩]
  endLead := []
  endRest := " OpenVPN Static key V1-----".toList
  after := "\nkeep it secret".toList

lemma mixedFile_of : mixedFile.Of (List.replicate 256 0xAB) where
  before := ⟨.inr (by decide), by unfold Unmarked; decide +kernel⟩
  beginLine := by decide
  body := by decide +kernel
  endLine := by decide
  after := .inr ⟨.lf, "keep it secret".toList, by decide, by unfold Unmarked; decide +kernel⟩
  digits := (decodesHex_plain _ _).mp (by decide +kernel)
  length := List.length_replicate

theorem parseStaticKeyText_exact_mixed :
    parseStaticKeyText plainHexDecode mixedFile.text = .ok (List.replicate 256 0xAB) ∧
      (keyText inBlock (lines mixedFile.text)).length = 512 ∧
      HexOf (keyText inBlock (lines mixedFile.text)) (List.replicate 256 0xAB) := by
  obtain ⟨hread, hsound⟩ := parseStaticKeyText_exact plainHexDecode decodesHex_plain
  have hkey := hread mixedFile _ mixedFile_of
  exact ⟨hkey, hsound _ _ hkey⟩

def unendedFile : Text := beginMarker ++ '\n' :: List.replicate 512 '0'

/-- The file is accepted, although no line of it is between a BEGIN and an END marker. -/
theorem unended_block_accepted :
    ∃ key, parseStaticKeyText plainHexDecode unendedFile = .ok key ∧
      ¬ ((keyText inEndedBlock (lines unendedFile)).length = 512 ∧
        HexOf (keyText inEndedBlock (lines unendedFile)) key) := by
  have hempty : keyText inEndedBlock (lines unendedFile) = [] := by decide +kernel
  refine ⟨List.replicate 256 0, ?_, ?_⟩
  · rw [parseStaticKeyText_eq_ok decodesHex_plain, scan_eq]
    have hdigits : keyText inBlock (lines unendedFile) = List.replicate 512 '0' := by
      decide +kernel
    refine ⟨?_, List.length_replicate⟩
    dsimp only
    rw [hdigits]
    exact (decodesHex_plain _ _).mp (by decide +kernel)
  · rw [hempty]
    rintro ⟨hlen, -⟩
    cases hlen

end Javs
