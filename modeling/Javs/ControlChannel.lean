import Javs.Bytes

/-!
The plaintext messages inside the TLS stream: key-method 2 in both directions, and the
NUL-terminated text messages that follow it.
-/

namespace Javs

open Bytes

/-! ### Text -/

def utf8Char (c : Char) : Bytes :=
  let n := c.toNat
  if n < 0x80 then [UInt8.ofNat n]
  else if n < 0x800 then [UInt8.ofNat (0xC0 + n / 64), UInt8.ofNat (0x80 + n % 64)]
  else if n < 0x10000 then
    [UInt8.ofNat (0xE0 + n / 4096), UInt8.ofNat (0x80 + n / 64 % 64), UInt8.ofNat (0x80 + n % 64)]
  else
    [UInt8.ofNat (0xF0 + n / 262144), UInt8.ofNat (0x80 + n / 4096 % 64),
      UInt8.ofNat (0x80 + n / 64 % 64), UInt8.ofNat (0x80 + n % 64)]

def utf8 (t : Text) : Bytes := t.flatMap utf8Char

def isCont (b : ℕ) : Bool := 0x80 ≤ b ∧ b ≤ 0xBF

/-- One step of `String::from_utf8_lossy` at first byte `b0`: the scalar value, or U+FFFD for
the longest prefix of a sequence that cannot be completed, and how many bytes of `rest`
belong to it. -/
def decodeLossy (b0 : ℕ) (rest : Bytes) : Char × ℕ :=
  let b1 := (rest.getD 0 0).toNat
  let b2 := (rest.getD 1 0).toNat
  let b3 := (rest.getD 2 0).toNat
  let bad := Char.ofNat 0xFFFD
  if b0 < 0x80 then (Char.ofNat b0, 0)
  else if 0xC2 ≤ b0 ∧ b0 ≤ 0xDF then
    if isCont b1 then (Char.ofNat ((b0 - 0xC0) * 64 + (b1 - 0x80)), 1) else (bad, 0)
  else if 0xE0 ≤ b0 ∧ b0 ≤ 0xEF then
    let lo := if b0 = 0xE0 then 0xA0 else 0x80
    let hi := if b0 = 0xED then 0x9F else 0xBF
    if lo ≤ b1 ∧ b1 ≤ hi then
      if isCont b2 then
        (Char.ofNat ((b0 - 0xE0) * 4096 + (b1 - 0x80) * 64 + (b2 - 0x80)), 2)
      else (bad, 1)
    else (bad, 0)
  else if 0xF0 ≤ b0 ∧ b0 ≤ 0xF4 then
    let lo := if b0 = 0xF0 then 0x90 else 0x80
    let hi := if b0 = 0xF4 then 0x8F else 0xBF
    if lo ≤ b1 ∧ b1 ≤ hi then
      if isCont b2 then
        if isCont b3 then
          (Char.ofNat ((b0 - 0xF0) * 262144 + (b1 - 0x80) * 4096 + (b2 - 0x80) * 64 +
            (b3 - 0x80)), 3)
        else (bad, 2)
      else (bad, 1)
    else (bad, 0)
  else (bad, 0)

def lossyLoop : ℕ → Bytes → Text
  | 0, _ => []
  | _, [] => []
  | fuel + 1, b0 :: rest =>
    let (c, n) := decodeLossy b0.toNat rest
    c :: lossyLoop fuel (rest.drop n)

def fromUtf8Lossy (b : Bytes) : Text := lossyLoop b.length b

def dec (n : ℕ) : Text := Nat.toDigits 10 n

def hexDebug (b : Bytes) : String :=
  let digits := b.map fun x =>
    String.ofList [Nat.digitChar (x.toNat / 16), Nat.digitChar (x.toNat % 16)]
  "[" ++ ", ".intercalate digits ++ "]"

/-! ### Key-method 2 -/

inductive Pop (α : Type)
  /-- A value, and how many bytes of the buffer it took. -/
  | ready (a : α) (n : ℕ)
  | needMore
  deriving DecidableEq, Repr

def keyMethod2 : UInt8 := 2
def preMasterLen : ℕ := 48
def randomLen : ℕ := 32

structure ClientKeyMethod2 where
  preMaster : Bytes
  random1 : Bytes
  random2 : Bytes
  options : Text
  username : Text
  password : Text
  peerInfo : Text
  deriving DecidableEq, Repr

/-- The bytes without the trailing NUL, if there is one. -/
def withoutNul (bytes : Bytes) : Res Bytes :=
  if bytes.getLast? = some 0 then do slice bytes 0 (← checkedSub bytes.length 1)
  else .ok bytes

/-- Length-prefixed string at `off`, with the offset after it; `none` when more bytes are
needed. The length counts the trailing NUL. -/
def readLpString (buf : Bytes) (off : ℕ) : Res (Option (Text × ℕ)) := do
  if buf.length < off + 2 then return none
  let len := ofBe (← slice buf off (off + 2))
  if buf.length < off + 2 + len then return none
  let start := off + 2
  let stop := start + len
  if len = 0 then return some ([], stop)
  let bytes ← slice buf start stop
  let text ← withoutNul bytes
  return some (fromUtf8Lossy text, stop)

def writeLpString (s : Text) : Bytes :=
  let b := utf8 s
  putU16 (UInt16.ofNat (b.length + 1)) ++ b ++ [0]

def ClientKeyMethod2.tryParse (buf : Bytes) : Res (Pop ClientKeyMethod2) := do
  if buf.length < 117 then return .needMore
  let zeros ← slice buf 0 4
  if zeros ≠ [0, 0, 0, 0] then
    throw (.bail s!"key-method 2: expected 4 zero bytes, got {hexDebug zeros}")
  let (method, _) ← getU8 (← slice buf 4 5)
  if method ≠ keyMethod2 then
    throw (.bail s!"unsupported key_method {method}, only 2 is implemented")
  let preMaster ← slice buf 5 (5 + preMasterLen)
  let random1 ← slice buf 53 (53 + randomLen)
  let random2 ← slice buf 85 (85 + randomLen)
  match ← readLpString buf 117 with
  | none => return .needMore
  | some (options, off) =>
    match ← readLpString buf off with
    | none => return .needMore
    | some (username, off) =>
      match ← readLpString buf off with
      | none => return .needMore
      | some (password, off) =>
        match ← readLpString buf off with
        | none => return .needMore
        | some (peerInfo, off) =>
          return .ready ⟨preMaster, random1, random2, options, username, password, peerInfo⟩ off

structure ServerKeyMethod2 where
  random1 : Bytes
  random2 : Bytes
  options : Text
  username : Text
  password : Text
  peerInfo : Text

def ServerKeyMethod2.encode (m : ServerKeyMethod2) : Bytes :=
  [0, 0, 0, 0] ++ [keyMethod2] ++ m.random1 ++ m.random2 ++ writeLpString m.options ++
    writeLpString m.username ++ writeLpString m.password ++ writeLpString m.peerInfo

/-- Pop one NUL-terminated message off the front of the buffer. -/
def tryPopAscii (buf : Bytes) : Pop Text :=
  match buf.findIdx? (· = 0) with
  | some idx => .ready (fromUtf8Lossy (buf.take idx)) (idx + 1)
  | none => .needMore

def buildOptionsString (linkMtu tunMtu : UInt16) : Text :=
  "V4,dev-type tun,link-mtu ".toList ++ dec linkMtu.toNat ++ ",tun-mtu ".toList ++
    dec tunMtu.toNat ++
    ",proto UDPv4,cipher AES-256-GCM,auth SHA256,keysize 256,key-method 2,tls-server".toList

/-- `IV_PROTO` is `REQUEST_PUSH | CC_EXIT_NOTIFY`. -/
def buildPeerInfo : Text :=
  "IV_VER=javs-0.1.0\nIV_PLAT=server\nIV_PROTO=".toList ++ dec ((1 <<< 2) ||| (1 <<< 7)) ++
    "\nIV_CIPHERS=AES-256-GCM\n".toList

/-! ### Parsing a buffer that grows -/

def lpText (bytes : Bytes) : Text :=
  fromUtf8Lossy (if bytes.getLast? = some 0 then bytes.dropLast else bytes)

def lpLen (buf : Bytes) (off : ℕ) : ℕ := ofBe ((buf.take (off + 2)).drop off)

lemma withoutNul_eq (bytes : Bytes) :
    withoutNul bytes = .ok (if bytes.getLast? = some 0 then bytes.dropLast else bytes) := by
  unfold withoutNul
  split
  · rename_i hlast
    have hpos : 1 ≤ bytes.length := by
      rcases bytes with _ | _
      · cases hlast
      · simp
    rw [checkedSub_of hpos, Res.ok_bind, List.dropLast_eq_take]
    exact slice_eq_ok.mpr ⟨by omega, by omega, rfl⟩
  · rfl

lemma readLpString_of_le {buf : Bytes} {off : ℕ} (h : off + 2 + lpLen buf off ≤ buf.length) :
    readLpString buf off = .ok (some (lpText ((buf.take (off + 2 + lpLen buf off)).drop (off + 2)),
      off + 2 + lpLen buf off)) := by
  have hlen : slice buf off (off + 2) = .ok ((buf.take (off + 2)).drop off) :=
    slice_eq_ok.mpr ⟨by omega, by omega, rfl⟩
  have htext : slice buf (off + 2) (off + 2 + lpLen buf off) =
      .ok ((buf.take (off + 2 + lpLen buf off)).drop (off + 2)) :=
    slice_eq_ok.mpr ⟨by omega, h, rfl⟩
  unfold readLpString
  rw [if_neg (by omega), hlen, Res.ok_bind]
  dsimp only
  rw [← lpLen, if_neg (by omega)]
  split
  · rename_i hzero
    rw [hzero, List.drop_eq_nil_of_le (by rw [List.length_take]; exact Nat.min_le_left _ _)]
    rfl
  · rw [htext, Res.ok_bind, withoutNul_eq]
    rfl

lemma readLpString_of_lt {buf : Bytes} {off : ℕ} (h : buf.length < off + 2 + lpLen buf off) :
    readLpString buf off = .ok none := by
  unfold readLpString
  by_cases hoff : buf.length < off + 2
  · rw [if_pos hoff]
    rfl
  · have hlen : slice buf off (off + 2) = .ok ((buf.take (off + 2)).drop off) :=
      slice_eq_ok.mpr ⟨by omega, by omega, rfl⟩
    rw [if_neg hoff, hlen, Res.ok_bind, ← lpLen, if_pos h]
    rfl

lemma lpLen_append {buf : Bytes} {off : ℕ} (h : off + 2 ≤ buf.length) (more : Bytes) :
    lpLen (buf ++ more) off = lpLen buf off := by
  rw [lpLen, List.take_append_of_le_length h, lpLen]

lemma readLpString_append {buf : Bytes} {off : ℕ} (h : readLpString buf off ≠ .ok none)
    (more : Bytes) : readLpString (buf ++ more) off = readLpString buf off := by
  have hle : off + 2 + lpLen buf off ≤ buf.length := by
    by_contra hlt
    exact h (readLpString_of_lt (by omega))
  have hlen : lpLen (buf ++ more) off = lpLen buf off := lpLen_append (by omega) more
  rw [readLpString_of_le hle, readLpString_of_le (by rw [hlen, List.length_append]; omega), hlen,
    List.take_append_of_le_length hle]

lemma readLpString_bounds {buf : Bytes} {off stop : ℕ} {t : Text}
    (h : readLpString buf off = .ok (some (t, stop))) : off ≤ stop ∧ stop ≤ buf.length := by
  by_cases hle : off + 2 + lpLen buf off ≤ buf.length
  · rw [readLpString_of_le hle] at h
    obtain ⟨-, rfl⟩ := Prod.mk.inj (Option.some.inj (Except.ok.inj h))
    omega
  · rw [readLpString_of_lt (by omega)] at h
    cases h

def withLpString {α : Type} (buf : Bytes) (off : ℕ) (k : Text → ℕ → Res (Pop α)) : Res (Pop α) := do
  match ← readLpString buf off with
  | none => return .needMore
  | some (t, off) => k t off

lemma withLpString_append {α : Type} {buf more : Bytes} {off : ℕ} {k k' : Text → ℕ → Res (Pop α)}
    (hk : ∀ t o, k t o ≠ .ok .needMore → k' t o = k t o)
    (h : withLpString buf off k ≠ .ok .needMore) :
    withLpString (buf ++ more) off k' = withLpString buf off k := by
  have hread : readLpString buf off ≠ .ok none := by
    intro hnone
    rw [withLpString, hnone] at h
    exact h rfl
  unfold withLpString at h ⊢
  rw [readLpString_append hread]
  rcases hr : readLpString buf off with e | _ | ⟨t, o⟩
  · rfl
  · rfl
  · rw [hr] at h
    exact hk t o h

lemma withLpString_ready {α : Type} {buf : Bytes} {off n : ℕ} {k : Text → ℕ → Res (Pop α)} {a : α}
    (h : withLpString buf off k = .ok (.ready a n)) :
    ∃ t o, off ≤ o ∧ o ≤ buf.length ∧ k t o = .ok (.ready a n) := by
  unfold withLpString at h
  rcases hr : readLpString buf off with e | _ | ⟨t, o⟩ <;> rw [hr] at h
  · cases h
  · cases h
  · obtain ⟨h1, h2⟩ := readLpString_bounds hr
    exact ⟨t, o, h1, h2, h⟩

def ClientKeyMethod2.strings (buf preMaster random1 random2 : Bytes) : Res (Pop ClientKeyMethod2) :=
  withLpString buf 117 fun options off =>
    withLpString buf off fun username off =>
      withLpString buf off fun password off =>
        withLpString buf off fun peerInfo off =>
          .ok (.ready ⟨preMaster, random1, random2, options, username, password, peerInfo⟩ off)

lemma ClientKeyMethod2.strings_append {buf pm r1 r2 : Bytes}
    (h : strings buf pm r1 r2 ≠ .ok .needMore) (more : Bytes) :
    strings (buf ++ more) pm r1 r2 = strings buf pm r1 r2 :=
  withLpString_append (fun _ _ => withLpString_append fun _ _ => withLpString_append fun _ _ =>
    withLpString_append fun _ _ _ => rfl) h

lemma ClientKeyMethod2.strings_ready {buf pm r1 r2 : Bytes} {km : ClientKeyMethod2} {n : ℕ}
    (h : strings buf pm r1 r2 = .ok (.ready km n)) : 117 ≤ n ∧ n ≤ buf.length := by
  obtain ⟨_, o₁, h₁, -, h⟩ := withLpString_ready h
  obtain ⟨_, o₂, h₂, -, h⟩ := withLpString_ready h
  obtain ⟨_, o₃, h₃, -, h⟩ := withLpString_ready h
  obtain ⟨_, o₄, h₄, hle, h⟩ := withLpString_ready h
  obtain ⟨-, rfl⟩ := Pop.ready.inj (Except.ok.inj h)
  omega

lemma ClientKeyMethod2.tryParse_of_le {buf : Bytes} (h : 117 ≤ buf.length) : tryParse buf =
    (slice buf 0 4 >>= fun zeros => if zeros ≠ [0, 0, 0, 0] then
        .error (.bail s!"key-method 2: expected 4 zero bytes, got {hexDebug zeros}")
      else slice buf 4 5 >>= getU8 >>= fun method => if method.1 ≠ keyMethod2 then
        .error (.bail s!"unsupported key_method {method.1}, only 2 is implemented")
      else slice buf 5 53 >>= fun pm => slice buf 53 85 >>= fun r1 => slice buf 85 117 >>= fun r2 =>
        strings buf pm r1 r2) := by
  simp only [ClientKeyMethod2.tryParse, Res.throw_bind, bind_assoc]
  rw [if_neg (by omega)]
  rfl

lemma ClientKeyMethod2.tryParse_of_lt {buf : Bytes} (h : buf.length < 117) :
    tryParse buf = .ok .needMore := by
  simp only [ClientKeyMethod2.tryParse]
  rw [if_pos h]
  rfl

lemma ClientKeyMethod2.tryParse_append {buf : Bytes} (h : tryParse buf ≠ .ok .needMore)
    (more : Bytes) : tryParse (buf ++ more) = tryParse buf := by
  have hle : 117 ≤ buf.length := by
    by_contra hlt
    exact h (tryParse_of_lt (by omega))
  rw [tryParse_of_le hle] at h ⊢
  rw [tryParse_of_le (by rw [List.length_append]; omega)]
  have hslice (i j : ℕ) (hj : j ≤ 117) : slice (buf ++ more) i j = slice buf i j :=
    slice_append (by omega) more
  rw [hslice 0 4 (by omega), hslice 4 5 (by omega), hslice 5 53 (by omega), hslice 53 85 (by omega),
    hslice 85 117 (by omega)]
  -- each field is read as before, and where a check fails it fails with the same error
  revert h
  rcases slice buf 0 4 with e | zeros
  · exact fun _ => rfl
  simp only [Res.ok_bind]
  split
  · exact fun _ => rfl
  rcases slice buf 4 5 >>= getU8 with e | method
  · exact fun _ => rfl
  simp only [Res.ok_bind]
  split
  · exact fun _ => rfl
  rcases slice buf 5 53 with e | pm
  · exact fun _ => rfl
  rcases slice buf 53 85 with e | r1
  · exact fun _ => rfl
  rcases slice buf 85 117 with e | r2
  · exact fun _ => rfl
  exact fun h => strings_append h more

lemma ClientKeyMethod2.tryParse_ready {buf : Bytes} {km : ClientKeyMethod2} {n : ℕ}
    (h : tryParse buf = .ok (.ready km n)) : 0 < n ∧ n ≤ buf.length := by
  have hle : 117 ≤ buf.length := by
    by_contra hlt
    rw [tryParse_of_lt (by omega)] at h
    cases h
  rw [tryParse_of_le hle] at h
  obtain ⟨zeros, -, h⟩ := Res.bind_eq_ok.mp h
  obtain ⟨method, -, h⟩ := Res.bind_eq_ok.mp (Res.guard_eq_ok.mp h).2
  obtain ⟨pm, -, h⟩ := Res.bind_eq_ok.mp (Res.guard_eq_ok.mp h).2
  obtain ⟨r1, -, h⟩ := Res.bind_eq_ok.mp h
  obtain ⟨r2, -, h⟩ := Res.bind_eq_ok.mp h
  have hn := strings_ready h
  omega

lemma tryPopAscii_ready {buf : Bytes} {msg : Text} {n : ℕ} (h : tryPopAscii buf = .ready msg n) :
    0 < n ∧ n ≤ buf.length := by
  unfold tryPopAscii at h
  split at h
  · rename_i idx hidx
    obtain ⟨-, rfl⟩ := Pop.ready.inj h
    have hlt := (List.findIdx?_eq_some_iff_getElem.mp hidx).1
    omega
  · cases h

lemma tryPopAscii_append {buf : Bytes} {msg : Text} {n : ℕ} (h : tryPopAscii buf = .ready msg n)
    (more : Bytes) : tryPopAscii (buf ++ more) = .ready msg n := by
  unfold tryPopAscii at h ⊢
  split at h
  · rename_i idx hidx
    have hlt := (List.findIdx?_eq_some_iff_getElem.mp hidx).1
    have hidx' : (buf ++ more).findIdx? (· = 0) = some idx := by
      rw [List.findIdx?_append, hidx]
      rfl
    rw [hidx', ← h]
    dsimp only
    rw [List.take_append_of_le_length (Nat.le_of_lt hlt)]
  · cases h

end Javs
