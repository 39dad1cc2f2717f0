import Javs.ControlChannel

/-!
The client's key-method-2 message, written and read back.

The message arrives inside the TLS stream and is parsed again from its start whenever more of
the stream has come in. What has been written is read back whatever follows it, and until its
last byte has arrived the parser asks for more: were it done earlier, it would be done with
the same result on the whole message, and would have consumed more than it had.
-/

namespace Javs

open Bytes

/-! ### Text that is valid is read as it is -/

lemma toNat_byte {n : ℕ} (h : n < 256) : (UInt8.ofNat n).toNat = n := by
  rw [UInt8.toNat_ofNat']
  omega

lemma scalar_bounds (c : Char) : c.toNat < 0xD800 ∨ (0xDFFF < c.toNat ∧ c.toNat < 0x110000) :=
  c.valid

lemma isCont_of {b : ℕ} (h1 : 0x80 ≤ b) (h2 : b ≤ 0xBF) : isCont b = true := by
  simp [isCont, h1, h2]

lemma decodeLossy_utf8Char (c : Char) (rest : Bytes) :
    ∃ b0 tl, utf8Char c = b0 :: tl ∧ decodeLossy b0.toNat (tl ++ rest) = (c, tl.length) := by
  have hc := scalar_bounds c
  have hback : Char.ofNat c.toNat = c := Char.ofNat_toNat c
  unfold utf8Char
  generalize hn : c.toNat = n at hc hback ⊢
  dsimp only
  split_ifs with h1 h2 h3
  · refine ⟨_, [], rfl, ?_⟩
    rw [toNat_byte (by omega), decodeLossy, if_pos h1, hback]
    rfl
  · refine ⟨_, _, rfl, ?_⟩
    have e0 : (UInt8.ofNat (0xC0 + n / 64)).toNat = 0xC0 + n / 64 := toNat_byte (by omega)
    have e1 : (UInt8.ofNat (0x80 + n % 64)).toNat = 0x80 + n % 64 := toNat_byte (by omega)
    have hval : (0xC0 + n / 64 - 0xC0) * 64 + (0x80 + n % 64 - 0x80) = n := by omega
    simp only [decodeLossy, List.cons_append, List.nil_append, List.getD_cons_zero, e0, e1]
    rw [if_neg (by omega), if_pos (by omega), if_pos (isCont_of (by omega) (by omega)), hval, hback]
    rfl
  · refine ⟨_, _, rfl, ?_⟩
    have e0 : (UInt8.ofNat (0xE0 + n / 4096)).toNat = 0xE0 + n / 4096 := toNat_byte (by omega)
    have e1 : (UInt8.ofNat (0x80 + n / 64 % 64)).toNat = 0x80 + n / 64 % 64 :=
      toNat_byte (by omega)
    have e2 : (UInt8.ofNat (0x80 + n % 64)).toNat = 0x80 + n % 64 := toNat_byte (by omega)
    have hval : (0xE0 + n / 4096 - 0xE0) * 4096 + (0x80 + n / 64 % 64 - 0x80) * 64 +
        (0x80 + n % 64 - 0x80) = n := by omega
    -- the second byte is in the range the first one asks for: not overlong, and no surrogate
    have hrange : (if 0xE0 + n / 4096 = 0xE0 then 0xA0 else 0x80) ≤ 0x80 + n / 64 % 64 ∧
        0x80 + n / 64 % 64 ≤ (if 0xE0 + n / 4096 = 0xED then 0x9F else 0xBF) := by
      split_ifs <;> omega
    simp only [decodeLossy, List.cons_append, List.nil_append, List.getD_cons_zero,
      List.getD_cons_succ, e0, e1, e2]
    rw [if_neg (by omega), if_neg (by omega), if_pos (by omega), if_pos hrange,
      if_pos (isCont_of (by omega) (by omega)), hval, hback]
    rfl
  · refine ⟨_, _, rfl, ?_⟩
    have e0 : (UInt8.ofNat (0xF0 + n / 262144)).toNat = 0xF0 + n / 262144 :=
      toNat_byte (by omega)
    have e1 : (UInt8.ofNat (0x80 + n / 4096 % 64)).toNat = 0x80 + n / 4096 % 64 :=
      toNat_byte (by omega)
    have e2 : (UInt8.ofNat (0x80 + n / 64 % 64)).toNat = 0x80 + n / 64 % 64 :=
      toNat_byte (by omega)
    have e3 : (UInt8.ofNat (0x80 + n % 64)).toNat = 0x80 + n % 64 := toNat_byte (by omega)
    have hval : (0xF0 + n / 262144 - 0xF0) * 262144 + (0x80 + n / 4096 % 64 - 0x80) * 4096 +
        (0x80 + n / 64 % 64 - 0x80) * 64 + (0x80 + n % 64 - 0x80) = n := by omega
    have hrange : (if 0xF0 + n / 262144 = 0xF0 then 0x90 else 0x80) ≤ 0x80 + n / 4096 % 64 ∧
        0x80 + n / 4096 % 64 ≤ (if 0xF0 + n / 262144 = 0xF4 then 0x8F else 0xBF) := by
      split_ifs <;> omega
    simp only [decodeLossy, List.cons_append, List.nil_append, List.getD_cons_zero,
      List.getD_cons_succ, e0, e1, e2, e3]
    rw [if_neg (by omega), if_neg (by omega), if_neg (by omega), if_pos (by omega), if_pos hrange,
      if_pos (isCont_of (by omega) (by omega)), if_pos (isCont_of (by omega) (by omega)), hval,
      hback]
    rfl

lemma lossyLoop_utf8 (t : Text) {fuel : ℕ} (h : (utf8 t).length ≤ fuel) :
    lossyLoop fuel (utf8 t) = t := by
  induction t generalizing fuel with
  | nil => cases fuel <;> rfl
  | cons c t ih =>
    obtain ⟨b0, tl, hc, hd⟩ := decodeLossy_utf8Char c (utf8 t)
    have hcons : utf8 (c :: t) = b0 :: (tl ++ utf8 t) := by
      rw [utf8, List.flatMap_cons, hc]
      rfl
    rw [hcons] at h ⊢
    rcases fuel with _ | fuel
    · simp at h
    · rw [lossyLoop, hd]
      dsimp only
      rw [List.drop_left, ih (by simp at h; omega)]

/-- **Valid text comes through the lossy conversion.** -/
theorem fromUtf8Lossy_utf8 (t : Text) : fromUtf8Lossy (utf8 t) = t :=
  lossyLoop_utf8 t (Nat.le_refl _)

/-! ### Length-prefixed strings -/

def Fits (s : Text) : Prop := (utf8 s).length < 65535

instance (s : Text) : Decidable (Fits s) := inferInstanceAs (Decidable (_ < _))

lemma length_writeLpString (s : Text) : (writeLpString s).length = (utf8 s).length + 3 := by
  simp only [writeLpString, List.length_append, length_putU16, List.length_singleton]
  omega

lemma readLpString_write {x r : Bytes} {s : Text} (hs : Fits s) :
    readLpString (x ++ (writeLpString s ++ r)) x.length =
      .ok (some (s, x.length + (writeLpString s).length)) := by
  unfold Fits at hs
  have hlen : lpLen (x ++ (writeLpString s ++ r)) x.length = (utf8 s).length + 1 := by
    have htake : (x ++ (writeLpString s ++ r)).take (x.length + 2) =
        x ++ putU16 (UInt16.ofNat ((utf8 s).length + 1)) := by
      rw [List.take_length_add_append, writeLpString]
      simp only [List.append_assoc]
      rw [List.take_left' (length_putU16 _)]
    rw [lpLen, htake, List.drop_left, putU16, UInt16.toNat_ofNat_of_lt' (show _ < 65536 by omega)]
    exact ofBe_be (by omega)
  have hwhole := length_writeLpString s
  rw [readLpString_of_le (by rw [hlen]; simp only [List.length_append]; omega), hlen]
  have htext : ((x ++ (writeLpString s ++ r)).take (x.length + 2 + ((utf8 s).length + 1))).drop
      (x.length + 2) = utf8 s ++ [0] := by
    rw [Nat.add_assoc, List.take_length_add_append, List.drop_length_add_append,
      List.take_left' (by omega), writeLpString, List.append_assoc,
      List.drop_left' (length_putU16 _)]
  have hstop : x.length + 2 + ((utf8 s).length + 1) = x.length + (writeLpString s).length := by
    omega
  rw [htext, hstop]
  -- the NUL that was written is the one left out, also where the text ends with one
  have hnul : lpText (utf8 s ++ [0]) = s := by
    rw [lpText, if_pos (by simp), List.dropLast_concat, fromUtf8Lossy_utf8]
  rw [hnul]

lemma withLpString_write {α : Type} {buf x r : Bytes} {s : Text} {off : ℕ}
    {k : Text → ℕ → Res (Pop α)} (hbuf : buf = x ++ (writeLpString s ++ r)) (hoff : off = x.length)
    (hs : Fits s) : withLpString buf off k = k s (x ++ writeLpString s).length := by
  subst hbuf hoff
  rw [withLpString, readLpString_write hs, List.length_append]
  rfl

/-! ### The message -/

namespace ClientKeyMethod2

/-- What the fields' types say of them, and that the strings fit. -/
structure Sendable (m : ClientKeyMethod2) : Prop where
  preMaster : m.preMaster.length = preMasterLen
  random1 : m.random1.length = randomLen
  random2 : m.random2.length = randomLen
  options : Fits m.options
  username : Fits m.username
  password : Fits m.password
  peerInfo : Fits m.peerInfo

def fixed (m : ClientKeyMethod2) : Bytes :=
  [0, 0, 0, 0] ++ [keyMethod2] ++ m.preMaster ++ m.random1 ++ m.random2

def encode (m : ClientKeyMethod2) : Bytes :=
  m.fixed ++ writeLpString m.options ++ writeLpString m.username ++ writeLpString m.password ++
    writeLpString m.peerInfo

variable {m : ClientKeyMethod2}

lemma Sendable.length_fixed (h : m.Sendable) : m.fixed.length = 117 := by
  simp only [fixed, List.length_append, h.preMaster, h.random1, h.random2]
  rfl

lemma Sendable.strings_encode (h : m.Sendable) (r : Bytes) :
    strings (m.encode ++ r) m.preMaster m.random1 m.random2 =
      .ok (.ready m m.encode.length) := by
  have hfixed := h.length_fixed
  unfold strings
  rw [withLpString_write (x := m.fixed) (s := m.options)
      (by simp only [encode, List.append_assoc]; rfl) hfixed.symm h.options,
    withLpString_write (s := m.username) (by simp only [encode, List.append_assoc]; rfl) rfl
      h.username,
    withLpString_write (s := m.password) (by simp only [encode, List.append_assoc]; rfl) rfl
      h.password,
    withLpString_write (s := m.peerInfo) (by simp only [encode, List.append_assoc]; rfl) rfl
      h.peerInfo]
  rfl

lemma Sendable.tryParse_encode (h : m.Sendable) (r : Bytes) :
    tryParse (m.encode ++ r) = .ok (.ready m m.encode.length) := by
  have hfixed := h.length_fixed
  have hzeros : slice (m.encode ++ r) 0 4 = .ok [0, 0, 0, 0] :=
    slice_of (x := []) (by simp [encode, fixed]; rfl) rfl rfl
  have hmethod : slice (m.encode ++ r) 4 5 = .ok [keyMethod2] :=
    slice_of (x := [0, 0, 0, 0]) (by simp [encode, fixed]; rfl) rfl rfl
  have hpm : slice (m.encode ++ r) 5 53 = .ok m.preMaster :=
    slice_of (x := [0, 0, 0, 0] ++ [keyMethod2]) (by simp [encode, fixed]; rfl) rfl
      (by rw [h.preMaster]; rfl)
  have hr1 : slice (m.encode ++ r) 53 85 = .ok m.random1 :=
    slice_of (x := [0, 0, 0, 0] ++ [keyMethod2] ++ m.preMaster) (by simp [encode, fixed]; rfl)
      (by simp [h.preMaster, preMasterLen]) (by rw [h.random1]; rfl)
  have hr2 : slice (m.encode ++ r) 85 117 = .ok m.random2 :=
    slice_of (x := [0, 0, 0, 0] ++ [keyMethod2] ++ m.preMaster ++ m.random1)
      (by simp [encode, fixed]; rfl) (by simp [h.preMaster, h.random1, preMasterLen, randomLen])
      (by rw [h.random2]; rfl)
  have hlong : 117 ≤ (m.encode ++ r).length := by
    simp only [encode, List.length_append]
    omega
  have hgetU8 : getU8 [keyMethod2] = .ok (keyMethod2, []) := rfl
  rw [tryParse_of_le hlong, hzeros, hmethod, hpm, hr1, hr2]
  simp only [Res.ok_bind, hgetU8]
  rw [if_neg (by simp), if_neg (by simp)]
  exact h.strings_encode r

lemma Sendable.tryParse_part (h : m.Sendable) {b : Bytes} (hb : b <+: m.encode)
    (hne : b ≠ m.encode) : tryParse b = .ok .needMore := by
  have hlt : b.length < m.encode.length := by
    refine Nat.lt_of_le_of_ne hb.length_le fun heq => ?_
    exact hne (hb.eq_of_length heq)
  obtain ⟨r, hr⟩ := hb
  by_contra hready
  have hwhole := h.tryParse_encode []
  rw [List.append_nil, ← hr, tryParse_append hready r, hr] at hwhole
  have hle := (tryParse_ready hwhole).2
  omega

/-- **The message survives the stream.** What a client wrote is parsed whatever follows, with
the following message left intact, and on no part of it does the parser come to a result; and
a result, be it a message or an error, stays as it is when more of the stream arrives. -/
theorem tryParse_incremental :
    (∀ m : ClientKeyMethod2, m.Sendable →
      (∀ r, tryParse (m.encode ++ r) = .ok (.ready m m.encode.length)) ∧
      ∀ b, b <+: m.encode → b ≠ m.encode → tryParse b = .ok .needMore) ∧
    ∀ b r : Bytes,
      (∀ m n, tryParse b = .ok (.ready m n) →
        n ≤ b.length ∧ tryParse (b ++ r) = .ok (.ready m n)) ∧
      ∀ e, tryParse b = .error e → tryParse (b ++ r) = .error e := by
  refine ⟨fun m h => ⟨h.tryParse_encode, fun b hb hne => h.tryParse_part hb hne⟩,
    fun b r => ⟨fun m n hready => ?_, fun e herr => ?_⟩⟩
  · refine ⟨(tryParse_ready hready).2, ?_⟩
    rw [tryParse_append (by rw [hready]; simp), hready]
  · rw [tryParse_append (by rw [herr]; simp), herr]

/-- The message of the test `client_key_method_2_round_trip_basic`, with a user name whose
characters take two and three bytes, and which ends in a NUL. -/
def basic : ClientKeyMethod2 where
  preMaster := List.replicate 48 0xAB
  random1 := List.replicate 32 0xCD
  random2 := List.replicate 32 0xEF
  options := "V4,proto UDPv4,key-method 2,tls-client".toList
  username := ['é', '€', Char.ofNat 0]
  password := []
  peerInfo := "IV_VER=2.6.0\nIV_PROTO=998".toList

lemma sendable_basic : basic.Sendable :=
  ⟨rfl, rfl, rfl, by decide, by decide, by decide, by decide⟩

theorem tryParse_incremental_basic :
    tryParse (basic.encode ++ [7]) = .ok (.ready basic basic.encode.length) ∧
    tryParse (basic.encode.take 160) = .ok .needMore ∧
    basic.encode.length ≤ (basic.encode ++ [7]).length ∧
    tryParse (basic.encode ++ [7] ++ [8]) = .ok (.ready basic basic.encode.length) ∧
    ∃ e, tryParse (List.replicate 117 1) = .error e ∧
      tryParse (List.replicate 117 1 ++ [8]) = .error e := by
  obtain ⟨hwritten, hgrown⟩ := tryParse_incremental
  obtain ⟨hwhole, hpart⟩ := hwritten basic sendable_basic
  obtain ⟨hle, hmore⟩ := (hgrown (basic.encode ++ [7]) [8]).1 _ _ (hwhole [7])
  have hbad : tryParse (List.replicate 117 1) =
      .error (.bail s!"key-method 2: expected 4 zero bytes, got {hexDebug [1, 1, 1, 1]}") := rfl
  exact ⟨hwhole [7], hpart _ (List.take_prefix 160 _) (by decide +kernel), hle, hmore, _, hbad,
    (hgrown _ _).2 _ hbad⟩

end ClientKeyMethod2

end Javs
