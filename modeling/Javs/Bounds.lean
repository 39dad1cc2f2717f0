import Javs.EnvelopeInverse
import Javs.Codec
import Javs.ControlChannel
import Javs.Session

/-!
The readers stay in bounds.

Every reader of untrusted bytes can panic on its own: a slice, a `get_*`, a conversion to an array
or a subtraction. None does, since each is behind a check of the length it needs; what is too
short is an error that is handed back.
-/

namespace Javs

open Bytes

/-- The computation returns a value or hands an error back. -/
def NoPanic {α : Type} (x : Res α) : Prop := ∀ msg, x ≠ .error (.panic msg)

section Rules

variable {α β : Type}

lemma noPanic_ok (a : α) : NoPanic (.ok a) := fun _ h => by cases h

lemma noPanic_bail (msg : String) : NoPanic (.error (.bail msg) : Res α) := fun _ h => by cases h

lemma NoPanic.bind {x : Res α} {f : α → Res β} (hx : NoPanic x)
    (hf : ∀ a, x = .ok a → NoPanic (f a)) : NoPanic (x >>= f) := by
  rcases x with e | a
  · exact fun msg h => hx msg (congrArg Except.error (Except.error.inj h))
  · exact hf a rfl

lemma noPanic_guard {c : Prop} [Decidable c] {msg : String} {x : Res α} (h : ¬ c → NoPanic x) :
    NoPanic (if c then .error (.bail msg) else x) := by
  split
  · exact noPanic_bail msg
  · exact h ‹_›

end Rules

/-! ### Fixed widths -/

section Widths

variable {b : Bytes}

lemma noPanic_advance {k : ℕ} (h : k ≤ b.length) : NoPanic (advance k b) := by
  rw [advance, if_pos h]
  exact noPanic_ok _

lemma noPanic_getU8 (h : 1 ≤ b.length) : NoPanic (getU8 b) :=
  (noPanic_advance h).bind fun _ _ => noPanic_ok _

lemma noPanic_getU32 (h : 4 ≤ b.length) : NoPanic (getU32 b) :=
  (noPanic_advance h).bind fun _ _ => noPanic_ok _

lemma noPanic_getU64 (h : 8 ≤ b.length) : NoPanic (getU64 b) :=
  (noPanic_advance h).bind fun _ _ => noPanic_ok _

lemma noPanic_slice {i j : ℕ} (hij : i ≤ j) (hj : j ≤ b.length) : NoPanic (slice b i j) := by
  rw [slice, if_pos ⟨hij, hj⟩]
  exact noPanic_ok _

lemma noPanic_readAcks {n : ℕ} (h : n * 4 ≤ b.length) : NoPanic (ControlPacket.readAcks n b) := by
  induction n generalizing b with
  | zero => exact noPanic_ok _
  | succ n ih =>
    refine (noPanic_getU32 (by omega)).bind fun ⟨a, r⟩ hr => ?_
    have hb := congrArg List.length (getU32_eq_ok.mp hr)
    rw [List.length_append, length_putU32] at hb
    exact (ih (by omega)).bind fun _ _ => noPanic_ok _

end Widths

/-! ### Packets -/

lemma noPanic_fromU8 (v : UInt8) : NoPanic (OpCode.fromU8 v) := by
  unfold OpCode.fromU8
  split <;> first | exact noPanic_ok _ | exact noPanic_bail _

lemma noPanic_controlParse (buf : Bytes) : NoPanic (ControlPacket.parse buf) := by
  unfold ControlPacket.parse
  simp only [Res.throw_bind, Res.pure_bind]
  refine noPanic_guard fun hne => ?_
  have hpos : 1 ≤ buf.length := List.length_pos_iff.mpr (by simpa using hne)
  refine (noPanic_getU8 hpos).bind fun ⟨first, b⟩ _ => ?_
  refine (noPanic_fromU8 _).bind fun op _ => ?_
  refine noPanic_guard fun _ => noPanic_guard fun hsid => ?_
  refine (noPanic_getU64 (Nat.le_of_not_lt hsid)).bind fun ⟨sid, b⟩ _ => ?_
  refine noPanic_guard fun hcount => ?_
  refine (noPanic_getU8 (Nat.le_of_not_lt hcount)).bind fun ⟨count, b⟩ _ => ?_
  refine noPanic_guard fun hacks => ?_
  refine (noPanic_readAcks (Nat.le_of_not_lt hacks)).bind fun ⟨acks, b⟩ _ => ?_
  -- the packet id is read last, with or without a remote session id before it
  have hpid (b : Bytes) (remote : Option SessionId) : NoPanic (if op ≠ .ackV1 then
      if b.length < 4 then .error (.bail "missing packet id")
      else getU32 b >>= fun x => pure ⟨op, first &&& 0x07, sid, acks, remote, some x.1, x.2⟩
      else pure ⟨op, first &&& 0x07, sid, acks, remote, none, b⟩ : Res ControlPacket) := by
    split
    · refine noPanic_guard fun hlen => ?_
      exact (noPanic_getU32 (Nat.le_of_not_lt hlen)).bind fun _ _ => noPanic_ok _
    · exact noPanic_ok _
  dsimp only
  split
  · refine noPanic_guard fun hremote => ?_
    exact (noPanic_getU64 (Nat.le_of_not_lt hremote)).bind fun x _ => hpid x.2 (some x.1)
  · exact hpid b none

lemma noPanic_dataParse (buf : Bytes) : NoPanic (DataPacketV2.parse buf) := by
  unfold DataPacketV2.parse
  simp only [Res.throw_bind]
  refine noPanic_guard fun hlen => ?_
  refine (noPanic_getU8 (by omega)).bind fun ⟨first, b⟩ hfirst => ?_
  have hb : buf.length = b.length + 1 := congrArg List.length (getU8_eq_ok.mp hfirst)
  refine noPanic_guard fun _ => ?_
  refine (noPanic_advance (b := b) (by omega)).bind fun ⟨peer, c⟩ hpeer => ?_
  obtain ⟨hlenp, rfl⟩ := advance_eq_ok.mp hpeer
  rw [List.length_append] at hb
  exact (noPanic_getU32 (b := c) (by omega)).bind fun _ _ => noPanic_ok _

lemma dataParse_ok {buf : Bytes} {dp : DataPacketV2} (h : DataPacketV2.parse buf = .ok dp) :
    8 ≤ buf.length := by
  by_contra hlt
  rw [DataPacketV2.parse, if_pos (by omega)] at h
  cases h

/-! ### Envelopes -/

section Envelopes

variable (p : Primitives)

lemma noPanic_tlsAuthUnwrap (k : TlsAuthKey) (pkt : Bytes) : NoPanic (k.unwrap p pkt) := by
  by_cases h : 49 ≤ pkt.length
  · obtain ⟨op, sid, tag, pid, ts, body, hsid, htag, rfl⟩ := TlsAuthKey.exists_wire h
    rw [TlsAuthKey.unwrap_wire p hsid htag]
    exact noPanic_guard fun _ => noPanic_ok _
  · have hlt : pkt.length < TlsAuthKey.headerLen + TlsAuthKey.hmacLen +
        TlsAuthKey.replayHeaderLen := Nat.lt_of_not_le h
    rw [TlsAuthKey.unwrap, if_pos hlt]
    exact noPanic_bail _

lemma noPanic_tlsCryptUnwrap (k : TlsCryptKey) (pkt : Bytes) : NoPanic (k.unwrap p pkt) := by
  by_cases h : 49 ≤ pkt.length
  · obtain ⟨op, sid, pid, ts, tag, body, hsid, htag, rfl⟩ := TlsCryptKey.exists_wire h
    rw [TlsCryptKey.unwrap_wire p hsid htag]
    exact noPanic_guard fun _ => noPanic_ok _
  · have hlt : pkt.length < TlsCryptKey.headerLen + TlsCryptKey.tagLen := Nat.lt_of_not_le h
    rw [TlsCryptKey.unwrap, if_pos hlt]
    exact noPanic_bail _

lemma noPanic_tlsAuthWrap (k : TlsAuthKey) (inner : Bytes) (pid ts : UInt32) :
    NoPanic (k.wrap p inner pid ts) := by
  by_cases h : 9 ≤ inner.length
  · obtain ⟨op, sid, body, hsid, rfl⟩ := exists_header h
    rw [TlsAuthKey.wrap_cons p hsid]
    exact noPanic_ok _
  · have hlt : inner.length < TlsAuthKey.headerLen := Nat.lt_of_not_le h
    rw [TlsAuthKey.wrap, if_pos hlt]
    exact noPanic_bail _

lemma noPanic_tlsCryptWrap (k : TlsCryptKey) (inner : Bytes) (pid ts : UInt32) :
    NoPanic (k.wrap p inner pid ts) := by
  by_cases h : 9 ≤ inner.length
  · obtain ⟨op, sid, body, hsid, rfl⟩ := exists_header h
    rw [TlsCryptKey.wrap_cons p hsid]
    exact noPanic_ok _
  · rw [TlsCryptKey.wrap, if_pos (by omega)]
    exact noPanic_bail _

end Envelopes

/-! ### The data cipher -/

/-- What is assumed of the primitives: an AES-GCM ciphertext ends with its tag, and the tags of
the HMACs have their sizes. -/
structure Primitives.Sized (p : Primitives) : Prop where
  gcm : ∀ k n a text ct, p.gcmEncrypt k n a text = some ct → tagSize ≤ ct.length
  md5 : ∀ k m, (p.hmacMd5 k m).length = 16
  sha1 : ∀ k m, (p.hmacSha1 k m).length = 20
  sha256 : ∀ k m, (p.hmacSha256 k m).length = 32

/-! Key material is as long as the cipher takes it to be. -/

lemma Primitives.Sized.hmacMd5_ne_nil {p : Primitives} (hp : p.Sized) (k m : Bytes) :
    p.hmacMd5 k m ≠ [] :=
  List.length_pos_iff.mp (by rw [hp.md5]; exact Nat.succ_pos _)

lemma Primitives.Sized.hmacSha1_ne_nil {p : Primitives} (hp : p.Sized) (k m : Bytes) :
    p.hmacSha1 k m ≠ [] :=
  List.length_pos_iff.mp (by rw [hp.sha1]; exact Nat.succ_pos _)

lemma length_pHashLoop {hmac : Bytes → Bytes → Bytes} (hpos : ∀ k m, hmac k m ≠ [])
    (secret seed : Bytes) {n fuel : ℕ} (a : Bytes) {out : Bytes} (hout : out.length ≤ n)
    (hfuel : n ≤ out.length + fuel) : (pHashLoop hmac secret seed n fuel a out).length = n := by
  induction fuel generalizing a out with
  | zero => exact Nat.le_antisymm hout hfuel
  | succ fuel ih =>
    rw [pHashLoop]
    split
    · have hblen := List.length_pos_iff.mpr (hpos secret (a ++ seed))
      refine ih _ ?_ ?_ <;> rw [List.length_append, List.length_take] <;> omega
    · omega

lemma length_tls10Prf {p : Primitives} (hp : p.Sized) (secret label seed : Bytes) (n : ℕ) :
    (tls10Prf p secret label seed n).length = n := by
  have hlen {hmac : Bytes → Bytes → Bytes} (hpos : ∀ k m, hmac k m ≠ []) (s : Bytes) :
      (pHash hmac s (label ++ seed) n).length = n :=
    length_pHashLoop hpos s _ _ (Nat.zero_le n) (Nat.zero_add n).ge
  rw [tls10Prf, List.length_zipWith, hlen hp.hmacMd5_ne_nil, hlen hp.hmacSha1_ne_nil, Nat.min_self]

lemma length_deriveOpenvpnKeyData {p : Primitives} (hp : p.Sized)
    (preMaster c1 s1 c2 s2 clientSid serverSid : Bytes) :
    (deriveOpenvpnKeyData p preMaster c1 s1 c2 s2 clientSid serverSid).length = keymatLen :=
  length_tls10Prf hp ..

lemma noPanic_open (p : Primitives) (c : DataCipher) (pid : UInt32) (aad wire : Bytes) :
    NoPanic (c.open' p pid aad wire) := by
  by_cases h : tagSize ≤ wire.length
  · rw [c.open'_of_le p pid aad h]
    split
    · exact noPanic_bail _
    · exact noPanic_ok _
  · rw [c.open'_of_lt p pid aad (Nat.lt_of_not_le h)]
    exact noPanic_bail _

lemma noPanic_seal {p : Primitives} (hp : p.Sized) (c : DataCipher) (pid : UInt32)
    (aad plaintext : Bytes) : NoPanic (c.seal' p pid aad plaintext) := by
  unfold DataCipher.seal'
  split
  · exact noPanic_bail _
  · rename_i ct hct
    rw [if_neg (Nat.not_lt.mpr (hp.gcm _ _ _ _ _ hct))]
    exact noPanic_ok _

/-! ### Key-method 2 -/

lemma noPanic_withLpString {α : Type} (buf : Bytes) (off : ℕ) {k : Text → ℕ → Res (Pop α)}
    (hk : ∀ t o, NoPanic (k t o)) : NoPanic (withLpString buf off k) := by
  unfold withLpString
  by_cases hle : off + 2 + lpLen buf off ≤ buf.length
  · rw [readLpString_of_le hle]
    exact hk _ _
  · rw [readLpString_of_lt (Nat.lt_of_not_le hle)]
    exact noPanic_ok _

lemma noPanic_tryParse (buf : Bytes) : NoPanic (ClientKeyMethod2.tryParse buf) := by
  by_cases h : 117 ≤ buf.length
  swap
  · rw [ClientKeyMethod2.tryParse_of_lt (Nat.lt_of_not_le h)]
    exact noPanic_ok _
  rw [ClientKeyMethod2.tryParse_of_le h]
  refine (noPanic_slice (by omega) (by omega)).bind fun zeros _ => noPanic_guard fun _ => ?_
  refine NoPanic.bind ?_ fun method _ => noPanic_guard fun _ => ?_
  · refine (noPanic_slice (by omega) (by omega)).bind fun one hone => noPanic_getU8 ?_
    obtain ⟨-, hle, rfl⟩ := slice_eq_ok.mp hone
    rw [List.length_drop, List.length_take]
    omega
  refine (noPanic_slice (by omega) (by omega)).bind fun pm _ => ?_
  refine (noPanic_slice (by omega) (by omega)).bind fun r1 _ => ?_
  refine (noPanic_slice (by omega) (by omega)).bind fun r2 _ => ?_
  refine noPanic_withLpString _ _ fun _ _ => noPanic_withLpString _ _ fun _ _ => ?_
  exact noPanic_withLpString _ _ fun _ _ => noPanic_withLpString _ _ fun _ _ => noPanic_ok _

lemma noPanic_prfSlot {Conn : Type} (p : Primitives) (s : Session Conn) (keyId : UInt8) :
    NoPanic (s.prfSlot p keyId) := by
  unfold Session.prfSlot
  rcases s.clientPreMaster with _ | pm
  · exact noPanic_bail _
  rcases s.clientRandom1 with _ | r1
  · exact noPanic_bail _
  rcases s.clientRandom2 with _ | r2
  · exact noPanic_bail _
  exact noPanic_ok _

end Javs
