import Javs.Envelope

/-!
`wrap` and `unwrap` of the two control envelopes invert each other, the keys of the two ends
being mirrored: what was wrapped unwraps, and nothing else does.
-/

namespace Javs

open Bytes

/-- What is assumed of HMAC-SHA256 and of AES-CTR: tags have 32 bytes, and the cipher xors a
keystream that the key and the counter block determine. -/
structure Primitives.MacsAndStreams (p : Primitives) : Prop where
  hmac : ∀ k m, (p.hmacSha256 k m).length = 32
  ctr : ∃ keystream : Bytes → Bytes → ℕ → UInt8,
    ∀ k iv d, p.aesCtr k iv d = d.mapIdx fun i x => x ^^^ keystream k iv i

lemma Primitives.MacsAndStreams.aesCtr_aesCtr {p : Primitives} (hp : p.MacsAndStreams)
    (k iv d : Bytes) : p.aesCtr k iv (p.aesCtr k iv d) = d := by
  obtain ⟨ks, h⟩ := hp.ctr
  rw [h, h]
  apply List.ext_getElem
  · simp
  · intro i h1 h2
    rw [List.getElem_mapIdx, List.getElem_mapIdx, UInt8.xor_assoc, UInt8.xor_self, UInt8.xor_zero]

/-! ### Wrapping and unwrapping -/

/-- `unwrap` is the inverse of `wrap`, `time` being where a wrapped packet carries its time. -/
structure EnvelopeInverse (wrap : Bytes → UInt32 → UInt32 → Res Bytes)
    (unwrap : Bytes → Res (Bytes × UInt32)) (time : Bytes → UInt32) : Prop where
  complete : ∀ inner pid ts, 9 ≤ inner.length →
    ∃ w, wrap inner pid ts = .ok w ∧ unwrap w = .ok (inner, pid)
  sound : ∀ w inner pid, unwrap w = .ok (inner, pid) → wrap inner pid (time w) = .ok w

lemma exists_header {b : Bytes} (h : 9 ≤ b.length) :
    ∃ op sid r, sid.length = 8 ∧ b = op :: (sid ++ r) := by
  rcases b with _ | ⟨op, b⟩
  · cases h
  · have hb : 8 ≤ b.length := by simpa using h
    obtain ⟨sid, r, hsid, rfl⟩ := exists_split hb
    exact ⟨op, sid, r, hsid, rfl⟩

/-! ### tls-auth -/

namespace TlsAuthKey

variable (p : Primitives)

def mirror (k : TlsAuthKey) : TlsAuthKey := ⟨k.inKey, k.outKey⟩

def wire (op : UInt8) (sid tag : Bytes) (pid ts : UInt32) (body : Bytes) : Bytes :=
  op :: (sid ++ (tag ++ (putU32 pid ++ (putU32 ts ++ body))))

def timeOf (w : Bytes) : UInt32 := UInt32.ofNat (ofBe ((w.drop 45).take 4))

lemma exists_wire {w : Bytes} (h : 49 ≤ w.length) : ∃ op sid tag pid ts body,
    sid.length = 8 ∧ tag.length = 32 ∧ w = wire op sid tag pid ts body := by
  obtain ⟨op, sid, r, hsid, rfl⟩ := exists_header (b := w) (by omega)
  have hr : 40 ≤ r.length := by simp [hsid] at h; omega
  obtain ⟨tag, r, htag, rfl⟩ := exists_split (n := 32) (b := r) (by omega)
  have hr' : 8 ≤ r.length := by simp [htag] at hr; omega
  obtain ⟨pid, r, rfl⟩ := exists_word (b := r) (by omega)
  obtain ⟨ts, body, rfl⟩ := exists_word (b := r) (by simp at hr'; omega)
  exact ⟨op, sid, tag, pid, ts, body, hsid, htag, rfl⟩

section

variable {op : UInt8} {sid tag : Bytes} (hsid : sid.length = 8) (htag : tag.length = 32)
  (pid ts : UInt32) (body : Bytes)

include hsid

lemma wrap_cons (k : TlsAuthKey) : k.wrap p (op :: (sid ++ body)) pid ts =
    .ok (wire op sid (computeHmac p k.outKey op sid pid ts body) pid ts body) := by
  have hlen : ¬ (op :: (sid ++ body)).length < headerLen := by simp [headerLen, hsid]
  have hslice : slice (op :: (sid ++ body)) 1 headerLen = .ok sid :=
    slice_of (x := [op]) rfl rfl (by rw [hsid]; rfl)
  have hbody : sliceFrom (op :: (sid ++ body)) headerLen = .ok body :=
    sliceFrom_of (x := op :: sid) rfl (by simp [hsid, headerLen])
  simp only [wrap, if_neg hlen, getU8_eq_ok.mpr rfl, Res.ok_bind, hslice, hbody, wire,
    List.append_assoc, List.cons_append]
  rfl

include htag

lemma timeOf_wire : timeOf (wire op sid tag pid ts body) = ts := by
  have hdrop : (wire op sid tag pid ts body).drop 45 = putU32 ts ++ body :=
    drop_of (x := op :: (sid ++ (tag ++ putU32 pid))) (by simp [wire]) (by simp [hsid, htag])
  rw [timeOf, hdrop, List.take_left' (length_putU32 ts), ofNat_putU32]

lemma unwrap_wire (k : TlsAuthKey) : k.unwrap p (wire op sid tag pid ts body) =
    if computeHmac p k.inKey op sid pid ts body ≠ tag then .error (.bail "tls-auth HMAC mismatch")
    else .ok (op :: (sid ++ body), pid) := by
  have hlen : ¬ (wire op sid tag pid ts body).length < headerLen + hmacLen + replayHeaderLen := by
    simp [wire, headerLen, hmacLen, replayHeaderLen, hsid, htag]
    omega
  have hop : getU8 (wire op sid tag pid ts body) = .ok (op, _) := getU8_eq_ok.mpr rfl
  have h1 : slice (wire op sid tag pid ts body) 1 headerLen = .ok sid :=
    slice_of (x := [op]) rfl rfl (by rw [hsid]; rfl)
  have h2 : slice (wire op sid tag pid ts body) headerLen (headerLen + hmacLen) = .ok tag :=
    slice_of (x := op :: sid) rfl (by simp [hsid, headerLen]) (by rw [htag]; rfl)
  have h3 : slice (wire op sid tag pid ts body) (headerLen + hmacLen) (headerLen + hmacLen + 4) =
      .ok (putU32 pid) :=
    slice_of (x := op :: (sid ++ tag)) (r := putU32 ts ++ body) (by simp [wire])
      (by simp [hsid, htag, headerLen, hmacLen]) (by rw [length_putU32])
  have h4 : slice (wire op sid tag pid ts body) (headerLen + hmacLen + 4)
      (headerLen + hmacLen + 8) = .ok (putU32 ts) :=
    slice_of (x := op :: (sid ++ (tag ++ putU32 pid))) (r := body) (by simp [wire])
      (by simp [hsid, htag, headerLen, hmacLen]) (by rw [length_putU32])
  have h5 : sliceFrom (wire op sid tag pid ts body) (headerLen + hmacLen + replayHeaderLen) =
      .ok body :=
    sliceFrom_of (x := op :: (sid ++ (tag ++ (putU32 pid ++ putU32 ts)))) (by simp [wire])
      (by simp [hsid, htag, headerLen, hmacLen, replayHeaderLen])
  simp only [unwrap, if_neg hlen, hop, h1, h2, h3, h4, h5, toArray_of (length_putU32 _),
    Res.ok_bind, ofNat_putU32, Res.throw_bind]
  rfl

end

lemma inverse (hp : p.MacsAndStreams) (k : TlsAuthKey) :
    EnvelopeInverse (k.mirror.wrap p) (k.unwrap p) timeOf where
  complete := by
    intro inner pid ts h
    obtain ⟨op, sid, body, hsid, rfl⟩ := exists_header h
    have htag : (computeHmac p k.inKey op sid pid ts body).length = 32 := hp.hmac _ _
    refine ⟨_, wrap_cons p hsid pid ts body k.mirror, ?_⟩
    rw [mirror, unwrap_wire p hsid htag, if_neg (not_not.mpr rfl)]
  sound := by
    intro w inner pid h
    have hlen : 49 ≤ w.length := by
      by_contra hlt
      have hlt' : w.length < headerLen + hmacLen + replayHeaderLen := by
        simp [headerLen, hmacLen, replayHeaderLen]; omega
      rw [unwrap, if_pos hlt'] at h
      cases h
    obtain ⟨op, sid, tag, pid', ts, body, hsid, htag, rfl⟩ := exists_wire hlen
    rw [unwrap_wire p hsid htag, Res.guard_eq_ok] at h
    obtain ⟨hmac, h⟩ := h
    obtain ⟨rfl, rfl⟩ := Prod.mk.inj (Except.ok.inj h)
    rw [timeOf_wire hsid htag, wrap_cons p hsid, mirror, not_not.mp hmac]

end TlsAuthKey

/-! ### tls-crypt -/

namespace TlsCryptKey

variable (p : Primitives)

def mirror (k : TlsCryptKey) : TlsCryptKey :=
  ⟨k.decCipherKey, k.decHmacKey, k.encCipherKey, k.encHmacKey⟩

def header (op : UInt8) (sid : Bytes) (pid ts : UInt32) : Bytes :=
  op :: (sid ++ (putU32 pid ++ putU32 ts))

def timeOf (w : Bytes) : UInt32 := UInt32.ofNat (ofBe ((w.drop 13).take 4))

lemma exists_wire {w : Bytes} (h : 49 ≤ w.length) : ∃ op sid pid ts tag body,
    sid.length = 8 ∧ tag.length = 32 ∧ w = header op sid pid ts ++ (tag ++ body) := by
  obtain ⟨op, sid, r, hsid, rfl⟩ := exists_header (b := w) (by omega)
  have hr : 40 ≤ r.length := by simp [hsid] at h; omega
  obtain ⟨pid, r, rfl⟩ := exists_word (b := r) (by omega)
  have hr' : 36 ≤ r.length := by simp at hr; omega
  obtain ⟨ts, r, rfl⟩ := exists_word (b := r) (by omega)
  obtain ⟨tag, body, htag, rfl⟩ := exists_split (n := 32) (b := r) (by simp at hr'; omega)
  exact ⟨op, sid, pid, ts, tag, body, hsid, htag, by simp [header]⟩

section

variable {op : UInt8} {sid tag : Bytes} (hsid : sid.length = 8) (htag : tag.length = 32)
  (pid ts : UInt32) (body : Bytes)

include hsid

lemma wrap_cons (k : TlsCryptKey) : k.wrap p (op :: (sid ++ body)) pid ts =
    let tag := p.hmacSha256 k.encHmacKey (header op sid pid ts ++ body)
    .ok (header op sid pid ts ++ (tag ++ p.aesCtr k.encCipherKey (tag.take 16) body)) := by
  have hlen : ¬ (op :: (sid ++ body)).length < 9 := by simp [hsid]
  have hslice : slice (op :: (sid ++ body)) 1 9 = .ok sid :=
    slice_of (x := [op]) rfl rfl (by rw [hsid])
  have hbody : sliceFrom (op :: (sid ++ body)) 9 = .ok body :=
    sliceFrom_of (x := op :: sid) rfl (by simp [hsid])
  simp only [wrap, if_neg hlen, getU8_eq_ok.mpr rfl, Res.ok_bind, hslice, hbody, header,
    List.append_assoc, List.cons_append]
  rfl

lemma timeOf_wire (r : Bytes) : timeOf (header op sid pid ts ++ r) = ts := by
  have hdrop : (header op sid pid ts ++ r).drop 13 = putU32 ts ++ r :=
    drop_of (x := op :: (sid ++ putU32 pid)) (by simp [header]) (by simp [hsid])
  rw [timeOf, hdrop, List.take_left' (length_putU32 ts), ofNat_putU32]

include htag

lemma unwrap_wire (k : TlsCryptKey) : k.unwrap p (header op sid pid ts ++ (tag ++ body)) =
    let text := p.aesCtr k.decCipherKey (tag.take 16) body
    if p.hmacSha256 k.decHmacKey (header op sid pid ts ++ text) ≠ tag then
      .error (.bail "tls-crypt HMAC mismatch")
    else .ok (op :: (sid ++ text), pid) := by
  -- the header is authenticated as it stands; the text behind the tag is decrypted first
  have hhead : (header op sid pid ts).length = headerLen := by simp [header, headerLen, hsid]
  have hlen : ¬ (header op sid pid ts ++ (tag ++ body)).length < headerLen + tagLen := by
    simp [hhead, tagLen, htag]
  have h0 : slice (header op sid pid ts ++ (tag ++ body)) 0 headerLen =
      .ok (header op sid pid ts) :=
    slice_of (x := []) rfl rfl (by rw [hhead, Nat.zero_add])
  have hop : getU8 (header op sid pid ts) = .ok (op, _) := getU8_eq_ok.mpr rfl
  have h1 : slice (header op sid pid ts) 1 9 = .ok sid :=
    slice_of (x := [op]) rfl rfl (by rw [hsid])
  have h2 : slice (header op sid pid ts) 9 13 = .ok (putU32 pid) :=
    slice_of (x := op :: sid) rfl (by simp [hsid]) (by rw [length_putU32])
  have h3 : slice (header op sid pid ts ++ (tag ++ body)) headerLen (headerLen + tagLen) =
      .ok tag :=
    slice_of (x := header op sid pid ts) rfl hhead (by rw [htag]; rfl)
  have h4 : sliceFrom (header op sid pid ts ++ (tag ++ body)) (headerLen + tagLen) = .ok body :=
    sliceFrom_of (x := header op sid pid ts ++ tag) (by simp) (by simp [hhead, htag, tagLen])
  have h5 : slice tag 0 16 = .ok (tag.take 16) := slice_eq_ok.mpr ⟨by omega, by omega, rfl⟩
  simp only [unwrap, if_neg hlen, h0, hop, h1, h2, h3, h4, h5, toArray_of (length_putU32 _),
    Res.ok_bind, ofNat_putU32, Res.throw_bind]
  rfl

end

lemma inverse (hp : p.MacsAndStreams) (k : TlsCryptKey) :
    EnvelopeInverse (k.mirror.wrap p) (k.unwrap p) timeOf where
  complete := by
    intro inner pid ts h
    obtain ⟨op, sid, body, hsid, rfl⟩ := exists_header h
    refine ⟨_, wrap_cons p hsid pid ts body k.mirror, ?_⟩
    rw [mirror, unwrap_wire p hsid (hp.hmac _ _)]
    dsimp only
    rw [hp.aesCtr_aesCtr, if_neg (not_not.mpr rfl)]
  sound := by
    intro w inner pid h
    have hlen : 49 ≤ w.length := by
      by_contra hlt
      have hlt' : w.length < headerLen + tagLen := by
        simp [headerLen, tagLen]; omega
      rw [unwrap, if_pos hlt'] at h
      cases h
    obtain ⟨op, sid, pid', ts, tag, body, hsid, htag, rfl⟩ := exists_wire hlen
    rw [unwrap_wire p hsid htag, Res.guard_eq_ok] at h
    obtain ⟨hmac, h⟩ := h
    obtain ⟨rfl, rfl⟩ := Prod.mk.inj (Except.ok.inj h)
    -- the tag fixes the counter block, so encrypting the text again gives the body back
    rw [timeOf_wire hsid, wrap_cons p hsid, mirror]
    dsimp only
    rw [not_not.mp hmac, hp.aesCtr_aesCtr]

end TlsCryptKey

/-- **The envelopes are authenticated in every byte.** For each end of each key, what the other
end wraps unwraps to the inner packet and its id, and a packet that unwraps is byte for byte
what the other end makes of the result at the time the packet carries. -/
theorem wrap_unwrap_inverse {p : Primitives} (hp : p.MacsAndStreams) :
    (∀ k : TlsAuthKey, EnvelopeInverse (k.mirror.wrap p) (k.unwrap p) TlsAuthKey.timeOf) ∧
      ∀ k : TlsCryptKey, EnvelopeInverse (k.mirror.wrap p) (k.unwrap p) TlsCryptKey.timeOf :=
  ⟨TlsAuthKey.inverse p hp, TlsCryptKey.inverse p hp⟩

lemma macsAndStreams_plainPrims : plainPrims.MacsAndStreams where
  hmac _ _ := List.length_replicate
  ctr := by
    refine ⟨fun _ _ _ => 0, fun _ _ d => ?_⟩
    apply List.ext_getElem
    · simp [plainPrims]
    · intro i h1 h2
      simp [plainPrims]

/-- A packet of ten bytes, wrapped at one end and unwrapped at the other. -/
theorem wrap_unwrap_inverse_plain :
    let inner : Bytes := [0x20, 1, 2, 3, 4, 5, 6, 7, 8, 9]
    (∃ w, (TlsAuthKey.mirror ⟨[1], [2]⟩).wrap plainPrims inner 3 4 = .ok w ∧
        TlsAuthKey.unwrap plainPrims ⟨[1], [2]⟩ w = .ok (inner, 3)) ∧
      ∃ w, (TlsCryptKey.mirror ⟨[1], [2], [3], [4]⟩).wrap plainPrims inner 3 4 = .ok w ∧
        TlsCryptKey.unwrap plainPrims ⟨[1], [2], [3], [4]⟩ w = .ok (inner, 3) :=
  ⟨((wrap_unwrap_inverse macsAndStreams_plainPrims).1 _).complete _ 3 4 (by decide),
    ((wrap_unwrap_inverse macsAndStreams_plainPrims).2 _).complete _ 3 4 (by decide)⟩

end Javs
