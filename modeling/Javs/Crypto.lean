import Javs.Bytes

/-!
Data-channel encryption, over cryptographic primitives that stay parameters.
-/

namespace Javs

open Bytes

/-- The primitives of the crypto crates: AES-256-GCM on key, nonce, associated data and
text, the HMACs on key and message, and AES-256-CTR on key, initial counter and text. -/
structure Primitives where
  gcmEncrypt : Bytes → Bytes → Bytes → Bytes → Option Bytes
  gcmDecrypt : Bytes → Bytes → Bytes → Bytes → Option Bytes
  hmacMd5 : Bytes → Bytes → Bytes
  hmacSha1 : Bytes → Bytes → Bytes
  hmacSha256 : Bytes → Bytes → Bytes
  aesCtr : Bytes → Bytes → Bytes → Bytes

def keySize : ℕ := 32
def implicitIvSize : ℕ := 8
def tagSize : ℕ := 16
def keymatLen : ℕ := 256

structure DataCipher where
  encKey : Bytes
  decKey : Bytes
  encIv : Bytes
  decIv : Bytes
  deriving DecidableEq, Repr

namespace DataCipher

/-- Key material is `keys[0].cipher | keys[0].hmac | keys[1].cipher | keys[1].hmac`, 64 bytes
each; the client encrypts with `keys[0]`. -/
def fromKeymatServer (km : Bytes) : DataCipher where
  encKey := (km.drop 128).take keySize
  decKey := km.take keySize
  encIv := (km.drop 192).take implicitIvSize
  decIv := (km.drop 64).take implicitIvSize

def sealNonce (c : DataCipher) (packetId : UInt32) : Bytes := putU32 packetId ++ c.encIv
def openNonce (c : DataCipher) (packetId : UInt32) : Bytes := putU32 packetId ++ c.decIv

variable (p : Primitives)

/-- The wire carries `tag || ciphertext`, the AEAD produces `ciphertext || tag`. -/
def seal' (c : DataCipher) (packetId : UInt32) (aad plaintext : Bytes) : Res Bytes :=
  match p.gcmEncrypt c.encKey (c.sealNonce packetId) aad plaintext with
  | none => .error (.bail "aes-gcm seal")
  | some ctThenTag =>
    if ctThenTag.length < tagSize then .error (.panic "attempt to subtract with overflow")
    else
      let split := ctThenTag.length - tagSize
      .ok (ctThenTag.drop split ++ ctThenTag.take split)

def open' (c : DataCipher) (packetId : UInt32) (aad wire : Bytes) : Res Bytes := do
  if wire.length < tagSize then throw (.bail "ciphertext shorter than auth tag")
  let (tag, ct) ← splitAt tagSize wire
  match p.gcmDecrypt c.decKey (c.openNonce packetId) aad (ct ++ tag) with
  | none => throw (.bail "aes-gcm open")
  | some plaintext => return plaintext

lemma open'_of_le (c : DataCipher) (packetId : UInt32) (aad : Bytes) {wire : Bytes}
    (h : tagSize ≤ wire.length) : c.open' p packetId aad wire =
      match p.gcmDecrypt c.decKey (c.openNonce packetId) aad
        (wire.drop tagSize ++ wire.take tagSize) with
      | none => .error (.bail "aes-gcm open")
      | some plaintext => .ok plaintext := by
  rw [open', if_neg (by omega), splitAt, if_pos h]
  rfl

lemma open'_of_lt (c : DataCipher) (packetId : UInt32) (aad : Bytes) {wire : Bytes}
    (h : wire.length < tagSize) :
    c.open' p packetId aad wire = .error (.bail "ciphertext shorter than auth tag") := by
  rw [open', if_pos h]
  rfl

end DataCipher

/-- What is assumed of AES-GCM: a ciphertext opens under one key, nonce and AAD only. -/
def Primitives.OpensOnce (p : Primitives) : Prop :=
  ∀ k n a k' n' a' ct, (p.gcmDecrypt k n a ct).isSome → (p.gcmDecrypt k' n' a' ct).isSome →
    k = k' ∧ n = n' ∧ a = a'

/-! ### Primitives without cryptography -/

def frame (b : Bytes) : Bytes := List.replicate b.length 1 ++ [0] ++ b

def plainPrims : Primitives where
  gcmEncrypt k n a text := some (frame k ++ frame n ++ frame a ++ text)
  gcmDecrypt k n a ct :=
    let head := frame k ++ frame n ++ frame a
    if ct.take head.length = head then some (ct.drop head.length) else none
  hmacMd5 k _ := List.replicate 16 (k.headD 0)
  hmacSha1 _ _ := List.replicate 20 0
  hmacSha256 _ _ := List.replicate 32 0
  aesCtr _ _ d := d

lemma replicate_append_inj {m n : ℕ} {x y : Bytes}
    (h : List.replicate m 1 ++ 0 :: x = List.replicate n 1 ++ 0 :: y) : m = n ∧ x = y := by
  induction m generalizing n with
  | zero =>
    rcases n with _ | n
    · exact ⟨rfl, (List.cons.inj h).2⟩
    · exact absurd (List.cons.inj h).1 (by decide)
  | succ m ih =>
    rcases n with _ | n
    · exact absurd (List.cons.inj h).1 (by decide)
    · obtain ⟨rfl, hxy⟩ := ih (List.cons.inj h).2
      exact ⟨rfl, hxy⟩

lemma frame_append_inj {b c x y : Bytes} (h : frame b ++ x = frame c ++ y) : b = c ∧ x = y := by
  simp only [frame, List.append_assoc, List.singleton_append] at h
  obtain ⟨hlen, hrest⟩ := replicate_append_inj h
  exact List.append_inj hrest hlen

lemma opensOnce_plainPrims : plainPrims.OpensOnce := by
  have hsplit : ∀ k n a ct, (plainPrims.gcmDecrypt k n a ct).isSome →
      ∃ r, ct = frame k ++ (frame n ++ (frame a ++ r)) := by
    intro k n a ct h
    simp only [plainPrims] at h
    split at h
    · rename_i hhead
      refine ⟨ct.drop (frame k ++ frame n ++ frame a).length, ?_⟩
      conv_lhs => rw [← List.take_append_drop (frame k ++ frame n ++ frame a).length ct, hhead]
      simp only [List.append_assoc]
    · cases h
  intro k n a k' n' a' ct h h'
  obtain ⟨r, hr⟩ := hsplit k n a ct h
  obtain ⟨r', hr'⟩ := hsplit k' n' a' ct h'
  obtain ⟨hk, h1⟩ := frame_append_inj (hr.symm.trans hr')
  obtain ⟨hn, h2⟩ := frame_append_inj h1
  exact ⟨hk, hn, (frame_append_inj h2).1⟩

end Javs
