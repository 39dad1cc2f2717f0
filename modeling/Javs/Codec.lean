import Javs.Protocol

/-!
The control packet's encoder and parser invert each other on the whole format.
-/

namespace Javs

open Bytes

/-! ### The first byte -/

lemma toNat_shiftRight_three (x : UInt8) : (x >>> 3).toNat = x.toNat / 8 := by
  rw [UInt8.toNat_shiftRight]
  exact Nat.shiftRight_eq_div_pow x.toNat 3

lemma toNat_and_seven (x : UInt8) : (x &&& 7).toNat = x.toNat % 8 := by
  rw [UInt8.toNat_and]
  exact Nat.and_two_pow_sub_one_eq_mod x.toNat 3

lemma and_seven_lt (x : UInt8) : x &&& 7 < 8 := by
  show (x &&& 7).toNat < 8
  rw [toNat_and_seven]
  exact Nat.mod_lt _ (by decide)

lemma toNat_pack {v k : UInt8} (hv : v.toNat < 32) :
    ((v <<< 3) ||| (k &&& 7)).toNat = 8 * v.toNat + k.toNat % 8 := by
  have hshift : (v <<< 3).toNat = v.toNat <<< 3 := by
    rw [UInt8.toNat_shiftLeft]
    exact Nat.mod_eq_of_lt (by simp [Nat.shiftLeft_eq]; omega)
  have hlow : k.toNat % 8 < 2 ^ 3 := Nat.mod_lt _ (by decide)
  rw [UInt8.toNat_or, toNat_and_seven, hshift, ← Nat.shiftLeft_add_eq_or_of_lt hlow,
    Nat.shiftLeft_eq]
  omega

lemma pack_high {v k : UInt8} (hv : v.toNat < 32) : ((v <<< 3) ||| (k &&& 7)) >>> 3 = v := by
  apply UInt8.toNat_inj.mp
  rw [toNat_shiftRight_three, toNat_pack hv]
  omega

lemma pack_low {v k : UInt8} (hv : v.toNat < 32) (hk : k < 8) :
    ((v <<< 3) ||| (k &&& 7)) &&& 7 = k := by
  have hk' : k.toNat < 8 := hk
  apply UInt8.toNat_inj.mp
  rw [toNat_and_seven, toNat_pack hv]
  omega

lemma pack_split (x : UInt8) : ((x >>> 3) <<< 3) ||| ((x &&& 7) &&& 7) = x := by
  have hx := x.toNat_lt
  apply UInt8.toNat_inj.mp
  rw [toNat_pack (by rw [toNat_shiftRight_three]; omega), toNat_shiftRight_three, toNat_and_seven]
  omega

/-! ### Opcodes -/

namespace OpCode

lemma toU8_lt (op : OpCode) : op.toU8.toNat < 32 := by cases op <;> decide

lemma fromU8_eq_ok {v : UInt8} {op : OpCode} : fromU8 v = .ok op ↔ v = op.toU8 := by
  constructor
  · intro h
    apply UInt8.toNat_inj.mp
    unfold fromU8 at h
    split at h <;> cases h <;> assumption
  · rintro rfl
    cases op <;> rfl

end OpCode

/-! ### Control packets -/

namespace ControlPacket

/-- The packets the format can carry. -/
structure WellFormed (p : ControlPacket) : Prop where
  control : p.op.isControl
  keyId : p.keyId < 8
  acks : p.acks.length ≤ 255
  remote : p.remoteSessionId.isSome ↔ p.acks ≠ []
  packetId : p.packetId = none ↔ p.op = .ackV1

lemma readAcks_eq_ok {n : ℕ} {b r : Bytes} {acks : List UInt32} :
    readAcks n b = .ok (acks, r) ↔ acks.length = n ∧ b = acks.flatMap putU32 ++ r := by
  induction n generalizing b acks r with
  | zero =>
    constructor
    · intro h
      obtain ⟨rfl, rfl⟩ := Prod.mk.inj (Except.ok.inj h)
      exact ⟨rfl, rfl⟩
    · rintro ⟨hlen, rfl⟩
      rw [List.length_eq_zero_iff.mp hlen]
      rfl
  | succ n ih =>
    simp only [readAcks, Res.bind_eq_ok, Prod.exists, getU32_eq_ok, ih]
    constructor
    · rintro ⟨a, _, rfl, as, _, ⟨rfl, rfl⟩, h⟩
      obtain ⟨rfl, rfl⟩ := Prod.mk.inj (Except.ok.inj h)
      simp
    · rintro ⟨hlen, rfl⟩
      obtain ⟨a, as, rfl⟩ := List.exists_cons_of_length_eq_add_one hlen
      refine ⟨a, as.flatMap putU32 ++ r, by simp, as, r, ⟨by simpa using hlen, rfl⟩, rfl⟩

lemma ofNat_length {acks : List UInt32} {n : UInt8} (h : acks.length = n.toNat) :
    UInt8.ofNat acks.length = n := by
  rw [h, UInt8.ofNat_toNat]

lemma parse_sound {b : Bytes} {p : ControlPacket} (h : parse b = .ok p) :
    p.WellFormed ∧ p.encode = b := by
  simp only [parse, Res.throw_bind, Res.pure_bind, Res.guard_eq_ok, Res.bind_eq_ok, Prod.exists,
    getU8_eq_ok, getU64_eq_ok, readAcks_eq_ok, OpCode.fromU8_eq_ok] at h
  obtain ⟨_, first, _, rfl, op, hop, hctl, _, sid, _, rfl, _, count, _, rfl, _, acks, b,
    ⟨hacks, rfl⟩, h⟩ := h
  have hctl' : op.isControl := by simpa using hctl
  have hkey : first &&& 7 < 8 := and_seven_lt first
  have hlen : acks.length ≤ 255 := by
    have := count.toNat_lt
    omega
  have hfirst : (op.toU8 <<< 3) ||| ((first &&& 7) &&& 7) = first := by
    rw [← hop, pack_split]
  have hempty : acks = [] ↔ ¬ count > 0 := by
    rw [gt_iff_lt, UInt8.lt_iff_toNat_lt, ← hacks, ← List.length_eq_zero_iff]
    simp
  -- The remote session id is read if there are acks, the packet id unless this is an ack.
  by_cases hcount : count > 0 <;> by_cases hack : op = .ackV1
  · simp only [hcount, hack, if_true, ne_eq, not_true, if_false, Res.guard_eq_ok, Res.bind_eq_ok,
      Prod.exists, getU64_eq_ok] at h
    obtain ⟨_, remote, _, rfl, h⟩ := h
    obtain rfl := Except.ok.inj h
    exact ⟨⟨hack ▸ hctl', hkey, hlen, by simp [hempty, hcount], by simp⟩,
      by simp [encode, ← hack, hfirst, ofNat_length hacks, hempty, hcount]⟩
  · simp only [hcount, hack, if_true, ne_eq, not_false_eq_true, Res.guard_eq_ok, Res.bind_eq_ok,
      Prod.exists, getU64_eq_ok, getU32_eq_ok] at h
    obtain ⟨_, remote, _, rfl, _, pid, _, rfl, h⟩ := h
    obtain rfl := Except.ok.inj h
    exact ⟨⟨hctl', hkey, hlen, by simp [hempty, hcount], by simp [hack]⟩,
      by simp [encode, hfirst, ofNat_length hacks, hempty, hcount]⟩
  · simp only [hcount, hack, ne_eq, not_true, if_false] at h
    obtain rfl := Except.ok.inj h
    exact ⟨⟨hack ▸ hctl', hkey, hlen, by simp [hempty, hcount], by simp⟩,
      by simp [encode, ← hack, hfirst, ofNat_length hacks, hempty, hcount]⟩
  · simp only [hcount, hack, if_false, ne_eq, not_false_eq_true, if_true, Res.guard_eq_ok,
      Res.bind_eq_ok, Prod.exists, getU32_eq_ok] at h
    obtain ⟨_, pid, _, rfl, h⟩ := h
    obtain rfl := Except.ok.inj h
    exact ⟨⟨hctl', hkey, hlen, by simp [hempty, hcount], by simp [hack]⟩,
      by simp [encode, hfirst, ofNat_length hacks, hempty, hcount]⟩

lemma parse_encode {p : ControlPacket} (h : p.WellFormed) : parse p.encode = .ok p := by
  obtain ⟨op, keyId, sid, acks, remote, pid, payload⟩ := p
  obtain ⟨hctl, hkey, hlen, hremote, hpid⟩ := h
  simp only at hctl hkey hlen hremote hpid
  have hcount : acks.length = (UInt8.ofNat acks.length).toNat := by
    rw [UInt8.toNat_ofNat']
    omega
  have hpos : UInt8.ofNat acks.length > 0 ↔ acks ≠ [] := by
    rw [gt_iff_lt, UInt8.lt_iff_toNat_lt, ← hcount, ← List.length_pos_iff]
    rfl
  have hacks : (acks.flatMap putU32).length = acks.length * 4 := by
    simp [List.length_flatMap, length_putU32]
  simp only [encode, List.append_assoc, List.singleton_append]
  -- The two optional fields and the payload stay folded until the fixed part is read.
  generalize htail : (if acks.isEmpty = true then [] else putU64 (remote.getD 0)) ++ _ = tail
  simp only [parse, Res.throw_bind, Res.pure_bind, Res.guard_eq_ok, Res.bind_eq_ok, Prod.exists,
    getU8_eq_ok, getU64_eq_ok, readAcks_eq_ok, OpCode.fromU8_eq_ok]
  refine ⟨by simp, _, _, rfl, op, pack_high op.toU8_lt, by simp [hctl], by simp, sid, _, rfl,
    by simp, _, _, rfl, by simp [← hcount, hacks], acks, tail, ⟨hcount, rfl⟩, ?_⟩
  rw [pack_low op.toU8_lt hkey]
  subst htail
  rcases remote with _ | remote <;> rcases pid with _ | pid
  · have hnil : acks = [] := by simpa using hremote
    have hack : op = .ackV1 := by simpa using hpid
    rw [if_neg (hpos.not.mpr (not_not.mpr hnil))]
    simp only [hnil, hack, List.isEmpty_nil, if_true, List.nil_append, ne_eq, not_true, if_false]
    rfl
  · have hnil : acks = [] := by simpa using hremote
    have hack : op ≠ .ackV1 := by simpa using hpid
    rw [if_neg (hpos.not.mpr (not_not.mpr hnil))]
    simp only [hnil, hack, List.isEmpty_nil, if_true, List.nil_append, ne_eq, not_false_eq_true,
      Res.guard_eq_ok, getU32_putU32]
    exact ⟨by simp, rfl⟩
  · have hnil : acks ≠ [] := by simpa using hremote
    have hack : op = .ackV1 := by simpa using hpid
    simp only [hpos, hnil, hack, List.isEmpty_iff, if_true, if_false, ne_eq, not_true,
      not_false_eq_true, Option.getD_some, List.nil_append, Res.guard_eq_ok, getU64_putU64]
    exact ⟨by simp, rfl⟩
  · have hnil : acks ≠ [] := by simpa using hremote
    have hack : op ≠ .ackV1 := by simpa using hpid
    simp only [hpos, hnil, hack, List.isEmpty_iff, if_true, if_false, ne_eq, not_false_eq_true,
      Option.getD_some, Res.guard_eq_ok, Res.ok_bind, getU64_putU64, getU32_putU32]
    exact ⟨by simp, by simp, rfl⟩

/-- **Encoder and parser are mutually inverse.** Every packet the format can carry reads back
as itself, and whatever the parser accepts is such a packet and its encoding, byte for byte. -/
theorem encode_parse_inverse :
    (∀ p : ControlPacket, p.WellFormed → parse p.encode = .ok p) ∧
      ∀ (b : Bytes) (p : ControlPacket), parse b = .ok p → p.WellFormed ∧ p.encode = b :=
  ⟨fun _ => parse_encode, fun _ _ => parse_sound⟩

/-- An acknowledgement of two packets, read from its bytes and written back. -/
theorem encode_parse_inverse_twoAcks :
    let b : Bytes :=
      [0x2d, 0, 0, 0, 0, 0, 0, 0, 7, 2, 0, 0, 0, 1, 0, 0, 0, 2, 0, 0, 0, 0, 0, 0, 0, 9]
    let p : ControlPacket := ⟨.ackV1, 5, 7, [1, 2], some 9, none, []⟩
    p.WellFormed ∧ p.encode = b ∧ parse p.encode = .ok p := by
  have hsound := encode_parse_inverse.2
    [0x2d, 0, 0, 0, 0, 0, 0, 0, 7, 2, 0, 0, 0, 1, 0, 0, 0, 2, 0, 0, 0, 0, 0, 0, 0, 9]
    ⟨.ackV1, 5, 7, [1, 2], some 9, none, []⟩ rfl
  exact ⟨hsound.1, hsound.2, encode_parse_inverse.1 _ hsound.1⟩

end ControlPacket

end Javs
