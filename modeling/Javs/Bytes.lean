import Mathlib.Algebra.Group.Nat.Defs
import Mathlib.Data.List.Basic
import Mathlib.Data.List.Induction
import Mathlib.Tactic.Lemma

/-!
Byte strings, big-endian integers and the two ways a function of the server leaves early.
-/

namespace Javs

abbrev Bytes := List UInt8

/-- Decoded text. Rust's `String` is a sequence of scalar values; so is this. -/
abbrev Text := List Char

/-- `bail` is an error handed to the caller; `panic` aborts the task that runs the code. -/
inductive Err
  | bail (msg : String)
  | panic (msg : String)
  deriving DecidableEq, Repr

abbrev Res (α : Type) := Except Err α

lemma Res.bind_eq_ok {α β : Type} {x : Res α} {f : α → Res β} {c : β} :
    (x >>= f) = .ok c ↔ ∃ a, x = .ok a ∧ f a = .ok c := by
  cases x with
  | error e => simp [bind, Except.bind]
  | ok a => simp [bind, Except.bind]

lemma Res.ok_bind {α β : Type} (a : α) (f : α → Res β) : ((.ok a : Res α) >>= f) = f a := rfl

lemma Res.pure_bind {α β : Type} (a : α) (f : α → Res β) : ((pure a : Res α) >>= f) = f a := rfl

lemma Res.throw_bind {α β : Type} (e : Err) (f : α → Res β) :
    ((throw e : Res α) >>= f) = .error e := rfl

lemma Res.guard_eq_ok {α : Type} {c : Prop} [Decidable c] {e : Err} {x : Res α} {y : α} :
    (if c then .error e else x) = .ok y ↔ ¬ c ∧ x = .ok y := by
  split <;> simp_all

namespace Bytes

/-- The `k` low-order bytes of `n`, most significant first. -/
def be : ℕ → ℕ → Bytes
  | 0, _ => []
  | k + 1, n => be k (n / 256) ++ [UInt8.ofNat n]

def ofBe (b : Bytes) : ℕ := b.foldl (fun n x => 256 * n + x.toNat) 0

lemma length_be (k n : ℕ) : (be k n).length = k := by
  induction k generalizing n with
  | zero => rfl
  | succ k ih => simp [be, ih]

lemma ofBe_snoc (b : Bytes) (x : UInt8) : ofBe (b ++ [x]) = 256 * ofBe b + x.toNat := by
  simp [ofBe, List.foldl_append]

lemma ofBe_be {k n : ℕ} (h : n < 256 ^ k) : ofBe (be k n) = n := by
  induction k generalizing n with
  | zero =>
    have h0 : n = 0 := by simpa using h
    rw [h0]
    rfl
  | succ k ih =>
    have hdiv : n / 256 < 256 ^ k := Nat.div_lt_of_lt_mul (by rw [← Nat.pow_succ']; exact h)
    have hlow : (UInt8.ofNat n).toNat = n % 256 := by simp
    rw [be, ofBe_snoc, ih hdiv, hlow]
    omega

def putU16 (n : UInt16) : Bytes := be 2 n.toNat
def putU32 (n : UInt32) : Bytes := be 4 n.toNat
def putU64 (n : UInt64) : Bytes := be 8 n.toNat

@[simp] lemma length_putU16 (n : UInt16) : (putU16 n).length = 2 := length_be 2 n.toNat
@[simp] lemma length_putU32 (n : UInt32) : (putU32 n).length = 4 := length_be 4 n.toNat
@[simp] lemma length_putU64 (n : UInt64) : (putU64 n).length = 8 := length_be 8 n.toNat

lemma putU32_injective : Function.Injective putU32 := by
  intro x y h
  have hx : ofBe (putU32 x) = x.toNat := ofBe_be (by simpa using x.toNat_lt)
  have hy : ofBe (putU32 y) = y.toNat := ofBe_be (by simpa using y.toNat_lt)
  rw [h, hy] at hx
  exact UInt32.toNat_inj.mp hx.symm

def slice (b : Bytes) (i j : ℕ) : Res Bytes :=
  if i ≤ j ∧ j ≤ b.length then .ok ((b.take j).drop i)
  else .error (.panic "slice index out of range")

def sliceFrom (b : Bytes) (i : ℕ) : Res Bytes := slice b i b.length

/-- `try_into().unwrap()`: the bytes as an array of `k` of them. -/
def toArray (k : ℕ) (b : Bytes) : Res Bytes :=
  if b.length = k then .ok b else .error (.panic "called Result::unwrap() on an Err value")

def splitAt (k : ℕ) (b : Bytes) : Res (Bytes × Bytes) :=
  if k ≤ b.length then .ok (b.take k, b.drop k) else .error (.panic "mid > len")

/-- A subtraction of unsigned integers. -/
def checkedSub (m n : ℕ) : Res ℕ :=
  if n ≤ m then .ok (m - n) else .error (.panic "attempt to subtract with overflow")

/-- `Buf::get_*`: the first `k` bytes and what is left, panicking on a short buffer. -/
def advance (k : ℕ) (b : Bytes) : Res (Bytes × Bytes) :=
  if k ≤ b.length then .ok (b.take k, b.drop k) else .error (.panic "buffer advance past end")

def getU8 (b : Bytes) : Res (UInt8 × Bytes) := do
  let (x, r) ← advance 1 b
  return (UInt8.ofNat (ofBe x), r)

def getU32 (b : Bytes) : Res (UInt32 × Bytes) := do
  let (x, r) ← advance 4 b
  return (UInt32.ofNat (ofBe x), r)

def getU64 (b : Bytes) : Res (UInt64 × Bytes) := do
  let (x, r) ← advance 8 b
  return (UInt64.ofNat (ofBe x), r)

/-- `slice::chunks`: consecutive pieces of length `n`, the last one possibly shorter. -/
def chunks (n : ℕ) (b : Bytes) : List Bytes :=
  (List.range ((b.length + n - 1) / n)).map fun i => (b.drop (i * n)).take n

def ascii (s : String) : Bytes := s.toList.map fun c => UInt8.ofNat c.toNat

/-! ### Reading back -/

lemma be_ofBe (b : Bytes) : be b.length (ofBe b) = b := by
  induction b using List.reverseRecOn with
  | nil => rfl
  | append_singleton b x ih =>
    have hx := x.toNat_lt
    have hdiv : (256 * ofBe b + x.toNat) / 256 = ofBe b := by omega
    have hlow : UInt8.ofNat (256 * ofBe b + x.toNat) = x := by
      apply UInt8.toNat_inj.mp
      rw [UInt8.toNat_ofNat']
      omega
    rw [List.length_append, List.length_singleton, be, ofBe_snoc, hdiv, hlow, ih]

lemma ofBe_lt (b : Bytes) : ofBe b < 256 ^ b.length := by
  induction b using List.reverseRecOn with
  | nil => simp [ofBe]
  | append_singleton b x ih =>
    have hx := x.toNat_lt
    rw [ofBe_snoc, List.length_append, List.length_singleton, Nat.pow_succ]
    omega

lemma putU32_ofNat {b : Bytes} (h : b.length = 4) : putU32 (UInt32.ofNat (ofBe b)) = b := by
  have hlt := ofBe_lt b
  rw [h] at hlt
  rw [putU32, UInt32.toNat_ofNat_of_lt' (by simpa using hlt), ← h, be_ofBe]

lemma putU64_ofNat {b : Bytes} (h : b.length = 8) : putU64 (UInt64.ofNat (ofBe b)) = b := by
  have hlt := ofBe_lt b
  rw [h] at hlt
  rw [putU64, UInt64.toNat_ofNat_of_lt' (by simpa using hlt), ← h, be_ofBe]

lemma ofNat_putU32 (n : UInt32) : UInt32.ofNat (ofBe (putU32 n)) = n := by
  rw [putU32, ofBe_be (by simpa using n.toNat_lt), UInt32.ofNat_toNat]

lemma ofNat_putU64 (n : UInt64) : UInt64.ofNat (ofBe (putU64 n)) = n := by
  rw [putU64, ofBe_be (by simpa using n.toNat_lt), UInt64.ofNat_toNat]

lemma advance_eq_ok {k : ℕ} {b x r : Bytes} :
    advance k b = .ok (x, r) ↔ x.length = k ∧ b = x ++ r := by
  unfold advance
  constructor
  · intro h
    split at h
    · obtain ⟨rfl, rfl⟩ := Prod.mk.inj (Except.ok.inj h)
      exact ⟨by simp; omega, (List.take_append_drop k b).symm⟩
    · cases h
  · rintro ⟨rfl, rfl⟩
    simp

lemma field_eq_ok {α : Type} {k : ℕ} (read : Bytes → α) (write : α → Bytes)
    (hlen : ∀ n, (write n).length = k) (hread : ∀ n, read (write n) = n)
    (hwrite : ∀ x : Bytes, x.length = k → write (read x) = x) {b r : Bytes} {n : α} :
    (do let (x, r) ← advance k b; return (read x, r) : Res (α × Bytes)) = .ok (n, r) ↔
      b = write n ++ r := by
  constructor
  · intro h
    obtain ⟨⟨x, s⟩, ha, hn⟩ := Res.bind_eq_ok.mp h
    obtain ⟨rfl, rfl⟩ := Prod.mk.inj (Except.ok.inj hn)
    obtain ⟨hx, rfl⟩ := advance_eq_ok.mp ha
    rw [hwrite x hx]
  · rintro rfl
    refine Res.bind_eq_ok.mpr ⟨(write n, r), advance_eq_ok.mpr ⟨hlen n, rfl⟩, ?_⟩
    exact congrArg (fun m => Except.ok (m, r)) (hread n)

lemma getU8_eq_ok {b : Bytes} {x : UInt8} {r : Bytes} : getU8 b = .ok (x, r) ↔ b = x :: r := by
  refine field_eq_ok (fun x => UInt8.ofNat (ofBe x)) (fun x => [x]) ?_ ?_ ?_
  · intro _
    rfl
  · intro x
    simp [ofBe]
  · intro x hx
    obtain ⟨y, rfl⟩ := List.length_eq_one_iff.mp hx
    simp [ofBe]

lemma getU32_eq_ok {b : Bytes} {n : UInt32} {r : Bytes} :
    getU32 b = .ok (n, r) ↔ b = putU32 n ++ r :=
  field_eq_ok (fun x => UInt32.ofNat (ofBe x)) putU32 length_putU32 ofNat_putU32
    fun _ => putU32_ofNat

lemma getU64_eq_ok {b : Bytes} {n : UInt64} {r : Bytes} :
    getU64 b = .ok (n, r) ↔ b = putU64 n ++ r :=
  field_eq_ok (fun x => UInt64.ofNat (ofBe x)) putU64 length_putU64 ofNat_putU64
    fun _ => putU64_ofNat

lemma getU32_putU32 (n : UInt32) (r : Bytes) : getU32 (putU32 n ++ r) = .ok (n, r) :=
  getU32_eq_ok.mpr rfl

lemma getU64_putU64 (n : UInt64) (r : Bytes) : getU64 (putU64 n ++ r) = .ok (n, r) :=
  getU64_eq_ok.mpr rfl

lemma slice_eq_ok {b x : Bytes} {i j : ℕ} :
    slice b i j = .ok x ↔ i ≤ j ∧ j ≤ b.length ∧ x = (b.take j).drop i := by
  unfold slice
  constructor
  · intro h
    split at h
    · rename_i hij
      exact ⟨hij.1, hij.2, (Except.ok.inj h).symm⟩
    · cases h
  · rintro ⟨hij, hj, rfl⟩
    rw [if_pos ⟨hij, hj⟩]

lemma slice_append {b : Bytes} {i j : ℕ} (hj : j ≤ b.length) (more : Bytes) :
    slice (b ++ more) i j = slice b i j := by
  unfold slice
  rw [List.take_append_of_le_length hj, List.length_append]
  simp [hj, Nat.le_add_right_of_le hj]

lemma slice_of {b x y r : Bytes} {i j : ℕ} (hb : b = x ++ (y ++ r)) (hi : x.length = i)
    (hj : i + y.length = j) : slice b i j = .ok y := by
  subst hb hi hj
  refine slice_eq_ok.mpr ⟨by omega, by simp, ?_⟩
  rw [← List.append_assoc, ← List.length_append, List.take_left, List.drop_left]

lemma sliceFrom_of {b x r : Bytes} {i : ℕ} (hb : b = x ++ r) (hi : x.length = i) :
    sliceFrom b i = .ok r :=
  slice_of (r := []) (by rw [hb, List.append_nil]) hi (by rw [hb, List.length_append, hi])

lemma toArray_of {k : ℕ} {b : Bytes} (h : b.length = k) : toArray k b = .ok b := if_pos h

lemma checkedSub_of {m n : ℕ} (h : n ≤ m) : checkedSub m n = .ok (m - n) := if_pos h

lemma drop_of {b x r : Bytes} {i : ℕ} (hb : b = x ++ r) (hi : x.length = i) : b.drop i = r := by
  rw [hb, ← hi, List.drop_left]

lemma exists_split {n : ℕ} {b : Bytes} (h : n ≤ b.length) : ∃ x r, x.length = n ∧ b = x ++ r :=
  ⟨b.take n, b.drop n, by simp [h], (List.take_append_drop n b).symm⟩

lemma exists_word {b : Bytes} (h : 4 ≤ b.length) : ∃ n r, b = putU32 n ++ r := by
  obtain ⟨x, r, hx, rfl⟩ := exists_split h
  exact ⟨_, r, by rw [putU32_ofNat hx]⟩

end Bytes

end Javs
