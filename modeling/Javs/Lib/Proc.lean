import Mathlib.Logic.Relation
import Mathlib.Tactic.Lemma

/-!
Fallible programs on a state.

A program reads and writes a state and may leave early with an error; what it wrote before
leaving stays written. Beside the monad there is one judgement, `Meets`: from a state that
satisfies the precondition every run, failing ones included, is a sequence of steps of a
given relation, and a run that returns ends in the postcondition. An invariant of the
relation is then an invariant of the program, wherever it stops. Where the states in between
do not matter there is `Ends`, a postcondition for returning and one for failing; where only
the kind of failure matters there is `Safe`, and where only a part of the state matters that
the program does not write there is `Keeps`.
-/

namespace Javs.Lib

open Relation

/-- A program on the states `σ` that returns an `α` or fails with an `ε`. -/
def Proc (σ ε α : Type) : Type := σ → Except ε α × σ

namespace Proc

variable {σ ε α β : Type}

instance : Monad (Proc σ ε) where
  pure a := fun s => (.ok a, s)
  bind m f := fun s =>
    match m s with
    | (.ok a, t) => f a t
    | (.error e, t) => (.error e, t)

instance : MonadStateOf σ (Proc σ ε) where
  get := fun s => (.ok s, s)
  set t := fun _ => (.ok (), t)
  modifyGet f := fun s => (.ok (f s).1, (f s).2)

instance : MonadExceptOf ε (Proc σ ε) where
  throw e := fun s => (.error e, s)
  tryCatch m f := fun s =>
    match m s with
    | (.ok a, t) => (.ok a, t)
    | (.error e, t) => f e t

def ofExcept (x : Except ε α) : Proc σ ε α := fun s => (x, s)

@[simp] lemma pure_apply (a : α) (s : σ) : (pure a : Proc σ ε α) s = (.ok a, s) := rfl
@[simp] lemma throw_apply (e : ε) (s : σ) : (throw e : Proc σ ε α) s = (.error e, s) := rfl
@[simp] lemma get_apply (s : σ) : (get : Proc σ ε σ) s = (.ok s, s) := rfl
@[simp] lemma set_apply (s t : σ) : (set t : Proc σ ε PUnit) s = (.ok (), t) := rfl
@[simp] lemma modify_apply (f : σ → σ) (s : σ) :
    (modify f : Proc σ ε PUnit) s = (.ok (), f s) := rfl
@[simp] lemma ofExcept_apply (x : Except ε α) (s : σ) : (ofExcept x : Proc σ ε α) s = (x, s) := rfl

lemma ofExcept_eq_ok {x : Except ε α} {a : α} {s t : σ} :
    (ofExcept x : Proc σ ε α) s = (.ok a, t) ↔ x = .ok a ∧ s = t := by
  rw [ofExcept_apply, Prod.mk.injEq]

lemma bind_apply (m : Proc σ ε α) (f : α → Proc σ ε β) (s : σ) :
    (m >>= f) s = match m s with
      | (.ok a, t) => f a t
      | (.error e, t) => (.error e, t) := rfl

@[simp] lemma get_bind (f : σ → Proc σ ε β) (s : σ) : ((get : Proc σ ε σ) >>= f) s = f s s := rfl
@[simp] lemma pure_bind (a : α) (f : α → Proc σ ε β) : (pure a >>= f : Proc σ ε β) = f a := rfl
@[simp] lemma modify_bind (f : σ → σ) (g : PUnit → Proc σ ε β) (s : σ) :
    ((modify f : Proc σ ε PUnit) >>= g) s = g () (f s) := rfl

lemma bind_ok {m : Proc σ ε α} {f : α → Proc σ ε β} {s t : σ} {a : α} (h : m s = (.ok a, t)) :
    (m >>= f) s = f a t := by
  rw [bind_apply, h]

lemma bind_error {m : Proc σ ε α} {f : α → Proc σ ε β} {s t : σ} {e : ε}
    (h : m s = (.error e, t)) : (m >>= f) s = (.error e, t) := by
  rw [bind_apply, h]

lemma bind_bind {γ : Type} (m : Proc σ ε α) (f : α → Proc σ ε β) (g : β → Proc σ ε γ) :
    (m >>= f) >>= g = m >>= fun a => f a >>= g := by
  funext s
  rw [bind_apply, bind_apply, bind_apply]
  rcases m s with ⟨_ | a, t⟩ <;> rfl

lemma bind_pure (m : Proc σ ε α) : m >>= pure = m := by
  funext s
  rw [bind_apply]
  rcases m s with ⟨_ | a, t⟩ <;> rfl

lemma tryCatch_ok {m : Proc σ ε α} {f : ε → Proc σ ε α} {s t : σ} {a : α}
    (h : m s = (.ok a, t)) : (tryCatch m f : Proc σ ε α) s = (.ok a, t) := by
  simp only [tryCatch, tryCatchThe, MonadExceptOf.tryCatch, h]

lemma tryCatch_error {m : Proc σ ε α} {f : ε → Proc σ ε α} {s t : σ} {e : ε}
    (h : m s = (.error e, t)) : (tryCatch m f : Proc σ ε α) s = f e t := by
  simp only [tryCatch, tryCatchThe, MonadExceptOf.tryCatch, h]

/-! ### Runs as sequences of steps -/

/-- From a state in `P` every run of `m` is a sequence of `R` steps, and a run that returns
`a` ends in `Q a`. -/
def Meets (P : σ → Prop) (R : σ → σ → Prop) (m : Proc σ ε α) (Q : α → σ → Prop) : Prop :=
  ∀ s, P s → ReflTransGen R s (m s).2 ∧ ∀ a, (m s).1 = .ok a → Q a (m s).2

variable {P P' : σ → Prop} {R : σ → σ → Prop} {Q Q' : α → σ → Prop}

lemma Meets.conseq {m : Proc σ ε α} (h : Meets P R m Q) (hp : ∀ s, P' s → P s)
    (hq : ∀ a s, Q a s → Q' a s) : Meets P' R m Q' := fun s hs =>
  ⟨(h s (hp s hs)).1, fun a ha => hq a _ ((h s (hp s hs)).2 a ha)⟩

lemma meets_pure {a : α} (h : ∀ s, P s → Q a s) : Meets P R (pure a : Proc σ ε α) Q :=
  fun s hs => ⟨.refl, by rintro _ ⟨⟩; exact h s hs⟩

lemma meets_throw (e : ε) : Meets P R (throw e : Proc σ ε α) Q :=
  fun _ _ => ⟨.refl, by rintro _ ⟨⟩⟩

lemma meets_ofExcept {x : Except ε α} (h : ∀ a s, x = .ok a → P s → Q a s) :
    Meets P R (ofExcept x : Proc σ ε α) Q :=
  fun s hs => ⟨.refl, fun a ha => h a s ha hs⟩

lemma meets_modify {f : σ → σ} {Q : PUnit → σ → Prop} (hr : ∀ s, P s → R s (f s))
    (hq : ∀ s, P s → Q () (f s)) : Meets P R (modify f : Proc σ ε PUnit) Q :=
  fun s hs => ⟨.single (hr s hs), fun _ _ => hq s hs⟩

lemma meets_get_bind {f : σ → Proc σ ε α}
    (h : ∀ s, P s → Meets (fun t => t = s) R (f s) Q) :
    Meets P R ((get : Proc σ ε σ) >>= f) Q :=
  fun s hs => h s hs s rfl

lemma meets_self {m : Proc σ ε α} (h : ∀ s, P s → Meets (fun t => t = s) R m Q) :
    Meets P R m Q :=
  fun s hs => h s hs s rfl

lemma meets_bind {m : Proc σ ε α} {f : α → Proc σ ε β} {Q : β → σ → Prop} {M : α → σ → Prop}
    (hm : Meets P R m M) (hf : ∀ a, Meets (M a) R (f a) Q) : Meets P R (m >>= f) Q := by
  intro s hs
  obtain ⟨h1, h2⟩ := hm s hs
  rcases hms : m s with ⟨_ | a, t⟩
  · rw [bind_error hms]
    rw [hms] at h1
    exact ⟨h1, by rintro _ ⟨⟩⟩
  · rw [bind_ok hms]
    rw [hms] at h1 h2
    obtain ⟨h3, h4⟩ := hf a t (h2 a rfl)
    exact ⟨h1.trans h3, h4⟩

lemma meets_tryCatch {m : Proc σ ε α} {f : ε → Proc σ ε α} (hm : Meets P R m Q)
    (hf : ∀ e, Meets (fun _ => True) R (f e) Q) : Meets P R (tryCatch m f) Q := by
  intro s hs
  obtain ⟨h1, h2⟩ := hm s hs
  rcases hms : m s with ⟨e | a, t⟩ <;> rw [hms] at h1 h2
  · rw [tryCatch_error hms]
    exact ⟨h1.trans (hf e t trivial).1, (hf e t trivial).2⟩
  · rw [tryCatch_ok hms]
    exact ⟨h1, h2⟩

lemma meets_forM {l : List α} {f : α → Proc σ ε PUnit} (h : ∀ a ∈ l, Meets P R (f a) fun _ => P) :
    Meets P R (forM l f) fun _ => P := by
  induction l with
  | nil => exact meets_pure fun _ hs => hs
  | cons a t ih =>
    rw [List.forM_cons]
    exact meets_bind (h a (by simp)) fun _ => ih fun b hb => h b (by simp [hb])

/-! ### Pre- and postconditions -/

/-- From a state in `P`, a run that returns `a` ends in `Q a` and a run that fails ends in
`E`. -/
def Ends (P : σ → Prop) (m : Proc σ ε α) (Q : α → σ → Prop) (E : σ → Prop) : Prop :=
  ∀ s, P s → match m s with
    | (.ok a, t) => Q a t
    | (.error _, t) => E t

section Ends

variable {E E' : σ → Prop}

lemma Ends.conseq {m : Proc σ ε α} (h : Ends P m Q E) (hp : ∀ s, P' s → P s)
    (hq : ∀ a s, Q a s → Q' a s) (he : ∀ s, E s → E' s) : Ends P' m Q' E' := by
  intro s hs
  have hm := h s (hp s hs)
  rcases hms : m s with ⟨_ | a, t⟩ <;> rw [hms] at hm
  · exact he t hm
  · exact hq a t hm

lemma ends_pure {a : α} (h : ∀ s, P s → Q a s) : Ends P (pure a : Proc σ ε α) Q E := h

lemma ends_throw {e : ε} (h : ∀ s, P s → E s) : Ends P (throw e : Proc σ ε α) Q E := h

lemma ends_ofExcept {x : Except ε α} (hq : ∀ a s, x = .ok a → P s → Q a s)
    (he : ∀ s, P s → E s) : Ends P (ofExcept x : Proc σ ε α) Q E := by
  intro s hs
  rcases x with e | a
  · exact he s hs
  · exact hq a s rfl hs

lemma ends_modify {f : σ → σ} {Q : PUnit → σ → Prop} (h : ∀ s, P s → Q () (f s)) :
    Ends P (modify f : Proc σ ε PUnit) Q E := h

lemma ends_get_bind {f : σ → Proc σ ε α} (h : ∀ s, P s → Ends (fun t => t = s) (f s) Q E) :
    Ends P ((get : Proc σ ε σ) >>= f) Q E :=
  fun s hs => h s hs s rfl

lemma ends_self {m : Proc σ ε α} (h : ∀ s, P s → Ends (fun t => t = s) m Q E) : Ends P m Q E :=
  fun s hs => h s hs s rfl

lemma ends_bind {m : Proc σ ε α} {f : α → Proc σ ε β} {Q : β → σ → Prop} {M : α → σ → Prop}
    (hm : Ends P m M E) (hf : ∀ a, Ends (M a) (f a) Q E) : Ends P (m >>= f) Q E := by
  intro s hs
  have h := hm s hs
  rcases hms : m s with ⟨e | a, t⟩
  · rw [bind_error hms]
    rw [hms] at h
    exact h
  · rw [bind_ok hms]
    rw [hms] at h
    exact hf a t h

lemma ends_tryCatch {m : Proc σ ε α} {f : ε → Proc σ ε α} (hm : Ends P m Q E')
    (hf : ∀ e, Ends E' (f e) Q E) : Ends P (tryCatch m f) Q E := by
  intro s hs
  have h := hm s hs
  rcases hms : m s with ⟨e | a, t⟩ <;> rw [hms] at h
  · rw [tryCatch_error hms]
    exact hf e t h
  · rw [tryCatch_ok hms]
    exact h

lemma ends_forM {l : List α} {f : α → Proc σ ε PUnit} (h : ∀ a ∈ l, Ends P (f a) (fun _ => P) E) :
    Ends P (forM l f) (fun _ => P) E := by
  induction l with
  | nil => exact ends_pure fun _ hs => hs
  | cons a t ih =>
    rw [List.forM_cons]
    exact ends_bind (h a (by simp)) fun _ => ih fun b hb => h b (by simp [hb])

lemma ends_of_after {m : Proc σ ε α} (h : ∀ s, P s → E (m s).2) : Ends P m (fun _ => E) E := by
  intro s hs
  have hm := h s hs
  rcases hms : m s with ⟨_ | a, t⟩ <;> rw [hms] at hm <;> exact hm

lemma Ends.after {m : Proc σ ε α} (h : Ends P m (fun _ => E) E) {s : σ} (hs : P s) :
    E (m s).2 := by
  have hm := h s hs
  rcases hms : m s with ⟨_ | a, t⟩ <;> rw [hms] at hm <;> exact hm

end Ends

/-! ### Errors that do not occur -/

section Safe

variable {I : σ → Prop} {bad : ε → Prop}

/-- From `s` the program ends in `I`, and not with a bad error. -/
def SafeAt (I : σ → Prop) (bad : ε → Prop) (m : Proc σ ε α) (s : σ) : Prop :=
  I (m s).2 ∧ ∀ e, (m s).1 = .error e → ¬ bad e

def Safe (I : σ → Prop) (bad : ε → Prop) (m : Proc σ ε α) : Prop :=
  ∀ s, I s → SafeAt I bad m s

lemma safe_pure (a : α) : Safe I bad (pure a : Proc σ ε α) :=
  fun _ hs => ⟨hs, fun _ h => by cases h⟩

lemma safe_ofExcept {x : Except ε α} (h : ∀ e, x = .error e → ¬ bad e) :
    Safe I bad (ofExcept x : Proc σ ε α) :=
  fun _ hs => ⟨hs, h⟩

lemma safe_throw {e : ε} (h : ¬ bad e) : Safe I bad (throw e : Proc σ ε α) :=
  safe_ofExcept (x := .error e) fun _ he => Except.error.inj he ▸ h

lemma safe_modify {f : σ → σ} (h : ∀ s, I s → I (f s)) : Safe I bad (modify f : Proc σ ε PUnit) :=
  fun s hs => ⟨h s hs, fun _ h => by cases h⟩

lemma safeAt_set {s t : σ} (h : I t) : SafeAt I bad (set t : Proc σ ε PUnit) s :=
  ⟨h, fun _ h => by cases h⟩

lemma safe_get_bind {f : σ → Proc σ ε α} (h : ∀ s, I s → SafeAt I bad (f s) s) :
    Safe I bad ((get : Proc σ ε σ) >>= f) := h

lemma SafeAt.bind {m : Proc σ ε α} {f : α → Proc σ ε β} {s : σ} (hm : SafeAt I bad m s)
    (hf : ∀ a t, m s = (.ok a, t) → I t → SafeAt I bad (f a) t) : SafeAt I bad (m >>= f) s := by
  obtain ⟨hi, he⟩ := hm
  rcases hms : m s with ⟨e | a, t⟩ <;> rw [hms] at hi he
  · rw [SafeAt, bind_error hms]
    exact ⟨hi, fun e' h => he e' (congrArg Except.error (Except.error.inj h))⟩
  · rw [SafeAt, bind_ok hms]
    exact hf a t hms hi

lemma safeAt_bind {m : Proc σ ε α} {f : α → Proc σ ε β} {s : σ} (hm : SafeAt I bad m s)
    (hf : ∀ a, Safe I bad (f a)) : SafeAt I bad (m >>= f) s :=
  hm.bind fun a t _ ht => hf a t ht

lemma safe_bind {m : Proc σ ε α} {f : α → Proc σ ε β} (hm : Safe I bad m)
    (hf : ∀ a, Safe I bad (f a)) : Safe I bad (m >>= f) :=
  fun s hs => safeAt_bind (hm s hs) hf

lemma safe_tryCatch {m : Proc σ ε α} {f : ε → Proc σ ε α} (hm : Safe I bad m)
    (hf : ∀ e, ¬ bad e → Safe I bad (f e)) : Safe I bad (tryCatch m f) := by
  intro s hs
  obtain ⟨hi, he⟩ := hm s hs
  rcases hms : m s with ⟨e | a, t⟩ <;> rw [hms] at hi he
  · rw [SafeAt, tryCatch_error hms]
    exact hf e (he e rfl) t hi
  · rw [SafeAt, tryCatch_ok hms]
    exact ⟨hi, he⟩

lemma safe_forM {l : List α} {f : α → Proc σ ε PUnit} (h : ∀ a ∈ l, Safe I bad (f a)) :
    Safe I bad (forM l f) := by
  induction l with
  | nil => exact safe_pure _
  | cons a t ih =>
    rw [List.forM_cons]
    exact safe_bind (h a (by simp)) fun _ => ih fun b hb => h b (by simp [hb])

end Safe

/-! ### What a program leaves alone -/

section Keeps

variable {τ : Type} {f : σ → τ}

/-- From `s` the program, failing or not, ends with `f` of the state as it was. -/
def KeepsAt (f : σ → τ) (m : Proc σ ε α) (s : σ) : Prop := f (m s).2 = f s

def Keeps (f : σ → τ) (m : Proc σ ε α) : Prop := ∀ s, KeepsAt f m s

lemma keeps_pure (a : α) : Keeps f (pure a : Proc σ ε α) := fun _ => rfl

lemma keeps_throw (e : ε) : Keeps f (throw e : Proc σ ε α) := fun _ => rfl

lemma keeps_ofExcept (x : Except ε α) : Keeps f (ofExcept x : Proc σ ε α) := fun _ => rfl

lemma keeps_modify {g : σ → σ} (h : ∀ s, f (g s) = f s) : Keeps f (modify g : Proc σ ε PUnit) := h

lemma keepsAt_set {s t : σ} (h : f t = f s) : KeepsAt f (set t : Proc σ ε PUnit) s := h

lemma keepsAt_get_bind {g : σ → Proc σ ε α} {s : σ} (h : KeepsAt f (g s) s) :
    KeepsAt f ((get : Proc σ ε σ) >>= g) s := h

lemma keeps_get_bind {g : σ → Proc σ ε α} (h : ∀ s, KeepsAt f (g s) s) :
    Keeps f ((get : Proc σ ε σ) >>= g) := fun s => keepsAt_get_bind (h s)

lemma keepsAt_bind {m : Proc σ ε α} {g : α → Proc σ ε β} {s : σ} (hm : KeepsAt f m s)
    (hg : ∀ a, Keeps f (g a)) : KeepsAt f (m >>= g) s := by
  unfold KeepsAt at hm
  rcases hms : m s with ⟨e | a, t⟩ <;> rw [hms] at hm
  · rw [KeepsAt, bind_error hms]
    exact hm
  · rw [KeepsAt, bind_ok hms]
    exact (hg a t).trans hm

lemma keeps_bind {m : Proc σ ε α} {g : α → Proc σ ε β} (hm : Keeps f m)
    (hg : ∀ a, Keeps f (g a)) : Keeps f (m >>= g) :=
  fun s => keepsAt_bind (hm s) hg

lemma keeps_ite {p : Prop} [Decidable p] {m m' : Proc σ ε α} (hm : Keeps f m) (hm' : Keeps f m') :
    Keeps f (if p then m else m') := by
  split
  · exact hm
  · exact hm'

lemma Keeps.bind_congr {m : Proc σ ε α} (hm : Keeps f m) {g g' : α → Proc σ ε β} {s : σ}
    (h : ∀ a t, f t = f s → g a t = g' a t) : (m >>= g) s = (m >>= g') s := by
  have hs := hm s
  unfold KeepsAt at hs
  rcases hms : m s with ⟨e | a, t⟩ <;> rw [hms] at hs
  · rw [bind_error hms, bind_error hms]
  · rw [bind_ok hms, bind_ok hms, h a t hs]

lemma keeps_tryCatch {m : Proc σ ε α} {g : ε → Proc σ ε α} (hm : Keeps f m)
    (hg : ∀ e, Keeps f (g e)) : Keeps f (tryCatch m g) := by
  intro s
  have h := hm s
  unfold KeepsAt at h
  rcases hms : m s with ⟨e | a, t⟩ <;> rw [hms] at h
  · rw [KeepsAt, tryCatch_error hms]
    exact (hg e t).trans h
  · rw [KeepsAt, tryCatch_ok hms]
    exact h

lemma keeps_forM {l : List α} {g : α → Proc σ ε PUnit} (h : ∀ a ∈ l, Keeps f (g a)) :
    Keeps f (forM l g) := by
  induction l with
  | nil => exact keeps_pure _
  | cons a t ih =>
    rw [List.forM_cons]
    exact keeps_bind (h a (by simp)) fun _ => ih fun b hb => h b (by simp [hb])

end Keeps

end Proc

end Javs.Lib
