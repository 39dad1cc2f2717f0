import Javs.Lib.Proc

/-!
Programs that do the same on two states.

`Mirror g m m'` says of the program `m'`, started in the image of a state, that it does what `m`
does in the state itself: it returns the same or fails with the same error, and ends in the image
of the state in which `m` ends. Of one program, `Mirror g m m` says that it does not make use of
what `g` changes.
-/

namespace Javs.Lib.Proc

variable {σ τ ε α β : Type} {g : σ → τ}

def MirrorAt (g : σ → τ) (m : Proc σ ε α) (m' : Proc τ ε α) (s : σ) : Prop :=
  m' (g s) = ((m s).1, g (m s).2)

def Mirror (g : σ → τ) (m : Proc σ ε α) (m' : Proc τ ε α) : Prop := ∀ s, MirrorAt g m m' s

lemma MirrorAt.bind {m : Proc σ ε α} {m' : Proc τ ε α} {k : α → Proc σ ε β}
    {k' : α → Proc τ ε β} {s : σ} (hm : MirrorAt g m m' s)
    (hk : ∀ a t, m s = (.ok a, t) → MirrorAt g (k a) (k' a) t) :
    MirrorAt g (m >>= k) (m' >>= k') s := by
  unfold MirrorAt at hm
  rcases hms : m s with ⟨e | a, t⟩ <;> rw [hms] at hm
  · rw [MirrorAt, bind_error hms, bind_error hm]
  · rw [MirrorAt, bind_ok hms, bind_ok hm]
    exact hk a t hms

end Javs.Lib.Proc
