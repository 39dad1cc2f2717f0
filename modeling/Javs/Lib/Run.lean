import Mathlib.Data.List.Basic
import Mathlib.Tactic.Lemma

/-!
Runs of a system that reacts to events.

A system is a step function on states and events. A condition on the state an event finds
is asked of every event of a run at once (`AllMeet`); what every step keeps under the
condition then holds in every state a run reaches.
-/

namespace Javs.Lib

variable {σ ι : Type} (step : σ → ι → σ)

def run (s : σ) (es : List ι) : σ := es.foldl step s

@[simp] lemma run_nil (s : σ) : run step s [] = s := rfl
@[simp] lemma run_cons (s : σ) (e : ι) (es : List ι) :
    run step s (e :: es) = run step (step s e) es := rfl
lemma run_append (s : σ) (es fs : List ι) :
    run step s (es ++ fs) = run step (run step s es) fs := by
  simp [run, List.foldl_append]

/-- The events of a run, each with the state it finds. -/
def trace : σ → List ι → List (σ × ι)
  | _, [] => []
  | s, e :: es => (s, e) :: trace (step s e) es

@[simp] lemma trace_nil (s : σ) : trace step s [] = [] := rfl
@[simp] lemma trace_cons (s : σ) (e : ι) (es : List ι) :
    trace step s (e :: es) = (s, e) :: trace step (step s e) es := rfl
lemma trace_append (s : σ) (es fs : List ι) :
    trace step s (es ++ fs) = trace step s es ++ trace step (run step s es) fs := by
  induction es generalizing s with
  | nil => rfl
  | cons e es ih => simp [ih]

lemma mem_of_mem_trace {s : σ} {es : List ι} {x : σ × ι} (h : x ∈ trace step s es) : x.2 ∈ es := by
  induction es generalizing s with
  | nil => cases h
  | cons e es ih =>
    rcases List.mem_cons.mp h with rfl | h
    · exact List.mem_cons_self
    · exact List.mem_cons_of_mem _ (ih h)

lemma mem_trace_iff {s : σ} {es : List ι} {x : σ × ι} :
    x ∈ trace step s es ↔ ∃ es₁ es₂, es = es₁ ++ x.2 :: es₂ ∧ x.1 = run step s es₁ := by
  constructor
  · intro h
    induction es generalizing s with
    | nil => cases h
    | cons e es ih =>
      rcases List.mem_cons.mp h with rfl | h
      · exact ⟨[], es, rfl, rfl⟩
      · obtain ⟨es₁, es₂, hes, hx⟩ := ih h
        exact ⟨e :: es₁, es₂, by rw [hes]; rfl, hx⟩
  · rintro ⟨es₁, es₂, rfl, hx⟩
    rw [trace_append, trace_cons, ← hx]
    exact List.mem_append_right _ List.mem_cons_self

/-- Every event of the run finds a state in which it meets `C`. -/
def AllMeet (C : σ → ι → Prop) (s : σ) (es : List ι) : Prop :=
  ∀ x ∈ trace step s es, C x.1 x.2

variable {step} {C : σ → ι → Prop} {s : σ} {e : ι} {es fs : List ι}

instance [∀ s e, Decidable (C s e)] : Decidable (AllMeet step C s es) :=
  inferInstanceAs (Decidable (∀ x ∈ trace step s es, C x.1 x.2))

@[simp] lemma allMeet_nil : AllMeet step C s [] := by simp [AllMeet]

@[simp] lemma allMeet_cons :
    AllMeet step C s (e :: es) ↔ C s e ∧ AllMeet step C (step s e) es := by
  simp [AllMeet]

lemma allMeet_append :
    AllMeet step C s (es ++ fs) ↔ AllMeet step C s es ∧ AllMeet step C (run step s es) fs := by
  simp [AllMeet, trace_append, or_imp, forall_and]

/-- **The invariant rule.** -/
theorem run_keeps {I : σ → Prop} (hstep : ∀ s e, I s → C s e → I (step s e)) (h0 : I s)
    (hC : AllMeet step C s es) : I (run step s es) := by
  induction es generalizing s with
  | nil => exact h0
  | cons e es ih =>
    obtain ⟨h1, h2⟩ := allMeet_cons.mp hC
    exact ih (hstep s e h0 h1) h2

theorem trace_keeps {I : σ → Prop} (hstep : ∀ s e, I s → C s e → I (step s e)) (h0 : I s)
    (hC : AllMeet step C s es) : ∀ x ∈ trace step s es, I x.1 ∧ C x.1 x.2 := by
  induction es generalizing s with
  | nil => simp
  | cons e es ih =>
    obtain ⟨h1, h2⟩ := allMeet_cons.mp hC
    intro x hx
    rcases List.mem_cons.mp hx with rfl | hx
    · exact ⟨h0, h1⟩
    · exact ih (hstep s e h0 h1) h2 x hx

theorem run_invariant {I : σ → Prop} (hstep : ∀ s e, I s → I (step s e)) (h0 : I s) :
    I (run step s es) :=
  run_keeps (C := fun _ _ => True) (fun s e hs _ => hstep s e hs) h0 fun _ _ => trivial

theorem run_collects {α : Type} {f : σ → List α} {g : σ → ι → List α}
    (h : ∀ s e, f (step s e) = f s ++ g s e) (s : σ) (es : List ι) :
    f (run step s es) = f s ++ (trace step s es).flatMap fun x => g x.1 x.2 := by
  induction es generalizing s with
  | nil => simp
  | cons e es ih => simp [ih, h]

theorem trace_origin {α : Type} {f : σ → List α} {P : σ → ι → α → Prop}
    (h : ∀ s e, ∀ a ∈ f (step s e), a ∈ f s ∨ P s e a) :
    ∀ x ∈ trace step s es, ∀ a ∈ f x.1, a ∈ f s ∨ ∃ y ∈ trace step s es, P y.1 y.2 a := by
  induction es generalizing s with
  | nil => simp
  | cons e es ih =>
    intro x hx a ha
    rcases List.mem_cons.mp hx with rfl | hx
    · exact .inl ha
    · rcases ih x hx a ha with ha | ⟨y, hy, hP⟩
      · refine (h s e a ha).imp_right fun hP => ⟨(s, e), List.mem_cons_self, hP⟩
      · exact .inr ⟨y, List.mem_cons_of_mem _ hy, hP⟩

theorem run_origin {α : Type} {f : σ → List α} {I : σ → Prop} {P : σ → ι → α → Prop}
    (hstep : ∀ s e, I s → C s e → I (step s e))
    (h : ∀ s e, I s → C s e → ∀ a ∈ f (step s e), a ∈ f s ∨ P s e a) (h0 : I s)
    (hC : AllMeet step C s es) :
    ∀ a ∈ f (run step s es), a ∈ f s ∨ ∃ x ∈ trace step s es, P x.1 x.2 a := by
  induction es generalizing s with
  | nil => exact fun a ha => .inl ha
  | cons e es ih =>
    obtain ⟨h1, h2⟩ := allMeet_cons.mp hC
    intro a ha
    rcases ih (hstep s e h0 h1) h2 a ha with ha | ⟨x, hx, hP⟩
    · refine (h s e h0 h1 a ha).imp_right fun hP => ⟨(s, e), List.mem_cons_self, hP⟩
    · exact .inr ⟨x, List.mem_cons_of_mem _ hx, hP⟩

/-- **Leaving out events.** If the events that are not kept have no output and no effect up to
`R`, and those that are kept act alike on related states, then a run and the run without the
events that are not kept end in related states, and have the same output. -/
theorem run_filter {ω : Type} {R : σ → σ → Prop} {keep : ι → Bool} {out : σ → ι → List ω}
    (hkeep : ∀ s t e, R s t → C s e → keep e = true → R (step s e) (step t e) ∧ out t e = out s e)
    (hdrop : ∀ s t e, R s t → C s e → keep e = false → R (step s e) t ∧ out s e = [])
    {t : σ} (hR : R s t) (hC : AllMeet step C s es) :
    R (run step s es) (run step t (es.filter keep)) ∧
      (trace step t (es.filter keep)).flatMap (fun x => out x.1 x.2) =
        (trace step s es).flatMap fun x => out x.1 x.2 := by
  induction es generalizing s t with
  | nil => exact ⟨hR, rfl⟩
  | cons e es ih =>
    obtain ⟨hce, hces⟩ := allMeet_cons.mp hC
    -- an event that is left out has no output; one that is kept has the same in both runs
    rcases hk : keep e with _ | _
    · obtain ⟨hR', hout⟩ := hdrop s t e hR hce hk
      obtain ⟨hrun, houts⟩ := ih hR' hces
      rw [List.filter_cons_of_neg (by simp [hk]), run_cons, trace_cons, List.flatMap_cons, hout,
        List.nil_append]
      exact ⟨hrun, houts⟩
    · obtain ⟨hR', hout⟩ := hkeep s t e hR hce hk
      obtain ⟨hrun, houts⟩ := ih hR' hces
      rw [List.filter_cons_of_pos hk, run_cons, run_cons, trace_cons, trace_cons,
        List.flatMap_cons, List.flatMap_cons, hout, houts]
      exact ⟨hrun, rfl⟩

end Javs.Lib
