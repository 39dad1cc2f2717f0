import Mathlib.Data.List.Nodup
import Javs.Bytes
import Javs.ReplaySet

/-!
A receiver behind a replay window.

Both channels number their datagrams and both ends keep a window over the numbers they have seen.
Whatever a datagram is read by, a receiver that checks the number against the window takes what
arrives in the order of the numbers, and takes nothing twice.
-/

namespace Javs

open Lib

/-- What a receiver has taken, each datagram with its content and its id, and the replay window
those ids have passed. -/
structure Listener where
  window : ReplayWindow := .new
  taken : List (Bytes × Bytes × UInt32) := []

namespace Listener

variable {read : Bytes → Option (Bytes × UInt32)} {l : Listener} {d : Bytes}
  {ts : List (Bytes × Bytes × UInt32)}

/-- A datagram arrives at a receiver that makes of it what `read` says. -/
def hear (read : Bytes → Option (Bytes × UInt32)) (l : Listener) (d : Bytes) : Listener :=
  match read d with
  | some (content, id) =>
    let (ok, window) := l.window.checkAndSet id
    ⟨window, if ok then l.taken ++ [(d, content, id)] else l.taken⟩
  | none => l

lemma hear_above {content : Bytes} {id : UInt32} (h : read d = some (content, id))
    (hlt : l.window.highest < id) :
    (l.hear read d).taken = l.taken ++ [(d, content, id)] ∧
      (l.hear read d).window.highest = id := by
  have hne : id ≠ 0 := fun e => by
    rw [e] at hlt
    exact absurd hlt (by simp [UInt32.lt_iff_toNat_lt])
  unfold hear
  rw [h]
  simp only [ReplayWindow.checkAndSet, if_neg hne, if_pos (show id > l.window.highest from hlt)]
  exact ⟨if_pos trivial, trivial⟩

lemma run_hear_increasing (hread : ∀ t ∈ ts, read t.1 = some t.2)
    (hinc : ts.Pairwise fun t t' => t.2.2 < t'.2.2) (habove : ∀ t ∈ ts, l.window.highest < t.2.2) :
    (run (hear read) l (ts.map Prod.fst)).taken = l.taken ++ ts := by
  induction ts generalizing l with
  | nil => simp
  | cons t ts ih =>
    obtain ⟨htaken, hhigh⟩ := hear_above (hread t List.mem_cons_self) (habove t List.mem_cons_self)
    rw [List.map_cons, run_cons, ih (fun t' ht' => hread t' (List.mem_cons_of_mem t ht'))
      (List.pairwise_cons.mp hinc).2 ?_, htaken, List.append_assoc]
    · rfl
    · intro t' ht'
      rw [hhigh]
      exact (List.pairwise_cons.mp hinc).1 t' ht'

lemma run_hear_filter (l : Listener) (ds : List Bytes) :
    run (hear read) l (ds.filter fun d => (read d).isSome) = run (hear read) l ds := by
  induction ds generalizing l with
  | nil => rfl
  | cons d ds ih =>
    rcases hread : read d with _ | r
    · have hsame : l.hear read d = l := by rw [hear, hread]
      rw [List.filter_cons_of_neg (by simp [hread]), ih, run_cons, hsame]
    · rw [List.filter_cons_of_pos (by simp [hread]), run_cons, run_cons, ih]

/-- What holds of a receiver whatever it hears: the window stands for the ids taken, none of which
was taken twice. -/
structure Sound (read : Bytes → Option (Bytes × UInt32)) (l : Listener) : Prop where
  window : l.window.Represents (l.taken.map fun t => t.2.2)
  nodup : (l.taken.map fun t => t.2.2).Nodup
  inside : ∀ t ∈ l.taken, read t.1 = some t.2

lemma Sound.hear (h : Sound read l) (d : Bytes) : Sound read (l.hear read d) := by
  unfold Listener.hear
  split
  · rename_i content id hread
    have hnext := h.window.next id
    have hfresh := h.window.admits id
    unfold ReplayWindow.next at hnext
    -- an id that is not taken leaves the window, and with it what is known of it
    rcases hok : (l.window.checkAndSet id).1 with _ | _ <;> rw [hok] at hnext hfresh
    · exact ⟨by simpa [hok] using hnext, by simpa [hok] using h.nodup,
        by simpa [hok] using h.inside⟩
    · simp only [hok, if_true] at hnext ⊢
      refine ⟨by simpa using hnext, ?_, ?_⟩
      · have hnew := (hfresh.mp rfl).2.1
        rw [List.map_append, List.nodup_append]
        refine ⟨h.nodup, by simp, fun q hq r hr => ?_⟩
        obtain rfl : r = id := List.mem_singleton.mp hr
        exact fun e => hnew (e ▸ hq)
      · intro t ht
        rcases List.mem_append.mp ht with ht | ht
        · exact h.inside t ht
        · rw [List.mem_singleton.mp ht]
          exact hread
  · exact h

lemma sound_run (read : Bytes → Option (Bytes × UInt32)) (ds : List Bytes) :
    (run (Listener.hear read) {} ds).Sound read :=
  run_invariant (fun _ d h => h.hear d) ⟨ReplayWindow.represents_new, .nil, by simp⟩

lemma Sound.taken_once (h : Sound read l) : (l.taken.map Prod.fst).Nodup := by
  have hids : l.taken.map (fun t => t.2.2) = (l.taken.map Prod.fst).map fun d =>
      ((read d).map Prod.snd).getD 0 := by
    rw [List.map_map]
    refine List.map_congr_left fun t ht => ?_
    rw [Function.comp_apply, h.inside t ht]
    rfl
  exact List.Nodup.of_map _ (hids ▸ h.nodup)

lemma taken_run {t : Bytes × Bytes × UInt32} (ds : List Bytes)
    (ht : t ∈ (run (Listener.hear read) l ds).taken) : t ∈ l.taken ∨ t.1 ∈ ds := by
  induction ds generalizing l with
  | nil => exact .inl ht
  | cons d ds ih =>
    rcases ih ht with ht | ht
    · unfold Listener.hear at ht
      split at ht
      · dsimp only at ht
        split at ht
        · rcases List.mem_append.mp ht with ht | ht
          · exact .inl ht
          · rw [List.mem_singleton.mp ht]
            exact .inr List.mem_cons_self
        · exact .inl ht
      · exact .inl ht
    · exact .inr (List.mem_cons_of_mem d ht)

/-- **A receiver can follow a sender whose ids increase.** It takes what reaches it in the order of
sending, whatever is lost in between; and in whatever order and however often the datagrams reach
it, it takes none twice, and none for another. -/
theorem follows (hread : ∀ t ∈ ts, read t.1 = some t.2)
    (hinc : ts.Pairwise fun t t' => t.2.2 < t'.2.2) (hpos : ∀ t ∈ ts, 0 < t.2.2) :
    (∀ xs, xs.Sublist ts → (run (hear read) {} (xs.map Prod.fst)).taken = xs) ∧
    ∀ ds ⊆ ts.map Prod.fst, ((run (hear read) {} ds).taken.map Prod.fst).Nodup ∧
      ∀ t ∈ (run (hear read) {} ds).taken, t ∈ ts := by
  constructor
  · intro xs hxs
    exact run_hear_increasing (fun t ht => hread t (hxs.subset ht)) (hinc.sublist hxs)
      fun t ht => hpos t (hxs.subset ht)
  · intro ds hds
    have hsound := sound_run read ds
    refine ⟨hsound.taken_once, fun t ht => ?_⟩
    obtain ⟨t', ht', hfst⟩ : ∃ t' ∈ ts, t'.1 = t.1 := by
      rcases taken_run ds ht with hmem | hmem
      · cases hmem
      · exact List.mem_map.mp (hds hmem)
    have hsame : some t'.2 = some t.2 := by
      rw [← hread t' ht', hfst, hsound.inside t ht]
    obtain rfl : t' = t := Prod.ext hfst (Option.some.inj hsame)
    exact ht'

end Listener

end Javs
