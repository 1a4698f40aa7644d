/- digest: Loops over received messages, some of them rejected: what they make of a frame. -/

import Mathlib.Data.List.Basic
import Mathlib.Tactic

set_option autoImplicit false
set_option relaxedAutoImplicit false

namespace LoraMultihop.Foundation.ReceiveLoop

/-- How a loop ends: its state, the messages it has handled and those it has not read. -/
structure Result (σ β : Type*) where
  state : σ
  handled : List β
  left : List β

variable {σ β : Type*}

/-- A loop that hands every message accepted by `ok` to `handle`, whose flag ends it. A rejected
message is skipped, or it ends the loop as well if `leaves`. -/
def run (ok : β → Bool) (leaves : Bool) (handle : σ → β → σ × Bool) : List β → σ → Result σ β
  | [], s => ⟨s, [], []⟩
  | b :: bs, s =>
      if ok b then
        if (handle s b).2 then ⟨(handle s b).1, [b], bs⟩
        else
          let r := run ok leaves handle bs (handle s b).1
          { r with handled := b :: r.handled }
      else if leaves then ⟨s, [], bs⟩
      else run ok leaves handle bs s

/-- One of the messages ends the loop when it is handled. -/
def stops (handle : σ → β → σ × Bool) : List β → σ → Bool
  | [], _ => false
  | b :: bs, s => (handle s b).2 || stops handle bs (handle s b).1

/-- The loop makes of the frame what it makes of the frame without the rejected messages. -/
def Ignores (ok : β → Bool) (leaves : Bool) (handle : σ → β → σ × Bool) (bs : List β) (s : σ) :
    Prop :=
  let r := run ok leaves handle bs s
  run ok leaves handle (bs.filter ok) s = { r with left := r.left.filter ok }

section Run

variable {ok : β → Bool} {leaves : Bool} {handle : σ → β → σ × Bool} {b : β} {bs : List β} {s : σ}

theorem run_stop (hok : ok b = true) (hstop : (handle s b).2 = true) :
    run ok leaves handle (b :: bs) s = ⟨(handle s b).1, [b], bs⟩ := by
  rw [run, if_pos hok, if_pos hstop]

theorem run_more (hok : ok b = true) (hstop : (handle s b).2 = false) :
    run ok leaves handle (b :: bs) s =
      { run ok leaves handle bs (handle s b).1 with
        handled := b :: (run ok leaves handle bs (handle s b).1).handled } := by
  rw [run, if_pos hok, if_neg (by simp [hstop])]

theorem run_leave (hok : ok b = false) : run ok true handle (b :: bs) s = ⟨s, [], bs⟩ := by
  rw [run, if_neg (by simp [hok]), if_pos rfl]

private theorem run_skip (hok : ok b = false) :
    run ok false handle (b :: bs) s = run ok false handle bs s := by
  rw [run, if_neg (by simp [hok]), if_neg (by simp)]

theorem handled_ok (bs : List β) (s : σ) :
    ∀ b ∈ (run ok leaves handle bs s).handled, ok b = true := by
  induction bs generalizing s with
  | nil => simp [run]
  | cons b bs ih =>
      rw [run]
      split_ifs with hok hstop
      · simp [hok]
      · simpa [hok] using ih _
      · simp
      · exact ih s

private theorem ignores_more (hok : ok b = true) (hstop : (handle s b).2 = false) :
    Ignores ok leaves handle (b :: bs) s ↔ Ignores ok leaves handle bs (handle s b).1 := by
  rw [Ignores, Ignores, List.filter_cons_of_pos hok, run_more hok hstop, run_more hok hstop]
  generalize run ok leaves handle (bs.filter ok) (handle s b).1 = r
  generalize run ok leaves handle bs (handle s b).1 = r'
  dsimp only
  rw [Result.mk.injEq, List.cons_inj_right]
  constructor
  · rintro ⟨hstate, hhandled, hleft⟩
    rw [← hstate, ← hhandled, ← hleft]
  · intro h
    rw [h]
    exact ⟨rfl, rfl, rfl⟩

private theorem ignores_stop (hok : ok b = true) (hstop : (handle s b).2 = true) :
    Ignores ok leaves handle (b :: bs) s := by
  rw [Ignores, List.filter_cons_of_pos hok, run_stop hok hstop, run_stop hok hstop]

private theorem ignores_of_skip (bs : List β) (s : σ) : Ignores ok false handle bs s := by
  induction bs generalizing s with
  | nil => rfl
  | cons b bs ih =>
      cases hok : ok b with
      | true =>
          cases hstop : (handle s b).2 with
          | true => exact ignores_stop hok hstop
          | false => exact (ignores_more hok hstop).mpr (ih _)
      | false =>
          rw [Ignores, List.filter_cons_of_neg (by simp [hok]), run_skip hok]
          exact ih s

theorem ignores_of_leave (bs : List β) (s : σ)
    (h : (∀ b ∈ bs.dropWhile ok, ok b = false) ∨ stops handle (bs.takeWhile ok) s = true) :
    Ignores ok true handle bs s := by
  induction bs generalizing s with
  | nil => rfl
  | cons b bs ih =>
      cases hok : ok b with
      | true =>
          rw [List.dropWhile_cons_of_pos hok, List.takeWhile_cons_of_pos hok, stops] at h
          cases hstop : (handle s b).2 with
          | true => exact ignores_stop hok hstop
          | false =>
              rw [hstop, Bool.false_or] at h
              exact (ignores_more hok hstop).mpr (ih _ h)
      | false =>
          have hneg : ¬ ok b = true := by simp [hok]
          rw [List.dropWhile_cons_of_neg hneg, List.takeWhile_cons_of_neg hneg] at h
          rw [Ignores, List.filter_cons_of_neg hneg, run_leave hok]
          rcases h with hall | hstop
          · have hnone : bs.filter ok = [] :=
              List.filter_eq_nil_iff.mpr fun c hc => by simp [hall c (List.mem_cons_of_mem _ hc)]
            rw [hnone, run]
          · exact absurd hstop (by simp [stops])

theorem alike_of_handled (bs : List β) (s : σ)
    (h : (run ok true handle (bs.filter ok) s).handled.length =
      (run ok true handle bs s).handled.length) :
    (∀ b ∈ bs.dropWhile ok, ok b = false) ∨ stops handle (bs.takeWhile ok) s = true := by
  induction bs generalizing s with
  | nil => exact Or.inl (by simp)
  | cons b bs ih =>
      cases hok : ok b with
      | true =>
          rw [List.dropWhile_cons_of_pos hok, List.takeWhile_cons_of_pos hok, stops]
          cases hstop : (handle s b).2 with
          | true => exact Or.inr rfl
          | false =>
              rw [List.filter_cons_of_pos hok, run_more hok hstop, run_more hok hstop] at h
              rw [Bool.false_or]
              exact ih _ (Nat.succ.inj h)
      | false =>
          have hneg : ¬ ok b = true := by simp [hok]
          rw [List.filter_cons_of_neg hneg, run_leave hok] at h
          rw [List.dropWhile_cons_of_neg hneg]
          left
          intro c hc
          rcases List.mem_cons.mp hc with rfl | hc
          · exact hok
          · by_contra hne
            have hmem : c ∈ bs.filter ok := List.mem_filter.mpr ⟨hc, by simpa using hne⟩
            -- the filtered frame has a first message, and it is handled
            cases hf : bs.filter ok with
            | nil =>
                rw [hf] at hmem
                exact absurd hmem List.not_mem_nil
            | cons d ds =>
                have hd : ok d = true :=
                  (List.mem_filter.mp (hf ▸ List.mem_cons_self : d ∈ bs.filter ok)).2
                rw [hf, run, if_pos hd] at h
                split_ifs at h

/-- A loop that folds its messages, where rejected ones do nothing, handles all the others. -/
private theorem run_foldl {f : σ → β → σ} (hf : ∀ s b, ok b = false → f s b = s) (bs : List β)
    (s : σ) : run ok false (fun s b => (f s b, false)) bs s = ⟨bs.foldl f s, bs.filter ok, []⟩ := by
  induction bs generalizing s with
  | nil => rfl
  | cons b bs ih =>
      cases hok : ok b with
      | true => rw [run_more hok rfl, ih, List.foldl_cons, List.filter_cons_of_pos hok]
      | false =>
          rw [run_skip hok, ih, List.foldl_cons, hf s b hok,
            List.filter_cons_of_neg (by simp [hok])]

theorem foldl_filter_eq {f : σ → β → σ} (hf : ∀ s b, ok b = false → f s b = s) (bs : List β)
    (s : σ) : (bs.filter ok).foldl f s = bs.foldl f s := by
  have h : Ignores ok false (fun s b => (f s b, false)) bs s := ignores_of_skip bs s
  rw [Ignores, run_foldl hf, run_foldl hf] at h
  exact congrArg Result.state h

end Run

end LoraMultihop.Foundation.ReceiveLoop
