/- digest: The two best elements of a list, kept in one pass. -/

import Mathlib.Data.List.MinMax
import Mathlib.Tactic

set_option autoImplicit false
set_option relaxedAutoImplicit false

namespace LoraMultihop.Foundation.TopTwo

section Offers

variable {α β : Type} [DecidableEq α] [LinearOrder β] (f : α → β)

def others (l : List α) : List α :=
  match l.argmax f with
  | some t => l.erase t
  | none => []

/-- One more element, where the two best so far are known: an element replaces only a lesser one. -/
def offer (best : Option α × Option α) (a : α) : Option α × Option α :=
  match best with
  | (none, _) => (some a, none)
  | (some t, second) =>
      if f t < f a then (some a, some t)
      else
        match second with
        | none => (some t, some a)
        | some s => if f s < f a then (some t, some a) else (some t, some s)

variable {f}

theorem others_of_argmax {l : List α} {t : α} (h : l.argmax f = some t) :
    others f l = l.erase t := by
  rw [others, h]

private theorem others_append {l : List α} {t a : α} (h : l.argmax f = some t) :
    others f (l ++ [a]) = if f t < f a then l else l.erase t ++ [a] := by
  have hlast : (l ++ [a]).argmax f = if f t < f a then some a else some t := by
    rw [List.argmax_concat, h]
  split_ifs with hlt
  · rw [if_pos hlt] at hlast
    have hnew : a ∉ l := fun ha => absurd (List.le_of_mem_argmax ha h) (not_le.mpr hlt)
    rw [others_of_argmax hlast, List.erase_append_right _ hnew, List.erase_cons_head,
      List.append_nil]
  · rw [if_neg hlt] at hlast
    rw [others_of_argmax hlast, List.erase_append_left _ (List.argmax_mem h)]

theorem foldl_offer (l : List α) :
    l.foldl (offer f) (none, none) = (l.argmax f, (others f l).argmax f) := by
  induction l using List.reverseRecOn with
  | nil => rfl
  | append_singleton l a ih =>
      rw [List.foldl_append, ih, List.foldl_cons, List.foldl_nil]
      cases h : l.argmax f with
      | none =>
          obtain rfl := List.argmax_eq_none.mp h
          have hone : others f [a] = [] := by
            rw [others_of_argmax (List.argmax_singleton ..), List.erase_cons_head]
          rw [List.nil_append, hone, List.argmax_singleton]
          rfl
      | some t =>
          rw [others_append h, List.argmax_concat, h]
          by_cases hlt : f t < f a
          · simp only [offer, if_pos hlt, h]
          · simp only [offer, if_neg hlt, List.argmax_concat]
            cases hs : (others f l).argmax f with
            | none =>
                rw [others_of_argmax h] at hs
                rw [hs]
            | some s =>
                rw [others_of_argmax h] at hs
                rw [hs]
                dsimp only
                split_ifs <;> rfl

end Offers

end LoraMultihop.Foundation.TopTwo
