/- digest: When networks of one kind of party do what networks of another kind do. -/

import LoraMultihop.Foundation.Soup

set_option autoImplicit false
set_option relaxedAutoImplicit false

namespace LoraMultihop.Foundation.Simulation

open LoraMultihop.Foundation.Soup

section Parties

variable {σ α μ σ' α' μ' ο : Type*}

/-- Every step of a party of the first kind is matched by one of the second: on messages that stand
for those it hears it sends messages that stand for its own, with the same outcome. -/
structure Simulates (M : Machine σ α μ) (M' : Machine σ' α' μ') (out : α → σ → ο)
    (out' : α' → σ' → ο) (R : σ → σ' → Prop) (Q : μ → μ' → Prop) : Prop where
  step : ∀ a s s' ms', M.enabled a s → R s s' → List.Forall₂ Q (M.heard a) ms' →
    ∃ a', M'.enabled a' s' ∧ M'.heard a' ⊆ ms' ∧ R (M.step a s).1 (M'.step a' s').1 ∧
      List.Forall₂ Q (M.step a s).2 (M'.step a' s').2 ∧ out a s = out' a' s'

end Parties

section Networks

variable {ι σ α μ σ' α' μ' ο : Type*} {R : σ → σ' → Prop} {Q : μ → μ' → Prop}

/-- The parties are related, and the messages sent so far are, one by one. -/
structure Related (R : σ → σ' → Prop) (Q : μ → μ' → Prop) (c : Network ι σ μ)
    (c' : Network ι σ' μ') : Prop where
  procs : ∀ i, R (c.procs i) (c'.procs i)
  air : List.Forall₂ (fun p p' => p.1 = p'.1 ∧ Q p.2 p'.2) c.air c'.air

private theorem forall₂_exists {l : List μ} {P : μ' → Prop} (h : ∀ m ∈ l, ∃ m', Q m m' ∧ P m') :
    ∃ l', List.Forall₂ Q l l' ∧ ∀ m' ∈ l', P m' := by
  induction l with
  | nil => exact ⟨[], .nil, fun m' hm' => absurd hm' List.not_mem_nil⟩
  | cons m l ih =>
      obtain ⟨m', hq, hm'⟩ := h m List.mem_cons_self
      obtain ⟨l', hl', hall⟩ := ih fun n hn => h n (List.mem_cons_of_mem _ hn)
      exact ⟨m' :: l', .cons hq hl', List.forall_mem_cons.mpr ⟨hm', hall⟩⟩

private theorem Related.counterpart {c : Network ι σ μ} {c' : Network ι σ' μ'}
    (h : Related R Q c c')
    {j : ι} {m : μ} (hm : (j, m) ∈ c.air) : ∃ m', Q m m' ∧ (j, m') ∈ c'.air := by
  have hair := h.air
  generalize c.air = air at hair hm
  generalize c'.air = air' at hair
  induction hair with
  | nil => exact absurd hm List.not_mem_nil
  | @cons p p' l l' hp _ ih =>
      cases List.mem_cons.mp hm with
      | inl hm =>
          subst hm
          obtain ⟨j', m'⟩ := p'
          obtain ⟨hj, hq⟩ := hp
          dsimp only at hj hq
          subst hj
          exact ⟨m', hq, List.mem_cons_self⟩
      | inr hm =>
          obtain ⟨m', hq, hm'⟩ := ih hm
          exact ⟨m', hq, List.mem_cons_of_mem _ hm'⟩

variable [DecidableEq ι]

def outcomes (M : Machine σ α μ) (out : α → σ → ο) : List (ι × α) → Network ι σ μ → List (ι × ο)
  | [], _ => []
  | (i, a) :: steps, c => (i, out a (c.procs i)) :: outcomes M out steps (c.act M i a)

variable {M : Machine σ α μ} {M' : Machine σ' α' μ'} {out : α → σ → ο} {out' : α' → σ' → ο}
  {Linked : ι → ι → Prop}

private theorem Simulates.act (hsim : Simulates M M' out out' R Q) {c : Network ι σ μ}
    {c' : Network ι σ' μ'} (h : Related R Q c c') {i : ι} {a : α} (hmay : c.May M Linked i a) :
    ∃ a', c'.May M' Linked i a' ∧ Related R Q (c.act M i a) (c'.act M' i a') ∧
      out a (c.procs i) = out' a' (c'.procs i) := by
  have hheard : ∀ m ∈ M.heard a, ∃ m', Q m m' ∧ ∃ j, (j, m') ∈ c'.air ∧ Linked j i := by
    intro m hm
    obtain ⟨j, hair, hlinked⟩ := hmay.2 m hm
    obtain ⟨m', hq, hm'⟩ := h.counterpart hair
    exact ⟨m', hq, j, hm', hlinked⟩
  obtain ⟨ms', hms', hon⟩ := forall₂_exists hheard
  obtain ⟨a', henabled, hsub, hrel, hsent, hout⟩ :=
    hsim.step a (c.procs i) (c'.procs i) ms' hmay.1 (h.procs i) hms'
  refine ⟨a', ⟨henabled, fun m hm => hon m (hsub hm)⟩, ⟨?_, ?_⟩, hout⟩
  · intro j
    rw [Network.act, Network.act]
    by_cases hj : j = i
    · subst hj
      simpa using hrel
    · simpa [Function.update_of_ne hj] using h.procs j
  · apply List.rel_append h.air
    rw [List.forall₂_map_left_iff, List.forall₂_map_right_iff]
    exact hsent.imp fun _ _ hq => ⟨rfl, hq⟩

/-- Every run of the first kind of network is matched, step by step and with the same outcomes, by
one of the second. -/
theorem Simulates.run (hsim : Simulates M M' out out' R Q) {steps : List (ι × α)}
    {c : Network ι σ μ} {c' : Network ι σ' μ'} (h : Related R Q c c')
    (hallowed : Allowed M Linked steps c) :
    ∃ steps', Allowed M' Linked steps' c' ∧
      Related R Q (c.run M steps) (c'.run M' steps') ∧
        outcomes M out steps c = outcomes M' out' steps' c' := by
  induction steps generalizing c c' with
  | nil => exact ⟨[], trivial, h, rfl⟩
  | cons s steps ih =>
      obtain ⟨i, a⟩ := s
      obtain ⟨hmay, hrest⟩ := hallowed
      obtain ⟨a', hmay', hrel, hout⟩ := hsim.act h hmay
      obtain ⟨steps', hallowed', hend, houts⟩ := ih hrel hrest
      refine ⟨(i, a') :: steps', ⟨hmay', hallowed'⟩, hend, ?_⟩
      rw [outcomes, outcomes, hout, houts]

end Networks

end LoraMultihop.Foundation.Simulation
