/- digest: Where the values that parties hold and pass on have come from. -/

import LoraMultihop.Foundation.Soup

set_option autoImplicit false
set_option relaxedAutoImplicit false

namespace LoraMultihop.Foundation.Provenance

open LoraMultihop.Foundation.Soup

/-- Which values a party holds, which a message carries, and which a step brings in from outside
the network. -/
structure Tracing (σ α μ κ : Type*) where
  holds : σ → κ → Prop
  carries : μ → κ → Prop
  brings : α → σ → κ → Prop

section Sources

variable {ι σ α μ κ : Type*}

/-- Where a step on `a` can have a value from: the party, a message it hears, or outside. -/
def Tracing.Source (T : Tracing σ α μ κ) (M : Machine σ α μ) (a : α) (s : σ) (x : κ) : Prop :=
  T.holds s x ∨ (∃ m ∈ M.heard a, T.carries m x) ∨ T.brings a s x

/-- No step of a party makes a value up. -/
structure Tracing.Conserved (T : Tracing σ α μ κ) (M : Machine σ α μ) : Prop where
  held : ∀ a s x, M.enabled a s → T.holds (M.step a s).1 x → T.Source M a s x
  said : ∀ a s m x, M.enabled a s → m ∈ (M.step a s).2 → T.carries m x → T.Source M a s x

/-- Some party holds the value, or a message on the air carries it. -/
def Tracing.Present (T : Tracing σ α μ κ) (c : Network ι σ μ) (x : κ) : Prop :=
  (∃ i, T.holds (c.procs i) x) ∨ ∃ p ∈ c.air, T.carries p.2 x

variable [DecidableEq ι]

/-- One of the steps listed brings the value in, at the state it finds its party in. -/
def Tracing.Brought (T : Tracing σ α μ κ) (M : Machine σ α μ) (steps : List (ι × α))
    (c : Network ι σ μ) (x : κ) : Prop :=
  ∃ before i a after, steps = before ++ (i, a) :: after ∧
    T.brings a ((c.run M before).procs i) x

variable {T : Tracing σ α μ κ} {M : Machine σ α μ} {Linked : ι → ι → Prop}

private theorem Tracing.Conserved.next (hT : T.Conserved M) {c : Network ι σ μ} {i : ι} {a : α}
    (hmay : c.May M Linked i a) {x : κ} (h : T.Present (c.act M i a) x) :
    T.Present c x ∨ T.brings a (c.procs i) x := by
  have hsource (hs : T.Source M a (c.procs i) x) : T.Present c x ∨ T.brings a (c.procs i) x := by
    rcases hs with hheld | ⟨m, hm, hcarries⟩ | hbrings
    · exact Or.inl (Or.inl ⟨i, hheld⟩)
    · obtain ⟨j, hair, -⟩ := hmay.2 m hm
      exact Or.inl (Or.inr ⟨(j, m), hair, hcarries⟩)
    · exact Or.inr hbrings
  rcases h with ⟨j, hj⟩ | ⟨p, hp, hcarries⟩
  · by_cases hij : j = i
    · subst hij
      apply hsource
      apply hT.held a _ x hmay.1
      simpa [Network.act] using hj
    · refine Or.inl (Or.inl ⟨j, ?_⟩)
      simpa [Network.act, Function.update_of_ne hij] using hj
  · cases List.mem_append.mp hp with
    | inl hold =>
        exact Or.inl (Or.inr ⟨p, hold, hcarries⟩)
    | inr hnew =>
        obtain ⟨m, hm, rfl⟩ := List.mem_map.mp hnew
        exact hsource (hT.said a _ m x hmay.1 hm hcarries)

/-- Whatever is present at the end of a run was present at its start, or a step of the run brought
it in. -/
theorem Tracing.Conserved.run (hT : T.Conserved M) {steps : List (ι × α)} {c : Network ι σ μ}
    (hallowed : Allowed M Linked steps c) {x : κ} (h : T.Present (c.run M steps) x) :
    T.Present c x ∨ T.Brought M steps c x := by
  induction steps generalizing c with
  | nil => exact Or.inl h
  | cons s steps ih =>
      obtain ⟨i, a⟩ := s
      obtain ⟨hmay, hrest⟩ := hallowed
      rcases ih hrest h with hpresent | ⟨before, j, b, after, heq, hbrings⟩
      · rcases hT.next hmay hpresent with hpresent | hbrings
        · exact Or.inl hpresent
        · exact Or.inr ⟨[], i, a, steps, rfl, hbrings⟩
      · refine Or.inr ⟨(i, a) :: before, j, b, after, ?_, hbrings⟩
        rw [heq, List.cons_append]

end Sources

end LoraMultihop.Foundation.Provenance
