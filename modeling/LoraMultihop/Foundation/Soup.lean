/- digest: Parties that exchange messages which may be lost, repeated, late or out of order. -/

import Mathlib.Logic.Function.Basic
import Mathlib.Logic.Relation
import Mathlib.Tactic

set_option autoImplicit false
set_option relaxedAutoImplicit false

namespace LoraMultihop.Foundation.Soup

/-- One kind of party: what a step does with an input, the messages that the input delivers, and
when the step can be taken. -/
structure Machine (σ α μ : Type*) where
  step : α → σ → σ × List μ
  heard : α → List μ
  enabled : α → σ → Prop

/-- The parties and every message sent so far with its sender; nothing leaves the air, so a message
may reach a party at any later time, any number of times, or never. -/
structure Network (ι σ μ : Type*) where
  procs : ι → σ
  air : List (ι × μ)

section Run

variable {ι σ α μ : Type*} [DecidableEq ι]

/-- The network after party `i` has taken a step on input `a`. -/
def Network.act (M : Machine σ α μ) (c : Network ι σ μ) (i : ι) (a : α) : Network ι σ μ :=
  ⟨Function.update c.procs i (M.step a (c.procs i)).1,
    c.air ++ (M.step a (c.procs i)).2.map fun m => (i, m)⟩

/-- Party `i` may take input `a`: it delivers messages that parties linked to `i` have sent. -/
def Network.May (M : Machine σ α μ) (Linked : ι → ι → Prop) (c : Network ι σ μ) (i : ι) (a : α) :
    Prop :=
  M.enabled a (c.procs i) ∧ ∀ m ∈ M.heard a, ∃ j, (j, m) ∈ c.air ∧ Linked j i

inductive Step (M : Machine σ α μ) (Linked : ι → ι → Prop) (c : Network ι σ μ) :
    Network ι σ μ → Prop
  | act (i : ι) (a : α) (hmay : c.May M Linked i a) : Step M Linked c (c.act M i a)

def Reachable (M : Machine σ α μ) (Linked : ι → ι → Prop) (start c : Network ι σ μ) : Prop :=
  Relation.ReflTransGen (Step M Linked) start c

/-- The steps listed, each one allowed where it is taken. -/
def Allowed (M : Machine σ α μ) (Linked : ι → ι → Prop) : List (ι × α) → Network ι σ μ → Prop
  | [], _ => True
  | (i, a) :: rest, c => c.May M Linked i a ∧ Allowed M Linked rest (c.act M i a)

instance decidableAllowed (M : Machine σ α μ) (Linked : ι → ι → Prop) [Fintype ι]
    [DecidableEq μ] [∀ a s, Decidable (M.enabled a s)] [DecidableRel Linked] :
    ∀ steps c, Decidable (Allowed M Linked steps c)
  | [], _ => isTrue trivial
  | (i, a) :: rest, c =>
      have := decidableAllowed M Linked rest (c.act M i a)
      inferInstanceAs (Decidable ((M.enabled a (c.procs i) ∧
        ∀ m ∈ M.heard a, ∃ j, (j, m) ∈ c.air ∧ Linked j i) ∧
          Allowed M Linked rest (c.act M i a)))

def Network.run (M : Machine σ α μ) (steps : List (ι × α)) (c : Network ι σ μ) : Network ι σ μ :=
  steps.foldl (fun c s => c.act M s.1 s.2) c

theorem reachable_run {M : Machine σ α μ} {Linked : ι → ι → Prop} {steps : List (ι × α)}
    {c : Network ι σ μ} (h : Allowed M Linked steps c) : Reachable M Linked c (c.run M steps) := by
  induction steps generalizing c with
  | nil => exact Relation.ReflTransGen.refl
  | cons s steps ih => exact Relation.ReflTransGen.head (Step.act s.1 s.2 h.1) (ih h.2)

theorem run_append (M : Machine σ α μ) (steps more : List (ι × α)) (c : Network ι σ μ) :
    c.run M (steps ++ more) = (c.run M steps).run M more := List.foldl_append

theorem allowed_append {M : Machine σ α μ} {Linked : ι → ι → Prop} {steps more : List (ι × α)}
    {c : Network ι σ μ} (h : Allowed M Linked (steps ++ more) c) :
    Allowed M Linked steps c ∧ Allowed M Linked more (c.run M steps) := by
  induction steps generalizing c with
  | nil => exact ⟨trivial, h⟩
  | cons s steps ih =>
      obtain ⟨hmay, hrest⟩ := h
      obtain ⟨hsteps, hmore⟩ := ih hrest
      exact ⟨⟨hmay, hsteps⟩, hmore⟩

theorem Reachable.procs {M : Machine σ α μ} {Linked : ι → ι → Prop} {start c : Network ι σ μ}
    {P : ι → σ → Prop} (hstep : ∀ i s a, P i s → P i (M.step a s).1)
    (hstart : ∀ i, P i (start.procs i)) (hreach : Reachable M Linked start c) (i : ι) :
    P i (c.procs i) := by
  induction hreach with
  | refl => exact hstart i
  | tail _ hnext ih =>
      cases hnext with
      | act j a hmay =>
          by_cases hj : i = j
          · subst hj
            simpa [Network.act] using hstep i _ a ih
          · simpa [Network.act, Function.update_of_ne hj] using ih

def stepsOf (i : ι) (steps : List (ι × α)) : List α :=
  steps.filterMap fun s => if s.1 = i then some s.2 else none

@[simp] theorem stepsOf_cons_self (i : ι) (a : α) (steps : List (ι × α)) :
    stepsOf i ((i, a) :: steps) = a :: stepsOf i steps := by simp [stepsOf]

private theorem stepsOf_cons_ne {i j : ι} (h : j ≠ i) (a : α) (steps : List (ι × α)) :
    stepsOf i ((j, a) :: steps) = stepsOf i steps := by simp [stepsOf, h]

theorem mem_stepsOf {i : ι} {a : α} {steps : List (ι × α)} :
    a ∈ stepsOf i steps ↔ (i, a) ∈ steps := by
  rw [stepsOf, List.mem_filterMap]
  constructor
  · rintro ⟨⟨j, b⟩, hmem, hsome⟩
    split_ifs at hsome with hj
    obtain rfl := Option.some.inj hsome
    exact hj ▸ hmem
  · intro hmem
    exact ⟨(i, a), hmem, if_pos rfl⟩

/-- A party is where its own steps take it. -/
theorem run_procs (M : Machine σ α μ) (steps : List (ι × α)) (c : Network ι σ μ) (i : ι) :
    (c.run M steps).procs i =
      (stepsOf i steps).foldl (fun s a => (M.step a s).1) (c.procs i) := by
  induction steps generalizing c with
  | nil => rfl
  | cons s steps ih =>
      obtain ⟨j, a⟩ := s
      refine (ih (c.act M j a)).trans ?_
      by_cases hj : j = i
      · subst hj
        simp [Network.act]
      · have hother : (c.act M j a).procs i = c.procs i := Function.update_of_ne (Ne.symm hj) _ _
        rw [stepsOf_cons_ne hj, hother]

/-- The run in which the parties take turns as scheduled, each with the next of its inputs. -/
def weave : List ι → (ι → List α) → List (ι × α)
  | [], _ => []
  | i :: schedule, inputs =>
      match inputs i with
      | [] => weave schedule inputs
      | a :: rest => (i, a) :: weave schedule (Function.update inputs i rest)

theorem stepsOf_weave (schedule : List ι) (inputs : ι → List α) (i : ι) :
    stepsOf i (weave schedule inputs) <+: inputs i := by
  induction schedule generalizing inputs with
  | nil => exact List.nil_prefix
  | cons j schedule ih =>
      rw [weave]
      split
      · exact ih inputs
      · next a rest hj =>
        have hrest := ih (Function.update inputs j rest)
        by_cases hij : j = i
        · subst hij
          rw [Function.update_self] at hrest
          rw [hj, stepsOf_cons_self]
          exact List.cons_prefix_cons.mpr ⟨rfl, hrest⟩
        · rw [Function.update_of_ne (Ne.symm hij)] at hrest
          rwa [stepsOf_cons_ne hij]

/-- An invariant made of three parts: what each party knows of itself, what is true of each message
whatever becomes of its sender, and what the party in its present state vouches for. -/
structure Claims (ι σ μ : Type*) where
  known : ι → σ → List (ι × μ) → Prop
  sound : ι → μ → Prop
  vouched : ι → σ → μ → Prop

def Claims.Holds (C : Claims ι σ μ) (c : Network ι σ μ) : Prop :=
  (∀ i, C.known i (c.procs i) c.air) ∧ (∀ p ∈ c.air, C.sound p.1 p.2) ∧
    ∀ p ∈ c.air, ∀ i, C.vouched i (c.procs i) p.2

/-- What one step of one party has to keep, seen from that party alone. -/
structure Claims.Kept (C : Claims ι σ μ) (M : Machine σ α μ) (Linked : ι → ι → Prop) : Prop where
  mono : ∀ i s air more, C.known i s air → C.known i s (air ++ more)
  step : ∀ i s a air, C.known i s air → (∀ p ∈ air, C.sound p.1 p.2) →
    (∀ p ∈ air, C.vouched i s p.2) → M.enabled a s →
    (∀ m ∈ M.heard a, ∃ j, (j, m) ∈ air ∧ Linked j i) →
      C.known i (M.step a s).1 (air ++ (M.step a s).2.map fun m => (i, m)) ∧
        (∀ p ∈ air, C.vouched i (M.step a s).1 p.2) ∧
        ∀ m ∈ (M.step a s).2, C.sound i m ∧ C.vouched i (M.step a s).1 m ∧
          ∀ j ≠ i, ∀ t, C.vouched j t m

theorem Claims.Kept.next {C : Claims ι σ μ} {M : Machine σ α μ} {Linked : ι → ι → Prop}
    (hk : C.Kept M Linked) {c c' : Network ι σ μ} (h : C.Holds c) (hstep : Step M Linked c c') :
    C.Holds c' := by
  obtain ⟨hknown, hsound, hvouched⟩ := h
  cases hstep with
  | act i a hmay =>
      obtain ⟨hi, hold, hnew⟩ := hk.step i (c.procs i) a c.air (hknown i) hsound
        (fun p hp => hvouched p hp i) hmay.1 hmay.2
      rw [Network.act]
      refine ⟨?_, ?_, ?_⟩
      · intro j
        by_cases hj : j = i
        · subst hj
          simpa using hi
        · simpa [Function.update_of_ne hj] using hk.mono j _ _ _ (hknown j)
      · intro p hp
        cases List.mem_append.mp hp with
        | inl hp =>
            exact hsound p hp
        | inr hp =>
            obtain ⟨m, hm, rfl⟩ := List.mem_map.mp hp
            exact (hnew m hm).1
      · intro p hp j
        by_cases hj : j = i
        · subst hj
          cases List.mem_append.mp hp with
          | inl hp =>
              simpa using hold p hp
          | inr hp =>
              obtain ⟨m, hm, rfl⟩ := List.mem_map.mp hp
              simpa using (hnew m hm).2.1
        · cases List.mem_append.mp hp with
          | inl hp =>
              simpa [Function.update_of_ne hj] using hvouched p hp j
          | inr hp =>
              obtain ⟨m, hm, rfl⟩ := List.mem_map.mp hp
              exact (hnew m hm).2.2 j hj _

/-- Claims kept by every step hold in every reachable network. -/
theorem Claims.Kept.reachable {C : Claims ι σ μ} {M : Machine σ α μ} {Linked : ι → ι → Prop}
    (hk : C.Kept M Linked) {start c : Network ι σ μ} (h : C.Holds start)
    (hreach : Reachable M Linked start c) : C.Holds c := by
  induction hreach with
  | refl => exact h
  | tail _ hstep ih => exact hk.next ih hstep

end Run

end LoraMultihop.Foundation.Soup
