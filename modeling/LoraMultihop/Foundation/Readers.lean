/- digest: Readers of a stream, and the format that each of them reads exactly. -/

import Mathlib.Data.List.Infix
import Mathlib.Tactic.Common

set_option autoImplicit false
set_option relaxedAutoImplicit false

namespace LoraMultihop.Foundation.Readers

/-- A stream, and how far it has been read. -/
structure Cursor (β : Type) where
  data : List β
  pos : Nat

/-- A reader fails because the stream ends, or for a reason of its own. -/
inductive Failure (ε : Type)
  | eof
  | other (e : ε)

abbrev Reader (β ε α : Type) := StateT (Cursor β) (Except (Failure ε)) α

/-- Which lists of items stand for which values. -/
abbrev Format (β α : Type) := α → List β → Prop

section Cursors

variable {β : Type} {c : Cursor β} {bs : List β}

def Cursor.rest (c : Cursor β) : List β := c.data.drop c.pos

def Cursor.advance (c : Cursor β) (n : Nat) : Cursor β := { c with pos := c.pos + n }

/-- Nothing beyond the stream has been read. -/
def Cursor.Within (c : Cursor β) : Prop := c.pos ≤ c.data.length

@[simp] theorem Cursor.rest_advance (n : Nat) : (c.advance n).rest = c.rest.drop n := by
  rw [Cursor.rest, Cursor.rest, List.drop_drop, Cursor.advance]

@[simp] theorem Cursor.advance_zero : c.advance 0 = c := rfl

private theorem Cursor.advance_advance (m n : Nat) :
    (c.advance m).advance n = c.advance (m + n) := by
  rw [Cursor.advance, Cursor.advance, Cursor.advance, Nat.add_assoc]

private theorem Cursor.Within.advance (hc : c.Within) (h : bs <+: c.rest) :
    (c.advance bs.length).Within := by
  have hlen := h.length_le
  rw [Cursor.rest, List.length_drop] at hlen
  rw [Cursor.Within] at hc ⊢
  change c.pos + bs.length ≤ c.data.length
  omega

end Cursors

section Formats

variable {β α γ : Type} {G : Format β α} {H : α → Format β γ}

/-- The items end inside a value of the format. -/
def Format.Cut (G : Format β α) (bs : List β) : Prop := ∃ a more, more ≠ [] ∧ G a (bs ++ more)

def Format.Seq (G : Format β α) (H : α → Format β γ) : Format β γ := fun b bs =>
  ∃ a bs₁ bs₂, G a bs₁ ∧ H a b bs₂ ∧ bs = bs₁ ++ bs₂

inductive Format.Each (G : Format β α) : Format β (List α)
  | nil : Format.Each G [] []
  | cons {a : α} {as : List α} {bs rest : List β} (head : G a bs) (tail : Format.Each G as rest) :
      Format.Each G (a :: as) (bs ++ rest)

private theorem Format.cut_seq {bs : List β} (h : (Format.Seq G H).Cut bs) :
    G.Cut bs ∨ ∃ a bs₁ bs₂, G a bs₁ ∧ bs = bs₁ ++ bs₂ ∧ (H a).Cut bs₂ := by
  obtain ⟨b, more, hmore, a, bs₁, bs₂, hfirst, hsecond, heq⟩ := h
  rcases List.append_eq_append_iff.mp heq with ⟨mid, rfl, rfl⟩ | ⟨mid, rfl, rfl⟩
  · rcases eq_or_ne mid [] with rfl | hmid
    · refine Or.inr ⟨a, bs, [], ?_, (List.append_nil bs).symm, b, bs₂, ?_, hsecond⟩
      · rwa [List.append_nil] at hfirst
      · rwa [List.nil_append] at hmore
    · exact Or.inl ⟨a, mid, hmid, hfirst⟩
  · exact Or.inr ⟨a, bs₁, mid, hfirst, rfl, b, more, hmore, hsecond⟩

end Formats

section Readers

variable {β ε α γ : Type} {p : Reader β ε α} {q : α → Reader β ε γ} {G : Format β α}
  {H : α → Format β γ} {c : Cursor β}

/-- The reader returns a value exactly where the stream goes on with it, and stands behind it. -/
def Accepts (p : Reader β ε α) (G : Format β α) : Prop :=
  ∀ ⦃c : Cursor β⦄, c.Within → ∀ a c', p.run c = .ok (a, c') ↔
    ∃ bs, G a bs ∧ bs <+: c.rest ∧ c' = c.advance bs.length

/-- Also, the reader runs into the end of the stream exactly where it is cut off inside a value. -/
structure Tracks (p : Reader β ε α) (G : Format β α) : Prop where
  accepts : Accepts p G
  ends : ∀ ⦃c : Cursor β⦄, c.Within → (p.run c = .error .eof ↔ G.Cut c.rest)

theorem run_bind_ok {b : γ} {c' : Cursor β} : (p >>= q).run c = .ok (b, c') ↔
    ∃ a mid, p.run c = .ok (a, mid) ∧ (q a).run mid = .ok (b, c') := by
  rw [StateT.run_bind]
  cases p.run c with
  | error e => exact ⟨fun h => absurd h (by simp [bind, Except.bind]), by simp⟩
  | ok r => exact ⟨fun h => ⟨r.1, r.2, rfl, h⟩, fun ⟨_, _, hr, h⟩ => by cases hr; exact h⟩

private theorem run_bind_error {e : Failure ε} : (p >>= q).run c = .error e ↔
    p.run c = .error e ∨ ∃ a mid, p.run c = .ok (a, mid) ∧ (q a).run mid = .error e := by
  rw [StateT.run_bind]
  cases p.run c with
  | error e' => simp [bind, Except.bind]
  | ok r =>
      refine ⟨fun h => Or.inr ⟨r.1, r.2, rfl, h⟩, ?_⟩
      rintro (hr | ⟨a, mid, hr, h⟩)
      · cases hr
      · cases hr
        exact h

/-- What a reader that has returned has read, and what it has left. -/
theorem Accepts.of_run (hp : Accepts p G) (hc : c.Within) {a : α} {c' : Cursor β}
    (h : p.run c = .ok (a, c')) : ∃ bs rest, G a bs ∧ c.rest = bs ++ rest ∧ c'.rest = rest ∧
      c'.Within ∧ c' = c.advance bs.length := by
  obtain ⟨bs, hG, hpre, rfl⟩ := (hp hc a c').mp h
  have hwithin := hc.advance hpre
  obtain ⟨rest, hrest⟩ := hpre
  refine ⟨bs, rest, hG, hrest.symm, ?_, hwithin, rfl⟩
  rw [Cursor.rest_advance, ← hrest, List.drop_left]

theorem Accepts.run_of (hp : Accepts p G) (hc : c.Within) {a : α} {bs rest : List β} (hG : G a bs)
    (hrest : c.rest = bs ++ rest) : ∃ c', p.run c = .ok (a, c') ∧ c'.Within ∧ c'.rest = rest ∧
      c'.pos = c.pos + bs.length := by
  have hpre : bs <+: c.rest := ⟨rest, hrest.symm⟩
  refine ⟨c.advance bs.length, (hp hc a _).mpr ⟨bs, hG, hpre, rfl⟩, hc.advance hpre, ?_, rfl⟩
  rw [Cursor.rest_advance, hrest, List.drop_left]

theorem Accepts.congr {G' : Format β α} (hp : Accepts p G) (h : ∀ a bs, G a bs ↔ G' a bs) :
    Accepts p G' := by
  intro c hc a c'
  simp only [hp hc a c', h]

theorem Tracks.congr {G' : Format β α} (hp : Tracks p G) (h : ∀ a bs, G a bs ↔ G' a bs) :
    Tracks p G' := by
  refine ⟨hp.accepts.congr h, fun c hc => ?_⟩
  simp only [hp.ends hc, Format.Cut, h]

theorem accepts_pure (a : α) : Accepts (pure a : Reader β ε α) fun b bs => b = a ∧ bs = [] := by
  intro c hc b c'
  constructor
  · intro h
    cases h
    exact ⟨[], ⟨rfl, rfl⟩, List.nil_prefix, rfl⟩
  · rintro ⟨bs, ⟨rfl, rfl⟩, -, rfl⟩
    rfl

theorem tracks_pure (a : α) : Tracks (pure a : Reader β ε α) fun b bs => b = a ∧ bs = [] := by
  refine ⟨accepts_pure a, fun c hc => ?_⟩
  constructor
  · intro h
    cases h
  · rintro ⟨b, more, hmore, -, hnil⟩
    exact absurd (List.append_eq_nil_iff.mp hnil).2 hmore

theorem accepts_throw (e : ε) :
    Accepts (throw (.other e) : Reader β ε α) fun _ _ => False := by
  intro c hc a c'
  constructor
  · intro h
    cases h
  · rintro ⟨bs, hfalse, -⟩
    exact hfalse.elim

theorem tracks_throw (e : ε) : Tracks (throw (.other e) : Reader β ε α) fun _ _ => False := by
  refine ⟨accepts_throw e, fun c hc => ?_⟩
  constructor
  · intro h
    cases h
  · rintro ⟨a, more, -, hfalse⟩
    exact hfalse.elim

theorem Accepts.bind (hp : Accepts p G) (hq : ∀ a, Accepts (q a) (H a)) :
    Accepts (p >>= q) (G.Seq H) := by
  intro c hc b c'
  rw [run_bind_ok]
  constructor
  · rintro ⟨a, mid, hfirst, hsecond⟩
    obtain ⟨bs₁, hG, hpre, rfl⟩ := (hp hc a mid).mp hfirst
    obtain ⟨bs₂, hH, hpre₂, rfl⟩ := (hq a (hc.advance hpre) b c').mp hsecond
    refine ⟨bs₁ ++ bs₂, ⟨a, bs₁, bs₂, hG, hH, rfl⟩, ?_, ?_⟩
    · obtain ⟨rest, hrest⟩ := hpre
      rw [Cursor.rest_advance, ← hrest, List.drop_left] at hpre₂
      rw [← hrest]
      exact List.prefix_append_right_inj bs₁ |>.mpr hpre₂
    · rw [Cursor.advance_advance, List.length_append]
  · rintro ⟨bs, ⟨a, bs₁, bs₂, hG, hH, rfl⟩, hpre, rfl⟩
    have hpre₁ : bs₁ <+: c.rest := (List.prefix_append bs₁ bs₂).trans hpre
    refine ⟨a, c.advance bs₁.length, (hp hc a _).mpr ⟨bs₁, hG, hpre₁, rfl⟩, ?_⟩
    refine (hq a (hc.advance hpre₁) b _).mpr ⟨bs₂, hH, ?_, ?_⟩
    · obtain ⟨rest, hrest⟩ := hpre
      rw [Cursor.rest_advance, ← hrest, List.append_assoc, List.drop_left]
      exact List.prefix_append bs₂ rest
    · rw [Cursor.advance_advance, List.length_append]

theorem Tracks.bind (hp : Tracks p G) (hq : ∀ a, Tracks (q a) (H a))
    (hgoes : ∀ bs, G.Cut bs → ∃ a more, more ≠ [] ∧ G a (bs ++ more) ∧ ∃ b bs₂, H a b bs₂) :
    Tracks (p >>= q) (G.Seq H) := by
  refine ⟨hp.accepts.bind fun a => (hq a).accepts, fun c hc => ?_⟩
  rw [run_bind_error]
  constructor
  · rintro (hfirst | ⟨a, mid, hfirst, hsecond⟩)
    · obtain ⟨a, more, hmore, hG, b, bs₂, hH⟩ := hgoes _ ((hp.ends hc).mp hfirst)
      refine ⟨b, more ++ bs₂, fun hnil => hmore (List.append_eq_nil_iff.mp hnil).1, a,
        c.rest ++ more, bs₂, hG, hH, ?_⟩
      rw [List.append_assoc]
    · obtain ⟨bs₁, hG, hpre, rfl⟩ := (hp.accepts hc a mid).mp hfirst
      obtain ⟨b, more, hmore, hH⟩ := ((hq a).ends (hc.advance hpre)).mp hsecond
      obtain ⟨rest, hrest⟩ := hpre
      rw [Cursor.rest_advance, ← hrest, List.drop_left] at hH
      refine ⟨b, more, hmore, a, bs₁, rest ++ more, hG, hH, ?_⟩
      rw [← hrest, List.append_assoc]
  · intro hcut
    rcases Format.cut_seq hcut with hfirst | ⟨a, bs₁, bs₂, hG, hrest, hsecond⟩
    · exact Or.inl ((hp.ends hc).mpr hfirst)
    · have hpre : bs₁ <+: c.rest := ⟨bs₂, hrest.symm⟩
      refine Or.inr ⟨a, c.advance bs₁.length, (hp.accepts hc a _).mpr ⟨bs₁, hG, hpre, rfl⟩, ?_⟩
      apply ((hq a).ends (hc.advance hpre)).mpr
      rwa [Cursor.rest_advance, hrest, List.drop_left]

theorem Tracks.ite {P : Prop} [Decidable P] {p' : Reader β ε α} (hp : P → Tracks p G)
    (hp' : ¬ P → Tracks p' G) : Tracks (if P then p else p') G := by
  split_ifs with hP
  · exact hp hP
  · exact hp' hP

/-- A reader of a format that has values. -/
structure Reads (p : Reader β ε α) (G : Format β α) : Prop extends Tracks p G where
  goes : ∃ a bs, G a bs

theorem Reads.congr {G' : Format β α} (hp : Reads p G) (h : ∀ a bs, G a bs ↔ G' a bs) :
    Reads p G' := by
  obtain ⟨a, bs, hG⟩ := hp.goes
  exact ⟨hp.toTracks.congr h, a, bs, (h a bs).mp hG⟩

theorem reads_pure (a : α) : Reads (pure a : Reader β ε α) fun b bs => b = a ∧ bs = [] :=
  ⟨tracks_pure a, a, [], rfl, rfl⟩

theorem Reads.bind (hp : Reads p G) (hq : ∀ a, Reads (q a) (H a)) :
    Reads (p >>= q) (G.Seq H) := by
  constructor
  · refine hp.toTracks.bind (fun a => (hq a).toTracks) fun bs hcut => ?_
    obtain ⟨a, more, hmore, hG⟩ := hcut
    exact ⟨a, more, hmore, hG, (hq a).goes⟩
  · obtain ⟨a, bs₁, hfirst⟩ := hp.goes
    obtain ⟨b, bs₂, hsecond⟩ := (hq a).goes
    exact ⟨b, bs₁ ++ bs₂, a, bs₁, bs₂, hfirst, hsecond, rfl⟩

theorem Reads.ite {P : Prop} [Decidable P] {p' : Reader β ε α} (hp : P → Reads p G)
    (hp' : ¬ P → Reads p' G) : Reads (if P then p else p') G := by
  split_ifs with hP
  · exact hp hP
  · exact hp' hP

def times (p : Reader β ε α) : Nat → Reader β ε (List α)
  | 0 => pure []
  | n + 1 => do
      let a ← p
      let as ← times p n
      return a :: as

theorem Accepts.times (hp : Accepts p G) (n : Nat) :
    Accepts (times p n) fun as bs => as.length = n ∧ Format.Each G as bs := by
  induction n with
  | zero =>
      refine (accepts_pure []).congr fun as bs => ⟨?_, ?_⟩
      · rintro ⟨rfl, rfl⟩
        exact ⟨rfl, .nil⟩
      · rintro ⟨hlen, heach⟩
        obtain rfl := List.length_eq_zero_iff.mp hlen
        cases heach
        exact ⟨rfl, rfl⟩
  | succ n ih =>
      refine (hp.bind fun a => ih.bind fun as => accepts_pure (a :: as)).congr fun as bs => ⟨?_, ?_⟩
      · rintro ⟨a, bs₁, bs₂, hhead, ⟨rest, bs₃, bs₄, ⟨hlen, htail⟩, ⟨rfl, rfl⟩, rfl⟩, rfl⟩
        rw [List.append_nil]
        exact ⟨congrArg (· + 1) hlen, .cons hhead htail⟩
      · rintro ⟨hlen, heach⟩
        cases heach with
        | nil => exact absurd hlen (by simp)
        | @cons a rest bs₁ bs₂ hhead htail =>
            exact ⟨a, bs₁, bs₂, hhead, ⟨rest, bs₂, [], ⟨Nat.succ_inj.mp hlen, htail⟩,
              ⟨rfl, rfl⟩, (List.append_nil bs₂).symm⟩, rfl⟩

end Readers

section Collecting

variable {β ε α γ : Type}

/-- Tracks values and takes each of them, until nothing is left, the stream ends inside a value or a
value says to stop. Without fuel there is no result. -/
def collect (next : Reader β ε (Option α)) (take : α → Except ε γ) :
    Nat → Cursor β → Option (Except ε (List γ))
  | 0, _ => none
  | fuel + 1, c =>
      if c.data.length ≤ c.pos then some (.ok [])
      else
        match next.run c with
        | .error .eof => some (.ok [])
        | .error (.other e) => some (.error e)
        | .ok (none, _) => some (.ok [])
        | .ok (some a, c') =>
            match take a with
            | .error e => some (.error e)
            | .ok g => (collect next take fuel c').map fun r => r.map (g :: ·)

/-- Where the values end: nothing is left, or a value cut off, or one that says to stop. -/
def Format.Stops (G : Format β (Option α)) (tail : List β) : Prop :=
  tail = [] ∨ G.Cut tail ∨ ∃ bs, G none bs ∧ bs <+: tail

section Turns

variable {next : Reader β ε (Option α)} {take : α → Except ε γ} {G : Format β (Option α)}
  {fuel : Nat} {c : Cursor β}

private theorem Cursor.rest_eq_nil : c.rest = [] ↔ c.data.length ≤ c.pos := List.drop_eq_nil_iff

private theorem collect_stops (hnext : Tracks next G) (h : G.Stops c.rest) :
    collect next take (fuel + 1) c = some (.ok []) := by
  rw [collect]
  split_ifs with hend
  · rfl
  · have hc : c.Within := Nat.le_of_not_le hend
    rcases h with hnil | hcut | ⟨bs, hG, hpre⟩
    · exact absurd (Cursor.rest_eq_nil.mp hnil) hend
    · rw [(hnext.ends hc).mpr hcut]
    · rw [(hnext.accepts hc none _).mpr ⟨bs, hG, hpre, rfl⟩]

private theorem collect_value (hnext : Tracks next G) {a : α} {bs : List β}
    (hG : G (some a) bs) (hlong : bs ≠ []) (hpre : bs <+: c.rest) {g : γ}
    (htake : take a = .ok g) :
    collect next take (fuel + 1) c =
      (collect next take fuel (c.advance bs.length)).map fun r => r.map (g :: ·) := by
  have hend : ¬ c.data.length ≤ c.pos := by
    rw [← Cursor.rest_eq_nil]
    intro hnil
    rw [hnil] at hpre
    exact hlong (List.prefix_nil.mp hpre)
  have hc : c.Within := Nat.le_of_not_le hend
  rw [collect, if_neg hend, (hnext.accepts hc (some a) _).mpr ⟨bs, hG, hpre, rfl⟩]
  dsimp only
  rw [htake]

private theorem collect_cases (hnext : Tracks next G) {gs : List γ}
    (h : collect next take (fuel + 1) c = some (.ok gs)) : gs = [] ∧ G.Stops c.rest ∨
      ∃ a bs g rest, G (some a) bs ∧ bs <+: c.rest ∧ take a = .ok g ∧ gs = g :: rest ∧
        collect next take fuel (c.advance bs.length) = some (.ok rest) := by
  rw [collect] at h
  split_ifs at h with hend
  · exact Or.inl ⟨by simpa using h.symm, Or.inl (Cursor.rest_eq_nil.mpr hend)⟩
  · have hc : c.Within := Nat.le_of_not_le hend
    cases hrun : next.run c with
    | error e =>
        rw [hrun] at h
        cases e with
        | eof => exact Or.inl ⟨by simpa using h.symm, Or.inr (Or.inl ((hnext.ends hc).mp hrun))⟩
        | other e => exact absurd h (by simp)
    | ok r =>
        obtain ⟨value, c'⟩ := r
        obtain ⟨bs, hG, hpre, rfl⟩ := (hnext.accepts hc value c').mp hrun
        rw [hrun] at h
        cases value with
        | none => exact Or.inl ⟨by simpa using h.symm, Or.inr (Or.inr ⟨bs, hG, hpre⟩)⟩
        | some a =>
            dsimp only at h
            cases htake : take a with
            | error e => exact absurd h (by simp [htake])
            | ok g =>
                rw [htake] at h
                dsimp only at h
                obtain ⟨result, hcollect, hresult⟩ := Option.map_eq_some_iff.mp h
                cases result with
                | error e => exact absurd hresult (by simp [Except.map])
                | ok rest =>
                    have hgs : g :: rest = gs := by simpa [Except.map] using hresult
                    exact Or.inr ⟨a, bs, g, rest, hG, hpre, htake, hgs.symm, hcollect⟩

end Turns

theorem collect_ok_iff {next : Reader β ε (Option α)} {take : α → Except ε γ}
    {G : Format β (Option α)} (hnext : Tracks next G)
    (hlong : ∀ a bs, G (some a) bs → bs ≠ []) {fuel : Nat} {c : Cursor β}
    (hfuel : c.rest.length < fuel) {gs : List γ} :
    collect next take fuel c = some (.ok gs) ↔
      ∃ as bs tail, c.rest = bs ++ tail ∧ Format.Each (fun a => G (some a)) as bs ∧ G.Stops tail ∧
        List.Forall₂ (fun a g => take a = .ok g) as gs := by
  induction fuel generalizing c gs with
  | zero => exact absurd hfuel (Nat.not_lt_zero _)
  | succ fuel ih =>
      -- One value, and the rest of the stream behind it.
      have hturn {a : α} {bs : List β} (hG : G (some a) bs) (hpre : bs <+: c.rest) :
          (c.advance bs.length).rest.length < fuel := by
        have hpos := List.length_pos_iff.mpr (hlong a bs hG)
        have hlen := hpre.length_le
        rw [Cursor.rest_advance, List.length_drop]
        omega
      constructor
      · intro h
        rcases collect_cases hnext h with
          ⟨rfl, hstop⟩ | ⟨a, bs, g, rest, hG, hpre, htake, rfl, hcollect⟩
        · exact ⟨[], [], c.rest, rfl, .nil, hstop, .nil⟩
        · obtain ⟨as, bs', tail, hrest, heach, hstop, hall⟩ := (ih (hturn hG hpre)).mp hcollect
          obtain ⟨after, hafter⟩ := hpre
          rw [Cursor.rest_advance, ← hafter, List.drop_left] at hrest
          refine ⟨a :: as, bs ++ bs', tail, ?_, .cons hG heach, hstop, .cons htake hall⟩
          rw [← hafter, hrest, List.append_assoc]
      · rintro ⟨as, bs, tail, hrest, heach, hstop, hall⟩
        cases heach with
        | nil =>
            cases hall
            exact collect_stops hnext (hrest ▸ hstop)
        | @cons a as bs₁ bs₂ hhead heach =>
            cases hall with
            | @cons _ g _ rest htake hall =>
                have hpre : bs₁ <+: c.rest := ⟨bs₂ ++ tail, by rw [hrest, List.append_assoc]⟩
                have hafter : (c.advance bs₁.length).rest = bs₂ ++ tail := by
                  rw [Cursor.rest_advance, hrest, List.append_assoc, List.drop_left]
                rw [collect_value hnext hhead (hlong a bs₁ hhead) hpre htake,
                  (ih (hturn hhead hpre)).mpr ⟨as, bs₂, tail, hafter, heach, hstop, hall⟩]
                rfl

end Collecting

end LoraMultihop.Foundation.Readers
