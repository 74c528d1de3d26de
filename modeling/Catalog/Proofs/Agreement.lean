import Catalog.Proofs.Outcome

/-!
# Agreement of two runs

What one operation does on two stores is compared outcome by outcome. A fault tells nothing, so two
outcomes *agree* if they are the same or one of them is a fault (`Agrees`); two computations that
can only meet a fault are *compatible* if they do not give two different values (`Compatible`).

Both go from the steps of an operation to the operation itself (`Agrees.bind`, `Compatible.bind`),
which is how they are proved: a step that does not read the store agrees with itself.
-/

namespace Catalog

variable {ε α β : Type}

/-- Two computations do not give two different values. -/
def Compatible (x y : Except ε α) : Prop := ∀ a b, x = .ok a → y = .ok b → a = b

/-- An outcome is a fault. -/
def Broken (x : Outcome α) : Prop := ∃ f, x = .error (.broken f)

/-- Two outcomes are the same, unless one of them is a fault. -/
def Agrees (x y : Outcome α) : Prop := ¬Broken x → ¬Broken y → x = y

namespace Compatible

theorem refl (x : Except ε α) : Compatible x x := by
  intro a b ha hb
  rw [ha] at hb
  cases hb
  rfl

theorem bind {x y : Except ε α} {k l : α → Except ε β} (h : Compatible x y)
    (hk : ∀ a, Compatible (k a) (l a)) : Compatible (x >>= k) (y >>= l) := by
  intro b c hb hc
  obtain ⟨a, ha, hb⟩ := bind_eq_ok.1 hb
  obtain ⟨a', ha', hc⟩ := bind_eq_ok.1 hc
  cases h a a' ha ha'
  exact hk a b c hb hc

theorem mapM {k l : α → Except ε β} (xs : List α) (h : ∀ x, Compatible (k x) (l x)) :
    Compatible (xs.mapM k) (xs.mapM l) := by
  induction xs with
  | nil => exact refl _
  | cons x xs ih =>
    rw [List.mapM_cons, List.mapM_cons]
    exact (h x).bind fun y => ih.bind fun ys => refl _

end Compatible

theorem not_broken_bind {x : Outcome α} {k : α → Outcome β} (h : ¬Broken (x >>= k)) :
    ¬Broken x := by
  rintro ⟨f, rfl⟩
  exact h ⟨f, rfl⟩

namespace Agrees

theorem refl (x : Outcome α) : Agrees x x := fun _ _ => rfl

theorem bind {x y : Outcome α} {k l : α → Outcome β} (h : Agrees x y)
    (hk : ∀ a, Agrees (k a) (l a)) : Agrees (x >>= k) (y >>= l) := by
  intro hx hy
  have hxy := h (not_broken_bind hx) (not_broken_bind hy)
  subst hxy
  cases x with
  | error e => rfl
  | ok a => exact hk a hx hy

/-- Compatible computations agree as outcomes: neither is refused. -/
theorem lift {x y : Except Fault α} (h : Compatible x y) : Agrees (x : Outcome α) y := by
  intro hx hy
  cases x with
  | error e => exact absurd ⟨e, rfl⟩ hx
  | ok a =>
    cases y with
    | error e => exact absurd ⟨e, rfl⟩ hy
    | ok b => rw [h a b rfl rfl]

end Agrees

end Catalog
