import Catalog.Proofs.Outcome

/-!
# Computations with the same result

Work that is done in another order, or in parts instead of at once, gives the same but may fail
otherwise: where several steps fail, another one is the first. Two computations have the *same
result* if they give the same or both fail (`SameResult`).

Steps that do not need each other can be exchanged (`SameResult.exchange`), so that doing two things
for each element of a list is doing the first for all and then the second (`SameResult.mapM_bind`).
-/

namespace Catalog

variable {ε δ ζ α β γ : Type}

/-- Two computations give the same or both fail. -/
def SameResult (x : Except ε α) (y : Except δ α) : Prop := ∀ a, x = .ok a ↔ y = .ok a

namespace SameResult

theorem refl (x : Except ε α) : SameResult x x := fun _ => Iff.rfl

theorem of_eq {x y : Except ε α} (h : x = y) : SameResult x y := h ▸ refl x

theorem symm {x : Except ε α} {y : Except δ α} (h : SameResult x y) : SameResult y x :=
  fun a => (h a).symm

theorem trans {x : Except ε α} {y : Except δ α} {z : Except ζ α} (h : SameResult x y)
    (h' : SameResult y z) : SameResult x z :=
  fun a => (h a).trans (h' a)

/-- A computation without refusals is the same as an operation. -/
theorem lift (x : Except Fault α) : SameResult (liftM x : Outcome α) x := fun _ => lift_eq_ok

/-- Computations that both fail. -/
theorem of_fail {x : Except ε α} {y : Except δ α} (hx : ∀ a, x ≠ .ok a) (hy : ∀ a, y ≠ .ok a) :
    SameResult x y :=
  fun a => iff_of_false (hx a) (hy a)

theorem bind {x : Except ε α} {y : Except δ α} {k : α → Except ε β} {l : α → Except δ β}
    (h : SameResult x y) (hk : ∀ a, x = .ok a → SameResult (k a) (l a)) :
    SameResult (x >>= k) (y >>= l) := by
  intro b
  rw [bind_eq_ok, bind_eq_ok]
  constructor
  · rintro ⟨a, hx, hb⟩
    exact ⟨a, (h a).1 hx, (hk a hx b).1 hb⟩
  · rintro ⟨a, hy, hb⟩
    have hx := (h a).2 hy
    exact ⟨a, hx, (hk a hx b).2 hb⟩

/-- Steps that do not need each other can be taken in either order. -/
theorem exchange (x : Except ε α) (y : Except ε β) (k : α → β → Except ε γ) :
    SameResult (x >>= fun a => y >>= k a) (y >>= fun b => x >>= fun a => k a b) := by
  cases x with
  | error e =>
    cases y with
    | error e' => exact of_fail (fun _ h => by cases h) fun _ h => by cases h
    | ok b => exact refl _
  | ok a => exact refl _

/-! ## Lists -/

/-- Doing something for each element succeeds if it does for each. -/
theorem mapM_of_forall {k : α → Except ε β} {g : α → β} {xs : List α}
    (h : ∀ x ∈ xs, k x = .ok (g x)) : xs.mapM k = .ok (xs.map g) := by
  induction xs with
  | nil => rfl
  | cons x xs ih =>
    rw [List.forall_mem_cons] at h
    rw [List.mapM_cons, h.1, ih h.2]
    rfl

theorem mapM {k : α → Except ε β} {l : α → Except δ β} {xs : List α}
    (h : ∀ x ∈ xs, SameResult (k x) (l x)) : SameResult (xs.mapM k) (xs.mapM l) := by
  induction xs with
  | nil => exact fun _ => ⟨fun h => by cases h; rfl, fun h => by cases h; rfl⟩
  | cons x xs ih =>
    rw [List.forall_mem_cons] at h
    rw [List.mapM_cons, List.mapM_cons]
    refine h.1.bind fun y _ => (ih h.2).bind fun ys _ => ?_
    exact fun _ => ⟨fun h => by cases h; rfl, fun h => by cases h; rfl⟩

/-- Doing something for each element, as part of an operation. -/
theorem mapM_lift (k : α → Except Fault β) (xs : List α) :
    SameResult (xs.mapM fun x => (liftM (k x) : Outcome β))
      (liftM (xs.mapM k) : Outcome (List β)) :=
  (mapM fun x _ => lift (k x)).trans (lift _).symm

/-- Doing one thing for each element, and then another one for each, is doing both for each. -/
theorem mapM_bind (k : α → Except ε β) (l : β → Except ε γ) (xs : List α) :
    SameResult (xs.mapM fun x => k x >>= l) (xs.mapM k >>= List.mapM l) := by
  induction xs with
  | nil => exact refl _
  | cons x xs ih =>
    rw [List.mapM_cons, List.mapM_cons, bind_assoc, bind_assoc]
    refine (refl (k x)).bind fun y _ => ?_
    rw [bind_assoc]
    -- What the second step makes of the first element does not need the rest of the list.
    refine ((refl (l y)).bind fun z _ => ih.bind fun zs _ => refl _).trans ?_
    refine (((refl (l y)).bind fun z _ => ?_).trans
      (exchange (l y) (xs.mapM k) fun z ys => ys.mapM l >>= fun zs => pure (z :: zs))).trans ?_
    · rw [bind_assoc]
      exact refl _
    · refine (refl _).bind fun ys _ => ?_
      rw [pure_bind, List.mapM_cons]
      exact refl _

/-- What each of several steps gives, put together with what it is made of. -/
theorem mapM_zipWith (k : α → Except ε β) (g : α → β → γ) (xs : List α) :
    xs.mapM (fun x => k x >>= fun y => .ok (g x y)) =
      xs.mapM k >>= fun ys => .ok (List.zipWith g xs ys) := by
  induction xs with
  | nil => rfl
  | cons x xs ih =>
    rw [List.mapM_cons, List.mapM_cons, ih, bind_assoc, bind_assoc]
    congr 1
    funext y
    rw [ok_bind, bind_assoc, bind_assoc]
    rfl

/-- As many elements come out as went in. -/
theorem length_of_mapM {k : α → Except ε β} {xs : List α} {ys : List β}
    (h : xs.mapM k = .ok ys) : ys.length = xs.length := by
  induction xs generalizing ys with
  | nil =>
    cases h
    rfl
  | cons x xs ih =>
    rw [List.mapM_cons] at h
    obtain ⟨y, -, h⟩ := bind_eq_ok.1 h
    obtain ⟨zs, hzs, h⟩ := bind_eq_ok.1 h
    cases h
    exact congrArg (· + 1) (ih hzs)

/-- As many elements come out of each list as went in. -/
theorem lengths_of_mapM {k : α → Except ε β} {xss : List (List α)} {yss : List (List β)}
    (h : xss.mapM (List.mapM k) = .ok yss) : yss.map List.length = xss.map List.length := by
  induction xss generalizing yss with
  | nil =>
    cases h
    rfl
  | cons xs xss ih =>
    rw [List.mapM_cons] at h
    obtain ⟨ys, hys, h⟩ := bind_eq_ok.1 h
    obtain ⟨zss, hzss, h⟩ := bind_eq_ok.1 h
    cases h
    rw [List.map_cons, List.map_cons, length_of_mapM hys, ih hzss]

/-- What is done for all elements is done for each. -/
theorem exists_of_mapM {k : α → Except ε β} {xs : List α} {ys : List β}
    (h : xs.mapM k = .ok ys) {x : α} (hx : x ∈ xs) : ∃ y, k x = .ok y := by
  induction xs generalizing ys with
  | nil => cases hx
  | cons x' xs ih =>
    rw [List.mapM_cons] at h
    obtain ⟨y, hy, h⟩ := bind_eq_ok.1 h
    obtain ⟨zs, hzs, -⟩ := bind_eq_ok.1 h
    rcases List.mem_cons.1 hx with rfl | hx
    · exact ⟨y, hy⟩
    · exact ih hzs hx

/-- What is done for all elements is done for the first ones. -/
theorem mapM_take {k : α → Except ε β} {xs : List α} {ys : List β} (h : xs.mapM k = .ok ys)
    (n : Nat) : (xs.take n).mapM k = .ok (ys.take n) := by
  have parts : (xs.take n ++ xs.drop n).mapM k = .ok ys := by rw [List.take_append_drop, h]
  rw [List.mapM_append] at parts
  obtain ⟨first, hfirst, parts⟩ := bind_eq_ok.1 parts
  obtain ⟨rest, hrest, parts⟩ := bind_eq_ok.1 parts
  cases parts
  have cut : first.length = min n xs.length := by rw [length_of_mapM hfirst, List.length_take]
  have left : rest.length = xs.length - n := by rw [length_of_mapM hrest, List.length_drop]
  have none : rest.take (n - first.length) = [] := List.eq_nil_of_length_eq_zero (by
    rw [List.length_take]
    omega)
  rw [hfirst, List.take_append, List.take_of_length_le (by omega), none, List.append_nil]

/-- What is done for a list in segments of one size is done for the list. -/
theorem mapM_segments {k : α → Except ε β} {xs : List α} {size : Nat} {yss : Nat → List β} {n : Nat}
    (h : ∀ i < n, ((xs.drop (i * size)).take size).mapM k = .ok (yss i)) :
    (xs.take (n * size)).mapM k = .ok ((List.range n).flatMap yss) := by
  induction n with
  | zero =>
    rw [Nat.zero_mul]
    rfl
  | succ n ih =>
    rw [Nat.succ_mul, List.take_add, List.mapM_append,
      ih fun i hi => h i (Nat.lt_succ_of_lt hi), h n n.lt_succ_self, List.range_succ,
      List.flatMap_append, List.flatMap_singleton]
    rfl

/-- What is done for each element of several lists is done for each of all elements. -/
theorem mapM_flatten {k : α → Except ε β} (xss : List (List α)) :
    xss.flatten.mapM k = xss.mapM (List.mapM k) >>= fun yss => .ok yss.flatten := by
  induction xss with
  | nil => rfl
  | cons xs xss ih =>
    rw [List.flatten_cons, List.mapM_append, ih, List.mapM_cons, bind_assoc]
    congr 1
    funext ys
    rw [bind_assoc, bind_assoc]
    rfl

end SameResult

end Catalog
