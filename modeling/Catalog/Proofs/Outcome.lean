import Catalog.Failure

/-!
# How outcomes come about

What is known of the steps of an operation when something is known of its outcome: one that gives a
value went through all its steps (`bind_eq_ok`). Filtering a list, mapping it and picking from it
give a value exactly if all their steps do, and then the one that they give without faults
(`filterM_eq_ok`, `mapM_eq_ok`, `filterMapM_eq_ok`).
-/

namespace Catalog

variable {ε α β : Type}

theorem ok_bind (a : α) (k : α → Except ε β) : (.ok a : Except ε α) >>= k = k a := rfl

theorem lift_ok (a : α) : (liftM (.ok a : Except Fault α) : Outcome α) = .ok a := rfl

theorem lift_pure (a : α) : (liftM (pure a : Except Fault α) : Outcome α) = pure a := rfl

theorem lift_bind (x : Except Fault α) (k : α → Except Fault β) :
    (liftM (x >>= k) : Outcome β) = (liftM x : Outcome α) >>= fun a => liftM (k a) := by
  cases x <;> rfl

theorem bind_eq_ok {x : Except ε α} {k : α → Except ε β} {b : β} :
    x >>= k = .ok b ↔ ∃ a, x = .ok a ∧ k a = .ok b := by
  cases x with
  | error e => exact ⟨fun h => (nomatch h), fun ⟨_, h, _⟩ => (nomatch h)⟩
  | ok a => exact ⟨fun h => ⟨a, rfl, h⟩, fun ⟨_, h, h'⟩ => by cases h; exact h'⟩

theorem bind_eq_error {x : Except ε α} {k : α → Except ε β} {e : ε} :
    x >>= k = .error e ↔ x = .error e ∨ ∃ a, x = .ok a ∧ k a = .error e := by
  cases x with
  | error e' =>
    refine ⟨fun h => .inl (by cases h; rfl), fun h => ?_⟩
    rcases h with h | ⟨_, h, _⟩ <;> cases h
    rfl
  | ok a =>
    refine ⟨fun h => .inr ⟨a, rfl, h⟩, ?_⟩
    rintro (h | ⟨_, h, h'⟩)
    · cases h
    · cases h
      exact h'

/-- An outcome that is only rewritten fails if it failed before. -/
theorem bind_pure_eq_error {x : Except ε α} {g : α → β} {e : ε} :
    (x >>= fun a => pure (g a)) = .error e ↔ x = .error e := by
  cases x with
  | error e' => exact ⟨fun h => by cases h; rfl, fun h => by cases h; rfl⟩
  | ok a => exact ⟨fun h => (nomatch h), fun h => (nomatch h)⟩

theorem map_eq_ok {x : Except ε α} {g : α → β} {b : β} :
    g <$> x = .ok b ↔ ∃ a, x = .ok a ∧ g a = b := by
  cases x with
  | error e => exact iff_of_false (fun h => by cases h) fun ⟨_, h, _⟩ => by cases h
  | ok a => exact ⟨fun h => ⟨a, rfl, Except.ok.inj h⟩, fun ⟨_, h, h'⟩ => by cases h; rw [← h']; rfl⟩

theorem map_eq_error {x : Except ε α} {g : α → β} {e : ε} : g <$> x = .error e ↔ x = .error e := by
  cases x with
  | error e' => exact ⟨fun h => by cases h; rfl, fun h => by cases h; rfl⟩
  | ok a => exact iff_of_false (fun h => by cases h) fun h => by cases h

theorem lift_eq_ok {x : Except Fault α} {a : α} : (liftM x : Outcome α) = .ok a ↔ x = .ok a := by
  cases x with
  | error e => exact ⟨fun h => (nomatch h), fun h => (nomatch h)⟩
  | ok a => exact ⟨fun h => by cases h; rfl, fun h => by cases h; rfl⟩

theorem orFault_eq_ok {f : Fault} {x : Option α} {a : α} : orFault f x = .ok a ↔ x = some a := by
  cases x with
  | none => exact ⟨fun h => (nomatch h), fun h => (nomatch h)⟩
  | some a => exact ⟨fun h => by cases h; rfl, fun h => by cases h; rfl⟩

theorem orFault_eq_error {f f' : Fault} {x : Option α} :
    orFault f x = .error f' ↔ f' = f ∧ x = none := by
  cases x with
  | none => exact ⟨fun h => by cases h; exact ⟨rfl, rfl⟩, fun h => by rw [h.1]; rfl⟩
  | some a => exact iff_of_false (fun h => by cases h) fun h => by cases h.2

theorem toOption_eq_some {x : Except ε α} {a : α} : x.toOption = some a ↔ x = .ok a := by
  cases x with
  | error e => exact ⟨fun h => (nomatch h), fun h => (nomatch h)⟩
  | ok b => exact ⟨fun h => by cases h; rfl, fun h => by cases h; rfl⟩

/-- The refusal that an outcome is, if it is one. -/
def refusal? : Outcome α → Option Refusal
  | .error (.refused r) => some r
  | _ => none

theorem refusal?_eq_some {x : Outcome α} {r : Refusal} :
    refusal? x = some r ↔ x = .error (.refused r) := by
  rcases x with (r' | b) | a
  · exact ⟨fun h => by cases h; rfl, fun h => by cases h; rfl⟩
  · exact ⟨fun h => (nomatch h), fun h => (nomatch h)⟩
  · exact ⟨fun h => (nomatch h), fun h => (nomatch h)⟩

/-! ## Lists -/

theorem filterM_cons (test : α → Except ε Bool) (x : α) (xs : List α) :
    (x :: xs).filterM test = do
      let b ← test x
      let ys ← xs.filterM test
      return if b then x :: ys else ys := by
  have kept (xs acc : List α) : List.filterAuxM test xs acc =
      (xs.filterM test).map fun ys => ys.reverse ++ acc := by
    induction xs generalizing acc with
    | nil => rfl
    | cons x xs ih =>
      rw [List.filterM, List.filterAuxM, List.filterAuxM]
      cases hb : test x with
      | error e => rfl
      | ok b =>
        change List.filterAuxM test xs (bif b then x :: acc else acc) =
          (List.filterAuxM test xs (bif b then [x] else []) >>= fun ys => pure ys.reverse).map _
        rw [ih, ih]
        cases xs.filterM test with
        | error e => rfl
        | ok ys => cases b <;> simp [Except.map, bind, Except.bind, pure, Except.pure]
  rw [List.filterM, List.filterAuxM]
  cases hb : test x with
  | error e => rfl
  | ok b =>
    change (List.filterAuxM test xs (bif b then [x] else []) >>= fun ys => pure ys.reverse) = _
    rw [kept]
    cases h : xs.filterM test with
    | error e => rfl
    | ok ys => cases b <;> simp [Except.map, bind, Except.bind, pure, Except.pure]

/-- Filtering meets no fault if no test does, and then keeps what the tests say yes to. -/
theorem filterM_eq_ok {test : α → Except ε Bool} {p : α → Bool}
    (hp : ∀ x b, test x = .ok b → p x = b) {xs ys : List α} :
    xs.filterM test = .ok ys ↔ (∀ x ∈ xs, test x = .ok (p x)) ∧ ys = xs.filter p := by
  induction xs generalizing ys with
  | nil => exact ⟨fun h => by cases h; exact ⟨nofun, rfl⟩, fun h => by rw [h.2]; rfl⟩
  | cons x xs ih =>
    rw [filterM_cons, bind_eq_ok, List.forall_mem_cons]
    constructor
    · rintro ⟨b, hb, h⟩
      obtain ⟨zs, hzs, h⟩ := bind_eq_ok.1 h
      obtain ⟨hxs, rfl⟩ := ih.1 hzs
      cases h
      have hx := hp x b hb
      exact ⟨⟨hx ▸ hb, hxs⟩, by rw [List.filter_cons, hx]⟩
    · rintro ⟨⟨hx, hxs⟩, rfl⟩
      refine ⟨p x, hx, ?_⟩
      rw [ih.2 ⟨hxs, rfl⟩, List.filter_cons]
      rfl

/-- Picking meets no fault if no single pick does, and then collects what there is. -/
theorem filterMapM_eq_ok {pick : α → Except ε (Option β)} {g : α → Option β} {xs : List α}
    (hg : ∀ x ∈ xs, ∀ o, pick x = .ok o → g x = o) {ys : List β} :
    xs.filterMapM pick = .ok ys ↔ (∀ x ∈ xs, pick x = .ok (g x)) ∧ ys = xs.filterMap g := by
  induction xs generalizing ys with
  | nil => exact ⟨fun h => by cases h; exact ⟨nofun, rfl⟩, fun h => by rw [h.2]; rfl⟩
  | cons x xs ih =>
    have ih {ys : List β} : xs.filterMapM pick = .ok ys ↔
        (∀ x ∈ xs, pick x = .ok (g x)) ∧ ys = xs.filterMap g :=
      ih fun x hx => hg x (List.mem_cons_of_mem _ hx)
    rw [List.filterMapM_cons, bind_eq_ok, List.forall_mem_cons]
    constructor
    · rintro ⟨o, ho, h⟩
      have hx := hg x List.mem_cons_self o ho
      subst hx
      cases hgx : g x with
      | none =>
        rw [hgx] at h
        obtain ⟨hxs, rfl⟩ := ih.1 h
        exact ⟨⟨hgx ▸ ho, hxs⟩, by rw [List.filterMap_cons_none hgx]⟩
      | some b =>
        rw [hgx] at h
        obtain ⟨zs, hzs, h⟩ := bind_eq_ok.1 h
        obtain ⟨hxs, rfl⟩ := ih.1 hzs
        cases h
        exact ⟨⟨hgx ▸ ho, hxs⟩, by rw [List.filterMap_cons_some hgx]⟩
    · rintro ⟨⟨hx, hxs⟩, rfl⟩
      refine ⟨g x, hx, ?_⟩
      cases hgx : g x with
      | none => rw [List.filterMap_cons_none hgx]; exact ih.2 ⟨hxs, rfl⟩
      | some b =>
        rw [List.filterMap_cons_some hgx]
        exact bind_eq_ok.2 ⟨_, ih.2 ⟨hxs, rfl⟩, rfl⟩

/-- Mapping meets no fault if it meets none at any element, and then gives what these give. -/
theorem mapM_eq_ok {k : α → Except ε β} {g : α → β} (hg : ∀ x y, k x = .ok y → g x = y)
    {xs : List α} {ys : List β} :
    xs.mapM k = .ok ys ↔ (∀ x ∈ xs, k x = .ok (g x)) ∧ ys = xs.map g := by
  induction xs generalizing ys with
  | nil => exact ⟨fun h => by cases h; exact ⟨nofun, rfl⟩, fun h => by rw [h.2]; rfl⟩
  | cons x xs ih =>
    rw [List.mapM_cons, bind_eq_ok, List.forall_mem_cons]
    constructor
    · rintro ⟨y, hy, h⟩
      obtain ⟨zs, hzs, h⟩ := bind_eq_ok.1 h
      obtain ⟨hxs, rfl⟩ := ih.1 hzs
      cases h
      have hx := hg x y hy
      exact ⟨⟨hx ▸ hy, hxs⟩, by rw [List.map_cons, hx]⟩
    · rintro ⟨⟨hx, hxs⟩, rfl⟩
      exact ⟨g x, hx, bind_eq_ok.2 ⟨_, ih.2 ⟨hxs, rfl⟩, rfl⟩⟩

/-- A mapping that meets no fault is that of a function. -/
theorem exists_map_of_mapM [Inhabited β] {k : α → Except ε β} {xs : List α} {ys : List β}
    (h : xs.mapM k = .ok ys) : ∃ g : α → β, (∀ x ∈ xs, k x = .ok (g x)) ∧ ys = xs.map g := by
  refine ⟨fun x => (k x).toOption.getD default, (mapM_eq_ok fun x y hy => ?_).1 h⟩
  rw [toOption_eq_some.2 hy, Option.getD_some]

/-- A mapping of the same elements in another order gives the same in another order. -/
theorem exists_mapM_of_perm [Inhabited β] {k : α → Except ε β} {xs xs' : List α} {ys : List β}
    (hperm : xs'.Perm xs) (h : xs.mapM k = .ok ys) : ∃ ys', xs'.mapM k = .ok ys' ∧ ys'.Perm ys := by
  have given (x : α) (y : β) (hy : k x = .ok y) : (k x).toOption.getD default = y := by
    rw [toOption_eq_some.2 hy, Option.getD_some]
  obtain ⟨each, rfl⟩ := (mapM_eq_ok given).1 h
  exact ⟨_, (mapM_eq_ok given).2 ⟨fun x hx => each x (hperm.mem_iff.1 hx), rfl⟩, hperm.map _⟩

/-- What a mapping gives comes from a member. -/
theorem mem_of_mapM {k : α → Except ε β} {xs : List α} {ys : List β} (h : xs.mapM k = .ok ys)
    {y : β} (hy : y ∈ ys) : ∃ x ∈ xs, k x = .ok y := by
  induction xs generalizing ys with
  | nil =>
    cases h
    exact nomatch hy
  | cons x xs ih =>
    rw [List.mapM_cons] at h
    obtain ⟨z, hz, h⟩ := bind_eq_ok.1 h
    obtain ⟨zs, hzs, h⟩ := bind_eq_ok.1 h
    cases h
    rcases List.mem_cons.1 hy with rfl | hy
    · exact ⟨x, List.mem_cons_self, hz⟩
    · obtain ⟨x', hx', hk⟩ := ih hzs hy
      exact ⟨x', List.mem_cons_of_mem _ hx', hk⟩

theorem anyM_eq_ok {test : α → Except ε Bool} {p : α → Bool} {xs : List α}
    (h : ∀ x ∈ xs, test x = .ok (p x)) : xs.anyM test = .ok (xs.any p) := by
  induction xs with
  | nil => rfl
  | cons x xs ih =>
    rw [List.forall_mem_cons] at h
    rw [List.anyM, h.1, List.any_cons]
    cases p x with
    | true => rfl
    | false => exact ih h.2

/-- Tests end at the first that has no answer, unless one before it says yes. -/
theorem anyM_eq_error {test : α → Except ε Bool} {xs : List α} {e : ε} :
    xs.anyM test = .error e ↔ ∃ before x after, xs = before ++ x :: after ∧
      (∀ y ∈ before, test y = .ok false) ∧ test x = .error e := by
  induction xs with
  | nil => exact ⟨nofun, fun ⟨before, x, after, h, _⟩ => absurd h (by simp)⟩
  | cons x xs ih =>
    rw [List.anyM]
    constructor
    · intro h
      rcases hx : test x with e' | _ | _
      · rw [hx] at h
        cases h
        exact ⟨[], x, xs, rfl, List.forall_mem_nil _, hx⟩
      · rw [hx] at h
        obtain ⟨before, y, after, rfl, hbefore, hy⟩ := ih.1 h
        exact ⟨x :: before, y, after, rfl, List.forall_mem_cons.2 ⟨hx, hbefore⟩, hy⟩
      · rw [hx] at h
        cases h
    · rintro ⟨before, y, after, h, hbefore, hy⟩
      cases before with
      | nil =>
        obtain ⟨rfl, rfl⟩ := List.cons.inj h
        rw [hy]
        rfl
      | cons z before =>
        obtain ⟨rfl, rfl⟩ := List.cons.inj h
        rw [List.forall_mem_cons] at hbefore
        rw [hbefore.1]
        exact ih.2 ⟨before, y, after, rfl, hbefore.2, hy⟩

/-- A member says yes before any that has no answer. -/
theorem anyM_eq_ok_true {test : α → Except ε Bool} {xs : List α} :
    xs.anyM test = .ok true ↔ ∃ before x after, xs = before ++ x :: after ∧
      (∀ y ∈ before, ∃ b, test y = .ok b) ∧ test x = .ok true := by
  constructor
  · intro h
    induction xs with
    | nil => cases h
    | cons x xs ih =>
      rw [List.anyM] at h
      rcases hx : test x with e | _ | _
      · rw [hx] at h
        cases h
      · rw [hx] at h
        obtain ⟨before, y, after, rfl, hbefore, hy⟩ := ih h
        exact ⟨x :: before, y, after, rfl, List.forall_mem_cons.2 ⟨⟨false, hx⟩, hbefore⟩, hy⟩
      · exact ⟨[], x, xs, rfl, List.forall_mem_nil _, hx⟩
  · rintro ⟨before, x, after, rfl, hbefore, hx⟩
    induction before with
    | nil =>
      rw [List.nil_append, List.anyM, hx]
      rfl
    | cons y before ih =>
      rw [List.forall_mem_cons] at hbefore
      obtain ⟨⟨b, hb⟩, hbefore⟩ := hbefore
      rw [List.cons_append, List.anyM, hb]
      cases b with
      | true => rfl
      | false => exact ih hbefore

theorem forM_eq_ok {k : α → Except ε Unit} {xs : List α} :
    xs.forM k = .ok () ↔ ∀ x ∈ xs, k x = .ok () := by
  induction xs with
  | nil => exact ⟨fun _ => nofun, fun _ => rfl⟩
  | cons x xs ih =>
    rw [List.forall_mem_cons, ← ih]
    exact bind_eq_ok.trans ⟨fun ⟨(), hx, h⟩ => ⟨hx, h⟩, fun ⟨hx, h⟩ => ⟨(), hx, h⟩⟩

/-- Steps end at the first that gives no value. -/
theorem forM_eq_error {k : α → Except ε Unit} {xs : List α} {e : ε} :
    xs.forM k = .error e ↔ ∃ before x after, xs = before ++ x :: after ∧
      (∀ y ∈ before, k y = .ok ()) ∧ k x = .error e := by
  induction xs with
  | nil => exact iff_of_false (fun h => by cases h) fun ⟨before, x, after, h, _⟩ => by simp at h
  | cons x xs ih =>
    change (k x >>= fun _ => xs.forM k) = .error e ↔ _
    constructor
    · intro h
      rcases bind_eq_error.1 h with hx | ⟨u, hx, h⟩
      · exact ⟨[], x, xs, rfl, List.forall_mem_nil _, hx⟩
      · obtain ⟨before, y, after, rfl, hbefore, hy⟩ := ih.1 h
        exact ⟨x :: before, y, after, rfl, List.forall_mem_cons.2 ⟨hx, hbefore⟩, hy⟩
    · rintro ⟨before, y, after, h, hbefore, hy⟩
      cases before with
      | nil =>
        obtain ⟨rfl, rfl⟩ := List.cons.inj h
        exact bind_eq_error.2 (.inl hy)
      | cons z before =>
        obtain ⟨rfl, rfl⟩ := List.cons.inj h
        rw [List.forall_mem_cons] at hbefore
        exact bind_eq_error.2 (.inr ⟨(), hbefore.1, ih.2 ⟨before, y, after, rfl, hbefore.2, hy⟩⟩)

/-- Steps fail only where one of them does. -/
theorem foldlM_eq_error {step : β → α → Except ε β} {xs : List α} {b : β} {e : ε}
    (h : xs.foldlM step b = .error e) : ∃ x ∈ xs, ∃ b', step b' x = .error e := by
  induction xs generalizing b with
  | nil => cases h
  | cons x xs ih =>
    rw [List.foldlM_cons] at h
    cases hb : step b x with
    | error e' =>
      rw [hb] at h
      cases h
      exact ⟨x, List.mem_cons_self, b, hb⟩
    | ok next =>
      rw [hb] at h
      obtain ⟨y, hy, b', hstep⟩ := ih h
      exact ⟨y, List.mem_cons_of_mem _ hy, b', hstep⟩

/-- What every step keeps, all steps together keep. -/
theorem foldlM_keeps {P : β → Prop} {step : β → α → Except ε β} {xs : List α}
    (h : ∀ x ∈ xs, ∀ b b', P b → step b x = .ok b' → P b') {b b' : β} (hb : P b)
    (hs : xs.foldlM step b = .ok b') : P b' := by
  induction xs generalizing b with
  | nil =>
    cases hs
    exact hb
  | cons x xs ih =>
    rw [List.forall_mem_cons] at h
    rw [List.foldlM_cons, bind_eq_ok] at hs
    obtain ⟨next, hx, hs⟩ := hs
    exact ih h.2 (h.1 b next hb hx) hs

/-- Steps that go on from what has a property, and keep it, go on to the end. -/
theorem exists_foldlM {P : β → Prop} {step : β → α → Except ε β} {xs : List α}
    (h : ∀ x ∈ xs, ∀ b, P b → ∃ b', step b x = .ok b' ∧ P b') {b : β} (hb : P b) :
    ∃ b', xs.foldlM step b = .ok b' ∧ P b' := by
  induction xs generalizing b with
  | nil => exact ⟨b, rfl, hb⟩
  | cons x xs ih =>
    rw [List.forall_mem_cons] at h
    obtain ⟨next, hnext, hp⟩ := h.1 b hb
    rw [List.foldlM_cons, hnext]
    exact ih h.2 hp

/-- Steps that do the same do the same together. -/
theorem foldlM_congr {step step' : β → α → Except ε β} {xs : List α}
    (h : ∀ x ∈ xs, ∀ b, step b x = step' b x) (b : β) : xs.foldlM step b = xs.foldlM step' b := by
  induction xs generalizing b with
  | nil => rfl
  | cons x xs ih =>
    rw [List.forall_mem_cons] at h
    rw [List.foldlM_cons, List.foldlM_cons, h.1]
    exact bind_congr fun b => ih h.2 b

/-! ## Values -/

/-- An outcome gives, if anything, what has a property. -/
def Gives (P : α → Prop) (x : Except ε α) : Prop := ∀ a, x = .ok a → P a

namespace Gives

variable {P : α → Prop} {Q : β → Prop}

theorem ok {a : α} (h : P a) : Gives P (.ok a : Except ε α) := fun _ ha => by cases ha; exact h

theorem error (e : ε) : Gives P (.error e) := nofun

theorem lift {x : Except Fault α} (h : Gives P x) : Gives P (liftM x : Outcome α) :=
  fun a ha => h a (lift_eq_ok.1 ha)

theorem bind {x : Except ε α} {k : α → Except ε β} (hx : Gives P x)
    (hk : ∀ a, P a → Gives Q (k a)) : Gives Q (x >>= k) := by
  intro b h
  obtain ⟨a, ha, h⟩ := bind_eq_ok.1 h
  exact hk a (hx a ha) b h

/-- A step of which nothing needs to be known, and what follows it. -/
theorem bind_of_any {x : Except ε α} {k : α → Except ε β} (hk : ∀ a, Gives Q (k a)) :
    Gives Q (x >>= k) := by
  intro b h
  obtain ⟨a, -, h⟩ := bind_eq_ok.1 h
  exact hk a b h

theorem filterMapM {pick : α → Except ε (Option β)} {xs : List α}
    (h : ∀ x ∈ xs, Gives (fun o => ∀ b, o = some b → Q b) (pick x)) :
    Gives (fun ys => ∀ y ∈ ys, Q y) (xs.filterMapM pick) := by
  induction xs with
  | nil => exact ok (List.forall_mem_nil _)
  | cons x xs ih =>
    rw [List.forall_mem_cons] at h
    rw [List.filterMapM_cons]
    refine h.1.bind fun o ho => ?_
    cases o with
    | none => exact ih h.2
    | some b => exact (ih h.2).bind fun ys hys => ok (List.forall_mem_cons.2 ⟨ho b rfl, hys⟩)

/-- What is said of all that is picked is said of the elements, if it is so of each. -/
theorem filterMapM_iff {pick : α → Except ε (Option β)} {R : α → Prop} {xs : List α}
    (h : ∀ x ∈ xs, Gives (fun o => (∀ y ∈ o, Q y) ↔ R x) (pick x)) :
    Gives (fun ys => (∀ y ∈ ys, Q y) ↔ ∀ x ∈ xs, R x) (xs.filterMapM pick) := by
  induction xs with
  | nil => exact ok (iff_of_true (List.forall_mem_nil _) (List.forall_mem_nil _))
  | cons x xs ih =>
    rw [List.forall_mem_cons] at h
    rw [List.filterMapM_cons]
    refine h.1.bind fun o ho => ?_
    cases o with
    | none =>
      refine fun ys hys => (ih h.2 ys hys).trans ?_
      rw [List.forall_mem_cons, ← ho]
      exact (and_iff_right fun _ h => by cases h).symm
    | some b =>
      refine (ih h.2).bind fun ys hys => ok ?_
      rw [List.forall_mem_cons, List.forall_mem_cons, hys, ← ho]
      exact and_congr_left fun _ => by simp

end Gives

/-! ## Refusals -/

/-- An outcome refuses, if at all, for reasons of some kind. -/
def RefusesOnly (P : Refusal → Prop) (x : Outcome α) : Prop :=
  ∀ r, x = .error (.refused r) → P r

namespace RefusesOnly

variable {P : Refusal → Prop}

theorem ok (a : α) : RefusesOnly P (.ok a) := fun _ h => by cases h

theorem giveUp (f : Fault) : RefusesOnly P (giveUp f : Outcome α) := fun _ h => by cases h

theorem refuse {r : Refusal} (h : P r) : RefusesOnly P (refuse r : Outcome α) :=
  fun _ hr => by cases hr; exact h

theorem lift (x : Except Fault α) : RefusesOnly P (liftM x : Outcome α) := by
  intro r h
  cases x <;> cases h

theorem bind_of {x : Outcome α} {k : α → Outcome β} (hx : RefusesOnly P x)
    (hk : ∀ a, x = .ok a → RefusesOnly P (k a)) : RefusesOnly P (x >>= k) := by
  intro r h
  cases x with
  | error e =>
    cases h
    exact hx r rfl
  | ok a => exact hk a rfl r h

theorem bind {x : Outcome α} {k : α → Outcome β} (hx : RefusesOnly P x)
    (hk : ∀ a, RefusesOnly P (k a)) : RefusesOnly P (x >>= k) :=
  hx.bind_of fun a _ => hk a

/-- A check that may refuse, and what follows it. -/
theorem refuseIf {c : Prop} [Decidable c] {r : Refusal} {x : Unit → Outcome α} (hr : P r)
    (hx : RefusesOnly P (x ())) :
    RefusesOnly P (if c then (Catalog.refuse r : Outcome Unit) >>= x else x ()) := by
  by_cases hc : c
  · rw [if_pos hc]
    exact (refuse hr).bind fun _ => hx
  · rw [if_neg hc]
    exact hx

theorem mono {Q : Refusal → Prop} {x : Outcome α} (hx : RefusesOnly P x)
    (h : ∀ r, P r → Q r) : RefusesOnly Q x :=
  fun r hr => h r (hx r hr)

theorem mapM {k : α → Outcome β} {xs : List α} (h : ∀ x ∈ xs, RefusesOnly P (k x)) :
    RefusesOnly P (xs.mapM k) := by
  induction xs with
  | nil => exact ok []
  | cons x xs ih =>
    rw [List.forall_mem_cons] at h
    rw [List.mapM_cons]
    exact h.1.bind fun _ => (ih h.2).bind fun _ => ok _

theorem forM {k : α → Outcome Unit} {xs : List α} (h : ∀ x ∈ xs, RefusesOnly P (k x)) :
    RefusesOnly P (xs.forM k) := by
  induction xs with
  | nil => exact ok ()
  | cons x xs ih =>
    rw [List.forall_mem_cons] at h
    exact h.1.bind fun _ => ih h.2

end RefusesOnly

/-! ## Endings -/

/-- How an outcome ends: with a value of some kind, a refusal of some kind or a fault of some
    kind. -/
def Ends (P : α → Prop) (R : Refusal → Prop) (F : Fault → Prop) : Outcome α → Prop
  | .ok a => P a
  | .error (.refused r) => R r
  | .error (.broken f) => F f

namespace Ends

variable {P : α → Prop} {Q : β → Prop} {R : Refusal → Prop} {F : Fault → Prop}

/-- A step, and what follows it if it gives a value. -/
theorem bind {x : Outcome α} {k : α → Outcome β} (hx : Ends P R F x)
    (hk : ∀ a, x = .ok a → P a → Ends Q R F (k a)) : Ends Q R F (x >>= k) := by
  rcases x with (r | f) | a
  · exact hx
  · exact hx
  · exact hk a rfl hx

theorem mono {P' : α → Prop} {R' : Refusal → Prop} {F' : Fault → Prop} {x : Outcome α}
    (hx : Ends P R F x) (hp : ∀ a, P a → P' a) (hr : ∀ r, R r → R' r) (hf : ∀ f, F f → F' f) :
    Ends P' R' F' x := by
  rcases x with (r | f) | a
  · exact hr r hx
  · exact hf f hx
  · exact hp a hx

theorem foldlM {step : β → α → Outcome β} {xs : List α}
    (h : ∀ x ∈ xs, ∀ b, Q b → Ends Q R F (step b x)) {b : β} (hb : Q b) :
    Ends Q R F (xs.foldlM step b) := by
  induction xs generalizing b with
  | nil => exact hb
  | cons x xs ih =>
    rw [List.forall_mem_cons] at h
    rw [List.foldlM_cons]
    exact (h.1 b hb).bind fun b' _ hb' => ih h.2 hb'

end Ends

end Catalog
