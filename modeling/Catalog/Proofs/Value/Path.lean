import Catalog.Proofs.Record.Spelling
import Catalog.Value.Path

/-!
# Reading, writing and removing at paths

Paths are related by their steps: one goes on from another (`GoesOn`), or the two are *apart*: they
have a beginning in common, at most, and go different ways from there (`Apart`).

Writing and removing work where objects alone lead (`Value.inner?`). Reading fans out through arrays
as well, so that it finds what objects lead to, and what the first array on the way stands for
(`Value.resolve_cases`). From this follows what is read after writing or removing:

* What is written is led to. What stands apart from it is still led to, and nothing comes up there
  that was not there (`inner?_putSteps_apart`, `resolve_putSteps_apart`).
* What is removed is led to no more. What stands apart from it reads the same, and an array that
  objects lead to is left as it is unless it goes altogether (`resolve_eraseSteps_apart`,
  `inner?_eraseSteps_array`).
-/

namespace Catalog

/-! ## Paths that go on -/

/-- A path goes on from another one: it is the other one, a dot and more. -/
def GoesOn (path start : String) : Prop := ∃ rest, path = start ++ "." ++ rest

/-- Parts, cut in two between them, are the parts of what stands on both sides of a separator. -/
theorem Text.exists_of_splitChars_append {sep : Char} {cs : List Char} {xs ys : List (List Char)}
    (hx : xs ≠ []) (hy : ys ≠ []) (h : splitChars sep cs = xs ++ ys) :
    ∃ as bs, cs = as ++ sep :: bs ∧ splitChars sep as = xs ∧ splitChars sep bs = ys := by
  induction cs generalizing xs with
  | nil =>
    have := congrArg List.length h
    have := List.length_pos_iff.2 hx
    have := List.length_pos_iff.2 hy
    simp only [splitChars, List.length_append, List.length_singleton] at *
    omega
  | cons c cs ih =>
    obtain ⟨x, xs, rfl⟩ := List.exists_cons_of_ne_nil hx
    by_cases hc : c = sep
    · rw [splitChars, if_pos hc, List.cons_append, List.cons.injEq] at h
      obtain ⟨rfl, h⟩ := h
      cases xs with
      | nil => exact ⟨[], cs, by rw [hc]; rfl, rfl, h⟩
      | cons x xs =>
        obtain ⟨as, bs, rfl, has, hbs⟩ := ih (List.cons_ne_nil x xs) h
        exact ⟨c :: as, bs, rfl, by rw [splitChars, if_pos hc, has], hbs⟩
    · obtain ⟨part, parts, hcs⟩ := List.exists_cons_of_ne_nil (splitChars_ne_nil sep cs)
      rw [splitChars_cons hc, hcs, List.modifyHead_cons, List.cons_append, List.cons.injEq] at h
      obtain ⟨rfl, rfl⟩ := h
      obtain ⟨as, bs, rfl, has, hbs⟩ := ih (List.cons_ne_nil part xs) hcs
      exact ⟨c :: as, bs, rfl, by rw [splitChars_cons hc, has, List.modifyHead_cons], hbs⟩

section Steps

variable {p q : String}

theorem pathSteps_ne_nil (p : String) : pathSteps p ≠ [] := by
  rw [pathSteps, Text.splitOn, Ne, List.map_eq_nil_iff]
  exact Text.splitChars_ne_nil '.' p.toList

theorem splitChars_eq_of_pathSteps {parts : List String} (h : pathSteps p = parts) :
    Text.splitChars '.' p.toList = parts.map String.toList := by
  rw [← h, pathSteps, Text.splitOn, List.map_map]
  exact ((List.map_congr_left fun _ _ => String.toList_ofList).trans (List.map_id _)).symm

theorem pathSteps_injective (h : pathSteps p = pathSteps q) : p = q := by
  have parts := (splitChars_eq_of_pathSteps h).trans (splitChars_eq_of_pathSteps rfl).symm
  rw [← String.toList_inj, ← Text.intercalate_splitChars '.' p.toList, parts,
    Text.intercalate_splitChars]

/-- The steps of a path that goes on are those of the one it goes on from, and more. -/
theorem pathSteps_goesOn (start rest : String) :
    pathSteps (start ++ "." ++ rest) = pathSteps start ++ pathSteps rest := by
  have chars : (start ++ "." ++ rest).toList = start.toList ++ '.' :: rest.toList := by
    simp [String.toList_append]
  rw [pathSteps, Text.splitOn, chars, Text.splitChars_append_sep, List.map_append]
  rfl

/-- Some of the steps of a path, from the first one on, are the steps of a path it goes on from. -/
theorem exists_of_pathSteps_append {xs ys : List String} (hx : xs ≠ []) (hy : ys ≠ [])
    (h : pathSteps p = xs ++ ys) : ∃ start, GoesOn p start ∧ pathSteps start = xs := by
  have chars := splitChars_eq_of_pathSteps h
  rw [List.map_append] at chars
  obtain ⟨as, bs, hp, has, -⟩ := Text.exists_of_splitChars_append
    (fun hnil => hx (List.map_eq_nil_iff.1 hnil)) (fun hnil => hy (List.map_eq_nil_iff.1 hnil))
    chars
  refine ⟨String.ofList as, ⟨String.ofList bs, ?_⟩, ?_⟩
  · rw [← String.toList_inj, hp]
    simp [String.toList_append]
  · rw [pathSteps, Text.splitOn, String.toList_ofList, has, List.map_map]
    exact (List.map_congr_left fun _ _ => String.ofList_toList).trans (List.map_id _)

theorem goesOn_iff : GoesOn p q ↔ ∃ more, more ≠ [] ∧ pathSteps p = pathSteps q ++ more := by
  constructor
  · rintro ⟨rest, rfl⟩
    exact ⟨pathSteps rest, pathSteps_ne_nil rest, pathSteps_goesOn q rest⟩
  · rintro ⟨more, hmore, h⟩
    obtain ⟨start, hp, hstart⟩ := exists_of_pathSteps_append (pathSteps_ne_nil q) hmore h
    rwa [← pathSteps_injective hstart]

/-- The steps of one path begin those of another exactly if they are one path or the other one goes
    on from it. -/
theorem pathSteps_prefix_iff : pathSteps q <+: pathSteps p ↔ p = q ∨ GoesOn p q := by
  constructor
  · rintro ⟨more, h⟩
    by_cases hmore : more = []
    · rw [hmore, List.append_nil] at h
      exact .inl (pathSteps_injective h).symm
    · exact .inr (goesOn_iff.2 ⟨more, hmore, h.symm⟩)
  · rintro (rfl | h)
    · exact List.prefix_rfl
    · obtain ⟨more, -, h⟩ := goesOn_iff.1 h
      exact ⟨more, h.symm⟩

theorem not_goesOn_self (p : String) : ¬GoesOn p p := by
  rw [goesOn_iff]
  rintro ⟨more, hmore, h⟩
  exact hmore (List.self_eq_append_right.1 h)

instance (p q : String) : Decidable (GoesOn p q) :=
  decidable_of_iff (pathSteps q <+: pathSteps p ∧ p ≠ q) <| by
    rw [pathSteps_prefix_iff, or_and_right]
    constructor
    · rintro (⟨h, hne⟩ | ⟨h, -⟩)
      · exact absurd h hne
      · exact h
    · intro h
      refine .inr ⟨h, ?_⟩
      rintro rfl
      exact not_goesOn_self p h

end Steps

/-- Steps that go different ways, after some that they have in common. -/
inductive Apart : List String → List String → Prop where
  /-- They go different ways from here. -/
  | here {s t : String} (h : s ≠ t) (p q : List String) : Apart (s :: p) (t :: q)
  /-- They go different ways further on. -/
  | later (s : String) {p q : List String} (h : Apart p q) : Apart (s :: p) (s :: q)

/-- Steps begin with others, or the other way round, or they go different ways. -/
theorem apart_of_not_prefix {p q : List String} (hpq : ¬p <+: q) (hqp : ¬q <+: p) : Apart p q := by
  induction p generalizing q with
  | nil => exact absurd List.nil_prefix hpq
  | cons s p ih =>
    cases q with
    | nil => exact absurd List.nil_prefix hqp
    | cons t q =>
      by_cases h : s = t
      · subst h
        rw [List.cons_prefix_cons] at hpq hqp
        exact .later s (ih (fun h => hpq ⟨rfl, h⟩) fun h => hqp ⟨rfl, h⟩)
      · exact .here h p q

theorem apart_pathSteps {p q : String} (hne : p ≠ q) (hpq : ¬GoesOn p q) (hqp : ¬GoesOn q p) :
    Apart (pathSteps p) (pathSteps q) := by
  refine apart_of_not_prefix ?_ ?_
  · rw [pathSteps_prefix_iff]
    exact not_or.2 ⟨Ne.symm hne, hqp⟩
  · rw [pathSteps_prefix_iff]
    exact not_or.2 ⟨hne, hpq⟩

theorem Apart.left_ne_nil {p q : List String} (h : Apart p q) : p ≠ [] := by
  cases h with
  | here => exact List.cons_ne_nil _ _
  | later => exact List.cons_ne_nil _ _

theorem Apart.right_ne_nil {p q : List String} (h : Apart p q) : q ≠ [] := by
  cases h with
  | here => exact List.cons_ne_nil _ _
  | later => exact List.cons_ne_nil _ _

/-! ## Where objects lead -/

/-- What objects alone lead to. -/
def Value.inner? : Value → List String → Option Value
  | v, [] => some v
  | .object members, step :: steps =>
    match Document.get? step members with
    | some v => v.inner? steps
    | none => none
  | _, _ :: _ => none

/-- What objects alone lead to along a dotted path. -/
def Document.innerAt? (path : String) (doc : Document) : Option Value :=
  (Value.object doc).inner? (pathSteps path)

namespace Value

theorem inner?_nil (v : Value) : v.inner? [] = some v := by
  cases v <;> rfl

theorem inner?_cons (members : Document) (step : String) (steps : List String) :
    (Value.object members).inner? (step :: steps) =
      (Document.get? step members).bind (·.inner? steps) := by
  rw [inner?]
  cases Document.get? step members <;> rfl

theorem resolve_nil (v : Value) : v.resolve [] = some v := by
  cases v <;> rfl

theorem resolve_cons (members : Document) (step : String) (steps : List String) :
    (Value.object members).resolve (step :: steps) =
      (Document.get? step members).bind (·.resolve steps) := by
  rw [resolve, resolveMember_eq]

/-- Reading goes where objects lead, and on from there. -/
theorem resolve_append {v w : Value} {start : List String} (h : v.inner? start = some w)
    (rest : List String) : v.resolve (start ++ rest) = w.resolve rest := by
  induction start generalizing v with
  | nil =>
    rw [inner?_nil, Option.some.injEq] at h
    rw [List.nil_append, h]
  | cons step start ih =>
    cases v with
    | object members =>
      rw [inner?_cons, Option.bind_eq_some_iff] at h
      obtain ⟨u, hu, h⟩ := h
      rw [List.cons_append, resolve_cons, hu, Option.bind_some, ih h]
    | _ => cases h

theorem resolve_of_inner? {v w : Value} {steps : List String} (h : v.inner? steps = some w) :
    v.resolve steps = some w := by
  have whole := resolve_append h []
  rwa [List.append_nil, resolve_nil] at whole

/-- What is read is what objects lead to, or what an array that they lead to stands for. -/
theorem resolve_cases {v w : Value} {steps : List String} (h : v.resolve steps = some w) :
    v.inner? steps = some w ∨ ∃ start rest items, steps = start ++ rest ∧ rest ≠ [] ∧
      v.inner? start = some (.array items) ∧ (Value.array items).resolve rest = some w := by
  -- The way goes on through objects, up to its end or to the first array.
  induction steps generalizing v with
  | nil =>
    rw [resolve_nil] at h
    rw [inner?_nil]
    exact .inl h
  | cons step steps ih =>
    cases v with
    | object members =>
      rw [resolve_cons, Option.bind_eq_some_iff] at h
      obtain ⟨u, hu, h⟩ := h
      rw [inner?_cons, hu, Option.bind_some]
      refine (ih h).imp_right ?_
      rintro ⟨start, rest, items, rfl, hrest, hstart, hitems⟩
      refine ⟨step :: start, rest, items, rfl, hrest, ?_, hitems⟩
      rw [inner?_cons, hu, Option.bind_some, hstart]
    | array items =>
      exact .inr ⟨[], _, items, rfl, List.cons_ne_nil step steps, inner?_nil _, h⟩
    | _ => cases h

end Value

namespace Document

variable {p q : List String} {doc : Document} {v w : Value}

/-! ## Writing -/

/-- The members of an object at a key; there are none where something else stands. -/
def membersAt (key : String) (doc : Document) : Document :=
  match doc.get? key with
  | some (.object members) => members
  | _ => []

theorem putSteps_cons (h : p ≠ []) (step : String) (doc : Document) (w : Value) :
    doc.putSteps w (step :: p) = doc.put step (.object (putSteps w p (doc.membersAt step))) := by
  obtain ⟨next, p, rfl⟩ := List.exists_cons_of_ne_nil h
  rfl

theorem exists_putSteps_cons (step : String) (p : List String) (doc : Document) (w : Value) :
    ∃ u, doc.putSteps w (step :: p) = doc.put step u := by
  cases p with
  | nil => exact ⟨w, rfl⟩
  | cons next p => exact ⟨_, putSteps_cons (List.cons_ne_nil next p) step doc w⟩

/-- Objects lead to what is written. -/
theorem inner?_putSteps (h : p ≠ []) (doc : Document) (w : Value) :
    (Value.object (doc.putSteps w p)).inner? p = some w := by
  induction p generalizing doc with
  | nil => exact absurd rfl h
  | cons step p ih =>
    by_cases hp : p = []
    · rw [hp, putSteps, Value.inner?_cons, get?_put, if_pos rfl, Option.bind_some,
        Value.inner?_nil]
    · rw [putSteps_cons hp, Value.inner?_cons, get?_put, if_pos rfl, Option.bind_some, ih hp]

/-- Objects still lead to what stands apart from what is written. -/
theorem inner?_putSteps_apart (h : Apart p q) (hv : (Value.object doc).inner? q = some v)
    (w : Value) : (Value.object (doc.putSteps w p)).inner? q = some v := by
  induction h generalizing doc with
  | @here s t hne p q =>
    obtain ⟨u, hu⟩ := exists_putSteps_cons s p doc w
    rw [Value.inner?_cons] at hv ⊢
    rwa [hu, get?_put, if_neg (Ne.symm hne)]
  | later s h ih =>
    rw [Value.inner?_cons, Option.bind_eq_some_iff] at hv
    obtain ⟨u, hu, hv⟩ := hv
    rw [putSteps_cons h.left_ne_nil, Value.inner?_cons, get?_put, if_pos rfl, Option.bind_some]
    -- Objects lead on from this key, so an object stands there, and it is written into.
    refine ih ?_
    obtain ⟨next, q, rfl⟩ := List.exists_cons_of_ne_nil h.right_ne_nil
    cases u with
    | object members => rwa [membersAt, hu]
    | _ => cases hv

/-- Nothing comes up apart from what is written. -/
theorem resolve_putSteps_apart (h : Apart p q) (hv : (Value.object doc).resolve q = none)
    (w : Value) : (Value.object (doc.putSteps w p)).resolve q = none := by
  induction h generalizing doc with
  | @here s t hne p q =>
    obtain ⟨u, hu⟩ := exists_putSteps_cons s p doc w
    rw [Value.resolve_cons] at hv ⊢
    rwa [hu, get?_put, if_neg (Ne.symm hne)]
  | later s h ih =>
    rw [putSteps_cons h.left_ne_nil, Value.resolve_cons, get?_put, if_pos rfl, Option.bind_some]
    -- What is no object gives way to one that has nothing but what is written.
    refine ih ?_
    obtain ⟨next, q, rfl⟩ := List.exists_cons_of_ne_nil h.right_ne_nil
    rw [Value.resolve_cons] at hv
    rw [membersAt]
    split
    · next members hu => rwa [hu] at hv
    · rfl

theorem keys_putSteps {key : String} (h : p ≠ []) (doc : Document) (w : Value) :
    key ∈ (doc.putSteps w p).keys ↔ p.head? = some key ∨ key ∈ doc.keys := by
  obtain ⟨step, p, rfl⟩ := List.exists_cons_of_ne_nil h
  obtain ⟨u, hu⟩ := exists_putSteps_cons step p doc w
  rw [hu, mem_keys_put, List.head?_cons, Option.some.injEq, eq_comm]

end Document

/-! ## Removing -/

/-- The value without what stands at the end of a path, if objects lead there. -/
def Value.eraseSteps (p : List String) : Value → Value
  | .object members => .object (Document.eraseSteps p members)
  | v => v

theorem Document.eraseSteps_nil (doc : Document) : eraseSteps [] doc = doc := by
  cases doc <;> rfl

theorem Value.eraseSteps_nil (v : Value) : v.eraseSteps [] = v := by
  cases v with
  | object members => exact congrArg object (Document.eraseSteps_nil members)
  | _ => rfl

/-- What removing further on makes of the members of an object. -/
theorem Document.get?_eraseSteps_cons {p : List String} (h : p ≠ []) (step key : String)
    (doc : Document) :
    (eraseSteps (step :: p) doc).get? key =
      if key = step then (doc.get? step).map (Value.eraseSteps p) else doc.get? key := by
  obtain ⟨next, p, rfl⟩ := List.exists_cons_of_ne_nil h
  unfold eraseSteps
  split
  · next members hstep => rw [get?_put, hstep]; rfl
  · next hstep =>
    split
    · next hkey =>
      rw [hkey]
      cases hv : doc.get? step with
      | none => rfl
      | some v =>
        cases v with
        | object members => exact absurd hv (hstep members)
        | _ => rfl
    · rfl

theorem Document.get?_eraseSteps_of_ne {step key : String} (h : key ≠ step) (p : List String)
    (doc : Document) : (eraseSteps (step :: p) doc).get? key = doc.get? key := by
  by_cases hp : p = []
  · rw [hp, eraseSteps, get?_erase, if_neg h]
  · rw [get?_eraseSteps_cons hp, if_neg h]

namespace Value

variable {p q : List String}

/-- What objects lead to after removing: nothing from the end of the path on, and on the way to it
    what was there, without what is at the end. -/
theorem inner?_eraseSteps (h : p ≠ []) (v : Value) (q : List String) :
    (v.eraseSteps p).inner? q =
      if p <+: q then none
      else (v.inner? q).map (eraseSteps (if q <+: p then p.drop q.length else [])) := by
  induction q generalizing v p with
  | nil =>
    rw [inner?_nil, inner?_nil, if_neg fun hp => h (List.prefix_nil.1 hp), if_pos List.nil_prefix]
    rfl
  | cons t q ih =>
    obtain ⟨s, p, rfl⟩ := List.exists_cons_of_ne_nil h
    cases v with
    | object members =>
      rw [eraseSteps, inner?_cons, inner?_cons]
      by_cases hst : t = s
      · subst hst
        by_cases hp : p = []
        · rw [hp, Document.eraseSteps, Document.get?_erase, if_pos rfl,
            if_pos (List.cons_prefix_cons.2 ⟨rfl, List.nil_prefix⟩)]
          rfl
        · rw [Document.get?_eraseSteps_cons hp, if_pos rfl]
          cases Document.get? t members with
          | none => split <;> rfl
          | some u =>
            simp only [Option.map_some, Option.bind_some, ih hp, List.cons_prefix_cons, true_and,
              List.length_cons, List.drop_succ_cons]
      · rw [Document.get?_eraseSteps_of_ne hst,
          if_neg fun hp => hst (List.cons_prefix_cons.1 hp).1.symm,
          if_neg fun hq => hst (List.cons_prefix_cons.1 hq).1,
          funext eraseSteps_nil, Option.map_id']
    | _ => exact (ite_self none).symm

/-- What stands apart from what is removed reads the same. -/
theorem resolve_eraseSteps_apart (h : Apart p q) (v : Value) :
    (v.eraseSteps p).resolve q = v.resolve q := by
  induction h generalizing v with
  | here hne p q =>
    cases v with
    | object members =>
      rw [eraseSteps, resolve_cons, resolve_cons, Document.get?_eraseSteps_of_ne (Ne.symm hne)]
    | _ => rfl
  | later s h ih =>
    cases v with
    | object members =>
      rw [eraseSteps, resolve_cons, resolve_cons,
        Document.get?_eraseSteps_cons h.left_ne_nil, if_pos rfl]
      cases Document.get? s members with
      | none => rfl
      | some u => exact ih u
    | _ => rfl

/-- Objects lead to an array after removing exactly if they did before and it does not go. -/
theorem inner?_eraseSteps_array (h : p ≠ []) {v : Value} {items : List Value} :
    (v.eraseSteps p).inner? q = some (.array items) ↔
      v.inner? q = some (.array items) ∧ ¬p <+: q := by
  have same (p : List String) (u : Value) : u.eraseSteps p = .array items ↔ u = .array items := by
    cases u with
    | object members => exact iff_of_false (fun h => by cases h) fun h => by cases h
    | _ => rfl
  rw [inner?_eraseSteps h]
  by_cases hpq : p <+: q
  · rw [if_pos hpq]
    exact iff_of_false (fun h => by cases h) fun h => h.2 hpq
  · rw [if_neg hpq, Option.map_eq_some_iff, and_iff_left hpq]
    simp only [same, exists_eq_right]

/-- Removing leads to nothing new. -/
theorem inner?_eraseSteps_eq_none (h : p ≠ []) {v : Value} (hv : v.inner? q = none) :
    (v.eraseSteps p).inner? q = none := by
  rw [inner?_eraseSteps h, hv]
  split <;> rfl

end Value

end Catalog
