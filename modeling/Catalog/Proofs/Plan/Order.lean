import Mathlib.Data.List.InsertIdx
import Catalog.Plan.Shape

/-!
# Sorting and paging

Sorting changes the order of what is sorted and nothing else (`sortOn_perm`), also where the keys
read not-a-number and the elements are put into place one by one (`placed_perm`). So a page shows
nothing that it was not made of (`mem_of_mem_page`).

Sorting reads nothing but the documents of what is sorted: what comes with these makes no difference
(`Filter.page_map`).
-/

namespace Catalog

variable {α : Type}

/-- An element goes somewhere among those in place, or at their end. -/
theorem placeAmong_le (before : α → α → Bool) (x : α) (xs : List α) :
    placeAmong before x xs ≤ xs.length := by
  fun_induction placeAmong before x xs with
  | case1 xs h => exact Nat.zero_le _
  | case2 xs middle h hb ih =>
    rw [List.length_take] at ih
    exact Nat.le_trans ih (Nat.min_le_right _ _)
  | case3 xs middle h hb ih =>
    have := (List.getElem?_eq_some_iff.1 h).1
    rw [List.length_drop] at ih
    omega

theorem runFrom_perm (before : α → α → Bool) (down : Bool) (run : List α) (last : α)
    (xs : List α) :
    ((runFrom before down run last xs).1 ++ (runFrom before down run last xs).2).Perm
      (run ++ xs) := by
  -- A run is collected in reverse, and a falling one is left so.
  have turned : (if down then run else run.reverse).Perm run := by
    split
    · exact .refl _
    · exact run.reverse_perm
  induction xs generalizing run last with
  | nil => exact turned.append_right []
  | cons x xs ih =>
    rw [runFrom]
    split
    · refine (ih (x :: run) x ?_).trans List.perm_middle.symm
      split
      · exact .refl _
      · exact List.reverse_perm _
    · exact turned.append_right (x :: xs)

theorem leadingRun_perm (before : α → α → Bool) (xs : List α) :
    ((leadingRun before xs).1 ++ (leadingRun before xs).2).Perm xs := by
  fun_cases leadingRun before xs with
  | case1 => exact .refl _
  | case2 x => exact .refl _
  | case3 x y ys => exact (runFrom_perm before _ [y, x] y ys).trans (.swap x y ys)

/-- Putting into place is a permutation. -/
theorem placed_perm (before : α → α → Bool) (xs : List α) : (placed before xs).Perm xs := by
  -- The induction is on what is left to be put into place, with what is in place as it grows.
  have inserted (done rest : List α) :
      (rest.foldl (fun done x => done.insertIdx (placeAmong before x done) x) done).Perm
        (done ++ rest) := by
    induction rest generalizing done with
    | nil => rw [List.append_nil]; exact .refl _
    | cons x rest ih =>
      rw [List.foldl_cons]
      refine (ih _).trans (.trans ?_ List.perm_middle.symm)
      exact (List.perm_insertIdx x done (placeAmong_le before x done)).append_right rest
  exact (inserted _ _).trans (leadingRun_perm before xs)

theorem OrderKey.sort_perm (toValue : α → Value) (key : OrderKey) (xs : List α) :
    (key.sort toValue xs).Perm xs := by
  rw [sort]
  split
  · dsimp only
    split
    · exact (List.reverse_perm _).trans ((placed_perm _ _).trans (List.reverse_perm _))
    · exact placed_perm _ _
  · exact List.mergeSort_perm xs _

/-- Sorting is a permutation. -/
theorem sortOn_perm (toDocument : α → Document) (keys : List OrderKey) (xs : List α) :
    (sortOn toDocument keys xs).Perm xs := by
  induction keys with
  | nil => exact .refl _
  | cons key keys ih => exact (key.sort_perm _ _).trans ih

theorem mem_of_mem_takeLimit {limit : Int} {xs : List α} {x : α} (h : x ∈ takeLimit limit xs) :
    x ∈ xs := by
  rw [takeLimit] at h
  split at h <;> exact List.mem_of_mem_take h

/-- A limit cuts nothing off what is within it. -/
theorem takeLimit_of_length_le {limit : Int} {xs : List α} (h : (xs.length : Int) ≤ limit) :
    takeLimit limit xs = xs := by
  rw [takeLimit, if_pos (by omega), List.take_of_length_le (by omega)]

/-- A page shows nothing that it was not made of. -/
theorem mem_of_mem_page {toDocument : α → Document} {f : Filter} {xs : List α} {x : α}
    (h : x ∈ f.page toDocument xs) : x ∈ xs := by
  have rest {x : α} (h : x ∈ (sortOn toDocument f.order xs).drop f.skip) : x ∈ xs :=
    (sortOn_perm toDocument f.order xs).mem_iff.1 (List.mem_of_mem_drop h)
  rw [Filter.page] at h
  split at h
  · exact rest (mem_of_mem_takeLimit h)
  · exact rest h

/-! ## What comes with the documents -/

section Map

variable {β : Type} (g : α → β)

theorem placeAmong_map (before : β → β → Bool) (x : α) (xs : List α) :
    placeAmong before (g x) (xs.map g) = placeAmong (fun a b => before (g a) (g b)) x xs := by
  fun_induction placeAmong (fun a b => before (g a) (g b)) x xs with
  | case1 xs h =>
    rw [placeAmong, List.length_map, List.getElem?_map, h]
    rfl
  | case2 xs middle h hb ih =>
    rw [placeAmong, List.length_map, List.getElem?_map, h, ← List.map_take, ih]
    exact if_pos hb
  | case3 xs middle h hb ih =>
    rw [placeAmong, List.length_map, List.getElem?_map, h, ← List.map_drop, ih]
    exact if_neg hb

theorem runFrom_map (before : β → β → Bool) (down : Bool) (run : List α) (last : α)
    (xs : List α) :
    runFrom before down (run.map g) (g last) (xs.map g) =
      ((runFrom (fun a b => before (g a) (g b)) down run last xs).1.map g,
        (runFrom (fun a b => before (g a) (g b)) down run last xs).2.map g) := by
  induction xs generalizing run last with
  | nil =>
    rw [List.map_nil, runFrom, runFrom]
    cases down
    · exact congrArg (·, _) List.map_reverse.symm
    · rfl
  | cons x xs ih =>
    rw [List.map_cons, runFrom, runFrom]
    split
    · rw [← List.map_cons, ih]
    · cases down
      · exact congrArg (·, _) List.map_reverse.symm
      · rfl

theorem leadingRun_map (before : β → β → Bool) (xs : List α) :
    leadingRun before (xs.map g) =
      ((leadingRun (fun a b => before (g a) (g b)) xs).1.map g,
        (leadingRun (fun a b => before (g a) (g b)) xs).2.map g) := by
  rcases xs with _ | ⟨x, _ | ⟨y, ys⟩⟩
  · rfl
  · rfl
  · exact runFrom_map g before _ [y, x] y ys

theorem placed_map (before : β → β → Bool) (xs : List α) :
    placed before (xs.map g) = (placed (fun a b => before (g a) (g b)) xs).map g := by
  have inserted (done rest : List α) :
      (rest.map g).foldl (fun done x => done.insertIdx (placeAmong before x done) x)
          (done.map g) =
        (rest.foldl (fun done x =>
          done.insertIdx (placeAmong (fun a b => before (g a) (g b)) x done) x) done).map g := by
    induction rest generalizing done with
    | nil => rfl
    | cons x rest ih =>
      rw [List.map_cons, List.foldl_cons, List.foldl_cons, placeAmong_map, ← ih,
        List.map_insertIdx]
  rw [placed, leadingRun_map]
  exact inserted _ _

theorem OrderKey.sort_map (toValue : β → Value) (key : OrderKey) (xs : List α) :
    key.sort toValue (xs.map g) = (key.sort (fun x => toValue (g x)) xs).map g := by
  rw [sort, sort, List.any_map]
  simp only [Function.comp_def]
  split
  · split
    · rw [← List.map_reverse, placed_map, List.map_reverse]
    · rw [placed_map]
  · exact (List.map_mergeSort (f := g) fun _ _ _ _ => rfl).symm

theorem sortOn_map (toDocument : β → Document) (keys : List OrderKey) (xs : List α) :
    sortOn toDocument keys (xs.map g) = (sortOn (fun x => toDocument (g x)) keys xs).map g := by
  induction keys with
  | nil => rfl
  | cons key keys ih =>
    rw [sortOn, sortOn, List.foldr_cons, List.foldr_cons]
    exact (congrArg (key.sort _) ih).trans (key.sort_map g _ _)

theorem takeLimit_map (limit : Int) (xs : List α) :
    takeLimit limit (xs.map g) = (takeLimit limit xs).map g := by
  rw [takeLimit, takeLimit, List.length_map]
  split <;> exact List.map_take.symm

/-- A page is made by what the documents are alone. -/
theorem Filter.page_map (toDocument : β → Document) (f : Filter) (xs : List α) :
    f.page toDocument (xs.map g) = (f.page (fun x => toDocument (g x)) xs).map g := by
  rw [Filter.page, Filter.page, sortOn_map, ← List.map_drop]
  cases f.limit with
  | none => rfl
  | some n => exact takeLimit_map g n _

end Map

end Catalog
