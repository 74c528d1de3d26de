import Catalog.Proofs.Plan.Order

/-!
# The order of sorted documents

Values are in a weak order (`Value.Precedes`), not-a-number apart: one that comes before another
comes before any third value, or this one comes before the other (`Value.Precedes.or_of_notNaN`).
A key puts documents in the order of what it reads, one way round or the other.

Sorting by several keys is sorting by one after the other, the first key last. Each pass keeps the
order of what its key does not tell apart (`pairwise_mergeSort`), so that in the end the first key
that tells two documents apart decides which comes first, and where they stood if none does
(`pairwise_sortOn`). There is one such arrangement of the documents, and sorting gives it
(`sortDocuments_eq_iff`).
-/

namespace Catalog

/-! ## The order of values -/

theorem Position.compare_swap (p q : Position) : (p.compare q).swap = q.compare p := by
  cases p with
  | «at» m =>
    cases q with
    | «at» n => exact Int.compare_swap m n
    | _ => rfl
  | _ => cases q <;> rfl

/-- A position lies above the lower of two others, or below the higher one. -/
theorem Position.lt_or_lt {p r : Position} (h : p.compare r = .lt) (q : Position) :
    p.compare q = .lt ∨ q.compare r = .lt := by
  cases p <;> cases q <;> cases r <;> simp only [Position.compare, Int.compare_eq_lt] at h ⊢ <;>
    first | omega | simp at h ⊢

namespace Number

theorem compare?_swap (m n : Number) : (m.compare? n).map Ordering.swap = n.compare? m := by
  rw [compare?, compare?]
  cases m.position? with
  | none => cases n.position? <;> rfl
  | some p =>
    cases n.position? with
    | none => rfl
    | some q => exact congrArg some (p.compare_swap q)

/-- A number with a position is above the lower of two others, or below the higher one. -/
theorem lt_or_lt {m k : Number} (h : m.compare? k = some .lt) {n : Number}
    (hn : (Value.number n).isNaN = false) :
    m.compare? n = some .lt ∨ n.compare? k = some .lt := by
  have position : ∃ q, n.position? = some q := by
    cases n with
    | int i => exact ⟨_, rfl⟩
    | double x =>
      cases x with
      | nan => cases hn
      | _ => exact ⟨_, rfl⟩
  obtain ⟨q, hq⟩ := position
  rw [compare?] at h
  split at h
  · next p r hp hr =>
    rw [compare?, compare?, hp, hq, hr]
    exact (Position.lt_or_lt (Option.some.inj h) q).imp (congrArg some) (congrArg some)
  · cases h

end Number

namespace Value

/-- A value comes before another in the order of values: null before numbers, and after these texts,
    objects, arrays and truth values; numbers by what they are worth, texts by their characters,
    objects and arrays by the JSON texts of them with sorted keys, and false before true. Moments,
    which no document has, come last. -/
inductive Precedes : Value → Value → Prop where
  /-- They are of different kinds. -/
  | kind {a b : Value} (h : a.rank < b.rank) : Precedes a b
  /-- The one number is less than the other. -/
  | number {m n : Number} (h : m.compare? n = some .lt) : Precedes (.number m) (.number n)
  /-- The one text comes before the other. -/
  | text {s t : String} (h : s < t) : Precedes (.text s) (.text t)
  /-- The text of the one object comes before that of the other. -/
  | object {a b : Document} (h : (Value.object a).json true < (Value.object b).json true) :
      Precedes (.object a) (.object b)
  /-- The text of the one array comes before that of the other. -/
  | array {a b : List Value} (h : (Value.array a).json true < (Value.array b).json true) :
      Precedes (.array a) (.array b)
  /-- False comes before true. -/
  | bool : Precedes (.bool false) (.bool true)
  /-- The one moment is earlier than the other. -/
  | instant {t u : Moment} (h : t.micros < u.micros) : Precedes (.instant t) (.instant u)

variable {a b c : Value}

theorem order_of_rank_ne (h : a.rank ≠ b.rank) : a.order b = compare a.rank b.rank := by
  unfold order
  split
  iterate 4 exact absurd rfl h
  exact if_neg fun hk => h hk.1

/-- Values of one kind. -/
inductive OneKind : Value → Value → Prop where
  | null : OneKind .null .null
  | number (m n : Number) : OneKind (.number m) (.number n)
  | text (s t : String) : OneKind (.text s) (.text t)
  | object (a b : Document) : OneKind (.object a) (.object b)
  | array (a b : List Value) : OneKind (.array a) (.array b)
  | bool (p q : Bool) : OneKind (.bool p) (.bool q)
  | instant (t u : Moment) : OneKind (.instant t) (.instant u)

theorem oneKind_of_rank (h : a.rank = b.rank) : OneKind a b := by
  cases a <;> cases b <;> first | constructor | cases h

theorem order_object (a b : Document) :
    (Value.object a).order (.object b) =
      compare ((Value.object a).json true) ((Value.object b).json true) := by
  unfold order
  exact if_pos ⟨rfl, Nat.le_refl 3⟩

theorem order_array (a b : List Value) :
    (Value.array a).order (.array b) =
      compare ((Value.array a).json true) ((Value.array b).json true) := by
  unfold order
  exact if_pos ⟨rfl, Nat.le_succ 3⟩

theorem compare_text_swap (s t : String) : (compare s t).swap = compare t s :=
  Std.OrientedCmp.eq_swap.symm

theorem order_swap (a b : Value) : (a.order b).swap = b.order a := by
  by_cases h : a.rank = b.rank
  · cases oneKind_of_rank h with
    | null => rfl
    | number m n =>
      rw [order, order, ← Number.compare?_swap m n]
      cases m.compare? n <;> rfl
    | text s t => exact compare_text_swap s t
    | object a b =>
      rw [order_object, order_object]
      exact compare_text_swap _ _
    | array a b =>
      rw [order_array, order_array]
      exact compare_text_swap _ _
    | bool p q => exact Nat.compare_swap _ _
    | instant t u => exact Int.compare_swap _ _
  · rw [order_of_rank_ne h, order_of_rank_ne (Ne.symm h)]
    exact Nat.compare_swap _ _

/-- The order of two values says which of them comes before the other. -/
theorem order_eq_lt : a.order b = .lt ↔ a.Precedes b := by
  by_cases hr : a.rank = b.rank
  · constructor
    · intro h
      cases oneKind_of_rank hr with
      | null => cases h
      | number m n =>
        refine .number ?_
        rw [order] at h
        cases ho : m.compare? n with
        | none =>
          rw [ho] at h
          cases h
        | some o => rw [ho] at h; exact congrArg some h
      | text s t => exact .text (compareOfLessAndEq_eq_lt.1 h)
      | object a b => exact .object (compareOfLessAndEq_eq_lt.1 ((order_object a b).symm.trans h))
      | array a b => exact .array (compareOfLessAndEq_eq_lt.1 ((order_array a b).symm.trans h))
      | bool p q =>
        cases p <;> cases q <;> first | exact .bool | cases h
      | instant t u => exact .instant (Int.compare_eq_lt.1 h)
    · intro h
      cases h with
      | kind h => exact absurd hr (Nat.ne_of_lt h)
      | number h => rw [order, h]; rfl
      | text h => exact compareOfLessAndEq_eq_lt.2 h
      | object h => exact (order_object _ _).trans (compareOfLessAndEq_eq_lt.2 h)
      | array h => exact (order_array _ _).trans (compareOfLessAndEq_eq_lt.2 h)
      | bool => rfl
      | instant h => exact Int.compare_eq_lt.2 h
  · rw [order_of_rank_ne hr, Nat.compare_eq_lt]
    refine ⟨.kind, fun h => ?_⟩
    cases h with
    | kind h => exact h
    | _ => exact absurd rfl hr

theorem order_eq_gt : a.order b = .gt ↔ b.Precedes a := by
  rw [← order_eq_lt, ← order_swap a b, Ordering.swap_eq_lt]

theorem Precedes.asymm (h : a.Precedes b) : ¬b.Precedes a := by
  rw [← order_eq_lt] at h
  rw [← order_eq_gt, h]
  exact fun h => by cases h

theorem text_lt_or_lt {s u : String} (h : s < u) (t : String) : s < t ∨ t < u := by
  by_cases ht : s < t
  · exact .inl ht
  · exact .inr (Std.lt_of_le_of_lt (String.not_lt.1 ht) h)

/-- A value of another kind than two others is on one side of both. -/
theorem precedes_or_of_rank (hac : a.rank = c.rank)
    (h : OneKind a b → a.Precedes b ∨ b.Precedes c) : a.Precedes b ∨ b.Precedes c := by
  by_cases hr : a.rank = b.rank
  · exact h (oneKind_of_rank hr)
  · exact (Nat.lt_or_gt_of_ne hr).imp .kind fun h => .kind (hac ▸ h)

/-- Where a value comes before another, a third one comes after the first of them or before the
    second, unless it is not-a-number. -/
theorem Precedes.or_of_notNaN (h : a.Precedes c) (hb : b.isNaN = false) :
    a.Precedes b ∨ b.Precedes c := by
  -- A third value of another kind is beside both. Of one kind the values are ordered totally, but
  -- for the numbers, which is where `hb` is needed.
  cases h with
  | kind h =>
    by_cases hab : a.rank < b.rank
    · exact .inl (.kind hab)
    · exact .inr (.kind (Nat.lt_of_le_of_lt (Nat.le_of_not_lt hab) h))
  | number h =>
    refine precedes_or_of_rank rfl fun hk => ?_
    cases hk
    exact (Number.lt_or_lt h hb).imp .number .number
  | text h =>
    refine precedes_or_of_rank rfl fun hk => ?_
    cases hk
    exact (text_lt_or_lt h _).imp .text .text
  | object h =>
    refine precedes_or_of_rank rfl fun hk => ?_
    cases hk
    exact (text_lt_or_lt h _).imp .object .object
  | array h =>
    refine precedes_or_of_rank rfl fun hk => ?_
    cases hk
    exact (text_lt_or_lt h _).imp .array .array
  | bool =>
    refine precedes_or_of_rank rfl fun hk => ?_
    cases hk with
    | bool _ p =>
      cases p with
      | false => exact .inr .bool
      | true => exact .inl .bool
  | @instant t u h =>
    refine precedes_or_of_rank rfl fun hk => ?_
    cases hk with
    | instant _ v =>
      have : t.micros < v.micros ∨ v.micros < u.micros := by omega
      exact this.imp .instant .instant

instance (a b : Value) : Decidable (a.Precedes b) := decidable_of_iff _ order_eq_lt

example : [.null, .number (.int 7), .text "b", .object [("k", .null)], .array [], .bool false,
    .bool true].Pairwise Precedes := by decide

end Value

/-! ## Keys -/

namespace OrderKey

/-- A key puts one document before another by what it reads of the two: the lesser value comes
    first, or the greater one if the key is descending. -/
def Before (key : OrderKey) (d e : Document) : Prop :=
  if key.descending then (key.valueOf (.object e)).Precedes (key.valueOf (.object d))
  else (key.valueOf (.object d)).Precedes (key.valueOf (.object e))

/-- A key does not tell two documents apart. -/
def Level (key : OrderKey) (d e : Document) : Prop := ¬key.Before d e ∧ ¬key.Before e d

/-- What a key reads of a document can be put in order: it is not not-a-number. -/
def Reads (key : OrderKey) (d : Document) : Prop := (key.valueOf (.object d)).isNaN = false

variable {key : OrderKey} {d e f : Document}

instance : Decidable (key.Before d e) :=
  inferInstanceAs (Decidable (if key.descending then _ else _))

instance : Decidable (key.Level d e) :=
  inferInstanceAs (Decidable (¬key.Before d e ∧ ¬key.Before e d))

instance : Decidable (key.Reads d) :=
  inferInstanceAs (Decidable ((key.valueOf (.object d)).isNaN = false))

theorem Before.asymm (h : key.Before d e) : ¬key.Before e d := by
  by_cases hk : key.descending = true
  · rw [Before, if_pos hk] at h ⊢
    exact h.asymm
  · rw [Before, if_neg hk] at h ⊢
    exact h.asymm

theorem Before.or_of_reads (h : key.Before d f) (he : key.Reads e) :
    key.Before d e ∨ key.Before e f := by
  by_cases hk : key.descending = true
  · simp only [Before, if_pos hk] at h ⊢
    exact (h.or_of_notNaN he).symm
  · simp only [Before, if_neg hk] at h ⊢
    exact h.or_of_notNaN he

theorem allows_iff : key.allows (.object d) (.object e) = true ↔ ¬key.Before e d := by
  rw [allows, Before]
  split
  · rw [← Value.order_eq_lt]
    cases (key.valueOf (.object d)).order (key.valueOf (.object e)) <;> decide
  · rw [← Value.order_eq_gt]
    cases (key.valueOf (.object d)).order (key.valueOf (.object e)) <;> decide

end OrderKey

/-! ## One pass -/

section Pass

variable {α : Type}

/-- Sorting keeps the order of what it does not tell apart. -/
theorem pairwise_mergeSort {le : α → α → Bool} (trans : ∀ a b c, le a b → le b c → le a c)
    (total : ∀ a b, le a b || le b a) {R : α → α → Prop} {xs : List α} (h : xs.Pairwise R) :
    (xs.mergeSort le).Pairwise fun a b => le a b = true ∧ (le b a = true → R a b) := by
  -- Sorting is sorting together with the places, which settle what the order does not.
  rw [← List.mergeSort_zipIdx, List.pairwise_map]
  have perm := List.mergeSort_perm xs.zipIdx (List.zipIdxLE le)
  have sorted := List.pairwise_mergeSort (List.zipIdxLE_trans trans) (List.zipIdxLE_total total)
    xs.zipIdx
  have places : (xs.zipIdx.mergeSort (List.zipIdxLE le)).Pairwise fun a b => a.2 ≠ b.2 := by
    rw [← List.pairwise_map (f := Prod.snd) (R := (· ≠ ·))]
    refine ((perm.map Prod.snd).nodup_iff).2 ?_
    rw [List.zipIdx_map_snd]
    exact List.nodup_range'
  refine (sorted.and places).imp_of_mem fun {a b} ha hb hab => ?_
  obtain ⟨hle, hne⟩ := hab
  rw [perm.mem_iff, List.mem_zipIdx_iff_getElem?] at ha hb
  rw [List.zipIdxLE] at hle
  split at hle
  · next hfirst =>
    refine ⟨hfirst, fun hback => ?_⟩
    rw [if_pos hback, decide_eq_true_iff] at hle
    obtain ⟨hi, ha⟩ := List.getElem?_eq_some_iff.1 ha
    obtain ⟨hj, hb⟩ := List.getElem?_eq_some_iff.1 hb
    rw [← ha, ← hb]
    exact List.pairwise_iff_getElem.1 h a.2 b.2 hi hj (Nat.lt_of_le_of_ne hle hne)
  · cases hle

/-- A pass puts what the key tells apart in its order, and keeps the order of the rest. -/
theorem OrderKey.pairwise_sort {key : OrderKey} {toDocument : α → Document}
    (hreads : ∀ x, key.Reads (toDocument x)) {R : α → α → Prop} {xs : List α}
    (h : xs.Pairwise R) :
    (key.sort (fun x => .object (toDocument x)) xs).Pairwise fun a b =>
      key.Before (toDocument a) (toDocument b) ∨
        key.Level (toDocument a) (toDocument b) ∧ R a b := by
  have plain : ¬xs.any (fun x => (key.valueOf (.object (toDocument x))).isNaN) = true := by
    rw [List.any_eq_true]
    rintro ⟨x, -, hx⟩
    exact absurd ((hreads x).symm.trans hx) (by decide)
  rw [sort, if_neg plain]
  refine (pairwise_mergeSort ?_ ?_ h).imp fun {a b} hab => ?_
  · intro a b c hab hbc
    rw [allows_iff] at hab hbc ⊢
    exact fun hca => (hca.or_of_reads (hreads b)).elim hbc hab
  · intro a b
    rw [Bool.or_eq_true, allows_iff, allows_iff]
    by_cases hba : key.Before (toDocument b) (toDocument a)
    · exact .inr hba.asymm
    · exact .inl hba
  · rw [allows_iff, allows_iff] at hab
    by_cases hbefore : key.Before (toDocument a) (toDocument b)
    · exact .inl hbefore
    · exact .inr ⟨⟨hbefore, hab.1⟩, hab.2 hbefore⟩

end Pass

/-! ## Several keys -/

/-- The first of several keys that tells two documents apart puts the one before the other. -/
def OrderKey.Earlier (keys : List OrderKey) (d e : Document) : Prop :=
  ∃ passed key rest, keys = passed ++ key :: rest ∧ (∀ k ∈ passed, k.Level d e) ∧ key.Before d e

/-- No key tells two documents apart. -/
def OrderKey.AllLevel (keys : List OrderKey) (d e : Document) : Prop := ∀ key ∈ keys, key.Level d e

/-- One of two documents at their places in a list comes first: the keys put it before the other, or
    they do not tell the two apart and it stands first. -/
def OrderKey.ComesFirst (keys : List OrderKey) (p q : Document × Nat) : Prop :=
  Earlier keys p.1 q.1 ∨ AllLevel keys p.1 q.1 ∧ p.2 < q.2

namespace OrderKey

variable {key : OrderKey} {keys : List OrderKey} {d e : Document} {p q : Document × Nat}

theorem not_earlier_nil : ¬Earlier [] d e := by
  rintro ⟨passed, key, rest, h, -⟩
  exact List.append_ne_nil_of_right_ne_nil passed (List.cons_ne_nil key rest) h.symm

theorem earlier_cons :
    Earlier (key :: keys) d e ↔ key.Before d e ∨ key.Level d e ∧ Earlier keys d e := by
  constructor
  · rintro ⟨_ | ⟨k, passed⟩, key', rest, h, hlevel, hbefore⟩
    · cases h
      exact .inl hbefore
    · cases h
      rw [List.forall_mem_cons] at hlevel
      exact .inr ⟨hlevel.1, passed, key', rest, rfl, hlevel.2, hbefore⟩
  · rintro (hbefore | ⟨hlevel, passed, key', rest, rfl, hpassed, hbefore⟩)
    · exact ⟨[], key, keys, rfl, List.forall_mem_nil _, hbefore⟩
    · exact ⟨key :: passed, key', rest, rfl, List.forall_mem_cons.2 ⟨hlevel, hpassed⟩, hbefore⟩

instance decidableEarlier : (keys : List OrderKey) → Decidable (Earlier keys d e)
  | [] => .isFalse not_earlier_nil
  | _ :: keys =>
    have := decidableEarlier keys
    decidable_of_iff _ earlier_cons.symm

instance : Decidable (AllLevel keys d e) := List.decidableBAll _ _

instance : Decidable (ComesFirst keys p q) :=
  inferInstanceAs (Decidable (Earlier keys p.1 q.1 ∨ AllLevel keys p.1 q.1 ∧ p.2 < q.2))

theorem comesFirst_cons :
    ComesFirst (key :: keys) p q ↔
      key.Before p.1 q.1 ∨ key.Level p.1 q.1 ∧ ComesFirst keys p q := by
  rw [ComesFirst, ComesFirst, earlier_cons, AllLevel, AllLevel, List.forall_mem_cons, or_assoc,
    and_assoc, and_or_left]

/-- Of two documents not each comes first. -/
theorem ComesFirst.asymm (h : ComesFirst keys p q) : ¬ComesFirst keys q p := by
  induction keys with
  | nil =>
    intro h'
    have hlt := (h.resolve_left not_earlier_nil).2
    have hlt' := (h'.resolve_left not_earlier_nil).2
    omega
  | cons key keys ih =>
    rw [comesFirst_cons] at h ⊢
    rintro (hback | ⟨hlevel', hback⟩)
    · exact h.elim (fun hbefore => hbefore.asymm hback) fun ⟨hlevel, _⟩ => hlevel.2 hback
    · exact h.elim (fun hbefore => hlevel'.2 hbefore) fun ⟨_, hfirst⟩ => ih hfirst hback

end OrderKey

section Places

variable {α : Type} {place : α → Document × Nat} {keys : List OrderKey} {xs : List α}
  {docs : List Document}

/-- What stands for documents at places comes in the order of the keys, and of the places where
    these do not tell the documents apart. -/
theorem pairwise_sortOn (hreads : ∀ key ∈ keys, ∀ x, key.Reads (place x).1)
    (h : xs.Pairwise fun a b => (place a).2 < (place b).2) :
    (sortOn (fun x => (place x).1) keys xs).Pairwise fun a b =>
      OrderKey.ComesFirst keys (place a) (place b) := by
  -- Each key sorts what the keys after it have left.
  induction keys with
  | nil => exact h.imp fun hlt => .inr ⟨List.forall_mem_nil _, hlt⟩
  | cons key keys ih =>
    rw [List.forall_mem_cons] at hreads
    exact (key.pairwise_sort hreads.1 (ih hreads.2)).imp OrderKey.comesFirst_cons.2

theorem pairwise_places (h : xs.map place = docs.zipIdx) :
    xs.Pairwise fun a b => (place a).2 < (place b).2 := by
  have numbers : (docs.zipIdx.map Prod.snd).Pairwise (· < ·) := by
    rw [List.zipIdx_map_snd]
    exact List.pairwise_lt_range'
  rwa [← h, List.map_map, List.pairwise_map] at numbers

theorem map_sortOn (h : xs.map place = docs.zipIdx) :
    ((sortOn (fun x => (place x).1) keys xs).map place).map Prod.fst = sortDocuments keys docs := by
  rw [sortDocuments, ← List.zipIdx_map_fst 0 docs, ← h, List.map_map, List.map_map, sortOn_map]
  rfl

end Places

/-- Sorting documents gives an arrangement of them at their places in which each comes first before
    those behind it. -/
theorem exists_arranged {keys : List OrderKey} {docs : List Document}
    (h : ∀ key ∈ keys, ∀ d ∈ docs, key.Reads d) : ∃ arranged : List (Document × Nat),
      arranged.Perm docs.zipIdx ∧ arranged.Pairwise (OrderKey.ComesFirst keys) ∧
        arranged.map Prod.fst = sortDocuments keys docs := by
  -- What is sorted are the documents at their places, each known to be one of them.
  have places : docs.zipIdx.attach.map Subtype.val = docs.zipIdx := List.attach_map_subtype_val _
  have reads : ∀ key ∈ keys, ∀ x : { p // p ∈ docs.zipIdx }, key.Reads x.1.1 :=
    fun key hkey x => h key hkey _ (List.fst_mem_of_mem_zipIdx x.2)
  have perm := (sortOn_perm (fun x => x.1.1) keys docs.zipIdx.attach).map Subtype.val
  refine ⟨_, perm.trans (.of_eq places), ?_, map_sortOn places⟩
  exact List.pairwise_map.2 (pairwise_sortOn reads (pairwise_places places))

/-- Sorting documents gives the one arrangement of them in which each comes before those that the
    keys put after it, the first key that tells two documents apart deciding, and before those that
    stood after it if no key tells the two apart. -/
theorem sortDocuments_eq_iff {keys : List OrderKey} {docs : List Document}
    (h : ∀ key ∈ keys, ∀ d ∈ docs, key.Reads d) (result : List Document) :
    sortDocuments keys docs = result ↔ ∃ arranged : List (Document × Nat),
      arranged.Perm docs.zipIdx ∧ arranged.Pairwise (OrderKey.ComesFirst keys) ∧
        arranged.map Prod.fst = result := by
  obtain ⟨sorted, hperm, hfirst, hsorted⟩ := exists_arranged h
  constructor
  · rintro rfl
    exact ⟨sorted, hperm, hfirst, hsorted⟩
  · rintro ⟨arranged, hperm', hfirst', rfl⟩
    have same : sorted = arranged := List.Perm.eq_of_pairwise
      (fun p q _ _ hpq hqp => absurd hqp hpq.asymm) hfirst hfirst' (hperm.trans hperm'.symm)
    rw [← hsorted, same]

/-- A record with a group and a rank. -/
def rankedRecord (id : String) (group : Value) (rank : Int) : Document :=
  [("_id", .text id), ("group", group), ("rank", .int rank)]

/-- By group, and in a group the greatest rank first. -/
def byGroupAndRank : List OrderKey := [⟨"group", false⟩, ⟨"rank", true⟩]

/-- The record without a group comes first, then those of one group as they are ranked, and two of
    one rank as they stood. -/
theorem sortDocuments_eq_iff_ranked :
    (∀ key ∈ byGroupAndRank, ∀ d ∈ [rankedRecord "a" (.text "x") 1, rankedRecord "b" .null 2,
        rankedRecord "c" (.text "x") 2, rankedRecord "d" (.text "x") 1], key.Reads d) ∧
      sortDocuments byGroupAndRank [rankedRecord "a" (.text "x") 1, rankedRecord "b" .null 2,
          rankedRecord "c" (.text "x") 2, rankedRecord "d" (.text "x") 1] =
        [rankedRecord "b" .null 2, rankedRecord "c" (.text "x") 2, rankedRecord "a" (.text "x") 1,
          rankedRecord "d" (.text "x") 1] := by
  have reads : ∀ key ∈ byGroupAndRank, ∀ d ∈ [rankedRecord "a" (.text "x") 1,
      rankedRecord "b" .null 2, rankedRecord "c" (.text "x") 2, rankedRecord "d" (.text "x") 1],
      key.Reads d := by
    decide +kernel
  refine ⟨reads, (sortDocuments_eq_iff reads _).2 ⟨[(rankedRecord "b" .null 2, 1),
    (rankedRecord "c" (.text "x") 2, 2), (rankedRecord "a" (.text "x") 1, 0),
    (rankedRecord "d" (.text "x") 1, 3)], ?_, ?_, rfl⟩⟩
  · exact ((List.Perm.swap _ _ _).cons _).trans (List.Perm.swap _ _ _)
  · decide +kernel

end Catalog
