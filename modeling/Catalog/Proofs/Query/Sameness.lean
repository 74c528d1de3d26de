import Catalog.Proofs.Keyed
import Catalog.Proofs.Query.Equality

/-!
# Values that are the same

Sameness goes on from value to value (`Value.same_trans`): what has been found to be the same as a
value, one change after the other, is still the same as it. It is no equivalence: not-a-number is
not the same as itself, unless it is an item or a member. Everything else is (`Value.same_self`), as
long as no object within it has a key twice (`Value.WellKeyed`).
-/

namespace Catalog

theorem Number.same_trans {a b c : Number} (h : a.same b = true) (h' : b.same c = true) :
    a.same c = true := by
  obtain ⟨p, ha, hb⟩ := same_iff.1 h
  obtain ⟨q, hb', hc⟩ := same_iff.1 h'
  cases hb.symm.trans hb'
  exact same_iff.2 ⟨p, ha, hc⟩

namespace Value

/-- What makes two values the same. -/
inductive Sameness : Value → Value → Prop where
  /-- Both are null. -/
  | null : Sameness .null .null
  /-- Both count as numbers, and these are worth the same. -/
  | number {v w : Value} {m n : Number} : v.numeric? = some m → w.numeric? = some n →
      m.same n = true → Sameness v w
  /-- The same text. -/
  | text (s : String) : Sameness (.text s) (.text s)
  /-- The same point of time. -/
  | instant {t u : Moment} : t.same u = true → Sameness (.instant t) (.instant u)
  /-- The same items. -/
  | array {a b : List Value} : sameItems a b = true → Sameness (.array a) (.array b)
  /-- As many members, and the same ones. -/
  | object {a b : Document} : a.length = b.length → sameMembers a b = true →
      Sameness (.object a) (.object b)

theorem Sameness.of_same {v w : Value} (h : v.same w = true) : Sameness v w := by
  have numeric {n : Number} (hv : v.numeric? = some n)
      (h : (w.numeric?.map n.same).getD false = true) : Sameness v w := by
    cases hw : w.numeric? with
    | none =>
      rw [hw] at h
      cases h
    | some m =>
      rw [hw] at h
      exact .number hv hw h
  cases v with
  | null =>
    cases w with
    | null => exact .null
    | _ => cases h
  | bool b =>
    rw [same] at h
    exact numeric rfl h
  | number n =>
    rw [same] at h
    exact numeric rfl h
  | text s =>
    cases w with
    | text t =>
      rw [same, beq_iff_eq] at h
      exact h ▸ .text s
    | _ => cases h
  | instant t =>
    cases w with
    | instant u => exact .instant h
    | _ => cases h
  | array a =>
    cases w with
    | array b => exact .array h
    | _ => cases h
  | object a =>
    cases w with
    | object b =>
      rw [same, Bool.and_eq_true, beq_iff_eq] at h
      exact .object h.1 h.2
    | _ => cases h

theorem same_of_numeric? {v w : Value} {m n : Number} (hv : v.numeric? = some m)
    (hw : w.numeric? = some n) (h : m.same n = true) : v.same w = true := by
  cases v with
  | bool b =>
    cases hv
    rw [same, hw]
    exact h
  | number a =>
    cases hv
    rw [same, hw]
    exact h
  | _ => cases hv

theorem same_trans_of_numeric? {a b c : Value} {n : Number} (ha : a.numeric? = some n)
    (h : a.same b = true) (h' : b.same c = true) : a.same c = true := by
  cases Sameness.of_same h with
  | number hm hn hs =>
    cases Sameness.of_same h' with
    | number hm' hn' hs' =>
      cases hn.symm.trans hm'
      exact same_of_numeric? hm hn' (Number.same_trans hs hs')
    | _ => cases hn
  | _ => cases ha

/-- What is the same is no not-a-number. -/
theorem isNaN_of_same {v w : Value} (h : v.same w = true) : v.isNaN = false ∧ w.isNaN = false := by
  have worth {v : Value} {n : Number} {p : Position} (hv : v.numeric? = some n)
      (hp : n.position? = some p) : v.isNaN = false := by
    cases v with
    | number a =>
      obtain rfl : a = n := Option.some.inj hv
      cases a with
      | int i => rfl
      | double d =>
        cases d with
        | nan => cases hp
        | _ => rfl
    | _ => rfl
  cases Sameness.of_same h with
  | number hv hw hs =>
    obtain ⟨p, hm, hn⟩ := Number.same_iff.1 hs
    exact ⟨worth hv hm, worth hw hn⟩
  | _ => exact ⟨rfl, rfl⟩

theorem get?_of_sameMembers {a b : Document} (h : sameMembers a b = true) {key : String}
    {v : Value} (hv : a.get? key = some v) :
    ∃ w, b.get? key = some w ∧ ((v.isNaN && w.isNaN) || v.same w) = true := by
  induction a with
  | nil => cases hv
  | cons m a ih =>
    obtain ⟨k, u⟩ := m
    rw [sameMembers, Bool.and_eq_true] at h
    rw [Document.get?] at hv
    split at hv
    · next hk =>
      cases hv
      subst hk
      have found := h.1
      split at found
      · next w hw => exact ⟨w, hw, found⟩
      · cases found
    · exact ih h.2 hv

/-- Where items and members are the same, they are so from value to value, too. -/
theorem same_or_isNaN_trans {a b c : Value}
    (htrans : a.same b = true → b.same c = true → a.same c = true)
    (h : ((a.isNaN && b.isNaN) || a.same b) = true)
    (h' : ((b.isNaN && c.isNaN) || b.same c) = true) :
    ((a.isNaN && c.isNaN) || a.same c) = true := by
  rw [Bool.or_eq_true, Bool.and_eq_true] at h h' ⊢
  rcases h with ⟨ha, hb⟩ | h
  · rcases h' with ⟨-, hc⟩ | h'
    · exact .inl ⟨ha, hc⟩
    · exact absurd hb (Bool.eq_false_iff.1 (isNaN_of_same h').1)
  · rcases h' with ⟨hb, -⟩ | h'
    · exact absurd hb (Bool.eq_false_iff.1 (isNaN_of_same h).2)
    · exact .inr (htrans h h')

mutual

/-- What is the same as the same value is the same. -/
theorem same_trans : ∀ {a b c : Value}, a.same b = true → b.same c = true → a.same c = true
  | .array a, b, c, h, h' => by
    cases Sameness.of_same h with
    | array hi =>
      cases Sameness.of_same h' with
      | array hi' => exact sameItems_trans hi hi'
      | number hn => cases hn
    | number hn => cases hn
  | .object a, b, c, h, h' => by
    cases Sameness.of_same h with
    | object hl hm =>
      cases Sameness.of_same h' with
      | object hl' hm' =>
        rw [same, hl, hl', beq_self_eq_true, Bool.true_and]
        exact sameMembers_trans hm hm'
      | number hn => cases hn
    | number hn => cases hn
  | .null, b, c, h, h' => by
    cases Sameness.of_same h with
    | null => exact h'
    | number hm => cases hm
  | .bool _, b, c, h, h' => same_trans_of_numeric? rfl h h'
  | .number _, b, c, h, h' => same_trans_of_numeric? rfl h h'
  | .text s, b, c, h, h' => by
    cases Sameness.of_same h with
    | text => exact h'
    | number hm => cases hm
  | .instant t, b, c, h, h' => by
    cases Sameness.of_same h with
    | instant ht =>
      cases Sameness.of_same h' with
      | instant ht' => exact beq_iff_eq.2 ((beq_iff_eq.1 ht).trans (beq_iff_eq.1 ht'))
      | number hn => cases hn
    | number hn => cases hn

theorem sameItems_trans : ∀ {a b c : List Value}, sameItems a b = true → sameItems b c = true →
    sameItems a c = true
  | [], [], _, _, h' => h'
  | v :: a, w :: b, u :: c, h, h' => by
    rw [sameItems, Bool.and_eq_true] at h h' ⊢
    exact ⟨same_or_isNaN_trans same_trans h.1 h'.1, sameItems_trans h.2 h'.2⟩
  | _ :: _, _ :: _, [], _, h' => by cases h'
  | [], _ :: _, _, h, _ => by cases h
  | _ :: _, [], _, h, _ => by cases h

theorem sameMembers_trans : ∀ {a b c : Document}, sameMembers a b = true →
    sameMembers b c = true → sameMembers a c = true
  | [], _, _, _, _ => by rw [sameMembers]
  | (key, v) :: a, b, c, h, h' => by
    rw [sameMembers, Bool.and_eq_true] at h ⊢
    obtain ⟨found, h⟩ := h
    refine ⟨?_, sameMembers_trans h h'⟩
    split at found
    · next w hw =>
      obtain ⟨u, hu, same⟩ := get?_of_sameMembers h' hw
      rw [hu]
      exact same_or_isNaN_trans same_trans found same
    · cases found

end

/-! ## Values that are the same as themselves -/

/-- No object within a value has a key twice, as none that is read from a text has. -/
inductive WellKeyed : Value → Prop where
  /-- Null. -/
  | null : WellKeyed .null
  /-- A truth value. -/
  | bool (b : Bool) : WellKeyed (.bool b)
  /-- A number. -/
  | number (n : Number) : WellKeyed (.number n)
  /-- A text. -/
  | text (s : String) : WellKeyed (.text s)
  /-- A point of time. -/
  | instant (t : Moment) : WellKeyed (.instant t)
  /-- An array of such values. -/
  | array {items : List Value} : (∀ v ∈ items, WellKeyed v) → WellKeyed (.array items)
  /-- An object with each key once, and such values under them. -/
  | object {members : Document} : members.Distinct → (∀ m ∈ members, WellKeyed m.2) →
      WellKeyed (.object members)

theorem WellKeyed.distinct {doc : Document} (h : (Value.object doc).WellKeyed) : doc.Distinct := by
  cases h with
  | object distinct => exact distinct

theorem WellKeyed.of_get? {doc : Document} (h : (Value.object doc).WellKeyed) {key : String}
    {v : Value} (hv : doc.get? key = some v) : v.WellKeyed := by
  cases h with
  | object _ members => exact members (key, v) (Document.mem_of_get? hv)

theorem numeric_same_self {v : Value} {n : Number} (hn : v.numeric? = some n)
    (h : v.isNaN = false) : v.same v = true := by
  refine same_of_numeric? hn hn ?_
  cases n with
  | int i => exact Number.same_iff.2 ⟨_, rfl, rfl⟩
  | double x =>
    cases x with
    | nan =>
      cases v with
      | bool b => cases hn
      | number m =>
        cases hn
        cases h
      | _ => cases hn
    | _ => exact Number.same_iff.2 ⟨_, rfl, rfl⟩

/-- Lists of values are the same as themselves if their values are, or are not-a-number. -/
theorem sameItems_self {items : List Value}
    (h : ∀ v ∈ items, v.isNaN = false → v.same v = true) : sameItems items items = true := by
  induction items with
  | nil => rw [sameItems]
  | cons v items ih =>
    rw [List.forall_mem_cons] at h
    rw [sameItems, ih h.2, Bool.and_true, Bool.and_self]
    cases hn : v.isNaN with
    | true => rfl
    | false => exact h.1 hn

/-- An object is within another one if each of its members is the same there, or not-a-number. -/
theorem sameMembers_self {doc members : Document}
    (h : ∀ m ∈ members, doc.get? m.1 = some m.2 ∧ (m.2.isNaN = false → m.2.same m.2 = true)) :
    sameMembers members doc = true := by
  induction members with
  | nil => rw [sameMembers]
  | cons m members ih =>
    obtain ⟨key, v⟩ := m
    rw [List.forall_mem_cons] at h
    rw [sameMembers, h.1.1, ih h.2, Bool.and_true]
    dsimp only
    rw [Bool.and_self]
    cases hn : v.isNaN with
    | true => rfl
    | false => exact h.1.2 hn

/-- Whatever is not not-a-number is the same as itself. -/
theorem same_self {v : Value} (h : v.WellKeyed) (hn : v.isNaN = false) : v.same v = true := by
  induction h with
  | null => rw [same]
  | bool b => exact numeric_same_self rfl hn
  | number n => exact numeric_same_self rfl hn
  | text s => exact same_text.2 rfl
  | instant t => exact beq_self_eq_true t.micros
  | array _ ih => exact sameItems_self ih
  | @object members distinct _ ih =>
    rw [same, beq_self_eq_true, Bool.true_and]
    exact sameMembers_self fun m hm => ⟨distinct.get?_of_mem hm, ih m hm⟩

end Value
end Catalog
