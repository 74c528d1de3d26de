import Catalog.Plan.Slots
import Catalog.Proofs.SameResult

/-!
# Changing a document in its slots

What a lookup does to one document is to change the values in the slots of a path and nothing else:
`Value.changeSlots` goes through the document as the path does, and wherever the path ends it puts
what a step makes of the value that stands there, or removes the member.

Reading all slots, making the new values and refilling the slots with them is the same
(`Value.changeSlots_eq`), also for several documents at once, whose new values are handed out one
document after the other (`Document.changeSlots_all`).
-/

namespace Catalog

namespace Value

mutual

/-- The value with the values in the slots of a path replaced by what a step makes of them; where it
    makes nothing, the member is removed. -/
def changeSlots (new : Value → Outcome (Option Value)) : Value → List String → Outcome Value
  | .array items, steps => do return .array (← changeSlotsOfItems new items steps)
  | .object members, step :: steps => do
    return .object (← changeSlotsOfMember new members step steps)
  | v, _ => .ok v

/-- The members, changed in the slots of a path that starts with one of their keys. -/
def changeSlotsOfMember (new : Value → Outcome (Option Value)) :
    List (String × Value) → String → List String → Outcome (List (String × Value))
  | [], _, _ => .ok []
  | (k, v) :: rest, step, steps =>
    if k = step then
      match steps with
      | [] => do return ((← new v).map fun w => (k, w)).toList ++ rest
      | steps => do return (k, ← v.changeSlots new steps) :: rest
    else do return (k, v) :: (← changeSlotsOfMember new rest step steps)

/-- The items of an array, each changed in the slots of a path. -/
def changeSlotsOfItems (new : Value → Outcome (Option Value)) :
    List Value → List String → Outcome (List Value)
  | [], _ => .ok []
  | v :: rest, steps => do
    return (← v.changeSlots new steps) :: (← changeSlotsOfItems new rest steps)

end

/-- What changing members in their slots does: nothing, or the first one with the key that the path
    starts with is replaced or removed. -/
theorem changeSlotsOfMember_cases {new : Value → Outcome (Option Value)}
    {ms ms' : List (String × Value)} {step : String} {steps : List String}
    (h : changeSlotsOfMember new ms step steps = .ok ms') :
    ms' = ms ∨ ∃ before v after changed, ms = before ++ (step, v) :: after ∧
      ms' = before ++ (changed.map fun w => (step, w)).toList ++ after ∧
      (new v = .ok changed ∨ ∃ w, v.changeSlots new steps = .ok w ∧ changed = some w) := by
  induction ms generalizing ms' with
  | nil =>
    cases h
    exact .inl rfl
  | cons m rest ih =>
    obtain ⟨k, v⟩ := m
    by_cases hk : k = step
    · subst hk
      cases steps with
      | nil =>
        simp only [changeSlotsOfMember, if_true] at h
        obtain ⟨changed, hnew, h⟩ := bind_eq_ok.1 h
        cases h
        exact .inr ⟨[], v, rest, changed, rfl, rfl, .inl hnew⟩
      | cons s steps =>
        simp only [changeSlotsOfMember, if_true] at h
        obtain ⟨w, hw, h⟩ := bind_eq_ok.1 h
        cases h
        exact .inr ⟨[], v, rest, some w, rfl, rfl, .inr ⟨w, hw, rfl⟩⟩
    · have h : changeSlotsOfMember new rest step steps >>= (fun rest =>
          pure ((k, v) :: rest)) = .ok ms' := by
        cases steps <;> simpa only [changeSlotsOfMember, if_neg hk] using h
      obtain ⟨rest', hrest, h⟩ := bind_eq_ok.1 h
      cases h
      rcases ih hrest with rfl | ⟨before, u, after, changed, rfl, rfl, made⟩
      · exact .inl rfl
      · exact .inr ⟨(k, v) :: before, u, after, changed, rfl, rfl, made⟩

/-! ## Refilling with as many values as there are slots -/

mutual

/-- New values for the slots are used up; others are left over. -/
theorem refill_append (extra : List (Option Value)) :
    ∀ (v : Value) (steps : List String) (news : List (Option Value)),
      news.length = (v.slots steps).length →
      v.refill steps (news ++ extra) = ((v.refill steps news).1, extra)
  | .array items, steps, news, h => by
    rw [refill, refill, refillItems_append extra items steps news h]
  | .object members, step :: steps, news, h => by
    rw [refill, refill, refillMember_append extra members step steps news h]
  | .object _, [], [], _ => rfl
  | .null, _, [], _ => rfl
  | .bool _, _, [], _ => rfl
  | .number _, _, [], _ => rfl
  | .text _, _, [], _ => rfl
  | .instant _, _, [], _ => rfl

theorem refillMember_append (extra : List (Option Value)) :
    ∀ (members : List (String × Value)) (step : String) (steps : List String)
      (news : List (Option Value)),
      news.length = (slotsOfMember members step steps).length →
      refillMember members step steps (news ++ extra) =
        ((refillMember members step steps news).1, extra)
  | [], _, _, [], _ => rfl
  | (k, v) :: rest, step, [], news, h => by
    by_cases hk : k = step
    · simp only [slotsOfMember, if_pos hk] at h
      obtain ⟨new, rfl⟩ := List.length_eq_one_iff.1 h
      cases new <;> simp [refillMember, hk]
    · simp only [slotsOfMember, if_neg hk] at h
      simp only [refillMember, if_neg hk, refillMember_append extra rest step [] news h]
  | (k, v) :: rest, step, s :: steps, news, h => by
    by_cases hk : k = step
    · simp only [slotsOfMember, if_pos hk] at h
      simp only [refillMember, if_pos hk, refill_append extra v (s :: steps) news h]
    · simp only [slotsOfMember, if_neg hk] at h
      simp only [refillMember, if_neg hk, refillMember_append extra rest step (s :: steps) news h]

theorem refillItems_append (extra : List (Option Value)) :
    ∀ (items : List Value) (steps : List String) (news : List (Option Value)),
      news.length = (slotsOfItems items steps).length →
      refillItems items steps (news ++ extra) = ((refillItems items steps news).1, extra)
  | [], _, [], _ => rfl
  | v :: rest, steps, news, h => by
    rw [slotsOfItems, List.length_append] at h
    -- The first item uses up as many values as it has slots, and the rest of the items the others.
    obtain ⟨own, others, rfl, hown⟩ : ∃ own others, news = own ++ others ∧
        own.length = (v.slots steps).length :=
      ⟨_, _, (List.take_append_drop (v.slots steps).length news).symm, by
        rw [List.length_take]; omega⟩
    rw [List.length_append] at h
    have hothers : others.length = (slotsOfItems rest steps).length := by omega
    rw [refillItems, refillItems, List.append_assoc, refill_append _ v steps own hown,
      refill_append _ v steps own hown]
    dsimp only
    rw [refillItems_append extra rest steps others hothers]

end

mutual

/-- Without new values nothing changes. -/
theorem refill_nil : ∀ (v : Value) (steps : List String), v.refill steps [] = (v, [])
  | .array items, steps => by rw [refill, refillItems_nil items steps]
  | .object members, step :: steps => by rw [refill, refillMember_nil members step steps]
  | .object _, [] => rfl
  | .null, _ => rfl
  | .bool _, _ => rfl
  | .number _, _ => rfl
  | .text _, _ => rfl
  | .instant _, _ => rfl

theorem refillMember_nil : ∀ (members : List (String × Value)) (step : String)
    (steps : List String), refillMember members step steps [] = (members, [])
  | [], _, _ => rfl
  | (k, v) :: rest, step, [] => by
    by_cases hk : k = step
    · simp only [refillMember, if_pos hk]
    · simp only [refillMember, if_neg hk, refillMember_nil rest step []]
  | (k, v) :: rest, step, s :: steps => by
    by_cases hk : k = step
    · simp only [refillMember, if_pos hk, refill_nil v (s :: steps)]
    · simp only [refillMember, if_neg hk, refillMember_nil rest step (s :: steps)]

theorem refillItems_nil : ∀ (items : List Value) (steps : List String),
    refillItems items steps [] = (items, [])
  | [], _ => rfl
  | v :: rest, steps => by
    rw [refillItems, refill_nil v steps]
    dsimp only
    rw [refillItems_nil rest steps]

end

/-! ## Changing and refilling -/

mutual

/-- Changing a value in its slots is refilling them with what a step makes of the values in them. -/
theorem changeSlots_eq (new : Value → Outcome (Option Value)) :
    ∀ (v : Value) (steps : List String),
      v.changeSlots new steps = (v.slots steps).mapM new >>= fun news =>
        .ok (v.refill steps news).1
  | .array items, steps => by
    rw [changeSlots, changeSlotsOfItems_eq new items steps, slots, bind_assoc]
    rfl
  | .object members, step :: steps => by
    rw [changeSlots, changeSlotsOfMember_eq new members step steps, slots, bind_assoc]
    rfl
  | .object _, [] => rfl
  | .null, _ => rfl
  | .bool _, _ => rfl
  | .number _, _ => rfl
  | .text _, _ => rfl
  | .instant _, _ => rfl

theorem changeSlotsOfMember_eq (new : Value → Outcome (Option Value)) :
    ∀ (members : List (String × Value)) (step : String) (steps : List String),
      changeSlotsOfMember new members step steps =
        (slotsOfMember members step steps).mapM new >>= fun news =>
          .ok (refillMember members step steps news).1
  | [], _, _ => rfl
  | (k, v) :: rest, step, [] => by
    by_cases hk : k = step
    · simp only [changeSlotsOfMember, slotsOfMember, refillMember, if_pos hk]
      rw [List.mapM_cons, bind_assoc]
      congr 1
      funext new
      cases new <;> rfl
    · simp only [changeSlotsOfMember, slotsOfMember, refillMember, if_neg hk]
      rw [changeSlotsOfMember_eq new rest step [], bind_assoc]
      rfl
  | (k, v) :: rest, step, s :: steps => by
    by_cases hk : k = step
    · simp only [changeSlotsOfMember, slotsOfMember, refillMember, if_pos hk]
      rw [changeSlots_eq new v (s :: steps), bind_assoc]
      rfl
    · simp only [changeSlotsOfMember, slotsOfMember, refillMember, if_neg hk]
      rw [changeSlotsOfMember_eq new rest step (s :: steps), bind_assoc]
      rfl

theorem changeSlotsOfItems_eq (new : Value → Outcome (Option Value)) :
    ∀ (items : List Value) (steps : List String),
      changeSlotsOfItems new items steps =
        (slotsOfItems items steps).mapM new >>= fun news =>
          .ok (refillItems items steps news).1
  | [], _ => rfl
  | v :: rest, steps => by
    rw [changeSlotsOfItems, slotsOfItems, List.mapM_append, changeSlots_eq new v steps,
      changeSlotsOfItems_eq new rest steps, bind_assoc, bind_assoc]
    cases hown : (v.slots steps).mapM new with
    | error e => rfl
    | ok own =>
      rw [ok_bind, ok_bind, ok_bind, bind_assoc, bind_assoc]
      congr 1
      funext others
      rw [ok_bind, pure_bind, refillItems,
        refill_append _ v steps own (SameResult.length_of_mapM hown)]
      rfl

end

end Value

namespace Document

/-- The document, changed in the slots of a dotted path. -/
def changeSlots (new : Value → Outcome (Option Value)) (path : String) (doc : Document) :
    Outcome Document := do
  return ofValue (← (Value.object doc).changeSlots new (pathSteps path))

theorem changeSlots_eq (new : Value → Outcome (Option Value)) (path : String) (doc : Document) :
    doc.changeSlots new path = (doc.slots path).mapM new >>= fun news =>
      .ok (doc.refill path news).1 := by
  rw [changeSlots, Value.changeSlots_eq, bind_assoc]
  rfl

/-- New values for the slots of the first document are used up there. -/
theorem refillAll_cons {path : String} {doc : Document} {own : List (Option Value)}
    (h : own.length = (doc.slots path).length) (others : List (Option Value))
    (docs : List Document) :
    refillAll path (own ++ others) (doc :: docs) =
      (doc.refill path own).1 :: refillAll path others docs := by
  rw [refillAll, refill, Value.refill_append others _ _ own h]
  rfl

theorem refillAll_nil (path : String) (docs : List Document) : refillAll path [] docs = docs := by
  induction docs with
  | nil => rfl
  | cons doc docs ih =>
    rw [refillAll, refill, Value.refill_nil]
    exact congrArg (doc :: ·) ih

/-- Changing documents one by one is refilling the slots of all of them at once. -/
theorem changeSlots_all (new : Value → Outcome (Option Value)) (path : String)
    (docs : List Document) :
    SameResult (docs.mapM fun doc => doc.changeSlots new path)
      ((docs.flatMap (slots path)).mapM new >>= fun news => .ok (refillAll path news docs)) := by
  induction docs with
  | nil => exact .refl _
  | cons doc docs ih =>
    rw [List.mapM_cons, List.flatMap_cons, List.mapM_append, changeSlots_eq, bind_assoc,
      bind_assoc]
    refine (SameResult.refl _).bind fun own hown => ?_
    rw [ok_bind, bind_assoc]
    refine (ih.bind fun _ _ => .refl _).trans ?_
    rw [bind_assoc]
    refine (SameResult.refl _).bind fun others _ => .of_eq ?_
    rw [ok_bind, pure_bind, refillAll_cons (SameResult.length_of_mapM hown)]
    rfl

theorem get?_append (key : String) (before after : Document) :
    get? key (before ++ after) = (get? key before).or (get? key after) := by
  induction before with
  | nil => rfl
  | cons m rest ih =>
    obtain ⟨k, v⟩ := m
    rw [List.cons_append, get?, get?, ih]
    split
    · rfl
    · rfl

/-- What changing a document in its slots does: nothing, or one member, whose key the path starts
    with, is replaced or removed. Where the path ends there, this is what the step makes of its
    value; else the value is changed in its own slots. -/
theorem changeSlots_cases {new : Value → Outcome (Option Value)} {path : String}
    {doc doc' : Document} (h : doc.changeSlots new path = .ok doc') :
    doc' = doc ∨ ∃ step steps before v after changed, pathSteps path = step :: steps ∧
      doc = before ++ (step, v) :: after ∧
      doc' = before ++ (changed.map fun w => (step, w)).toList ++ after ∧
      (new v = .ok changed ∨ ∃ w, v.changeSlots new steps = .ok w ∧ changed = some w) := by
  rw [changeSlots] at h
  obtain ⟨v, hv, h⟩ := bind_eq_ok.1 h
  cases h
  cases hs : pathSteps path with
  | nil =>
    rw [hs] at hv
    cases hv
    exact .inl rfl
  | cons step steps =>
    rw [hs] at hv
    obtain ⟨ms, hms, hv⟩ := bind_eq_ok.1 hv
    cases hv
    rcases Value.changeSlotsOfMember_cases hms with rfl | ⟨before, v, after, changed, cut⟩
    · exact .inl rfl
    · exact .inr ⟨step, steps, before, v, after, changed, rfl, cut⟩

/-- What a path does not start with stays as it is. -/
theorem get?_changeSlots {new : Value → Outcome (Option Value)} {path key : String}
    {doc doc' : Document} (h : doc.changeSlots new path = .ok doc')
    (hkey : (pathSteps path).head? ≠ some key) : doc'.get? key = doc.get? key := by
  rcases changeSlots_cases h with rfl | ⟨step, steps, before, v, after, changed, hs, rfl, rfl, -⟩
  · rfl
  · rw [hs, List.head?_cons] at hkey
    have hne : step ≠ key := fun same => hkey (congrArg some same)
    have other : get? key (changed.map fun w => (step, w)).toList = none := by
      cases changed with
      | none => rfl
      | some w => exact if_neg hne
    rw [get?_append, get?_append, get?_append, other, Option.or_none, get?, if_neg hne]

end Document

end Catalog
