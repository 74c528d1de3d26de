import Catalog.Proofs.Rule.Checks

/-!
# When a limit refuses

What the check of a limit with a fixed scope gives, where judging the records in the collection and
the one that is checked has an answer: the check refuses the record if it is in the scope and the
scope is full, and else lets it pass (`LimitRule.check_eq`). A conjunction of the scope's condition
and neutral ones is as good as the condition (`holds_conj_neutral`), so that a record is counted by
what it is judged by.
-/

namespace Catalog

variable {c : Condition} {cs : List Condition} {docs : List Document}

namespace Condition

/-- Beside neutral members a condition says what it says alone. -/
theorem holds_conj_neutral (h : conjuncts? cs = some []) (v : Value) :
    (conj (c :: cs)).holds v = c.holds v := by
  cases c with
  | and ds =>
    rw [conj, conjuncts?, h, Option.map_some, List.append_nil]
    rcases ds with _ | ⟨d, _ | ⟨e, ds⟩⟩
    · rw [holds, holds, allHold]
    · rw [holds, allHold]
      cases d.holds v with
      | error e => rfl
      | ok b => cases b <;> rfl
    · rfl
  | _ => simp [conj, conjuncts?, h]

/-- Beside neutral members a condition says the ids that it says alone. -/
theorem ids?_conj_neutral (h : conjuncts? cs = some []) : (conj (c :: cs)).ids? = c.ids? := by
  cases c with
  | and ds =>
    rw [conj, conjuncts?, h, Option.map_some, List.append_nil]
    rcases ds with _ | ⟨d, _ | ⟨e, ds⟩⟩
    · rfl
    · exact (firstIds?_singleton d).symm
    · rfl
  | _ => simp [conj, conjuncts?, h]

/-- The members that a fixed scope has besides its own, where everything may be read, are neutral.
    -/
theorem conjuncts?_neutral : conjuncts? [.always, .always, .always, .always] = some [] := rfl

end Condition

/-- Judging has an answer for all of some documents. -/
def Condition.Answers (c : Condition) (docs : List Document) : Prop :=
  ∀ d ∈ docs, ∃ b, c.holds (.object d) = .ok b

theorem Condition.holds_eq_met {d : Document} (h : ∃ b, c.holds (.object d) = .ok b) :
    c.holds (.object d) = .ok (c.met d) := by
  obtain ⟨b, hb⟩ := h
  rw [met, hb]

/-- A condition that says no ids and has an answer for all documents of a collection selects those
    that meet it. -/
theorem selection_of_answers {ctx : Context} {store : Store} {f : Family} (hids : c.ids? = .ok none)
    (h : c.Answers (store.scan (ctx.collection f))) :
    selection ctx store f c = .ok ((store.scan (ctx.collection f)).filter c.met) := by
  have load : (Plan.ofStages ctx f [.select c]).load store =
      .ok (store.scan (ctx.collection f)) := by
    rw [Plan.load, Plan.ofStages]
    dsimp only
    rw [hids]
    rfl
  rw [selection, load]
  exact selectDocuments_eq_ok.2 ⟨fun d hd => Condition.holds_eq_met (h d hd), rfl⟩

variable {ctx : Context} {store : Store} {f : Family} {rule : LimitRule} {doc : Document}

/-- What a fixed scope is counted by, where it has answers. -/
theorem countInScope_of_answers (ha : ctx.access f = .always) {scope : Scope}
    (hb : baseCondition ctx f scope.filter scope.set .always =
      .ok (.conj [c, .always, .always, ctx.access f, .always]))
    (hids : c.ids? = .ok none) (h : c.Answers (store.scan (ctx.collection f))) :
    countInScope ctx store f scope .always =
      .ok ((store.scan (ctx.collection f)).countP c.met) := by
  have neutral (v : Value) := Condition.holds_conj_neutral (c := c) Condition.conjuncts?_neutral v
  rw [ha] at hb
  have plan : Plan.count ctx f scope.filter scope.set .always = .ok (Plan.ofStages ctx f
      [.select (.conj [c, .always, .always, .always, .always])]) :=
    Plan.count_eq_ok.2 ⟨_, [], hb, (fun _ h => by cases h), fun _ => rfl, rfl⟩
  have counted : (Condition.conj [c, .always, .always, .always, .always]).met = c.met := by
    funext d
    rw [Condition.met, neutral, Condition.met]
  have found : selection ctx store f (.conj [c, .always, .always, .always, .always]) = _ :=
    selection_of_answers
      ((Condition.ids?_conj_neutral Condition.conjuncts?_neutral).trans hids)
      fun d hd => by rw [neutral]; exact h d hd
  rw [counted] at found
  rw [countInScope, plan, lift_ok, ok_bind, run_ofStages, found, List.countP_eq_length_filter]
  rfl

/-- How the check of a limit begins, and what it depends on: whether the record is in the scope, as
    of a little later than what is stored is counted. -/
theorem LimitRule.check_of_holds {after : Context} {owners : Audience} {scope : Scope}
    {inScope : Condition} {b : Bool} (hafter : afterWriting ctx = .ok after)
    (howners : ownersOf doc = .ok owners)
    (hread : Scope.read (Template.render rule.scope (.object doc)) (some owners) = .ok scope)
    (hbase : baseCondition after f scope.filter scope.set .always = .ok inScope)
    (hholds : inScope.holds (.object doc) = .ok b) (exclude : Value) :
    rule.check ctx store f doc exclude =
      if b then (do
        let count ← countInScope ctx store f scope (leavingOut exclude)
        if rule.limit ≤ count then
          refuse (.limitExceeded f rule.limit (Template.render rule.scope (.object doc))))
      else .ok () := by
  rw [check, hafter, lift_ok, ok_bind, howners, lift_ok, ok_bind]
  dsimp only
  rw [hread, ok_bind, hbase, lift_ok, ok_bind, hholds, lift_ok, ok_bind]
  rfl

/-- A record without a place of its own is refused by a limit if it is in the scope and the scope is
    full, and else it passes. -/
theorem LimitRule.check_eq (ha : ctx.access f = .always) (hs : FixedScope rule.scope c)
    (hids : c.ids? = .ok none) (hclock : ∃ after, afterWriting ctx = .ok after)
    (howners : ∃ owners, ownersOf doc = .ok owners) (hdoc : ∃ b, c.holds (.object doc) = .ok b)
    (h : c.Answers (store.scan (ctx.collection f))) :
    rule.check ctx store f doc .null =
      if c.Met doc ∧ rule.limit ≤ (store.scan (ctx.collection f)).countP c.met then
        refuse (.limitExceeded f rule.limit rule.scope)
      else .ok () := by
  obtain ⟨after, hafter⟩ := hclock
  obtain ⟨owners, howners⟩ := howners
  obtain ⟨scope, hread, base⟩ := hs.read (.object doc) owners
  have inScope := base after f .always
  rw [access_afterWriting hafter f, ha] at inScope
  have judged : (Condition.conj [c, .always, .always, .always, .always]).holds (.object doc) =
      .ok (c.met doc) := by
    rw [Condition.holds_conj_neutral Condition.conjuncts?_neutral, Condition.holds_eq_met hdoc]
  have counted := countInScope_of_answers ha (base ctx f .always) hids h
  rw [check_of_holds hafter howners hread inScope judged, Template.render_of_plain hs.plain]
  by_cases hmet : c.Met doc
  · rw [Condition.met_iff.2 hmet, if_pos rfl, leavingOut, if_neg (by decide), counted, ok_bind]
    by_cases hfull : rule.limit ≤ (store.scan (ctx.collection f)).countP c.met
    · rw [if_pos hfull, if_pos ⟨hmet, hfull⟩]
    · rw [if_neg hfull, if_neg (mt And.right hfull)]
      rfl
  · rw [if_neg (mt And.left hmet), Bool.eq_false_iff.2 (mt Condition.met_iff.1 hmet)]
    rfl

end Catalog
