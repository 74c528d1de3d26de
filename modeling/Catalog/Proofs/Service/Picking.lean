import Catalog.Proofs.Plan.Loading
import Catalog.Proofs.Plan.Relations
import Catalog.Proofs.Service.BulkSelection

/-!
# What a bulk request picks

A bulk request picks records by a condition and a set, twice if it is about the entities in a list:
once the entities, once the relations that put them into the list. What it selects are those records
that the requester may read, that are picked and that meet what the request itself demands
(`Pick.Said.selected_eq`), and it selects them without a fault if the conditions have an answer for
all records (`Pick.Said.exists_selected`).

This is so as far as the query is understood as it was written: its condition is not overlooked, and
the ids that it says are those that it was given (`Pick.KeepsIds`).
-/

namespace Catalog.Service

variable {ctx : Context} {s : Store} {f : Family} {query : Value} {whereKey setKey : String}
  {extra : Condition} {found : List Document} {d : Document}

/-- The records that meet a condition and are in a set, which is said by another condition. -/
structure Pick where
  /-- The condition. -/
  condition : Condition
  /-- The condition of the set. -/
  scope : Condition

namespace Pick

/-- Whether a record is picked. -/
def picks (p : Pick) (doc : Document) : Bool := p.condition.met doc && p.scope.met doc

/-- A query says what to pick by a condition, which is not overlooked, and a set. -/
structure Said (ctx : Context) (query : Value) (whereKey setKey : String) (p : Pick) : Prop where
  condition : ∃ w, (param query whereKey >>= unwrapped) = .ok w ∧ isOverlooked w = false ∧
    readWhere ctx.config.maxLookupDepth w = .ok p.condition
  scope : ∃ v set, param query setKey = .ok v ∧ SetExpr.read v = .ok set ∧
    SetExpr.conditionOf ctx.now set = .ok p.scope

/-- The ids that the condition says, if it does, are those that it was given. -/
def KeepsIds (p : Pick) : Prop := ∀ l, p.condition.idLeaf? = some l → l.keepsTexts = true

/-- It can be told of all records whether they are picked. -/
def Answers (p : Pick) (docs : List Document) : Prop :=
  ∀ d ∈ docs, (∃ b, p.condition.holds (.object d) = .ok b) ∧
    ∃ b, p.scope.holds (.object d) = .ok b

/-- The condition by which a request selects what is picked and meets a further condition. -/
def selecting (p : Pick) (ctx : Context) (f : Family) (extra : Condition) : Condition :=
  .conj [p.condition, .always, p.scope, ctx.access f, extra]

variable {p : Pick}

/-- What a condition is read as has operands that fit. -/
theorem fitting_readWhere {depth : Int} {w : Value} {c : Condition}
    (h : readWhere depth w = .ok c) : c.AllLeaves Leaf.Fitting := by
  rw [readWhere] at h
  split at h
  · cases h
  · split at h
    · cases h
      exact .always
    · exact Condition.gives_conditionRead w c h

namespace Said

theorem fitting (h : p.Said ctx query whereKey setKey) :
    p.condition.AllLeaves Leaf.Fitting := by
  obtain ⟨w, -, -, hread⟩ := h.condition
  exact fitting_readWhere hread

theorem ofField (h : p.Said ctx query whereKey setKey) : p.scope.AllLeaves Leaf.OfField := by
  obtain ⟨v, set, -, -, hscope⟩ := h.scope
  exact SetExpr.gives_conditionOf _ _ _ hscope

/-- A request selects by what its query says and what it demands itself. -/
theorem selected_selecting (h : p.Said ctx query whereKey setKey) (s : Store) (f : Family)
    (extra : Condition) : selected ctx s f query extra whereKey setKey =
      (selection ctx s f (p.selecting ctx f extra) : Outcome _) := by
  obtain ⟨w, hw, heeds, hcondition⟩ := h.condition
  obtain ⟨v, set, hset, hread, hscope⟩ := h.scope
  have base : baseCondition ctx f { condition := p.condition } set extra =
      .ok (p.selecting ctx f extra) := bind_eq_ok.2 ⟨.always, rfl, bind_eq_ok.2 ⟨_, hscope, rfl⟩⟩
  rw [selected_eq hw hset, heeded_of_not_overlooked heeds, selectedBy, hcondition, ok_bind, hread,
    ok_bind, base]
  rfl

/-- Records with texts as ids are selected if the requester may read them, and if they are picked
    and meet what is demanded. -/
theorem selects_selecting (h : p.Said ctx query whereKey setKey) (hids : p.KeepsIds)
    {id : String} (hd : d.get? "_id" = some (.text id))
    (hextra : extra.met d = true → extra.admits d = true) :
    (p.selecting ctx f extra).selects d =
      ((ctx.access f).met d && (p.picks d && extra.met d)) := by
  have silent {c : Condition} (hc : c.AllLeaves fun l => l.path ≠ "_id") :
      c.met d = true → c.admits d = true := by
    intro _
    rw [Condition.admits, ids?_of_allLeaves hc]
  have loaded : ∀ c ∈ [p.condition, .always, p.scope, ctx.access f, extra],
      c.met d = true → c.admits d = true := by
    simp only [List.forall_mem_cons]
    exact ⟨fun hm => Condition.admits_of_met h.fitting hids hd (Condition.met_iff.1 hm),
      silent .always, silent (h.ofField.mono fun _ h => h.field),
      silent ((Requester.allLeaves_predicate _ _ _).mono fun _ h => h.field), hextra,
      List.forall_mem_nil _⟩
  have always : Condition.always.met d = true := rfl
  rw [selecting, Condition.selects_conj loaded, picks]
  simp only [List.all_cons, List.all_nil, always, Bool.and_true, Bool.true_and]
  -- The same conditions in another order.
  cases p.condition.met d <;> cases p.scope.met d <;> cases (ctx.access f).met d <;> rfl

variable (h : p.Said ctx query whereKey setKey) (ht : s.TextIds (ctx.collection f))
  (hids : p.KeepsIds)
  (hextra : ∀ d ∈ s.scan (ctx.collection f), extra.met d = true → extra.admits d = true)

include h ht hids hextra

theorem filter_selects : (s.scan (ctx.collection f)).filter (p.selecting ctx f extra).selects =
    (s.readable ctx f).filter fun d => p.picks d && extra.met d := by
  rw [Store.readable, List.filter_filter]
  refine List.filter_congr fun d hd => ?_
  obtain ⟨id, hid⟩ := ht d hd
  rw [h.selects_selecting hids hid (hextra d hd), Bool.and_comm]

/-- What is selected is picked among what the requester may read and meets what is demanded. -/
theorem selected_eq (hk : s.Keyed)
    (hfound : selected ctx s f query extra whereKey setKey = .ok found) :
    found = (s.readable ctx f).filter fun d => p.picks d && extra.met d := by
  rw [h.selected_selecting, lift_eq_ok] at hfound
  rw [selection_eq_selects hk hfound, h.filter_selects ht hids hextra]

/-- Where it can be told of all records whether they are picked and meet what is demanded, they are
    selected without a fault. -/
theorem exists_selected (hk : s.Keyed) (hanswers : p.Answers (s.scan (ctx.collection f)))
    (htotal : extra.Total) (hfitting : extra.AllLeaves Leaf.Fitting) :
    selected ctx s f query extra whereKey setKey =
      .ok ((s.readable ctx f).filter fun d => p.picks d && extra.met d) := by
  have leaves : (p.selecting ctx f extra).AllLeaves Leaf.Fitting := by
    refine Condition.allLeaves_conj ?_
    simp only [List.forall_mem_cons]
    exact ⟨h.fitting, .always, h.ofField.mono fun _ h => h.fitting,
      (Requester.allLeaves_predicate _ _ _).mono fun _ h => h.fitting, hfitting,
      List.forall_mem_nil _⟩
  obtain ⟨ids, said⟩ := Condition.exists_ids? leaves
  have answered : ∀ d ∈ s.scan (ctx.collection f),
      ∃ b, (p.selecting ctx f extra).holds (.object d) = .ok b := by
    intro d hd
    refine Condition.exists_holds_conj ?_
    simp only [List.forall_mem_cons]
    exact ⟨(hanswers d hd).1, ⟨true, rfl⟩, (hanswers d hd).2, Requester.total_predicate _ _ _ d,
      htotal d, List.forall_mem_nil _⟩
  rw [h.selected_selecting, selection_answered hk answered said, lift_ok,
    h.filter_selects ht hids hextra]

end Said

end Pick

end Catalog.Service
