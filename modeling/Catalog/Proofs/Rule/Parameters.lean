import Catalog.Proofs.Query.Parts
import Catalog.Proofs.Rule.Checks
import Catalog.Proofs.Rule.Rendering
import Catalog.Service.Read
import Mathlib.Data.List.TakeWhile

/-!
# Scopes as queries

A scope is written like the query of a request, with the parameters `filter`, `where` and `set`
(`ScopeParameters`). It is read from the same parameters: its set from `set`, and its filter from
what a request for a number of records reads its filter from (`Scope.read_parameters`). Only the
depth to which filters may be nested is another, which shows neither in the condition of the filter
nor in its set (`Filter.read_alike`).

The owners of a record show in a scope only where a set is about nobody in particular
(`SetExpr.fill_of_isValued`).
-/

namespace Catalog

open Text Service

/-! ## Sets that name whom they are about -/

namespace SetExpr

mutual

/-- Every set of owners, and every audience, names whom it is about. -/
def isValued : SetExpr → Bool
  | .named name none => name ≠ "owners" && name ≠ "audience"
  | .named _ (some _) => true
  | .and es => allValued es
  | .or es => allValued es

/-- Every set of owners, and every audience, in some set expressions names whom it is about. -/
def allValued : List SetExpr → Bool
  | [] => true
  | e :: es => e.isValued && allValued es

end

mutual

/-- There is nothing to fill in where every set names whom it is about. -/
theorem fill_of_isValued {owners : Audience} :
    ∀ {e : SetExpr}, e.isValued = true → e.fill owners = e
  | .named name none, h => by
    rw [isValued, Bool.and_eq_true, decide_eq_true_iff, decide_eq_true_iff] at h
    rw [fill, if_neg (not_or.2 h)]
  | .named _ (some _), _ => rfl
  | .and es, h => congrArg SetExpr.and (fillAll_of_allValued h)
  | .or es, h => congrArg SetExpr.or (fillAll_of_allValued h)

theorem fillAll_of_allValued {owners : Audience} :
    ∀ {es : List SetExpr}, allValued es = true → fillAll owners es = es
  | [], _ => rfl
  | e :: es, h => by
    rw [allValued, Bool.and_eq_true] at h
    rw [fillAll, fill_of_isValued h.1, fillAll_of_allValued h.2]

end

end SetExpr

/-- A scope in which every set names whom it is about is the same whoever owns the record. -/
theorem Scope.read_valued {text : String} {scope : Scope} (h : Scope.read text none = .ok scope)
    (hset : ∀ e, scope.set = some e → e.isValued = true) (owners : Audience) :
    Scope.read text (some owners) = .ok scope := by
  rw [read_filled h]
  obtain ⟨filter, set⟩ := scope
  cases set with
  | none => rfl
  | some e => rw [Option.map_some, SetExpr.fill_of_isValued (hset e rfl)]

/-! ## The parameters of a scope -/

/-- A scope is written with the parameters `filter`, `where` and `set` only. -/
def ScopeParameters (text : String) : Prop :=
  ∀ pair ∈ Bracket.pairs text,
    (Bracket.path pair.1).head? ∈ [some "filter", some "where", some "set"]

instance (text : String) : Decidable (ScopeParameters text) := by
  unfold ScopeParameters
  infer_instance

namespace Bracket

/-- Without signs for other characters a part of a query is plain. -/
theorem plain_of_not_mem {cs : List Char} (hpercent : '%' ∉ cs) (hplus : '+' ∉ cs) :
    plain cs = String.ofList cs := by
  have literal : .char '%' ∉ cs.map Template.Part.char := by
    intro h
    obtain ⟨c, hc, heq⟩ := List.mem_map.1 h
    cases heq
    exact hpercent hc
  have rendered : (cs.map Template.Part.char).flatMap (Template.Part.render .null) = cs := by
    rw [List.flatMap_map]
    exact List.flatMap_singleton' cs
  have read : plain ((cs.map Template.Part.char).flatMap (Template.Part.render .null)) =
      Template.fill .null (cs.map Template.Part.char) :=
    Template.plain_flatMap_render literal
  rwa [rendered, Template.fill_chars hplus] at read

/-- Blanks alone are no parameter, so that a blank scope has none. -/
theorem pairs_of_blank {text : String} (h : ∀ c ∈ text.toList, isBlank c = true)
    (hparams : ScopeParameters text) : pairs text = [] := by
  have absent {c : Char} (hc : isBlank c = false) : c ∉ text.toList :=
    fun hmem => Bool.false_ne_true (hc.symm.trans (h c hmem))
  have whole (c : Char) (hc : isBlank c = false) :
      text.toList.takeWhile (· ≠ c) = text.toList :=
    List.takeWhile_eq_self_iff.2 fun d hd => decide_eq_true fun heq => absent hc (heq ▸ hd)
  by_cases hempty : text.toList = []
  · rw [pairs, hempty]
    rfl
  · have kept : (!text.toList.isEmpty) = true := by
      rw [List.isEmpty_eq_false_iff.2 hempty]
      rfl
    have key : plain (text.toList.takeWhile (· ≠ '=')) = text := by
      rw [whole '=' (by decide), plain_of_not_mem (absent (by decide)) (absent (by decide)),
        String.ofList_toList]
    have first : (text, plain ((text.toList.dropWhile (· ≠ '=')).drop 1)) ∈ pairs text := by
      rw [pairs, splitChars_of_not_mem (absent (by decide))]
      exact List.mem_map.2 ⟨text.toList, List.mem_filter.2 ⟨List.mem_cons_self, kept⟩,
        Prod.ext key rfl⟩
    have named := hparams _ first
    rw [path, List.head?_cons, whole '[' (by decide), String.ofList_toList] at named
    simp only [List.mem_cons, List.not_mem_nil, or_false, Option.some_inj] at named
    rcases named with rfl | rfl | rfl
    · exact absurd (by decide) (absent (by decide : isBlank 'f' = false))
    · exact absurd (by decide) (absent (by decide : isBlank 'w' = false))
    · exact absurd (by decide) (absent (by decide : isBlank 's' = false))

end Bracket

/-- What a query of parameters writes is an object without other members. -/
theorem members_of_parameters {text : String} (hparams : ScopeParameters text) {v : Value}
    (h : decodeQuery text = .ok v) : ∃ members, v = .object members ∧
      ∀ key, key ∉ ["filter", "where", "set"] → Document.get? key members = none := by
  rw [decodeQuery, Bracket.listed] at h
  obtain ⟨members, hmembers, h⟩ := bind_eq_ok.1 h
  have names : ∀ key ∈ Document.keys members, key ∈ ["filter", "where", "set"] := by
    intro key hkey
    rw [Bracket.keys_of_listedMembers hmembers] at hkey
    obtain ⟨pair, hpair, hhead⟩ := Bracket.mem_keys_written.1 hkey
    have := hparams pair hpair
    rw [hhead] at this
    simpa using this
  refine ⟨members, ?_,
    fun key hkey => Document.get?_eq_none_iff.2 fun hmem => hkey (names key hmem)⟩
  -- It stays an object and becomes no array, as its keys are no numerals.
  have plain : ¬(!members.isEmpty && members.all fun m => Bracket.isNumeral m.1) = true := by
    intro hall
    cases members with
    | nil => cases hall
    | cons m rest =>
      rw [List.all_cons, Bool.and_eq_true, Bool.and_eq_true] at hall
      have numeral : ∀ key ∈ ["filter", "where", "set"], Bracket.isNumeral key = false := by
        decide
      rw [numeral m.1 (names m.1 List.mem_cons_self)] at hall
      exact Bool.false_ne_true hall.2.1
  rw [Bracket.arranged, if_neg plain] at h
  exact (Except.ok.inj h).symm

/-! ## Filters -/

/-- The condition of a filter and its set do not depend on its bounds. -/
theorem Filter.read_alike {bounds bounds' : FilterBounds} {v : Value} {g g' : Filter}
    (h : Filter.read bounds v = .ok g) (h' : Filter.read bounds' v = .ok g') :
    g'.condition = g.condition ∧ g'.set = g.set := by
  obtain ⟨n, members, -, hmembers, h⟩ := exists_of_readLevels h
  obtain ⟨n', members', -, hmembers', h'⟩ := exists_of_readLevels h'
  cases hmembers.symm.trans hmembers'
  have parts := (readLevels_eq_ok.1 h).1
  have parts' := (readLevels_eq_ok.1 h').1
  exact ⟨Except.ok.inj (parts'.condition.symm.trans parts.condition),
    Except.ok.inj (parts'.set.symm.trans parts.set)⟩

/-- A scope is read from its parameters: the set from `set`, and the filter from what the number of
    records is counted by. -/
theorem Scope.read_parameters {text : String} {scope : Scope} (hparams : ScopeParameters text)
    (h : Scope.read text none = .ok scope) {members : Document}
    (hquery : decodeQuery text = .ok (.object members)) :
    SetExpr.read (members.field "set") = .ok scope.set ∧
      ∃ v, countFilter (.object members) = .ok v ∧ Filter.read {} v = .ok scope.filter := by
  dsimp only [read] at h
  split at h
  · next hblank =>
    cases h
    have none : Bracket.pairs text = [] := by
      refine Bracket.pairs_of_blank (fun c hc => ?_) hparams
      by_contra hplain
      exact not_isEmpty_trim hc (Bool.eq_false_iff.2 hplain) hblank
    rw [decodeQuery, none] at hquery
    cases hquery
    exact ⟨rfl, .null, rfl, rfl⟩
  · rw [hquery, lift_ok, ok_bind] at h
    obtain ⟨set, hset, h⟩ := bind_eq_ok.1 h
    obtain ⟨filter, hfilter, h⟩ := bind_eq_ok.1 h
    cases h
    refine ⟨hset, _, ?_, hfilter⟩
    rw [countFilter, param, Document.field, ok_bind]
    cases Value.orNull (members.get? "filter") with
    | null =>
      dsimp only
      cases members.get? "where" <;> rfl
    | _ => rfl

end Catalog
