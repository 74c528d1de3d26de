import Catalog.Proofs.Outcome
import Catalog.Query.Access
import Catalog.Query.Matching

/-!
# What it is to meet a condition

Matching stops at the first member that decides and may meet a fault on the way, so what a
condition says is only clear where it gives an answer. A document *meets* a condition
(`Condition.Met`) if matching gives the answer yes.

* Meeting the normal form of a conjunction is meeting each of its members (`met_conj`).
* A document meets a condition prefixed with a key exactly if the object at that key meets the
  condition (`holds_prefixed`).
* The condition that a requester may read a record always has an answer (`total_predicate`).
-/

namespace Catalog

/-- What a path leads to in the member of a document, it leads to after the key of this member. -/
theorem Document.path?_append {key : String} (hkey : '.' ∉ key.toList) (doc : Document)
    (path : String) : (Value.object doc).path? (key ++ "." ++ path) =
      (doc.get? key).bind fun v => v.path? path := by
  rw [Value.path?, pathSteps_append hkey, Value.resolve, Value.resolveMember_eq]
  rfl

/-- A key without dots is the path of its member. -/
theorem Document.path?_key {key : String} (hkey : '.' ∉ key.toList) (doc : Document) :
    (Value.object doc).path? key = doc.get? key := by
  have steps : pathSteps key = [key] := by
    rw [pathSteps, Text.splitOn, Text.splitChars_of_not_mem hkey, List.map_singleton,
      String.ofList_toList]
  rw [Value.path?, steps, Value.resolve, Value.resolveMember_eq]
  cases doc.get? key with
  | none => rfl
  | some v => rw [Option.bind_some, Value.resolve]

namespace Condition

/-- A document meets a condition: matching gives the answer yes. -/
def Met (c : Condition) (doc : Document) : Prop := c.holds (.object doc) = .ok true

/-- Whether a document meets a condition. -/
def met (c : Condition) (doc : Document) : Bool :=
  match c.holds (.object doc) with
  | .ok b => b
  | .error _ => false

theorem met_iff {c : Condition} {doc : Document} : c.met doc = true ↔ c.Met doc := by
  rw [met, Met]
  cases c.holds (.object doc) with
  | error e => exact ⟨fun h => (nomatch h), fun h => (nomatch h)⟩
  | ok b => exact ⟨fun h => congrArg _ h, fun h => by cases h; rfl⟩

instance (c : Condition) (doc : Document) : Decidable (c.Met doc) :=
  decidable_of_iff _ met_iff

/-- A condition that always has an answer. -/
def Total (c : Condition) : Prop := ∀ doc : Document, ∃ b, c.holds (.object doc) = .ok b

/-! ## Conjunctions -/

theorem allHold_eq_true {cs : List Condition} {v : Value} :
    allHold cs v = .ok true ↔ ∀ c ∈ cs, c.holds v = .ok true := by
  induction cs with
  | nil => exact ⟨fun _ _ h => (nomatch h), fun _ => by rw [allHold]⟩
  | cons c cs ih =>
    rw [allHold, bind_eq_ok, List.forall_mem_cons, ← ih]
    constructor
    · rintro ⟨b, hb, h⟩
      cases b with
      | false => exact nomatch h
      | true => exact ⟨hb, h⟩
    · rintro ⟨hc, h⟩
      exact ⟨true, hc, h⟩

theorem allHold_append (cs ds : List Condition) (v : Value) :
    allHold (cs ++ ds) v = allHold cs v >>= fun b => if b then allHold ds v else .ok false := by
  induction cs with
  | nil => rfl
  | cons c cs ih =>
    rw [List.cons_append, allHold, allHold, ih]
    cases c.holds v with
    | error e => rfl
    | ok b => cases b <;> rfl

/-- The flat conjunction of conditions with an answer has one. -/
theorem exists_allHold_conjuncts {cs ds : List Condition} {v : Value}
    (h : ∀ c ∈ cs, ∃ b, c.holds v = .ok b) (hds : conjuncts? cs = some ds) :
    ∃ b, allHold ds v = .ok b := by
  -- One member after the other is asked, so that those of a conjunction are only asked as this is.
  have first {c : Condition} {es : List Condition} (hc : ∃ b, c.holds v = .ok b)
      (hes : ∃ b, allHold es v = .ok b) :
      ∃ b, (c.holds v >>= fun b => if b then allHold es v else .ok false) = .ok b := by
    obtain ⟨b, hb⟩ := hc
    rw [hb]
    cases b with
    | true => exact hes
    | false => exact ⟨false, rfl⟩
  fun_induction conjuncts? cs generalizing ds with
  | case1 =>
    cases hds
    exact ⟨true, rfl⟩
  | case2 cs ih => exact ih (List.forall_mem_cons.1 h).2 hds
  | case3 cs => cases hds
  | case4 es cs ih =>
    obtain ⟨rest, hrest, rfl⟩ := Option.map_eq_some_iff.1 hds
    rw [List.forall_mem_cons] at h
    rw [allHold_append]
    exact first (c := .and es) h.1 (ih h.2 hrest)
  | case5 c cs h₁ h₂ h₃ ih =>
    obtain ⟨rest, hrest, rfl⟩ := Option.map_eq_some_iff.1 hds
    rw [List.forall_mem_cons] at h
    exact first h.1 (ih h.2 hrest)

/-- A conjunction of conditions with an answer has one. -/
theorem exists_holds_conj {cs : List Condition} {v : Value}
    (h : ∀ c ∈ cs, ∃ b, c.holds v = .ok b) : ∃ b, (conj cs).holds v = .ok b := by
  rw [conj]
  split
  · exact ⟨false, rfl⟩
  · exact ⟨true, rfl⟩
  · next c hds =>
    obtain ⟨b, hb⟩ := exists_allHold_conjuncts h hds
    obtain ⟨a, ha, -⟩ := bind_eq_ok.1 hb
    exact ⟨a, ha⟩
  · next ds hds => exact exists_allHold_conjuncts h hds

/-- The members of the flat conjunction say what the members of the conjunction say. -/
theorem holds_conjuncts {cs : List Condition} {v : Value} :
    (∀ c ∈ cs, c.holds v = .ok true) ↔
      ∃ ds, conjuncts? cs = some ds ∧ ∀ d ∈ ds, d.holds v = .ok true := by
  -- Conditions that always hold are left out, one that never holds ends the search, and the members
  -- of a conjunction take its place.
  fun_induction conjuncts? cs with
  | case1 => simp
  | case2 cs ih =>
    rw [List.forall_mem_cons, ih]
    exact and_iff_right (by rw [holds])
  | case3 cs =>
    simp [holds]
  | case4 ds cs ih =>
    rw [List.forall_mem_cons, ih, holds, allHold_eq_true]
    constructor
    · rintro ⟨hds, es, hes, h⟩
      refine ⟨ds ++ es, by rw [hes]; rfl, fun d hd => ?_⟩
      exact (List.mem_append.1 hd).elim (hds d) (h d)
    · rintro ⟨all, hall, h⟩
      obtain ⟨es, hes, rfl⟩ := Option.map_eq_some_iff.1 hall
      exact ⟨fun d hd => h d (List.mem_append_left _ hd), es, hes,
        fun d hd => h d (List.mem_append_right _ hd)⟩
  | case5 c cs h₁ h₂ h₃ ih =>
    rw [List.forall_mem_cons, ih]
    constructor
    · rintro ⟨hc, es, hes, h⟩
      exact ⟨c :: es, by rw [hes]; rfl, List.forall_mem_cons.2 ⟨hc, h⟩⟩
    · rintro ⟨all, hall, h⟩
      obtain ⟨es, hes, rfl⟩ := Option.map_eq_some_iff.1 hall
      exact ⟨h c List.mem_cons_self, es, hes, fun d hd => h d (List.mem_cons_of_mem _ hd)⟩

theorem holds_conj {cs : List Condition} {v : Value} :
    (conj cs).holds v = .ok true ↔ ∀ c ∈ cs, c.holds v = .ok true := by
  rw [holds_conjuncts, conj]
  split
  · next h => simp [h, holds]
  · next h => simp [h, holds]
  · next h => simp [h]
  · next h => simp [h, holds, allHold_eq_true]

/-- Meeting a conjunction is meeting each of its members. -/
theorem met_conj {cs : List Condition} {doc : Document} :
    (conj cs).Met doc ↔ ∀ c ∈ cs, c.Met doc := holds_conj

/-! ## Prefixes -/

theorem holds_prefixed_leaf {start : String} {v w : Value}
    (h : ∀ path, v.path? (start ++ "." ++ path) = w.path? path) (l : Leaf) :
    Leaf.holds { l with path := start ++ "." ++ l.path } v = l.holds w := by
  simp only [Leaf.holds, h]

mutual

/-- A condition with a prefix is about the value that paths go on in from the prefix. -/
theorem holds_prefixed_of_path? {start : String} {v w : Value}
    (h : ∀ path, v.path? (start ++ "." ++ path) = w.path? path) :
    ∀ c : Condition, (c.prefixed start).holds v = c.holds w
  | .always => rfl
  | .never => rfl
  | .leaf l => by rw [prefixed, holds, holds, holds_prefixed_leaf h]
  | .and cs => by rw [prefixed, holds, holds, allHold_prefixed h cs]
  | .or cs => by rw [prefixed, holds, holds, someHold_prefixed h cs]

theorem allHold_prefixed {start : String} {v w : Value}
    (h : ∀ path, v.path? (start ++ "." ++ path) = w.path? path) :
    ∀ cs : List Condition, allHold (prefixedAll start cs) v = allHold cs w
  | [] => rfl
  | c :: cs => by
    rw [prefixedAll, allHold, allHold, holds_prefixed_of_path? h c, allHold_prefixed h cs]

theorem someHold_prefixed {start : String} {v w : Value}
    (h : ∀ path, v.path? (start ++ "." ++ path) = w.path? path) :
    ∀ cs : List Condition, someHold (prefixedAll start cs) v = someHold cs w
  | [] => rfl
  | c :: cs => by
    rw [prefixedAll, someHold, someHold, holds_prefixed_of_path? h c, someHold_prefixed h cs]

end

/-- A condition with a prefix is about the member at that key. -/
theorem holds_prefixed {key : String} (hkey : '.' ∉ key.toList) {doc inner : Document}
    (h : doc.get? key = some (.object inner)) (c : Condition) :
    (c.prefixed key).holds (.object doc) = c.holds (.object inner) := by
  refine holds_prefixed_of_path? (fun path => ?_) c
  rw [Document.path?_append hkey, h, Option.bind_some]

/-! ## Who may read what -/

theorem anyM_total {α : Type} {test : α → Except Fault Bool} {xs : List α}
    (h : ∀ x ∈ xs, ∃ b, test x = .ok b) : ∃ b, xs.anyM test = .ok b := by
  induction xs with
  | nil => exact ⟨false, rfl⟩
  | cons x xs ih =>
    rw [List.forall_mem_cons] at h
    obtain ⟨⟨b, hb⟩, h⟩ := h
    rw [List.anyM, hb]
    cases b with
    | true => exact ⟨true, rfl⟩
    | false => exact ih h

/-- A test that is met by a list is met by a member. -/
theorem exists_of_anyM {α : Type} {test : α → Except Fault Bool} {xs : List α}
    (h : xs.anyM test = .ok true) : ∃ x ∈ xs, test x = .ok true := by
  induction xs with
  | nil => exact nomatch h
  | cons x xs ih =>
    rw [List.anyM] at h
    obtain ⟨b, hb, h⟩ := bind_eq_ok.1 h
    cases b with
    | true => exact ⟨x, List.mem_cons_self, hb⟩
    | false =>
      obtain ⟨y, hy, hty⟩ := ih h
      exact ⟨y, List.mem_cons_of_mem _ hy, hty⟩

/-- A list with an answer has the answer yes if a member has. -/
theorem eq_true_of_anyM {α : Type} {test : α → Except Fault Bool} {xs : List α} {b : Bool}
    (h : xs.anyM test = .ok b) {x : α} (hx : x ∈ xs) (ht : test x = .ok true) : b = true := by
  induction xs with
  | nil => exact absurd hx List.not_mem_nil
  | cons y ys ih =>
    rw [List.anyM] at h
    obtain ⟨c, hc, h⟩ := bind_eq_ok.1 h
    cases c with
    | true =>
      cases h
      rfl
    | false =>
      rcases List.mem_cons.1 hx with rfl | hx
      · cases hc.symm.trans ht
      · exact ih h hx

theorem anyItem_total {test : Value → Except Fault Bool} (h : ∀ v, ∃ b, test v = .ok b)
    (v : Value) : ∃ b, anyItem test v = .ok b := by
  cases v with
  | array vs => exact anyM_total fun v _ => h v
  | _ => exact h _

theorem scalarEquals_text (v : Value) (s : String) :
    ∃ b, scalarEquals v (.text s) none = .ok b := by
  cases v <;> exact ⟨_, rfl⟩

/-- Comparing with a text always has an answer. -/
theorem equalTo_text (v : Value) (s : String) : ∃ b, equalTo v (.text s) none = .ok b := by
  have items : equalTo v (.text s) none = anyItem (fun v => scalarEquals v (.text s) none) v := by
    cases v <;> rfl
  rw [items]
  exact anyItem_total (fun v => scalarEquals_text v s) v

/-- Comparing with several texts always has an answer. -/
theorem equalToOne_texts (v : Value) (ss : List String) :
    ∃ b, equalToOne v (.array (ss.map .text)) none = .ok b := by
  have items : equalToOne v (.array (ss.map .text)) none =
      anyItem (fun v => ((ss.map Value.text).zip
        (List.replicate (ss.map Value.text).length none)).anyM
          fun p => scalarEquals v p.1 p.2) v := by
    cases v with
    | array vs => cases vs <;> rfl
    | _ => rfl
  rw [items]
  refine anyItem_total (fun v => anyM_total fun ⟨e, l⟩ hp => ?_) v
  obtain ⟨he, hl⟩ := List.of_mem_zip hp
  obtain ⟨s, -, rfl⟩ := List.mem_map.1 he
  obtain rfl : l = none := List.eq_of_mem_replicate hl
  exact scalarEquals_text v s

/-- A text is equal to one of several values that are no instants if it is among them. -/
theorem equalToOne_text {id : String} {vs : List Value} (h : ∀ v ∈ vs, ∀ t, v ≠ .instant t) :
    equalToOne (.text id) (.array vs) none = .ok (vs.any (Value.text id).same) := by
  have one {v : Value} (hv : ∀ t, v ≠ .instant t) :
      scalarEquals (.text id) v none = .ok ((Value.text id).same v) := by
    cases v with
    | instant t => exact absurd rfl (hv t)
    | text s => exact congrArg Except.ok (Bool.or_false _)
    | _ => rfl
  have pairs : (vs.zip (List.replicate vs.length none)).anyM
      (fun p => scalarEquals (.text id) p.1 p.2) = .ok (vs.any (Value.text id).same) := by
    induction vs with
    | nil => rfl
    | cons v vs ih =>
      rw [List.forall_mem_cons] at h
      rw [List.length_cons, List.replicate_succ, List.zip_cons_cons, List.anyM, one h.1,
        List.any_cons]
      cases (Value.text id).same v with
      | true => rfl
      | false => exact ih h.2
  exact pairs

/-- A field with a text is equal to this text only. -/
theorem met_equals_text {path id t : String} (hpath : '.' ∉ path.toList) {d : Document}
    (hd : d.get? path = some (.text t)) : (equals path (.text id)).met d = (t == id) := by
  have held : (equals path (.text id)).holds (.object d) = .ok (t == id) := by
    rw [equals, compare, holds, Leaf.holds, Document.path?_key hpath, hd]
    exact congrArg Except.ok (Bool.or_false _)
  rw [met, held]

/-- A field with an array of texts is equal to the texts in it. -/
theorem met_equals_texts {path : String} (hpath : '.' ∉ path.toList) {d : Document}
    {texts : List String} (hd : d.get? path = some (.array (texts.map .text))) (id : String) :
    (equals path (.text id)).met d = texts.contains id := by
  have one : ∀ v ∈ texts.map Value.text,
      scalarEquals v (.text id) none = .ok (v.same (.text id)) := by
    intro v hv
    obtain ⟨t, -, rfl⟩ := List.mem_map.1 hv
    exact congrArg Except.ok (Bool.or_false _)
  have held : (equals path (.text id)).holds (.object d) =
      .ok ((texts.map Value.text).any fun v => v.same (.text id)) := by
    rw [equals, compare, holds, Leaf.holds, Document.path?_key hpath, hd]
    exact anyM_eq_ok one
  rw [met, held, List.any_map, List.contains_eq_any_beq]
  exact congrArg texts.any (funext fun t => Bool.beq_comm)

/-- A field with a text is equal to one of several values that are no instants if the text is among
    them. -/
theorem met_inq {path t : String} (hpath : '.' ∉ path.toList) {d : Document}
    (hd : d.get? path = some (.text t)) {vs : List Value} (h : ∀ v ∈ vs, ∀ i, v ≠ .instant i) :
    (compare path .inq (.array vs)).met d = vs.any (Value.text t).same := by
  have held : (compare path .inq (.array vs)).holds (.object d) =
      .ok (vs.any (Value.text t).same) := by
    rw [compare, holds, Leaf.holds, Document.path?_key hpath, hd]
    exact equalToOne_text h
  rw [met, held]

/-- A field with a text is equal to one of several texts if it is among them. -/
theorem met_inq_texts {path t : String} (hpath : '.' ∉ path.toList) {d : Document}
    (hd : d.get? path = some (.text t)) (texts : List String) :
    (compare path .inq (.array (texts.map .text))).met d = texts.contains t := by
  have plain : ∀ v ∈ texts.map Value.text, ∀ i, v ≠ .instant i := by
    intro v hv i
    obtain ⟨s, -, rfl⟩ := List.mem_map.1 hv
    exact nofun
  rw [met_inq hpath hd plain, List.any_map, List.contains_eq_any_beq]
  rfl

theorem total_equals_text (path s : String) : (equals path (.text s)).Total :=
  fun _ => equalTo_text _ s

theorem total_differs_text (path s : String) : (compare path .neq (.text s)).Total := by
  intro doc
  obtain ⟨b, hb⟩ := equalTo_text (Value.orNull ((Value.object doc).path? path)) s
  exact ⟨!b, by rw [compare, holds, Leaf.holds, hb]; rfl⟩

theorem total_inq_texts (path : String) (ss : List String) :
    (compare path .inq (.array (ss.map .text))).Total :=
  fun _ => equalToOne_texts _ ss

theorem total_and {cs : List Condition} (h : ∀ c ∈ cs, c.Total) : (and cs).Total := by
  intro doc
  rw [holds]
  induction cs with
  | nil => exact ⟨true, rfl⟩
  | cons c cs ih =>
    rw [List.forall_mem_cons] at h
    obtain ⟨b, hb⟩ := h.1 doc
    rw [allHold, hb]
    cases b with
    | true => exact ih h.2
    | false => exact ⟨false, rfl⟩

theorem total_or {cs : List Condition} (h : ∀ c ∈ cs, c.Total) : (or cs).Total := by
  intro doc
  rw [holds]
  induction cs with
  | nil => exact ⟨false, rfl⟩
  | cons c cs ih =>
    rw [List.forall_mem_cons] at h
    obtain ⟨b, hb⟩ := h.1 doc
    rw [someHold, hb]
    cases b with
    | true => exact ⟨true, rfl⟩
    | false => exact ih h.2

end Condition

namespace Requester

open Condition

variable (r : Requester)

theorem groupClauses_total : ∀ c ∈ r.groupClauses, c.Total := by
  rw [groupClauses]
  split
  · exact fun _ h => nomatch h
  · rw [List.forall_mem_singleton]
    refine total_and ?_
    rw [List.forall_mem_cons, List.forall_mem_singleton]
    refine ⟨total_or ?_, total_differs_text _ _⟩
    rw [List.forall_mem_cons, List.forall_mem_singleton]
    exact ⟨total_inq_texts _ _, total_inq_texts _ _⟩

theorem userClauses_total : ∀ c ∈ r.userClauses, c.Total := by
  rw [userClauses]
  split
  · rw [List.forall_mem_cons, List.forall_mem_singleton]
    exact ⟨total_equals_text _ _, total_equals_text _ _⟩
  · exact fun _ h => nomatch h

/-- The condition that a requester may read a record: the record is public, or one of the clauses
    about the user and the groups is met. -/
theorem predicate_cases :
    r.predicate true true = .equals "_visibility" (.text "public") ∨
      r.predicate true true =
        .or (.equals "_visibility" (.text "public") :: r.userClauses ++ r.groupClauses) := by
  rw [predicate, userClauses, groupClauses]
  cases r.user with
  | none =>
    by_cases h : r.groups.isEmpty = true
    · exact .inl (by rw [if_pos h]; rfl)
    · exact .inr (by rw [if_neg h]; rfl)
  | some u =>
    by_cases h : r.groups.isEmpty = true
    · exact .inr (by rw [if_pos h]; rfl)
    · exact .inr (by rw [if_neg h]; rfl)

/-- The condition that a requester may read a record always has an answer. -/
theorem total_predicate (enabled hasAccessFields : Bool) :
    (r.predicate enabled hasAccessFields).Total := by
  by_cases h : (!enabled || !hasAccessFields) = true
  · rw [predicate, if_pos h]
    exact fun _ => ⟨true, rfl⟩
  · obtain ⟨rfl, rfl⟩ : enabled = true ∧ hasAccessFields = true := by simpa using h
    rcases r.predicate_cases with h | h
    · rw [h]
      exact total_equals_text _ _
    · rw [h]
      refine total_or fun c hc => ?_
      rcases List.mem_append.1 hc with hc | hc
      · rcases List.mem_cons.1 hc with rfl | hc
        · exact total_equals_text _ _
        · exact r.userClauses_total c hc
      · exact r.groupClauses_total c hc

end Requester

end Catalog
