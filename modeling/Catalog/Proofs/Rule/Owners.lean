import Catalog.Proofs.Rule.Checks

/-!
# The scope of the owners

The scope `set[owners]`, as it is read for a record, holds the records that have an owner in common
with it, be it a user or a group. So it covers all records that share a user with it
(`covers_of_sharesOwner`).

The condition of the set is a disjunction with a comparison for each user first
(`membership_cases`); each of these has an answer, so that matching gets to the one that is met.
-/

namespace Catalog

open Condition

/-- A user is among the owners of a record. -/
def Document.OwnedBy (user : String) (doc : Document) : Prop :=
  ∃ items, doc.get? "_ownerUsers" = some (.array items) ∧ .text user ∈ items

/-- Two records have a user among their owners in common. -/
def Document.SharesOwner (doc doc' : Document) : Prop :=
  ∃ user, doc.OwnedBy user ∧ doc'.OwnedBy user

theorem Document.SharesOwner.symm {doc doc' : Document} (h : doc.SharesOwner doc') :
    doc'.SharesOwner doc := by
  obtain ⟨user, h, h'⟩ := h
  exact ⟨user, h', h⟩

/-! ## Comparing with users -/

/-- A test that is met by a member and has an answer for all of them is met. -/
theorem anyM_eq_true {α : Type} {test : α → Except Fault Bool} {xs : List α}
    (h : ∀ x ∈ xs, ∃ b, test x = .ok b) {x : α} (hx : x ∈ xs) (ht : test x = .ok true) :
    xs.anyM test = .ok true := by
  obtain ⟨b, hb⟩ := anyM_total h
  rw [hb, eq_true_of_anyM hb hx ht]

/-- A disjunction is met if one of its first members is met and these have an answer. -/
theorem someHold_append {cs ds : List Condition} {v : Value}
    (h : ∀ c ∈ cs, ∃ b, c.holds v = .ok b) {c : Condition} (hc : c ∈ cs)
    (hm : c.holds v = .ok true) : someHold (cs ++ ds) v = .ok true := by
  induction cs with
  | nil => exact absurd hc List.not_mem_nil
  | cons d cs ih =>
    rw [List.forall_mem_cons] at h
    obtain ⟨⟨b, hb⟩, h⟩ := h
    rw [List.cons_append, someHold, hb, ok_bind]
    cases b with
    | true => rfl
    | false =>
      rcases List.mem_cons.1 hc with rfl | hc
      · cases hb.symm.trans hm
      · exact ih h hc

theorem Document.OwnedBy.met {user : String} {doc : Document} (h : doc.OwnedBy user) :
    (equals "_ownerUsers" (.text user)).Met doc := by
  obtain ⟨items, hitems, hm⟩ := h
  have same : scalarEquals (.text user) (.text user) none = .ok true :=
    congrArg (fun b => Except.ok (b || false)) (beq_self_eq_true user)
  have key : '.' ∉ "_ownerUsers".toList := by decide
  rw [equals, Condition.compare, Met, holds, Leaf.holds, Document.path?_key key, hitems]
  exact anyM_eq_true (fun v _ => scalarEquals_text v user) hm same

/-! ## The condition -/

/-- Comparing with each of some texts. -/
def comparisons (field : String) (texts : List String) : List Condition :=
  texts.map fun s => equals field (.text s)

theorem disjuncts?_comparisons (field : String) (texts : List String) :
    disjuncts? (comparisons field texts) = some (comparisons field texts) := by
  induction texts with
  | nil => rfl
  | cons s texts ih =>
    change (disjuncts? (comparisons field texts)).map _ = _
    rw [ih]
    rfl

/-- The disjunction of comparisons is the only one of them, or has all of them as members. -/
theorem disj_comparisons (field : String) {texts : List String} (h : texts ≠ []) :
    (∃ s, texts = [s] ∧ disj (comparisons field texts) = equals field (.text s)) ∨
      disj (comparisons field texts) = .or (comparisons field texts) := by
  rw [disj, disjuncts?_comparisons]
  rcases texts with _ | ⟨s, _ | ⟨t, texts⟩⟩
  · exact absurd rfl h
  · exact .inl ⟨s, rfl, rfl⟩
  · exact .inr rfl

/-- What it is to be owned by one of some users or groups: to have the only user among the owners,
    or a disjunction that begins with the users. -/
theorem membership_cases (a : Audience) (h : a.users ≠ []) (usersField groupsField : String) :
    (∃ user, a.users = [user] ∧
        SetExpr.membership (some a) usersField groupsField = equals usersField (.text user)) ∨
      ∃ more, SetExpr.membership (some a) usersField groupsField =
        .or (comparisons usersField a.users ++ more) := by
  have given : a.users.isEmpty = false := List.isEmpty_eq_false_iff.2 h
  by_cases hgroups : a.groups = []
  · have plain : SetExpr.membership (some a) usersField groupsField =
        disj (comparisons usersField a.users) := by
      rw [SetExpr.membership, given, hgroups]
      rfl
    rw [plain]
    rcases disj_comparisons usersField h with hone | hmore
    · exact .inl hone
    · exact .inr ⟨[], by rw [hmore, List.append_nil]⟩
  · -- The clause of the groups is a conjunction, which stays one member of the disjunction.
    obtain ⟨clause, hclause⟩ : ∃ clause, conj [disj (comparisons groupsField a.groups),
        .compare "_visibility" .neq (.text "private")] = .and clause := by
      rcases disj_comparisons groupsField hgroups with ⟨g, -, hone⟩ | hmore
      · rw [hone]
        exact ⟨_, rfl⟩
      · rw [hmore]
        exact ⟨_, rfl⟩
    have both : SetExpr.membership (some a) usersField groupsField =
        disj [disj (comparisons usersField a.users), .and clause] := by
      rw [SetExpr.membership, given, List.isEmpty_eq_false_iff.2 hgroups, ← hclause]
      rfl
    rw [both]
    refine .inr ⟨[.and clause], ?_⟩
    rcases disj_comparisons usersField h with ⟨user, husers, hone⟩ | hmore
    · rw [hone, husers]
      rfl
    · have clauses : disjuncts? [.or (comparisons usersField a.users), .and clause] =
          some (comparisons usersField a.users ++ [.and clause]) := rfl
      rw [hmore, disj, clauses]
      rcases husers : a.users with _ | ⟨user, _ | ⟨other, users⟩⟩
      · exact absurd husers h
      · rfl
      · rfl

/-- Whom one of the users owns is in the set, which says no ids. -/
theorem membership_of_ownedBy {a : Audience} {user : String} (hu : user ∈ a.users)
    {doc : Document} (h : doc.OwnedBy user) :
    (SetExpr.membership (some a) "_ownerUsers" "_ownerGroups").ids? = .ok none ∧
      (SetExpr.membership (some a) "_ownerUsers" "_ownerGroups").Met doc := by
  rcases membership_cases a (List.ne_nil_of_mem hu) "_ownerUsers" "_ownerGroups" with
    ⟨only, husers, hone⟩ | ⟨more, hmore⟩
  · rw [husers, List.mem_singleton] at hu
    subst hu
    rw [hone]
    exact ⟨rfl, h.met⟩
  · rw [hmore]
    refine ⟨rfl, ?_⟩
    rw [Met, holds]
    refine someHold_append (fun c hc => ?_) (List.mem_map_of_mem hu) h.met
    obtain ⟨s, -, rfl⟩ := List.mem_map.1 hc
    exact total_equals_text "_ownerUsers" s doc

/-! ## The scope -/

theorem decodeQuery_owners :
    decodeQuery "set[owners]" = .ok (.object [("set", .object [("owners", .text "")])]) := by
  have pairs : Bracket.pairs "set[owners]" = [("set[owners]", "")] := by decide
  have path : Bracket.path "set[owners]" = ["set", "owners"] := by decide
  have written : Bracket.written [("set[owners]", "")] =
      [("set", .object [("owners", .text "")])] := by
    rw [Bracket.written, List.foldl_cons, path]
    rfl
  -- No key is a numeral, so that there are no arrays.
  have words : Bracket.isNumeral "set" = false ∧ Bracket.isNumeral "owners" = false := by
    decide
  rw [decodeQuery, pairs, written]
  simp [Bracket.listed, Bracket.listedMembers, Bracket.arranged, words, bind, Except.bind, pure,
    Except.pure]

/-- The scope of the owners is a set, for which nobody is named. -/
theorem read_owners :
    Scope.read "set[owners]" none = .ok { set := some (.named "owners" none) } := by
  have given : (Text.trim "set[owners]").isEmpty = false := by decide
  have name : Text.lower (Text.trim "owners") = "owners" := by decide
  have set : SetExpr.read (.object [("owners", .text "")]) = .ok (some (.named "owners" none)) := by
    rw [SetExpr.read, SetExpr.readMembers, name]
    rfl
  rw [Scope.read, given, if_neg Bool.false_ne_true, decodeQuery_owners, lift_ok, ok_bind]
  change (SetExpr.read (.object [("owners", .text "")]) >>= fun set => _) = _
  rw [set]
  rfl

/-- The owners of a record are among those that it is read with. -/
theorem mem_users_of_ownedBy {doc : Document} {user : String} (h : doc.OwnedBy user)
    {owners : Audience} (ho : ownersOf doc = .ok owners) : user ∈ owners.users := by
  obtain ⟨items, hitems, hm⟩ := h
  obtain ⟨users, husers, ho⟩ := bind_eq_ok.1 ho
  obtain ⟨groups, -, ho⟩ := bind_eq_ok.1 ho
  cases ho
  have read : idsIn "_ownerUsers" doc = if (Value.array items).truthy then
      .ok (items.map Value.display) else .ok [] := by
    rw [idsIn, hitems]
    rfl
  have some : (Value.array items).truthy = true := by
    cases items with
    | nil => exact absurd hm List.not_mem_nil
    | cons v items => rfl
  rw [read, if_pos some] at husers
  cases husers
  exact List.mem_map_of_mem hm

/-- In the scope of the owners are all records that share a user with the record that it is read
    for. -/
theorem covers_of_sharesOwner {ctx : Context} {f : Family} (ha : ctx.access f = .always)
    {doc e : Document} (h : doc.SharesOwner e) : Covers ctx f "set[owners]" doc e := by
  intro owners howners
  obtain ⟨user, hdoc, he⟩ := h
  have plain : Template.parts "set[owners]" = "set[owners]".toList.map .char := by decide
  obtain ⟨silent, met⟩ := membership_of_ownedBy (mem_users_of_ownedBy hdoc howners) he
  have filled := Scope.read_filled read_owners owners
  rw [← Template.render_of_plain plain (.object doc)] at filled
  refine ⟨_, [.always, .always, SetExpr.membership (some owners) "_ownerUsers" "_ownerGroups",
    .always], filled, fun extra => ?_, fun c hc => ?_⟩
  · rw [baseCondition, ha]
    rfl
  · simp only [List.mem_cons, List.not_mem_nil, or_false] at hc
    rcases hc with rfl | rfl | rfl | rfl
    · exact ⟨rfl, rfl⟩
    · exact ⟨rfl, rfl⟩
    · exact ⟨silent, met⟩
    · exact ⟨rfl, rfl⟩

end Catalog
