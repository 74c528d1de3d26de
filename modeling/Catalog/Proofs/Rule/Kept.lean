import Catalog.Proofs.Rule.Checks
import Catalog.Service.Write

/-!
# Rules that the store keeps

The rules of a family are *kept* (`RulesKept`) if its records are no more in the scope of a limit
than the limit, and no two of them agree on fields that are unique together. This is said of the
rules that can be told from the records alone, without the one that is being written: a limit whose
scope is the same for all records (`Policy.Limits`), and a rule of uniqueness without a scope that
holds for all kinds (`Policy.Distinguishes`).

A limit may be set for the records of some kinds only; it *binds* those (`Policy.Binds`), though all
records in its scope count. A record that passes all checks finds room under every limit that binds
it and whose scope it is in (`room_of_checkRules`), and differs from every other stored record
(`differs_of_checkRules`).
-/

namespace Catalog

/-- A limit with the same scope for all records. -/
structure Policy.Limits (p : Policy) (rule : LimitRule) (c : Condition) : Prop where
  /-- The scope is that of a condition. -/
  scope : FixedScope rule.scope c
  /-- It is a limit of the policy. -/
  given : ∃ kind rules, p.limitsFor kind = .ok rules ∧ rule ∈ rules

/-- A limit is one of those that a record has to keep. -/
def Policy.Binds (p : Policy) (rule : LimitRule) (doc : Document) : Prop :=
  ∀ rules, p.limitsFor (Value.orNull (doc.get? "_kind")) = .ok rules → rule ∈ rules

/-- A rule of uniqueness without a scope, which holds for all kinds. -/
structure Policy.Distinguishes (p : Policy) (rule : UniquenessRule) : Prop where
  /-- The scope is about all records. -/
  scope : FixedScope rule.scope .always
  /-- It holds for every kind. -/
  always : ∀ kind rules, p.uniquenessFor kind = .ok rules → rule ∈ rules

namespace KindScoped

variable {α : Type}

/-- Without values for single kinds there is only the general one. -/
theorem own?_of_plain {s : KindScoped α} (h : s.byKind = [])
    {kind : Value} {own : Option α} (ho : s.own? kind = .ok own) : own = none := by
  cases kind with
  | null =>
    cases ho
    rfl
  | text kind =>
    rw [own?, h] at ho
    cases ho
    rfl
  | _ => cases ho

theorem get_of_plain {s : KindScoped α} (h : s.byKind = [])
    {kind : Value} {v : α} (hv : s.get kind = .ok v) : v = s.default := by
  obtain ⟨own, hown, hv⟩ := bind_eq_ok.1 hv
  cases hv
  rw [own?_of_plain h hown]
  rfl

end KindScoped

namespace Policy

variable {p : Policy}

theorem mem_limitsFor {rule : LimitRule} (h : rule ∈ p.limitRules) {kind : Value}
    {rules : List LimitRule} (hr : p.limitsFor kind = .ok rules) : rule ∈ rules := by
  obtain ⟨own, -, hr⟩ := bind_eq_ok.1 hr
  cases hr
  exact List.mem_append_left _ h

/-- A limit for records of all kinds binds every record. -/
theorem binds_of_mem {rule : LimitRule} (h : rule ∈ p.limitRules) (doc : Document) :
    p.Binds rule doc :=
  fun _ hr => mem_limitsFor h hr

/-- Without a greatest number of records there are only the limits for all kinds. -/
theorem limitsFor_of_uncounted (h : p.limitCount = { default := none }) {kind : Value}
    {rules : List LimitRule} (hr : p.limitsFor kind = .ok rules) : rules = p.limitRules := by
  obtain ⟨count, hcount, hr⟩ := bind_eq_ok.1 hr
  obtain ⟨own, -, hcount⟩ := bind_eq_ok.1 hcount
  obtain ⟨limit, hlimit, hcount⟩ := bind_eq_ok.1 hcount
  rw [h] at hlimit
  cases KindScoped.get_of_plain rfl hlimit
  cases hcount
  cases hr
  exact List.append_nil _

/-- The limits for records of a kind, or of none, can be told. -/
theorem exists_limitsFor (p : Policy) (kind : Option String) :
    ∃ rules, p.limitsFor (Value.orNull (kind.map .text)) = .ok rules := by
  have own {α : Type} (s : KindScoped α) :
      ∃ o, s.own? (Value.orNull (kind.map .text)) = .ok o := by
    cases kind <;> exact ⟨_, rfl⟩
  obtain ⟨count, hcount⟩ := own p.limitCount
  obtain ⟨scope, hscope⟩ := own p.limitScope
  rw [limitsFor, countRule?, KindScoped.get, KindScoped.get, hcount, hscope]
  simp only [ok_bind]
  cases count.getD p.limitCount.default with
  | none => exact ⟨_, rfl⟩
  | some limit => exact ⟨_, rfl⟩

theorem limits_of_mem {rule : LimitRule} (h : rule ∈ p.limitRules) {c : Condition}
    (hs : FixedScope rule.scope c) : p.Limits rule c := by
  obtain ⟨rules, hr⟩ := p.exists_limitsFor none
  exact { scope := hs, given := ⟨.null, rules, hr, mem_limitsFor h hr⟩ }

/-- Further rules of uniqueness hold for all kinds. -/
theorem mem_uniquenessFor {rule : UniquenessRule} (h : rule ∈ p.uniquenessRules) {kind : Value}
    {rules : List UniquenessRule} (hr : p.uniquenessFor kind = .ok rules) : rule ∈ rules := by
  obtain ⟨fields, -, hr⟩ := bind_eq_ok.1 hr
  split at hr
  · cases hr
    exact h
  · obtain ⟨scope, -, hr⟩ := bind_eq_ok.1 hr
    cases hr
    exact List.mem_append_left _ h

/-- A further rule of uniqueness without a scope holds for all kinds. -/
theorem distinguishes_of_mem {rule : UniquenessRule} (h : rule ∈ p.uniquenessRules)
    (hs : FixedScope rule.scope .always) : p.Distinguishes rule where
  scope := hs
  always _ _ hr := mem_uniquenessFor h hr

end Policy

/-- The records of a family keep the rules that can be told from them alone. -/
structure RulesKept (ctx : Context) (f : Family) (store : Store) : Prop where
  /-- There are no more records in the scope of a limit than the limit. -/
  limits : ∀ rule c, (ctx.config.policy f).Limits rule c →
    ((store.scan (ctx.collection f)).countP c.selects : Int) ≤ rule.limit
  /-- No two records agree on fields that are unique together. -/
  unique : ∀ rule, (ctx.config.policy f).Distinguishes rule →
    (store.scan (ctx.collection f)).Pairwise fun d d' => ¬d.AgreeOn rule.fields d'

namespace Service

variable {ctx : Context} {store : Store} {f : Family} {doc : Document} {id : String}

theorem access_unrestricted (ctx : Context) (f : Family) : ctx.unrestricted.access f = .always := by
  rw [Context.access, Requester.predicate]
  simp [Context.unrestricted]

/-- A record that passes all checks passes that of each limit for its kind. -/
theorem limit_of_checkRules (hp : (ctx.config.policy f).family = f) {exclude : Value}
    (h : checkRules ctx store f doc exclude = .ok ()) {rule : LimitRule}
    (hb : (ctx.config.policy f).Binds rule doc) :
    rule.check ctx.unrestricted store f doc exclude = .ok () := by
  obtain ⟨⟨⟩, hl, -⟩ := bind_eq_ok.1 h
  dsimp only [checkLimits] at hl
  obtain ⟨-, -, hl⟩ := bind_eq_ok.1 hl
  obtain ⟨-, -, hl⟩ := bind_eq_ok.1 hl
  obtain ⟨rules, hrules, hl⟩ := bind_eq_ok.1 hl
  have checked := forM_eq_ok.1 hl rule (hb rules (lift_eq_ok.1 hrules))
  rwa [hp] at checked

/-- A record that passes all checks passes that of each rule of uniqueness for its kind. -/
theorem uniqueness_of_checkRules (hp : (ctx.config.policy f).family = f) {exclude : Value}
    (h : checkRules ctx store f doc exclude = .ok ()) {rule : UniquenessRule}
    (hb : ∀ rules, (ctx.config.policy f).uniquenessFor (Value.orNull (doc.get? "_kind")) =
      .ok rules → rule ∈ rules) :
    rule.check ctx.unrestricted store f doc exclude = .ok () := by
  obtain ⟨⟨⟩, -, hu⟩ := bind_eq_ok.1 h
  dsimp only [checkUniqueness] at hu
  obtain ⟨-, -, hu⟩ := bind_eq_ok.1 hu
  obtain ⟨rules, hrules, hu⟩ := bind_eq_ok.1 hu
  have checked := forM_eq_ok.1 hu rule (hb rules (lift_eq_ok.1 hrules))
  rwa [hp] at checked

/-- A record that passes all checks finds room under a limit that binds it and whose scope it is in,
    if the stored record in its place is not in the scope. -/
theorem room_of_checkRules (hp : (ctx.config.policy f).family = f) (hk : store.Keyed)
    (ht : store.TextIds (ctx.collection f))
    (h : checkRules ctx store f doc (.text id) = .ok ()) {rule : LimitRule} {c : Condition}
    (hr : (ctx.config.policy f).Limits rule c) (hb : (ctx.config.policy f).Binds rule doc)
    (hd : c.Met doc)
    (ho : ∀ e ∈ store.scan (ctx.collection f), e.get? "_id" = some (.text id) →
      c.selects e = false) :
    ((store.scan (ctx.collection f)).countP c.selects : Int) < rule.limit := by
  refine LimitRule.room_of_check hk (access_unrestricted ctx f) hr.scope
    (limit_of_checkRules hp h hb) hd fun e he hc => ⟨hc, ?_⟩
  -- The record itself is left out by its id, which the stored record in its place has, too.
  obtain ⟨id', hid'⟩ := ht e he
  refine leavingOut_met hid' ?_
  rintro rfl
  rw [ho e he hid'] at hc
  exact nomatch hc

/-- A record that passes all checks differs from the stored records with other ids. -/
theorem differs_of_checkRules (hp : (ctx.config.policy f).family = f) (hk : store.Keyed)
    (h : checkRules ctx store f doc (.text id) = .ok ()) (hd : doc.get? "_id" = some (.text id))
    {rule : UniquenessRule} (hr : (ctx.config.policy f).Distinguishes rule) {e : Document}
    (he : e ∈ store.scan (ctx.collection f)) {id' : String}
    (hid : e.get? "_id" = some (.text id')) (hne : id' ≠ id) : ¬doc.AgreeOn rule.fields e := by
  refine UniquenessRule.differs_of_check hk (access_unrestricted ctx f) hr.scope
    (uniqueness_of_checkRules hp h (hr.always _)) he (leavingOut_met hid hne) ?_
  rintro ⟨-, heq⟩
  have path {d : Document} {i : String} (h : d.get? "_id" = some (.text i)) :
      d.path? "_id" = some (.text i) := by
    rw [Document.path?, Document.path?_key (by decide), h]
  rw [path hd, path hid] at heq
  have same : ((id' == id) || false) = true := by injection heq
  rw [Bool.or_false, beq_iff_eq] at same
  exact hne same

end Service

end Catalog
