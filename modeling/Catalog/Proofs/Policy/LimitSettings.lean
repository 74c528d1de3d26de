import Catalog.Proofs.Policy
import Catalog.Proofs.Record.Slug
import Catalog.Proofs.Rule.Kept

/-!
# Settings about limits

Which keys of an environment are about limits can be told from the keys alone
(`Environment.isLimitKey`), and a policy that is read says nothing about limits but what is set
there and in the rules. So if the only such setting is a number of records of one kind
(`OnlyKindLimit`), records of this kind of the family have one limit, whose scope names the kind,
and no other records have any (`OnlyKindLimit.limitsFor_text`).

The key of one setting never begins like that of another one that may be made for single kinds
(`eq_of_prefix_marker`), so that what is set for one is never taken for a setting of the other.
-/

namespace Catalog

open Text

/-- The key of the number of records of a family. -/
def Family.countKey (f : Family) : String := s!"record_limit_{f.keyStem}_count"

/-- The key of the scope that these are counted in. -/
def Family.scopeKey (f : Family) : String := s!"record_limit_{f.keyStem}_scope"

theorem Family.countKey_eq (f : Family) : f.countKey = s!"record_limit_{f.keyStem}_count" := rfl

theorem Family.scopeKey_eq (f : Family) : f.scopeKey = s!"record_limit_{f.keyStem}_scope" := rfl

/-- The key of the number of records of one kind. -/
def Family.kindLimitKey (f : Family) (kind : String) : String :=
  f.countKey ++ "_for_" ++ kindKey kind

namespace Environment

/-- The keys of the settings about limits that may be made for single kinds. -/
def kindedLimitKeys : List String :=
  "record_limit_list_entity_count" :: Family.all.flatMap fun f => [f.countKey, f.scopeKey]

/-- The keys of all settings about limits. -/
def limitKeys : List String := kindedLimitKeys ++ Family.all.map Family.limitRulesKey

/-- How the keys for single kinds begin. -/
def marker (key : String) : List Char := (key ++ "_for_").toList

/-- A key is that of a setting about limits, for all kinds or for one. -/
def isLimitKey (key : String) : Bool :=
  limitKeys.contains key || kindedLimitKeys.any fun base => (marker base).isPrefixOf key.toList

/-- The settings about limits; an empty text sets nothing. -/
def limitSettings (env : Environment) : Environment :=
  env.filter fun setting => isLimitKey setting.1 && !setting.2.isEmpty

variable {env : Environment} {base key text : String}

/-- What an entry sets for a kind under a key. -/
def kindSetting? (base : String) (entry : String × String) : Option (String × String) :=
  if (marker base).isPrefixOf entry.1.toList && !entry.2.isEmpty then
    some (String.ofList (entry.1.toList.drop (marker base).length), entry.2)
  else none

theorem perKind_eq_filterMap (env : Environment) (base : String) :
    env.perKind base = env.filterMap (kindSetting? base) := rfl

theorem isLimitKey_of_marker (hb : base ∈ kindedLimitKeys)
    (h : (marker base).isPrefixOf key.toList = true) : isLimitKey key = true := by
  rw [isLimitKey, List.any_eq_true.2 ⟨base, hb, h⟩, Bool.or_true]

/-- What is set for single kinds is among the settings about limits, if it is about limits. -/
theorem perKind_limitSettings (hb : base ∈ kindedLimitKeys) :
    perKind env.limitSettings base = env.perKind base := by
  rw [perKind_eq_filterMap, perKind_eq_filterMap, limitSettings, List.filterMap_filter]
  refine congrArg (fun pick => env.filterMap pick) (funext fun entry => ?_)
  cases named : (marker base).isPrefixOf entry.1.toList with
  | true =>
    rw [isLimitKey_of_marker hb named, Bool.true_and, kindSetting?, named, Bool.true_and]
    cases entry.2.isEmpty <;> rfl
  | false =>
    rw [kindSetting?, named, Bool.false_and]
    exact ite_self none

theorem isKeyPart_limitKeys : ∀ key ∈ limitKeys, key.toList.all isKeyPart = true := by
  have stem (f : Family) : f.keyStem.toList.all isKeyPart = true := by cases f <;> decide
  have rules (f : Family) : f.limitRulesKey.toList.all isKeyPart = true := by cases f <;> decide
  simp only [limitKeys, kindedLimitKeys, List.forall_mem_append, List.forall_mem_cons,
    List.forall_mem_flatMap, List.forall_mem_map, Family.countKey_eq, Family.scopeKey_eq, toString,
    String.toList_append, List.all_append, stem, rules]
  decide

/-- A setting about limits that is not among these has not been made. -/
theorem get?_eq_none (hk : key ∈ limitKeys) (h : ∀ text, (key, text) ∉ env.limitSettings) :
    env.get? key = none := by
  rw [get?, lower_of_isKeyPart (List.all_eq_true.1 (isKeyPart_limitKeys key hk)),
    Option.filter_eq_none_iff]
  intro text found empty
  obtain ⟨before, after, rfl, -⟩ := List.lookup_eq_some_iff.1 found
  refine h text (List.mem_filter.2 ⟨List.mem_append_right _ List.mem_cons_self, ?_⟩)
  rw [isLimitKey, List.contains_iff_mem.2 hk, Bool.true_or, Bool.true_and]
  exact empty

/-- The key for a kind begins like that of no other setting. -/
theorem eq_of_prefix_marker {base' : String} (hb : base ∈ kindedLimitKeys)
    (hb' : base' ∈ kindedLimitKeys) (h : marker base <+: key.toList)
    (h' : marker base' <+: key.toList) : base = base' := by
  -- Evaluation is slow on texts, but not on characters, which the texts are therefore taken as.
  have apart : (kindedLimitKeys.map marker).Pairwise fun m n => ¬m <+: n ∧ ¬n <+: m := by
    simp only [kindedLimitKeys, Family.all, Family.countKey_eq, Family.scopeKey_eq, Family.keyStem,
      List.flatMap_cons, List.flatMap_nil, List.map_cons, List.map_nil, List.cons_append,
      List.nil_append, marker, toString, String.toList_append, String.reduceToList]
    decide
  have same : ∀ ⦃a⦄, a ∈ kindedLimitKeys → ∀ ⦃b⦄, b ∈ kindedLimitKeys →
      marker a <+: marker b → a = b :=
    ((List.pairwise_map.1 apart).imp fun no h => absurd h no.1).forall_of_forall_of_flip
      (fun _ _ _ => rfl) ((List.pairwise_map.1 apart).imp fun no h => absurd h no.2)
  rcases List.prefix_or_prefix_of_prefix h h' with h | h
  · exact same hb hb' h
  · exact (same hb' hb h).symm

/-- No setting for all kinds has a key that begins like one for single kinds. -/
theorem not_marker_prefix (hb : base ∈ kindedLimitKeys) (hk : key ∈ limitKeys) :
    ¬marker base <+: key.toList := by
  have longer : ∀ m ∈ kindedLimitKeys.map marker, ∀ cs ∈ limitKeys.map String.toList,
      ¬m <+: cs := by
    simp only [limitKeys, kindedLimitKeys, Family.all, Family.countKey_eq, Family.scopeKey_eq,
      Family.keyStem, Family.limitRulesKey, List.flatMap_cons, List.flatMap_nil, List.map_cons,
      List.map_nil, List.cons_append, List.nil_append, marker, toString, String.toList_append,
      String.reduceToList]
    decide
  exact longer _ (List.mem_map_of_mem hb) _ (List.mem_map_of_mem hk)

end Environment

/-- The only setting about limits is a number of records of one kind. -/
structure OnlyKindLimit (env : Environment) (rules : Option String) (f : Family) (kind : String)
    (limit : Int) : Prop where
  /-- It is the only one in the environment. -/
  setting : ∃ text, env.limitSettings = [(f.kindLimitKey kind, text)] ∧
    Numeral.int? (trim text) = some limit
  /-- There is none in the rules. -/
  rules : ∀ given, readRules env rules = .ok given → ∀ g own, ownRules g given = .ok own →
    Document.get? "record_limits" own = none

/-- A number for one kind, and none for others. -/
def KindScoped.single (kind : String) (limit : Int) : KindScoped (Option Int) where
  default := none
  byKind := [(kindKey kind, some limit)]

/-- The limit that such a setting is: only records of the kind are counted. -/
def kindRule (kind : String) (limit : Int) : LimitRule where
  scope := "filter[where][_kind]=" ++ kind
  limit := limit

namespace OnlyKindLimit

open Environment

theorem toList_kindLimitKey (f : Family) (kind : String) :
    (f.kindLimitKey kind).toList = marker f.countKey ++ (kindKey kind).toList := by
  rw [Family.kindLimitKey, String.toList_append, marker]

theorem prefix_kindLimitKey (f : Family) (kind : String) :
    marker f.countKey <+: (f.kindLimitKey kind).toList := by
  rw [toList_kindLimitKey]
  exact List.prefix_append _ _

theorem countKey_mem (f : Family) : f.countKey ∈ kindedLimitKeys :=
  List.mem_cons_of_mem _ (List.mem_flatMap.2 ⟨f, f.mem_all, List.mem_cons_self⟩)

theorem scopeKey_mem (f : Family) : f.scopeKey ∈ kindedLimitKeys :=
  List.mem_cons_of_mem _
    (List.mem_flatMap.2 ⟨f, f.mem_all, List.mem_cons_of_mem _ List.mem_cons_self⟩)

theorem limitRulesKey_mem (f : Family) : f.limitRulesKey ∈ limitKeys :=
  List.mem_append_right _ (List.mem_map_of_mem f.mem_all)

/-- If nothing else is set and there are no rules, the number is the only setting about limits. -/
theorem single {f : Family} {kind text : String} {limit : Int} (htext : text.isEmpty = false)
    (hlimit : Numeral.int? (trim text) = some limit) :
    OnlyKindLimit [(f.kindLimitKey kind, text)] none f kind limit where
  setting := by
    refine ⟨text, ?_, hlimit⟩
    rw [limitSettings, List.filter_cons, isLimitKey_of_marker (countKey_mem f)
      (List.isPrefixOf_iff_prefix.2 (prefix_kindLimitKey f kind)), htext]
    rfl
  rules given hgiven g own hown := by
    rw [readRules] at hgiven
    split at hgiven
    · cases hgiven
    · cases hgiven
      cases hown
      rfl

variable {env : Environment} {rules : Option String} {f g : Family} {kind : String} {limit : Int}
  (h : OnlyKindLimit env rules f kind limit)

include h

theorem get?_eq_none {key : String} (hk : key ∈ limitKeys) : env.get? key = none := by
  obtain ⟨text, hset, -⟩ := h.setting
  refine Environment.get?_eq_none hk fun text' hmem => not_marker_prefix (countKey_mem f) hk ?_
  rw [hset, List.mem_singleton, Prod.mk.injEq] at hmem
  rw [hmem.1]
  exact prefix_kindLimitKey f kind

/-- Only numbers of records of the family are set for single kinds, and only for the one kind. -/
theorem perKind_eq {base : String} (hb : base ∈ kindedLimitKeys) : ∃ text,
    Numeral.int? (trim text) = some limit ∧
      env.perKind base = if base = f.countKey then [(kindKey kind, text)] else [] := by
  obtain ⟨text, hset, hlimit⟩ := h.setting
  have full : text.isEmpty = false := by
    have made : (f.kindLimitKey kind, text) ∈ env.limitSettings := by
      rw [hset]
      exact List.mem_cons_self
    obtain ⟨-, kept⟩ := List.mem_filter.1 made
    simpa using (Bool.and_eq_true_iff.1 kept).2
  have begins := prefix_kindLimitKey f kind
  refine ⟨text, hlimit, ?_⟩
  rw [← perKind_limitSettings hb, hset, perKind_eq_filterMap]
  -- The one key that is set begins with the marker of its own base, and of no other.
  split
  · next same =>
    subst same
    have named : (marker f.countKey).isPrefixOf (f.kindLimitKey kind).toList = true :=
      List.isPrefixOf_iff_prefix.2 begins
    have rest : String.ofList ((f.kindLimitKey kind).toList.drop (marker f.countKey).length) =
        kindKey kind := by
      rw [toList_kindLimitKey, List.drop_left, String.ofList_toList]
    refine List.filterMap_cons_some ?_
    rw [kindSetting?, named, full, rest]
    rfl
  · next other =>
    have unnamed : (marker base).isPrefixOf (f.kindLimitKey kind).toList = false :=
      Bool.eq_false_iff.2 fun named => other
        (eq_of_prefix_marker hb (countKey_mem f) (List.isPrefixOf_iff_prefix.1 named) begins)
    refine List.filterMap_cons_none ?_
    rw [kindSetting?, unnamed]
    rfl

/-- Of all numbers of records only the one for the kind is read. -/
theorem readCounts_eq (hkind : slugify kind = kind) {base : String} (hb : base ∈ kindedLimitKeys) :
    readCounts env base =
      .ok (if base = f.countKey then .single kind limit else { default := none }) := by
  obtain ⟨text, hlimit, hper⟩ := h.perKind_eq hb
  rw [readCounts, h.get?_eq_none (List.mem_append_left _ hb), hper]
  split
  · have read : readInteger s!"{base}_for_{kindKey kind}" text = .ok limit := by
      rw [readInteger, hlimit]
    have overridden : KindScoped.ofList none [(kindKey kind, some limit)] = .single kind limit := by
      rw [KindScoped.ofList, List.foldl_cons, List.foldl_nil, KindScoped.override,
        kindKey_kindKey hkind]
      rfl
    rw [← overridden, List.mapM_cons, List.mapM_nil]
    simp only [read, ok_bind]
    rfl
  · rfl

theorem readCounts_countKey (hkind : slugify kind = kind) (g : Family) :
    readCounts env g.countKey =
      .ok (if g = f then .single kind limit else { default := none }) := by
  have injective : g.countKey = f.countKey ↔ g = f := by
    cases g <;> cases f <;> decide
  have read := h.readCounts_eq hkind (countKey_mem g)
  simp only [injective] at read
  exact read

theorem readScoped_scopeKey (g : Family) : readScoped env g.scopeKey "" id = { default := "" } := by
  have key : g.scopeKey ≠ f.countKey := by
    cases g <;> cases f <;> decide
  obtain ⟨text, -, noKind⟩ := h.perKind_eq (scopeKey_mem g)
  rw [if_neg key] at noKind
  rw [readScoped, h.get?_eq_none (List.mem_append_left _ (scopeKey_mem g)), noKind]
  rfl

theorem readListEntityLimit_eq (hkind : slugify kind = kind) (g : Family) :
    readListEntityLimit g env = .ok { default := none } := by
  have key : "record_limit_list_entity_count" ≠ f.countKey := by
    cases f <;> decide
  rw [readListEntityLimit]
  split
  · rw [h.readCounts_eq hkind List.mem_cons_self, if_neg key]
  · rfl

variable {p : Policy} {given : Document} (hp : p.ReadFrom g env given)

include hp

/-- Only the records of one kind of the family are numbered. -/
theorem limitCount_eq (hkind : slugify kind = kind) :
    p.limitCount = if g = f then .single kind limit else { default := none } :=
  Except.ok.inj (hp.limitCount.symm.trans (h.readCounts_countKey hkind g))

theorem limitScope_eq : p.limitScope = { default := "" } :=
  hp.limitScope.trans (h.readScoped_scopeKey g)

theorem listEntityLimit_eq (hkind : slugify kind = kind) :
    p.listEntityLimit = { default := none } :=
  Except.ok.inj (hp.listEntityLimit.symm.trans (h.readListEntityLimit_eq hkind g))

theorem limitRules_eq (hgiven : readRules env rules = .ok given) : p.limitRules = [] := by
  obtain ⟨ownLimits, own, moreLimits, howned, hown, hmore, whole⟩ := hp.limitRules
  rw [h.get?_eq_none (limitRulesKey_mem g)] at howned
  rw [h.rules given hgiven g own hown] at hmore
  cases howned
  cases hmore
  exact whole

/-- Records of the kind have one limit, and those of other kinds and families have none. -/
theorem limitsFor_text (hgiven : readRules env rules = .ok given) (hkind : slugify kind = kind)
    {other : String} (hother : slugify other = other) : p.limitsFor (.text other) =
      .ok (if g = f ∧ other = kind then [kindRule kind limit] else []) := by
  have limited : p.limitCount.own? (.text other) =
      .ok (if g = f ∧ other = kind then some (some limit) else none) := by
    rw [h.limitCount_eq hp hkind]
    by_cases family : g = f
    · rw [if_pos family, KindScoped.own?, KindScoped.single]
      by_cases same : other = kind
      · rw [same, if_pos ⟨family, rfl⟩, List.lookup_cons_self]
      · have apart : kindKey other ≠ kindKey kind :=
          fun heq => same (kindKey_injective hother hkind heq)
        rw [if_neg fun both => same both.2, List.lookup_cons, beq_false_of_ne apart]
        rfl
    · rw [if_neg family, if_neg fun both => family both.1]
      rfl
  have plain : p.limitCount.default = none := by
    rw [h.limitCount_eq hp hkind]
    split <;> rfl
  rw [Policy.limitsFor, Policy.countRule?, KindScoped.get, limited, plain, h.limitScope_eq hp,
    h.limitRules_eq hp hgiven]
  split
  · next named =>
    rw [named.2]
    rfl
  · rfl

end OnlyKindLimit

/-! ## Nothing but the limit -/

/-- The keys of the settings of a family that may be made for single kinds and are not about
    limits. -/
def Family.kindedKeys (f : Family) : List String :=
  [s!"visibility_{f.keyStem}", s!"autoapprove_{f.approvalStem}", s!"uniqueness_{f.keyStem}_fields",
    s!"uniqueness_{f.keyStem}_scope"]

/-- The keys of the settings of a family, and of those for all families, that are not about
    limits. -/
def Family.plainKeys (f : Family) : List String :=
  f.kindedKeys ++ [s!"default_{f.keyStem}_kind", s!"{f.keyStem}_kinds",
    s!"response_limit_{f.keyStem}", s!"{f.keyStem}_lookup_constraint", s!"collection_{f.keyStem}",
    "rules_file", "access_control"]

theorem Family.isKeyPart_plainKeys (f : Family) :
    ∀ key ∈ f.plainKeys, key.toList.all isKeyPart = true := by
  have stem : f.keyStem.toList.all isKeyPart = true := by cases f <;> decide
  have approval : f.approvalStem.toList.all isKeyPart = true := by cases f <;> decide
  simp only [plainKeys, kindedKeys, List.cons_append, List.nil_append, List.forall_mem_cons,
    toString, String.toList_append, List.all_append, stem, approval]
  decide

namespace Environment

variable {key key' text : String}

/-- An entry sets nothing under a key that its own does not begin with. -/
theorem get?_single (hkey : key.toList.all isKeyPart = true) (h : ¬key.toList <+: key'.toList) :
    get? [(key', text)] key = none := by
  have other : key ≠ key' := by
    rintro rfl
    exact h List.prefix_rfl
  rw [get?, lower_of_isKeyPart (List.all_eq_true.1 hkey), List.lookup_cons, beq_false_of_ne other]
  rfl

theorem perKind_single (h : ¬key.toList <+: key'.toList) : perKind [(key', text)] key = [] := by
  have unnamed : (marker key).isPrefixOf key'.toList = false := by
    refine Bool.eq_false_iff.2 fun named => h ?_
    rw [List.isPrefixOf_iff_prefix, marker, String.toList_append] at named
    exact (List.prefix_append _ _).trans named
  rw [perKind_eq_filterMap]
  refine List.filterMap_cons_none ?_
  rw [kindSetting?, unnamed]
  rfl

end Environment

/-- The key of a limit for a kind begins with none that is not about limits. -/
theorem Family.not_prefix_kindLimitKey (f g : Family) (kind : String) :
    ∀ key ∈ g.plainKeys, ¬key.toList <+: (f.kindLimitKey kind).toList := by
  have begins : ∃ rest, (f.kindLimitKey kind).toList = 'r' :: 'e' :: 'c' :: rest := by
    simp only [kindLimitKey, countKey_eq, toString, String.toList_append, String.reduceToList,
      List.cons_append]
    exact ⟨_, rfl⟩
  obtain ⟨rest, hrest⟩ := begins
  simp only [plainKeys, kindedKeys, List.cons_append, List.nil_append, List.forall_mem_cons,
    toString, String.toList_append, String.reduceToList, hrest, List.cons_prefix_cons]
  cases g <;> simp [keyStem]

/-- What an installation has that limits the records of one kind and chooses nothing else. -/
def Configuration.limiting (f : Family) (kind : String) (limit : Int) : Configuration where
  policy g := { Policy.standard g with
    limitCount := if g = f then .single kind limit else { default := none } }

theorem Configuration.separate_limiting (f : Family) (kind : String) (limit : Int) :
    (limiting f kind limit).Separate where
  family g := by cases g <;> rfl
  collections _ _ := Family.collection_injective

/-- If besides numbers of records nothing is set for a family, all else is as if nothing were. -/
theorem Policy.read_of_unset {f : Family} {env : Environment}
    {counts : KindScoped (Option Int)} (texts : ∀ key ∈ f.plainKeys, env.get? key = none)
    (kinds : ∀ key ∈ f.kindedKeys, env.perKind key = [])
    (limitRules : env.get? f.limitRulesKey = none)
    (limitCount : readCounts env f.countKey = .ok counts)
    (limitScope : readScoped env f.scopeKey "" id = { default := "" })
    (listEntityLimit : readListEntityLimit f env = .ok { default := none }) :
    Policy.read f env [] = .ok { Policy.standard f with limitCount := counts } := by
  rw [Family.countKey_eq] at limitCount
  rw [Family.scopeKey_eq] at limitScope
  simp only [Family.plainKeys, Family.kindedKeys, List.cons_append, List.nil_append,
    List.forall_mem_cons] at texts kinds
  have visibility : readVisibilities env s!"visibility_{f.keyStem}" =
      .ok { default := "protected" } := by
    rw [readVisibilities, texts.1, kinds.1]
    rfl
  simp only [Policy.read, visibility, texts, limitRules, limitCount, limitScope, listEntityLimit]
  simp only [readScoped, texts, kinds]
  cases f <;> rfl

/-- If the number of records of a kind is all that is set, all else is as if nothing were. -/
theorem Configuration.read_kindLimit {f : Family} {kind text : String} {limit : Int}
    (hkind : slugify kind = kind) (htext : text.isEmpty = false)
    (hlimit : Numeral.int? (trim text) = some limit) :
    Configuration.read {} [(f.kindLimitKey kind, text)] none = .ok (limiting f kind limit) := by
  have only : OnlyKindLimit [(f.kindLimitKey kind, text)] none f kind limit := .single htext hlimit
  have texts (g : Family) : ∀ key ∈ g.plainKeys,
      Environment.get? [(f.kindLimitKey kind, text)] key = none := fun key hkey =>
    Environment.get?_single (g.isKeyPart_plainKeys key hkey)
      (f.not_prefix_kindLimitKey g kind key hkey)
  have kinds (g : Family) : ∀ key ∈ g.kindedKeys,
      Environment.perKind [(f.kindLimitKey kind, text)] key = [] := fun key hkey =>
    Environment.perKind_single
      (f.not_prefix_kindLimitKey g kind key (List.mem_append_left _ hkey))
  have policies (g : Family) : Policy.read g [(f.kindLimitKey kind, text)] [] =
      .ok ((limiting f kind limit).policy g) :=
    Policy.read_of_unset (texts g) (kinds g)
      (only.get?_eq_none (OnlyKindLimit.limitRulesKey_mem g)) (only.readCounts_countKey hkind g)
      (only.readScoped_scopeKey g) (only.readListEntityLimit_eq hkind g)
  have common := texts .entities
  simp only [Family.plainKeys, List.forall_mem_append, List.forall_mem_cons] at common
  obtain ⟨-, -, -, -, -, -, rules, access, -⟩ := common
  rw [read_of_policies rules policies, access]
  rfl

end Catalog
