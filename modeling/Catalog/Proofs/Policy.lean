import Catalog.Policy.Reading
import Catalog.Proofs.Outcome

/-!
# Configurations that are read

The policy that a configuration has for a family is read from the environment and the rules
(`Configuration.policy_read`), setting by setting (`Policy.ReadFrom`). It is a policy of this family
(`Configuration.family_policy`), so that what is counted in checks are records of the family that is
written. An installation may store two families in one collection; most of what is said of a family
needs that it does not (`Configuration.Separate`).
-/

namespace Catalog

open Text

/-- The default kind that an environment has for a family, or else the family itself. -/
def Family.configuredKind (f : Family) (env : Environment) : String :=
  trim ((env.get? s!"default_{f.keyStem}_kind").getD f.defaultKind)

/-- What a policy that is read says about kinds and limits, and where it has it from. -/
structure Policy.ReadFrom (f : Family) (env : Environment) (rules : Document) (p : Policy) :
    Prop where
  /-- It is about the family. -/
  family : p.family = f
  /-- The collection is the one in the environment, or else that of the family. -/
  collection : p.collection = (env.get? s!"collection_{f.keyStem}").getD f.collection
  /-- The default kind is the one in the environment. -/
  defaultKind : p.defaultKind = f.configuredKind env
  /-- If kinds are named, the default kind is one of them. -/
  kinds : ∃ named : List String, p.kinds =
    if named.isEmpty || named.contains (f.configuredKind env) then named
    else named ++ [f.configuredKind env]
  /-- The limits for all kinds are those in the environment and those in the rules. -/
  limitRules : ∃ ownLimits own moreLimits,
    readLimitRules (upperKey f.limitRulesKey) ((env.get? f.limitRulesKey).map .text) =
        .ok ownLimits ∧
      ownRules f rules = .ok own ∧
      readLimitRules s!"{f.segment}.record_limits" (Document.get? "record_limits" own) =
        .ok moreLimits ∧
      p.limitRules = ownLimits ++ moreLimits
  /-- The numbers of records are those in the environment. -/
  limitCount : readCounts env s!"record_limit_{f.keyStem}_count" = .ok p.limitCount
  /-- These are counted in the scope in the environment. -/
  limitScope : p.limitScope = readScoped env s!"record_limit_{f.keyStem}_scope" "" id
  /-- The numbers of entities in a list are those in the environment. -/
  listEntityLimit : readListEntityLimit f env = .ok p.listEntityLimit

theorem Policy.readFrom {f : Family} {env : Environment} {rules : Document} {p : Policy}
    (h : Policy.read f env rules = .ok p) : ReadFrom f env rules p := by
  dsimp only [Policy.read] at h
  obtain ⟨visibility, -, h⟩ := bind_eq_ok.1 h
  obtain ⟨responseLimit, -, h⟩ := bind_eq_ok.1 h
  obtain ⟨ownLimits, hownLimits, h⟩ := bind_eq_ok.1 h
  obtain ⟨own, hown, h⟩ := bind_eq_ok.1 h
  obtain ⟨moreLimits, hmoreLimits, h⟩ := bind_eq_ok.1 h
  obtain ⟨limitCount, hlimitCount, h⟩ := bind_eq_ok.1 h
  obtain ⟨ownConstraints, -, h⟩ := bind_eq_ok.1 h
  obtain ⟨moreConstraints, -, h⟩ := bind_eq_ok.1 h
  obtain ⟨listEntityLimit, hlistEntityLimit, h⟩ := bind_eq_ok.1 h
  obtain ⟨uniquenessRules, -, h⟩ := bind_eq_ok.1 h
  cases h
  exact {
    family := rfl
    collection := rfl
    defaultKind := rfl
    kinds := ⟨_, rfl⟩
    limitRules := ⟨ownLimits, own, moreLimits, hownLimits, hown, hmoreLimits, rfl⟩
    limitCount := hlimitCount
    limitScope := rfl
    listEntityLimit := hlistEntityLimit }

/-- The default kind is always allowed. -/
theorem Policy.ReadFrom.allowsKind {f : Family} {env : Environment} {rules : Document} {p : Policy}
    (h : ReadFrom f env rules p) : p.allowsKind (f.configuredKind env) = true := by
  obtain ⟨named, hkinds⟩ := h.kinds
  rw [Policy.allowsKind, hkinds]
  split
  · next among => exact among
  · rw [Bool.or_eq_true, List.contains_iff_mem]
    exact .inr (List.mem_append_right _ (List.mem_singleton_self _))

/-- A configuration that is read has the policies that are read for its families. -/
theorem Configuration.policy_read {settings : Settings} {env : Environment}
    {rules : Option String} {config : Configuration}
    (h : Configuration.read settings env rules = .ok config) :
    ∃ given, readRules env rules = .ok given ∧
      ∀ f, Policy.read f env given = .ok (config.policy f) := by
  obtain ⟨given, hgiven, h⟩ := bind_eq_ok.1 h
  obtain ⟨entities, hentities, h⟩ := bind_eq_ok.1 h
  obtain ⟨lists, hlists, h⟩ := bind_eq_ok.1 h
  obtain ⟨entityReactions, hentityReactions, h⟩ := bind_eq_ok.1 h
  obtain ⟨listReactions, hlistReactions, h⟩ := bind_eq_ok.1 h
  obtain ⟨relations, hrelations, h⟩ := bind_eq_ok.1 h
  cases h
  refine ⟨given, hgiven, fun f => ?_⟩
  cases f with
  | entities => exact hentities
  | lists => exact hlists
  | entityReactions => exact hentityReactions
  | listReactions => exact hlistReactions
  | relations => exact hrelations

/-- Without rules a configuration is read if the policies of all families are. -/
theorem Configuration.read_of_policies {settings : Settings} {env : Environment}
    {policies : Family → Policy} (hrules : env.get? "rules_file" = none)
    (h : ∀ f, Policy.read f env [] = .ok (policies f)) :
    Configuration.read settings env none = .ok { settings with
      accessControl := ((env.get? "access_control").map isYes).getD settings.accessControl
      policy := policies } := by
  have noRules : readRules env none = .ok [] := by
    rw [readRules, hrules]
    rfl
  simp only [Configuration.read, noRules, h, ok_bind]
  refine congrArg (fun byFamily => Except.ok ({ settings with
    accessControl := _, policy := byFamily } : Configuration)) ?_
  funext f
  cases f <;> rfl

/-- A configuration that is read has a policy of each family for this family. -/
theorem Configuration.family_policy {settings : Settings} {env : Environment}
    {rules : Option String} {config : Configuration}
    (h : Configuration.read settings env rules = .ok config) (f : Family) :
    (config.policy f).family = f := by
  obtain ⟨given, -, hpolicy⟩ := policy_read h
  exact (Policy.readFrom (hpolicy f)).family

/-- Each family is stored in a collection of its own. -/
structure Configuration.Separate (config : Configuration) : Prop where
  /-- The policy of a family is about this family. -/
  family : ∀ f, (config.policy f).family = f
  /-- No two families share a collection. -/
  collections : ∀ f g, (config.policy f).collection = (config.policy g).collection → f = g

/-- The collections that families have by themselves are different. -/
theorem Family.collection_injective {f g : Family} (h : f.collection = g.collection) : f = g := by
  cases f <;> cases g <;> first | rfl | exact absurd h (by decide)

/-- Where no collection is configured, each family is stored in a collection of its own. -/
theorem Configuration.Separate.of_read {settings : Settings} {env : Environment}
    {rules : Option String} {config : Configuration}
    (h : Configuration.read settings env rules = .ok config)
    (hnone : ∀ f ∈ Family.all, env.get? s!"collection_{f.keyStem}" = none) : config.Separate where
  family := family_policy h
  collections f g hsame := by
    obtain ⟨given, -, hpolicy⟩ := policy_read h
    rw [(Policy.readFrom (hpolicy f)).collection, (Policy.readFrom (hpolicy g)).collection,
      hnone f f.mem_all, hnone g g.mem_all] at hsame
    exact Family.collection_injective hsame

/-- What an installation has that chooses nothing. -/
theorem Configuration.separate_standard : Configuration.standard.Separate where
  family f := by cases f <;> rfl
  collections _ _ := Family.collection_injective

end Catalog
