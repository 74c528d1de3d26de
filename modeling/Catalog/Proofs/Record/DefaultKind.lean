import Catalog.Proofs.Number.Numeral
import Catalog.Proofs.Policy
import Catalog.Proofs.Record.Refusals

/-!
# The default kind

A payload that names no kind is given the default kind, which is then checked as if it had been
named. The default kind is always an allowed one (`Policy.ReadFrom.allowsKind`), but it need not be
a kind that records can be of: it is taken from the environment as it stands there, without the
blanks around it, and is not looked at when the configuration is read. So either no payload without
a kind is refused for its kind, or each one is (`Record.defaultKind_refused_iff`).
-/

namespace Catalog

open Text

/-- What is left of a text without the blanks around it does not consist of blanks. -/
theorem not_isEmpty_trim_trim {s : String} (h : trim s ≠ "") :
    ¬(trim (trim s)).isEmpty = true := by
  have nonempty : (s.toList.dropWhile isBlank).reverse.dropWhile isBlank ≠ [] := fun hnil =>
    h (by rw [trim, trimWhile, dropEndWhile, hnil]; rfl)
  -- The last character left is no blank: there the blanks at the end are over.
  have last : ((s.toList.dropWhile isBlank).reverse.dropWhile isBlank).head nonempty ∈
      (trim s).toList := by
    rw [trim, String.toList_ofList]
    exact List.mem_reverse.2 (List.head_mem nonempty)
  exact not_isEmpty_trim last (List.head_dropWhile_not isBlank nonempty)

/-- A kind that records can be of: a text, not empty, that is its own slug. -/
def IsKindName (kind : String) : Prop := kind ≠ "" ∧ slugify kind = kind

instance (kind : String) : Decidable (IsKindName kind) :=
  inferInstanceAs (Decidable (kind ≠ "" ∧ slugify kind = kind))

/-- The kinds that families have by themselves are kinds that records can be of. -/
theorem Family.isKindName_configuredKind {f : Family} {env : Environment}
    (h : env.get? s!"default_{f.keyStem}_kind" = none) : IsKindName (f.configuredKind env) := by
  rw [configuredKind, h]
  cases f <;> decide +kernel

namespace Record

variable {f : Family} {env : Environment} {given : Document} {p : Policy} {payload : Document}

/-- A payload without a kind is of the default kind, if records can be of it. -/
theorem kindOf_of_lacks (hp : p.ReadFrom f env given) (h : payload.lacks "_kind" = true) :
    kindOf p payload =
      if IsKindName (f.configuredKind env) then .ok (f.configuredKind env)
      else if f.configuredKind env = "" then refuse (.kindNotText f)
      else refuse (.kindNotSlug f (slugify (f.configuredKind env))) := by
  rw [kindOf, if_pos h, hp.defaultKind, checkKind_text hp.allowsKind, hp.family]
  by_cases hempty : f.configuredKind env = ""
  · rw [hempty, if_pos (by decide), if_neg (by decide), if_pos rfl]
  · have solid : trim (f.configuredKind env) ≠ "" := fun h =>
      not_isEmpty_trim_trim hempty (String.isEmpty_iff.2 h)
    rw [if_neg solid, if_neg hempty]
    by_cases hslug : slugify (f.configuredKind env) = f.configuredKind env
    · rw [if_pos hslug, if_pos ⟨hempty, hslug⟩]
    · rw [if_neg hslug, if_neg fun usable => hslug usable.2]

/-- In a configuration that is read, no payload without a kind is refused for its kind if records
    can be of the default kind, as they can be if none is configured. Else each one is refused,
    since the default kind is empty or not its own slug. -/
theorem defaultKind_refused_iff {settings : Settings} {rules : Option String}
    {config : Configuration} (h : Configuration.read settings env rules = .ok config) (f : Family)
    (hkind : payload.lacks "_kind" = true) (requester : Requester) (now : Instant) (id : String) :
    (IsKindName (f.configuredKind env) → ∀ r,
      create (config.policy f) payload requester now id = .error (.refused r) →
        r.name ≠ "InvalidKindError") ∧
    (¬IsKindName (f.configuredKind env) →
      create (config.policy f) payload requester now id =
        if f.configuredKind env = "" then refuse (.kindNotText f)
        else refuse (.kindNotSlug f (slugify (f.configuredKind env)))) ∧
    (env.get? s!"default_{f.keyStem}_kind" = none → IsKindName (f.configuredKind env)) := by
  obtain ⟨given, -, hpolicy⟩ := Configuration.policy_read h
  have hread := kindOf_of_lacks (Policy.readFrom (hpolicy f)) hkind
  refine ⟨fun usable r hr => ?_, fun unusable => ?_, Family.isKindName_configuredKind⟩
  · rw [if_pos usable] at hread
    rw [ne_eq, Refusal.name_eq_invalidKind_iff]
    exact (refuses_create_of_kindOf hread requester now id r hr).not_isKind
  · rw [if_neg unusable] at hread
    rw [create_eq, hread]
    split <;> rfl

/-- Where nothing is configured, no entity is refused for the kind that it has by default. -/
theorem defaultKind_refused_iff_entity : ∃ config,
    Configuration.read {} [] none = .ok config ∧
      Document.lacks "_kind" [("_name", .text "A")] = true ∧
      IsKindName (Family.entities.configuredKind []) ∧
      ∀ r, create (config.policy .entities) [("_name", .text "A")] {} .first "a" =
        .error (.refused r) → r.name ≠ "InvalidKindError" := by
  have read : (Configuration.read {} [] none).toOption.isSome = true := rfl
  obtain ⟨config, hconfig⟩ := Option.isSome_iff_exists.1 read
  have lacks : Document.lacks "_kind" [("_name", .text "A")] = true := by decide
  have hread := toOption_eq_some.1 hconfig
  obtain ⟨never, -, standard⟩ := defaultKind_refused_iff hread .entities lacks {} .first "a"
  have usable := standard rfl
  exact ⟨config, hread, lacks, usable, never usable⟩

/-- An environment with a default kind for entities that none can be of. -/
def badKind : Environment := .ofList [("default_entity_kind", "Bad Kind")]

/-- A configuration with a default kind that no entity can be of is read, and every entity that
    names no kind is refused. -/
theorem defaultKind_refused : ∃ config,
    Configuration.read {} badKind none = .ok config ∧
      Document.lacks "_kind" [("_name", .text "A")] = true ∧
      create (config.policy .entities) [("_name", .text "A")] {} .first "a" =
        .error (.refused (.kindNotSlug .entities "bad-kind")) ∧
      (Refusal.kindNotSlug .entities "bad-kind").name = "InvalidKindError" := by
  have read (f : Family) : ∃ p, Policy.read f badKind [] = .ok p := by
    have some : (Policy.read f badKind []).toOption.isSome = true := by cases f <;> decide +kernel
    obtain ⟨p, hp⟩ := Option.isSome_iff_exists.1 some
    exact ⟨p, toOption_eq_some.1 hp⟩
  have hpolicy (f : Family) := (read f).choose_spec
  have lacks : Document.lacks "_kind" [("_name", .text "A")] = true := by decide
  have slug : slugify (Family.entities.configuredKind badKind) = "bad-kind" := by decide +kernel
  refine ⟨_, Configuration.read_of_policies (by decide +kernel) hpolicy, lacks, ?_, rfl⟩
  rw [create_eq, kindOf_of_lacks (Policy.readFrom (hpolicy .entities)) lacks,
    if_neg (by decide +kernel), if_neg (by decide +kernel), slug]
  rfl

end Record

end Catalog
