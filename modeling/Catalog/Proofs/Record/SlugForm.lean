import Catalog.Policy.Reading
import Catalog.Proofs.Record.Refusals
import Catalog.Proofs.Record.Slug
import Catalog.Proofs.Record.Spelling

/-!
# The form of slugs

A text *has the form of a slug* (`IsSlug`) if it is made of runs of small letters and digits of
ASCII, with one hyphen between each two. The slug of a text is made of the runs in it, once it is
trimmed and in lower case (`slugify_eq`), so it has this form; and a text that has it is its own
slug (`slugify_eq_self_iff`).

Where all kinds are allowed, the kinds that records may be of are thus the texts of this form that
are not empty, and a slug that is suggested for another text is one of them, or empty
(`Record.slugs_canonical`).
-/

namespace Catalog

open Text

variable {run cs : List Char} {runs : List (List Char)} {c : Char} {s : String}

/-! ## Runs -/

/-- A run of characters of slugs other than the hyphen. -/
def IsSlugRun (run : List Char) : Prop := run ≠ [] ∧ ∀ c ∈ run, isSlugChar c = true

/-- The runs in a list of characters, each as long as it can be; `run` is the one under way. -/
def slugRuns (run : List Char) : List Char → List (List Char)
  | [] => if run.isEmpty then [] else [run]
  | c :: cs =>
    if isSlugChar c then slugRuns (run ++ [c]) cs
    else if run.isEmpty then slugRuns [] cs
    else run :: slugRuns [] cs

theorem isSlugRun_of_mem_slugRuns (hrun : ∀ c ∈ run, isSlugChar c = true) {found : List Char}
    (h : found ∈ slugRuns run cs) : IsSlugRun found := by
  fun_induction slugRuns run cs with
  | case1 run hempty => simp at h
  | case2 run hempty =>
    rw [List.mem_singleton] at h
    subst h
    exact ⟨by simpa using hempty, hrun⟩
  | case3 run c cs hc ih =>
    refine ih (fun d hd => ?_) h
    rcases List.mem_append.1 hd with hd | hd
    · exact hrun d hd
    · rwa [List.mem_singleton.1 hd]
  | case4 run c cs hc hempty ih => exact ih (List.forall_mem_nil _) h
  | case5 run c cs hc hempty ih =>
    rcases List.mem_cons.1 h with rfl | h
    · exact ⟨by simpa using hempty, hrun⟩
    · exact ih (List.forall_mem_nil _) h

/-- A run goes on with the characters of runs that follow it. -/
theorem slugRuns_append (h : ∀ c ∈ cs, isSlugChar c = true) (run rest : List Char) :
    slugRuns run (cs ++ rest) = slugRuns (run ++ cs) rest := by
  induction cs generalizing run with
  | nil => simp
  | cons c cs ih =>
    rw [List.forall_mem_cons] at h
    rw [List.cons_append, slugRuns, if_pos h.1, ih h.2, List.append_assoc]
    rfl

/-- Runs with a hyphen between each two are the runs in what they make together. -/
theorem slugRuns_intercalate (h : ∀ run ∈ runs, IsSlugRun run) :
    slugRuns [] (['-'].intercalate runs) = runs := by
  induction runs with
  | nil => rfl
  | cons run runs ih =>
    rw [List.forall_mem_cons] at h
    have filled : ¬run.isEmpty = true := by simpa using h.1.1
    cases runs with
    | nil =>
      have alone := slugRuns_append h.1.2 [] []
      rw [List.append_nil] at alone
      rw [List.intercalate_singleton, alone, List.nil_append, slugRuns, if_neg filled]
    | cons next runs =>
      rw [List.intercalate_cons_cons, List.append_assoc, slugRuns_append h.1.2, List.nil_append,
        List.singleton_append, slugRuns, if_neg (by decide), if_neg filled, ih h.2]

/-- What stands in runs with hyphens between them. -/
theorem mem_intercalate (h : c ∈ ['-'].intercalate runs) : c = '-' ∨ ∃ run ∈ runs, c ∈ run := by
  induction runs with
  | nil => simp at h
  | cons run runs ih =>
    cases runs with
    | nil => exact .inr ⟨run, List.mem_cons_self, by simpa using h⟩
    | cons next runs =>
      rw [List.intercalate_cons_cons, List.append_assoc, List.mem_append, List.mem_append] at h
      rcases h with h | h | h
      · exact .inr ⟨run, List.mem_cons_self, h⟩
      · exact .inl (List.mem_singleton.1 h)
      · exact (ih h).imp_right fun ⟨r, hr, hc⟩ => ⟨r, List.mem_cons_of_mem _ hr, hc⟩

/-! ## Slugs as runs -/

/-- From the end of two lists, the first one is only reached when the second one is used up. -/
theorem Text.dropEndWhile_append_eq (p : Char → Bool) (xs ys : List Char) :
    dropEndWhile p (xs ++ ys) =
      if dropEndWhile p ys = [] then dropEndWhile p xs else xs ++ dropEndWhile p ys := by
  simp only [dropEndWhile, List.reverse_append, List.dropWhile_append, List.reverse_eq_nil_iff,
    List.isEmpty_iff]
  split <;> simp

/-- Runs have no hyphens. -/
theorem not_hyphen (h : isSlugChar c = true) : (c == '-') = false := by
  rw [beq_eq_false_iff_ne]
  rintro rfl
  exact absurd h (by decide)

/-- Without hyphens at its beginning, what is hyphenated is as if it had begun after another one. -/
theorem dropWhile_hyphenated (inRun : Bool) (cs : List Char) :
    (hyphenated inRun cs).dropWhile (· == '-') = hyphenated true cs := by
  induction cs generalizing inRun with
  | nil => rfl
  | cons c cs ih =>
    by_cases hc : isSlugChar c = true
    · rw [hyphenated, hyphenated, if_pos hc, if_pos hc]
      exact List.dropWhile_cons_of_neg (by simp [not_hyphen hc])
    · rw [hyphenated, hyphenated, if_neg hc, if_neg hc, if_pos rfl]
      cases inRun with
      | true => exact ih true
      | false => exact ih true

/-- A run makes a text that is not empty, whatever follows. -/
theorem intercalate_ne_nil (h : IsSlugRun run) (runs : List (List Char)) :
    ['-'].intercalate (run :: runs) ≠ [] := by
  cases runs with
  | nil => simpa using h.1
  | cons next runs => simp

/-- With the run under way before it, what is hyphenated is made of the runs, and hyphens at its
    end. -/
theorem append_dropEndWhile_hyphenated (hrun : ∀ c ∈ run, isSlugChar c = true) (cs : List Char) :
    run ++ dropEndWhile (· == '-') (hyphenated run.isEmpty cs) =
      ['-'].intercalate (slugRuns run cs) := by
  -- A run of other characters counts as under way, at the beginning as well, exactly while no run
  -- of these is: this is what the induction carries along.
  induction cs generalizing run with
  | nil =>
    rw [hyphenated, slugRuns]
    by_cases hempty : run = []
    · simp [hempty, dropEndWhile]
    · simp [hempty, dropEndWhile]
  | cons c cs ih =>
    by_cases hc : isSlugChar c = true
    · have longer : ∀ d ∈ run ++ [c], isSlugChar d = true := by
        rw [List.forall_mem_append, List.forall_mem_singleton]
        exact ⟨hrun, hc⟩
      have underWay : (run ++ [c]).isEmpty = false := by simp
      have kept := dropEndWhile_append_cons (p := (· == '-')) (not_hyphen hc) []
        (hyphenated false cs)
      rw [hyphenated, if_pos hc, slugRuns, if_pos hc, ← ih longer, underWay,
        ← List.nil_append (c :: _), kept]
      simp
    · have joined := ih (List.forall_mem_nil _)
      rw [List.nil_append, List.isEmpty_nil] at joined
      rw [hyphenated, if_neg hc, slugRuns, if_neg hc]
      by_cases hempty : run = []
      · simp [hempty, joined]
      · have filled : ¬run.isEmpty = true := by simpa using hempty
        -- The hyphen after the run is dropped if it is not followed by another run.
        rw [if_neg filled, if_neg filled, ← List.singleton_append, dropEndWhile_append_eq, joined]
        cases hruns : slugRuns [] cs with
        | nil => simp [dropEndWhile]
        | cons next runs =>
          have hnext : IsSlugRun next :=
            isSlugRun_of_mem_slugRuns (List.forall_mem_nil _) (hruns ▸ List.mem_cons_self)
          rw [if_neg (intercalate_ne_nil hnext runs), List.intercalate_cons_cons,
            List.append_assoc]

/-- The slug of a text is made of the runs in it. -/
theorem slugify_eq (s : String) : slugify s =
    String.ofList (['-'].intercalate (slugRuns [] (lower (trim s)).toList)) := by
  have joined := append_dropEndWhile_hyphenated (List.forall_mem_nil _) (lower (trim s)).toList
  rw [List.nil_append, List.isEmpty_nil] at joined
  rw [slugify, trimWhile, dropWhile_hyphenated, joined]

/-- A text has the form of a slug: runs with one hyphen between each two. -/
def IsSlug (s : String) : Prop :=
  ∃ runs : List (List Char), (∀ run ∈ runs, IsSlugRun run) ∧ s.toList = ['-'].intercalate runs

theorem isSlug_slugify (s : String) : IsSlug (slugify s) := by
  refine ⟨slugRuns [] (lower (trim s)).toList,
    fun run hrun => isSlugRun_of_mem_slugRuns (List.forall_mem_nil _) hrun, ?_⟩
  rw [slugify_eq, String.toList_ofList]

/-- In a text of this form there is nothing to trim or to write in lower case. -/
theorem IsSlug.isKeyPart (h : IsSlug s) : ∀ c ∈ s.toList, isKeyPart c = true := by
  obtain ⟨runs, hruns, hs⟩ := h
  intro c hc
  rw [hs] at hc
  rcases mem_intercalate hc with rfl | ⟨run, hrun, hc⟩
  · decide
  · rw [Catalog.isKeyPart, isSlugPart, (hruns run hrun).2 c hc, Bool.true_or, Bool.true_or]

/-- The texts that are their own slugs are those that have the form of one. -/
theorem slugify_eq_self_iff : slugify s = s ↔ IsSlug s := by
  constructor
  · intro h
    rw [← h]
    exact isSlug_slugify s
  · intro h
    obtain ⟨runs, hruns, hs⟩ := id h
    rw [slugify_eq, trim_of_isKeyPart h.isKeyPart, lower_of_isKeyPart h.isKeyPart, hs,
      slugRuns_intercalate hruns, ← hs, String.ofList_toList]

/-- The slug of a slug is this slug. -/
theorem slugify_slugify (s : String) : slugify (slugify s) = slugify s :=
  slugify_eq_self_iff.2 (isSlug_slugify s)

instance (s : String) : Decidable (IsSlug s) := decidable_of_iff _ slugify_eq_self_iff

example : IsSlug "sci-fi-2" ∧ ¬IsSlug "sci--fi" ∧ ¬IsSlug "-fi" := by decide

/-! ## Kinds -/

namespace Record

variable {p : Policy} {kind : String}

/-- A text that is allowed as a kind is accepted if it has the form of a slug and is not empty. -/
theorem checkKind_eq_ok_iff (h : p.allowsKind kind = true) {found : String} :
    checkKind p (.text kind) = .ok found ↔ found = kind ∧ kind ≠ "" ∧ IsSlug kind := by
  rw [checkKind_text h]
  by_cases hslug : IsSlug kind
  · -- There are no blanks in it, so that it is empty if it has blanks only.
    rw [trim_of_isKeyPart hslug.isKeyPart, if_pos (slugify_eq_self_iff.2 hslug)]
    by_cases hempty : kind = ""
    · simp [hempty, refuse]
    · simp [hempty, hslug, eq_comm]
  · rw [if_neg (mt slugify_eq_self_iff.1 hslug)]
    split <;> simp [hslug, refuse]

/-- The slug of every text is its own slug and has the form of one. So where all kinds are allowed,
    the texts that are accepted as kinds are those of this form that are not empty; another one is
    refused for having blanks only, or with a slug to use instead, which is empty or accepted. -/
theorem slugs_canonical :
    (∀ s, slugify (slugify s) = slugify s ∧ IsSlug (slugify s)) ∧
    ∀ p : Policy, p.kinds = [] → ∀ kind,
      (∀ found, checkKind p (.text kind) = .ok found ↔ found = kind ∧ kind ≠ "" ∧ IsSlug kind) ∧
      ∀ e, checkKind p (.text kind) = .error e →
        trim kind = "" ∧ e = .refused (.kindNotText p.family) ∨
        ∃ slug, slug = slugify kind ∧ e = .refused (.kindNotSlug p.family slug) ∧
          (slug = "" ∨ checkKind p (.text slug) = .ok slug) := by
  refine ⟨fun s => ⟨slugify_slugify s, isSlug_slugify s⟩, fun p h kind => ?_⟩
  have allowed (kind : String) : p.allowsKind kind = true := by
    rw [Policy.allowsKind, h, List.isEmpty_nil, Bool.true_or]
  refine ⟨fun found => checkKind_eq_ok_iff (allowed kind), fun e he => ?_⟩
  rw [checkKind_text (allowed kind)] at he
  split at he
  · next hblank =>
    cases he
    exact .inl ⟨hblank, rfl⟩
  · split at he
    · cases he
    · cases he
      refine .inr ⟨slugify kind, rfl, rfl, ?_⟩
      by_cases hempty : slugify kind = ""
      · exact .inl hempty
      · exact .inr ((checkKind_eq_ok_iff (allowed _)).2 ⟨rfl, hempty, isSlug_slugify kind⟩)

/-- A letter that is one of ASCII in lower case only, and a run of others: the slug that is
    suggested is accepted. -/
theorem slugs_canonical_kelvin :
    (Policy.standard .entities).kinds = [] ∧
      checkKind (Policy.standard .entities) (.text " \u212Aelvin & II") =
        .error (.refused (.kindNotSlug .entities "kelvin-ii")) ∧
      checkKind (Policy.standard .entities) (.text "kelvin-ii") = .ok "kelvin-ii" := by
  have slug : slugify " \u212Aelvin & II" = "kelvin-ii" := by decide
  have refused : checkKind (Policy.standard .entities) (.text " \u212Aelvin & II") =
      .error (.refused (.kindNotSlug .entities "kelvin-ii")) := by
    rw [checkKind_text rfl, if_neg (by decide), slug, if_neg (by decide)]
    rfl
  refine ⟨rfl, refused, ?_⟩
  obtain ⟨-, hkind⟩ | ⟨_, rfl, -, hempty | accepted⟩ :=
    (slugs_canonical.2 (Policy.standard .entities) rfl " \u212Aelvin & II").2 _ refused
  · cases hkind
  · rw [slug] at hempty
    exact absurd hempty (by decide)
  · rwa [slug] at accepted

end Record

end Catalog
