import Catalog.Proofs.Number.Numeral
import Catalog.Proofs.Outcome
import Catalog.Query.FilterReader
import Catalog.Record.Lifecycle

/-!
# The parts of a filter

A filter is read part by part: its condition, its page, what it looks up and includes, its order,
fields and set. Each part is read from the members under its own names only (`Filter.Reads`,
`Filter.readLevels_eq_ok`). So two filters that differ in their pages are read alike but for these
(`Filter.Reads.of_agree`, `Filter.Reads.unique`).

The bounds of a page that are given as whole numbers are read as these numbers (`readBound_int`).
-/

namespace Catalog

open Text

/-! ## Bounds of a page -/

/-- A bound that is given as a whole number is read as this number. -/
theorem readBound_int {bound : PageBound} {n m : Nat} (h : readBound bound (.int n) = .ok m) :
    m = n := by
  have said : (Value.int n).display = toString (n : Int) := rfl
  rw [readBound, said, Numeral.trim_toString, Numeral.int?_toString] at h
  · split at h
    · next hz =>
      cases h
      split at hz
      · exact (Int.ofNat.inj (Option.some.inj hz)).symm
      · cases hz
    · cases h
    · cases h
  · exact fun _ h => by cases h

/-- Whether a limit can be read does not depend on what is allowed. -/
theorem exists_readLimit {v : Value} {default maximum limit : Option Int}
    (h : readLimit v default maximum = .ok limit) (default' maximum' : Option Int) :
    ∃ limit', readLimit v default' maximum' = .ok limit' := by
  rw [readLimit] at h ⊢
  split at h
  · next hunsaid =>
    rw [if_pos hunsaid]
    exact ⟨_, rfl⟩
  · next hsays =>
    obtain ⟨said, hsaid, -⟩ := bind_eq_ok.1 h
    rw [if_neg hsays]
    exact ⟨_, bind_eq_ok.2 ⟨said, hsaid, rfl⟩⟩

theorem not_isUnsaid_int (n : Nat) : ¬isUnsaid (.int n) = true := Bool.false_ne_true

theorem readLimit_eq (v : Value) (maximum : Int) :
    readLimit v (some maximum) (some maximum) =
      (if isUnsaid v then pure 0 else readBound .limit v) >>= fun said =>
        .ok (some (if said = 0 ∨ (said : Int) > maximum then maximum else said)) := by
  have limit (said : Nat) : (if said = 0 then some maximum else some (said : Int)) =
      some (if said = 0 then maximum else (said : Int)) := (apply_ite some _ _ _).symm
  have capped (said : Nat) :
      (if (if said = 0 then maximum else (said : Int)) > maximum then maximum
        else if said = 0 then maximum else (said : Int)) =
      if said = 0 ∨ (said : Int) > maximum then maximum else (said : Int) := by
    by_cases hsaid : said = 0
    · simp [hsaid]
    · simp [hsaid]
  simp only [readLimit, limit, capped]
  split <;> rfl

/-- A limit that is given as a whole number, within what is allowed, is read as this number. -/
theorem readLimit_int {n : Nat} {maximum : Int} {limit : Option Int}
    (h : readLimit (.int n) (some maximum) (some maximum) = .ok limit) (hpos : 1 ≤ n)
    (hn : (n : Int) ≤ maximum) : limit = some (n : Int) := by
  rw [readLimit_eq, if_neg (not_isUnsaid_int n)] at h
  obtain ⟨said, hsaid, h⟩ := bind_eq_ok.1 h
  cases readBound_int hsaid
  rw [if_neg (by omega)] at h
  exact (Except.ok.inj h).symm

theorem readSkip_int {n m : Nat} (h : readSkip (.int n) = .ok m) : m = n := by
  rw [readSkip, if_neg (not_isUnsaid_int n)] at h
  exact readBound_int h

/-- Whatever limit is given, what is read is no more than allowed. -/
theorem readLimit_le {v : Value} {maximum : Int} {limit : Option Int}
    (h : readLimit v (some maximum) (some maximum) = .ok limit) (hpos : 0 ≤ maximum) :
    ∃ n : Int, limit = some n ∧ 0 ≤ n ∧ n ≤ maximum := by
  rw [readLimit_eq] at h
  obtain ⟨said, -, h⟩ := bind_eq_ok.1 h
  refine ⟨_, (Except.ok.inj h).symm, ?_⟩
  split <;> omega

/-! ## Parts -/

namespace Filter

/-- What the condition of a filter is read as. -/
def readCondition (v : Value) : Outcome Condition :=
  if v.isBlank then .ok .always else Condition.read v

/-- The parts of a filter other than its page are read from some members, where filters may be
    nested in it to some depth. -/
structure Reads (bounds : FilterBounds) (levels : Nat) (members : Document) (g : Filter) :
    Prop where
  condition : readCondition (members.field "where") = .ok g.condition
  lookups : (listOf (members.field "lookup")).mapM
    (readLookup (readLevels bounds none none levels)) = .ok g.lookups
  includes : (listOf (members.field "include")).mapM
    (readInclude (readLevels bounds none none levels)) = .ok g.includes
  order : readOrder (members.field "order") = .ok g.order
  fields : readFields (members.field "fields") = .ok g.fields
  set : SetExpr.read (members.field "set") = .ok g.set

/-- What a filter says of the number of records to leave out first. -/
def skipOf (members : Document) : Value :=
  Value.orNull ((members.get? "skip").or (members.get? "offset"))

variable {bounds : FilterBounds} {default maximum : Option Int} {levels : Nat}
  {members : Document} {g g' : Filter}

theorem readLevels_object :
    readLevels bounds default maximum (levels + 1) (.object members) = (do
      let condition ← readCondition (members.field "where")
      let limit ← readLimit (members.field "limit") default maximum
      let skip ← readSkip (skipOf members)
      let readScope := readLevels bounds none none levels
      let lookups ← (listOf (members.field "lookup")).mapM (readLookup readScope)
      let includes ← (listOf (members.field "include")).mapM (readInclude readScope)
      let order ← readOrder (members.field "order")
      let fields ← readFields (members.field "fields")
      let set ← SetExpr.read (members.field "set")
      return { condition, order, limit, skip, fields, lookups, includes, set }) := by
  rw [readLevels, readCondition]
  change (if (members.field "where").isBlank then _ else _ : Outcome Filter) =
    (if (members.field "where").isBlank then _ else _) >>= _
  split <;> rfl

/-- A filter is read part by part. -/
theorem readLevels_eq_ok :
    readLevels bounds default maximum (levels + 1) (.object members) = .ok g ↔
      Reads bounds levels members g ∧
        readLimit (members.field "limit") default maximum = .ok g.limit ∧
        readSkip (skipOf members) = .ok g.skip := by
  rw [readLevels_object]
  constructor
  · intro h
    obtain ⟨condition, hcondition, h⟩ := bind_eq_ok.1 h
    obtain ⟨limit, hlimit, h⟩ := bind_eq_ok.1 h
    obtain ⟨skip, hskip, h⟩ := bind_eq_ok.1 h
    obtain ⟨lookups, hlookups, h⟩ := bind_eq_ok.1 h
    obtain ⟨includes, hincludes, h⟩ := bind_eq_ok.1 h
    obtain ⟨order, horder, h⟩ := bind_eq_ok.1 h
    obtain ⟨fields, hfields, h⟩ := bind_eq_ok.1 h
    obtain ⟨set, hset, h⟩ := bind_eq_ok.1 h
    cases h
    exact ⟨⟨hcondition, hlookups, hincludes, horder, hfields, hset⟩, hlimit, hskip⟩
  · rintro ⟨h, hlimit, hskip⟩
    exact bind_eq_ok.2 ⟨_, h.condition, bind_eq_ok.2 ⟨_, hlimit, bind_eq_ok.2 ⟨_, hskip,
      bind_eq_ok.2 ⟨_, h.lookups, bind_eq_ok.2 ⟨_, h.includes, bind_eq_ok.2 ⟨_, h.order,
      bind_eq_ok.2 ⟨_, h.fields, bind_eq_ok.2 ⟨_, h.set, by cases g; rfl⟩⟩⟩⟩⟩⟩⟩⟩

/-- A filter is an object, or is read as one, and may be nested to no depth at all. -/
theorem exists_of_readLevels {v : Value}
    (h : readLevels bounds default maximum levels v = .ok g) :
    ∃ n members, levels = n + 1 ∧ loadFilter v = .ok members ∧
      readLevels bounds default maximum (n + 1) (.object members) = .ok g := by
  cases levels with
  | zero =>
    obtain ⟨_, -, h⟩ := bind_eq_ok.1 h
    cases h
  | succ n =>
    obtain ⟨members, hmembers, h⟩ := bind_eq_ok.1 h
    exact ⟨n, members, rfl, hmembers, h⟩

/-- Of the bounds only the depth counts for what is nested in a filter. -/
theorem readLevels_congr {bounds' : FilterBounds} (hdepth : bounds'.depth = bounds.depth) :
    readLevels bounds' default maximum levels = readLevels bounds default maximum levels := by
  induction levels generalizing default maximum with
  | zero =>
    funext v
    rw [readLevels, readLevels, hdepth]
  | succ levels ih =>
    funext v
    simp only [readLevels, ih]

theorem Reads.congr {bounds' : FilterBounds} (h : Reads bounds levels members g)
    (hdepth : bounds'.depth = bounds.depth) : Reads bounds' levels members g where
  condition := h.condition
  lookups := readLevels_congr hdepth ▸ h.lookups
  includes := readLevels_congr hdepth ▸ h.includes
  order := h.order
  fields := h.fields
  set := h.set

theorem Reads.withLimit (h : Reads bounds levels members g) (limit : Option Int) :
    Reads bounds levels members { g with limit } where
  condition := h.condition
  lookups := h.lookups
  includes := h.includes
  order := h.order
  fields := h.fields
  set := h.set

/-- The parts other than the page are not read from what says the page. -/
theorem Reads.of_agree {members' : Document} (h : Reads bounds levels members g)
    (hagree : ∀ key, key ≠ "limit" → key ≠ "skip" → members'.get? key = members.get? key) :
    Reads bounds levels members' g := by
  have field {key : String} (hl : key ≠ "limit") (hs : key ≠ "skip") :
      members'.field key = members.field key := congrArg Value.orNull (hagree key hl hs)
  constructor
  · rw [field (by decide) (by decide)]
    exact h.condition
  · rw [field (by decide) (by decide)]
    exact h.lookups
  · rw [field (by decide) (by decide)]
    exact h.includes
  · rw [field (by decide) (by decide)]
    exact h.order
  · rw [field (by decide) (by decide)]
    exact h.fields
  · rw [field (by decide) (by decide)]
    exact h.set

/-- Members are read as one filter only, but for the page. -/
theorem Reads.unique (h : Reads bounds levels members g) (h' : Reads bounds levels members g') :
    g' = { g with limit := g'.limit, skip := g'.skip } := by
  have parts := h.condition.symm.trans h'.condition
  have lookups := h.lookups.symm.trans h'.lookups
  have includes := h.includes.symm.trans h'.includes
  have order := h.order.symm.trans h'.order
  have fields := h.fields.symm.trans h'.fields
  have set := h.set.symm.trans h'.set
  cases g
  cases g'
  simp_all

end Filter

end Catalog
