import Catalog.Proofs.Query.Bracket
import Catalog.Proofs.Text.Percent
import Catalog.Rule.Scope

/-!
# What a record says in a scope

A template is cut at its own separators: into pairs at `&`, and each into a key and a value at the
first `=` (`Template.pairs`). Since the value of a record is percent-encoded where it stands in a
template, it separates nothing, and it is read back as it is. So the query that the template makes
for a record is read as the pairs of the template, filled in with what the record says in plain text
(`Template.pairs_render`).

If placeholders stand in values only, the keys are those of the template for every record. What the
query writes has then the same outline for all of them: a record says what the texts are and nothing
of where they stand.
-/

namespace Catalog

open Text

namespace Template

/-! ## The pairs of a template -/

/-- What a part stands for once it has been read: `+` for a blank, and a placeholder for the value
    itself. -/
def Part.plain (record : Value) : Part → List Char
  | .char c => [if c = '+' then ' ' else c]
  | .placeholder path => (valueText (Value.orNull (record.path? path))).toList

/-- The parts between the occurrences of one part, at least one list of them. -/
def cut (sep : Part) : List Part → List (List Part)
  | [] => [[]]
  | p :: ps => if p = sep then [] :: cut sep ps else (cut sep ps).modifyHead (p :: ·)

/-- A pair of a template, cut at the first `=`. -/
def pairOf (piece : List Part) : List Part × List Part :=
  (piece.takeWhile (· ≠ .char '='), (piece.dropWhile (· ≠ .char '=')).drop 1)

/-- The pairs of a template: keys and values. -/
def pairs (template : String) : List (List Part × List Part) :=
  ((cut (.char '&') (parts template)).filter fun piece => !piece.isEmpty).map pairOf

/-- What parts of a template say for a record, in plain text. -/
def fill (record : Value) (ps : List Part) : String :=
  String.ofList (ps.flatMap (Part.plain record))

/-- The pairs of a template with its placeholders filled in for a record, in plain text. -/
def filled (template : String) (record : Value) : List (String × String) :=
  (pairs template).map fun pair => (fill record pair.1, fill record pair.2)

/-- Whether a part is a character that stands for itself. -/
def Part.isChar : Part → Bool
  | .char _ => true
  | .placeholder _ => false

/-- Placeholders stand in the values of pairs only, not in the keys. -/
def ValuesOnly (template : String) : Prop :=
  ∀ pair ∈ pairs template, ∀ part ∈ pair.1, part.isChar = true

instance (template : String) : Decidable (ValuesOnly template) := by
  unfold ValuesOnly
  infer_instance

variable {record : Value}

/-! ## A value separates nothing -/

/-- The value of a record is written without separators. -/
theorem mem_render_placeholder {path : String} {c : Char}
    (h : c ∈ Part.render record (.placeholder path)) : c ≠ '&' ∧ c ≠ '=' ∧ c ≠ '+' := by
  rcases Percent.mem_encode h with rfl | h | h
  · decide
  · refine ⟨?_, ?_, ?_⟩ <;>
    · rintro rfl
      exact absurd h (by decide)
  · simp only [List.mem_cons, List.not_mem_nil, or_false] at h
    rcases h with rfl | rfl <;> decide

/-- A filled in template is cut where the template is. -/
theorem splitChars_flatMap_render (ps : List Part) :
    splitChars '&' (ps.flatMap (Part.render record)) =
      (cut (.char '&') ps).map fun piece => piece.flatMap (Part.render record) := by
  have head (p : Part) (pieces : List (List Part)) :
      (pieces.modifyHead (p :: ·)).map (fun piece => piece.flatMap (Part.render record)) =
        (pieces.map fun piece => piece.flatMap (Part.render record)).modifyHead
          (p.render record ++ ·) := by
    cases pieces with
    | nil => rfl
    | cons piece rest =>
      rw [List.modifyHead_cons, List.map_cons, List.flatMap_cons]
      rfl
  induction ps with
  | nil => rfl
  | cons p ps ih =>
    rw [List.flatMap_cons, cut]
    split
    · next hp =>
      subst hp
      rw [List.map_cons, ← ih]
      exact splitChars_append (List.not_mem_nil (a := '&')) _
    · next hp =>
      -- No other part is written with a separator.
      rw [head, ← ih]
      refine splitChars_append_of_not_mem (fun hmem => ?_) _
      cases p with
      | char c => exact hp (congrArg Part.char (List.mem_singleton.1 hmem).symm)
      | placeholder path => exact (mem_render_placeholder hmem).1 rfl

theorem mem_of_mem_cut {sep p : Part} {ps piece : List Part} (h : piece ∈ cut sep ps)
    (hp : p ∈ piece) : p ∈ ps := by
  induction ps generalizing piece with
  | nil =>
    cases List.mem_singleton.1 h
    exact hp
  | cons q ps ih =>
    rw [cut] at h
    split at h
    · rcases List.mem_cons.1 h with rfl | h
      · exact nomatch hp
      · exact List.mem_cons_of_mem _ (ih h hp)
    · cases hcut : cut sep ps with
      | nil =>
        rw [hcut] at h
        exact nomatch h
      | cons first rest =>
        rw [hcut, List.modifyHead_cons, List.mem_cons] at h
        rw [hcut] at ih
        rcases h with rfl | h
        · rcases List.mem_cons.1 hp with rfl | hp
          · exact List.mem_cons_self
          · exact List.mem_cons_of_mem _ (ih List.mem_cons_self hp)
        · exact List.mem_cons_of_mem _ (ih (List.mem_cons_of_mem _ h) hp)

/-! ## Keys and values -/

theorem render_ne_equals {p : Part} (hp : p ≠ .char '=') :
    ∀ c ∈ p.render record, c ≠ '=' := by
  intro c hc
  cases p with
  | char d =>
    rintro rfl
    exact hp (congrArg Part.char (List.mem_singleton.1 hc).symm)
  | placeholder path => exact (mem_render_placeholder hc).2.1

theorem takeWhile_flatMap_render (ps : List Part) :
    (ps.flatMap (Part.render record)).takeWhile (· ≠ '=') =
      (ps.takeWhile (· ≠ .char '=')).flatMap (Part.render record) := by
  induction ps with
  | nil => rfl
  | cons p ps ih =>
    rw [List.flatMap_cons]
    by_cases hp : p = .char '='
    · subst hp
      rfl
    · rw [List.takeWhile_append_of_pos fun c hc => decide_eq_true (render_ne_equals hp c hc), ih,
        List.takeWhile_cons_of_pos (by exact decide_eq_true hp), List.flatMap_cons]

theorem dropWhile_flatMap_render (ps : List Part) :
    ((ps.flatMap (Part.render record)).dropWhile (· ≠ '=')).drop 1 =
      ((ps.dropWhile (· ≠ .char '=')).drop 1).flatMap (Part.render record) := by
  induction ps with
  | nil => rfl
  | cons p ps ih =>
    rw [List.flatMap_cons]
    by_cases hp : p = .char '='
    · subst hp
      rfl
    · rw [List.dropWhile_append_of_pos fun c hc => decide_eq_true (render_ne_equals hp c hc), ih,
        List.dropWhile_cons_of_pos (by exact decide_eq_true hp)]

/-! ## Reading back -/

/-- The characters of a template stand for themselves, and the value of a record for itself. -/
theorem octets_flatMap_render {ps : List Part} (h : .char '%' ∉ ps) :
    Percent.octets ((ps.flatMap (Part.render record)).map fun c => if c = '+' then ' ' else c) =
      Utf8.encode (ps.flatMap (Part.plain record)) := by
  induction ps with
  | nil => rfl
  | cons p ps ih =>
    rw [List.mem_cons, not_or] at h
    rw [List.flatMap_cons, List.map_append, List.flatMap_cons, Utf8.encode, List.flatMap_append,
      ← Utf8.encode, ← Utf8.encode, ← ih h.2]
    cases p with
    | char c =>
      have hc : (if c = '+' then ' ' else c) ≠ '%' := by
        split
        · decide
        · rintro rfl
          exact h.1 rfl
      simp only [Part.render, Part.plain, List.map_cons, List.map_nil, List.singleton_append,
        Percent.octets_cons hc, Utf8.encode, List.flatMap_cons, List.flatMap_nil, List.append_nil]
    | placeholder path =>
      have same :
          (Part.render record (.placeholder path)).map (fun c => if c = '+' then ' ' else c) =
            Part.render record (.placeholder path) :=
        (List.map_congr_left fun c hc => if_neg (mem_render_placeholder hc).2.2).trans
          (List.map_id _)
      rw [same]
      exact Percent.octets_encode_append (by decide) _ _

/-- Parts of a template are read as what they say in plain text. -/
theorem plain_flatMap_render {ps : List Part} (h : .char '%' ∉ ps) :
    Bracket.plain (ps.flatMap (Part.render record)) = fill record ps := by
  rw [Bracket.plain, Percent.decode, octets_flatMap_render h, Utf8.decode_encode, fill]

theorem fill_chars {cs : List Char} (h : '+' ∉ cs) (record : Value) :
    fill record (cs.map .char) = String.ofList cs := by
  have same : cs.flatMap (fun c => [if c = '+' then ' ' else c]) = cs := by
    induction cs with
    | nil => rfl
    | cons c cs ih =>
      rw [List.mem_cons, not_or] at h
      rw [List.flatMap_cons, if_neg (Ne.symm h.1), ih h.2]
      rfl
  rw [fill, List.flatMap_map]
  exact congrArg String.ofList same

/-- A piece of a template says something for every record. -/
theorem flatMap_render_ne_nil {piece : List Part} (hpiece : piece ≠ [])
    (h : ∀ part ∈ (pairOf piece).1, part.isChar = true) :
    piece.flatMap (Part.render record) ≠ [] := by
  cases piece with
  | nil => exact absurd rfl hpiece
  | cons p ps =>
    intro hnil
    rw [List.flatMap_cons, List.append_eq_nil_iff] at hnil
    cases p with
    | char c => exact nomatch hnil.1
    | placeholder path => exact nomatch h (.placeholder path) List.mem_cons_self

/-- The query that a template makes for a record has the pairs of the template, with its
    placeholders filled in. -/
theorem pairs_render {template : String} (hplace : ValuesOnly template)
    (hliteral : .char '%' ∉ parts template) (record : Value) :
    Bracket.pairs (render template record) = filled template record := by
  -- Empty pieces are left out; the others have a key for every record, or its `=`.
  have kept : (cut (.char '&') (parts template)).filter
        ((fun part => !part.isEmpty) ∘ fun piece => piece.flatMap (Part.render record)) =
      (cut (.char '&') (parts template)).filter fun piece => !piece.isEmpty := by
    refine List.filter_congr fun piece hpiece => congrArg (!·) ?_
    cases piece with
    | nil => rfl
    | cons p ps =>
      have hpair : pairOf (p :: ps) ∈ pairs template :=
        List.mem_map_of_mem (List.mem_filter.2 ⟨hpiece, rfl⟩)
      exact List.isEmpty_eq_false_iff.2
        (flatMap_render_ne_nil (List.cons_ne_nil p ps) (hplace _ hpair))
  have clean {piece : List Part} (hpiece : piece ∈ cut (.char '&') (parts template))
      {part : List Part} (hpart : part ⊆ piece) :
      Bracket.plain (part.flatMap (Part.render record)) = fill record part :=
    plain_flatMap_render fun hmem => hliteral (mem_of_mem_cut hpiece (hpart hmem))
  rw [Bracket.pairs, render, String.toList_ofList, splitChars_flatMap_render, List.filter_map,
    kept, filled, pairs, List.map_map, List.map_map]
  refine List.map_congr_left fun piece hpiece => ?_
  have hpiece := (List.mem_filter.1 hpiece).1
  refine Prod.ext ?_ ?_
  · dsimp only [Function.comp_apply, pairOf]
    rw [takeWhile_flatMap_render]
    exact clean hpiece (List.takeWhile_sublist _).subset
  · dsimp only [Function.comp_apply, pairOf]
    rw [dropWhile_flatMap_render]
    exact clean hpiece ((List.drop_sublist _ _).trans (List.dropWhile_sublist _)).subset

end Template

end Catalog
