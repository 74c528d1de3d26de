import Catalog.Proofs.Plan.Included
import Catalog.Proofs.Plan.Loading

/-!
# Stages that resolve, and single documents

A stage that looks up or includes works on a page at once. It gives what it gives for each document
of the page alone, which is what `lookedUp` and `included` say of one document (`resolve_page`).

Two things are not as one might expect. What a lookup places is not resolved by the includes of its
scope, since no family is known for it. And on a page where one id is true and another one the
number one, an include takes both for one id when it asks and when it hands out, but only one of
them when it selects; hence `IdsApart` (`resolved_otherwise`).
-/

namespace Catalog

variable {ctx : Context} {store : Store} {page out : List Document}

/-- What a stage that looks up or includes makes of one document. -/
def Stage.resolved (ctx : Context) (store : Store) : Stage → Document → Outcome Document
  | .lookup ls => lookedUp ctx store ls
  | .includes f is => included ctx store f is
  | _ => .ok

/-- A stage looks up, or it includes and the ids of a page are apart. -/
def Stage.ResolvesApart (page : List Document) : Stage → Prop
  | .lookup _ => True
  | .includes _ _ => IdsApart page
  | _ => False

theorem Stage.ResolvesApart.singleton {stage : Stage} (h : stage.ResolvesApart page)
    {doc : Document} (hd : doc ∈ page) : stage.ResolvesApart [doc] := by
  cases stage with
  | lookup ls => trivial
  | includes f is =>
    exact IdsApart.subset h fun d hd' => List.mem_singleton.1 hd' ▸ hd
  | _ => cases h

/-- Resolving a page is resolving each of its documents. -/
theorem Stage.run_eq_mapM (hk : store.Keyed) {stage : Stage} (hs : stage.ResolvesApart page) :
    SameResult (stage.run ctx store page) (page.mapM (stage.resolved ctx store)) := by
  cases stage with
  | lookup ls => exact lookupAll_eq_mapM hk ls page
  | includes f is => exact includeAll_eq_mapM hk is hs
  | _ => cases hs

/-- Resolving a page of one document is resolving this one. -/
theorem Stage.run_singleton (hk : store.Keyed) {stage : Stage} {doc : Document}
    (hs : stage.ResolvesApart [doc]) :
    SameResult (stage.run ctx store [doc])
      (stage.resolved ctx store doc >>= fun doc' => .ok [doc']) :=
  (Stage.run_eq_mapM hk hs).trans (.of_eq (by rw [List.mapM_cons, List.mapM_nil]; rfl))

/-- A page is resolved document by document: the stage gives for it what it gives for each of its
    documents alone, and for one document this is what looking up, or including, means. -/
theorem resolve_page (hk : store.Keyed) {stage : Stage} (hs : stage.ResolvesApart page) :
    (stage.run ctx store page = .ok out ↔
      (page.mapM fun doc => stage.run ctx store [doc]) = .ok (out.map fun doc => [doc])) ∧
    ∀ doc ∈ page, ∀ doc', stage.run ctx store [doc] = .ok [doc'] ↔
      stage.resolved ctx store doc = .ok doc' := by
  constructor
  · have alone : SameResult (page.mapM fun doc => stage.run ctx store [doc])
        (page.mapM (stage.resolved ctx store) >>= fun out => .ok (out.map fun doc => [doc])) := by
      refine .trans (.mapM fun doc hd => Stage.run_singleton hk (hs.singleton hd)) ?_
      refine (SameResult.mapM_bind _ _ page).trans ((SameResult.refl _).bind fun out _ => .of_eq ?_)
      exact SameResult.mapM_of_forall fun _ _ => rfl
    rw [Stage.run_eq_mapM hk hs out, alone, bind_eq_ok]
    constructor
    · intro h
      exact ⟨out, h, rfl⟩
    · rintro ⟨out', h, heq⟩
      have same : out' = out :=
        (List.map_inj_right fun _ _ h => (List.cons.inj h).1).1 (Except.ok.inj heq)
      exact same ▸ h
  · intro doc hd doc'
    rw [Stage.run_singleton hk (hs.singleton hd), bind_eq_ok]
    constructor
    · rintro ⟨d, h, heq⟩
      cases heq
      exact h
    · intro h
      exact ⟨doc', h, rfl⟩

/-! ## A reference and a reaction -/

/-- A text that is no reference, and the reference to the entity `b`. -/
def nothingAndB : Value := .array [.text "nothing", .text "tapp://localhost/entities/b"]

/-- A public entity that refers to something that is none, and to the entity `b`. -/
def referringEntity : Document := ("refs", nothingAndB) :: publicEntity "a"

/-- A public reaction to an entity with an id. -/
def publicReaction (entity : Value) : Document :=
  [("_id", .text "r"), ("_entityId", entity), ("_visibility", .text "public")]

/-- The referring entity, the entity it refers to, and a reaction to this one. -/
def reactedStore : Store where
  rows := [
    ⟨"GenericEntity", "a", referringEntity⟩,
    ⟨"GenericEntity", "b", publicEntity "b"⟩,
    ⟨"EntityReaction", "r", publicReaction (.text "b")⟩]

theorem keyed_reactedStore : reactedStore.Keyed where
  named := by
    simp only [reactedStore, List.forall_mem_cons]
    exact ⟨rfl, rfl, rfl, List.forall_mem_nil _⟩
  unique := by simp [reactedStore]

/-- An include of reactions that asks for nothing more. -/
def reactionsOnly : Scoped Filter := ⟨"reactions", {}⟩

theorem idsApart_reactedStore : IdsApart [referringEntity, publicEntity "b"] where
  plain := by simp [referringEntity, publicEntity, Document.get?]
  kinds := by simp [referringEntity, publicEntity, Document.get?, Value.isBool]

theorem pathSteps_refs : pathSteps "refs" = ["refs"] := by decide

/-- A lookup on a page whose only slot is that of the referring entity puts the entity `b` in it. -/
theorem lookup_refs {is : List (Scoped Filter)} {page docs : List Document}
    (hslots : page.flatMap (Document.slots "refs") = [nothingAndB])
    (hdocs : Document.refillAll "refs" [some (.array [.object (publicEntity "b")])] page = docs) :
    (Stage.lookup [⟨"refs", { includes := is }⟩]).run nobody reactedStore page = .ok docs := by
  have refs : slotReferences nothingAndB = [⟨.entities, "b"⟩] := by decide
  have filled : lookupSlots nobody reactedStore "refs" { includes := is } page =
      .ok [(nothingAndB, [(⟨.entities, "b"⟩, publicEntity "b")])] := by
    rw [lookupSlots, hslots]
    simp only [List.flatMap_singleton, List.map_cons, List.map_nil, refs]
    rfl
  rw [Stage.run, lookupAll, lookupOne, lookupWith, filled]
  exact congrArg Except.ok hdocs

/-- The reference is looked up, and the text that is none is dropped; the reaction comes with the
    entity that it is about, and none with the other one. -/
theorem resolve_page_reacted :
    (reactedStore.Keyed ∧ IdsApart [referringEntity, publicEntity "b"]) ∧
    ([referringEntity, publicEntity "b"].mapM fun doc =>
      (Stage.lookup [⟨"refs", {}⟩]).run nobody reactedStore [doc]) =
        .ok [[("refs", .array [.object (publicEntity "b")]) :: publicEntity "a"],
          [publicEntity "b"]] ∧
    ([referringEntity, publicEntity "b"].mapM fun doc =>
      (Stage.includes .entities [reactionsOnly]).run nobody reactedStore [doc]) =
        .ok [[referringEntity ++ [("reactions", .array [])]], [publicEntity "b" ++
          [("reactions", .array [.object (publicReaction (.text "b"))])]]] := by
  have lookup : (Stage.lookup [⟨"refs", {}⟩]).run nobody reactedStore
      [referringEntity, publicEntity "b"] =
        .ok [("refs", .array [.object (publicEntity "b")]) :: publicEntity "a",
          publicEntity "b"] := by
    refine lookup_refs ?_ ?_
    · rw [List.flatMap_cons, List.flatMap_singleton, Document.slots, Document.slots, pathSteps_refs]
      rfl
    · simp only [Document.refillAll, Document.refill, pathSteps_refs]
      rfl
  have includes : (Stage.includes .entities [reactionsOnly]).run nobody reactedStore
      [referringEntity, publicEntity "b"] =
        .ok [referringEntity ++ [("reactions", .array [])], publicEntity "b" ++
          [("reactions", .array [.object (publicReaction (.text "b"))])]] := by rfl
  have looksUp : (Stage.lookup [⟨"refs", {}⟩]).ResolvesApart
      [referringEntity, publicEntity "b"] := trivial
  have apart : (Stage.includes .entities [reactionsOnly]).ResolvesApart
      [referringEntity, publicEntity "b"] := idsApart_reactedStore
  exact ⟨⟨keyed_reactedStore, idsApart_reactedStore⟩,
    (resolve_page keyed_reactedStore looksUp).1.1 lookup,
    (resolve_page keyed_reactedStore apart).1.1 includes⟩

/-! ## What is not resolved one by one -/

/-- The number one, not as a whole number: it is written with a decimal point. -/
def one : Value := .number (.double (.ofDecimal false 1 0))

/-- A public entity with any id. -/
def entityNamed (id : Value) : Document := [("_id", id), ("_visibility", .text "public")]

/-- Two entities whose ids are true and one, and a reaction to the latter. -/
def mixedStore : Store where
  rows := [
    ⟨"GenericEntity", "1", entityNamed (.bool true)⟩,
    ⟨"GenericEntity", "1.0", entityNamed one⟩,
    ⟨"EntityReaction", "r", publicReaction one⟩]

theorem keyed_mixedStore : mixedStore.Keyed where
  named := by
    simp only [mixedStore, List.forall_mem_cons]
    exact ⟨rfl, by decide +kernel, rfl, List.forall_mem_nil _⟩
  unique := by simp [mixedStore]

/-- How many reactions are included with each document. -/
def reactionCounts (x : Outcome (List Document)) : Option (List Nat) :=
  x.toOption.map fun docs => docs.map fun d =>
    ((Value.orNull (d.get? "reactions")).elements?.getD []).length

/-- Of two entities whose ids are true and one, none has a reaction on their common page, but one
    of them has one alone; and what a lookup places comes without the reactions that its scope
    includes, although the same include finds one for the record alone. -/
theorem resolved_otherwise :
    (mixedStore.Keyed ∧
      reactionCounts ((Stage.includes .entities [reactionsOnly]).run nobody mixedStore
        [entityNamed (.bool true), entityNamed one]) = some [0, 0] ∧
      reactionCounts ((Stage.includes .entities [reactionsOnly]).run nobody mixedStore
        [entityNamed (.bool true)]) = some [0] ∧
      reactionCounts ((Stage.includes .entities [reactionsOnly]).run nobody mixedStore
        [entityNamed one]) = some [1]) ∧
    reactedStore.Keyed ∧
      (Stage.lookup [⟨"refs", { includes := [reactionsOnly] }⟩]).run nobody reactedStore
        [referringEntity] =
          .ok [("refs", .array [.object (publicEntity "b")]) :: publicEntity "a"] ∧
      (Stage.includes .entities [reactionsOnly]).run nobody reactedStore [publicEntity "b"] =
        .ok [publicEntity "b" ++
          [("reactions", .array [.object (publicReaction (.text "b"))])]] := by
  have lookup : (Stage.lookup [⟨"refs", { includes := [reactionsOnly] }⟩]).run nobody reactedStore
      [referringEntity] =
        .ok [("refs", .array [.object (publicEntity "b")]) :: publicEntity "a"] := by
    refine lookup_refs ?_ ?_
    · rw [List.flatMap_singleton, Document.slots, pathSteps_refs]
      rfl
    · simp only [Document.refillAll, Document.refill, pathSteps_refs]
      rfl
  exact ⟨⟨keyed_mixedStore, by decide +kernel, by decide +kernel, by decide +kernel⟩,
    keyed_reactedStore, lookup, by rfl⟩

end Catalog
