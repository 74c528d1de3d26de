import Catalog.Plan.Shape
import Catalog.Proofs.Query.Met
import Catalog.Proofs.Value.Path

/-!
# What projections show

Keeping names takes over what a document has at them into a new document, one name after the other
(`apply_keep`). Names of which none goes on from another are apart, so that taking one over leaves
alone what the others show: each name reads the same in what is shown as in the document, although
what is read through arrays is written into objects (`keep_exactly`).

Dropping names removes what is at them, as far as objects lead. Reading goes on through arrays, and
so a name that is dropped is still there exactly if it leads through an array that nothing drops
(`drop_exactly`).
-/

namespace Catalog

variable {doc shown : Document} {names : List String} {n m : String} {v : Value}

/-! ## Keeping names -/

/-- None of several names goes on from another one. -/
def NoneGoesOn (names : List String) : Prop := ∀ n ∈ names, ∀ m ∈ names, ¬GoesOn n m

instance (names : List String) : Decidable (NoneGoesOn names) :=
  inferInstanceAs (Decidable (∀ n ∈ names, ∀ m ∈ names, ¬GoesOn n m))

theorem NoneGoesOn.apart (h : NoneGoesOn names) (hn : n ∈ names) (hm : m ∈ names) (hne : n ≠ m) :
    Apart (pathSteps n) (pathSteps m) :=
  apart_pathSteps hne (h n hn m hm) (h m hm n hn)

namespace Document

/-- Writes into a document what another one has at a path. -/
def takeOver (doc shown : Document) (name : String) : Document :=
  match doc.path? name with
  | some v => shown.putPath name v
  | none => shown

theorem takeOver_of_some (h : doc.path? n = some v) (shown : Document) :
    doc.takeOver shown n = shown.putSteps v (pathSteps n) := by
  rw [takeOver, h]
  rfl

theorem takeOver_of_none (h : doc.path? n = none) (shown : Document) :
    doc.takeOver shown n = shown := by
  rw [takeOver, h]

/-- Taking over another name, or the same one again, leaves what a name shows. -/
theorem innerAt?_takeOver (h : NoneGoesOn names) (hn : n ∈ names) (hm : m ∈ names)
    (hv : doc.path? n = some v) (hshown : m = n ∨ shown.innerAt? n = some v) :
    (doc.takeOver shown m).innerAt? n = some v := by
  by_cases hmn : m = n
  · subst hmn
    rw [takeOver_of_some hv]
    exact inner?_putSteps (pathSteps_ne_nil m) shown v
  · have hshown := hshown.resolve_left hmn
    cases hu : doc.path? m with
    | none => rwa [takeOver_of_none hu]
    | some u =>
      rw [takeOver_of_some hu]
      exact inner?_putSteps_apart (h.apart hm hn hmn) hshown u

/-- Nothing comes up at a name that the document does not have. -/
theorem path?_takeOver_eq_none (h : NoneGoesOn names) (hn : n ∈ names) (hm : m ∈ names)
    (hv : doc.path? n = none) (hshown : shown.path? n = none) :
    (doc.takeOver shown m).path? n = none := by
  by_cases hmn : m = n
  · subst hmn
    rwa [takeOver_of_none hv]
  · cases hu : doc.path? m with
    | none => rwa [takeOver_of_none hu]
    | some u =>
      rw [takeOver_of_some hu]
      exact resolve_putSteps_apart (h.apart hm hn hmn) hshown u

theorem keys_takeOver {key : String} :
    key ∈ (doc.takeOver shown n).keys ↔
      doc.hasPath n = true ∧ (pathSteps n).head? = some key ∨ key ∈ shown.keys := by
  rw [hasPath]
  cases hv : doc.path? n with
  | none =>
    rw [takeOver_of_none hv]
    exact (or_iff_right fun h => by cases h.1).symm
  | some v =>
    rw [takeOver_of_some hv, keys_putSteps (pathSteps_ne_nil n)]
    exact or_congr_left (and_iff_right rfl).symm

/-- Taking over names one after the other leaves what a name shows, from when it is taken over. -/
theorem innerAt?_foldl_takeOver (h : NoneGoesOn names) (hn : n ∈ names)
    (hv : doc.path? n = some v) {rest : List String} (hrest : rest ⊆ names)
    (hshown : n ∈ rest ∨ shown.innerAt? n = some v) :
    (rest.foldl doc.takeOver shown).innerAt? n = some v := by
  induction rest generalizing shown with
  | nil => exact hshown.resolve_left List.not_mem_nil
  | cons m rest ih =>
    rw [List.cons_subset] at hrest
    rw [List.mem_cons, or_right_comm, eq_comm] at hshown
    exact ih hrest.2 (hshown.symm.imp_right (innerAt?_takeOver h hn hrest.1 hv))

theorem path?_foldl_takeOver_eq_none (h : NoneGoesOn names) (hn : n ∈ names)
    (hv : doc.path? n = none) {rest : List String} (hrest : rest ⊆ names)
    (hshown : shown.path? n = none) : (rest.foldl doc.takeOver shown).path? n = none := by
  induction rest generalizing shown with
  | nil => exact hshown
  | cons m rest ih =>
    rw [List.cons_subset] at hrest
    exact ih hrest.2 (path?_takeOver_eq_none h hn hrest.1 hv hshown)

/-- Takes over what a document has at several paths. -/
def takenOver (doc : Document) (names : List String) : Document := names.foldl doc.takeOver []

theorem path?_nil (n : String) : path? n [] = none := by
  obtain ⟨step, steps, hsteps⟩ := List.exists_cons_of_ne_nil (pathSteps_ne_nil n)
  rw [path?, Value.path?, hsteps, Value.resolve_cons]
  rfl

/-- A name that is taken over reads the same. -/
theorem path?_takenOver (h : NoneGoesOn names) (hn : n ∈ names) :
    (doc.takenOver names).path? n = doc.path? n := by
  cases hv : doc.path? n with
  | none => exact path?_foldl_takeOver_eq_none h hn hv (List.Subset.refl names) (path?_nil n)
  | some v =>
    exact Value.resolve_of_inner?
      (innerAt?_foldl_takeOver h hn hv (List.Subset.refl names) (.inl hn))

theorem keys_takenOver {key : String} :
    key ∈ (doc.takenOver names).keys ↔
      ∃ n ∈ names, doc.hasPath n = true ∧ (pathSteps n).head? = some key := by
  have run (shown : Document) : key ∈ (names.foldl doc.takeOver shown).keys ↔
      (∃ n ∈ names, doc.hasPath n = true ∧ (pathSteps n).head? = some key) ∨
        key ∈ shown.keys := by
    induction names generalizing shown with
    | nil => simp
    | cons n names ih =>
      rw [List.foldl_cons, ih, keys_takeOver]
      simp only [List.mem_cons, or_and_right, exists_or, exists_eq_left, or_left_comm, or_assoc]
  exact (run []).trans (or_iff_left List.not_mem_nil)

/-- What is taken over depends on what is there at the names, and on nothing else. -/
theorem takenOver_congr {doc' : Document} (h : ∀ n ∈ names, doc.path? n = doc'.path? n) :
    doc.takenOver names = doc'.takenOver names := by
  have run (shown : Document) :
      names.foldl doc.takeOver shown = names.foldl doc'.takeOver shown := by
    induction names generalizing shown with
    | nil => rfl
    | cons n names ih =>
      rw [List.forall_mem_cons] at h
      rw [List.foldl_cons, List.foldl_cons, ih h.2, takeOver, takeOver, h.1]
  exact run []

end Document

/-- Where a name goes on from no other one, keeping it takes it over and leaves what it is taken
    from. -/
theorem Projecting.keep_eq {p : Projecting} (h : NoneGoesOn names) (hn : n ∈ names)
    (hwhole : ∀ w ∈ p.whole, ∃ m ∈ names, w = pathSteps m) :
    (p.keep n).shown = p.source.takeOver p.shown n ∧ (p.keep n).source = p.source ∧
      ∀ w ∈ (p.keep n).whole, ∃ m ∈ names, w = pathSteps m := by
  have outside : (p.whole.any fun w =>
      w.length < (pathSteps n).length && w.isPrefixOf (pathSteps n)) = false := by
    rw [List.any_eq_false]
    intro w hw hinside
    rw [Bool.and_eq_true, decide_eq_true_iff, List.isPrefixOf_iff_prefix] at hinside
    obtain ⟨m, hm, rfl⟩ := hwhole w hw
    rcases pathSteps_prefix_iff.1 hinside.2 with rfl | hgoes
    · exact Nat.lt_irrefl _ hinside.1
    · exact h n hn m hm hgoes
  rw [keep]
  cases hv : p.source.path? n with
  | none => exact ⟨(Document.takeOver_of_none hv _).symm, rfl, hwhole⟩
  | some v =>
    refine ⟨(Document.takeOver_of_some hv _).symm, ?_, ?_⟩
    · simp only [outside]
      rfl
    · intro w hw
      cases v with
      | object members =>
        rcases List.mem_cons.1 hw with rfl | hw
        · exact ⟨n, hn, rfl⟩
        · exact hwhole w hw
      | _ => exact hwhole w hw

theorem pathSteps_id : pathSteps "_id" = ["_id"] := by decide

theorem Document.path?_id (doc : Document) : doc.path? "_id" = doc.get? "_id" :=
  path?_key (by decide) doc

/-- Keeping names is keeping the id first. -/
theorem Projection.apply_keep_eq_foldl (doc : Document) (names : List String) :
    (Projection.keep names).apply doc =
      (("_id" :: names).foldl Projecting.keep { shown := [], source := doc }).shown := by
  rw [apply, List.foldl_cons]
  refine congrArg (fun p => (names.foldl Projecting.keep p).shown) ?_
  rw [Projecting.keep, Document.path?_id]
  cases doc.get? "_id" with
  | none => rfl
  | some v =>
    rw [pathSteps_id]
    cases v <;> rfl

/-- Keeping names takes over the id and what is at them. -/
theorem Projection.apply_keep (h : NoneGoesOn ("_id" :: names)) (doc : Document) :
    (Projection.keep names).apply doc = doc.takenOver ("_id" :: names) := by
  have run (rest : List String) (hrest : rest ⊆ "_id" :: names) (p : Projecting)
      (hwhole : ∀ w ∈ p.whole, ∃ m ∈ "_id" :: names, w = pathSteps m) :
      (rest.foldl Projecting.keep p).shown = rest.foldl p.source.takeOver p.shown := by
    induction rest generalizing p with
    | nil => rfl
    | cons n rest ih =>
      rw [List.cons_subset] at hrest
      obtain ⟨hshown, hsource, hwhole⟩ := Projecting.keep_eq h hrest.1 hwhole
      rw [List.foldl_cons, ih hrest.2 _ hwhole, hsource, hshown, List.foldl_cons]
  rw [apply_keep_eq_foldl]
  exact run _ (List.Subset.refl _) _ (List.forall_mem_nil _)

/-- Where none of the names, and of these and the id, goes on from another, a document shows exactly
    what is to be kept: what is at the id and at each name, if it is there, as it reads in the
    document, under the keys that these begin with. Keeping the same again changes nothing. -/
theorem Projection.keep_exactly (doc : Document) (names : List String)
    (h : NoneGoesOn ("_id" :: names)) :
    (∀ n ∈ "_id" :: names, ((keep names).apply doc).path? n = doc.path? n) ∧
      (∀ key, key ∈ ((keep names).apply doc).keys ↔ key = "_id" ∧ doc.has "_id" = true ∨
        ∃ n ∈ names, doc.hasPath n = true ∧ (pathSteps n).head? = some key) ∧
      (keep names).apply ((keep names).apply doc) = (keep names).apply doc := by
  have reads : ∀ n ∈ "_id" :: names, (doc.takenOver ("_id" :: names)).path? n = doc.path? n :=
    fun n hn => Document.path?_takenOver h hn
  refine ⟨?_, fun key => ?_, ?_⟩
  · rwa [apply_keep h]
  · have id : doc.hasPath "_id" = doc.has "_id" := congrArg Option.isSome doc.path?_id
    rw [apply_keep h, Document.keys_takenOver]
    simp only [List.mem_cons, or_and_right, exists_or, exists_eq_left, id, pathSteps_id,
      List.head?_cons, Option.some.injEq]
    rw [and_comm, eq_comm]
  · rw [apply_keep h, apply_keep h]
    exact Document.takenOver_congr reads

/-- A record with an item in a list and a place. -/
def itemRecord : Document :=
  [("_id", .text "1"), ("items", .array [.object [("x", .int 1), ("y", .int 2)]]),
    ("place", .object [("x", .int 3), ("y", .int 4)])]

theorem pathSteps_items : pathSteps "items.x" = ["items", "x"] := by decide

theorem hasPath_items : itemRecord.hasPath "items.x" = true := by
  rw [Document.hasPath, Document.path?, Value.path?, pathSteps_items]
  rfl

/-- What the items have is shown as it reads, and what is not there is not shown. -/
theorem Projection.keep_exactly_items :
    NoneGoesOn ["_id", "items.x", "place.y", "price"] ∧ itemRecord.hasPath "items.x" = true ∧
      ((keep ["items.x", "place.y", "price"]).apply itemRecord).path? "items.x" =
        itemRecord.path? "items.x" ∧
      "price" ∉ ((keep ["items.x", "place.y", "price"]).apply itemRecord).keys := by
  have apart : NoneGoesOn ["_id", "items.x", "place.y", "price"] := by decide
  obtain ⟨reads, keys, -⟩ := keep_exactly itemRecord ["items.x", "place.y", "price"] apart
  refine ⟨apart, hasPath_items, reads "items.x" (by decide), ?_⟩
  rw [keys]
  rintro (⟨h, -⟩ | ⟨n, hn, hpath, hhead⟩)
  · exact absurd h (by decide)
  · -- Only the name itself begins with this key, and there is nothing at it.
    have begins : ∀ n ∈ ["items.x", "place.y", "price"], (pathSteps n).head? = some "price" →
        n = "price" := by decide
    rw [begins n hn hhead] at hpath
    cases hpath

/-! ## Dropping names -/

namespace Projection

theorem drop_cons (n : String) (names : List String) (doc : Document) :
    (drop (n :: names)).apply doc = (drop names).apply (doc.erasePath n) := rfl

theorem object_erasePath (n : String) (doc : Document) :
    Value.object (doc.erasePath n) = (Value.object doc).eraseSteps (pathSteps n) := rfl

/-- What is dropped is not led to by objects any more. -/
theorem inner?_drop_eq_none (hn : n ∈ names) (doc : Document) :
    (Value.object ((drop names).apply doc)).inner? (pathSteps n) = none := by
  have stays (names : List String) {doc : Document}
      (h : (Value.object doc).inner? (pathSteps n) = none) :
      (Value.object ((drop names).apply doc)).inner? (pathSteps n) = none := by
    induction names generalizing doc with
    | nil => exact h
    | cons m names ih => exact ih (Value.inner?_eraseSteps_eq_none (pathSteps_ne_nil m) h)
  induction names generalizing doc with
  | nil => exact absurd hn List.not_mem_nil
  | cons m names ih =>
    rw [drop_cons]
    rcases List.mem_cons.1 hn with rfl | hn
    · refine stays names ?_
      rw [object_erasePath, Value.inner?_eraseSteps (pathSteps_ne_nil n), if_pos List.prefix_rfl]
    · exact ih hn _

/-- Objects lead to an array after dropping exactly if they did before and no name begins the
    way. -/
theorem inner?_drop_array {steps : List String} {items : List Value} :
    (Value.object ((drop names).apply doc)).inner? steps = some (.array items) ↔
      (Value.object doc).inner? steps = some (.array items) ∧
        ∀ m ∈ names, ¬pathSteps m <+: steps := by
  induction names generalizing doc with
  | nil => exact (and_iff_left (List.forall_mem_nil _)).symm
  | cons m names ih =>
    rw [drop_cons, ih, object_erasePath, Value.inner?_eraseSteps_array (pathSteps_ne_nil m),
      List.forall_mem_cons, and_assoc]

theorem path?_drop_apart {path : String} (h : ∀ n ∈ names, Apart (pathSteps n) (pathSteps path))
    (doc : Document) : ((drop names).apply doc).path? path = doc.path? path := by
  induction names generalizing doc with
  | nil => rfl
  | cons m names ih =>
    rw [List.forall_mem_cons] at h
    rw [drop_cons, ih h.2]
    exact Value.resolve_eraseSteps_apart h.1 (.object doc)

/-- A path leads through an array of a document that stays when names are dropped: none of them is
    the path of this array, or of what it is in. -/
def LeadsThroughArray (doc : Document) (names : List String) (path : String) : Prop :=
  ∃ start items, GoesOn path start ∧ doc.innerAt? start = some (.array items) ∧
    ∀ m ∈ names, start ≠ m ∧ ¬GoesOn start m

/-- A name that is dropped is still there exactly if it was and leads through an array that stays:
    removing does not go into arrays, as reading does. A path that is none of the names, and neither
    goes on from one nor the other way round, reads the same. -/
theorem drop_exactly (doc : Document) (names : List String) :
    (∀ n ∈ names, ((drop names).apply doc).hasPath n = true ↔
      doc.hasPath n = true ∧ LeadsThroughArray doc names n) ∧
    ∀ path, (∀ n ∈ names, path ≠ n ∧ ¬GoesOn path n ∧ ¬GoesOn n path) →
      ((drop names).apply doc).path? path = doc.path? path := by
  refine ⟨fun n hn => ⟨fun h => ?_, ?_⟩, fun path h => ?_⟩
  · obtain ⟨w, hw⟩ := Option.isSome_iff_exists.1 h
    -- Objects alone do not lead there any more, so it is read through an array.
    rcases Value.resolve_cases hw with hinner | ⟨start, rest, items, hn', hrest, hstart, hitems⟩
    · rw [inner?_drop_eq_none hn] at hinner
      cases hinner
    · obtain ⟨hstart, hnames⟩ := inner?_drop_array.1 hstart
      have hne : start ≠ [] := by
        rintro rfl
        cases hstart
      obtain ⟨first, hgoes, rfl⟩ := exists_of_pathSteps_append hne hrest hn'
      refine ⟨?_, first, items, hgoes, hstart, fun m hm => ?_⟩
      · rw [Document.hasPath, Document.path?, Value.path?, hn', Value.resolve_append hstart, hitems]
        rfl
      · exact not_or.1 fun hm' => hnames m hm (pathSteps_prefix_iff.2 hm')
  · rintro ⟨h, start, items, hgoes, hstart, hnames⟩
    obtain ⟨rest, -, hn'⟩ := goesOn_iff.1 hgoes
    have left := inner?_drop_array.2 ⟨hstart, fun m hm hm' =>
      not_or.2 (hnames m hm) (pathSteps_prefix_iff.1 hm')⟩
    -- The array is the same after dropping, and from there on the path is read in it.
    rw [Document.hasPath, Document.path?, Value.path?, hn'] at h ⊢
    rwa [Value.resolve_append left, ← Value.resolve_append hstart]
  · refine path?_drop_apart (fun n hn => ?_) doc
    obtain ⟨hne, hgoes, hback⟩ := h n hn
    exact apart_pathSteps (Ne.symm hne) hback hgoes

/-- The items of a list keep what is dropped by a path through the list, and the place is as it
    was. -/
theorem drop_exactly_items :
    ((drop ["items.x", "place.x"]).apply itemRecord).hasPath "items.x" = true ∧
      ((drop ["items.x", "place.x"]).apply itemRecord).path? "place.y" =
        itemRecord.path? "place.y" := by
  obtain ⟨left, same⟩ := drop_exactly itemRecord ["items.x", "place.x"]
  have through : LeadsThroughArray itemRecord ["items.x", "place.x"] "items.x" :=
    ⟨"items", _, ⟨"x", by decide⟩, rfl, by decide⟩
  exact ⟨(left "items.x" (by decide)).2 ⟨hasPath_items, through⟩,
    same "place.y" (by decide)⟩

/-- A name that is dropped is still there, in the items of a list. -/
theorem drop_leaves_items :
    "items.x" ∈ ["items.x"] ∧
      ((drop ["items.x"]).apply itemRecord).hasPath "items.x" = true := by
  refine ⟨List.mem_singleton_self _, ?_⟩
  have dropped : Value.object ((drop ["items.x"]).apply itemRecord) =
      (Value.object itemRecord).eraseSteps ["items", "x"] := by
    rw [← pathSteps_items]
    rfl
  rw [Document.hasPath, Document.path?, Value.path?, pathSteps_items, dropped]
  rfl

end Projection

end Catalog
