import Catalog.Proofs.Plan.Resolution
import Catalog.Proofs.Query.Parts
import Catalog.Proofs.Service.Listed

/-!
# Pages tile a listing

The pages of one size of a query, put one after the other, are what its plan gives without a page,
and a page has as many records as the number of all leaves for it (`pages_tile`).

All these requests select the same records, and then cut a page out of what is sorted and show each
of its records by itself. With includes this takes that the ids of the collection can be told apart;
where one is true and another one the number one, what is included with them depends on whether they
are on one page (`pages_differ`).
-/

namespace Catalog.Service

variable {ctx : Context} {s : Store} {f : Family} {query : Value} {extra : Condition}
  {docs : List Document}

/-! ## The page of a query -/

/-- The query for one of the pages of some size: the given query, with the limit and the number of
    records to leave out first. -/
def pageQuery (members fm : Document) (size number : Nat) : Value :=
  .object (members.put "filter" (.object
    ((fm.put "limit" (.int size)).put "skip" (.int (number * size : Nat)))))

/-- A filter that is read in full and one that is read of members which say a page besides differ in
    their pages only. -/
theorem eq_of_fullFilter {fm fm' : Document} {g g' : Filter}
    (hagree : ∀ key, key ≠ "limit" → key ≠ "skip" → fm'.get? key = fm.get? key)
    (h : fullFilter ctx (.object fm) = .ok g) (h' : pageFilter ctx f (.object fm') = .ok g') :
    g' = { g with limit := g'.limit, skip := g'.skip } ∧
      readLimit (fm'.field "limit") (some (ctx.config.policy f).responseLimit)
        (some (ctx.config.policy f).responseLimit) = .ok g'.limit ∧
      readSkip (Filter.skipOf fm') = .ok g'.skip := by
  obtain ⟨n, _, hn, hmembers, h⟩ := Filter.exists_of_readLevels h
  cases hmembers
  rw [pageFilter, Filter.read] at h'
  dsimp only at hn h'
  rw [hn] at h'
  obtain ⟨hparts, -, -⟩ := Filter.readLevels_eq_ok.1 h
  obtain ⟨hparts', hlimit, hskip⟩ := Filter.readLevels_eq_ok.1 h'
  exact ⟨(hparts.of_agree hagree).unique (hparts'.congr rfl), hlimit, hskip⟩

/-- What is included is said under its name. -/
theorem isSome_include {fm : Document} {g : Filter} (h : fullFilter ctx (.object fm) = .ok g)
    (hincludes : g.includes ≠ []) : (fm.get? "include").isSome = true := by
  obtain ⟨n, _, -, hmembers, h⟩ := Filter.exists_of_readLevels h
  cases hmembers
  obtain ⟨hparts, -, -⟩ := Filter.readLevels_eq_ok.1 h
  have hread := hparts.includes
  rw [Document.field] at hread
  cases hi : fm.get? "include" with
  | some v => rfl
  | none =>
    rw [hi] at hread
    exact absurd (Except.ok.inj hread).symm hincludes

section Pages

variable {members fm : Document} {size number : Nat} {g g' : Filter} {set set' : Option SetExpr}
  {scopes scopes' : Option RelationScopes}

theorem param_pageQuery {key : String} (hkey : key ≠ "filter") :
    param (pageQuery members fm size number) key = param (.object members) key := by
  rw [pageQuery, param, param, Document.field, Document.field, Document.get?_put, if_neg hkey]

theorem scopesFor_pageQuery :
    scopesFor ctx f (pageQuery members fm size number) = scopesFor ctx f (.object members) := by
  have other {key : String} (hkey : key ≠ "filter") :
      param (pageQuery members fm size number) key = param (.object members) key :=
    param_pageQuery hkey
  rw [scopesFor, scopesFor, relationScopes, relationScopes, other (by decide), other (by decide),
    other (by decide), other (by decide)]

variable (hfilter : members.get? "filter" = some (.object fm))
  (h : Reads ctx f (.object members) (fullFilter ctx) g set scopes)

include hfilter h

theorem fullFilter_of_reads : fullFilter ctx (.object fm) = .ok g := by
  have hread := h.filter
  rwa [param_filter hfilter, ok_bind] at hread

/-- For a list of all the query is read as for their number, but for the page. -/
theorem reads_page (h' : Reads ctx f (.object members) (pageFilter ctx f) g' set' scopes') :
    g' = { g with limit := g'.limit, skip := g'.skip } ∧ set' = set ∧ scopes' = scopes := by
  have hread := h'.filter
  rw [param_filter hfilter, ok_bind] at hread
  exact ⟨(eq_of_fullFilter (fun _ _ _ => rfl) (fullFilter_of_reads hfilter h) hread).1,
    (Except.ok.inj (h.set.symm.trans h'.set)).symm,
    (Except.ok.inj (h.scopes.symm.trans h'.scopes)).symm⟩

/-- What is read for the number of all can be read for a list of them. -/
theorem exists_reads_page : ∃ g', Reads ctx f (.object members) (pageFilter ctx f) g' set scopes ∧
    g' = { g with limit := g'.limit, skip := g'.skip } := by
  obtain ⟨n, _, hn, hmembers, hread⟩ := Filter.exists_of_readLevels (fullFilter_of_reads hfilter h)
  cases hmembers
  obtain ⟨hparts, hlimit, hskip⟩ := Filter.readLevels_eq_ok.1 hread
  obtain ⟨limit, hlimit⟩ := exists_readLimit hlimit (some (ctx.config.policy f).responseLimit)
    (some (ctx.config.policy f).responseLimit)
  have hpage : pageFilter ctx f (.object fm) = .ok { g with limit } := by
    rw [pageFilter, Filter.read]
    dsimp only at hn ⊢
    rw [hn]
    refine Filter.readLevels_eq_ok.2 ⟨?_, hlimit, hskip⟩
    have parts := hparts.withLimit limit
    exact parts.congr rfl
  exact ⟨_, ⟨bind_eq_ok.2 ⟨_, param_filter hfilter, hpage⟩, h.scopes, h.set⟩, rfl⟩

/-- For a page the query is read as for the number of all, with the bounds of the page. -/
theorem reads_pageQuery
    (h' : Reads ctx f (pageQuery members fm size number) (pageFilter ctx f) g' set' scopes')
    (hpos : 1 ≤ size) (hsize : (size : Int) ≤ (ctx.config.policy f).responseLimit) :
    g' = { g with limit := some (size : Int), skip := number * size } ∧ set' = set ∧
      scopes' = scopes := by
  have given : param (pageQuery members fm size number) "filter" =
      .ok (.object ((fm.put "limit" (.int size)).put "skip" (.int (number * size : Nat)))) := by
    rw [pageQuery, param, Document.field, Document.get?_put, if_pos rfl]
    rfl
  have agree : ∀ key, key ≠ "limit" → key ≠ "skip" →
      ((fm.put "limit" (.int size)).put "skip" (.int (number * size : Nat))).get? key =
        fm.get? key := by
    intro key hl hs
    rw [Document.get?_put, if_neg hs, Document.get?_put, if_neg hl]
  have hread := h'.filter
  rw [given, ok_bind] at hread
  obtain ⟨only, hlimit, hskip⟩ := eq_of_fullFilter agree (fullFilter_of_reads hfilter h) hread
  rw [Document.field, Document.get?_put, if_neg (by decide), Document.get?_put, if_pos rfl]
    at hlimit
  rw [Filter.skipOf, Document.get?_put, if_pos rfl] at hskip
  rw [readLimit_int hlimit hpos hsize, readSkip_int hskip] at only
  refine ⟨only, ?_, ?_⟩
  · have hset := h'.set
    rw [param_pageQuery (by decide), h.set] at hset
    exact (Except.ok.inj hset).symm
  · have hscopes := h'.scopes
    rw [scopesFor_pageQuery, h.scopes] at hscopes
    exact (Except.ok.inj hscopes).symm

end Pages

/-! ## Tiling -/

/-- Where something is included, the ids of the records that are selected are apart if those of the
    collection are. -/
theorem apart_of_selectedRecords {g : Filter} {set : Option SetExpr}
    {scopes : Option RelationScopes} {records : List Document}
    (hids : g.includes ≠ [] → IdsApart (s.scan (ctx.collection f)) ∧
      ∀ d ∈ s.scan (ctx.collection f), d.Distinct)
    (hcheck : checkIncludes f g.includes = .ok ())
    (hrecords : selectedRecords ctx s f g set extra scopes = .ok records)
    (hdocs : ∀ d ∈ docs, d ∈ records) (hincludes : g.includes ≠ []) :
    IdsApart docs ∧ ∀ d ∈ docs, d.Distinct := by
  have hf : f ≠ .relations := by
    rintro rfl
    exact hincludes (checkIncludes_eq_ok rfl hcheck)
  obtain ⟨base, joins, found, -, hjoins, hfound, hrun⟩ := selectedRecords_eq_ok.1 hrecords
  cases (joinStages_of_ne hf _).symm.trans hjoins
  cases hrun
  have stored : ∀ d ∈ docs, d ∈ s.scan (ctx.collection f) := fun d hd =>
    (of_mem_selection hfound (hdocs d hd)).1
  obtain ⟨hapart, hdistinct⟩ := hids hincludes
  exact ⟨hapart.subset stored, fun d hd => hdistinct d (stored d hd)⟩

/-- A request lists no more records than the greatest limit, whatever it asks for. -/
theorem length_find_le (hk : s.Keyed) (hpos : 0 ≤ (ctx.config.policy f).responseLimit)
    (h : find ctx s f query extra = .ok docs) :
    (docs.length : Int) ≤ (ctx.config.policy f).responseLimit := by
  obtain ⟨g, set, scopes, records, hread, -, -, h⟩ := find_eq_ok.1 h
  obtain ⟨v, -, hg⟩ := bind_eq_ok.1 hread.filter
  obtain ⟨n, members, -, -, hg⟩ := Filter.exists_of_readLevels hg
  obtain ⟨limit, hlimit, hnonneg, hle⟩ := readLimit_le (Filter.readLevels_eq_ok.1 hg).2.1 hpos
  have cut : (g.page id records).length ≤ limit.toNat := by
    rw [Filter.page, hlimit]
    dsimp only
    rw [takeLimit, if_pos hnonneg]
    exact List.length_take_le _ _
  rw [length_runStages_showing hk h]
  omega

/-- A page is cut out of all records in order. -/
theorem page_eq (g : Filter) (size number : Nat) (records : List Document) :
    ({ g with limit := some (size : Int), skip := number * size } : Filter).page id records =
      ((sortOn id g.order records).drop (number * size)).take size := by
  change takeLimit (size : Int) ((sortOn id g.order records).drop (number * size)) = _
  rw [takeLimit, if_pos (Int.natCast_nonneg size)]
  rfl

/-- The pages of one size of a query tile what its plan gives without a page, also where the query
    bounds a page itself: each page has as many records as the number of all leaves for it, and the
    pages one after the other are the first ones of all, and all of them if they reach that far. No
    request lists more than the greatest limit. -/
theorem pages_tile (hk : s.Keyed) {members fm : Document} {size N : Nat}
    (hfilter : members.get? "filter" = some (.object fm))
    (hids : (fm.get? "include").isSome → IdsApart (s.scan (ctx.collection f)) ∧
      ∀ d ∈ s.scan (ctx.collection f), d.Distinct)
    (hpos : 1 ≤ size) (hsize : (size : Int) ≤ (ctx.config.policy f).responseLimit)
    (hcount : count ctx s f (.object members) = .ok N) :
    (∀ number page, find ctx s f (pageQuery members fm size number) = .ok page →
      page.length = min size (N - number * size)) ∧
    (∀ (n : Nat) (pages : Nat → List Document),
      (∀ number < n, find ctx s f (pageQuery members fm size number) = .ok (pages number)) →
      (0 < n → N ≤ n * size →
        findAll ctx s f (.object members) = .ok ((List.range n).flatMap pages)) ∧
      ∀ all, findAll ctx s f (.object members) = .ok all →
        (List.range n).flatMap pages = all.take (n * size)) ∧
    ∀ query extra docs, find ctx s f query extra = .ok docs →
      (docs.length : Int) ≤ (ctx.config.policy f).responseLimit := by
  obtain ⟨g, set, scopes, records, hread, hrecords, rfl⟩ := count_eq_ok hfilter hcount
  have found {number : Nat} {page : List Document}
      (h : find ctx s f (pageQuery members fm size number) = .ok page) :
      checkIncludes f g.includes = .ok () ∧
        runStages ctx s (((sortOn id g.order records).drop (number * size)).take size)
          (g.showing f) = .ok page := by
    obtain ⟨g', set', scopes', records', hread', hcheck, hrecords', hrun⟩ := find_eq_ok.1 h
    obtain ⟨rfl, rfl, rfl⟩ := reads_pageQuery hfilter hread hread' hpos hsize
    cases hrecords.symm.trans hrecords'
    rw [page_eq] at hrun
    exact ⟨hcheck, hrun⟩
  have sorted : ∀ d ∈ sortOn id g.order records, d ∈ records := fun d hd =>
    (sortOn_perm id g.order records).mem_iff.1 hd
  -- What is shown of sorted records, on a page or all together, is shown of each by itself.
  have shown (hcheck : checkIncludes f g.includes = .ok ()) {docs : List Document}
      (hdocs : ∀ d ∈ docs, d ∈ sortOn id g.order records) :
      SameResult (runStages ctx s docs (g.showing f)) (docs.mapM (g.listed ctx s f)) :=
    runStages_showing hk <| apart_of_selectedRecords
      (fun hincludes => hids (isSome_include (fullFilter_of_reads hfilter hread) hincludes))
      hcheck hrecords fun d hd => sorted d (hdocs d hd)
  refine ⟨fun number page h => ?_, fun n pages h => ?_,
    fun query extra docs h => length_find_le hk (by omega) h⟩
  · rw [length_runStages_showing hk (found h).2, List.length_take, List.length_drop,
      (sortOn_perm id g.order records).length_eq]
  · have tiled (hcheck : checkIncludes f g.includes = .ok ()) :
        ((sortOn id g.order records).take (n * size)).mapM (g.listed ctx s f) =
          .ok ((List.range n).flatMap pages) := by
      refine SameResult.mapM_segments fun number hn => ?_
      refine (shown hcheck (fun d hd => ?_) _).1 (found (h number hn)).2
      exact List.mem_of_mem_drop (List.mem_of_mem_take hd)
    constructor
    · intro hn hreach
      have hcheck := (found (h 0 hn)).1
      have all : (sortOn id g.order records).take (n * size) = sortOn id g.order records :=
        List.take_of_length_le (by rwa [(sortOn_perm id g.order records).length_eq])
      obtain ⟨g', hread', only⟩ := exists_reads_page hfilter hread
      refine findAll_eq_ok.2 ⟨g', set, scopes, records, hread', ?_⟩
      rw [only]
      exact ⟨hcheck, hrecords, (shown hcheck (fun d hd => hd) _).2 (all ▸ tiled hcheck)⟩
    · intro all hall
      obtain ⟨g', set', scopes', records', hread', hcheck, hrecords', hrun⟩ :=
        findAll_eq_ok.1 hall
      obtain ⟨only, rfl, rfl⟩ := reads_page hfilter hread hread'
      rw [only] at hcheck hrecords' hrun
      cases hrecords.symm.trans hrecords'
      have listed := (shown hcheck (fun d hd => hd) all).1 hrun
      exact Except.ok.inj ((tiled hcheck).symm.trans (SameResult.mapM_take listed (n * size)))

/-! ## Entities with their reactions -/

/-- A filter that includes reactions. -/
def includesReactions : Document := [("include", .array [.text "reactions"])]

/-- The query with this filter. -/
def withReactions : Document := [("filter", .object includesReactions)]

/-- The entity that nobody reacted to and the one with a reaction are listed each on a page of its
    own, and one after the other by a query without a page. -/
theorem pages_tile_reacted :
    (reactedStore.Keyed ∧ IdsApart (reactedStore.scan (nobody.collection .entities)) ∧
      count nobody reactedStore .entities (.object withReactions) = .ok 2) ∧
    find nobody reactedStore .entities (pageQuery withReactions includesReactions 1 0) =
      .ok [referringEntity ++ [("reactions", .array [])]] ∧
    find nobody reactedStore .entities (pageQuery withReactions includesReactions 1 1) =
      .ok [publicEntity "b" ++ [("reactions", .array [.object (publicReaction (.text "b"))])]] ∧
    findAll nobody reactedStore .entities (.object withReactions) =
      .ok [referringEntity ++ [("reactions", .array [])],
        publicEntity "b" ++ [("reactions", .array [.object (publicReaction (.text "b"))])]] := by
  have counted : count nobody reactedStore .entities (.object withReactions) = .ok 2 := by rfl
  have first : find nobody reactedStore .entities
      (pageQuery withReactions includesReactions 1 0) =
        .ok [referringEntity ++ [("reactions", .array [])]] := by rfl
  have second : find nobody reactedStore .entities
      (pageQuery withReactions includesReactions 1 1) =
        .ok [publicEntity "b" ++
          [("reactions", .array [.object (publicReaction (.text "b"))])]] := by rfl
  have apart : IdsApart (reactedStore.scan (nobody.collection .entities)) := idsApart_reactedStore
  have distinct : ∀ d ∈ reactedStore.scan (nobody.collection .entities), d.Distinct := by
    change ∀ d ∈ [referringEntity, publicEntity "b"], d.Distinct
    simp [Document.Distinct, Document.keys, referringEntity, publicEntity]
  let pages (number : Nat) : List Document :=
    if number = 0 then [referringEntity ++ [("reactions", .array [])]]
    else [publicEntity "b" ++ [("reactions", .array [.object (publicReaction (.text "b"))])]]
  have found : ∀ number < 2, find nobody reactedStore .entities
      (pageQuery withReactions includesReactions 1 number) = .ok (pages number) := by
    rintro (_ | _ | number) hnumber
    · exact first
    · exact second
    · omega
  have given : withReactions.get? "filter" = some (.object includesReactions) := rfl
  have tiled := pages_tile keyed_reactedStore given (fun _ => ⟨apart, distinct⟩) (Nat.le_refl 1)
    (by decide) counted
  exact ⟨⟨keyed_reactedStore, apart, counted⟩, first, second,
    (tiled.2.1 2 pages found).1 (by decide) (by decide)⟩

/-- Of two entities whose ids are true and one, the second is listed with its reaction on a page of
    its own, and without it where both are listed at once. -/
theorem pages_differ :
    mixedStore.Keyed ∧
    count nobody mixedStore .entities (.object withReactions) = .ok 2 ∧
    ∃ first second all,
      find nobody mixedStore .entities (pageQuery withReactions includesReactions 1 0) =
        .ok first ∧
      find nobody mixedStore .entities (pageQuery withReactions includesReactions 1 1) =
        .ok second ∧
      findAll nobody mixedStore .entities (.object withReactions) = .ok all ∧
      first ++ second ≠ all := by
  have counted : (count nobody mixedStore .entities (.object withReactions)).toOption = some 2 := by
    decide +kernel
  have first : reactionCounts (find nobody mixedStore .entities
      (pageQuery withReactions includesReactions 1 0)) = some [0] := by decide +kernel
  have second : reactionCounts (find nobody mixedStore .entities
      (pageQuery withReactions includesReactions 1 1)) = some [1] := by decide +kernel
  have all : reactionCounts (findAll nobody mixedStore .entities (.object withReactions)) =
      some [0, 0] := by decide +kernel
  obtain ⟨docs, hdocs, hfirst⟩ := Option.map_eq_some_iff.1 first
  obtain ⟨docs', hdocs', hsecond⟩ := Option.map_eq_some_iff.1 second
  obtain ⟨docs'', hdocs'', hall⟩ := Option.map_eq_some_iff.1 all
  refine ⟨keyed_mixedStore, toOption_eq_some.1 counted, docs, docs', docs'',
    toOption_eq_some.1 hdocs, toOption_eq_some.1 hdocs', toOption_eq_some.1 hdocs'', ?_⟩
  rintro rfl
  rw [List.map_append, hfirst, hsecond] at hall
  cases hall

end Catalog.Service
