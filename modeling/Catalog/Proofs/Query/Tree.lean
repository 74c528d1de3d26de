import Catalog.Proofs.Keyed
import Catalog.Proofs.Number.Numeral
import Catalog.Proofs.Query.Bracket
import Catalog.Proofs.Query.Equality
import Catalog.Proofs.Text.Percent
import Mathlib.Data.List.Sort
import Mathlib.Data.Set.Insert

/-!
# Trees written as bracket queries

A tree of texts is written as a query by its *entries*, the texts with the steps that lead to them
(`Value.entries`): one pair `head[step]…=text` for each, percent-encoded (`Bracket.query`). The
query is read as the tree, in whatever order the pairs stand (`decodeQuery_query`).

* What pairs write over an empty document *spells* their entries (`Bracket.Spells`): every step of
  an entry leads to an object with these steps for keys, and the last one to the text. Writing one
  more entry keeps this, as long as no entry is on the way of another one
  (`Bracket.Spells.assign`), so nothing is written over, and the order does not matter.
* A document that spells the entries of a tree is the tree but for the order of its members and for
  the arrays, which are objects with positions for keys. Making arrays of objects restores them
  (`Bracket.exists_listed`).

Positions are numerals, so an object of a tree must have some key that is none, and an array no more
items than there are numerals that can be read (`Value.Tree`).
-/

namespace Catalog

open Text

/-! ## Positions -/

/-- The position of an item of an array, as a key. -/
def position (n : Nat) : String := toString n

theorem toList_position (n : Nat) : (position n).toList = Nat.toDigits 10 n := by
  rw [position, Nat.toString_eq_ofList_toDigits, String.toList_ofList]

theorem position_inj {m n : Nat} (h : position m = position n) : m = n := by
  have digits := congrArg String.toList h
  rw [toList_position, toList_position] at digits
  rw [← Nat.ofDigitChars_ten_toDigits (n := m), digits, Nat.ofDigitChars_ten_toDigits]

theorem not_mem_position {c : Char} (hc : c.isDigit = false) (n : Nat) :
    c ∉ (position n).toList := by
  intro hmem
  rw [toList_position] at hmem
  exact absurd (hc.symm.trans (Numeral.digits_isDigit n c hmem)) (by decide)

theorem position_ne_empty (n : Nat) : position n ≠ "" := by
  intro h
  have digits := congrArg String.toList h
  rw [toList_position] at digits
  exact Nat.toDigits_ne_nil digits

theorem isNumeral_position (n : Nat) : Bracket.isNumeral (position n) = true := by
  have like : (position n).toList.all isDigitLike = true := List.all_eq_true.2 fun c hc => by
    rw [toList_position] at hc
    rw [isDigitLike, Numeral.isDecimalDigit_toDigits n c hc, Bool.true_or]
  rw [Bracket.isNumeral, like, Bool.and_true]
  simpa using position_ne_empty n

theorem int?_position {n : Nat} (h : n < 10 ^ Numeral.maxDigits) :
    Numeral.int? (position n) = some (n : Int) := by
  have read := Numeral.int?_toString n
  rwa [Int.natAbs_natCast, if_pos h] at read

/-! ## Trees and their entries -/

/-- Whether a key can stand between brackets: it is not empty and holds none. -/
def IsStep (key : String) : Prop := key ≠ "" ∧ '[' ∉ key.toList ∧ ']' ∉ key.toList

instance (key : String) : Decidable (IsStep key) :=
  inferInstanceAs (Decidable (key ≠ "" ∧ '[' ∉ key.toList ∧ ']' ∉ key.toList))

/-- A text of a tree, with the steps that lead to it. -/
structure Entry where
  /-- The keys and positions from the root on. -/
  steps : List String
  /-- What the text says. -/
  text : String
deriving DecidableEq

namespace Entry

/-- The entry one step further from the root. -/
def under (step : String) (e : Entry) : Entry := ⟨step :: e.steps, e.text⟩

/-- Neither of two entries is on the way of the other. -/
def Apart (e e' : Entry) : Prop := ¬e.steps <+: e'.steps ∧ ¬e'.steps <+: e.steps

/-- All steps of an entry can stand between brackets. -/
def Spellable (e : Entry) : Prop := ∀ s ∈ e.steps, IsStep s

theorem under_inj {k k' : String} {e e' : Entry} :
    e.under k = e'.under k' ↔ k = k' ∧ e = e' := by
  cases e
  cases e'
  simp [under, and_assoc]

theorem Apart.symm {e e' : Entry} (h : e.Apart e') : e'.Apart e := ⟨h.2, h.1⟩

theorem apart_under_iff {k : String} {e e' : Entry} :
    (e.under k).Apart (e'.under k) ↔ e.Apart e' := by
  rw [Apart, Apart, under, under, List.prefix_cons_inj, List.prefix_cons_inj]

theorem apart_under {k k' : String} (h : k ≠ k') (e e' : Entry) :
    (e.under k).Apart (e'.under k') :=
  ⟨fun hp => h (List.cons_prefix_cons.1 hp).1, fun hp => h (List.cons_prefix_cons.1 hp).1.symm⟩

end Entry

/-- The items of an array as members, with their positions from a first one on for keys. -/
def positioned (n : Nat) (items : List Value) : List (String × Value) :=
  (items.zipIdx n).map fun item => (position item.2, item.1)

namespace Value

mutual

/-- The texts of a tree with the steps that lead to them, from left to right. -/
def entries : Value → List Entry
  | .text s => [⟨[], s⟩]
  | .array items => entriesOfItems 0 items
  | .object members => entriesOfMembers members
  | _ => []

/-- The entries of the items of an array from a position on. -/
def entriesOfItems (n : Nat) : List Value → List Entry
  | [] => []
  | v :: rest => v.entries.map (Entry.under (position n)) ++ entriesOfItems (n + 1) rest

/-- The entries of the members of an object. -/
def entriesOfMembers : List (String × Value) → List Entry
  | [] => []
  | (k, v) :: rest => v.entries.map (Entry.under k) ++ entriesOfMembers rest

end

/-- The keys of an object of a tree: different ones that can stand between brackets, and some of
    them no numeral, as the object would be an array otherwise. -/
structure TreeKeys (members : Document) : Prop where
  /-- No key is there twice. -/
  distinct : members.Distinct
  /-- Each key can stand between brackets. -/
  steps : ∀ key ∈ members.keys, IsStep key
  /-- Not all keys are numerals. -/
  named : members ≠ [] → ∃ key ∈ members.keys, Bracket.isNumeral key = false

/-- Texts, arrays and objects, none of them empty. An array has no more items than there are
    positions that can be read, which is beyond what any store holds. -/
inductive Tree : Value → Prop where
  /-- A text. -/
  | text (s : String) : Tree (.text s)
  /-- An array of trees. -/
  | array {items : List Value} : items ≠ [] → items.length ≤ 10 ^ Numeral.maxDigits →
      (∀ v ∈ items, Tree v) → Tree (.array items)
  /-- An object of trees. -/
  | object {members : Document} : members ≠ [] → TreeKeys members →
      (∀ m ∈ members, Tree m.2) → Tree (.object members)

theorem entriesOfItems_eq (n : Nat) (items : List Value) :
    entriesOfItems n items = entriesOfMembers (positioned n items) := by
  induction items generalizing n with
  | nil => rfl
  | cons v rest ih =>
    rw [entriesOfItems, ih, positioned, positioned, List.zipIdx_cons, List.map_cons,
      entriesOfMembers]

theorem entriesOfMembers_eq (members : List (String × Value)) :
    entriesOfMembers members = members.flatMap fun m => m.2.entries.map (Entry.under m.1) := by
  induction members with
  | nil => rfl
  | cons m rest ih => rw [entriesOfMembers, ih, List.flatMap_cons]

theorem mem_entriesOfMembers {members : List (String × Value)} {e : Entry} :
    e ∈ entriesOfMembers members ↔ ∃ m ∈ members, ∃ e' ∈ m.2.entries, e'.under m.1 = e := by
  simp only [entriesOfMembers_eq, List.mem_flatMap, List.mem_map]

end Value

theorem mem_positioned {items : List Value} {m : String × Value} :
    m ∈ positioned 0 items ↔ ∃ i, items[i]? = some m.2 ∧ m.1 = position i := by
  rw [positioned, List.mem_map]
  constructor
  · rintro ⟨⟨v, i⟩, hi, rfl⟩
    exact ⟨i, List.mem_zipIdx_iff_getElem?.1 hi, rfl⟩
  · rintro ⟨i, hi, hm⟩
    exact ⟨(m.2, i), List.mem_zipIdx_iff_getElem?.2 hi, Prod.ext hm.symm rfl⟩

theorem keys_positioned (n : Nat) (items : List Value) :
    Document.keys (positioned n items) = (List.range' n items.length).map position := by
  rw [Document.keys, positioned, List.map_map, ← List.zipIdx_map_snd, List.map_map]
  rfl

theorem distinct_positioned (n : Nat) (items : List Value) :
    Document.Distinct (positioned n items) := by
  rw [Document.Distinct, keys_positioned]
  exact List.Nodup.map (fun _ _ h => position_inj h) List.nodup_range'

namespace Value

theorem steps_ne_nil {members : List (String × Value)} {e : Entry}
    (h : e ∈ entriesOfMembers members) : e.steps ≠ [] := by
  obtain ⟨m, -, e, -, rfl⟩ := mem_entriesOfMembers.1 h
  exact List.cons_ne_nil _ _

/-- The members of an object, or the items of an array with their positions, lead to entries of
    which none is on the way of another one. -/
theorem pairwise_apart_members {members : List (String × Value)}
    (hd : Document.Distinct members) (h : ∀ m ∈ members, m.2.entries.Pairwise Entry.Apart) :
    (entriesOfMembers members).Pairwise Entry.Apart := by
  rw [entriesOfMembers_eq, List.pairwise_flatMap]
  refine ⟨fun m hm => ?_, ?_⟩
  · rw [List.pairwise_map]
    exact (h m hm).imp fun apart => Entry.apart_under_iff.2 apart
  · refine (List.pairwise_map.1 hd).imp fun {m m'} hne => ?_
    rintro e he e' he'
    obtain ⟨e, -, rfl⟩ := List.mem_map.1 he
    obtain ⟨e', -, rfl⟩ := List.mem_map.1 he'
    exact Entry.apart_under hne e e'

theorem spellable_members {members : List (String × Value)}
    (hkeys : ∀ key ∈ Document.keys members, IsStep key)
    (h : ∀ m ∈ members, ∀ e ∈ m.2.entries, e.Spellable) :
    ∀ e ∈ entriesOfMembers members, e.Spellable := by
  intro e he
  obtain ⟨m, hm, e', he', rfl⟩ := mem_entriesOfMembers.1 he
  exact List.forall_mem_cons.2 ⟨hkeys m.1 (List.mem_map_of_mem hm), h m hm e' he'⟩

/-- Some entry leads into each member. -/
theorem entriesOfMembers_ne_nil {members : List (String × Value)} (hne : members ≠ [])
    (h : ∀ m ∈ members, m.2.entries ≠ []) : entriesOfMembers members ≠ [] := by
  obtain ⟨m, hm⟩ := List.exists_mem_of_ne_nil members hne
  obtain ⟨e, he⟩ := List.exists_mem_of_ne_nil _ (h m hm)
  exact List.ne_nil_of_mem (mem_entriesOfMembers.2 ⟨m, hm, e, he, rfl⟩)

theorem value_mem_of_positioned {items : List Value} {m : String × Value}
    (h : m ∈ positioned 0 items) : m.2 ∈ items := by
  obtain ⟨i, hi, -⟩ := mem_positioned.1 h
  exact List.mem_of_getElem? hi

theorem isStep_of_mem_positioned {items : List Value} :
    ∀ key ∈ Document.keys (positioned 0 items), IsStep key := by
  intro key hkey
  rw [keys_positioned] at hkey
  obtain ⟨n, -, rfl⟩ := List.mem_map.1 hkey
  exact ⟨position_ne_empty n, not_mem_position rfl n, not_mem_position rfl n⟩

/-- A tree has entries, all of them can be written, and none is on the way of another one. -/
theorem Tree.entries {v : Value} (h : v.Tree) :
    v.entries ≠ [] ∧ (∀ e ∈ v.entries, e.Spellable) ∧ v.entries.Pairwise Entry.Apart := by
  induction h with
  | text s =>
    refine ⟨List.cons_ne_nil _ _, fun e he => ?_, List.pairwise_singleton _ _⟩
    cases List.mem_singleton.1 he
    exact List.forall_mem_nil _
  | @array items hne _ _ ih =>
    rw [Value.entries, entriesOfItems_eq]
    have each (m) (hm : m ∈ positioned 0 items) := ih m.2 (value_mem_of_positioned hm)
    refine ⟨entriesOfMembers_ne_nil ?_ fun m hm => (each m hm).1,
      spellable_members isStep_of_mem_positioned fun m hm => (each m hm).2.1,
      pairwise_apart_members (distinct_positioned _ _) fun m hm => (each m hm).2.2⟩
    cases items with
    | nil => exact absurd rfl hne
    | cons v rest => exact List.cons_ne_nil _ _
  | object hne hkeys _ ih =>
    exact ⟨entriesOfMembers_ne_nil hne fun m hm => (ih m hm).1,
      spellable_members hkeys.steps fun m hm => (ih m hm).2.1,
      pairwise_apart_members hkeys.distinct fun m hm => (ih m hm).2.2⟩

end Value

namespace Bracket

/-! ## What pairs write -/

/-- The entries that go on from a key. -/
def onward (key : String) (entries : Set Entry) : Set Entry := {e | e.under key ∈ entries}

/-- A value spells entries: a text the entry without steps that says it, an object those whose first
    steps are its keys, where the values of its members spell what follows. -/
inductive Spells : Value → Set Entry → Prop where
  /-- A text. -/
  | text (s : String) : Spells (.text s) {⟨[], s⟩}
  /-- An object. -/
  | object {doc : Document} {entries : Set Entry} : doc.Distinct →
      (∀ e ∈ entries, e.steps ≠ []) →
      (∀ key, key ∈ doc.keys ↔ (onward key entries).Nonempty) →
      (∀ key v, doc.get? key = some v → Spells v (onward key entries)) →
      Spells (.object doc) entries

variable {doc : Document} {entries : Set Entry}

theorem onward_insert (key : String) (e : Entry) :
    onward key (insert (e.under key) entries) = insert e (onward key entries) := by
  ext e'
  exact or_congr (Entry.under_inj.trans (and_iff_right rfl)) Iff.rfl

theorem onward_insert_of_ne {k key : String} (hk : k ≠ key) (e : Entry) :
    onward k (insert (e.under key) entries) = onward k entries := by
  ext e'
  exact or_iff_right fun h => hk (Entry.under_inj.1 h).1

/-- Where nothing is spelled, an empty document stands. -/
theorem spells_empty : Spells (.object []) ∅ :=
  .object List.nodup_nil (fun _ he => absurd he (Set.notMem_empty _))
    (fun _ => iff_of_false List.not_mem_nil fun ⟨_, he⟩ => he) fun _ _ hv => by cases hv

/-- A document with a value in the place of another one that spells one entry less. -/
theorem Spells.put (h : Spells (.object doc) entries) {key : String} {v : Value} {e : Entry}
    (hv : Spells v (insert e (onward key entries))) :
    Spells (.object (doc.put key v)) (insert (e.under key) entries) := by
  cases h with
  | object hd hsteps hkeys hvalues =>
    refine .object (hd.put key v) (fun e' he' => ?_) (fun k => ?_) fun k w hw => ?_
    · rcases he' with rfl | he'
      · exact List.cons_ne_nil _ _
      · exact hsteps e' he'
    · rw [Document.mem_keys_put, hkeys]
      by_cases hk : k = key
      · rw [hk, onward_insert]
        exact iff_of_true (.inl rfl) (Set.insert_nonempty _ _)
      · rw [or_iff_right hk, onward_insert_of_ne hk]
    · rw [Document.get?_put] at hw
      split at hw
      · next hk =>
        cases hw
        rw [hk, onward_insert]
        exact hv
      · next hk =>
        rw [onward_insert_of_ne hk]
        exact hvalues k w hw

/-- The object at a key spells what goes on from the key, unless a text stands there. -/
theorem Spells.objectAt (h : Spells (.object doc) entries) {key : String}
    (hno : ∀ s, (⟨[], s⟩ : Entry) ∉ onward key entries) :
    Spells (.object (objectAt key doc)) (onward key entries) := by
  cases h with
  | object _ _ hkeys hvalues =>
    rw [Bracket.objectAt]
    cases hv : doc.get? key with
    | none =>
      have nothing : onward key entries = ∅ := Set.not_nonempty_iff_eq_empty.1 fun hne =>
        Document.get?_eq_none_iff.1 hv ((hkeys key).2 hne)
      rw [nothing]
      exact spells_empty
    | some v =>
      have spelled := hvalues key v hv
      cases v with
      | object members => exact spelled
      | text s =>
        refine absurd ?_ (hno s)
        generalize onward key entries = rest at spelled
        cases spelled
        exact Set.mem_singleton _
      | _ => cases spelled

/-- Writing an entry that is not on the way of another one, nor another one on its way, adds it to
    those that a document spells. -/
theorem Spells.assign {key text : String} {rest : List String} (hsteps : ∀ s ∈ rest, s ≠ "")
    (hapart : ∀ e ∈ entries, Entry.Apart ⟨key :: rest, text⟩ e)
    (h : Spells (.object doc) entries) :
    Spells (.object (assign text (key :: rest) doc)) (insert ⟨key :: rest, text⟩ entries) := by
  induction rest generalizing key doc entries with
  | nil =>
    have nothing : onward key entries = ∅ := Set.eq_empty_of_forall_notMem fun e he =>
      (hapart _ he).1 ⟨e.steps, rfl⟩
    have free : doc.get? key = none := by
      cases h with
      | object _ _ hkeys _ =>
        rw [Document.get?_eq_none_iff, hkeys, nothing]
        exact Set.not_nonempty_empty
    rw [Bracket.assign, assignLast, free]
    refine h.put (e := ⟨[], text⟩) ?_
    rw [nothing, insert_empty_eq]
    exact .text text
  | cons next rest ih =>
    rw [List.forall_mem_cons] at hsteps
    rw [Bracket.assign, if_neg hsteps.1]
    refine h.put (e := ⟨next :: rest, text⟩) (ih hsteps.2 (fun e he => ?_) (h.objectAt ?_))
    · exact Entry.apart_under_iff.1 (hapart _ he)
    · exact fun s hs => (hapart _ hs).2 ⟨next :: rest, rfl⟩

/-- Entries of which none is on the way of another one are spelled once they are written, in
    whatever order. -/
theorem Spells.foldl_assign {es : List Entry} (hne : ∀ e ∈ es, e.steps ≠ [])
    (hspell : ∀ e ∈ es, e.Spellable) (hapart : es.Pairwise Entry.Apart)
    (hnew : ∀ e ∈ es, ∀ e' ∈ entries, e.Apart e') (h : Spells (.object doc) entries) :
    Spells (.object (es.foldl (fun doc e => Bracket.assign e.text e.steps doc) doc))
      ({e | e ∈ es} ∪ entries) := by
  induction es generalizing doc entries with
  | nil =>
    have all : {e | e ∈ ([] : List Entry)} ∪ entries = entries :=
      Set.ext fun e => or_iff_right List.not_mem_nil
    rw [all]
    exact h
  | cons e es ih =>
    have all : {e' | e' ∈ e :: es} ∪ entries = {e' | e' ∈ es} ∪ insert e entries :=
      Set.ext fun e' => (or_congr_left List.mem_cons).trans or_assoc |>.trans or_left_comm
    rw [List.forall_mem_cons] at hne hspell hnew
    rw [List.pairwise_cons] at hapart
    obtain ⟨steps, text⟩ := e
    cases steps with
    | nil => exact absurd rfl hne.1
    | cons key rest =>
      have steps : ∀ s ∈ rest, s ≠ "" := fun s hs => (hspell.1 s (List.mem_cons_of_mem _ hs)).1
      rw [all]
      refine ih hne.2 hspell.2 hapart.2 (fun e' he' => ?_) (h.assign steps hnew.1)
      rintro e'' (rfl | he'')
      · exact (hapart.1 e' he').symm
      · exact hnew.2 e' he' e'' he''

/-! ## Queries of entries -/

/-- The key that leads along steps: the first one, and the others between brackets. -/
def keyOf : List String → List Char
  | [] => []
  | head :: rest => head.toList ++ rest.flatMap fun s => '[' :: s.toList ++ [']']

/-- An entry as a pair, percent-encoded but for the further safe characters. -/
def pairOf (safe : List Char) (e : Entry) : List Char :=
  Percent.encode safe (keyOf e.steps) ++ '=' :: Percent.encode safe e.text.toList

/-- The query that writes entries in their order. -/
def query (safe : List Char) (es : List Entry) : String :=
  String.ofList (['&'].intercalate (es.map (pairOf safe)))

example : query ['[', ']'] [⟨["where", "a&b"], "é"⟩, ⟨["fields", "0"], "x"⟩] =
    "where[a%26b]=%C3%A9&fields[0]=x" := by decide

theorem steps_flatMap {rest : List String} (h : ∀ s ∈ rest, ']' ∉ s.toList) :
    steps none (rest.flatMap fun s => '[' :: s.toList ++ [']']) = rest := by
  induction rest with
  | nil => rfl
  | cons s rest ih =>
    rw [List.forall_mem_cons] at h
    rw [List.flatMap_cons, List.cons_append, List.cons_append, List.append_assoc,
      List.singleton_append, steps, if_pos rfl, steps_bracket [] h.1, ih h.2, List.reverse_nil,
      List.nil_append, String.ofList_toList]

/-- A key leads along the steps it is made of. -/
theorem path_keyOf {e : Entry} (hne : e.steps ≠ []) (h : e.Spellable) :
    path (String.ofList (keyOf e.steps)) = e.steps := by
  obtain ⟨steps, text⟩ := e
  cases steps with
  | nil => exact absurd rfl hne
  | cons head rest =>
    have h := List.forall_mem_cons.1 h
    have plain : ∀ c ∈ head.toList, decide (c ≠ '[') = true := fun c hc =>
      decide_eq_true fun hbracket => h.1.2.1 (hbracket ▸ hc)
    have bracket : ∀ c, (rest.flatMap fun s => '[' :: s.toList ++ [']']).head? = some c →
        decide (c ≠ '[') = false := by
      intro c hc
      cases rest with
      | nil => cases hc
      | cons s rest =>
        cases hc
        rfl
    have cut := takeWhile_dropWhile_append plain bracket
    rw [path, String.toList_ofList, keyOf, cut.1, cut.2, String.ofList_toList,
      steps_flatMap fun s hs => (h.2 s hs).2.2]

theorem plain_encode {safe : List Char} (hpercent : '%' ∉ safe) (hplus : '+' ∉ safe)
    (cs : List Char) : plain (Percent.encode safe cs) = String.ofList cs := by
  have kept : ∀ c ∈ Percent.encode safe cs, (if c = '+' then ' ' else c) = c := by
    intro c hc
    refine if_neg ?_
    rintro rfl
    rcases Percent.mem_encode hc with h | h | h
    · cases h
    · cases h
    · exact hplus h
  rw [plain, List.map_congr_left kept, List.map_id', Percent.decode_encode hpercent]

/-- The parts that are joined with a separator are what is cut at it. -/
theorem filter_splitChars_intercalate {sep : Char} {parts : List (List Char)}
    (h : ∀ part ∈ parts, part ≠ [] ∧ sep ∉ part) :
    (splitChars sep ([sep].intercalate parts)).filter (fun part => !part.isEmpty) = parts := by
  have filled {part : List Char} (hne : part ≠ []) : (!part.isEmpty) = true := by
    rw [List.isEmpty_eq_false_iff.2 hne]
    rfl
  induction parts with
  | nil => rfl
  | cons part parts ih =>
    rw [List.forall_mem_cons] at h
    cases parts with
    | nil =>
      rw [List.intercalate_singleton, splitChars_of_not_mem h.1.2]
      exact List.filter_cons_of_pos (filled h.1.1)
    | cons next parts =>
      rw [List.intercalate_cons_cons, List.append_assoc, List.singleton_append,
        splitChars_append h.1.2, List.filter_cons, if_pos (filled h.1.1), ih h.2]

/-- The further safe characters of a query: none that cuts it, nor one that stands for others. -/
def Separable (safe : List Char) : Prop := ∀ c ∈ ['%', '+', '&', '='], c ∉ safe

instance (safe : List Char) : Decidable (Separable safe) :=
  List.decidableBAll (fun c => c ∉ safe) _

/-- What is reserved does not occur in what is encoded. -/
theorem not_mem_encode {safe : List Char} {c : Char} (hpercent : c ≠ '%')
    (hreserved : Percent.isUnreserved c = false) (hsafe : c ∉ safe) (cs : List Char) :
    c ∉ Percent.encode safe cs := by
  intro hc
  rcases Percent.mem_encode hc with h | h | h
  · exact hpercent h
  · exact absurd (hreserved.symm.trans h) (by decide)
  · exact hsafe h

/-- The pairs of a query of entries are their keys and texts. -/
theorem pairs_query {safe : List Char} (hsafe : Separable safe) (es : List Entry) :
    pairs (query safe es) = es.map fun e => (String.ofList (keyOf e.steps), e.text) := by
  have percent : '%' ∉ safe := hsafe _ (by decide)
  have plus : '+' ∉ safe := hsafe _ (by decide)
  have noCut := not_mem_encode (c := '&') (by decide) rfl (hsafe _ (by decide))
  have noEquals := not_mem_encode (c := '=') (by decide) rfl (hsafe _ (by decide))
  have parts : ∀ part ∈ es.map (pairOf safe), part ≠ [] ∧ '&' ∉ part := by
    intro part hpart
    obtain ⟨e, -, rfl⟩ := List.mem_map.1 hpart
    refine ⟨List.append_ne_nil_of_right_ne_nil _ (List.cons_ne_nil _ _), fun hmem => ?_⟩
    rcases List.mem_append.1 hmem with hmem | hmem
    · exact noCut _ hmem
    · rcases List.mem_cons.1 hmem with h | hmem
      · cases h
      · exact noCut _ hmem
  rw [pairs, query, String.toList_ofList, filter_splitChars_intercalate parts, List.map_map]
  refine List.map_congr_left fun e _ => ?_
  have key : ∀ c ∈ Percent.encode safe (keyOf e.steps), decide (c ≠ '=') = true := fun c hc =>
    decide_eq_true fun h => noEquals _ (h ▸ hc)
  have equals (c : Char) (hc : ('=' :: Percent.encode safe e.text.toList).head? = some c) :
      decide (c ≠ '=') = false := by
    cases hc
    rfl
  have cut := takeWhile_dropWhile_append key equals
  rw [Function.comp_apply, pairOf, cut.1, cut.2, List.drop_one, List.tail_cons,
    plain_encode percent plus, plain_encode percent plus, String.ofList_toList]

/-- A query of entries writes each of them where its steps lead. -/
theorem written_query {safe : List Char} (hsafe : Separable safe) {es : List Entry}
    (hne : ∀ e ∈ es, e.steps ≠ []) (hspell : ∀ e ∈ es, e.Spellable) :
    written (pairs (query safe es)) = es.foldl (fun doc e => assign e.text e.steps doc) [] := by
  rw [written, pairs_query hsafe, List.foldl_map]
  refine List.foldl_ext _ _ _ fun doc e he => ?_
  rw [path_keyOf (hne e he) (hspell e he)]

/-! ## Arrays -/

/-- The items of an array with their positions as numbers. -/
def ranked (n : Nat) (items : List Value) : List (Int × Value) :=
  (items.zipIdx n).map fun item => ((item.2 : Int), item.1)

theorem mapM_numbered_positioned {n : Nat} {items : List Value}
    (h : n + items.length ≤ 10 ^ Numeral.maxDigits) :
    (positioned n items).mapM numbered = .ok (ranked n items) := by
  induction items generalizing n with
  | nil => rfl
  | cons v rest ih =>
    rw [List.length_cons] at h
    have first : n < 10 ^ Numeral.maxDigits := by omega
    have others : n + 1 + rest.length ≤ 10 ^ Numeral.maxDigits := by omega
    rw [positioned, List.zipIdx_cons, List.map_cons, ← positioned, List.mapM_cons, ih others,
      numbered, int?_position first]
    rfl

theorem pairwise_ranked (n : Nat) (items : List Value) :
    (ranked n items).Pairwise fun a b => a.1 < b.1 := by
  have positions := List.pairwise_lt_range' (s := n) (n := items.length)
  rw [← List.zipIdx_map_snd, List.pairwise_map] at positions
  rw [ranked, List.pairwise_map]
  exact positions.imp fun h => Int.ofNat_lt.2 h

theorem eq_of_mem_ranked {items : List Value} {a b : Int × Value} (ha : a ∈ ranked 0 items)
    (hb : b ∈ ranked 0 items) (h : a.1 = b.1) : a = b := by
  obtain ⟨⟨v, i⟩, hv, rfl⟩ := List.mem_map.1 ha
  obtain ⟨⟨w, j⟩, hw, rfl⟩ := List.mem_map.1 hb
  obtain rfl : i = j := Int.ofNat.inj h
  have hv := List.mem_zipIdx_iff_getElem?.1 hv
  have hw := List.mem_zipIdx_iff_getElem?.1 hw
  have same : v = w := Option.some.inj (hv.symm.trans hw)
  rw [same]

/-- Values are put in the order of their positions. -/
theorem mergeSort_of_perm {ns : List (Int × Value)} {items : List Value}
    (h : ns.Perm (ranked 0 items)) :
    ns.mergeSort (fun a b => decide (a.1 ≤ b.1)) = ranked 0 items := by
  have transitive (a b c : Int × Value) (hab : decide (a.1 ≤ b.1) = true)
      (hbc : decide (b.1 ≤ c.1) = true) : decide (a.1 ≤ c.1) = true :=
    decide_eq_true (Int.le_trans (of_decide_eq_true hab) (of_decide_eq_true hbc))
  have total (a b : Int × Value) : (decide (a.1 ≤ b.1) || decide (b.1 ≤ a.1)) = true := by
    rw [Bool.or_eq_true, decide_eq_true_eq, decide_eq_true_eq]
    exact Int.le_total a.1 b.1
  have sorted := (ns.pairwise_mergeSort transitive total).imp of_decide_eq_true
  have hperm := (List.mergeSort_perm ns fun a b => decide (a.1 ≤ b.1)).trans h
  exact hperm.eq_of_pairwise (fun a b ha hb hab hba =>
    eq_of_mem_ranked (hperm.mem_iff.1 ha) hb (Int.le_antisymm hab hba)) sorted
    ((pairwise_ranked 0 items).imp Int.le_of_lt)

/-- Members that have the positions of an array for keys, in whatever order, make the array. -/
theorem inOrder_of_perm {items : List Value} (hbound : items.length ≤ 10 ^ Numeral.maxDigits)
    {members : List (String × Value)} (h : members.Perm (positioned 0 items)) :
    inOrder members = .ok items := by
  have each : (positioned 0 items).mapM numbered = .ok (ranked 0 items) :=
    mapM_numbered_positioned (by rwa [Nat.zero_add])
  obtain ⟨ns, hns, hperm⟩ := exists_mapM_of_perm h each
  rw [inOrder_eq, hns, Except.map, mergeSort_of_perm hperm, ranked, List.map_map]
  exact congrArg Except.ok (List.zipIdx_map_fst 0 items)

/-- The values of a document under the first positions. -/
def itemsAt (n : Nat) (doc : Document) : List Value :=
  (List.range n).map fun i => Value.orNull (doc.get? (position i))

theorem getElem?_itemsAt {n i : Nat} {doc : Document} {v : Value} (hi : i < n)
    (hv : doc.get? (position i) = some v) : (itemsAt n doc)[i]? = some v := by
  rw [itemsAt, List.getElem?_map, List.getElem?_range hi, Option.map_some, hv]
  rfl

/-- A document whose keys are the first positions has its values there for items. -/
theorem perm_positioned_itemsAt {n : Nat} {doc : Document} (hd : doc.Distinct)
    (hkeys : ∀ key, key ∈ doc.keys ↔ ∃ i < n, key = position i) :
    doc.Perm (positioned 0 (itemsAt n doc)) := by
  refine (List.perm_ext_iff_of_nodup (List.Nodup.of_map _ hd)
    (List.Nodup.of_map _ (distinct_positioned _ _))).2 fun m => ?_
  rw [mem_positioned]
  constructor
  · intro hm
    obtain ⟨i, hi, hkey⟩ := (hkeys m.1).1 (List.mem_map_of_mem hm)
    exact ⟨i, getElem?_itemsAt hi (hkey ▸ hd.get?_of_mem hm), hkey⟩
  · rintro ⟨i, hi, hkey⟩
    have hlt : i < n := by
      obtain ⟨hlt, -⟩ := List.getElem?_eq_some_iff.1 hi
      rwa [itemsAt, List.length_map, List.length_range] at hlt
    cases hv : doc.get? m.1 with
    | none => exact absurd ((hkeys m.1).2 ⟨i, hlt, hkey⟩) (Document.get?_eq_none_iff.1 hv)
    | some v =>
      have same : v = m.2 :=
        Option.some.inj ((getElem?_itemsAt hlt (hkey ▸ hv)).symm.trans hi)
      rw [same] at hv
      exact Document.mem_of_get? hv

/-- An object that is the items of an array with their positions for keys, but for the order of its
    members, is arranged as the array. -/
theorem arranged_of_positioned {items : List Value} (hne : items ≠ [])
    (hbound : items.length ≤ 10 ^ Numeral.maxDigits) {doc : Document}
    (h : (Value.object (positioned 0 items)).JsonEq (.object doc)) :
    ∃ items', arranged doc = .ok (.array items') ∧ (Value.array items).JsonEq (.array items') := by
  cases h with
  | object _ hd hsame hvalues =>
    have hkeys (key : String) : key ∈ doc.keys ↔ ∃ i < items.length, key = position i := by
      rw [← Value.mem_keys_of_get? hsame, keys_positioned, List.mem_map]
      simp [eq_comm]
    have first : position 0 ∈ doc.keys := (hkeys _).2 ⟨0, List.length_pos_iff.2 hne, rfl⟩
    have filled : doc ≠ [] := by
      rintro rfl
      exact List.not_mem_nil first
    have numerals : (doc.all fun m => isNumeral m.1) = true := List.all_eq_true.2 fun m hm => by
      obtain ⟨i, -, hkey⟩ := (hkeys m.1).1 (List.mem_map_of_mem hm)
      rw [hkey, isNumeral_position]
    have hlength : (itemsAt items.length doc).length = items.length := by
      rw [itemsAt, List.length_map, List.length_range]
    refine ⟨itemsAt items.length doc, ?_, .array hlength.symm fun i v w hv hw => ?_⟩
    · rw [arranged, numerals, List.isEmpty_eq_false_iff.2 filled]
      change Value.array <$> inOrder doc = _
      rw [inOrder_of_perm (hlength.symm ▸ hbound) (perm_positioned_itemsAt hd hkeys)]
      rfl
    · have hi : i < items.length := (List.getElem?_eq_some_iff.1 hv).1
      have hposition : Document.get? (position i) (positioned 0 items) = some v :=
        (distinct_positioned 0 items).get?_of_mem (mem_positioned.2 ⟨i, hv, rfl⟩)
      cases hat : doc.get? (position i) with
      | none => exact absurd ((hkeys _).2 ⟨i, hi, rfl⟩) (Document.get?_eq_none_iff.1 hat)
      | some w' =>
        have same : w' = w := Option.some.inj ((getElem?_itemsAt hi hat).symm.trans hw)
        exact hvalues _ v w hposition (same ▸ hat)

/-! ## The tree that is read -/

/-- The entries of a member are those of an object that go on from its key. -/
theorem onward_entriesOfMembers {members : Document} (hd : members.Distinct) {key : String}
    {v : Value} (hv : members.get? key = some v) :
    onward key {e | e ∈ Value.entriesOfMembers members} = {e | e ∈ v.entries} := by
  ext e
  refine Value.mem_entriesOfMembers.trans ⟨?_, fun he => ?_⟩
  · rintro ⟨m, hm, e', he', hunder⟩
    obtain ⟨rfl, rfl⟩ := Entry.under_inj.1 hunder
    cases (hd.get?_of_mem hm).symm.trans hv
    exact he'
  · exact ⟨(key, v), Document.mem_of_get? hv, e, he, rfl⟩

theorem nonempty_onward_entriesOfMembers {members : Document}
    (hentries : ∀ m ∈ members, m.2.entries ≠ []) (key : String) :
    (onward key {e | e ∈ Value.entriesOfMembers members}).Nonempty ↔ key ∈ members.keys := by
  constructor
  · rintro ⟨e, he⟩
    obtain ⟨m, hm, e', -, hunder⟩ := Value.mem_entriesOfMembers.1 he
    obtain ⟨rfl, -⟩ := Entry.under_inj.1 hunder
    exact List.mem_map_of_mem hm
  · intro hkey
    obtain ⟨m, hm, rfl⟩ := List.mem_map.1 hkey
    obtain ⟨e, he⟩ := List.exists_mem_of_ne_nil _ (hentries m hm)
    exact ⟨e, Value.mem_entriesOfMembers.2 ⟨m, hm, e, he, rfl⟩⟩

/-- Members are read one by one. -/
theorem exists_listedMembers {R : String → Value → Prop} {members : List (String × Value)}
    (h : ∀ m ∈ members, ∃ w, listed m.2 = .ok w ∧ R m.1 w) :
    ∃ members', listedMembers members = .ok members' ∧ ∀ m ∈ members', R m.1 m.2 := by
  induction members with
  | nil => exact ⟨[], rfl, List.forall_mem_nil _⟩
  | cons m rest ih =>
    rw [List.forall_mem_cons] at h
    obtain ⟨⟨w, hw, hr⟩, h⟩ := h
    obtain ⟨rest', hrest, hrs⟩ := ih h
    refine ⟨(m.1, w) :: rest', ?_, List.forall_mem_cons.2 ⟨hr, hrs⟩⟩
    rw [listedMembers, hw, hrest]
    rfl

/-- A document that spells the entries of members is read as their object, if each of its values is
    read as the member that it spells. -/
theorem exists_jsonEq_listedMembers {members : Document} (hd : members.Distinct)
    (hentries : ∀ m ∈ members, m.2.entries ≠ [])
    (hvalues : ∀ m ∈ members, ∀ u, Spells u {e | e ∈ m.2.entries} →
      ∃ w, listed u = .ok w ∧ m.2.JsonEq w)
    {doc : Document} (h : Spells (.object doc) {e | e ∈ Value.entriesOfMembers members}) :
    ∃ doc', listedMembers doc = .ok doc' ∧ (Value.object members).JsonEq (.object doc') := by
  cases h with
  | object hd' _ hkeys hspelled =>
    have each : ∀ m ∈ doc, ∃ w, listed m.2 = .ok w ∧
        ∃ v, members.get? m.1 = some v ∧ v.JsonEq w := by
      intro m hm
      have hmem : m.1 ∈ members.keys :=
        (nonempty_onward_entriesOfMembers hentries _).1 ((hkeys m.1).1 (List.mem_map_of_mem hm))
      obtain ⟨⟨key, v⟩, hv, hkey⟩ := List.mem_map.1 hmem
      obtain rfl : key = m.1 := hkey
      have hget := hd.get?_of_mem hv
      have spelled := hspelled m.1 m.2 (hd'.get?_of_mem hm)
      rw [onward_entriesOfMembers hd hget] at spelled
      obtain ⟨w, hw, hjson⟩ := hvalues _ hv m.2 spelled
      exact ⟨w, hw, v, hget, hjson⟩
    obtain ⟨doc', hdoc', hjson⟩ := exists_listedMembers
      (R := fun key w => ∃ v, members.get? key = some v ∧ v.JsonEq w) each
    have keys := keys_of_listedMembers hdoc'
    have distinct : Document.Distinct doc' := by
      rw [Document.Distinct, keys]
      exact hd'
    refine ⟨doc', hdoc', .object hd distinct (fun key => ?_) fun key v w hv hw => ?_⟩
    · rw [Document.get?_eq_none_iff, Document.get?_eq_none_iff, keys, hkeys,
        nonempty_onward_entriesOfMembers hentries]
    · obtain ⟨v', hv', heq⟩ := hjson _ (Document.mem_of_get? hw)
      cases hv'.symm.trans hv
      exact heq

theorem Spells.eq_text {v : Value} (h : Spells v entries) {s : String}
    (hs : (⟨[], s⟩ : Entry) ∈ entries) : v = .text s := by
  cases h with
  | text s' =>
    cases hs
    rfl
  | object _ hsteps _ _ => exact absurd rfl (hsteps _ hs)

theorem Spells.eq_object {v : Value} (h : Spells v entries) (hsteps : ∀ e ∈ entries, e.steps ≠ []) :
    ∃ doc, v = .object doc := by
  cases h with
  | text s => exact absurd rfl (hsteps _ (Set.mem_singleton _))
  | @object doc => exact ⟨doc, rfl⟩

/-- An object of a tree is no array, whatever the order of its members. -/
theorem arranged_of_treeKeys {members doc : Document} (h : Value.TreeKeys members)
    (hjson : (Value.object members).JsonEq (.object doc)) : arranged doc = .ok (.object doc) := by
  cases hjson with
  | object _ _ hsame _ =>
    cases doc with
    | nil => rfl
    | cons m rest =>
      have hmem : m.1 ∈ members.keys := (Value.mem_keys_of_get? hsame _).2 List.mem_cons_self
      have hne : members ≠ [] := by
        rintro rfl
        exact List.not_mem_nil hmem
      obtain ⟨key, hkey, hnamed⟩ := h.named hne
      obtain ⟨m', hm', rfl⟩ := List.mem_map.1 ((Value.mem_keys_of_get? hsame key).1 hkey)
      have some_named : ((m :: rest).all fun m => isNumeral m.1) = false :=
        List.all_eq_false.2 ⟨m', hm', by rw [hnamed]; decide⟩
      rw [arranged, some_named, Bool.and_false]
      rfl

/-- A value that spells the entries of a tree is read as the tree. -/
theorem exists_listed {v : Value} (h : v.Tree) :
    ∀ u, Spells u {e | e ∈ v.entries} → ∃ w, listed u = .ok w ∧ v.JsonEq w := by
  induction h with
  | text s =>
    intro u hu
    rw [hu.eq_text (List.mem_singleton.2 rfl)]
    exact ⟨.text s, rfl, .text s⟩
  | @array items hne hbound hitems ih =>
    intro u hu
    rw [Value.entries, Value.entriesOfItems_eq] at hu
    obtain ⟨doc, rfl⟩ := hu.eq_object fun e he => Value.steps_ne_nil he
    have member {m : String × Value} (hm : m ∈ positioned 0 items) :=
      Value.value_mem_of_positioned hm
    obtain ⟨doc', hdoc', hjson⟩ := exists_jsonEq_listedMembers (distinct_positioned 0 items)
      (fun m hm => (hitems _ (member hm)).entries.1) (fun m hm => ih _ (member hm)) hu
    obtain ⟨items', harranged, heq⟩ := arranged_of_positioned hne hbound hjson
    rw [listed, hdoc']
    exact ⟨_, harranged, heq⟩
  | @object members hne hkeys hmembers ih =>
    intro u hu
    obtain ⟨doc, rfl⟩ := hu.eq_object fun e he => Value.steps_ne_nil he
    obtain ⟨doc', hdoc', hjson⟩ := exists_jsonEq_listedMembers hkeys.distinct
      (fun m hm => (hmembers m hm).entries.1) ih hu
    rw [listed, hdoc']
    exact ⟨_, arranged_of_treeKeys hkeys hjson, hjson⟩

end Bracket

/-- A tree that is written as a query is read back but for the order of the members of its objects,
    in whatever order its entries stand. -/
theorem decodeQuery_query {safe : List Char} (hsafe : Bracket.Separable safe) {members : Document}
    (hkeys : Value.TreeKeys members) (htree : ∀ m ∈ members, m.2.Tree) {es : List Entry}
    (hperm : es.Perm (Value.object members).entries) :
    ∃ doc, decodeQuery (Bracket.query safe es) = .ok (.object doc) ∧
      (Value.object members).JsonEq (.object doc) := by
  have hne (e : Entry) (he : e ∈ es) : e.steps ≠ [] := Value.steps_ne_nil (hperm.mem_iff.1 he)
  have hspell (e : Entry) (he : e ∈ es) : e.Spellable :=
    Value.spellable_members hkeys.steps (fun m hm => (htree m hm).entries.2.1) e
      (hperm.mem_iff.1 he)
  have hapart : es.Pairwise Entry.Apart :=
    hperm.symm.pairwise (Value.pairwise_apart_members hkeys.distinct fun m hm =>
      (htree m hm).entries.2.2) Entry.Apart.symm
  have spelled := Bracket.spells_empty.foldl_assign hne hspell hapart
    fun _ _ _ h => absurd h (Set.notMem_empty _)
  have same : {e | e ∈ es} ∪ ∅ = {e | e ∈ Value.entriesOfMembers members} :=
    (Set.union_empty _).trans (Set.ext fun e => hperm.mem_iff)
  rw [same, ← Bracket.written_query hsafe hne hspell] at spelled
  obtain ⟨doc, hdoc, hjson⟩ := Bracket.exists_jsonEq_listedMembers hkeys.distinct
    (fun m hm => (htree m hm).entries.1) (fun m hm => Bracket.exists_listed (htree m hm)) spelled
  refine ⟨doc, ?_, hjson⟩
  rw [decodeQuery, Bracket.listed, hdoc]
  exact Bracket.arranged_of_treeKeys hkeys hjson

/-- A tree with separators and numerals in its keys, and with more items than there are digits. -/
def sampledTree : Document :=
  [("where", .object [("a&b", .object [("=", .text "é + %41"), ("7", .text "")])]),
    ("fields", .array (["a", "b", "c", "d", "e", "f", "g", "h", "i", "j", "k"].map .text))]

/-- The entries of a tree in the opposite order, with brackets that are not percent-encoded. -/
theorem decodeQuery_query_elevenItems :
    Value.TreeKeys sampledTree ∧ (∀ m ∈ sampledTree, m.2.Tree) ∧
      ∃ doc, decodeQuery (Bracket.query ['[', ']'] (Value.object sampledTree).entries.reverse) =
          .ok (.object doc) ∧ (Value.object sampledTree).JsonEq (.object doc) := by
  have keys : Value.TreeKeys sampledTree :=
    ⟨by decide, by decide, fun _ => by decide⟩
  have letters : ∀ v ∈ ["a", "b", "c", "d", "e", "f", "g", "h", "i", "j", "k"].map Value.text,
      v.Tree := by
    intro v hv
    obtain ⟨s, -, rfl⟩ := List.mem_map.1 hv
    exact .text s
  have tree : ∀ m ∈ sampledTree, m.2.Tree := by
    refine List.forall_mem_cons.2 ⟨?_, List.forall_mem_singleton.2 ?_⟩
    · refine .object (List.cons_ne_nil _ _)
        ⟨by decide, by decide, fun _ => by decide⟩
        (List.forall_mem_singleton.2 ?_)
      refine .object (List.cons_ne_nil _ _)
        ⟨by decide, by decide, fun _ => by decide⟩ ?_
      exact List.forall_mem_cons.2 ⟨.text _, List.forall_mem_singleton.2 (.text _)⟩
    · refine .array (List.cons_ne_nil _ _) ?_ letters
      exact Nat.le_trans (by decide : 11 ≤ Numeral.maxDigits)
        (Nat.le_of_lt (Nat.lt_pow_self (by decide)))
  exact ⟨keys, tree, decodeQuery_query (by decide) keys tree (List.reverse_perm _)⟩

end Catalog
