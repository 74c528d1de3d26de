import Catalog.Proofs.Query.Parts
import Catalog.Proofs.Query.Refusals

/-!
# How filters are read

A filter is read *part* by part (`Filter.parts`): operands that are coerced, patterns, bounds of its
page, orders, fields, sets, and the filters nested in it, which may be JSON text. Reading ends at
the first part that fails, so it ends as the checks of its parts do, one after the other
(`Filter.endsAs_read`). The proofs follow the readers, which go down the value they read.

What no part is refused for, no filter is: a filter that is refused is refused as one
(`refuses_filterRead`).
-/

namespace Catalog

open Text

variable {α β γ ε : Type}

/-! ## Endings -/

/-- How an outcome ends, whatever it gives. -/
def ending (x : Except ε α) : Except ε Unit := (fun _ => ()) <$> x

theorem ending_eq_error {x : Except ε α} {e : ε} : ending x = .error e ↔ x = .error e :=
  map_eq_error

/-- Checks of parts, one after the other, come to a part with a property: what stands before it
    passes. -/
def ComesTo (check : γ → Except ε Unit) (P : γ → Prop) (parts : List γ) : Prop :=
  ∃ before p after, parts = before ++ p :: after ∧ (∀ q ∈ before, check q = .ok ()) ∧ P p

theorem ComesTo.congr {check : γ → Except ε Unit} {P Q : γ → Prop} {parts : List γ}
    (h : ∀ p ∈ parts, P p ↔ Q p) : ComesTo check P parts ↔ ComesTo check Q parts := by
  refine exists_congr fun before => exists_congr fun p => exists_congr fun after =>
    and_congr_right fun hparts => and_congr_right fun _ => h p ?_
  rw [hparts]
  exact List.mem_append_right before List.mem_cons_self

/-- An outcome ends as the checks of parts do, one after the other. -/
def EndsAs (check : γ → Except ε Unit) (x : Except ε α) (parts : List γ) : Prop :=
  ending x = parts.forM check

namespace EndsAs

variable {check : γ → Except ε Unit} {x : Except ε α} {k : α → Except ε β} {parts parts' : List γ}

theorem ok (a : α) : EndsAs check (.ok a) [] := rfl

theorem of_check {p : γ} (h : ending x = check p) : EndsAs check x [p] := by
  change ending x = check p >>= fun _ => pure ()
  rw [h]
  cases check p <;> rfl

theorem bind (hx : EndsAs check x parts) (hk : ∀ a, x = .ok a → EndsAs check (k a) parts') :
    EndsAs check (x >>= k) (parts ++ parts') := by
  have split : (parts ++ parts').forM check =
      parts.forM check >>= fun _ => parts'.forM check := List.forM_append
  rw [EndsAs, split, ← hx]
  cases x with
  | error e => rfl
  | ok a => exact hk a rfl

/-- An outcome that is only rewritten ends as before. -/
theorem map (hx : EndsAs check x parts) (g : α → β) :
    EndsAs check (x >>= fun a => pure (g a)) parts := by
  have ends := hx.bind fun a _ => ok (g a)
  rwa [List.append_nil] at ends

theorem mapM {δ : Type} {k : δ → Except ε α} {each : δ → List γ} {xs : List δ}
    (h : ∀ x ∈ xs, EndsAs check (k x) (each x)) : EndsAs check (xs.mapM k) (xs.flatMap each) := by
  induction xs with
  | nil => exact ok []
  | cons x xs ih =>
    rw [List.forall_mem_cons] at h
    rw [List.mapM_cons, List.flatMap_cons]
    exact h.1.bind fun _ _ => (ih h.2).map _

theorem filterMapM {δ : Type} {k : δ → Except ε (Option α)} {each : δ → List γ} {xs : List δ}
    (h : ∀ x ∈ xs, EndsAs check (k x) (each x)) :
    EndsAs check (xs.filterMapM k) (xs.flatMap each) := by
  induction xs with
  | nil => exact ok []
  | cons x xs ih =>
    rw [List.forall_mem_cons] at h
    rw [List.filterMapM_cons, List.flatMap_cons]
    refine h.1.bind fun o _ => ?_
    cases o with
    | none => exact ih h.2
    | some a => exact (ih h.2).map _

/-- An outcome fails where the first of its parts does. -/
theorem eq_error (h : EndsAs check x parts) {e : ε} :
    x = .error e ↔ ComesTo check (check · = .error e) parts := by
  rw [← ending_eq_error, h]
  exact forM_eq_error

end EndsAs

/-- An outcome is refused for no other reasons than its parts are. -/
theorem EndsAs.refusesOnly {R : Refusal → Prop} {check : γ → Outcome Unit} {x : Outcome α}
    {parts : List γ} (h : EndsAs check x parts) (hcheck : ∀ p, RefusesOnly R (check p)) :
    RefusesOnly R x := by
  intro r hr
  obtain ⟨_, p, _, -, -, hp⟩ := h.eq_error.1 hr
  exact hcheck p r hp

/-! ## Parts -/

/-- A part of a filter, as it is read. -/
inductive Part where
  /-- A filter, which may be given as text. -/
  | filter (v : Value)
  /-- An operand and its type hint. -/
  | operand (hint v : Value)
  /-- An operand that is a pattern. -/
  | pattern (path : String) (operator : Operator) (v : Value)
  /-- A bound of the page. -/
  | bound (which : PageBound) (v : Value)
  /-- A field to sort by. -/
  | orderKey (v : Value)
  /-- The fields to show. -/
  | fields (v : Value)
  /-- The set. -/
  | set (v : Value)
  /-- A mistake in the form of the filter. -/
  | mistake (e : FilterError)

/-- What reading a part makes of it. -/
def Part.check : Part → Outcome Unit
  | .filter v => ending (loadFilter v)
  | .operand hint v => ending (coerce hint v)
  | .pattern path operator v => ending (Leaf.readPattern path operator v)
  | .bound which v => ending (readBound which v)
  | .orderKey v => ending (readOrderKey v)
  | .fields v => ending (readFields v)
  | .set v => ending (SetExpr.read v)
  | .mistake e => refuseFilter e

theorem EndsAs.refuse (e : FilterError) :
    EndsAs Part.check (refuseFilter e : Outcome α) [.mistake e] :=
  of_check rfl

/-- A part that is refused is refused as a mistake in the filter. -/
theorem Part.refuses_check (p : Part) : RefusesOnly Refusal.IsFilter p.check := by
  have ended {α : Type} {x : Outcome α} (hx : RefusesOnly Refusal.IsFilter x) :
      RefusesOnly Refusal.IsFilter (ending x) := fun r h => hx r (ending_eq_error.1 h)
  cases p with
  | filter v => exact ended (refuses_loadFilter v)
  | operand hint v => exact ended (refuses_coerce hint v)
  | pattern path operator v => exact ended (refuses_readPattern path operator v)
  | bound which v => exact ended (readOrRefused_readBound which v).refusesOnly
  | orderKey v => exact ended (readOrRefused_readOrderKey v).refusesOnly
  | fields v => exact ended (readOrRefused_readFields v).refusesOnly
  | set v => exact ended (SetExpr.refuses_read v)
  | mistake e => exact refusesOnly_refuseFilter e

/-! ## Leaves -/

theorem endsAs_coerce (hint v : Value) : EndsAs Part.check (coerce hint v) [.operand hint v] :=
  .of_check rfl

theorem endsAs_coerceEach (hint : Value) (vs : List Value) :
    EndsAs Part.check (coerceEach hint vs) (vs.map (Part.operand hint)) := by
  have each : EndsAs Part.check (vs.mapM (coerce hint)) (vs.flatMap fun v => [.operand hint v]) :=
    .mapM fun v _ => endsAs_coerce hint v
  rw [List.map_eq_flatMap]
  exact each.map _

/-- The parts of an operator and its operand. -/
def Leaf.parts (path : String) (hint : Value) (operator : Operator) (v : Value) : List Part :=
  match operator with
  | .between =>
    if (operandsOf v).length ≠ 2 then [.mistake (.rangeEnds path)]
    else (operandsOf v).map (.operand hint)
  | .inq | .nin => (operandsOf v).map (.operand hint)
  | .present => []
  | .like | .nlike | .ilike | .nilike | .regexp => [.pattern path operator v]
  | _ => [.operand hint v]

theorem endsAs_readLeaf (path : String) (hint : Value) (operator : Operator) (v : Value) :
    EndsAs Part.check (Leaf.read path hint operator v) (Leaf.parts path hint operator v) := by
  have pattern : EndsAs Part.check (Leaf.readPattern path operator v) [.pattern path operator v] :=
    .of_check rfl
  unfold Leaf.read Leaf.parts
  cases operator with
  | between =>
    dsimp only
    split
    · exact EndsAs.refuse (.rangeEnds path)
    · exact (endsAs_coerceEach hint _).map _
  | inq | nin => exact (endsAs_coerceEach hint _).map _
  | present => exact .ok _
  | like | nlike | ilike | nilike | regexp => exact pattern
  | eq | neq | gt | gte | lt | lte => exact (endsAs_coerce hint v).map _

namespace Condition

/-! ## Conditions -/

/-- The parts of an object of operators. -/
def operatorsParts (path : String) (members : List (String × Value)) : List Part :=
  let hint := Value.orNull (Document.get? "type" members)
  let options := lower ((Document.get? "options" members).getD (.text "")).display
  (members.flatMap fun m =>
    match operatorOf? options m.1 with
    | some operator => Leaf.parts path hint operator m.2
    | none => []) ++
  if members.all fun m => (operatorOf? options m.1).isNone then [.mistake (.noOperator path)]
  else []

/-- Nothing is picked if it is picked from no element. -/
theorem isEmpty_of_filterMapM {γ : Type} {k : γ → Outcome (Option α)} {p : γ → Bool} {xs : List γ}
    {ys : List α} (h : ∀ x ∈ xs, ∀ o, k x = .ok o → o.isNone = p x)
    (hys : xs.filterMapM k = .ok ys) : ys.isEmpty = xs.all p := by
  induction xs generalizing ys with
  | nil =>
    cases hys
    rfl
  | cons x xs ih =>
    rw [List.forall_mem_cons] at h
    rw [List.filterMapM_cons] at hys
    obtain ⟨o, ho, hys⟩ := bind_eq_ok.1 hys
    rw [List.all_cons, ← h.1 o ho]
    cases o with
    | none => exact ih h.2 hys
    | some a =>
      obtain ⟨rest, -, hys⟩ := bind_eq_ok.1 hys
      cases hys
      rfl

theorem endsAs_readOperators (path : String) (members : List (String × Value)) :
    EndsAs Part.check (readOperators path members) (operatorsParts path members) := by
  unfold readOperators operatorsParts
  extract_lets hint options
  refine .bind (.filterMapM fun m _ => ?_) fun leaves hleaves => ?_
  · dsimp only
    cases operatorOf? options m.1 with
    | some operator => exact (endsAs_readLeaf path hint operator m.2).map _
    | none => exact .ok _
  · have hempty := isEmpty_of_filterMapM
      (p := fun m => (operatorOf? options m.1).isNone) (fun m _ o ho => ?_) hleaves
    · dsimp only
      rw [hempty]
      split
      · exact EndsAs.refuse (.noOperator path)
      · exact .ok _
    · dsimp only at ho
      cases hoperator : operatorOf? options m.1 with
      | none =>
        rw [hoperator] at ho
        cases ho
        rfl
      | some operator =>
        rw [hoperator] at ho
        obtain ⟨leaf, -, ho⟩ := bind_eq_ok.1 ho
        cases ho
        rfl

mutual

/-- The parts of the members of an object. -/
def membersParts (within : String) : List (String × Value) → List Part
  | [] => []
  | (key, v) :: rest =>
    (match connective? within key with
    | some c => connectedParts v ++ if v.truthy then [] else [.mistake (.emptyConnective c)]
    | none => fieldParts (within ++ key) v) ++ membersParts within rest

/-- The parts of what a connective connects. -/
def connectedParts : Value → List Part
  | .array items => itemsParts items
  | .object [] => []
  | .object members => membersParts "" members
  | .null => []
  | .text s => if s.isEmpty then [] else [.mistake .whereNotObject]
  | _ => [.mistake .whereNotObject]

/-- The parts of the objects in an array. -/
def itemsParts : List Value → List Part
  | [] => []
  | .object members :: rest => membersParts "" members ++ itemsParts rest
  | _ :: _ => [.mistake .whereNotObject]

/-- The parts of the value next to a field. -/
def fieldParts (path : String) : Value → List Part
  | .object [] => [.mistake (.emptyCondition path)]
  | .object members =>
    if members.all fun m => isLeafKey m.1 then operatorsParts path members
    else membersParts (path ++ ".") members
  | .array items => items.map (.operand .null)
  | v => [.operand .null v]

end

/-- The parts of a condition. -/
def parts : Value → List Part
  | .object members => membersParts "" members
  | _ => [.mistake .whereNotObject]

/-- A connective connects nothing if what stands next to it does not count as true. -/
theorem isEmpty_of_readConnected {v : Value} {cs : List Condition} (h : readConnected v = .ok cs) :
    cs.isEmpty = !v.truthy := by
  cases v with
  | array items =>
    cases items with
    | nil =>
      cases h
      rfl
    | cons w rest =>
      cases w with
      | object members =>
        obtain ⟨_, -, h⟩ := bind_eq_ok.1 h
        obtain ⟨_, -, h⟩ := bind_eq_ok.1 h
        cases h
        rfl
      | _ => cases h
  | object members =>
    cases members with
    | nil =>
      cases h
      rfl
    | cons m rest =>
      obtain ⟨_, -, h⟩ := bind_eq_ok.1 h
      cases h
      rfl
  | null =>
    cases h
    rfl
  | text s =>
    rw [readConnected] at h
    split at h
    · next hs =>
      cases h
      rw [Value.truthy, hs]
      rfl
    · cases h
  | _ => cases h

theorem endsAs_connected (c : Connective) {v : Value} {cs : List Condition}
    (h : readConnected v = .ok cs) :
    EndsAs Part.check (connected c cs)
      (if v.truthy then [] else [.mistake (.emptyConnective c)]) := by
  unfold connected
  rw [isEmpty_of_readConnected h]
  cases v.truthy with
  | true => exact .ok _
  | false => exact .refuse _

mutual

theorem endsAs_readMembers (within : String) : ∀ members : List (String × Value),
    EndsAs Part.check (readMembers within members) (membersParts within members)
  | [] => .ok _
  | (key, v) :: rest => by
    have others (c : Condition) : EndsAs Part.check
        (readMembers within rest >>= fun cs => pure (c :: cs)) (membersParts within rest) :=
      (endsAs_readMembers within rest).map _
    rw [readMembers, membersParts]
    cases connective? within key with
    | some c =>
      dsimp only
      rw [List.append_assoc]
      exact (endsAs_readConnected v).bind fun cs hcs =>
        (endsAs_connected c hcs).bind fun c _ => others c
    | none => exact (endsAs_readField _ v).bind fun c _ => others c

theorem endsAs_readConnected : ∀ v : Value, EndsAs Part.check (readConnected v) (connectedParts v)
  | .array items => endsAs_readItems items
  | .object [] => .ok _
  | .object (m :: members) => (endsAs_readMembers "" (m :: members)).map _
  | .null => .ok _
  | .text s => by
    rw [readConnected, connectedParts]
    split
    · exact .ok _
    · exact .refuse _
  | .bool _ | .number _ | .instant _ => .refuse _

theorem endsAs_readItems :
    ∀ items : List Value, EndsAs Part.check (readItems items) (itemsParts items)
  | [] => .ok _
  | .object members :: rest =>
    (endsAs_readMembers "" members).bind fun _ _ => (endsAs_readItems rest).map _
  | .null :: _ | .bool _ :: _ | .number _ :: _ | .text _ :: _ | .instant _ :: _ | .array _ :: _ =>
    .refuse _

theorem endsAs_readField (path : String) :
    ∀ v : Value, EndsAs Part.check (readField path v) (fieldParts path v)
  | .object [] => .refuse _
  | .object (m :: members) => by
    unfold readField fieldParts
    split
    · exact endsAs_readOperators path _
    · exact (endsAs_readMembers _ (m :: members)).map _
  | .array items => (endsAs_coerceEach _ items).map _
  | .null | .bool _ | .number _ | .text _ | .instant _ => (endsAs_coerce _ _).map _

end

theorem endsAs_read (v : Value) : EndsAs Part.check (read v) (parts v) := by
  cases v with
  | object members => exact (endsAs_readMembers "" members).map _
  | _ => exact .refuse _

end Condition

/-! ## Filters -/

/-- The parts of a bound of the page. -/
def boundParts (which : PageBound) (v : Value) : List Part :=
  if isUnsaid v then [] else [.bound which v]

theorem endsAs_readLimit (v : Value) (default maximum : Option Int) :
    EndsAs Part.check (readLimit v default maximum) (boundParts .limit v) := by
  unfold readLimit boundParts
  split
  · exact .ok _
  · exact .map (.of_check rfl) _

theorem endsAs_readSkip (v : Value) : EndsAs Part.check (readSkip v) (boundParts .skip v) := by
  unfold readSkip boundParts
  split
  · exact .ok _
  · exact .of_check rfl

/-- The fields to sort by that a value lists. -/
def orderItems : Value → List Value
  | .null => []
  | .array items => items
  | .text s => if s.isEmpty then [] else (splitOn ',' s).map .text
  | v => (splitOn ',' v.display).map .text

theorem endsAs_readOrder (v : Value) :
    EndsAs Part.check (readOrder v) ((orderItems v).map Part.orderKey) := by
  have each : EndsAs Part.check ((orderItems v).filterMapM readOrderKey)
      ((orderItems v).flatMap fun item => [.orderKey item]) := .filterMapM fun _ _ => .of_check rfl
  rw [List.map_eq_flatMap]
  exact each

/-- The parts of a lookup, where the filter on what is looked up has parts of its own. -/
def lookupParts (scopeParts : Value → List Part) : Value → List Part
  | .object members =>
    if (scopedName? "prop" members).isSome then
      scopeParts (Value.orNull (Document.get? "scope" members))
    else [.mistake .lookupWithoutProp]
  | _ => [.mistake .lookupWithoutProp]

/-- The parts of an include, where the filter on what is included has parts of its own. -/
def includeParts (scopeParts : Value → List Part) : Value → List Part
  | .text _ => []
  | .object members =>
    if (scopedName? "relation" members).isSome then
      scopeParts (Value.orNull (Document.get? "scope" members))
    else [.mistake .includeWithoutRelation]
  | _ => [.mistake .includeWithoutRelation]

variable {readScope : Value → Outcome Filter} {scopeParts : Value → List Part}

theorem endsAs_readLookup (h : ∀ v, EndsAs Part.check (readScope v) (scopeParts v)) (v : Value) :
    EndsAs Part.check (readLookup readScope v) (lookupParts scopeParts v) := by
  cases v with
  | object members =>
    rw [readLookup, lookupParts]
    cases scopedName? "prop" members with
    | some name => exact (h _).map _
    | none => exact .refuse _
  | _ => exact .refuse _

theorem endsAs_readInclude (h : ∀ v, EndsAs Part.check (readScope v) (scopeParts v)) (v : Value) :
    EndsAs Part.check (readInclude readScope v) (includeParts scopeParts v) := by
  cases v with
  | text name => exact .ok _
  | object members =>
    rw [readInclude, includeParts]
    cases scopedName? "relation" members with
    | some name => exact (h _).map _
    | none => exact .refuse _
  | _ => exact .refuse _

namespace Filter

/-- The parts of the members of a filter, where the filters nested in it have parts of their own. -/
def membersParts (scopeParts : Value → List Part) (members : Document) : List Part :=
  (if (members.field "where").isBlank then [] else Condition.parts (members.field "where")) ++
  (boundParts .limit (members.field "limit") ++
  (boundParts .skip (skipOf members) ++
  ((listOf (members.field "lookup")).flatMap (lookupParts scopeParts) ++
  ((listOf (members.field "include")).flatMap (includeParts scopeParts) ++
  ((orderItems (members.field "order")).map .orderKey ++
  [.fields (members.field "fields"), .set (members.field "set")])))))

/-- The parts of a filter, with filters nested in it to some depth. -/
def partsWithin (depth : Int) : Nat → Value → List Part
  | 0, v => [.filter v, .mistake (.tooDeep depth)]
  | levels + 1, v => .filter v ::
    match loadFilter v with
    | .ok members => membersParts (partsWithin depth levels) members
    | .error _ => []

/-- The parts of a filter in the order in which they are read. -/
def parts (bounds : FilterBounds) (v : Value) : List Part :=
  partsWithin bounds.depth (bounds.depth + 1).toNat v

theorem endsAs_readCondition (v : Value) :
    EndsAs Part.check (readCondition v) (if v.isBlank then [] else Condition.parts v) := by
  rw [readCondition]
  split
  · exact .ok _
  · exact Condition.endsAs_read v

/-- What is nested in a filter is read as its own parts, so the filter is. -/
theorem endsAs_readLevels (bounds : FilterBounds) (levels : Nat) (default maximum : Option Int)
    (v : Value) : EndsAs Part.check (readLevels bounds default maximum levels v)
      (partsWithin bounds.depth levels v) := by
  have loaded : EndsAs Part.check (loadFilter v) [.filter v] := .of_check rfl
  induction levels generalizing default maximum v with
  | zero => exact loaded.bind fun _ _ => .refuse _
  | succ levels ih =>
    refine loaded.bind fun members hmembers => ?_
    rw [hmembers]
    change EndsAs Part.check (readLevels bounds default maximum (levels + 1) (.object members)) _
    rw [readLevels_object]
    have within (v : Value) := ih none none v (.of_check rfl)
    have fields : EndsAs Part.check (readFields (members.field "fields"))
        [.fields (members.field "fields")] := .of_check rfl
    exact (endsAs_readCondition _).bind fun _ _ =>
      (endsAs_readLimit _ _ _).bind fun _ _ =>
      (endsAs_readSkip _).bind fun _ _ =>
      (EndsAs.mapM fun v _ => endsAs_readLookup within v).bind fun _ _ =>
      (EndsAs.mapM fun v _ => endsAs_readInclude within v).bind fun _ _ =>
      (endsAs_readOrder _).bind fun _ _ =>
      fields.bind fun _ _ => .map (.of_check rfl) _

theorem endsAs_read (bounds : FilterBounds) (v : Value) :
    EndsAs Part.check (read bounds v) (parts bounds v) :=
  endsAs_readLevels bounds _ _ _ v

end Filter

/-- A filter that is refused is refused as a filter. -/
theorem refuses_filterRead (bounds : FilterBounds) (v : Value) :
    RefusesOnly Refusal.IsFilter (Filter.read bounds v) :=
  (Filter.endsAs_read bounds v).refusesOnly Part.refuses_check

end Catalog
