import Catalog.Number.Basic
import Catalog.Time.Moment

/-!
# Values

What the catalogue stores and compares: null, booleans, numbers, texts, arrays and objects, as in a
JSON text, and moments, which stand in conditions only. A *document* is the list of the members
of an object. It keeps the order in which its keys were first written; looking up, writing and
removing a key never duplicate one (`Document.Distinct` is kept by `put` and `erase`).
-/

namespace Catalog

/-- A value of a document or of a condition. -/
inductive Value where
  /-- No value. -/
  | null
  /-- A truth value. -/
  | bool (b : Bool)
  /-- A number. -/
  | number (n : Number)
  /-- A text. -/
  | text (s : String)
  /-- A point of time; there are none in documents. -/
  | instant (t : Moment)
  /-- A list of values. -/
  | array (items : List Value)
  /-- A document. -/
  | object (members : List (String × Value))
deriving Inhabited

/-- The members of an object: keys and their values. -/
abbrev Document := List (String × Value)

namespace Document

/-- The value of a key. -/
def get? (key : String) : Document → Option Value
  | [] => none
  | (k, v) :: rest => if k = key then some v else get? key rest

/-- Whether a key has a value. -/
def has (key : String) (doc : Document) : Bool := (get? key doc).isSome

/-- Gives a key a value: in its place if the key is there, else at the end. -/
def put (key : String) (value : Value) : Document → Document
  | [] => [(key, value)]
  | (k, v) :: rest => if k = key then (k, value) :: rest else (k, v) :: put key value rest

/-- Removes a key. -/
def erase (key : String) (doc : Document) : Document := doc.filter fun m => m.1 ≠ key

/-- The keys in order. -/
def keys (doc : Document) : List String := doc.map Prod.fst

/-- No key is there twice. -/
def Distinct (doc : Document) : Prop := doc.keys.Nodup

/-- Writes the members of one document over those of another. -/
def putAll (doc news : Document) : Document := news.foldl (fun d m => d.put m.1 m.2) doc

/-- The document with the given members; of several with one key the last counts. -/
def ofMembers (members : List (String × Value)) : Document := putAll [] members

theorem get?_put (key key' : String) (value : Value) (doc : Document) :
    get? key' (put key value doc) = if key' = key then some value else get? key' doc := by
  induction doc with
  | nil => simp [put, get?, eq_comm]
  | cons m rest ih =>
    obtain ⟨k, v⟩ := m
    simp only [put]
    split <;> simp only [get?] <;> grind

theorem get?_erase (key key' : String) (doc : Document) :
    get? key' (erase key doc) = if key' = key then none else get? key' doc := by
  induction doc with
  | nil => simp [erase, get?]
  | cons m rest ih =>
    obtain ⟨k, v⟩ := m
    simp only [erase, List.filter_cons] at ih ⊢
    split <;> simp only [get?] <;> grind

theorem get?_eq_none_iff {key : String} {doc : Document} :
    get? key doc = none ↔ key ∉ doc.keys := by
  induction doc with
  | nil => simp [get?, keys]
  | cons m rest ih =>
    obtain ⟨k, v⟩ := m
    simp only [get?, keys, List.map_cons, List.mem_cons] at ih ⊢
    split <;> simp_all [eq_comm]

/-- Writing other members over a document leaves the value of a key alone. -/
theorem get?_putAll_of_not_mem {key : String} {news : Document} (h : key ∉ news.keys)
    (doc : Document) : get? key (doc.putAll news) = get? key doc := by
  induction news generalizing doc with
  | nil => rfl
  | cons m rest ih =>
    simp only [keys, List.map_cons, List.mem_cons, not_or] at h
    rw [putAll, List.foldl_cons]
    exact (ih h.2 _).trans (by rw [get?_put, if_neg h.1])

/-- Removing several keys removes these and no others. -/
theorem get?_eraseAll (key : String) (fields : List String) (doc : Document) :
    get? key (fields.foldl (fun d field => d.erase field) doc) =
      if key ∈ fields then none else get? key doc := by
  induction fields generalizing doc with
  | nil => simp
  | cons f fs ih =>
    rw [List.foldl_cons, ih, get?_erase]
    simp only [List.mem_cons]
    split <;> split <;> simp_all

/-- Writing a key adds it to the keys unless it is there. -/
theorem mem_keys_put {key key' : String} {value : Value} {doc : Document} :
    key' ∈ keys (put key value doc) ↔ key' = key ∨ key' ∈ keys doc := by
  induction doc with
  | nil => simp [put, keys]
  | cons m rest ih =>
    obtain ⟨k, v⟩ := m
    simp only [put, keys] at *
    split <;> grind

theorem Distinct.put {doc : Document} (h : doc.Distinct) (key : String) (value : Value) :
    (put key value doc).Distinct := by
  induction doc with
  | nil => simp [Document.put, Distinct, keys]
  | cons m rest ih =>
    obtain ⟨k, v⟩ := m
    simp only [Distinct, keys, List.map_cons, List.nodup_cons] at h
    simp only [Document.put]
    split
    · simpa [Distinct, keys] using h
    · next hk =>
      simp only [Distinct, keys, List.map_cons, List.nodup_cons]
      refine ⟨fun hmem => ?_, ih h.2⟩
      rcases mem_keys_put.1 hmem with h' | h'
      · exact hk h'
      · exact h.1 h'

theorem Distinct.erase {doc : Document} (h : doc.Distinct) (key : String) :
    (erase key doc).Distinct :=
  List.Nodup.sublist (List.Sublist.map Prod.fst List.filter_sublist) h

end Document

namespace Value

/-- The whole number as a value. -/
def int (n : Int) : Value := .number (.int n)

/-- Whether a value counts as true: null, false, zero and everything empty do not. -/
def truthy : Value → Bool
  | .null => false
  | .bool b => b
  | .number n => !n.isZero
  | .text s => !s.isEmpty
  | .instant _ => true
  | .array items => !items.isEmpty
  | .object members => !members.isEmpty

/-- Whether a value is null, an empty text or an empty object. -/
def isBlank : Value → Bool
  | .null => true
  | .text s => s.isEmpty
  | .object members => members.isEmpty
  | _ => false

/-- The value of a member that may be missing: null if it is. -/
def orNull (v : Option Value) : Value := v.getD .null

/-- The items of a collection: those of an array, the characters of a text, the keys of an
    object. Nothing else is a collection. -/
def elements? : Value → Option (List Value)
  | .array items => some items
  | .text s => some (s.toList.map fun c => .text (String.singleton c))
  | .object members => some (members.map fun m => .text m.1)
  | _ => none

/-- The name of the kind of a value. -/
def kindName : Value → String
  | .null => "NoneType"
  | .bool _ => "bool"
  | .number (.int _) => "int"
  | .number (.double _) => "float"
  | .text _ => "str"
  | .instant _ => "datetime"
  | .array _ => "list"
  | .object _ => "dict"

end Value

end Catalog
