import Catalog.Proofs.Policy
import Catalog.Proofs.Query.Equality
import Catalog.Proofs.Rule.Kept
import Catalog.Proofs.Rule.Owners
import Catalog.Proofs.Service.Change

/-!
# Uniqueness

What is unique stays unique in every run of requests that write one record at a time
(`unique_kept`): no two records of the family have equal values of the fields of a rule, or no two
that have an owner in common, if the rule is about the records of one owner.

A record is written only if it differs from all others in the scope, and it is left out itself by
its id, a text, which leaves out no other record. Since both sharing an owner and having equal
values go both ways, it does not matter which of two records came last.
-/

namespace Catalog

/-- A rule of uniqueness for records of all kinds, which is not about their ids. -/
structure Policy.Demands (p : Policy) (rule : UniquenessRule) : Prop where
  /-- It holds for every kind. -/
  always : ∀ kind rules, p.uniquenessFor kind = .ok rules → rule ∈ rules
  /-- The id is not among the fields. -/
  unnamed : .text "_id" ∉ rule.fields

namespace Service

variable {ctx : Context} {config : Configuration} {s : Store} {f : Family} {rule : UniquenessRule}
  {R : Document → Document → Prop}

/-- Records that stand in a relation differ in a field of a rule. -/
def Unique (R : Document → Document → Prop) (rule : UniquenessRule) (docs : List Document) : Prop :=
  docs.Pairwise fun d e => ¬(R d e ∧ d.JsonEqOn rule.fields e)

/-- A record that passes all checks differs from all others in the scope. -/
theorem differs_within_of_checkRules (hc : ctx.config.Separate) (hk : s.Keyed)
    (hr : (ctx.config.policy f).Demands rule) {doc : Document} {exclude : Value}
    (h : checkRules ctx s f doc exclude = .ok ()) {e : Document}
    (hcovers : R doc e → Covers ctx.unrestricted f rule.scope doc e)
    (he : e ∈ s.scan (ctx.collection f)) (ho : (leavingOut exclude).Met e) :
    ¬(R doc e ∧ doc.JsonEqOn rule.fields e) := by
  rintro ⟨hrelated, hequal⟩
  have checked := uniqueness_of_checkRules (hc.family f) h (hr.always _)
  exact UniquenessRule.differs_within hk checked he ho (hcovers hrelated) hr.unnamed
    fun path hp => (hequal path hp).symm.equalTo

/-- No step of a request that writes one record lets two related records become equal. -/
theorem unique_records (hc : ctx.config.Separate) (hs : s.Sound)
    (hr : (ctx.config.policy f).Demands rule) (hsymm : ∀ d e, R d e → R e d)
    (hcovers : ∀ d e, R d e → Covers ctx.unrestricted f rule.scope d e)
    {request : WriteRequest} (hsingle : request.isBulk = false) {docs' : List Document}
    (h : RecordsChange ctx request f s (s.scan (ctx.collection f)) docs')
    (hu : Unique R rule (s.scan (ctx.collection f))) : Unique R rule docs' := by
  have flip {d e : Document} (h : ¬(R d e ∧ d.JsonEqOn rule.fields e)) :
      ¬(R e d ∧ e.JsonEqOn rule.fields d) :=
    fun hed => h ⟨hsymm e d hed.1, hed.2.symm⟩
  cases h with
  | @added given id doc hg hn hdocs =>
    obtain ⟨-, hrules⟩ := newRecord_eq_ok hn
    subst hdocs
    refine List.pairwise_append.2 ⟨hu, List.pairwise_singleton _ _, fun e he d hd => ?_⟩
    rw [List.mem_singleton.1 hd]
    exact flip (differs_within_of_checkRules hc hs.toKeyed hr hrules (hcovers doc e) he rfl)
  | @revised payload body old new now before after hr' hbody hrevised hchecked hscan hdocs =>
    subst hdocs
    obtain ⟨⟨⟩, -, hrules⟩ := bind_eq_ok.1 (hchecked.single hsingle)
    have hold : old ∈ s.scan (ctx.collection f) := by
      rw [hscan]
      exact List.mem_append_right _ List.mem_cons_self
    obtain ⟨id, hid⟩ := hs.textIds _ old hold
    -- The new version differs from the other records, which have other ids.
    have differs (e : Document) (he : e ∈ before ++ after) :
        ¬(R new e ∧ new.JsonEqOn rule.fields e) := by
      have stored : e ∈ s.scan (ctx.collection f) := by
        rw [hscan]
        exact (List.sublist_cons_self old after).append_left before |>.subset he
      obtain ⟨id', hid'⟩ := hs.textIds _ e stored
      refine differs_within_of_checkRules hc hs.toKeyed hr hrules (hcovers new e) stored ?_
      rw [Document.field, hrevised.get?_id, hid]
      refine leavingOut_met hid' ?_
      rintro rfl
      exact hs.toKeyed.id?_ne_of_scan_eq hscan e he
        ((Document.id?_of_text hid').trans (Document.id?_of_text hid).symm)
    rw [hscan] at hu
    rw [Unique, List.pairwise_append, List.pairwise_cons] at hu ⊢
    obtain ⟨hbefore, ⟨-, hafter⟩, hacross⟩ := hu
    refine ⟨hbefore, ⟨fun e he => differs e (List.mem_append_right _ he), hafter⟩,
      fun d hd e he => ?_⟩
    rcases List.mem_cons.1 he with rfl | he
    · exact flip (differs d (List.mem_append_left _ hd))
    · exact hacross d hd e (List.mem_cons_of_mem _ he)
  | fewer hdocs => exact hu.sublist hdocs

/-- What is unique within a relation that a rule's scope covers, is unique after every run of
    requests that write one record at a time. -/
theorem unique_run (hc : config.Separate) (hr : (config.policy f).Demands rule)
    (hsymm : ∀ d e, R d e → R e d)
    (hcovers : ∀ ctx : Context, ∀ d e, R d e → Covers ctx.unrestricted f rule.scope d e)
    (h : Run config (fun request => request.isBulk = false) {} s) :
    Unique R rule (s.scan (config.policy f).collection) := by
  have kept := h.keeps
    (P := fun s => s.Sound ∧ Unique R rule (s.scan (config.policy f).collection))
    Store.Sound.empty.toKeyed ⟨.empty, .nil⟩
    fun ctx request s s' hconfig hsingle hk hs hchange => by
      subst hconfig
      exact ⟨hchange.sound hs.1, unique_records hc hs.1 hr hsymm (hcovers ctx) hsingle
        (hchange.records hc hk f) hs.2⟩
  exact kept.2.2

/-- After every run of requests that write one record at a time, from the empty store, no two
    records have equal values of the fields of a rule of uniqueness without a scope, and no two that
    have a user among their owners in common have equal values of those of a rule about the owners.
    -/
theorem unique_kept (hc : config.Separate) (hr : (config.policy f).Demands rule)
    (h : Run config (fun request => request.isBulk = false) {} s) :
    (rule.scope = "" → (s.scan (config.policy f).collection).Pairwise fun d e =>
        ¬d.JsonEqOn rule.fields e) ∧
      (rule.scope = "set[owners]" → (s.scan (config.policy f).collection).Pairwise fun d e =>
        ¬(d.SharesOwner e ∧ d.JsonEqOn rule.fields e)) := by
  refine ⟨fun hscope => ?_, fun hscope => ?_⟩
  · have unique : Unique (fun _ _ => True) rule (s.scan (config.policy f).collection) :=
      unique_run hc hr (fun _ _ _ => trivial) (fun ctx d e _ => by
        rw [hscope]
        exact FixedScope.empty.covers (access_unrestricted ctx f) d e) h
    exact unique.imp fun hne heq => hne ⟨trivial, heq⟩
  · exact unique_run hc hr (fun _ _ hd => hd.symm) (fun ctx d e hd => by
      rw [hscope]
      exact covers_of_sharesOwner (access_unrestricted ctx f) hd) h

/-- A request to a catalogue where no two entities have the same name, and no two of one owner the
    same code. -/
def codedContext : Context where
  config :=
    { policy := fun f =>
        if f = .entities then
          { Policy.standard f with
            uniquenessRules := [⟨[.text "_name"], ""⟩, ⟨[.text "code"], "set[owners]"⟩] }
        else Policy.standard f }
  now := ⟨.first, 0⟩

/-- An entity with a name, owners and a code. -/
def codedEntity (name : String) (owners : List String) (code : Int) : Value :=
  .object [("_name", .text name), ("_ownerUsers", .array (owners.map .text)), ("code", .int code)]

/-- Two entities of different owners, with one code. A third one with the code of another entity of
    its owner and a fourth one with the name of another entity are refused. -/
def codedRequests : List WriteRequest := [
  .create .entities (codedEntity "A" ["u"] 1) "a",
  .create .entities (codedEntity "B" ["v"] 1) "b",
  .create .entities (codedEntity "C" ["v", "w"] 1) "c",
  .create .entities (codedEntity "A" ["w"] 2) "d",
  .update .entities "b" (.object [("_ownerUsers", .array [.text "u"])])]

/-- No two entities have one name, and the two entities with one code have different owners: the
    request to give them the same owner has been refused. -/
theorem unique_kept_codedRequests :
    let s := performAll codedContext codedRequests {}
    ((s.scan "GenericEntity").Pairwise fun d e => ¬d.JsonEqOn [.text "_name"] e) ∧
      ((s.scan "GenericEntity").Pairwise fun d e =>
        ¬(d.SharesOwner e ∧ d.JsonEqOn [.text "code"] e)) ∧
      (s.scan "GenericEntity").length = 2 := by
  intro s
  have separate : codedContext.config.Separate :=
    { family := fun f => by cases f <;> rfl
      collections := fun f g => by cases f <;> cases g <;> decide }
  have name : (codedContext.config.policy .entities).Demands ⟨[.text "_name"], ""⟩ :=
    { always := fun _ _ hr => Policy.mem_uniquenessFor List.mem_cons_self hr
      unnamed := by simp }
  have code : (codedContext.config.policy .entities).Demands ⟨[.text "code"], "set[owners]"⟩ :=
    { always := fun _ _ hr =>
        Policy.mem_uniquenessFor (List.mem_cons_of_mem _ List.mem_cons_self) hr
      unnamed := by simp }
  have run : Run codedContext.config (fun request => request.isBulk = false) {} s := by
    refine Run.performAll ?_ .start
    simp only [codedRequests, List.forall_mem_cons]
    exact ⟨rfl, rfl, rfl, rfl, rfl, List.forall_mem_nil _⟩
  exact ⟨(unique_kept separate name run).1 rfl, (unique_kept separate code run).2 rfl,
    by decide +kernel⟩

end Service

end Catalog
