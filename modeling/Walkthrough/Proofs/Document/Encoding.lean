import Walkthrough.Document.Encoding
import Walkthrough.Proofs.Document.WellFormed

/-!
# Documents as JSON values and back

A document is written as a JSON value, and read back from it. Options have no mark of their own in
that value: a string is read back as text, even if it was structured. Nothing else is lost, so the
round trip is exact for all documents without structured strings, and all documents that were read
from an annotated text are among them.

* `Document.textual` — the document with its structured strings as text.
* `Action.ofJson_toJson`, `Document.ofJson_toJson` — this is what is read back.
* `Document.toJson_textual` — it has the same JSON value.
* `Document.textual_eq_self_iff` — it is the document itself where no string is structured.
* `Document.textual_of_parse` — as in every document that was read from an annotated text.
* `ofJson_toJson_exact` — the round trip, and where it is exact.
-/

set_option autoImplicit false

namespace Walkthrough

open Json Text

/-- Options with a structured string as text. -/
def Action.Options.textual : Action.Options → Action.Options
  | .structured (.str content) => .text content
  | options => options

/-- An action with a structured string as text. -/
def Action.textual (a : Action) : Action := { a with options := a.options.textual }

/-- A document with its structured strings as text. -/
def Document.textual (d : Document) : Document :=
  { d with actions := d.actions.map Action.textual }

/-! ## Options -/

namespace Action.Options

theorem ofJson_toJson (o : Action.Options) : ofJson o.toJson = o.textual := by
  cases o with
  | text content => rfl
  | structured value => cases value <;> rfl

theorem toJson_textual (o : Action.Options) : o.textual.toJson = o.toJson := by
  cases o with
  | text content => rfl
  | structured value => cases value <;> rfl

theorem textual_eq_self_iff {o : Action.Options} :
    o.textual = o ↔ ∀ content, o ≠ .structured (.str content) := by
  cases o with
  | text content => simp [textual]
  | structured value => cases value <;> simp [textual]

/-- What a script says is no structured string. -/
theorem WellFormed.textual {o : Action.Options} (h : o.WellFormed) : o.textual = o := by
  cases h <;> rfl

end Action.Options

/-! ## Actions -/

namespace Action

theorem ofJson_toJson (a : Action) : ofJson a.toJson = .ok a.textual := by
  obtain ⟨name, options, outline⟩ := a
  cases outline <;>
    simp [toJson, ofJson, field?, required, ofString, outlineOfJson, textual,
      Options.ofJson_toJson, bind, Except.bind, pure, Except.pure, Except.map, List.lookup_cons]

theorem toJson_textual (a : Action) : a.textual.toJson = a.toJson := by
  simp [toJson, textual, Options.toJson_textual]

theorem textual_eq_self_iff {a : Action} : a.textual = a ↔ a.options.textual = a.options := by
  obtain ⟨name, options, outline⟩ := a
  simp [textual]

end Action

/-! ## Documents -/

namespace Document

/-- A list is read back where its items are. -/
theorem listOf_map {α : Type} {encode : α → Json} {decode : Json → Except Json.Fault α} {f : α → α}
    (h : ∀ a, decode (encode a) = .ok (f a)) (as : List α) :
    listOf decode (.arr (as.map encode)) = .ok (as.map f) := by
  have hdecode : decode ∘ encode = fun a => (pure (f a) : Except Json.Fault α) := funext h
  show (as.map encode).mapM decode = _
  rw [List.mapM_map, hdecode, List.mapM_pure]
  rfl

theorem ofJson_toJson (d : Document) : ofJson d.toJson = .ok d.textual := by
  have hactions := listOf_map Action.ofJson_toJson d.actions
  simp [toJson, ofJson, field?, required, ofString, textual, hactions, bind, Except.bind, pure,
    Except.pure, Except.map, List.lookup_cons]

theorem toJson_textual (d : Document) : d.textual.toJson = d.toJson := by
  simp [toJson, textual, Action.toJson_textual]

theorem textual_eq_self_iff {d : Document} :
    d.textual = d ↔ ∀ a ∈ d.actions, ∀ content, a.options ≠ .structured (.str content) := by
  obtain ⟨source, actions⟩ := d
  simp only [textual, mk.injEq, true_and, ← Action.Options.textual_eq_self_iff,
    ← Action.textual_eq_self_iff]
  constructor
  · intro h a ha
    exact List.map_inj_left.1 (h.trans (List.map_id actions).symm) a ha
  · intro h
    exact (List.map_congr_left h).trans (List.map_id actions)

theorem wellFormed_of_mem {separator text : String} {d : Document}
    (h : parse separator text = .ok d) {a : Action} (ha : a ∈ d.actions) : a.WellFormed := by
  obtain ⟨_, _, _, hactions⟩ := parse_eq_ok h
  exact readScript_wellFormed hactions a ha

/-- No script says a structured string. -/
theorem textual_of_parse {separator text : String} {d : Document}
    (h : parse separator text = .ok d) : d.textual = d := by
  rw [textual_eq_self_iff]
  intro a ha
  exact Action.Options.textual_eq_self_iff.1 (wellFormed_of_mem h ha).options.textual

/-- **A document that is written as a JSON value is read back with its structured strings as text**,
and with nothing else changed. So it comes back as it was exactly if no string in it is structured,
which holds of every document that was read from an annotated text; and the document that comes back
has the same JSON value in any case. -/
theorem ofJson_toJson_exact (d : Document) :
    ofJson d.toJson = .ok d.textual ∧
      (ofJson d.toJson = .ok d ↔
        ∀ a ∈ d.actions, ∀ content, a.options ≠ .structured (.str content)) ∧
      (∀ separator text, parse separator text = .ok d → ofJson d.toJson = .ok d) ∧
      (ofJson d.toJson).map toJson = .ok d.toJson := by
  have hread := ofJson_toJson d
  rw [hread]
  refine ⟨rfl, ?_, ?_, ?_⟩
  · rw [Except.ok.injEq]
    exact textual_eq_self_iff
  · intro separator text hparse
    rw [textual_of_parse hparse]
  · show Except.ok d.textual.toJson = _
    rw [toJson_textual]

/-- A structured string is read back as text, with all around it as it was. -/
example :
    ofJson (toJson
      ⟨"x", [⟨"a", .structured (.str "1"), some "one"⟩, ⟨"b", .structured .null, none⟩]⟩) =
      .ok ⟨"x", [⟨"a", .text "1", some "one"⟩, ⟨"b", .structured .null, none⟩]⟩ := rfl

/-- What is read of a text comes back as it was. -/
theorem ofJson_toJson_read :
    parse "@" "x@a: 1 ::: one" = .ok ⟨"x", [⟨"a", .text "1", some "one"⟩]⟩ ∧
      ofJson (toJson ⟨"x", [⟨"a", .text "1", some "one"⟩]⟩) =
        .ok ⟨"x", [⟨"a", .text "1", some "one"⟩]⟩ := by
  have hread : parse "@" "x@a: 1 ::: one" = .ok ⟨"x", [⟨"a", .text "1", some "one"⟩]⟩ := by cbv
  exact ⟨hread, (ofJson_toJson_exact _).2.2.1 _ _ hread⟩

end Document

end Walkthrough
