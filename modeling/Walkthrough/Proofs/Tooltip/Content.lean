import Walkthrough.Proofs.Document.Encoding
import Walkthrough.Tooltip.Content

/-!
# Which actions are tooltips

An action is a tooltip if its options hold a text and a written position. An object holds the two as
members, whatever else is in it. But a list whose items are the two is taken for a tooltip as well,
though a tooltip is told to need an object. Such a list comes only from documents that were not read
from a text.

* `Members`, `Holds` — the objects with a text and a written position, and all values that hold
  them.
* `fields_eq_ok_iff` — a text and a position are read of these values, and of no others.
* `Outcome`, `ofAction_outcome` — what may become of an action, and that one of it does.
* `Classified` — what becomes of an action depends on what its options hold.
* `ofAction_exact` — when that may be said of objects only.
* `ofAction_list` — a tooltip without an object.
-/

set_option autoImplicit false

namespace Walkthrough

open Json

namespace Json

theorem ofString_eq_ok_iff {value : Json} {text : String} :
    ofString value = .ok text ↔ value = .str text := by
  cases value <;> simp [ofString]

theorem lookup_of_required {name text : String} {members : List (String × Json)}
    {known : Option String} (hfield : field? ofString name members = .ok known)
    (hrequired : required name known = .ok text) : members.lookup name = some (.str text) := by
  cases known with
  | none => cases hrequired
  | some t =>
      cases hrequired
      unfold field? at hfield
      split at hfield
      · rename_i value hlookup
        obtain ⟨t, ht, hsome⟩ := exists_of_map_eq_ok hfield
        cases hsome
        rw [hlookup, ofString_eq_ok_iff.1 ht]
      · cases hfield

end Json

namespace Tooltip.Content

/-- A value is an object with a text and a written position among its members. -/
def Members (value : Json) (text pos : String) : Prop :=
  value.member? "text" = some (.str text) ∧ value.member? "pos" = some (.str pos)

/-- A value holds a text and a written position: as members of an object, or as the two items of a
list. -/
inductive Holds : Json → String → String → Prop where
  | object {value : Json} {text pos : String} : Members value text pos → Holds value text pos
  | list (text pos : String) : Holds (.arr [.str text, .str pos]) text pos

/-! ## Fields -/

theorem holds_of_fields {value : Json} {text pos : String} (h : fields value = .ok (text, pos)) :
    Holds value text pos := by
  cases value with
  | arr items =>
      rcases items with _ | ⟨first, _ | ⟨second, more⟩⟩
      · cases h
      · obtain ⟨_, _, h⟩ := exists_of_bind_eq_ok h
        cases h
      · obtain ⟨t, ht, h⟩ := exists_of_bind_eq_ok h
        obtain ⟨p, hp, h⟩ := exists_of_bind_eq_ok h
        cases more with
        | cons => cases h
        | nil =>
            cases h
            rw [ofString_eq_ok_iff.1 ht, ofString_eq_ok_iff.1 hp]
            exact .list text pos
  | obj members =>
      obtain ⟨knownPos, hpos, h⟩ := exists_of_bind_eq_ok h
      obtain ⟨knownText, htext, h⟩ := exists_of_bind_eq_ok h
      obtain ⟨t, ht, h⟩ := exists_of_bind_eq_ok h
      obtain ⟨p, hp, h⟩ := exists_of_bind_eq_ok h
      cases h
      exact .object ⟨lookup_of_required htext ht, lookup_of_required hpos hp⟩
  | _ => cases h

theorem fields_of_members {value : Json} {text pos : String} (h : Members value text pos) :
    fields value = .ok (text, pos) := by
  obtain ⟨htext, hpos⟩ := h
  cases value with
  | obj members =>
      have htext : members.lookup "text" = some (.str text) := htext
      have hpos : members.lookup "pos" = some (.str pos) := hpos
      simp only [fields, field?, htext, hpos]
      rfl
  | _ => cases htext

/-- **A text and a written position are read of the values that hold them**, and of no others. -/
theorem fields_eq_ok_iff {value : Json} {text pos : String} :
    fields value = .ok (text, pos) ↔ Holds value text pos := by
  constructor
  · exact holds_of_fields
  · intro h
    cases h with
    | object hmembers => exact fields_of_members hmembers
    | list => rfl

/-! ## Actions -/

variable {a : Action} {value : Json} {text pos : String}

theorem ofAction_text {content : String} (h : a.options = .text content) :
    ofAction a = .error (.notStructured a.name) := by
  simp only [ofAction, h]

theorem ofAction_refused (h : a.options = .structured value) (hvalue : ∀ t p, ¬ Holds value t p) :
    ∃ cause, ofAction a = .error (.invalidOptions cause) := by
  cases hfields : fields value with
  | ok parts => exact absurd (holds_of_fields hfields) (hvalue _ _)
  | error cause => exact ⟨cause, by simp only [ofAction, h, hfields]⟩

theorem ofAction_misplaced {cause : Position.Fault} (h : a.options = .structured value)
    (hvalue : Holds value text pos) (hpos : Position.ofString pos = .error cause) :
    ofAction a = .error (.invalidPosition cause) := by
  simp only [ofAction, h, fields_eq_ok_iff.2 hvalue, hpos]

theorem ofAction_placed {p : Position} (h : a.options = .structured value)
    (hvalue : Holds value text pos) (hpos : Position.ofString pos = .ok p) :
    ofAction a = .ok ⟨text, p⟩ := by
  simp only [ofAction, h, fields_eq_ok_iff.2 hvalue, hpos]

/-- What may become of an action, and when. -/
inductive Outcome (a : Action) : Except Tooltip.Fault Content → Prop where
  | text {content : String} : a.options = .text content → Outcome a (.error (.notStructured a.name))
  | refused {value : Json} {cause : Json.Fault} : a.options = .structured value →
      (∀ text pos, ¬ Holds value text pos) → Outcome a (.error (.invalidOptions cause))
  | misplaced {value : Json} {text pos : String} {cause : Position.Fault} :
      a.options = .structured value → Holds value text pos →
      Position.ofString pos = .error cause → Outcome a (.error (.invalidPosition cause))
  | placed {value : Json} {text pos : String} {p : Position} : a.options = .structured value →
      Holds value text pos → Position.ofString pos = .ok p → Outcome a (.ok ⟨text, p⟩)

/-- One of these becomes of every action. -/
theorem ofAction_outcome (a : Action) : Outcome a (ofAction a) := by
  cases h : a.options with
  | text content =>
      rw [ofAction_text h]
      exact .text h
  | structured value =>
      by_cases hvalue : ∃ text pos, Holds value text pos
      · obtain ⟨text, pos, hvalue⟩ := hvalue
        cases hpos : Position.ofString pos with
        | error cause =>
            rw [ofAction_misplaced h hvalue hpos]
            exact .misplaced h hvalue hpos
        | ok p =>
            rw [ofAction_placed h hvalue hpos]
            exact .placed h hvalue hpos
      · simp only [not_exists] at hvalue
        obtain ⟨cause, hcause⟩ := ofAction_refused h hvalue
        rw [hcause]
        exact .refused h hvalue

/-- What becomes of an action depends on which values hold a text and a written position, as `holds`
says. It is a tooltip if its options are a value that holds the two and the position can be read,
and then this is what the tooltip says. Otherwise its fault says what is missing: the options are
plain text, the value does not hold the two, or the position cannot be read. -/
structure Classified (holds : Json → String → String → Prop) (a : Action) : Prop where
  tooltip : ∀ content : Content, ofAction a = .ok content ↔
    ∃ value pos, a.options = .structured value ∧ holds value content.text pos ∧
      Position.ofString pos = .ok content.pos
  notStructured : ∀ name : String, ofAction a = .error (.notStructured name) ↔
    name = a.name ∧ ∃ content, a.options = .text content
  invalidPosition : ∀ cause : Position.Fault, ofAction a = .error (.invalidPosition cause) ↔
    ∃ value text pos, a.options = .structured value ∧ holds value text pos ∧
      Position.ofString pos = .error cause
  invalidOptions : (∃ cause, ofAction a = .error (.invalidOptions cause)) ↔
    ∃ value, a.options = .structured value ∧ ∀ text pos, ¬ holds value text pos

/-- Only the options of the action itself count. -/
theorem Classified.congr {holds holds' : Json → String → String → Prop} (h : Classified holds a)
    (hsame : ∀ value text pos, a.options = .structured value →
      (holds value text pos ↔ holds' value text pos)) : Classified holds' a where
  tooltip content := by
    rw [h.tooltip]
    refine exists₂_congr fun value pos => and_congr_right fun hvalue => ?_
    rw [hsame _ _ _ hvalue]
  notStructured := h.notStructured
  invalidPosition cause := by
    rw [h.invalidPosition]
    refine exists₃_congr fun value text pos => and_congr_right fun hvalue => ?_
    rw [hsame _ _ _ hvalue]
  invalidOptions := by
    rw [h.invalidOptions]
    refine exists_congr fun value => and_congr_right fun hvalue => ?_
    simp only [hsame _ _ _ hvalue]

/-- **What becomes of every action**, where objects and lists hold the two. -/
theorem classified (a : Action) : Classified Holds a := by
  have houtcome := ofAction_outcome a
  refine ⟨fun content => ⟨fun h => ?_, ?_⟩, fun name => ⟨fun h => ?_, ?_⟩,
    fun cause => ⟨fun h => ?_, ?_⟩, ?_, ?_⟩
  · rw [h] at houtcome
    cases houtcome with
    | placed hvalue hholds hpos => exact ⟨_, _, hvalue, hholds, hpos⟩
  · rintro ⟨value, pos, hvalue, hholds, hpos⟩
    exact ofAction_placed hvalue hholds hpos
  · rw [h] at houtcome
    cases houtcome with
    | text htext => exact ⟨rfl, _, htext⟩
  · rintro ⟨rfl, content, htext⟩
    exact ofAction_text htext
  · rw [h] at houtcome
    cases houtcome with
    | misplaced hvalue hholds hpos => exact ⟨_, _, _, hvalue, hholds, hpos⟩
  · rintro ⟨value, text, pos, hvalue, hholds, hpos⟩
    exact ofAction_misplaced hvalue hholds hpos
  · rintro ⟨cause, h⟩
    rw [h] at houtcome
    cases houtcome with
    | refused hvalue hholds => exact ⟨_, hvalue, hholds⟩
  · rintro ⟨value, hvalue, hholds⟩
    exact ofAction_refused hvalue hholds

/-- No list is an object. -/
theorem not_members_arr (items : List Json) (text pos : String) : ¬ Members (.arr items) text pos :=
  fun h => nomatch h.1

/-- **A tooltip is an object, unless it is a list of a text and a position.** What becomes of an
action depends on whether its options are an object with a text and a position that can be read, if
and only if they are not a list of two strings; in a document that was read from a text they never
are. In general a list of two strings counts as an object with these as its members. -/
theorem ofAction_exact (a : Action) :
    (Classified Members a ↔ ∀ text pos, a.options ≠ .structured (.arr [.str text, .str pos])) ∧
      (∀ (separator text : String) (d : Document), Document.parse separator text = .ok d →
        a ∈ d.actions → Classified Members a) ∧
      Classified Holds a := by
  have hobjects : (∀ text pos, a.options ≠ .structured (.arr [.str text, .str pos])) →
      Classified Members a := by
    intro hlist
    refine (classified a).congr fun value text pos hvalue => ⟨fun h => ?_, .object⟩
    cases h with
    | object h => exact h
    | list => exact absurd hvalue (hlist text pos)
  refine ⟨⟨?_, hobjects⟩, ?_, classified a⟩
  · intro h text pos hvalue
    obtain ⟨value, hvalue', hnone⟩ := (classified a).invalidOptions.1
      (h.invalidOptions.2 ⟨_, hvalue, not_members_arr _⟩)
    rw [hvalue, Action.Options.structured.injEq] at hvalue'
    exact hnone text pos (hvalue' ▸ .list text pos)
  · intro separator text d hd ha
    refine hobjects fun text pos hvalue => ?_
    have hoptions := (Document.wellFormed_of_mem hd ha).options
    rw [hvalue] at hoptions
    cases hoptions

/-- **A tooltip without an object**: a list of a text and a position is taken for one. -/
theorem ofAction_list : ¬ ∀ a : Action, Classified Members a := by
  intro hobject
  have hread : ofAction ⟨"tooltip", .structured (.arr [.str "hi", .str "0:1"]), none⟩ =
      .ok ⟨"hi", ⟨0, 1⟩⟩ := by decide +kernel
  obtain ⟨value, pos, hvalue, hmembers, _⟩ := ((hobject _).tooltip _).1 hread
  cases hvalue
  exact not_members_arr _ _ _ hmembers

end Tooltip.Content

end Walkthrough
