import Walkthrough.Document.Printer
import Walkthrough.Proofs.Document.Line
import Walkthrough.Proofs.Json.Printer
import Walkthrough.Proofs.Text.Cut
import Walkthrough.Proofs.Text.Entity
import Walkthrough.Proofs.Text.Newline

/-!
# Reading what was written

* `Action.Printable` — what a line can hold: which names, options and outlines come back.
* `Written` — the lines that write a list of actions, with comments and blank lines in between.
* `readLine_line`, `readLine_filler` — each line by itself.
* `parse_written` — a written document comes back.
-/

set_option autoImplicit false

namespace Walkthrough

open Text

/-- Options that a line can hold: a text on one line that is not taken for JSON, or an object that
its own compact text writes. -/
inductive Action.Options.Printable : Action.Options → Prop where
  | text {content : String} :
      Inline content.toList → content.toList.head? ≠ some '{' → Printable (.text content)
  | structured {members : List (String × Json)} :
      Json.parse (Json.obj members).render = .ok (.obj members) →
      Printable (.structured (.obj members))

/-- An action that a line can hold. -/
structure Action.Printable (a : Action) : Prop where
  named : a.name.toList ≠ []
  word : ∀ c ∈ a.name.toList, Document.isWordChar c = true
  options : a.options.Printable
  unmarked : Document.Unmarked (' ' :: a.options.written ++ [' '])
  outline : ∀ label ∈ a.outline, Inline label.toList

namespace Document

/-- A line that writes no action: a blank one or a comment. -/
inductive Filler : List Char → Prop where
  | blank {l : List Char} : (∀ c ∈ l, isBlank c = true) → OneLine l → Filler l
  | comment {indent l : List Char} : (∀ c ∈ indent, isBlank c = true) →
      OneLine (indent ++ '#' :: l) → Filler (indent ++ '#' :: l)

/-- The lines that write a list of actions, with other lines anywhere in between. -/
inductive Written : List Action → List (List Char) → Prop where
  | nil : Written [] []
  | action {a : Action} {as : List Action} {ls : List (List Char)} :
      a.Printable → Written as ls → Written (a :: as) (a.line :: ls)
  | filler {l : List Char} {as : List Action} {ls : List (List Char)} :
      Filler l → Written as ls → Written as (l :: ls)

end Document

open Document

/-! ## Options -/

theorem Printed.oneLine {s : List Char} (h : Printed s) : OneLine s := by
  constructor
  · intro hc
    exact absurd (h _ hc) (by decide)
  · intro hc
    exact absurd (h _ hc) (by decide)

/-- The text of an object can be a part of a line. -/
theorem Json.renderValue_obj_inline (members : List (String × Json)) :
    Inline (Json.obj members).renderValue := by
  obtain ⟨s, hs⟩ := Json.renderValue_obj members
  refine ⟨?_, ?_, (Json.renderValue_printed _).oneLine⟩
  · rw [hs]
    exact List.cons_ne_nil _ _
  · rw [hs]
    exact trim_trimmed_append (s := ['\x7b']) (t := ['\x7d']) rfl rfl (by simp) (by simp)

namespace Action.Options.Printable

variable {o : Action.Options}

theorem written_inline (h : o.Printable) : Inline o.written := by
  cases h with
  | text hinline _ => exact hinline
  | structured _ => exact Json.renderValue_obj_inline _

theorem readOptions_written (h : o.Printable) : readOptions o.written = .ok o := by
  unfold readOptions
  cases h with
  | text _ hbrace =>
      split
      · rename_i hs
        exact absurd (congrArg List.head? hs) hbrace
      · rw [written, String.ofList_toList]
  | @structured members hparse =>
      obtain ⟨s, hs⟩ := Json.renderValue_obj members
      rw [Json.render] at hparse
      rw [written]
      split
      · rw [hparse]
        rfl
      · rename_i hbrace
        exact absurd hs (hbrace _)

end Action.Options.Printable

/-- No entity makes an outline mark. -/
theorem Document.Unmarked.encode {s : List Char} (h : Unmarked s) : Unmarked (Entity.encode s) := by
  intro t a b u heq ha
  have hcolon : Entity.inEntity ':' = false := rfl
  have hplain {c : Char} (hc : isBlank c = true) : Entity.inEntity c = false := by
    by_contra hentity
    rw [Entity.isBlank_of_inEntity (by simpa using hentity)] at hc
    cases hc
  obtain ⟨s₁, s₂, rfl, _, h₂⟩ := Entity.encode_eq_append_cons (hplain ha) heq
  obtain ⟨s₃, rfl, h₃⟩ := Entity.encode_eq_cons hcolon h₂
  obtain ⟨s₄, rfl, h₄⟩ := Entity.encode_eq_cons hcolon h₃
  obtain ⟨s₅, rfl, h₅⟩ := Entity.encode_eq_cons hcolon h₄
  by_contra hb
  obtain ⟨s₆, rfl, _⟩ := Entity.encode_eq_cons (hplain (by simpa using hb)) h₅
  exact hb (h s₁ a b s₆ rfl ha)

theorem Text.OneLine.encode {s : List Char} (h : OneLine s) : OneLine (Entity.encode s) := by
  constructor
  · intro hc
    rcases Entity.mem_encode hc with hc | hc
    · cases hc
    · exact h.no_lf hc
  · intro hc
    rcases Entity.mem_encode hc with hc | hc
    · cases hc
    · exact h.no_cr hc

theorem Text.Inline.encode {s : List Char} (h : Inline s) : Inline (Entity.encode s) := by
  refine ⟨?_, ?_, h.oneLine.encode⟩
  · intro hnil
    exact h.ne_nil (Entity.encode_eq_nil_iff.1 hnil)
  · rw [Entity.trim_encode, h.trimmed]

/-! ## Lines -/

namespace Document

theorem readLine_filler (decode : List Char → List Char) {l : List Char} (h : Filler l) :
    readLine decode l = .ok none := by
  unfold readLine
  cases h with
  | blank hl _ =>
      rw [trim_eq_nil_of_blank hl]
      rfl
  | @comment indent l hi _ =>
      have hhead := head?_trim_append hi (c := '#') rfl l
      simp only [hhead, or_true, ↓reduceIte]

variable {a : Action}

theorem encode_inline (h : a.Printable) : Inline (Entity.encode a.options.written) :=
  h.options.written_inline.encode

theorem encode_unmarked (h : a.Printable) :
    Unmarked (' ' :: Entity.encode a.options.written ++ [' ']) := by
  have hencode : Entity.encode (' ' :: a.options.written ++ [' ']) =
      ' ' :: Entity.encode a.options.written ++ [' '] := by
    rw [Entity.encode_append]
    rfl
  rw [← hencode]
  exact h.unmarked.encode

theorem cutOutline_line (h : a.Printable) :
    cutOutline a.line =
      (a.name.toList ++ ':' :: ' ' :: Entity.encode a.options.written,
        a.outline.map String.toList) := by
  have hs := encode_inline h
  have hunmarked := encode_unmarked h
  unfold Action.line
  split
  · rename_i label hlabel
    have ho := h.outline label hlabel
    rw [← List.append_assoc, cutOutline_marked h.word h.named hunmarked hs.trimmed hs.ne_nil
      ho.trimmed ho.ne_nil, hlabel]
    rfl
  · rename_i hnone
    rw [List.append_nil, cutOutline_unmarked h.word hunmarked.left, hnone]
    rfl

theorem trim_line (h : a.Printable) : trim a.line = a.line := by
  have hs := encode_inline h
  unfold Action.line
  split
  · rename_i label hlabel
    have ho := h.outline label hlabel
    have hline :
        a.name.toList ++ ':' :: ' ' :: Entity.encode a.options.written ++
            ([' ', ':', ':', ':', ' '] ++ label.toList) =
          a.name.toList ++
            (':' :: ' ' :: Entity.encode a.options.written ++ [' ', ':', ':', ':', ' ']) ++
              label.toList := by simp
    rw [hline]
    exact trim_trimmed_append (trim_of_isWordChar h.word) ho.trimmed h.named ho.ne_nil
  · rw [List.append_nil]
    exact trim_word h.word h.named hs.trimmed hs.ne_nil

/-- **A written action is read.** -/
theorem readLine_line (h : a.Printable) : readLine Entity.decode a.line = .ok (some a) := by
  have hs := encode_inline h
  have hcommand := command?_word h.word h.named hs.trimmed hs.ne_nil
  have hread := h.options.readOptions_written
  have hhead : ¬(a.line = [] ∨ a.line.head? = some '#') := by
    obtain ⟨c, w, hw⟩ := List.exists_cons_of_ne_nil h.named
    have hc : c ≠ '#' := ne_of_isWordChar (h.word c (by simp [hw])) rfl
    simp [Action.line, hw, hc]
  have houtline : (a.outline.map String.toList).map String.ofList = a.outline := by
    cases a.outline <;> simp
  unfold readLine
  simp only [trim_line h, if_neg hhead, cutOutline_line h, hcommand, Entity.decode_encode, hread,
    houtline, String.ofList_toList]

theorem oneLine_of_isWordChar {w : List Char} (hw : ∀ c ∈ w, isWordChar c = true) : OneLine w := by
  constructor
  · intro hc
    exact ne_of_isWordChar (hw _ hc) rfl rfl
  · intro hc
    exact ne_of_isWordChar (hw _ hc) rfl rfl

theorem oneLine_line (h : a.Printable) : OneLine a.line := by
  have hname := oneLine_of_isWordChar h.word
  have hoptions : OneLine (':' :: ' ' :: Entity.encode a.options.written) :=
    .append (s := [':', ' ']) ⟨by decide, by decide⟩ (encode_inline h).oneLine
  unfold Action.line
  refine (hname.append hoptions).append ?_
  split
  · rename_i label hlabel
    exact .append ⟨by decide, by decide⟩ (h.outline label hlabel).oneLine
  · exact ⟨nofun, nofun⟩

/-! ## Scripts -/

theorem Written.oneLine {as : List Action} {ls : List (List Char)} (h : Written as ls) :
    ∀ l ∈ ls, OneLine l := by
  induction h with
  | nil => exact nofun
  | action ha _ ih => exact List.forall_mem_cons.2 ⟨oneLine_line ha, ih⟩
  | filler hl _ ih =>
      refine List.forall_mem_cons.2 ⟨?_, ih⟩
      cases hl with
      | blank _ hl => exact hl
      | comment _ hl => exact hl

theorem Written.readLines {as : List Action} {ls : List (List Char)} (h : Written as ls) (n : Nat) :
    readLines Entity.decode n ls = .ok as := by
  induction h generalizing n with
  | nil => rfl
  | action ha _ ih =>
      rw [Document.readLines, readLine_line ha]
      simp only [ih]
      rfl
  | filler hl _ ih =>
      rw [Document.readLines, readLine_filler _ hl]
      exact ih (n + 1)

/-- The lines of a script that begins behind its separator: an empty one comes first. -/
theorem Written.readScript {as : List Action} {ls : List (List Char)} (h : Written as ls) :
    readScript Entity.decode ('\n' :: ['\n'].intercalate ls) = .ok as := by
  have hempty : Filler [] := .blank nofun ⟨nofun, nofun⟩
  by_cases hne : ls = []
  · subst hne
    cases h
    rfl
  · have hscript : '\n' :: ['\n'].intercalate ls = ['\n'].intercalate ([] :: ls) := by
      rw [List.intercalate_cons_of_ne_nil hne]
      rfl
    rw [Document.readScript, hscript, lines_intercalate (by simp) (Written.filler hempty h).oneLine]
    exact (Written.filler hempty h).readLines 1

/-- The text of a document whose script has the given lines. -/
def textOf (source : String) (ls : List (List Char)) : String :=
  String.ofList
    (Entity.encode source.toList ++ defaultSeparator.toList ++ '\n' :: ['\n'].intercalate ls)

/-- **A written document comes back.** -/
theorem parse_written {source : String} {actions : List Action} {ls : List (List Char)}
    (hsource : trim source.toList = source.toList) (hlines : Written actions ls)
    (hbody : OnlyAtEnd defaultSeparator.toList (Entity.encode source.toList))
    (hscript : ¬ defaultSeparator.toList <:+: ['\n'].intercalate ls) :
    parse defaultSeparator (textOf source ls) = .ok ⟨source, actions⟩ := by
  have hmark : defaultSeparator.toList ≠ [] := by decide
  have hinfix : ¬ defaultSeparator.toList <:+: '\n' :: ['\n'].intercalate ls := by
    rw [List.infix_cons_iff, not_or]
    refine ⟨?_, hscript⟩
    rintro ⟨rest, hrest⟩
    cases hrest
  have hsections : sections defaultSeparator.toList
      (Entity.encode source.toList ++ defaultSeparator.toList ++ '\n' :: ['\n'].intercalate ls) =
        (Entity.encode source.toList, '\n' :: ['\n'].intercalate ls) := by
    rw [sections, cut?_append hmark hbody]
    simp only [(cut?_eq_none_iff hmark).2 hinfix, Option.map_none, Option.getD_none]
  rw [parse, textOf, String.toList_ofList, readSections, if_neg hmark, hsections]
  simp only [hlines.readScript, Entity.trim_encode, hsource, Entity.decode_encode,
    String.ofList_toList]
  rfl

/-- Two actions, one with an outline and one with an object, between a comment and a blank line. -/
theorem parse_written_tour :
    parse defaultSeparator
      (textOf "if a < b & c;" ["# a tour".toList, "step: x &amp; y ::: Intro ::: 1".toList,
        " ".toList, "tooltip: \x7b\"text\":\"&lt;b&gt;\"\x7d".toList]) =
      .ok ⟨"if a < b & c;", [⟨"step", .text "x & y", some "Intro ::: 1"⟩,
        ⟨"tooltip", .structured (.obj [("text", .str "<b>")]), none⟩]⟩ := by
  have hstep : Action.Printable ⟨"step", .text "x & y", some "Intro ::: 1"⟩ := by
    refine ⟨by decide, List.all_eq_true.1 (by decide),
      .text ⟨by decide, by decide, by decide, by decide⟩ (by decide), ?_, ?_⟩
    · exact .of_plain (by decide)
    · rintro _ ⟨⟩
      exact ⟨by decide, by decide, by decide, by decide⟩
  have hrender : (Json.obj [("text", .str "<b>")]).renderValue =
      "\x7b\"text\":\"<b>\"\x7d".toList := by decide +kernel
  have hparse : Json.parse (Json.obj [("text", .str "<b>")]).render =
      .ok (.obj [("text", .str "<b>")]) := by
    rw [Json.render, hrender]
    simp [Json.parse, Json.maxDepth, Json.fuelFor, Json.readValue, Json.readMembers, Json.skipSpace,
      Json.isSpace, Json.nextKey, Json.string, Json.stringBody, Json.colon, Json.finish,
      Json.ofMembers, Json.insertMember, bind, Except.bind, Except.map, pure, Except.pure]
  have htooltip : Action.Printable ⟨"tooltip", .structured (.obj [("text", .str "<b>")]), none⟩ :=
    ⟨by decide, List.all_eq_true.1 (by decide), .structured hparse, .of_plain (by decide), nofun⟩
  refine parse_written (by decide) ?_ (.of_not_mem (by decide)) (by decide +kernel)
  refine .filler (@Filler.comment [] _ nofun ⟨by decide, by decide⟩) (.action hstep ?_)
  exact .filler (.blank (List.all_eq_true.1 (by decide)) ⟨by decide, by decide⟩)
    (.action htooltip .nil)

end Document

end Walkthrough
