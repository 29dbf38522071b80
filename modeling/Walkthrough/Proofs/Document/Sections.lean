import Walkthrough.Document.Reader
import Walkthrough.Proofs.Text.Cut

/-!
# Sections

The first separator of a text ends its body and the second one its script. What follows the script
is not looked at.

* `sections_whole`, `sections_two`, `sections_more` — a text without a separator, with one, and with
  more.
* `mem_of_mem_script`, `sections_flatMap` — where the characters of a script come from, and the
  sections of a text that is written in another way.
* `readSections_of` — what the sections of a text are read as.
* `parse_eq_error` — the fault of a text is one of an action's options.
* `parse_sections` — only the first two sections count.
-/

set_option autoImplicit false

namespace Walkthrough.Document

open Text

variable {separator body script text : List Char}

/-! ## Texts by their separators -/

theorem sections_whole (hne : separator ≠ []) (h : ¬ separator <:+: text) :
    sections separator text = (text, []) := by
  rw [sections, (cut?_eq_none_iff hne).2 h]

theorem sections_two (hne : separator ≠ []) (hbody : OnlyAtEnd separator body)
    (hscript : ¬ separator <:+: script) :
    sections separator (body ++ separator ++ script) = (body, script) := by
  rw [sections, cut?_append hne hbody]
  simp only [(cut?_eq_none_iff hne).2 hscript, Option.map_none, Option.getD_none]

theorem sections_more (hne : separator ≠ []) (hbody : OnlyAtEnd separator body)
    (hscript : OnlyAtEnd separator script) (rest : List Char) :
    sections separator (body ++ separator ++ (script ++ separator ++ rest)) = (body, script) := by
  rw [sections, cut?_append hne hbody]
  simp only [cut?_append hne hscript, Option.map_some, Option.getD_some]

/-- The script of a text has no other characters than the text. -/
theorem mem_of_mem_script {c : Char} (h : c ∈ (sections separator text).2) : c ∈ text := by
  unfold sections at h
  split at h
  · cases h
  · rename_i body rest hcut
    have hrest : c ∈ rest := by
      cases hcut' : cut? separator rest with
      | none => simpa [hcut'] using h
      | some parts =>
          obtain ⟨script, rest'⟩ := parts
          rw [eq_append_of_cut? hcut']
          simp only [hcut', Option.map_some, Option.getD_some] at h
          simp [h]
    rw [eq_append_of_cut? hcut]
    exact List.mem_append_right _ hrest

/-- The sections of a text are where they were before it was written in another way. -/
theorem sections_flatMap {g : Char → List Char} (hne : separator ≠ []) (h : Spares g separator)
    (text : List Char) :
    sections separator (text.flatMap g) =
      Prod.map (List.flatMap g) (List.flatMap g) (sections separator text) := by
  unfold sections
  rw [cut?_flatMap hne h]
  cases cut? separator text with
  | none => rfl
  | some parts =>
      obtain ⟨body, rest⟩ := parts
      simp only [Option.map_some, Prod.map, cut?_flatMap hne h, Option.map_map]
      cases cut? separator rest <;> rfl

/-! ## Documents -/

theorem readSections_of {decode : List Char → List Char} (hne : separator ≠ [])
    (h : sections separator text = (body, script)) :
    readSections decode separator text =
      (readScript decode script).map fun actions =>
        ⟨String.ofList (decode (trim body)), actions⟩ := by
  rw [readSections, if_neg hne, h]

/-- The fault of lines is one of an action's options. -/
theorem readLines_eq_error {decode : List Char → List Char} {n : Nat} {ls : List (List Char)}
    {fault : Fault} (h : readLines decode n ls = .error fault) :
    ∃ line name cause, fault = .invalidOptions line name cause := by
  induction ls generalizing n with
  | nil => cases h
  | cons l ls ih =>
      unfold readLines at h
      split at h
      · cases h
        exact ⟨_, _, _, rfl⟩
      · exact ih h
      · cases hrest : readLines decode (n + 1) ls with
        | error fault' =>
            rw [hrest] at h
            cases h
            exact ih hrest
        | ok actions =>
            rw [hrest] at h
            cases h

/-- With a separator, the fault of a text is one of an action's options. -/
theorem parse_eq_error {separator text : String} (hne : separator.toList ≠ []) {fault : Fault}
    (h : parse separator text = .error fault) :
    ∃ line name cause, fault = .invalidOptions line name cause := by
  rcases hsections : sections separator.toList text.toList with ⟨body, script⟩
  rw [parse, readSections_of hne hsections, readScript] at h
  cases hactions : readLines Entity.decode 1 (lines script) with
  | error fault' =>
      rw [hactions] at h
      cases h
      exact readLines_eq_error hactions
  | ok actions =>
      rw [hactions] at h
      cases h

/-- **Only the first two sections of a text count.** A text is cut at a separator that occurs
nowhere before, also within a part of the text and the separator itself. The source is the body,
trimmed and decoded, whatever the script is, and the actions are those of the script, with its fault
if it has one; what follows a second separator does not matter. A text without a separator is all
body. -/
theorem parse_sections {separator body script : String} (hne : separator ≠ "")
    (hbody : OnlyAtEnd separator.toList body.toList)
    (hscript : OnlyAtEnd separator.toList script.toList) :
    parse separator (body ++ separator ++ script) =
        (parseScript script).map
          (fun actions => ⟨decodeEntities (String.ofList (trim body.toList)), actions⟩) ∧
      (∀ rest, parse separator (body ++ separator ++ script ++ separator ++ rest) =
        parse separator (body ++ separator ++ script)) ∧
      (∀ text : String, ¬ separator.toList <:+: text.toList →
        parse separator text = .ok ⟨decodeEntities (String.ofList (trim text.toList)), []⟩) := by
  have hmark : separator.toList ≠ [] := by simpa using hne
  have htwo := sections_two hmark hbody (hscript.not_infix hmark)
  have hread : parse separator (body ++ separator ++ script) =
      (parseScript script).map
        (fun actions => ⟨decodeEntities (String.ofList (trim body.toList)), actions⟩) := by
    rw [← String.toList_append, ← String.toList_append] at htwo
    rw [parse, readSections_of hmark htwo, decodeEntities, String.toList_ofList, parseScript]
  refine ⟨hread, ?_, ?_⟩
  · intro rest
    have hmore := sections_more hmark hbody hscript rest.toList
    simp only [← String.toList_append, ← String.append_assoc] at hmore
    rw [hread, parse, readSections_of hmark hmore, decodeEntities, String.toList_ofList,
      parseScript]
  · intro text htext
    rw [parse, readSections_of hmark (sections_whole hmark htext), decodeEntities,
      String.toList_ofList]
    rfl

/-- A separator that begins as it ends, behind a body and a script that end as it begins. What
follows the script could not be read. -/
theorem parse_sections_overlap :
    ("-=-" ≠ "" ∧ OnlyAtEnd "-=-".toList " a &lt; b -".toList ∧
      OnlyAtEnd "-=-".toList "step: 1 -".toList ∧
      parse "-=-" (" a &lt; b -" ++ "-=-" ++ "step: 1 -" ++ "-=-" ++ "tip: \x7b") =
        .ok ⟨"a < b -", [⟨"step", .text "1 -", none⟩]⟩) ∧
      ¬ "-=-".toList <:+: " step: -=".toList ∧ parse "-=-" " step: -=" = .ok ⟨"step: -=", []⟩ := by
  have hne : "-=-" ≠ "" := by decide
  have hbody : OnlyAtEnd "-=-".toList " a &lt; b -".toList :=
    (onlyAtEnd_iff_cut? (by decide)).2 (by decide)
  have hscript : OnlyAtEnd "-=-".toList "step: 1 -".toList :=
    (onlyAtEnd_iff_cut? (by decide)).2 (by decide)
  have hwhole : ¬ "-=-".toList <:+: " step: -=".toList := by decide
  have hactions : parseScript "step: 1 -" = .ok [⟨"step", .text "1 -", none⟩] := by
    have hchars : "step: 1 -".toList = ['s', 't', 'e', 'p', ':', ' ', '1', ' ', '-'] := by decide
    rw [parseScript, hchars]
    rfl
  have hsource : decodeEntities (String.ofList (trim " a &lt; b -".toList)) = "a < b -" := by decide
  have hsource' : decodeEntities (String.ofList (trim " step: -=".toList)) = "step: -=" := by decide
  obtain ⟨hread, hmore, hnone⟩ := parse_sections hne hbody hscript
  refine ⟨⟨hne, hbody, hscript, ?_⟩, hwhole, ?_⟩
  · rw [hmore, hread, hactions, hsource, Except.map]
  · rw [hnone _ hwhole, hsource']

end Walkthrough.Document
