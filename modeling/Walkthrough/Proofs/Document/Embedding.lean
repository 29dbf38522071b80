import Walkthrough.Proofs.Document.Grammar
import Walkthrough.Proofs.Document.Sections
import Walkthrough.Proofs.Text.Entity

/-!
# Documents in pages

A page escapes the whole text of a document that is embedded in it. Reading undoes that for the
source and for the options of each action, and nothing else of what is read can have an entity in it
but the labels of the outline. They stay as they are escaped.

* `lines_encode`, `cutOutline_encode`, `command?_encode` — lines, outlines and commands of an
  escaped text are where they are in the text itself.
* `readLine_encode`, `readSections_encode` — what is read of an escaped line and of escaped
  sections.
* `Document.escapeLabels` — a document with its labels as a page escapes them.
* `parse_encodeEntities` — an embedded document is read as the plain one, except for its labels.
* `parse_encodeEntities_label` — a label that comes back as it was escaped.
-/

set_option autoImplicit false

namespace Walkthrough

open Text

/-! ## Lines -/

namespace Text.Entity

theorem oneLine_encodeChar {c : Char} (hlf : c ≠ '\n') (hcr : c ≠ '\r') :
    OneLine (encodeChar c) := by
  rcases encodeChar_cases c with hself | ⟨_, hentity⟩
  · rw [hself]
    exact ⟨by simpa using hlf.symm, by simpa using hcr.symm⟩
  · constructor
    · intro h
      cases hentity _ h
    · intro h
      cases hentity _ h

/-- An escaped text begins with a character that no entity has in it only where the text does. -/
theorem head?_of_encode {s : List Char} {d : Char} (hd : inEntity d = false)
    (h : (encode s).head? = some d) : s.head? = some d := by
  obtain ⟨u, hu⟩ := List.head?_eq_some_iff.1 h
  obtain ⟨t, rfl, _⟩ := encode_eq_cons hd hu
  rfl

theorem normalize_encode (s : List Char) : normalize (encode s) = encode (normalize s) := by
  fun_induction normalize s with
  | case1 => rfl
  | case2 s ih =>
      show '\n' :: normalize (encode s) = _
      rw [ih]
      rfl
  | case3 s ih =>
      show '\n' :: normalize (encode s) = _
      rw [ih]
      rfl
  | case4 c s hcrlf hlfcr ih =>
      -- `c` is not half of a pair: no entity begins with the other half
      by_cases hcr : c = '\r'
      · have hhead : (encode s).head? ≠ some '\n' := by
          intro h
          obtain ⟨s', rfl⟩ := List.head?_eq_some_iff.1 (head?_of_encode rfl h)
          exact hcrlf s' hcr rfl
        subst hcr
        show normalize ('\r' :: encode s) = _
        rw [normalize_cr hhead, ih]
        rfl
      · by_cases hlf : c = '\n'
        · have hhead : (encode s).head? ≠ some '\r' := by
            intro h
            obtain ⟨s', rfl⟩ := List.head?_eq_some_iff.1 (head?_of_encode rfl h)
            exact hlfcr s' hlf rfl
          subst hlf
          show normalize ('\n' :: encode s) = _
          rw [normalize_lf hhead, ih]
          rfl
        · rw [encode_cons, normalize_oneLine_append (oneLine_encodeChar hlf hcr), ih, if_neg hcr,
            encode_cons]

theorem encode_intercalate (ls : List (List Char)) :
    encode (['\n'].intercalate ls) = ['\n'].intercalate (ls.map encode) := by
  induction ls with
  | nil => rfl
  | cons l ls ih =>
      cases ls with
      | nil => simp
      | cons m ls =>
          rw [List.intercalate_cons_cons, encode_append, encode_append, ih]
          simp [show encode ['\n'] = ['\n'] from rfl]

/-- The lines of an escaped text are the escaped lines of the text. -/
theorem lines_encode (s : List Char) : lines (encode s) = (lines s).map encode := by
  have hlines : ∀ l ∈ (lines s).map encode, '\n' ∉ l := by
    intro l hl
    obtain ⟨l, hmem, rfl⟩ := List.mem_map.1 hl
    intro hlf
    rcases mem_encode hlf with h | h
    · cases h
    · exact (oneLine_of_mem_lines hmem).no_lf h
  have hne : (lines s).map encode ≠ [] := by simp [lines, List.splitOn_ne_nil]
  rw [← List.splitOn_intercalate '\n' hlines hne, ← encode_intercalate, lines, normalize_encode,
    lines, List.intercalate_splitOn]

end Text.Entity

/-- An action with its label as a page escapes it. -/
def Action.escapeLabel (a : Action) : Action := { a with outline := a.outline.map encodeEntities }

/-- A document with its labels as a page escapes them. -/
def Document.escapeLabels (d : Document) : Document :=
  { d with actions := d.actions.map Action.escapeLabel }

namespace Document

open Entity

/-! ## Outlines -/

theorem trimStart_encode (s : List Char) : trimStart (encode s) = encode (trimStart s) :=
  trimStart_flatMap encodeChar_ne_nil (fun _ _ => isBlank_of_mem_encodeChar) s

theorem trimEnd_encode (s : List Char) : trimEnd (encode s) = encode (trimEnd s) :=
  trimEnd_flatMap encodeChar_ne_nil (fun _ _ => isBlank_of_mem_encodeChar) s

/-- An outline mark is where it was. -/
theorem outlineAt?_encode (s : List Char) :
    outlineAt? (encode s) = (outlineAt? s).map encode := by
  by_cases hmark : ∃ c t, s = ':' :: ':' :: ':' :: c :: t
  · obtain ⟨c, t, rfl⟩ := hmark
    have hencode : encode (':' :: ':' :: ':' :: c :: t) =
        ':' :: ':' :: ':' :: (encodeChar c ++ encode t) := rfl
    rw [hencode]
    by_cases hc : isBlank c = true
    · rw [encodeChar_of_isBlank hc]
      by_cases ht : trimStart t = []
      · simp [outlineAt?, hc, trimStart_encode, ht]
      · simp [outlineAt?, hc, trimStart_encode, ht, encode_eq_nil_iff]
    · obtain ⟨d, w, hw⟩ := List.exists_cons_of_ne_nil (encodeChar_ne_nil c)
      have hd : isBlank d = isBlank c := isBlank_of_mem_encodeChar (by simp [hw])
      simp [hw, outlineAt?, hd, hc]
  · have hnone : outlineAt? s = none :=
      outlineAt?_eq_none fun c t hs => absurd ⟨c, t, hs⟩ hmark
    have hnone' : outlineAt? (encode s) = none := by
      refine outlineAt?_eq_none fun d u hs => ?_
      obtain ⟨s₁, rfl, h₁⟩ := encode_eq_cons rfl hs
      obtain ⟨s₂, rfl, h₂⟩ := encode_eq_cons rfl h₁
      obtain ⟨s₃, rfl, h₃⟩ := encode_eq_cons rfl h₂
      cases s₃ with
      | nil => cases h₃
      | cons c t => exact absurd ⟨c, t, rfl⟩ hmark
    rw [hnone, hnone', Option.map_none]

/-- A mark that has white space in front of it is where it was, and so is the white space. -/
theorem cutMark?_encode (b : Bool) (s : List Char) :
    cutMark? b (encode s) = (cutMark? b s).map (Prod.map encode encode) := by
  induction s generalizing b with
  | nil => rfl
  | cons c s ih =>
      rcases encodeChar_begins c with hself | ⟨w, hw⟩
      · have hmark := outlineAt?_encode (c :: s)
        rw [encode_cons, hself, List.singleton_append] at hmark ⊢
        rw [cutMark?, cutMark?, hmark, ih]
        cases b with
        | false => simp [Function.comp_def, Prod.map, hself]
        | true => cases outlineAt? (c :: s) <;> simp [Function.comp_def, Prod.map, hself]
      · -- No mark begins here: the character is not a colon, and its entity has no white space.
        have hblank : isBlank c = false :=
          (isBlank_of_mem_encodeChar (hw ▸ List.mem_cons_self)).symm
        have hrest : ∀ d ∈ w, isBlank d = false := fun d hd =>
          (isBlank_of_mem_encodeChar (hw ▸ List.mem_cons_of_mem _ hd)).trans hblank
        have hcolon : c ≠ ':' := by
          rintro rfl
          cases hw
        have hampersand : isBlank '&' = false := rfl
        rw [encode_cons, hw, List.cons_append,
          cutMark?_cons_of_none fun _ => outlineAt?_cons_of_ne (by decide) _, hampersand,
          cutMark?_append hrest, ih, cutMark?_cons_of_none fun _ => outlineAt?_cons_of_ne hcolon s,
          hblank]
        simp [Function.comp_def, Prod.map, hw]

theorem cutOutline_encode (s : List Char) :
    cutOutline (encode s) = Prod.map encode (Option.map encode) (cutOutline s) := by
  unfold cutOutline
  rw [cutMark?_encode]
  cases cutMark? false s with
  | none => rfl
  | some parts => simp [Prod.map, trimEnd_encode]

/-! ## Commands -/

/-- No entity begins with a character of a name. -/
theorem span_encode (s : List Char) :
    (encode s).takeWhile isWordChar = s.takeWhile isWordChar ∧
      (encode s).dropWhile isWordChar = encode (s.dropWhile isWordChar) := by
  induction s with
  | nil => exact ⟨rfl, rfl⟩
  | cons c s ih =>
      by_cases hc : isWordChar c = true
      · have hself : encodeChar c = [c] := by
          rcases encodeChar_cases c with hself | ⟨rfl | rfl | rfl, _⟩
          · exact hself
          all_goals cases hc
        simp [hself, hc, ih]
      · rcases encodeChar_begins c with hself | ⟨w, hw⟩
        · simp [hself, hc]
        · have hampersand : isWordChar '&' = false := rfl
          simp [hw, hc, hampersand]

theorem command?_encode (s : List Char) :
    command? (encode s) = (command? s).map fun (name, options) => (name, encode options) := by
  obtain ⟨htake, hdrop⟩ := span_encode s
  unfold command?
  simp only [htake, hdrop, trimStart_encode]
  generalize trimStart (s.dropWhile isWordChar) = rest
  cases s.takeWhile isWordChar with
  | nil => rfl
  | cons c w =>
      by_cases hcolon : ∃ t, rest = ':' :: t
      · obtain ⟨t, rfl⟩ := hcolon
        have hencode : encode (':' :: t) = ':' :: encode t := rfl
        rw [hencode]
        by_cases ht : trimStart t = []
        · simp [trimStart_encode, ht]
        · simp [trimStart_encode, ht, encode_eq_nil_iff]
      · have hnone : ∀ u, encode rest ≠ ':' :: u := by
          intro u hu
          obtain ⟨t, rfl, _⟩ := encode_eq_cons rfl hu
          exact hcolon ⟨t, rfl⟩
        split
        · rename_i hu
          exact absurd hu (hnone _)
        · split
          · exact absurd ⟨_, rfl⟩ hcolon
          · rfl

/-! ## What is read -/

theorem head?_encode {s : List Char} : (encode s).head? = some '#' ↔ s.head? = some '#' := by
  refine ⟨head?_of_encode rfl, ?_⟩
  intro h
  obtain ⟨t, rfl⟩ := List.head?_eq_some_iff.1 h
  rfl

/-- An escaped line is read as the line is, but for its label. -/
theorem readLine_encode (l : List Char) :
    readLine Entity.decode (encode l) = (readLine id l).map (Option.map Action.escapeLabel) := by
  unfold readLine
  simp only [trim_encode, encode_eq_nil_iff, head?_encode]
  split
  · rfl
  · rw [cutOutline_encode]
    generalize cutOutline (trim l) = parts
    obtain ⟨command, outline⟩ := parts
    simp only [Prod.map, command?_encode]
    cases command? command with
    | none => rfl
    | some parts =>
        obtain ⟨name, options⟩ := parts
        simp only [Option.map_some, decode_encode, id]
        cases readOptions options with
        | error cause => rfl
        | ok options =>
            simp [Except.map, Action.escapeLabel, encodeEntities, Function.comp_def]

theorem readLines_encode (n : Nat) (ls : List (List Char)) :
    readLines Entity.decode n (ls.map encode) =
      (readLines id n ls).map (List.map Action.escapeLabel) := by
  induction ls generalizing n with
  | nil => rfl
  | cons l ls ih =>
      rw [List.map_cons, readLines, readLines, readLine_encode]
      cases readLine id l with
      | error fault => rfl
      | ok action =>
          cases action with
          | none => exact ih (n + 1)
          | some a =>
              simp only [Except.map, Option.map_some, ih]
              cases readLines id (n + 1) ls <;> rfl

theorem readScript_encode (script : List Char) :
    readScript Entity.decode (encode script) =
      (readScript id script).map (List.map Action.escapeLabel) := by
  rw [readScript, lines_encode, readLines_encode, readScript]

/-- Where the separator has nothing to do with entities, the sections of an escaped text are read as
those of the text are, but for the labels. -/
theorem readSections_encode {separator : List Char} (h : Spares encodeChar separator)
    (text : List Char) :
    readSections Entity.decode separator (encode text) =
      (readSections id separator text).map escapeLabels := by
  by_cases hne : separator = []
  · rw [readSections, readSections, if_pos hne, if_pos hne]
    rfl
  · have hsections : sections separator (encode text) =
        Prod.map encode encode (sections separator text) := sections_flatMap hne h text
    generalize hparts : sections separator text = parts at hsections
    obtain ⟨body, script⟩ := parts
    rw [readSections_of hne hsections, readSections_of hne hparts, readScript_encode, trim_encode,
      decode_encode]
    cases readScript id script <;> rfl

/-! ## Embedded documents -/

theorem spares_encodeChar {mark : List Char}
    (h : ∀ c ∈ mark, inEntity c = false ∧ c ≠ '<' ∧ c ≠ '>') : Spares encodeChar mark := by
  intro c
  rcases encodeChar_cases c with hself | ⟨hspecial, hentity⟩
  · exact .inl hself
  · refine .inr ⟨encodeChar_ne_nil c, ?_, ?_⟩
    · intro hc
      obtain ⟨hc, hlt, hgt⟩ := h c hc
      rcases hspecial with rfl | rfl | rfl
      · cases hc
      · exact hlt rfl
      · exact hgt rfl
    · intro d hd hmem
      have hd := hentity d hd
      rw [(h d hmem).1] at hd
      cases hd

end Document

/-- The actions whose labels a page leaves as they are. -/
theorem Action.escapeLabel_eq_self_iff {a : Action} :
    a.escapeLabel = a ↔
      ∀ label ∈ a.outline, ∀ c ∈ label.toList, c ≠ '&' ∧ c ≠ '<' ∧ c ≠ '>' := by
  obtain ⟨name, options, outline⟩ := a
  cases outline with
  | none => simp [escapeLabel]
  | some label =>
      have hlabel : encodeEntities label = label ↔ Entity.encode label.toList = label.toList := by
        rw [encodeEntities, ← String.toList_inj, String.toList_ofList]
      simp only [escapeLabel, Option.map_some, mk.injEq, true_and, Option.some.injEq, hlabel,
        Entity.encode_eq_self_iff, Option.mem_some_iff, forall_eq']

namespace Document

open Entity

theorem escapeLabels_eq_self_iff {d : Document} :
    d.escapeLabels = d ↔
      ∀ a ∈ d.actions, ∀ label ∈ a.outline, ∀ c ∈ label.toList, c ≠ '&' ∧ c ≠ '<' ∧ c ≠ '>' := by
  obtain ⟨source, actions⟩ := d
  simp only [escapeLabels, mk.injEq, true_and, ← Action.escapeLabel_eq_self_iff]
  constructor
  · intro h a ha
    exact List.map_inj_left.1 (h.trans (List.map_id actions).symm) a ha
  · intro h
    exact (List.map_congr_left h).trans (List.map_id actions)

/-- **An embedded document is read as the plain one, except for its labels.** A page escapes the
whole text. Where the text has a fault, the embedded text has the same one on the same line;
otherwise the source, the names and the options are those of the plain document, and the labels are
left as they are escaped. The two are the same document if and only if no label of the plain one has
a character in it that a page escapes. -/
theorem parse_encodeEntities (text : String) :
    parse defaultSeparator (encodeEntities text) =
        (parsePlain defaultSeparator text).map escapeLabels ∧
      (parse defaultSeparator (encodeEntities text) = parsePlain defaultSeparator text ↔
        ∀ d, parsePlain defaultSeparator text = .ok d → ∀ a ∈ d.actions, ∀ label ∈ a.outline,
          ∀ c ∈ label.toList, c ≠ '&' ∧ c ≠ '<' ∧ c ≠ '>') := by
  have hspares : Spares encodeChar defaultSeparator.toList := by
    refine spares_encodeChar fun c hc => ?_
    have hchars : defaultSeparator.toList = List.replicate 3 '@' := by decide
    rw [hchars] at hc
    rw [List.eq_of_mem_replicate hc]
    exact ⟨rfl, by decide, by decide⟩
  have hread : parse defaultSeparator (encodeEntities text) =
      (parsePlain defaultSeparator text).map escapeLabels := by
    rw [parse, encodeEntities, String.toList_ofList, readSections_encode hspares, parsePlain]
  refine ⟨hread, ?_⟩
  rw [hread]
  cases parsePlain defaultSeparator text with
  | error fault => simp [Except.map]
  | ok d =>
      simp only [Except.map, Except.ok.injEq, forall_eq']
      exact escapeLabels_eq_self_iff

/-- A label that comes back as it was escaped. -/
theorem parse_encodeEntities_label :
    parse defaultSeparator (encodeEntities "x@@@step: 1 ::: a < b") =
        .ok ⟨"x", [⟨"step", .text "1", some "a &lt; b"⟩]⟩ ∧
      parsePlain defaultSeparator "x@@@step: 1 ::: a < b" =
        .ok ⟨"x", [⟨"step", .text "1", some "a < b"⟩]⟩ ∧
      parse defaultSeparator (encodeEntities "x@@@step: 1 ::: a < b") ≠
        parsePlain defaultSeparator "x@@@step: 1 ::: a < b" := by
  have hseparator : defaultSeparator.toList = ['@', '@', '@'] := by decide
  have hchars : "x@@@step: 1 ::: a < b".toList =
      ['x', '@', '@', '@', 's', 't', 'e', 'p', ':', ' ', '1', ' ', ':', ':', ':', ' ', 'a', ' ',
        '<', ' ', 'b'] := by decide
  have hplain : parsePlain defaultSeparator "x@@@step: 1 ::: a < b" =
      .ok ⟨"x", [⟨"step", .text "1", some "a < b"⟩]⟩ := by
    rw [parsePlain, hseparator, hchars]
    rfl
  have hembedded : parse defaultSeparator (encodeEntities "x@@@step: 1 ::: a < b") =
      .ok ⟨"x", [⟨"step", .text "1", some "a &lt; b"⟩]⟩ := by
    rw [parse, encodeEntities, String.toList_ofList, hseparator, hchars]
    rfl
  refine ⟨hembedded, hplain, ?_⟩
  rw [hembedded, hplain]
  simp

end Document

end Walkthrough
