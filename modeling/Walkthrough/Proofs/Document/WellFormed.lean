import Walkthrough.Proofs.Document.Grammar
import Walkthrough.Proofs.Document.Sections
import Walkthrough.Proofs.Text.Entity

/-!
# Well-formed documents

Every document that is read is well formed, whatever its text and its separator are.

* `Tidy`, `Phrase` — texts without white space at their ends, and those that can stand in a line.
* `Action.WellFormed`, `Document.WellFormed` — what can be relied on in actions and documents.
* `Tidy.decode`, `Phrase.decode` — decoding brings no white space, no line ending and nothing empty.
* `ActionLine.options_phrase`, `ActionLine.outline_phrase` — the parts of an action line.
* `Json.eq_obj_of_parse` — what begins with a brace is read as an object or not at all.
* `readScript_wellFormed`, `parse_eq_ok` — the actions of a script, and where those of a document
  come from.
* `parse_wellFormed` — every document that is read is well formed.
-/

set_option autoImplicit false

namespace Walkthrough

open Text

namespace Document

/-- A text that neither begins nor ends with white space. -/
structure Tidy (s : List Char) : Prop where
  opened : Opened s
  closed : Closed s

/-- A tidy text within a line: not empty, and without line endings. -/
structure Phrase (s : List Char) : Prop extends Tidy s where
  ne_nil : s ≠ []
  oneLine : OneLine s

end Document

open Document

/-- Options that come from a line: a phrase that does not begin as an object, or an object. -/
inductive Action.Options.WellFormed : Action.Options → Prop where
  | text {content : String} : Phrase content.toList → content.toList.head? ≠ some '{' →
      WellFormed (.text content)
  | structured {members : List (String × Json)} : WellFormed (.structured (.obj members))

/-- An action that comes from a line. -/
structure Action.WellFormed (a : Action) : Prop where
  name_ne_nil : a.name.toList ≠ []
  name_word : ∀ c ∈ a.name.toList, isWordChar c = true
  options : a.options.WellFormed
  outline : ∀ label ∈ a.outline, Phrase label.toList

/-- A document that comes from a text. Its outline goes through the actions from first to last. -/
structure Document.WellFormed (d : Document) : Prop where
  source : Tidy d.source.toList
  actions : ∀ a ∈ d.actions, a.WellFormed
  outline_increasing : (d.outline.map Prod.fst).Pairwise (· < ·)
  outline_lt : ∀ entry ∈ d.outline, entry.1 < d.actions.length

namespace Document

/-! ## Ends of texts -/

theorem Closed.tail {c : Char} {s : List Char} (h : Closed (c :: s)) : Closed s := by
  cases s with
  | nil => exact nofun
  | cons d s => simpa [Closed, List.getLast?_cons] using h

theorem Closed.cons {c : Char} {s : List Char} (hs : Closed s) (hc : s = [] → isBlank c = false) :
    Closed (c :: s) := by
  cases s with
  | nil =>
      rintro d ⟨⟩
      exact hc rfl
  | cons d s => simpa [Closed, List.getLast?_cons] using hs

/-- What a closed text ends with is closed. -/
theorem Closed.of_append {s t : List Char} (h : Closed (s ++ t)) : Closed t := by
  cases t with
  | nil => exact nofun
  | cons c t =>
      intro d hd
      exact h d (by rwa [List.getLast?_append_of_ne_nil _ (List.cons_ne_nil c t)])

theorem trim_subset (s : List Char) : trim s ⊆ s := fun _ hc =>
  (trimStart_suffix s).subset ((trimEnd_isPrefix (trimStart s)).subset hc)

theorem trim_tidy (s : List Char) : Tidy (trim s) := by
  refine ⟨?_, closed_trimEnd (trimStart s)⟩
  intro c hc
  obtain ⟨t, ht⟩ := trimEnd_isPrefix (trimStart s)
  have hne : trim s ≠ [] := List.ne_nil_of_mem (List.mem_of_head? hc)
  refine opened_trimStart s c ?_
  rw [← ht]
  exact (List.head?_append_of_ne_nil _ hne).trans hc

/-! ## Decoding -/

/-- An entity stands for a character that is no white space. -/
theorem Opened.decode {s : List Char} (h : Opened s) : Opened (Entity.decode s) := by
  fun_cases Entity.decode s with
  | case1 =>
      intro c hc
      cases hc
  | case2 s =>
      rintro c ⟨⟩
      rfl
  | case3 s =>
      rintro c ⟨⟩
      rfl
  | case4 s =>
      rintro c ⟨⟩
      rfl
  | case5 c s => exact h

theorem Closed.decode {s : List Char} (h : Closed s) : Closed (Entity.decode s) := by
  fun_induction Entity.decode s with
  | case1 => exact h
  | case2 s ih => exact (ih h.tail.tail.tail.tail).cons fun _ => rfl
  | case3 s ih => exact (ih h.tail.tail.tail.tail).cons fun _ => rfl
  | case4 s ih => exact (ih h.tail.tail.tail.tail.tail).cons fun _ => rfl
  | case5 c s _ _ _ ih =>
      refine (ih h.tail).cons fun hnil => ?_
      rw [Entity.decode_eq_nil_iff] at hnil
      rw [hnil] at h
      exact h c rfl

theorem Tidy.decode {s : List Char} (h : Tidy s) : Tidy (Entity.decode s) :=
  ⟨h.opened.decode, h.closed.decode⟩

theorem oneLine_decode {s : List Char} (h : OneLine s) : OneLine (Entity.decode s) := by
  constructor
  · intro hc
    rcases Entity.mem_decode hc with hc | hc | hc
    · exact h.no_lf hc
    all_goals cases hc
  · intro hc
    rcases Entity.mem_decode hc with hc | hc | hc
    · exact h.no_cr hc
    all_goals cases hc

theorem Phrase.decode {s : List Char} (h : Phrase s) : Phrase (Entity.decode s) :=
  ⟨h.toTidy.decode, mt Entity.decode_eq_nil_iff.1 h.ne_nil, oneLine_decode h.oneLine⟩

/-! ## Parts of a line -/

/-- What is parted off a tidy text has no other characters, and its ends are tidy. -/
theorem Parted.part {s command : List Char} {outline : Option (List Char)} (hs : Closed s)
    (h : Parted s command outline) :
    (Closed command ∧ command ⊆ s) ∧
      ∀ label ∈ outline, Tidy label ∧ label ≠ [] ∧ label ⊆ s := by
  cases h with
  | @marked before gap gap' label hm _ =>
      have hsplit : s = (command ++ gap ++ ':' :: ':' :: ':' :: gap') ++ label := by
        simp [hm.eq]
      refine ⟨⟨hm.closed, ?_⟩, ?_⟩
      · intro c hc
        simp [hm.eq, hc]
      · rintro _ ⟨⟩
        rw [hsplit] at hs
        refine ⟨⟨hm.opened, hs.of_append⟩, hm.outline_ne_nil, ?_⟩
        rw [hsplit]
        exact List.subset_append_right _ _
  | whole _ => exact ⟨⟨hs, List.Subset.refl s⟩, nofun⟩

namespace ActionLine

variable {l : List Char} {p : LineParts}

theorem options_phrase (h : ActionLine l p) (hl : OneLine l) : Phrase p.options := by
  obtain ⟨⟨hclosed, hsubset⟩, _⟩ := h.parted.part (trim_tidy l).closed
  have hcommand : p.command = (p.name ++ p.gap ++ ':' :: p.gap') ++ p.options := by
    simp [LineParts.command]
  rw [hcommand] at hclosed hsubset
  refine ⟨⟨h.opened, hclosed.of_append⟩, h.options_ne_nil, hl.of_subset fun c hc => ?_⟩
  exact trim_subset l (hsubset (List.mem_append_right _ hc))

theorem outline_phrase (h : ActionLine l p) (hl : OneLine l) :
    ∀ label ∈ p.outline, Phrase label := by
  intro label hlabel
  obtain ⟨htidy, hne, hsubset⟩ := (h.parted.part (trim_tidy l).closed).2 label hlabel
  exact ⟨htidy, hne, hl.of_subset (List.Subset.trans hsubset (trim_subset l))⟩

end ActionLine

end Document

/-! ## Options -/

section

variable {ε α β : Type} {x : Except ε α} {b : β}

theorem exists_of_map_eq_ok {f : α → β} (h : x.map f = .ok b) : ∃ a, x = .ok a ∧ f a = b := by
  cases x with
  | error e => cases h
  | ok a => exact ⟨a, rfl, Except.ok.inj h⟩

theorem exists_of_bind_eq_ok {f : α → Except ε β} (h : x >>= f = .ok b) :
    ∃ a, x = .ok a ∧ f a = .ok b := by
  cases x with
  | error e => cases h
  | ok a => exact ⟨a, rfl, h⟩

end

theorem Json.readValue_brace (depth fuel : Nat) (t : List Char) :
    Json.readValue (depth + 1) (fuel + 1) ('{' :: t) = (do
      let (members, s) ← Json.readMembers depth fuel true t
      pure (Json.ofMembers members, s)) := rfl

theorem Json.eq_obj_of_readValue {depth fuel : Nat} {t s : List Char} {value : Json}
    (h : Json.readValue depth fuel ('{' :: t) = .ok (value, s)) :
    ∃ members, value = .obj members := by
  cases fuel with
  | zero => cases h
  | succ fuel =>
      cases depth with
      | zero => cases h
      | succ depth =>
          rw [Json.readValue_brace] at h
          obtain ⟨_, _, h⟩ := exists_of_bind_eq_ok h
          cases h
          exact ⟨_, rfl⟩

/-- What begins with a brace is read as an object or not at all. -/
theorem Json.eq_obj_of_parse {s : List Char} {value : Json} (hbrace : s.head? = some '{')
    (h : Json.parse (String.ofList s) = .ok value) : ∃ members, value = .obj members := by
  obtain ⟨t, rfl⟩ := List.head?_eq_some_iff.1 hbrace
  rw [Json.parse, String.toList_ofList] at h
  obtain ⟨_, hread, h⟩ := exists_of_bind_eq_ok h
  obtain ⟨_, _, h⟩ := exists_of_bind_eq_ok h
  cases h
  exact Json.eq_obj_of_readValue hread

namespace Document

theorem readOptions_wellFormed {s : List Char} {options : Action.Options} (hs : Phrase s)
    (h : readOptions s = .ok options) : options.WellFormed := by
  by_cases hbrace : s.head? = some '{'
  · rw [readOptions_of_brace hbrace] at h
    obtain ⟨value, hjson, rfl⟩ := exists_of_map_eq_ok h
    obtain ⟨members, rfl⟩ := Json.eq_obj_of_parse hbrace hjson
    exact .structured
  · rw [readOptions_of_not_brace hbrace] at h
    cases h
    exact .text (by simpa using hs) (by simpa using hbrace)

/-! ## Lines -/

/-- The action of a line has the parts of the line. -/
theorem exists_parts_of_readLine {decode : List Char → List Char} {l : List Char} {a : Action}
    (h : readLine decode l = .ok (some a)) :
    ∃ p options, ActionLine l p ∧ readOptions (decode p.options) = .ok options ∧
      a = p.action options := by
  by_cases hp : ∃ p, ActionLine l p
  · obtain ⟨p, hp⟩ := hp
    rw [readLine_of_action decode hp] at h
    cases hoptions : readOptions (decode p.options) with
    | error cause =>
        rw [hoptions] at h
        cases h
    | ok options =>
        rw [hoptions] at h
        cases h
        exact ⟨p, options, hp, hoptions, rfl⟩
  · rw [readLine_of_not_action decode (not_exists.1 hp)] at h
    cases h

theorem readLine_wellFormed {l : List Char} {a : Action} (hl : OneLine l)
    (h : readLine Entity.decode l = .ok (some a)) : a.WellFormed := by
  obtain ⟨p, options, hp, hoptions, rfl⟩ := exists_parts_of_readLine h
  have hwell := readOptions_wellFormed (hp.options_phrase hl).decode hoptions
  refine ⟨by simpa [LineParts.action] using hp.name_ne_nil,
    by simpa [LineParts.action] using hp.name_word, hwell, ?_⟩
  intro label hlabel
  obtain ⟨chars, hchars, rfl⟩ := Option.map_eq_some_iff.1 hlabel
  simpa using hp.outline_phrase hl chars hchars

/-- Every action that is read comes from a line. -/
theorem exists_line_of_mem {decode : List Char → List Char} {n : Nat} {ls : List (List Char)}
    {as : List Action} (h : readLines decode n ls = .ok as) {a : Action} (ha : a ∈ as) :
    ∃ l ∈ ls, readLine decode l = .ok (some a) := by
  induction ls generalizing n as with
  | nil =>
      cases h
      cases ha
  | cons l ls ih =>
      rw [readLines] at h
      split at h
      · cases h
      · obtain ⟨m, hm, hread⟩ := ih h ha
        exact ⟨m, List.mem_cons_of_mem l hm, hread⟩
      · rename_i b hb
        obtain ⟨bs, hrest, rfl⟩ := exists_of_map_eq_ok h
        rcases List.mem_cons.1 ha with rfl | ha
        · exact ⟨l, List.mem_cons_self, hb⟩
        · obtain ⟨m, hm, hread⟩ := ih hrest ha
          exact ⟨m, List.mem_cons_of_mem l hm, hread⟩

/-! ## Documents -/

/-- The outline of a document goes through its actions from first to last. -/
theorem outline_pairwise (d : Document) : (d.outline.map Prod.fst).Pairwise (· < ·) := by
  have hplaces : d.actions.zipIdx.Pairwise (fun x y => x.2 < y.2) := by
    rw [← List.pairwise_map (f := Prod.snd) (R := (· < ·)), List.zipIdx_map_snd]
    exact List.pairwise_lt_range' 1
  rw [List.pairwise_map]
  refine hplaces.filterMap _ ?_
  rintro ⟨a, i⟩ ⟨b, j⟩ hij e he e' he'
  obtain ⟨_, _, rfl⟩ := Option.map_eq_some_iff.1 he
  obtain ⟨_, _, rfl⟩ := Option.map_eq_some_iff.1 he'
  exact hij

theorem lt_of_mem_outline {d : Document} {entry : Nat × String} (h : entry ∈ d.outline) :
    entry.1 < d.actions.length := by
  obtain ⟨⟨a, i⟩, hmem, hlabel⟩ := List.mem_filterMap.1 h
  obtain ⟨_, _, rfl⟩ := Option.map_eq_some_iff.1 hlabel
  exact List.snd_lt_of_mem_zipIdx hmem

/-- The actions of a script are well formed. -/
theorem readScript_wellFormed {script : List Char} {actions : List Action}
    (h : readScript Entity.decode script = .ok actions) : ∀ a ∈ actions, a.WellFormed := by
  intro a ha
  obtain ⟨l, hl, hread⟩ := exists_line_of_mem h ha
  exact readLine_wellFormed (oneLine_of_mem_lines hl) hread

/-- What is read of a text comes from its first two sections. -/
theorem parse_eq_ok {separator text : String} {d : Document} (h : parse separator text = .ok d) :
    ∃ body script, d.source = String.ofList (Entity.decode (trim body)) ∧
      readScript Entity.decode script = .ok d.actions := by
  unfold parse readSections at h
  split at h
  · cases h
  · obtain ⟨actions, hactions, rfl⟩ := exists_of_map_eq_ok h
    exact ⟨_, _, rfl, hactions⟩

/-- **Every document that is read is well formed**, whatever its text and its separator are. -/
theorem parse_wellFormed {separator text : String} {d : Document}
    (h : parse separator text = .ok d) : d.WellFormed := by
  obtain ⟨body, script, hsource, hactions⟩ := parse_eq_ok h
  refine ⟨?_, readScript_wellFormed hactions, outline_pairwise d, fun _ => lt_of_mem_outline⟩
  rw [hsource, String.toList_ofList]
  exact (trim_tidy body).decode

/-- A text with entities, two kinds of line endings, an outline and an object. -/
def sampleText : String := " a &lt;\n@@\rtip_1 :\t&gt; x ::: 1 \nobj:\x7b\"k\":\"v\"\x7d"

/-- What is read of it. -/
def sampleDocument : Document :=
  ⟨"a <", [⟨"tip_1", .text "> x", some "1"⟩, ⟨"obj", .structured (.obj [("k", .str "v")]), none⟩]⟩

theorem parse_sampleText :
    parse "@@" sampleText = .ok sampleDocument ∧ sampleDocument.WellFormed := by
  have hsections : sections "@@".toList sampleText.toList = (" a &lt;\n".toList,
      "\rtip_1 :\t&gt; x ::: 1 \nobj:\x7b\"k\":\"v\"\x7d".toList) := by decide
  have hlines : lines "\rtip_1 :\t&gt; x ::: 1 \nobj:\x7b\"k\":\"v\"\x7d".toList =
      [[], "tip_1 :\t&gt; x ::: 1 ".toList, "obj:\x7b\"k\":\"v\"\x7d".toList] := by decide
  have hempty : readLine Entity.decode [] = .ok none := rfl
  have htip : readLine Entity.decode "tip_1 :\t&gt; x ::: 1 ".toList =
      .ok (some ⟨"tip_1", .text "> x", some "1"⟩) := by
    have hchars : "tip_1 :\t&gt; x ::: 1 ".toList =
        ['t', 'i', 'p', '_', '1', ' ', ':', '\t', '&', 'g', 't', ';', ' ', 'x', ' ', ':', ':', ':',
          ' ', '1', ' '] := by decide
    rw [hchars]
    rfl
  have hjson : Json.parse "\x7b\"k\":\"v\"\x7d" = .ok (.obj [("k", .str "v")]) := by
    have hchars : "\x7b\"k\":\"v\"\x7d".toList =
        ['\x7b', '"', 'k', '"', ':', '"', 'v', '"', '\x7d'] := by decide
    rw [Json.parse, hchars]
    rfl
  have hobj : readLine Entity.decode "obj:\x7b\"k\":\"v\"\x7d".toList =
      .ok (some ⟨"obj", .structured (.obj [("k", .str "v")]), none⟩) := by
    have hline : ¬ (trim "obj:\x7b\"k\":\"v\"\x7d".toList = [] ∨
        (trim "obj:\x7b\"k\":\"v\"\x7d".toList).head? = some '#') := by decide
    have hcut : cutOutline (trim "obj:\x7b\"k\":\"v\"\x7d".toList) =
        ("obj:\x7b\"k\":\"v\"\x7d".toList, none) := by decide
    have hcommand : command? "obj:\x7b\"k\":\"v\"\x7d".toList =
        some ("obj".toList, "\x7b\"k\":\"v\"\x7d".toList) := by decide
    have hdecode : Entity.decode "\x7b\"k\":\"v\"\x7d".toList =
        "\x7b\"k\":\"v\"\x7d".toList := by decide
    have hbrace : "\x7b\"k\":\"v\"\x7d".toList.head? = some '{' := by decide
    unfold readLine
    simp only [if_neg hline, hcut, hcommand, hdecode, readOptions_of_brace hbrace,
      String.ofList_toList, hjson]
    rfl
  have hread : parse "@@" sampleText = .ok sampleDocument := by
    rw [parse, readSections_of (by decide) hsections, readScript, hlines]
    simp only [readLines, hempty, htip, hobj]
    rfl
  exact ⟨hread, parse_wellFormed hread⟩

end Document

end Walkthrough
