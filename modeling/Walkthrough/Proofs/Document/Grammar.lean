import Walkthrough.Document.Reader
import Walkthrough.Proofs.Document.Line
import Walkthrough.Proofs.Text.Newline

/-!
# The grammar of action lines

A trimmed line is parted at its leftmost outline mark, if it has one, and what stands before the
mark is a name, a colon and options. White space around the mark and the colon belongs to no part.

* `Marked`, `Parted` — a text with an outline mark in it, and a text parted at its leftmost one.
* `LineParts`, `ActionLine` — the parts of an action line, and the lines that have them.
* `Outcome` — what a script of one action line comes to.
* `cutOutline_parted`, `Parted.unique` — every text is parted in one way, by `cutOutline`.
* `command?_eq_some_iff` — the commands that `command?` finds.
* `parseScript_line` — a line is read as an action if and only if it is an action line.
-/

set_option autoImplicit false

namespace Walkthrough

open Text

namespace Document

/-- A text of white space only. -/
def Blanks (s : List Char) : Prop := ∀ c ∈ s, isBlank c = true

/-- A text that does not begin with white space. -/
def Opened (s : List Char) : Prop := ∀ c ∈ s.head?, isBlank c = false

/-- A text that does not end with white space. -/
def Closed (s : List Char) : Prop := ∀ c ∈ s.getLast?, isBlank c = false

/-- A text `s` has an outline mark in it: three colons with white space directly before and behind
them, and some text behind that. Of `s`, `before` comes before the white space, `outline` after. -/
structure Marked (s before gap gap' outline : List Char) : Prop where
  eq : s = before ++ gap ++ ':' :: ':' :: ':' :: (gap' ++ outline)
  gap_ne_nil : gap ≠ []
  gap_blank : Blanks gap
  gap_ne_nil' : gap' ≠ []
  gap_blank' : Blanks gap'
  closed : Closed before
  opened : Opened outline
  outline_ne_nil : outline ≠ []

/-- A text parted at its leftmost outline mark; one without a mark is left whole. -/
inductive Parted (s : List Char) : List Char → Option (List Char) → Prop where
  | marked {before gap gap' outline : List Char} :
      Marked s before gap gap' outline →
      (∀ b g g' o, Marked s b g g' o → (before ++ gap).length ≤ (b ++ g).length) →
      Parted s before (some outline)
  | whole : (∀ b g g' o, ¬ Marked s b g g' o) → Parted s s none

/-- The parts of an action line; `gap` and `gap'` are the white space around the colon. -/
structure LineParts where
  name : List Char
  gap : List Char
  gap' : List Char
  options : List Char
  outline : Option (List Char)

/-- What stands before the outline. -/
def LineParts.command (p : LineParts) : List Char := p.name ++ p.gap ++ ':' :: (p.gap' ++ p.options)

/-- A line is an action line of the given parts. -/
structure ActionLine (l : List Char) (p : LineParts) : Prop where
  nonempty : trim l ≠ []
  noComment : (trim l).head? ≠ some '#'
  parted : Parted (trim l) p.command p.outline
  name_ne_nil : p.name ≠ []
  name_word : ∀ c ∈ p.name, isWordChar c = true
  gap_blank : Blanks p.gap
  gap_blank' : Blanks p.gap'
  options_ne_nil : p.options ≠ []
  opened : Opened p.options

/-- The action of the parts of a line, with its options read. -/
def LineParts.action (p : LineParts) (options : Action.Options) : Action :=
  ⟨String.ofList p.name, options, p.outline.map String.ofList⟩

/-- What a script comes to whose only line has the parts `p`: the options are decoded, and taken for
JSON if they begin with a brace. -/
inductive Outcome (p : LineParts) : Except Fault (List Action) → Prop where
  | text : (Entity.decode p.options).head? ≠ some '{' →
      Outcome p (.ok [p.action (.text (String.ofList (Entity.decode p.options)))])
  | structured {value : Json} : (Entity.decode p.options).head? = some '{' →
      Json.parse (String.ofList (Entity.decode p.options)) = .ok value →
      Outcome p (.ok [p.action (.structured value)])
  | broken {cause : Json.Fault} : (Entity.decode p.options).head? = some '{' →
      Json.parse (String.ofList (Entity.decode p.options)) = .error cause →
      Outcome p (.error (.invalidOptions 1 (String.ofList p.name) cause))

/-! ## White space between parts -/

theorem blanks_append_trimStart (s : List Char) : ∃ w, Blanks w ∧ s = w ++ trimStart s := by
  refine ⟨s.takeWhile isBlank, ?_, List.takeWhile_append_dropWhile.symm⟩
  intro c hc
  exact List.mem_takeWhile_imp hc

theorem trimEnd_append_blanks (s : List Char) : ∃ w, Blanks w ∧ s = trimEnd s ++ w := by
  induction s using List.reverseRecOn with
  | nil => exact ⟨[], nofun, rfl⟩
  | append_singleton s c ih =>
      obtain ⟨w, hw, hs⟩ := ih
      rw [trimEnd_concat]
      split
      · rename_i hc
        refine ⟨w ++ [c], ?_, ?_⟩
        · intro d hd
          rcases List.mem_append.1 hd with hd | hd
          · exact hw d hd
          · rw [List.mem_singleton.1 hd]
            exact hc
        · rw [← List.append_assoc, ← hs]
      · exact ⟨[], nofun, (List.append_nil _).symm⟩

theorem opened_trimStart (s : List Char) : Opened (trimStart s) := by
  have h : trimStart (trimStart s) = trimStart s := List.dropWhile_idempotent _ _
  exact trimStart_eq_self_iff.1 h

theorem closed_trimEnd (s : List Char) : Closed (trimEnd s) := by
  have h : trimEnd (trimEnd s) = trimEnd s := by
    rw [trimEnd_eq_rdropWhile, trimEnd_eq_rdropWhile, List.rdropWhile_idempotent]
  exact trimEnd_eq_self_iff.1 h

theorem trimStart_blanks_append {w s : List Char} (hw : Blanks w) (hs : Opened s) :
    trimStart (w ++ s) = s := by
  rw [trimStart, List.dropWhile_append_of_pos hw]
  exact trimStart_eq_self_iff.2 hs

theorem trimEnd_append_of_closed {s w : List Char} (hs : Closed s) (hw : Blanks w) :
    trimEnd (s ++ w) = s := by
  rw [trimEnd_append_of_blank hw]
  exact trimEnd_eq_self_iff.2 hs

/-! ## The leftmost mark -/

/-- Whether a text ends with white space; of an empty one `b` tells. -/
def endsBlank (b : Bool) (s : List Char) : Bool := s.foldl (fun _ c => isBlank c) b

theorem endsBlank_concat (b : Bool) (s : List Char) (c : Char) :
    endsBlank b (s ++ [c]) = isBlank c := by
  simp [endsBlank]

theorem endsBlank_append_blanks {s w : List Char} (hne : w ≠ []) (hw : Blanks w) (b : Bool) :
    endsBlank b (s ++ w) = true := by
  obtain ⟨w, c, rfl⟩ := (List.eq_nil_or_concat' w).resolve_left hne
  rw [← List.append_assoc, endsBlank_concat]
  exact hw c (by simp)

/-- A text that ends with white space has some to be taken off. -/
theorem exists_blanks_of_endsBlank {s : List Char} (h : endsBlank false s = true) :
    ∃ w, w ≠ [] ∧ Blanks w ∧ s = trimEnd s ++ w := by
  obtain ⟨w, hw, hs⟩ := trimEnd_append_blanks s
  refine ⟨w, ?_, hw, hs⟩
  rintro rfl
  rw [List.append_nil] at hs
  rcases List.eq_nil_or_concat' s with rfl | ⟨t, c, rfl⟩
  · cases h
  · rw [endsBlank_concat] at h
    have hclosed := closed_trimEnd (t ++ [c]) c (by rw [← hs]; simp)
    rw [h] at hclosed
    cases hclosed

theorem outlineAt?_eq_some_iff {s outline : List Char} :
    outlineAt? s = some outline ↔
      ∃ gap, gap ≠ [] ∧ Blanks gap ∧ Opened outline ∧ outline ≠ [] ∧
        s = ':' :: ':' :: ':' :: (gap ++ outline) := by
  constructor
  · intro h
    unfold outlineAt? at h
    split at h
    · rename_i c s
      split at h
      · rename_i hc
        cases h
        obtain ⟨w, hw, hs⟩ := blanks_append_trimStart s
        refine ⟨c :: w, List.cons_ne_nil _ _, List.forall_mem_cons.2 ⟨hc.1, hw⟩, opened_trimStart s,
          hc.2, ?_⟩
        rw [List.cons_append, ← hs]
      · cases h
    · cases h
  · rintro ⟨gap, hne, hgap, hopened, hout, rfl⟩
    obtain ⟨c, w, rfl⟩ := List.exists_cons_of_ne_nil hne
    obtain ⟨hc, hw⟩ := List.forall_mem_cons.1 hgap
    have htrim : trimStart (w ++ outline) = outline := trimStart_blanks_append hw hopened
    simp only [List.cons_append, outlineAt?, htrim, hc, hout, ne_eq, not_false_eq_true, and_self,
      ↓reduceIte]

/-- What `cutMark?` cuts off begins with a mark, and no mark begins earlier. -/
theorem cutMark?_eq_some {b : Bool} {s before outline : List Char}
    (h : cutMark? b s = some (before, outline)) :
    (∃ rest, s = before ++ rest ∧ outlineAt? rest = some outline ∧ endsBlank b before = true) ∧
      ∀ before' rest' outline', s = before' ++ rest' → outlineAt? rest' = some outline' →
        endsBlank b before' = true → before.length ≤ before'.length := by
  induction s generalizing b before with
  | nil => cases h
  | cons c s ih =>
      rw [cutMark?] at h
      split at h
      · rename_i o ho
        cases h
        split at ho
        · rename_i hb
          exact ⟨⟨c :: s, rfl, ho, hb⟩, fun _ _ _ _ _ _ => Nat.zero_le _⟩
        · cases ho
      · rename_i hnone
        obtain ⟨⟨t, o⟩, ht, heq⟩ := Option.map_eq_some_iff.1 h
        cases heq
        obtain ⟨⟨rest, hs, hrest, hblank⟩, hleast⟩ := ih ht
        refine ⟨⟨rest, by rw [hs, List.cons_append], hrest, hblank⟩, ?_⟩
        intro before' rest' outline' hs' hrest' hblank'
        cases before' with
        | nil =>
            -- a mark at the very start would have been found
            rw [List.nil_append] at hs'
            have hb : b = true := hblank'
            rw [if_pos hb, hs', hrest'] at hnone
            cases hnone
        | cons d before' =>
            obtain ⟨rfl, htail⟩ := List.cons.inj hs'
            have hle := hleast before' rest' outline' htail hrest' hblank'
            simp only [List.length_cons]
            omega

theorem cutMark?_eq_none {b : Bool} {s before rest : List Char} (h : cutMark? b s = none)
    (hs : s = before ++ rest) (hblank : endsBlank b before = true) : outlineAt? rest = none := by
  induction s generalizing b before with
  | nil =>
      obtain ⟨-, rfl⟩ := List.append_eq_nil_iff.1 hs.symm
      rfl
  | cons c s ih =>
      rw [cutMark?] at h
      split at h
      · cases h
      · rename_i hnone
        cases before with
        | nil =>
            rw [List.nil_append] at hs
            have hb : b = true := hblank
            rw [if_pos hb, hs] at hnone
            exact hnone
        | cons d before =>
            obtain ⟨rfl, htail⟩ := List.cons.inj hs
            exact ih (Option.map_eq_none_iff.1 h) htail hblank

/-- A mark is a place where `outlineAt?` finds an outline, behind white space. -/
theorem Marked.outlineAt? {s before gap gap' outline : List Char}
    (h : Marked s before gap gap' outline) :
    ∃ rest, s = before ++ gap ++ rest ∧ Document.outlineAt? rest = some outline ∧
      endsBlank false (before ++ gap) = true :=
  ⟨_, h.eq, outlineAt?_eq_some_iff.2
    ⟨gap', h.gap_ne_nil', h.gap_blank', h.opened, h.outline_ne_nil, rfl⟩,
    endsBlank_append_blanks h.gap_ne_nil h.gap_blank false⟩

theorem marked_of_outlineAt? {s before rest outline : List Char} (hs : s = before ++ rest)
    (hrest : outlineAt? rest = some outline) (hblank : endsBlank false before = true) :
    ∃ gap gap', Marked s (trimEnd before) gap gap' outline ∧ before = trimEnd before ++ gap := by
  obtain ⟨gap, hne, hgap, hbefore⟩ := exists_blanks_of_endsBlank hblank
  obtain ⟨gap', hne', hgap', hopened, hout, rfl⟩ := outlineAt?_eq_some_iff.1 hrest
  refine ⟨gap, gap', ⟨?_, hne, hgap, hne', hgap', closed_trimEnd before, hopened, hout⟩, hbefore⟩
  rw [← hbefore, hs]

/-- Every text is parted by `cutOutline`. -/
theorem cutOutline_parted (s : List Char) : Parted s (cutOutline s).1 (cutOutline s).2 := by
  unfold cutOutline
  split
  · rename_i before outline hcut
    obtain ⟨⟨rest, hs, hrest, hblank⟩, hleast⟩ := cutMark?_eq_some hcut
    obtain ⟨gap, gap', hmarked, hbefore⟩ := marked_of_outlineAt? hs hrest hblank
    refine .marked hmarked ?_
    intro b g g' o hm
    obtain ⟨rest', hs', hrest', hblank'⟩ := hm.outlineAt?
    rw [← hbefore]
    exact hleast _ rest' o hs' hrest' hblank'
  · rename_i hcut
    refine .whole ?_
    intro b g g' o hm
    obtain ⟨rest, hs, hrest, hblank⟩ := hm.outlineAt?
    rw [cutMark?_eq_none hcut hs hblank] at hrest
    cases hrest

/-- Marks at the same place have the same parts. -/
theorem Marked.unique {s b g g' o c w w' p : List Char} (h : Marked s b g g' o)
    (h' : Marked s c w w' p) (hlength : (b ++ g).length = (c ++ w).length) : b = c ∧ o = p := by
  obtain ⟨hfront, hback⟩ := List.append_inj (h.eq.symm.trans h'.eq) hlength
  simp only [List.cons.injEq, true_and] at hback
  constructor
  · rw [← trimEnd_append_of_closed h.closed h.gap_blank, hfront,
      trimEnd_append_of_closed h'.closed h'.gap_blank]
  · rw [← trimStart_blanks_append h.gap_blank' h.opened, hback,
      trimStart_blanks_append h'.gap_blank' h'.opened]

/-- A text is parted in one way. -/
theorem Parted.unique {s c c' : List Char} {o o' : Option (List Char)} (h : Parted s c o)
    (h' : Parted s c' o') : c = c' ∧ o = o' := by
  cases h with
  | marked hm hleast =>
      cases h' with
      | marked hm' hleast' =>
          have hle := hleast _ _ _ _ hm'
          have hle' := hleast' _ _ _ _ hm
          obtain ⟨rfl, rfl⟩ := hm.unique hm' (Nat.le_antisymm hle hle')
          exact ⟨rfl, rfl⟩
      | whole hnone => exact absurd hm (hnone _ _ _ _)
  | whole hnone =>
      cases h' with
      | marked hm' _ => exact absurd hm' (hnone _ _ _ _)
      | whole _ => exact ⟨rfl, rfl⟩

/-! ## Commands -/

/-- A word ends where white space or a colon follows it. -/
theorem span_word {w gap : List Char} (hw : ∀ c ∈ w, isWordChar c = true) (hgap : Blanks gap)
    (s : List Char) :
    (w ++ gap ++ ':' :: s).takeWhile isWordChar = w ∧
      (w ++ gap ++ ':' :: s).dropWhile isWordChar = gap ++ ':' :: s := by
  have hnext : ∀ c ∈ (gap ++ ':' :: s).head?, ¬ isWordChar c = true := by
    intro c hc hword
    cases gap with
    | nil =>
        cases hc
        cases hword
    | cons d gap =>
        cases hc
        have hblank := hgap c List.mem_cons_self
        rw [isBlank_of_isWordChar hword] at hblank
        cases hblank
  rw [List.append_assoc]
  constructor
  · rw [List.takeWhile_append_of_pos hw]
    cases h : gap ++ ':' :: s with
    | nil => simp
    | cons c t => rw [List.takeWhile_cons_of_neg (hnext c (by simp [h])), List.append_nil]
  · rw [List.dropWhile_append_of_pos hw]
    cases h : gap ++ ':' :: s with
    | nil => rfl
    | cons c t => rw [List.dropWhile_cons_of_neg (hnext c (by simp [h]))]

/-- The commands that `command?` finds: a word, a colon and options, with any white space around
the colon. -/
theorem command?_eq_some_iff {s name options : List Char} :
    command? s = some (name, options) ↔
      name ≠ [] ∧ (∀ c ∈ name, isWordChar c = true) ∧ options ≠ [] ∧ Opened options ∧
        ∃ gap gap', Blanks gap ∧ Blanks gap' ∧ s = name ++ gap ++ ':' :: (gap' ++ options) := by
  constructor
  · intro h
    unfold command? at h
    simp only at h
    split at h
    · rename_i c w t hname hrest
      split at h
      · cases h
      · rename_i hne
        cases h
        obtain ⟨gap, hgap, hgap_eq⟩ := blanks_append_trimStart (s.dropWhile isWordChar)
        obtain ⟨gap', hgap', hgap_eq'⟩ := blanks_append_trimStart t
        have hs : s = s.takeWhile isWordChar ++ s.dropWhile isWordChar :=
          List.takeWhile_append_dropWhile.symm
        refine ⟨?_, ?_, hne, opened_trimStart t, gap, gap', hgap, hgap', ?_⟩
        · rw [hname]
          exact List.cons_ne_nil _ _
        · intro d hd
          exact List.mem_takeWhile_imp hd
        · rw [← hgap_eq', ← hrest, List.append_assoc, ← hgap_eq, ← hs]
    · cases h
  · rintro ⟨hne, hword, hne', hopened, gap, gap', hgap, hgap', rfl⟩
    obtain ⟨htake, hdrop⟩ := span_word hword hgap (gap' ++ options)
    have hcolon : Opened (':' :: (gap' ++ options)) := by
      rintro c ⟨⟩
      rfl
    have htrim : trimStart (gap ++ ':' :: (gap' ++ options)) = ':' :: (gap' ++ options) :=
      trimStart_blanks_append hgap hcolon
    have htrim' : trimStart (gap' ++ options) = options := trimStart_blanks_append hgap' hopened
    obtain ⟨c, w, rfl⟩ := List.exists_cons_of_ne_nil hne
    simp only [command?, htake, hdrop, htrim, htrim', if_neg hne']

/-! ## Lines -/

namespace ActionLine

variable {l : List Char} {p q : LineParts}

theorem cutOutline_eq (h : ActionLine l p) : cutOutline (trim l) = (p.command, p.outline) := by
  obtain ⟨hcommand, houtline⟩ := (cutOutline_parted (trim l)).unique h.parted
  rw [← hcommand, ← houtline]

theorem command?_eq (h : ActionLine l p) : command? p.command = some (p.name, p.options) :=
  command?_eq_some_iff.2 ⟨h.name_ne_nil, h.name_word, h.options_ne_nil, h.opened, p.gap, p.gap',
    h.gap_blank, h.gap_blank', rfl⟩

/-- A line is an action line in one way. -/
theorem unique (h : ActionLine l p) (h' : ActionLine l q) : p = q := by
  obtain ⟨hcommand, houtline⟩ := h.parted.unique h'.parted
  have hparts := h.command?_eq
  rw [hcommand, h'.command?_eq] at hparts
  obtain ⟨name, gap, gap', options, outline⟩ := p
  obtain ⟨name₂, gap₂, gap₂', options₂, outline₂⟩ := q
  simp only [Option.some.injEq, Prod.mk.injEq] at hparts houtline
  obtain ⟨rfl, rfl⟩ := hparts
  subst houtline
  have hcolon (g : List Char) : Opened (':' :: (g ++ options₂)) := by
    rintro c ⟨⟩
    rfl
  simp only [LineParts.command, List.append_assoc, List.append_cancel_left_eq] at hcommand
  -- what follows the white space before the colon is the same, hence also this white space
  have hrest : ':' :: (gap' ++ options₂) = ':' :: (gap₂' ++ options₂) := by
    rw [← trimStart_blanks_append h.gap_blank (hcolon gap'), hcommand,
      trimStart_blanks_append h'.gap_blank (hcolon gap₂')]
  have hgap' : gap' = gap₂' := List.append_cancel_right (List.cons.inj hrest).2
  rw [hrest] at hcommand
  have hgap : gap = gap₂ := List.append_cancel_right hcommand
  rw [hgap, hgap']

end ActionLine

/-- A line that no parts fit yields nothing. -/
theorem readLine_of_not_action (decode : List Char → List Char) {l : List Char}
    (h : ∀ p, ¬ ActionLine l p) : readLine decode l = .ok none := by
  unfold readLine
  by_cases hline : trim l = [] ∨ (trim l).head? = some '#'
  · simp only [if_pos hline]
  · simp only [if_neg hline]
    cases hcommand : command? (cutOutline (trim l)).1 with
    | none => rfl
    | some c =>
        obtain ⟨name, options⟩ := c
        obtain ⟨hname, hword, hoptions, hopened, gap, gap', hgap, hgap', heq⟩ :=
          command?_eq_some_iff.1 hcommand
        rw [not_or] at hline
        have hparted := cutOutline_parted (trim l)
        rw [heq] at hparted
        exact absurd ⟨hline.1, hline.2, hparted, hname, hword, hgap, hgap', hoptions, hopened⟩
          (h ⟨name, gap, gap', options, (cutOutline (trim l)).2⟩)

theorem readLine_of_action (decode : List Char → List Char) {l : List Char} {p : LineParts}
    (h : ActionLine l p) :
    readLine decode l =
      match readOptions (decode p.options) with
      | .error cause => .error (String.ofList p.name, cause)
      | .ok options => .ok (some (p.action options)) := by
  have hline : ¬ (trim l = [] ∨ (trim l).head? = some '#') := not_or.2 ⟨h.nonempty, h.noComment⟩
  unfold readLine
  simp only [if_neg hline, h.cutOutline_eq, h.command?_eq]
  rfl

/-- A script without line endings is a single line. -/
theorem parseScript_oneLine {l : String} (h : OneLine l.toList) :
    parseScript l = readLines Entity.decode 1 [l.toList] := by
  have hlines : lines l.toList = [l.toList] := by
    have hone := lines_intercalate (List.cons_ne_nil l.toList []) (by simpa using h)
    simpa using hone
  rw [parseScript, readScript, hlines]

theorem readOptions_of_brace {s : List Char} (h : s.head? = some '{') :
    readOptions s = (Json.parse (String.ofList s)).map .structured := by
  obtain ⟨t, rfl⟩ := List.head?_eq_some_iff.1 h
  rfl

theorem readOptions_of_not_brace {s : List Char} (h : s.head? ≠ some '{') :
    readOptions s = .ok (.text (String.ofList s)) := by
  unfold readOptions
  split
  · exact absurd rfl h
  · rfl

theorem parseScript_of_action {l : String} {p : LineParts} (h : OneLine l.toList)
    (hp : ActionLine l.toList p) : Outcome p (parseScript l) := by
  rw [parseScript_oneLine h, readLines, readLine_of_action Entity.decode hp]
  by_cases hbrace : (Entity.decode p.options).head? = some '{'
  · rw [readOptions_of_brace hbrace]
    cases hjson : Json.parse (String.ofList (Entity.decode p.options)) with
    | error cause => exact .broken hbrace hjson
    | ok value => exact .structured hbrace hjson
  · rw [readOptions_of_not_brace hbrace]
    exact .text hbrace

theorem Outcome.ne_nil {p : LineParts} {r : Except Fault (List Action)} (h : Outcome p r) :
    r ≠ .ok [] := by
  cases h <;> nofun

/-- **A line is read as an action if and only if it is an action line.** Every line is parted in one
way at its leftmost outline mark, and has the parts of an action line in at most one way. If it has
them, the action carries just these parts, or is refused where its options begin as an object and
are none; if it has not, the line yields nothing. -/
theorem parseScript_line {l : String} (h : OneLine l.toList) :
    (∃! c : List Char × Option (List Char), Parted (trim l.toList) c.1 c.2) ∧
      (∀ p q, ActionLine l.toList p → ActionLine l.toList q → p = q) ∧
      (∀ p, ActionLine l.toList p → Outcome p (parseScript l)) ∧
      (parseScript l ≠ .ok [] ↔ ∃ p, ActionLine l.toList p) := by
  refine ⟨?_, ?_, ?_, ?_, ?_⟩
  · refine ⟨cutOutline (trim l.toList), cutOutline_parted _, ?_⟩
    intro c hc
    obtain ⟨hfst, hsnd⟩ := hc.unique (cutOutline_parted _)
    exact Prod.ext hfst hsnd
  · intro p q hp hq
    exact hp.unique hq
  · intro p hp
    exact parseScript_of_action h hp
  · intro hne
    by_contra hnone
    rw [not_exists] at hnone
    refine hne ?_
    rw [parseScript_oneLine h, readLines, readLine_of_not_action Entity.decode hnone]
    rfl
  · rintro ⟨p, hp⟩
    exact (parseScript_of_action h hp).ne_nil

/-- A line with white space around its colon, and with colons in its options and its outline. -/
def sampleLine : String := " tip_1 :\t a:::b &lt;c :: ::: Intro ::: 2 "

/-- The parts of the sample. -/
def sampleParts : LineParts :=
  ⟨"tip_1".toList, [' '], ['\t', ' '], "a:::b &lt;c ::".toList, some "Intro ::: 2".toList⟩

theorem parseScript_sampleLine :
    OneLine sampleLine.toList ∧ ActionLine sampleLine.toList sampleParts ∧
      parseScript sampleLine = .ok [⟨"tip_1", .text "a:::b <c ::", some "Intro ::: 2"⟩] := by
  have hone : OneLine sampleLine.toList := ⟨by decide, by decide⟩
  have hcut : cutOutline (trim sampleLine.toList) = (sampleParts.command, sampleParts.outline) := by
    decide
  have hline : ActionLine sampleLine.toList sampleParts := by
    have hparted := cutOutline_parted (trim sampleLine.toList)
    rw [hcut] at hparted
    refine ⟨by decide, by decide, hparted, by decide, List.all_eq_true.1 (by decide),
      List.all_eq_true.1 (by decide), List.all_eq_true.1 (by decide), by decide, ?_⟩
    rintro c ⟨⟩
    rfl
  refine ⟨hone, hline, ?_⟩
  have houtcome := (parseScript_line hone).2.2.1 _ hline
  generalize parseScript sampleLine = r at houtcome
  cases houtcome with
  | text _ => rfl
  | structured hbrace _ => exact absurd hbrace (by decide)
  | broken hbrace _ => exact absurd hbrace (by decide)

end Document

end Walkthrough
