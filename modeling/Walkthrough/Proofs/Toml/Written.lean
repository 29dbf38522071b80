import Walkthrough.Proofs.Toml.Lines

/-!
# What is written says what it was written from

A string has four notations, and the one that is written depends on the quotes, the backslashes, the
line breaks and the control characters in it. The conditions under which a notation is chosen are
those that its rules ask for.

* `escapeOf_stands` — a character or its escape stands for it.
* `quotedText_lineBody`, `blockText_blockBody` — between double quotes every text can be written.
* `longestRun_le` — a text without long runs of a quote may stand in a block as it is.
* `stringText_renderString` — a written string stands for its text, whatever that is.
* `tableLines` — the lines that a simple table is written on; `table_tableLines`: their table.
* `standard_writes` — every simple table is written, and the text says that table.
-/

set_option autoImplicit false

namespace Walkthrough.Toml

variable {c q : Char} {s t w : List Char} {run : Nat}

/-! ## Characters -/

/-- A character that is no control is a line break, or may stand in a string as it is. -/
theorem isPlain_of_not_isControl (hc : isControl c = false) (hlf : c ≠ '\n') :
    isPlain c = true := by
  simp only [isControl, Bool.or_eq_false_iff, Bool.and_eq_false_iff, decide_eq_false_iff_not,
    not_not, Nat.not_lt] at hc
  simp only [isPlain, Bool.or_eq_true, Bool.and_eq_true, decide_eq_true_eq]
  obtain ⟨(hle | htab) | hlf', hdel⟩ := hc
  · exact Or.inr ⟨hle, hdel⟩
  · exact Or.inl htab
  · exact absurd hlf' hlf

/-- A hexadecimal digit is read back. -/
theorem hexDigit?_digitChar : ∀ n < 16, hexDigit? (Nat.digitChar n).toUpper = some n := by
  decide

theorem isControl_lt (h : isControl c = true) : c.toNat < 0x80 := by
  simp only [isControl, Bool.or_eq_true, Bool.and_eq_true, decide_eq_true_eq] at h
  omega

/-- A character below `0x100` in four hexadecimal digits. -/
theorem escape_hex (hc : c.toNat < 0x100) :
    Escape ('u' :: ['0', '0', (Nat.digitChar (c.toNat / 16)).toUpper,
      (Nat.digitChar (c.toNat % 16)).toUpper]) c := by
  refine .short rfl ?_
  have hhigh := hexDigit?_digitChar (c.toNat / 16) (by omega)
  have hlow := hexDigit?_digitChar (c.toNat % 16) (by omega)
  have hzero : hexDigit? '0' = some 0 := by decide
  have hn : 16 * (c.toNat / 16) + c.toNat % 16 = c.toNat := by omega
  simp [hexValue?, hhigh, hlow, hzero, hn]

/-- A character stands for itself, or is written with an escape that does. -/
theorem escapeOf_stands (hlf : c ≠ '\n') (hq : c ≠ '"') : Stands (escapeOf c) c := by
  unfold escapeOf
  split
  · exact .escape (.letter (by decide))
  · exact .escape (.letter (by decide))
  · exact .escape (.letter (by decide))
  · exact .escape (.letter (by decide))
  · exact .escape (.letter (by decide))
  · rename_i hbackslash
    split
    · rename_i hcontrol
      have hc := isControl_lt hcontrol
      exact .escape (escape_hex (by omega))
    · rename_i hcontrol
      exact .plain (isPlain_of_not_isControl (by simpa using hcontrol) hlf) hq hbackslash

/-! ## Strings between double quotes -/

/-- What a character is written as on one line. -/
def lineEscape (c : Char) : List Char :=
  if c = '\n' then ['\\', 'n'] else if c = '"' then ['\\', '"'] else escapeOf c

theorem lineBody_cons : lineBody (c :: s) = lineEscape c ++ lineBody s := List.flatMap_cons

theorem lineEscape_stands : Stands (lineEscape c) c := by
  unfold lineEscape
  split
  · rename_i hlf
    subst hlf
    exact .escape (.letter (by decide))
  · rename_i hlf
    split
    · rename_i hq
      subst hq
      exact .escape (.letter (by decide))
    · rename_i hq
      exact escapeOf_stands hlf hq

/-- On one line between double quotes every text can be written. -/
theorem quotedText_lineBody (s : List Char) : QuotedText (lineBody s) s := by
  induction s with
  | nil => exact .nil
  | cons c s ih =>
      rw [lineBody_cons]
      exact .cons lineEscape_stands ih

/-- In a block between tripled double quotes every text can be written. What is counted in `run`
says where the next escape of a quote stands. -/
theorem blockText_blockBody (hrun : run ≤ 2) (s : List Char) :
    BlockText run (blockBody run s) s := by
  induction s generalizing run with
  | nil => exact .nil
  | cons c s ih =>
      unfold blockBody
      split
      · rename_i hq
        subst hq
        split
        · exact .cons (u := ['\\', '"']) (.escape (.letter (by decide))) (ih (Nat.zero_le 2))
        · exact .quote (by omega) (ih (by omega))
      · rename_i hq
        split
        · rename_i hlf
          subst hlf
          exact .newline (ih (Nat.zero_le 2))
        · rename_i hlf
          exact .cons (escapeOf_stands hlf hq) (ih (Nat.zero_le 2))

/-! ## Strings between single quotes -/

/-- One step of the count of `longestRun`: the longest run so far, and the one that the last
characters form. -/
def runStep (q : Char) (p : Nat × Nat) (c : Char) : Nat × Nat :=
  if c = q then (max p.1 (p.2 + 1), p.2 + 1) else (p.1, 0)

theorem longestRun_eq : longestRun q s = (s.foldl (runStep q) (0, 0)).1 := rfl

theorem le_foldl_runStep {p : Nat × Nat} (hp : p.2 ≤ p.1) :
    p.2 + (s.takeWhile (· = q)).length ≤ (s.foldl (runStep q) p).1 ∧
      p.1 ≤ (s.foldl (runStep q) p).1 ∧
      (s.foldl (runStep q) p).2 ≤ (s.foldl (runStep q) p).1 := by
  induction s generalizing p with
  | nil => exact ⟨hp, Nat.le_refl _, hp⟩
  | cons c s ih =>
      rw [List.foldl_cons]
      by_cases hc : c = q
      · have hstep : runStep q p c = (max p.1 (p.2 + 1), p.2 + 1) := if_pos hc
        have hle : (runStep q p c).2 ≤ (runStep q p c).1 := by
          rw [hstep]
          exact Nat.le_max_right _ _
        obtain ⟨hquotes, hbest, hnow⟩ := ih hle
        simp only [hstep] at hquotes hbest hnow ⊢
        rw [List.takeWhile_cons_of_pos (by simpa using hc), List.length_cons]
        exact ⟨by omega, by omega, hnow⟩
      · have hstep : runStep q p c = (p.1, 0) := if_neg hc
        have hle : (runStep q p c).2 ≤ (runStep q p c).1 := by
          rw [hstep]
          exact Nat.zero_le _
        obtain ⟨-, hbest, hnow⟩ := ih hle
        simp only [hstep] at hbest hnow ⊢
        rw [List.takeWhile_cons_of_neg (by simpa using hc), List.length_nil]
        exact ⟨by omega, hbest, hnow⟩

/-- No run of a character, wherever it stands, is longer than the longest one. -/
theorem takeWhile_length_le_longestRun (h : t <:+ s) :
    (t.takeWhile (· = q)).length ≤ longestRun q s := by
  obtain ⟨p, rfl⟩ := h
  rw [longestRun_eq, List.foldl_append]
  obtain ⟨-, -, hp⟩ := le_foldl_runStep (q := q) (s := p) (p := (0, 0)) (Nat.le_refl 0)
  have ht := (le_foldl_runStep (q := q) (s := t) hp).1
  omega

/-- Where the longest run of a character is of two, there are nowhere three in a row. -/
theorem not_infix_of_longestRun_le (h : longestRun q s ≤ 2) : ¬ [q, q, q] <:+: s := by
  rintro ⟨before, after, rfl⟩
  have hrun := takeWhile_length_le_longestRun (q := q) (s := before ++ [q, q, q] ++ after)
    (t := [q, q, q] ++ after) ⟨before, by rw [List.append_assoc]⟩
  simp only [List.cons_append, List.nil_append, List.takeWhile_cons_of_pos, decide_true,
    List.length_cons] at hrun
  omega

/-! ## Strings -/

/-- The line break that is not part of a block stands in front of a text of several lines. -/
theorem opened_start (hw : '\n' ∉ s → w.head? ≠ some '\n') :
    Opened ((if !s.contains '\n' then [] else ['\n']) ++ w) w := by
  split
  · rename_i h
    exact .same (hw (by simpa using h))
  · exact .newline .lf

theorem blockBody_head (h : '\n' ∉ s) : (blockBody 0 s).head? ≠ some '\n' := by
  cases s with
  | nil => simp [blockBody]
  | cons c s =>
      have hlf : c ≠ '\n' := fun hc => h (hc ▸ List.mem_cons_self)
      unfold blockBody
      rw [if_neg hlf]
      split
      · simp
      · rename_i hq
        obtain ⟨d, v, hu, -, hd, -⟩ := (escapeOf_stands hlf hq).head
        rw [hu]
        simpa using hd

theorem stringText_basicBlock (s : List Char) :
    StringText ('"' :: '"' :: '"' :: ((if !s.contains '\n' then [] else ['\n']) ++
      blockBody 0 s ++ ['"', '"', '"'])) s :=
  .block (opened_start blockBody_head) (blockText_blockBody (Nat.zero_le 2) s)

/-- **A written string stands for its text**, whatever that is. The line and the block between
double quotes can hold every text, the other two notations what their conditions leave. -/
theorem stringText_renderString (s : List Char) : StringText (renderString s) s := by
  have hclean : (!s.any isControl) = true → ∀ c ∈ s, isPlain c = true ∨ c = '\n' := by
    intro h c hc
    have hcontrol : isControl c = false := by
      simpa using List.any_eq_false.mp (by simpa using h) c hc
    by_cases hlf : c = '\n'
    · exact Or.inr hlf
    · exact Or.inl (isPlain_of_not_isControl hcontrol hlf)
  unfold renderString
  simp only
  generalize hstart : (if !s.contains '\n' then [] else ['\n']) = start
  split_ifs with h1 h2 h3 h4 h5
  · exact .quoted (quotedText_lineBody s)
  · have hlf : '\n' ∉ s := by simpa using h2.2.1
    have hq : '\'' ∉ s := by simpa using h2.2.2
    exact .literal fun c hc =>
      ⟨(hclean h2.1 c hc).resolve_right fun h => hlf (h ▸ hc), fun h => hq (h ▸ hc)⟩
  · subst hstart
    exact stringText_basicBlock s
  · subst hstart
    refine .literalBlock (opened_start fun hlf hc => ?_)
      ⟨hclean h4.1, not_infix_of_longestRun_le h4.2⟩
    exact hlf (List.mem_of_mem_head? hc)
  · exact .quoted (quotedText_lineBody s)
  · subst hstart
    exact stringText_basicBlock s

/-! ## Lines -/

variable {p : String × Toml} {ps : Table} {ls : List Line}

/-- The line of a member. -/
def memberLine (p : String × Toml) : Line := .member p.1 p.2

/-- A string or a flag is written as a value. -/
theorem renderLeaf?_isLeaf {v : Toml} (h : isLeaf v = true) :
    ∃ w, renderLeaf? v = some w ∧ ValueText w v := by
  cases v with
  | text content =>
      have hvalue := ValueText.text (stringText_renderString content.toList)
      rw [String.ofList_toList] at hvalue
      exact ⟨_, rfl, hvalue⟩
  | flag value =>
      cases value with
      | true => exact ⟨_, rfl, .yes⟩
      | false => exact ⟨_, rfl, .no⟩
  | scalar _ => cases h
  | array _ => cases h
  | tables _ => cases h
  | table _ _ => cases h

theorem space_one : Space [' '] := by simp [Space, isBlank]

/-- A member is written on a line of its own. -/
theorem renderLine?_isLeaf (hkey : isBareKey p.1 = true) (hleaf : isLeaf p.2 = true) :
    ∃ w, renderLine? p = some (w ++ ['\n']) ∧ LineText w (memberLine p) := by
  obtain ⟨v, hv, hvalue⟩ := renderLeaf?_isLeaf hleaf
  refine ⟨p.1.toList ++ ' ' :: '=' :: ' ' :: v, ?_, ?_⟩
  · rw [renderLine?, if_pos hkey, hv]
    simp
  · simpa [memberLine] using LineText.member space_nil (.bare hkey) space_one space_one hvalue
      (.space space_nil)

/-- Texts that are written one after the other. -/
theorem mapM_flatten_cons {α : Type} {f : α → Option (List Char)} {a : α} {l : List α}
    {u v : List Char} (ha : f a = some u) (hl : (l.mapM f).map List.flatten = some v) :
    ((a :: l).mapM f).map List.flatten = some (u ++ v) := by
  obtain ⟨vs, hvs, rfl⟩ := Option.map_eq_some_iff.mp hl
  simp [List.mapM_cons, ha, hvs]

/-- Members are written line by line. -/
theorem renderLines?_isLeaf (hkeys : ∀ p ∈ ps, isBareKey p.1 = true)
    (hleaves : ∀ p ∈ ps, isLeaf p.2 = true) :
    ∃ w, renderLines? ps = some w ∧
      ∀ rest ls, LinesText rest ls → LinesText (w ++ rest) (ps.map memberLine ++ ls) := by
  induction ps with
  | nil => exact ⟨[], rfl, fun rest ls h => h⟩
  | cons p ps ih =>
      obtain ⟨v, hv, hlines⟩ := ih (fun q hq => hkeys q (List.mem_cons_of_mem p hq))
        (fun q hq => hleaves q (List.mem_cons_of_mem p hq))
      obtain ⟨u, hu, hline⟩ :=
        renderLine?_isLeaf (hkeys p List.mem_cons_self) (hleaves p List.mem_cons_self)
      refine ⟨u ++ ['\n'] ++ v, mapM_flatten_cons hu hv, fun rest ls h => ?_⟩
      simpa using LinesText.cons hline .lf (hlines rest ls h)

/-- The members of a table, or none of another value. -/
def members : Toml → Table
  | .table _ members => members
  | _ => []

/-- The lines of a section. -/
def sectionLines (p : String × Toml) : List Line :=
  .empty :: .header p.1 :: (members p.2).map memberLine

theorem hasBareKeys_iff :
    hasBareKeys ps = true ↔ (∀ p ∈ ps, isBareKey p.1 = true) ∧ (keys ps).Nodup := by
  rw [hasBareKeys, Bool.and_eq_true, decide_eq_true_eq]
  simp [keys]

theorem isSection_iff {v : Toml} :
    isSection v = true ↔ (∃ o, v = .table o (members v)) ∧ hasBareKeys (members v) = true ∧
      ∀ p ∈ members v, isLeaf p.2 = true := by
  cases v <;> simp [isSection, members]

/-- A section is written below its header, after an empty line. -/
theorem renderSection?_isSection (hkey : isBareKey p.1 = true) (hsection : isSection p.2 = true) :
    ∃ w, renderSection? p = some w ∧
      ∀ rest ls, LinesText rest ls → LinesText (w ++ rest) (sectionLines p ++ ls) := by
  obtain ⟨⟨o, htable⟩, hkeys, hleaves⟩ := isSection_iff.mp hsection
  obtain ⟨w, hw, hlines⟩ := renderLines?_isLeaf (hasBareKeys_iff.mp hkeys).1 hleaves
  refine ⟨'\n' :: '[' :: (p.1.toList ++ ']' :: '\n' :: w), ?_, fun rest ls h => ?_⟩
  · rw [renderSection?, htable]
    simp only [if_pos hkey, hw, Option.map_some]
  · have hheader : LineText ('[' :: (p.1.toList ++ [']'])) (.header p.1) := by
      simpa using LineText.header space_nil space_nil (.bare hkey) space_nil (.space space_nil)
    have hempty : LineText [] .empty := .empty (.space space_nil)
    simpa [sectionLines] using
      LinesText.cons hempty .lf (LinesText.cons hheader .lf (hlines rest ls h))

theorem renderSections?_isSection (hkeys : ∀ p ∈ ps, isBareKey p.1 = true)
    (hsections : ∀ p ∈ ps, isSection p.2 = true) :
    ∃ w, renderSections? ps = some w ∧
      ∀ rest ls, LinesText rest ls → LinesText (w ++ rest) (ps.flatMap sectionLines ++ ls) := by
  induction ps with
  | nil => exact ⟨[], rfl, fun rest ls h => h⟩
  | cons p ps ih =>
      obtain ⟨v, hv, hlines⟩ := ih (fun q hq => hkeys q (List.mem_cons_of_mem p hq))
        (fun q hq => hsections q (List.mem_cons_of_mem p hq))
      obtain ⟨u, hu, hsection⟩ :=
        renderSection?_isSection (hkeys p List.mem_cons_self) (hsections p List.mem_cons_self)
      refine ⟨u ++ v, mapM_flatten_cons hu hv, fun rest ls h => ?_⟩
      simpa using hsection _ _ (hlines rest ls h)

/-! ## Tables -/

/-- The lines that a simple table is written on. The last of them is empty. -/
def tableLines (ps : Table) : List Line :=
  (ps.takeWhile (isLeaf ·.2)).map memberLine ++
    ((ps.dropWhile (isLeaf ·.2)).flatMap sectionLines ++ [.empty])

theorem sections_members (ps : Table) (ls : List Line) :
    Line.sections (ps.map memberLine ++ ls) =
      (ps ++ (Line.sections ls).1, (Line.sections ls).2) := by
  induction ps with
  | nil => rfl
  | cons p ps ih => simp [memberLine, Line.sections, ih]

theorem sections_sectionLines (ps : Table) :
    Line.sections (ps.flatMap sectionLines ++ [.empty]) =
      ([], ps.map fun p => (p.1, members p.2)) := by
  induction ps with
  | nil => rfl
  | cons p ps ih => simp [sectionLines, Line.sections, sections_members, ih]

theorem sections_tableLines (ps : Table) :
    Line.sections (tableLines ps) = (ps.takeWhile (isLeaf ·.2),
      (ps.dropWhile (isLeaf ·.2)).map fun p => (p.1, members p.2)) := by
  rw [tableLines, sections_members, sections_sectionLines, List.append_nil]

/-- The table of the lines of a table. -/
theorem table_tableLines (ps : Table) :
    Line.table (tableLines ps) = ps.takeWhile (isLeaf ·.2) ++
      (ps.dropWhile (isLeaf ·.2)).map fun p => (p.1, .table .header (members p.2)) := by
  simp [Line.table, sections_tableLines, Function.comp_def]

theorem Paired.append {t t' u u' : Table} (h : Paired t t') (h' : Paired u u') :
    Paired (t ++ u) (t' ++ u') := by
  induction t generalizing t' with
  | nil =>
      cases h
      exact h'
  | cons p t ih =>
      cases h with
      | cons key hv h => exact .cons key hv (ih h)

/-- Members that are strings and flags are the same as themselves. -/
theorem paired_isLeaf (h : ∀ p ∈ ps, isLeaf p.2 = true) : Paired ps ps := by
  induction ps with
  | nil => exact .nil
  | cons p ps ih =>
      obtain ⟨key, v⟩ := p
      refine .cons key ?_ (ih fun q hq => h q (List.mem_cons_of_mem _ hq))
      have hleaf := h _ List.mem_cons_self
      cases v with
      | text content => exact .text content
      | flag value => exact .flag value
      | scalar _ => cases hleaf
      | array _ => cases hleaf
      | tables _ => cases hleaf
      | table _ _ => cases hleaf

/-- Sections are the same, however they came to be. -/
theorem paired_isSection (h : ∀ p ∈ ps, isSection p.2 = true) :
    Paired (ps.map fun p => (p.1, .table .header (members p.2))) ps := by
  induction ps with
  | nil => exact .nil
  | cons p ps ih =>
      obtain ⟨key, v⟩ := p
      have hv : isSection v = true := h _ List.mem_cons_self
      obtain ⟨⟨o, htable⟩, -, hleaves⟩ := isSection_iff.mp hv
      have hsame : Same (.table .header (members v)) v := by
        rw [htable]
        exact .table (List.Perm.refl _) (paired_isLeaf hleaves)
      exact .cons key hsame (ih fun q hq => h q (List.mem_cons_of_mem _ hq))

theorem isSimple_iff :
    isSimple ps = true ↔ hasBareKeys ps = true ∧
      ∀ p ∈ ps.dropWhile (isLeaf ·.2), isSection p.2 = true := by
  rw [isSimple, Bool.and_eq_true, List.all_eq_true]

theorem isLeaf_of_mem_takeWhile (ps : Table) :
    ∀ p ∈ ps.takeWhile (isLeaf ·.2), isLeaf p.2 = true := fun _ hp =>
  List.mem_takeWhile_imp (p := fun q : String × Toml => isLeaf q.2) hp

/-- The lines of a simple table are those that it is written on. -/
theorem write?_isSimple (h : isSimple ps = true) :
    ∃ text, write? ps = some text ∧ LinesText text.toList (tableLines ps) := by
  obtain ⟨hbare, hsections⟩ := isSimple_iff.mp h
  have hkeys := (hasBareKeys_iff.mp hbare).1
  obtain ⟨above, habove, hmembers⟩ := renderLines?_isLeaf
    (fun p hp => hkeys p ((List.takeWhile_prefix _).mem hp)) (isLeaf_of_mem_takeWhile ps)
  obtain ⟨below, hbelow, hheaders⟩ := renderSections?_isSection
    (fun p hp => hkeys p ((List.dropWhile_suffix _).mem hp)) hsections
  have hlast : LinesText [] [.empty] := .last (.empty (.space space_nil))
  refine ⟨String.ofList (above ++ below), by simp [write?, habove, hbelow], ?_⟩
  rw [String.toList_ofList]
  simpa [tableLines] using hmembers _ _ (hheaders _ _ hlast)

theorem keys_tableLines (ps : Table) : keys (Line.table (tableLines ps)) = keys ps := by
  rw [table_tableLines, keys, List.map_append, List.map_map]
  change (ps.takeWhile (isLeaf ·.2)).map Prod.fst ++ (ps.dropWhile (isLeaf ·.2)).map Prod.fst =
    keys ps
  rw [← List.map_append, List.takeWhile_append_dropWhile, keys]

theorem distinct_tableLines (h : isSimple ps = true) : Distinct (tableLines ps) := by
  obtain ⟨hbare, hsections⟩ := isSimple_iff.mp h
  refine ⟨keys_tableLines ps ▸ (hasBareKeys_iff.mp hbare).2, fun p hp => ?_⟩
  rw [sections_tableLines] at hp
  obtain ⟨q, hq, rfl⟩ := List.mem_map.mp hp
  exact (hasBareKeys_iff.mp (isSection_iff.mp (hsections q hq)).2.1).2

theorem sameTable_tableLines (h : isSimple ps = true) :
    SameTable (Line.table (tableLines ps)) ps := by
  refine ⟨_, List.Perm.refl _, ?_⟩
  rw [table_tableLines]
  have hpaired := (paired_isLeaf (isLeaf_of_mem_takeWhile ps)).append
    (paired_isSection (isSimple_iff.mp h).2)
  rwa [List.takeWhile_append_dropWhile] at hpaired

/-- **The writer keeps to the rules**: every simple table is written, and the text says that
table. -/
theorem standard_writes : standard.Writes := by
  intro ps hsimple
  obtain ⟨text, hwrite, hlines⟩ := write?_isSimple hsimple
  exact ⟨text, hwrite, tableLines ps, hlines, distinct_tableLines hsimple,
    sameTable_tableLines hsimple⟩

end Walkthrough.Toml
