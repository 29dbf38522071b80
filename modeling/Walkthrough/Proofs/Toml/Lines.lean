import Mathlib.Data.List.DropRight
import Walkthrough.Proofs.Toml.Strings
import Walkthrough.Toml.Format

/-!
# Every text that says a table is read

The reader takes every text that the rules let say a table, line by line.

* `KeyText.read`, `KeyText.path`, `ValueText.read` — keys and values.
* `LineEnd`, `Trailer.read` — the end of a line, and what follows it.
* `LineText.read` — a line is read into the open section, or opens the next one.
* `LinesText.read` — lines are read one after the other, as long as no key comes twice.
* `parse?_eq_some` — a text of lines is read as its table; `standard_reads`: which is the table that
  it says.
-/

set_option autoImplicit false

namespace Walkthrough.Toml

variable {c : Char} {b e k s u v w rest : List Char} {name : String} {value : Toml} {l : Line}
  {ls : List Line} {t : Table} {fuel : Nat}

/-! ## Keys -/

theorem isBareKey_iff :
    isBareKey name = true ↔ name.toList ≠ [] ∧ ∀ c ∈ name.toList, isBare c = true := by
  simp [isBareKey]

/-- What a key may begin with: it is not taken for space, a comment, a header or a line break. -/
structure Opens (c : Char) : Prop where
  blank : isBlank c = false
  comment : c ≠ '#'
  header : c ≠ '['
  lf : c ≠ '\n'
  cr : c ≠ '\r'
  mark : c ≠ '\uFEFF'

theorem opens_of_isBare (h : isBare c = true) : Opens c := by
  refine ⟨?blank, ?_, ?_, ?_, ?_, ?_⟩
  case blank =>
    cases hblank : isBlank c with
    | false => rfl
    | true =>
        simp only [isBlank, Bool.or_eq_true, decide_eq_true_eq] at hblank
        obtain rfl | rfl := hblank <;> exact absurd h (by decide)
  all_goals (rintro rfl; exact absurd h (by decide))

theorem ne_quote_of_isBare (h : isBare c = true) : c ≠ '"' ∧ c ≠ '\'' := by
  constructor <;> (rintro rfl; exact absurd h (by decide))

theorem KeyText.head (h : KeyText k name) : ∃ c r, k = c :: r ∧ Opens c := by
  cases h with
  | bare hname =>
      obtain ⟨hne, hbare⟩ := isBareKey_iff.mp hname
      obtain ⟨c, r, hr⟩ := List.exists_cons_of_ne_nil hne
      exact ⟨c, r, hr, opens_of_isBare (hbare c (hr ▸ List.mem_cons_self))⟩
  | quoted _ =>
      exact ⟨'"', _, rfl, by decide, by decide, by decide, by decide, by decide, by decide⟩
  | literal _ =>
      exact ⟨'\'', _, rfl, by decide, by decide, by decide, by decide, by decide, by decide⟩

theorem key_bare (hname : isBareKey name = true) (hs : ∀ c ∈ s.head?, isBare c = false) :
    key (name.toList ++ s) = some (name, s) := by
  obtain ⟨hne, hbare⟩ := isBareKey_iff.mp hname
  have htake : (name.toList ++ s).takeWhile isBare = name.toList := by
    rw [List.takeWhile_append_of_pos hbare]
    cases s with
    | nil => simp
    | cons c s => rw [List.takeWhile_cons_of_neg (by simp [hs c rfl]), List.append_nil]
  have hdrop : (name.toList ++ s).dropWhile isBare = s := by
    rw [List.dropWhile_append_of_pos hbare]
    cases s with
    | nil => rfl
    | cons c s => rw [List.dropWhile_cons_of_neg (by simp [hs c rfl])]
  have hhead : ∀ d r, name.toList ++ s = d :: r → isBare d = true := by
    intro d r heq
    obtain ⟨d', r', hr⟩ := List.exists_cons_of_ne_nil hne
    rw [hr, List.cons_append] at heq
    exact hbare d (by rw [hr, (List.cons.inj heq).1]; exact List.mem_cons_self)
  unfold key
  split
  · rename_i heq
    exact absurd rfl (ne_quote_of_isBare (hhead _ _ heq)).1
  · rename_i heq
    exact absurd rfl (ne_quote_of_isBare (hhead _ _ heq)).2
  · rw [htake, hdrop]
    split
    · rename_i hnil
      exact absurd hnil hne
    · rw [String.ofList_toList]

/-- A key is read up to where no more of it can stand. -/
theorem KeyText.read (h : KeyText k name) (hs : ∀ c ∈ s.head?, isBare c = false) :
    key (k ++ s) = some (name, s) := by
  cases h with
  | bare hname => exact key_bare hname hs
  | @quoted w content h =>
      have hbody : basicString ((w ++ '"' :: s).length + 1) (w ++ '"' :: s) = some (content, s) :=
        h.read (by simp only [List.length_append]; omega)
      rw [List.cons_append, List.append_assoc]
      simp only [key, List.singleton_append, hbody, Option.map_some]
  | @literal content h =>
      have hbody : literalString (content ++ '\'' :: s) = some (content, s) := h.read
      rw [List.cons_append, List.append_assoc]
      simp only [key, List.singleton_append, hbody, Option.map_some]

/-- A key with space around it is read as a path of one name, up to the character after it. -/
theorem KeyText.path (h : KeyText k name) {b₁ b₂ : List Char} (hb₁ : Space b₁) (hb₂ : Space b₂)
    (hblank : isBlank c = false) (hbare : isBare c = false) (hdot : c ≠ '.') :
    path (b₁ ++ (k ++ (b₂ ++ c :: s))) = some ([name], c :: s) := by
  have hbefore : blanks (b₁ ++ (k ++ (b₂ ++ c :: s))) = k ++ (b₂ ++ c :: s) := by
    obtain ⟨d, r, rfl, hopens⟩ := h.head
    exact hb₁.read_cons hopens.blank
  have hafter : blanks (b₂ ++ c :: s) = c :: s := hb₂.read_cons hblank
  have hnext : ∀ d ∈ (b₂ ++ c :: s).head?, isBare d = false := by
    intro d hd
    rcases hb₂.head d hd with hspace | hd
    · cases hkey : isBare d with
      | false => rfl
      | true => exact absurd hspace (by simp [(opens_of_isBare hkey).blank])
    · cases hd
      exact hbare
  unfold Toml.path maxDepth pathWithin
  rw [hbefore, h.read hnext]
  simp only [Option.bind_eq_bind, Option.bind_some, hafter]
  split
  · rename_i heq
    exact absurd (List.cons.inj heq).1 hdot
  · rfl

/-! ## Values -/

/-- A text that starts with a quote is read as a string. -/
theorem readValue_string {depth : Nat} (h : ∃ u, s = '"' :: u ∨ s = '\'' :: u) :
    readValue depth (fuel + 1) s = (string s).map fun p => (.text p.1, p.2) := by
  obtain ⟨u, rfl | rfl⟩ := h <;> rfl

/-- A value is read up to where something else than a quote stands. -/
theorem ValueText.read {depth : Nat} (h : ValueText v value) (hd : s.head? ≠ some '"')
    (hs : s.head? ≠ some '\'') : readValue depth (fuel + 1) (v ++ s) = some (value, s) := by
  cases h with
  | text h =>
      have hquote : ∃ u, v ++ s = '"' :: u ∨ v ++ s = '\'' :: u := by
        obtain ⟨u, rfl | rfl⟩ := h.head
        · exact ⟨u ++ s, Or.inl rfl⟩
        · exact ⟨u ++ s, Or.inr rfl⟩
      rw [readValue_string hquote, h.read hd hs]
      rfl
  | yes => rfl
  | no => rfl

theorem ValueText.head (h : ValueText v value) : ∃ c r, v = c :: r ∧ isBlank c = false := by
  cases h with
  | text h =>
      obtain ⟨u, rfl | rfl⟩ := h.head
      · exact ⟨'"', u, rfl, by decide⟩
      · exact ⟨'\'', u, rfl, by decide⟩
  | yes => exact ⟨'t', _, rfl, by decide⟩
  | no => exact ⟨'f', _, rfl, by decide⟩

/-! ## The end of a line -/

/-- What stands after a line, with the lines that follow: a line break, or the end of the text. -/
inductive LineEnd : List Char → List Char → Prop where
  | last : LineEnd [] []
  | next {n t : List Char} : Newline n → LineEnd (n ++ t) t

/-- What stands at the end of a line and after it is neither part of a value nor of a key. -/
theorem Trailer.head (he : Trailer e) (hu : LineEnd u rest) :
    ∀ c ∈ (e ++ u).head?, isBlank c = true ∨ c = '#' ∨ c = '\n' ∨ c = '\r' := by
  have hend : ∀ c ∈ u.head?, c = '\n' ∨ c = '\r' := by
    intro c hc
    cases hu with
    | last => cases hc
    | next hn =>
        obtain ⟨d, r, rfl, hd⟩ := hn.head
        cases hc
        exact hd
  intro c hc
  cases he with
  | space hb =>
      rcases hb.head c hc with hblank | hc
      · exact Or.inl hblank
      · exact Or.inr (Or.inr (hend c hc))
  | comment hb _ =>
      rw [List.append_assoc] at hc
      rcases hb.head c hc with hblank | hc
      · exact Or.inl hblank
      · cases hc
        exact Or.inr (Or.inl rfl)

theorem comment_cons (h : c ≠ '#') : comment (c :: s) = c :: s := by
  unfold comment
  split
  · rename_i heq
    exact absurd (List.cons.inj heq).1 h
  · rfl

theorem lineEnd?_of_comment (h : comment (blanks s) = u) (hu : LineEnd u rest) :
    lineEnd? s = some rest := by
  rw [lineEnd?, h]
  cases hu with
  | last => rfl
  | next hn =>
      have hread := hn.read (t := rest)
      cases hn <;> exact hread

/-- The end of a line is passed over with its space and its comment. -/
theorem Trailer.read (he : Trailer e) (hu : LineEnd u rest) : lineEnd? (e ++ u) = some rest := by
  refine lineEnd?_of_comment ?_ hu
  cases he with
  | space hb =>
      have hblank : ∀ c ∈ u.head?, isBlank c = false := by
        cases hu with
        | last => simp
        | next hn => exact hn.not_isBlank
      rw [hb.read hblank]
      cases hu with
      | last => rfl
      | next hn =>
          obtain ⟨c, r, rfl, hc⟩ := hn.head
          refine comment_cons ?_
          obtain rfl | rfl := hc <;> decide
  | @comment b s hb hs =>
      have hcomment : Toml.comment ('#' :: (s ++ u)) = u := by
        change (s ++ u).dropWhile isPlain = u
        rw [List.dropWhile_append_of_pos hs]
        cases hu with
        | last => rfl
        | next hn => cases hn <;> rfl
      rw [List.append_assoc, List.cons_append, hb.read_cons (by decide), hcomment]

/-- A line that begins with a key is not empty. -/
theorem Opens.lineEnd?_eq_none (h : Opens c) : lineEnd? (c :: s) = none := by
  rw [lineEnd?, blanks_cons h.blank, comment_cons h.comment]
  exact newline?_eq_none h.lf h.cr

/-! ## Lines -/

/-- A line that gives a key its value. -/
theorem readAssignment_eq {b₁ b₂ b₃ : List Char} (hb₁ : Space b₁) (hk : KeyText k name)
    (hb₂ : Space b₂) (hb₃ : Space b₃) (hv : ValueText v value) (he : Trailer e)
    (hu : LineEnd u rest) :
    readAssignment (b₁ ++ (k ++ (b₂ ++ '=' :: (b₃ ++ (v ++ (e ++ u)))))) =
      some (([name], value), rest) := by
  have hblank : blanks (b₃ ++ (v ++ (e ++ u))) = v ++ (e ++ u) := by
    obtain ⟨c, r, rfl, hc⟩ := hv.head
    exact hb₃.read_cons hc
  have hquote {q : Char} (hq : isBlank q = false) (h : q ≠ '#') (hlf : q ≠ '\n') (hcr : q ≠ '\r') :
      (e ++ u).head? ≠ some q := by
    intro hc
    rcases he.head hu q hc with hblank | heq | heq | heq
    · exact absurd hblank (by simp [hq])
    · exact h heq
    · exact hlf heq
    · exact hcr heq
  have hread (fuel : Nat) : readValue maxDepth (fuel + 1) (v ++ (e ++ u)) = some (value, e ++ u) :=
    hv.read (hquote (by decide) (by decide) (by decide) (by decide))
      (hquote (by decide) (by decide) (by decide) (by decide))
  rw [readAssignment, hk.path hb₁ hb₂ (by decide) (by decide) (by decide)]
  simp only [Option.bind_eq_bind, Option.bind_some, hblank, hread, he.read hu]

/-- A header. -/
theorem readHeader_eq {b₂ b₃ : List Char} (hb₂ : Space b₂) (hk : KeyText k name) (hb₃ : Space b₃)
    (he : Trailer e) (hu : LineEnd u rest) :
    readHeader ('[' :: (b₂ ++ (k ++ (b₃ ++ ']' :: (e ++ u))))) =
      some (⟨false, [name], []⟩, rest) := by
  have hpath : path (b₂ ++ (k ++ (b₃ ++ ']' :: (e ++ u)))) = some ([name], ']' :: (e ++ u)) :=
    hk.path hb₂ hb₃ (by decide) (by decide) (by decide)
  have hopen : ∀ s, b₂ ++ (k ++ (b₃ ++ ']' :: (e ++ u))) ≠ '[' :: s := by
    intro s heq
    have hhead : '[' ∈ (b₂ ++ (k ++ (b₃ ++ ']' :: (e ++ u)))).head? := by
      rw [heq]
      rfl
    rcases hb₂.head _ hhead with hblank | hkey
    · exact absurd hblank (by decide)
    · obtain ⟨c, r, rfl, hc⟩ := hk.head
      cases hkey
      exact hc.header rfl
  unfold readHeader
  split
  · rename_i heq
    exact absurd (List.cons.inj heq).2 (hopen _)
  · rename_i heq
    rw [← (List.cons.inj heq).2, hpath]
    simp only [Option.bind_eq_bind, Option.bind_some, he.read hu]
    rfl
  · rename_i hnot
    exact absurd rfl (hnot _)

theorem readSections_nil : readSections (fuel + 1) t [] = some (t, []) := rfl

theorem blanks_blanks (s : List Char) : blanks (blanks s) = blanks s :=
  List.dropWhile_idempotent isBlank s

/-- An empty line is passed over. -/
theorem readSections_empty (he : Trailer e) (hu : LineEnd u rest) :
    readSections (fuel + 2) t (e ++ u) = readSections (fuel + 1) t rest := by
  have hend : lineEnd? (blanks (e ++ u)) = some rest := by
    rw [lineEnd?, blanks_blanks]
    exact he.read hu
  conv => lhs; unfold readSections
  split
  · rename_i hnil
    rw [hnil] at hend
    cases hend
    rfl
  · rename_i hheader
    rw [hheader] at hend
    cases hend
  · rw [hend]

/-- A line adds its member to the open section. -/
theorem readSections_member {b₁ b₂ b₃ : List Char} (hb₁ : Space b₁) (hk : KeyText k name)
    (hb₂ : Space b₂) (hb₃ : Space b₃) (hv : ValueText v value) (he : Trailer e)
    (hu : LineEnd u rest) (hnew : t.lookup name = none) :
    readSections (fuel + 1) t (b₁ ++ (k ++ (b₂ ++ '=' :: (b₃ ++ (v ++ (e ++ u)))))) =
      readSections fuel (t ++ [(name, value)]) rest := by
  have hread := readAssignment_eq space_nil hk hb₂ hb₃ hv he hu
  obtain ⟨c, r, rfl, hc⟩ := hk.head
  have hblank : blanks (b₁ ++ (c :: r ++ (b₂ ++ '=' :: (b₃ ++ (v ++ (e ++ u)))))) =
      c :: (r ++ (b₂ ++ '=' :: (b₃ ++ (v ++ (e ++ u))))) := hb₁.read_cons hc.blank
  conv => lhs; unfold readSections
  rw [hblank]
  split
  · rename_i heq
    cases heq
  · rename_i heq
    exact absurd (List.cons.inj heq).1 hc.header
  · rw [List.nil_append, List.cons_append] at hread
    rw [hc.lineEnd?_eq_none, hread]
    simp only [Option.bind_eq_bind, Option.bind_some, assign?, hnew]
    rfl

/-- A header opens a section of its own. -/
theorem readSections_header {b₁ b₂ b₃ : List Char} (hb₁ : Space b₁) (hb₂ : Space b₂)
    (hk : KeyText k name) (hb₃ : Space b₃) (he : Trailer e) (hu : LineEnd u rest) :
    readSections (fuel + 1) t (b₁ ++ '[' :: (b₂ ++ (k ++ (b₃ ++ ']' :: (e ++ u))))) =
      (readSections fuel [] rest).map fun p => (t, ⟨false, [name], p.1⟩ :: p.2) := by
  have hblank : blanks (b₁ ++ '[' :: (b₂ ++ (k ++ (b₃ ++ ']' :: (e ++ u))))) =
      '[' :: (b₂ ++ (k ++ (b₃ ++ ']' :: (e ++ u)))) := hb₁.read_cons (by decide)
  conv => lhs; unfold readSections
  rw [hblank]
  simp only [readHeader_eq hb₂ hk hb₃ he hu, Option.bind_eq_bind, Option.bind_some]
  cases readSections fuel [] rest <;> rfl

/-! ## Texts of lines -/

/-- No key of lines comes twice, those of the open section among them. -/
structure Fresh (t : Table) (ls : List Line) : Prop where
  keys : (keys (t ++ (Line.sections ls).1)).Nodup
  sections : ∀ p ∈ (Line.sections ls).2, (Toml.keys p.2).Nodup

theorem lookup_eq_none (h : name ∉ keys t) : t.lookup name = none := by
  rw [List.lookup_eq_none_iff]
  intro p hp
  refine bne_iff_ne.mpr ?_
  rintro rfl
  exact h (List.mem_map_of_mem hp)

theorem Fresh.lookup (h : Fresh t (.member name value :: ls)) : t.lookup name = none := by
  refine lookup_eq_none fun hmem => ?_
  have hkeys := h.keys
  rw [Toml.keys, List.map_append, List.nodup_append] at hkeys
  exact hkeys.2.2 name hmem name List.mem_cons_self rfl

theorem Fresh.member (h : Fresh t (.member name value :: ls)) : Fresh (t ++ [(name, value)]) ls :=
  ⟨by simpa [Line.sections] using h.keys, h.sections⟩

theorem Fresh.header (h : Fresh t (.header name :: ls)) : Fresh [] ls :=
  ⟨h.sections _ List.mem_cons_self, fun p hp => h.sections p (List.mem_cons_of_mem _ hp)⟩

/-- What lines are read as below those of an open section. -/
def readAs (t : Table) (ls : List Line) : Table × List Section :=
  (t ++ (Line.sections ls).1, (Line.sections ls).2.map fun p => ⟨false, [p.1], p.2⟩)

/-- A line is read, if those after it are. -/
theorem LineText.read (hl : LineText w l) (hu : LineEnd u rest)
    (hrest : ∀ t, Fresh t ls → readSections (fuel + 1) t rest = some (readAs t ls))
    (hfresh : Fresh t (l :: ls)) :
    readSections (fuel + 2) t (w ++ u) = some (readAs t (l :: ls)) := by
  cases hl with
  | empty he =>
      rw [readSections_empty he hu]
      exact hrest t ⟨hfresh.keys, hfresh.sections⟩
  | member hb₁ hk hb₂ hb₃ hv he =>
      simp only [List.append_assoc, List.cons_append]
      rw [readSections_member hb₁ hk hb₂ hb₃ hv he hu hfresh.lookup, hrest _ hfresh.member]
      simp [readAs, Line.sections]
  | header hb₁ hb₂ hk hb₃ he =>
      simp only [List.append_assoc, List.cons_append]
      rw [readSections_header hb₁ hb₂ hk hb₃ he hu, hrest _ hfresh.header]
      simp [readAs, Line.sections]

/-- Lines are read one after the other into the open section and those that follow it. -/
theorem LinesText.read (h : LinesText w ls) (hfuel : w.length + 2 ≤ fuel) (hfresh : Fresh t ls) :
    readSections fuel t w = some (readAs t ls) := by
  induction h generalizing t fuel with
  | @last w l hl =>
      obtain ⟨fuel, rfl⟩ : ∃ n, fuel = n + 2 := ⟨fuel - 2, by omega⟩
      have hnil (t : Table) (_ : Fresh t []) :
          readSections (fuel + 1) t [] = some (readAs t []) := by
        rw [readSections_nil]
        simp [readAs, Line.sections]
      simpa using hl.read .last hnil hfresh
  | @cons w n s l ls hl hn _ ih =>
      obtain ⟨fuel, rfl⟩ : ∃ n, fuel = n + 2 := ⟨fuel - 2, by omega⟩
      have hpos := hn.length_pos
      simp only [List.length_append] at hfuel
      exact hl.read (.next hn) (fun t ht => ih (by omega) ht) hfresh

/-- No line begins with a byte order mark. -/
theorem LineText.head_ne (hl : LineText w l) (hu : LineEnd u rest) :
    (w ++ u).head? ≠ some '\uFEFF' := by
  have hspace {b s : List Char} (hb : Space b) (hs : s.head? ≠ some '\uFEFF') :
      (b ++ s).head? ≠ some '\uFEFF' := by
    intro hc
    rcases hb.head _ hc with hblank | hc
    · exact absurd hblank (by decide)
    · exact hs hc
  cases hl with
  | empty he =>
      intro hc
      rcases he.head hu _ hc with hblank | heq | heq | heq
      · exact absurd hblank (by decide)
      · exact absurd heq (by decide)
      · exact absurd heq (by decide)
      · exact absurd heq (by decide)
  | member hb₁ hk _ _ _ _ =>
      rw [List.append_assoc]
      refine hspace hb₁ ?_
      obtain ⟨c, r, rfl, hc⟩ := hk.head
      simpa using hc.mark
  | header hb₁ _ _ _ _ =>
      rw [List.append_assoc]
      exact hspace hb₁ (by simp)

theorem LinesText.head_ne (h : LinesText w ls) : w.head? ≠ some '\uFEFF' := by
  cases h with
  | last hl => simpa using hl.head_ne .last
  | cons hl hn _ => exact hl.head_ne (.next hn)

/-- Sections under new names are added to a table. -/
theorem foldlM_addSection? {ps : List (String × Table)} (h : (keys t ++ ps.map Prod.fst).Nodup) :
    (ps.map fun p => (⟨false, [p.1], p.2⟩ : Section)).foldlM
        (fun t part => addSection? part.repeated part.members part.path t) t =
      some (t ++ ps.map fun p => (p.1, .table .header p.2)) := by
  induction ps generalizing t with
  | nil => simp
  | cons p ps ih =>
      have hnew : t.lookup p.1 = none := by
        refine lookup_eq_none fun hmem => ?_
        rw [List.nodup_append] at h
        exact h.2.2 p.1 hmem p.1 List.mem_cons_self rfl
      have hrest := ih (t := t ++ [(p.1, .table .header p.2)]) (by simpa [keys] using h)
      simp only [List.map_cons, List.foldlM_cons, addSection?, hnew, Option.bind_eq_bind,
        Option.bind_some]
      rw [hrest, List.append_assoc]
      rfl

/-- A text of lines without a key that comes twice is read as the table of the lines. -/
theorem parse?_eq_some {text : String} (h : LinesText text.toList ls) (hdistinct : Distinct ls) :
    parse? text = some (Line.table ls) := by
  have hkeys := hdistinct.keys
  simp only [keys, Line.table, List.map_append, List.map_map] at hkeys
  have hfresh : Fresh [] ls := ⟨(List.nodup_append.mp hkeys).1, hdistinct.sections⟩
  have hread := h.read (Nat.le_refl _) hfresh
  unfold parse?
  split
  · rename_i heq
    exact absurd (by rw [heq]; rfl) h.head_ne
  · simp only [hread, readAs, Option.bind_eq_bind, Option.bind_some]
    rw [foldlM_addSection? (by simpa [keys, Function.comp_def] using hkeys)]
    rfl

/-- **The reader keeps to the rules**: it takes every text that says a table. -/
theorem standard_reads : standard.Reads := by
  rintro text t ⟨ls, hlines, hdistinct, hsame⟩
  exact ⟨_, parse?_eq_some hlines hdistinct, hsame⟩

end Walkthrough.Toml
