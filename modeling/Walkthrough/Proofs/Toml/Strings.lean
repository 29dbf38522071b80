import Mathlib.Data.List.TakeWhile
import Walkthrough.Toml.Grammar

/-!
# Strings are read as what they stand for

Each of the four notations has its reader, and each reader takes every text of its notation, up to
the quotes that end it.

* `Escape.read`, `Stands` — what stands for a character between double quotes is read as it.
* `QuotedText.read`, `LiteralText.read` — strings on one line.
* `blockEnd?_eq_none`, `blockEnd?_append` — the quotes within a block, and those at its end.
* `BlockText.run_le`, `BlockText.eq_self` — three quotes in a row are never left standing, and a
  block of nothing but quotes stands for itself.
* `BlockText.read`, `LiteralBlockText.read` — blocks over several lines.
* `StringText.read` — a string in any of its notations is read as what it stands for.
-/

set_option autoImplicit false

namespace Walkthrough.Toml

variable {b c d q : Char} {e g n s t u w rest : List Char} {fuel run : Nat}

/-! ## Line breaks and space -/

theorem isPlain_ne_newline (h : isPlain c = true) : c ≠ '\n' ∧ c ≠ '\r' := by
  constructor <;> (rintro rfl; simp [isPlain] at h)

theorem blanks_cons (h : isBlank c = false) : blanks (c :: s) = c :: s := by simp [blanks, h]

theorem space_nil : Space [] := by simp [Space]

/-- Space is passed over up to where something else stands. -/
theorem Space.read (h : Space s) (ht : ∀ c ∈ t.head?, isBlank c = false) :
    blanks (s ++ t) = t := by
  rw [blanks, List.dropWhile_append_of_pos h]
  cases t with
  | nil => rfl
  | cons c t => exact blanks_cons (ht c rfl)

theorem Space.read_cons (h : Space s) (hc : isBlank c = false) :
    blanks (s ++ c :: t) = c :: t := by
  refine h.read fun d hd => ?_
  cases hd
  exact hc

theorem Space.head (h : Space s) : ∀ c ∈ (s ++ t).head?, isBlank c = true ∨ c ∈ t.head? := by
  intro c hc
  cases s with
  | nil => exact Or.inr hc
  | cons d s =>
      cases hc
      exact Or.inl (h _ List.mem_cons_self)

theorem newline?_eq_none (hlf : c ≠ '\n') (hcr : c ≠ '\r') : newline? (c :: t) = none := by
  unfold newline?
  split <;> simp_all

theorem Newline.read (h : Newline n) : newline? (n ++ t) = some t := by
  cases h <;> rfl

theorem Newline.head (h : Newline n) : ∃ c v, n = c :: v ∧ (c = '\n' ∨ c = '\r') := by
  cases h with
  | lf => exact ⟨'\n', [], rfl, Or.inl rfl⟩
  | crlf => exact ⟨'\r', ['\n'], rfl, Or.inr rfl⟩

theorem Newline.length_pos (h : Newline n) : 0 < n.length := by
  cases h <;> decide

theorem Newline.not_isBlank (h : Newline n) : ∀ c ∈ (n ++ t).head?, isBlank c = false := by
  intro c hc
  cases h <;> (cases hc; decide)

/-- A gap is passed over up to where something else stands. -/
theorem Gap.read (h : Gap g) (ht : ∀ c ∈ t.head?, isBlank c = false ∧ c ≠ '\n' ∧ c ≠ '\r') :
    gap (g ++ t) = t := by
  induction h with
  | nil =>
      cases t with
      | nil => rfl
      | cons c t =>
          obtain ⟨hblank, hlf, hcr⟩ := ht c rfl
          unfold gap
          split
          · rename_i heq
            exact absurd (List.cons.inj heq).1 hcr
          · rename_i heq
            obtain ⟨rfl, rfl⟩ := List.cons.inj heq
            simp [hblank, hlf]
          · rename_i heq
            cases heq
  | @blank c g hc _ ih =>
      have hcr : c ≠ '\r' := by
        rintro rfl
        exact absurd hc (by decide)
      rw [List.cons_append]
      unfold gap
      split
      · rename_i heq
        exact absurd (List.cons.inj heq).1 hcr
      · rename_i heq
        obtain ⟨rfl, rfl⟩ := List.cons.inj heq
        simpa [hc] using ih
      · rename_i heq
        cases heq
  | newline hn _ ih =>
      cases hn with
      | lf => simpa [gap] using ih
      | crlf => simpa [gap] using ih

/-! ## Characters -/

/-- The digits of a code point are read as its character. -/
theorem codePoint_append (hvalue : hexValue? u = some c.toNat) :
    codePoint u.length (u ++ s) = some (c, s) := by
  have hvalid : c.toNat.isValidChar := c.valid
  simp [codePoint, hvalue, hvalid]

theorem Escape.read (h : Escape e c) : escapeChar (e ++ s) = some (c, s) := by
  cases h with
  | letter h =>
      simp only [escapes, List.mem_cons, Prod.mk.injEq, List.not_mem_nil, or_false] at h
      rcases h with ⟨rfl, rfl⟩ | ⟨rfl, rfl⟩ | ⟨rfl, rfl⟩ | ⟨rfl, rfl⟩ | ⟨rfl, rfl⟩ | ⟨rfl, rfl⟩ |
        ⟨rfl, rfl⟩ <;> rfl
  | short hlength hvalue | long hlength hvalue =>
      have hread := codePoint_append (s := s) hvalue
      rw [hlength] at hread
      exact hread

/-- No escape begins with space or a line break. -/
theorem Escape.head (h : Escape e c) :
    ∃ d v, e = d :: v ∧ isBlank d = false ∧ d ≠ '\n' ∧ d ≠ '\r' := by
  cases h with
  | letter h =>
      simp only [escapes, List.mem_cons, Prod.mk.injEq, List.not_mem_nil, or_false] at h
      rcases h with ⟨rfl, rfl⟩ | ⟨rfl, rfl⟩ | ⟨rfl, rfl⟩ | ⟨rfl, rfl⟩ | ⟨rfl, rfl⟩ | ⟨rfl, rfl⟩ |
        ⟨rfl, rfl⟩ <;> exact ⟨_, [], rfl, by decide, by decide, by decide⟩
  | short _ _ => exact ⟨'u', _, rfl, by decide, by decide, by decide⟩
  | long _ _ => exact ⟨'U', _, rfl, by decide, by decide, by decide⟩

/-- An escape is not taken for a backslash at the end of a line. -/
theorem Escape.not_joined (h : Escape e c) : joinedLine? (e ++ s) = none := by
  obtain ⟨d, v, rfl, hblank, hlf, hcr⟩ := h.head
  rw [joinedLine?, List.cons_append, blanks_cons hblank, newline?_eq_none hlf hcr]
  rfl

namespace Stands

/-- What stands for a character neither begins with a quote nor breaks the line. -/
theorem head (h : Stands u c) : ∃ d v, u = d :: v ∧ d ≠ '"' ∧ d ≠ '\n' ∧ d ≠ '\r' := by
  cases h with
  | plain hp hq _ =>
      obtain ⟨hlf, hcr⟩ := isPlain_ne_newline hp
      exact ⟨c, [], rfl, hq, hlf, hcr⟩
  | escape _ => exact ⟨'\\', _, rfl, by decide, by decide, by decide⟩

theorem length_pos (h : Stands u c) : 0 < u.length := by
  obtain ⟨d, v, rfl, -⟩ := h.head
  exact Nat.succ_pos _

end Stands

/-! ## Strings on one line -/

theorem basicString_stands (h : Stands u c) :
    basicString (fuel + 1) (u ++ t) = (basicString fuel t).map fun p => (c :: p.1, p.2) := by
  cases h with
  | plain hp hq hb =>
      simp only [List.singleton_append, basicString, hq, hb, hp, if_true, if_false]
      cases basicString fuel t <;> rfl
  | escape he =>
      simp only [List.cons_append, basicString, he.read, Option.bind_eq_bind, Option.bind_some]
      cases basicString fuel t <;> rfl

/-- Between double quotes a text is read as what it stands for. -/
theorem QuotedText.read (h : QuotedText w s) (hfuel : w.length < fuel) :
    basicString fuel (w ++ '"' :: rest) = some (s, rest) := by
  induction h generalizing fuel with
  | nil =>
      obtain ⟨fuel, rfl⟩ := Nat.exists_eq_add_of_lt hfuel
      simp [basicString]
  | @cons u w s c hu _ ih =>
      obtain ⟨fuel, rfl⟩ : ∃ n, fuel = n + 1 := ⟨fuel - 1, by omega⟩
      have hpos := hu.length_pos
      rw [List.length_append] at hfuel
      rw [List.append_assoc, basicString_stands hu, ih (by omega)]
      rfl

/-- Between single quotes a text is read as it is. -/
theorem LiteralText.read (h : LiteralText s) :
    literalString (s ++ '\'' :: rest) = some (s, rest) := by
  induction s with
  | nil => simp [literalString]
  | cons c s ih =>
      obtain ⟨hp, hq⟩ := h c List.mem_cons_self
      have hrest := ih fun d hd => h d (List.mem_cons_of_mem c hd)
      simp [literalString, hp, hq, hrest]

/-! ## The quotes of a block -/

/-- Quotes in front of the closing ones belong to the text. -/
theorem blockEnd?_eq_some (hw : ∀ c ∈ w, c = q) (hl : w.length ≤ 2) (hr : rest.head? ≠ some q) :
    blockEnd? q (w ++ q :: q :: q :: rest) = some (w, rest) := by
  have hrest : rest.takeWhile (· = q) = [] := by
    cases rest with
    | nil => rfl
    | cons d rest => exact List.takeWhile_cons_of_neg (by simpa using hr)
  have hrun : ((w ++ q :: q :: q :: rest).takeWhile (· = q)).length = w.length + 3 := by
    rw [List.takeWhile_append_of_pos fun c hc => decide_eq_true (hw c hc)]
    simp [hrest]
  have hkept : min w.length 2 = w.length := by omega
  unfold blockEnd?
  simp only [hrun]
  rw [if_neg (by omega), Nat.add_sub_cancel, hkept, ← List.drop_drop, List.drop_left]
  rw [← List.eq_replicate_of_mem hw]
  rfl

/-- Quotes that something else follows do not end a block, as long as they are fewer than three. -/
theorem blockEnd?_eq_none (hw : ∃ c ∈ w, c ≠ q) (hrun : (w.takeWhile (· = q)).length ≤ 2) :
    blockEnd? q (w ++ t) = none := by
  have hshort : (w.takeWhile (· = q)).length ≠ w.length := by
    intro heq
    obtain ⟨c, hc, hcq⟩ := hw
    have hall : w.takeWhile (· = q) = w := (List.takeWhile_prefix _).eq_of_length heq
    rw [← hall] at hc
    have hceq := List.mem_takeWhile_imp hc
    exact hcq (by simpa using hceq)
  unfold blockEnd?
  rw [List.takeWhile_append, if_neg hshort]
  exact if_pos (by omega)

/-- The quotes in front of the closing ones, at most two, are the end of the text where there is
nothing else before the closing ones. -/
theorem blockEnd?_append (hrun : (w.takeWhile (· = q)).length ≤ 2) (hr : rest.head? ≠ some q) :
    blockEnd? q (w ++ q :: q :: q :: rest) =
      if w.all (· = q) then some (w, rest) else none := by
  split
  · rename_i hall
    have hself : w.takeWhile (· = q) = w :=
      List.takeWhile_eq_self_iff.mpr (List.all_eq_true.mp hall)
    rw [hself] at hrun
    exact blockEnd?_eq_some (by simpa using hall) hrun hr
  · rename_i hall
    exact blockEnd?_eq_none (by simpa using hall) hrun

/-- A text that does not begin with a quote does not begin with the end of a block. -/
theorem blockEnd?_cons (hc : c ≠ q) : blockEnd? q (c :: t) = none :=
  blockEnd?_eq_none (w := [c]) ⟨c, List.mem_singleton_self c, hc⟩ (by simp [hc])

/-! ## Blocks between tripled double quotes -/

namespace BlockText

/-- Three quotes in a row are never left standing, those before the text included. -/
theorem run_le (h : BlockText run w s) (hrun : run ≤ 2) :
    run + (w.takeWhile (· = '"')).length ≤ 2 := by
  induction h with
  | nil => simpa using hrun
  | quote hlt _ ih =>
      have hnext := ih (by omega)
      rw [List.takeWhile_cons_of_pos (by simp), List.length_cons]
      omega
  | newline _ _ => simpa using hrun
  | cons hu _ _ =>
      obtain ⟨d, v, rfl, hd, -⟩ := hu.head
      simpa [hd] using hrun
  | joined _ _ _ _ _ _ => simpa using hrun

/-- A block of nothing but quotes stands for itself. -/
theorem eq_self (h : BlockText run w s) (hall : ∀ d ∈ w, d = '"') : w = s := by
  induction h with
  | nil => rfl
  | quote _ _ ih => rw [ih fun d hd => hall d (List.mem_cons_of_mem _ hd)]
  | newline _ _ => exact absurd (hall '\n' List.mem_cons_self) (by decide)
  | cons hu _ _ =>
      obtain ⟨d, v, rfl, hd, -⟩ := hu.head
      exact absurd (hall d List.mem_cons_self) hd
  | joined _ _ _ _ _ _ => exact absurd (hall '\\' List.mem_cons_self) (by decide)

/-- No block begins with a carriage return. -/
theorem head_ne (h : BlockText run w s) : w.head? ≠ some '\r' := by
  cases h with
  | nil => simp
  | quote _ _ => simp
  | newline _ => simp
  | cons hu _ =>
      obtain ⟨d, v, rfl, -, -, hd⟩ := hu.head
      simpa using hd
  | joined _ _ _ _ _ => simp

end BlockText

theorem basicBlock_stands (h : Stands u c) :
    basicBlock (fuel + 1) (u ++ t) = (basicBlock fuel t).map fun p => (c :: p.1, p.2) := by
  obtain ⟨d, v, hu, hq, hlf, hcr⟩ := h.head
  have hend : blockEnd? '"' (u ++ t) = none := hu ▸ blockEnd?_cons hq
  have hline : newline? (u ++ t) = none := hu ▸ newline?_eq_none hlf hcr
  cases h with
  | plain hp _ hb =>
      simp only [List.singleton_append] at hend hline
      simp only [List.singleton_append, basicBlock, hend, hline, hb, hp, if_true, if_false]
      cases basicBlock fuel t <;> rfl
  | escape he =>
      simp only [List.cons_append] at hend hline
      simp only [List.cons_append, basicBlock, hend, hline, he.read, he.not_joined, if_true,
        Option.bind_eq_bind, Option.bind_some]
      cases basicBlock fuel t <;> rfl

/-- A backslash at the end of a line is passed over with the gap after it. -/
theorem basicBlock_joined (ht : joinedLine? s = some t) :
    basicBlock (fuel + 1) ('\\' :: s) = basicBlock fuel t := by
  have hend : blockEnd? '"' ('\\' :: s) = none := blockEnd?_cons (by decide)
  have hline : newline? ('\\' :: s) = none := rfl
  simp only [basicBlock, hend, hline, ht, if_true]

/-- A quote that is left standing is read as it is, or with those that are left up to the closing
ones. -/
theorem basicBlock_quote (hquotes : (('"' :: w).takeWhile (· = '"')).length ≤ 2)
    (hself : (∀ d ∈ w, d = '"') → w = s) (hr : rest.head? ≠ some '"')
    (hw : basicBlock fuel (w ++ '"' :: '"' :: '"' :: rest) = some (s, rest)) :
    basicBlock (fuel + 1) ('"' :: w ++ '"' :: '"' :: '"' :: rest) = some ('"' :: s, rest) := by
  have hend := blockEnd?_append hquotes hr
  rw [List.cons_append] at hend ⊢
  split at hend
  · rename_i hall
    have hquotes : ∀ d ∈ w, d = '"' := by simpa using hall
    rw [hself hquotes] at hend ⊢
    simp only [basicBlock, hend]
  · have hline : newline? ('"' :: (w ++ '"' :: '"' :: '"' :: rest)) = none := rfl
    have hplain : isPlain '"' = true := by decide
    have hescape : ('"' : Char) ≠ '\\' := by decide
    simp only [basicBlock, hend, hline, hplain, if_true, if_neg hescape, hw]
    rfl

/-- What follows a backslash at the end of a line is passed over up to the text that goes on. -/
theorem joinedLine?_append {b : List Char} (hb : Space b) (hn : Newline n) (hg : Gap g)
    (ht : ∀ c ∈ t.head?, isBlank c = false ∧ c ≠ '\n' ∧ c ≠ '\r') :
    joinedLine? (b ++ (n ++ (g ++ t))) = some t := by
  rw [joinedLine?, hb.read hn.not_isBlank, hn.read, Option.map_some, hg.read ht]

/-- Between tripled double quotes a text is read as what it stands for. -/
theorem BlockText.read (h : BlockText run w s) (hrun : run ≤ 2) (hfuel : w.length < fuel)
    (hr : rest.head? ≠ some '"') :
    basicBlock fuel (w ++ '"' :: '"' :: '"' :: rest) = some (s, rest) := by
  induction h generalizing fuel with
  | nil =>
      obtain ⟨fuel, rfl⟩ : ∃ n, fuel = n + 1 := ⟨fuel - 1, by simp at hfuel; omega⟩
      have hend : blockEnd? '"' ('"' :: '"' :: '"' :: rest) = some ([], rest) :=
        blockEnd?_append (w := []) (by simp) hr
      simp only [List.nil_append, basicBlock, hend]
  | @quote run w s hlt hw ih =>
      obtain ⟨fuel, rfl⟩ : ∃ n, fuel = n + 1 := ⟨fuel - 1, by omega⟩
      have hquotes := (BlockText.quote hlt hw).run_le hrun
      exact basicBlock_quote (by omega) hw.eq_self hr (ih (by omega) (by simpa using hfuel))
  | @newline run w s hw ih =>
      obtain ⟨fuel, rfl⟩ : ∃ n, fuel = n + 1 := ⟨fuel - 1, by omega⟩
      have hrest := ih (Nat.zero_le 2) (by simpa using hfuel)
      have hend : blockEnd? '"' ('\n' :: (w ++ '"' :: '"' :: '"' :: rest)) = none :=
        blockEnd?_cons (by decide)
      rw [List.cons_append]
      simp only [basicBlock, hend, newline?, hrest]
      rfl
  | @cons run u w s c hu hw ih =>
      obtain ⟨fuel, rfl⟩ : ∃ n, fuel = n + 1 := ⟨fuel - 1, by omega⟩
      have hpos := hu.length_pos
      rw [List.length_append] at hfuel
      rw [List.append_assoc, basicBlock_stands hu, ih (Nat.zero_le 2) (by omega)]
      rfl
  | @joined run b n g w s hb hn hg hhead hw ih =>
      obtain ⟨fuel, rfl⟩ : ∃ n, fuel = n + 1 := ⟨fuel - 1, by omega⟩
      simp only [List.length_cons, List.length_append] at hfuel
      have hgoes : ∀ c ∈ (w ++ '"' :: '"' :: '"' :: rest).head?,
          isBlank c = false ∧ c ≠ '\n' ∧ c ≠ '\r' := by
        intro c hc
        cases w with
        | nil =>
            cases hc
            decide
        | cons d w =>
            obtain ⟨hblank, hlf⟩ := hhead c hc
            exact ⟨hblank, hlf, fun hcr => hw.head_ne (hcr ▸ hc)⟩
      have hjoined := joinedLine?_append hb hn hg hgoes
      rw [List.cons_append, List.append_assoc, List.append_assoc, List.append_assoc,
        basicBlock_joined hjoined, ih (Nat.zero_le 2) (by omega)]

/-! ## Blocks between tripled single quotes -/

/-- Where no three characters of a kind stand in a row, no run of them is longer than two. -/
theorem takeWhile_length_le_two (h : ¬ [q, q, q] <:+: s) (ht : t <:+ s) :
    (t.takeWhile (· = q)).length ≤ 2 := by
  by_contra hlong
  have hquotes : t.takeWhile (· = q) = List.replicate (t.takeWhile (· = q)).length q :=
    List.eq_replicate_of_mem fun c hc => by simpa using List.mem_takeWhile_imp hc
  obtain ⟨k, hk⟩ : ∃ k, (t.takeWhile (· = q)).length = 3 + k :=
    ⟨(t.takeWhile (· = q)).length - 3, by omega⟩
  rw [hk, ← List.replicate_append_replicate] at hquotes
  have hpre : [q, q, q] <+: t.takeWhile (· = q) := hquotes ▸ List.prefix_append _ _
  exact h ((hpre.trans (List.takeWhile_prefix _)).isInfix.trans ht.isInfix)

/-- Between tripled single quotes a text is read as it is. -/
theorem LiteralBlockText.read (h : LiteralBlockText s) (hfuel : s.length < fuel)
    (hr : rest.head? ≠ some '\'') :
    literalBlock fuel (s ++ '\'' :: '\'' :: '\'' :: rest) = some (s, rest) := by
  induction s generalizing fuel with
  | nil =>
      obtain ⟨fuel, rfl⟩ : ∃ n, fuel = n + 1 := ⟨fuel - 1, by simp at hfuel; omega⟩
      have hend : blockEnd? '\'' ('\'' :: '\'' :: '\'' :: rest) = some ([], rest) :=
        blockEnd?_append (w := []) (by simp) hr
      simp only [List.nil_append, literalBlock, hend]
  | cons c s ih =>
      obtain ⟨fuel, rfl⟩ : ∃ n, fuel = n + 1 := ⟨fuel - 1, by omega⟩
      have hs : LiteralBlockText s :=
        ⟨fun d hd => h.plain d (List.mem_cons_of_mem c hd),
          fun hquotes => h.quotes (hquotes.trans (List.suffix_cons c s).isInfix)⟩
      have hrest := ih hs (by simpa using hfuel)
      have hend :=
        blockEnd?_append (takeWhile_length_le_two h.quotes List.suffix_rfl) hr
      rw [List.cons_append] at hend ⊢
      split at hend
      · simp only [literalBlock, hend]
      · by_cases hlf : c = '\n'
        · subst hlf
          simp only [literalBlock, hend, newline?, hrest]
          rfl
        · have hp : isPlain c = true := (h.plain c List.mem_cons_self).resolve_right hlf
          have hline : newline? (c :: (s ++ '\'' :: '\'' :: '\'' :: rest)) = none :=
            newline?_eq_none hlf (isPlain_ne_newline hp).2
          simp only [literalBlock, hend, hline, hp, if_true, hrest]
          rfl

theorem LiteralBlockText.head_ne (h : LiteralBlockText s) : s.head? ≠ some '\r' := by
  intro hcr
  obtain ⟨u, rfl⟩ := List.head?_eq_some_iff.mp hcr
  exact absurd (h.plain '\r' List.mem_cons_self) (by decide)

/-! ## Strings of any notation -/

/-- The line break that is not part of a block is passed over. -/
theorem Opened.read (h : Opened u w) (hw : w.head? ≠ some '\r') (hlf : q ≠ '\n') (hcr : q ≠ '\r') :
    blockStart (u ++ q :: rest) = w ++ q :: rest := by
  cases h with
  | same hhead =>
      have hnone : newline? (u ++ q :: rest) = none := by
        cases u with
        | nil => exact newline?_eq_none hlf hcr
        | cons c u => exact newline?_eq_none (by simpa using hhead) (by simpa using hw)
      rw [blockStart, hnone]
      rfl
  | newline hn =>
      rw [blockStart, List.append_assoc, hn.read]
      rfl

theorem Opened.length_le (h : Opened u w) : w.length ≤ u.length := by
  cases h with
  | same _ => exact Nat.le_refl _
  | newline _ =>
      rw [List.length_append]
      exact Nat.le_add_left _ _

/-- One line between double quotes, as long as it does not open a block. -/
theorem string_quoted (h : QuotedText w s) (hr : rest.head? ≠ some '"') :
    string ('"' :: (w ++ '"' :: rest)) = some (String.ofList s, rest) := by
  have hbody : basicString ((w ++ '"' :: rest).length + 1) (w ++ '"' :: rest) = some (s, rest) :=
    h.read (by simp only [List.length_append]; omega)
  have hopen : ∀ t, w ++ '"' :: rest ≠ '"' :: '"' :: t := by
    intro t heq
    cases h with
    | nil =>
        rw [List.nil_append, List.cons.injEq] at heq
        exact hr (by rw [heq.2]; rfl)
    | cons hu _ =>
        obtain ⟨d, v, rfl, hd, -⟩ := hu.head
        rw [List.cons_append, List.cons_append, List.cons.injEq] at heq
        exact hd heq.1
  unfold string
  split
  · rename_i t heq
    exact absurd (List.cons.inj heq).2 (hopen t)
  · rename_i t _ heq
    rw [← (List.cons.inj heq).2, hbody]
    rfl
  · rename_i heq
    exact absurd (List.cons.inj heq).1 (by decide)
  · rename_i heq
    exact absurd (List.cons.inj heq).1 (by decide)
  · rename_i hnot _ _
    exact absurd rfl (hnot _)

/-- One line between single quotes, as long as it does not open a block. -/
theorem string_literal (h : LiteralText s) (hr : rest.head? ≠ some '\'') :
    string ('\'' :: (s ++ '\'' :: rest)) = some (String.ofList s, rest) := by
  have hbody : literalString (s ++ '\'' :: rest) = some (s, rest) := h.read
  have hopen : ∀ t, s ++ '\'' :: rest ≠ '\'' :: '\'' :: t := by
    intro t heq
    cases s with
    | nil =>
        rw [List.nil_append, List.cons.injEq] at heq
        exact hr (by rw [heq.2]; rfl)
    | cons c s =>
        rw [List.cons_append, List.cons.injEq] at heq
        exact (h c List.mem_cons_self).2 heq.1
  unfold string
  split
  · rename_i heq
    exact absurd (List.cons.inj heq).1 (by decide)
  · rename_i heq
    exact absurd (List.cons.inj heq).1 (by decide)
  · rename_i t heq
    exact absurd (List.cons.inj heq).2 (hopen t)
  · rename_i t _ heq
    rw [← (List.cons.inj heq).2, hbody]
    rfl
  · rename_i hnot
    exact absurd rfl (hnot _)

theorem string_block (h : Opened u w) (hw : BlockText 0 w s) (hr : rest.head? ≠ some '"') :
    string ('"' :: '"' :: '"' :: (u ++ '"' :: '"' :: '"' :: rest)) =
      some (String.ofList s, rest) := by
  have hlength := h.length_le
  have hstart : blockStart (u ++ '"' :: '"' :: '"' :: rest) =
      w ++ '"' :: '"' :: '"' :: rest := h.read hw.head_ne (by decide) (by decide)
  have hfuel : w.length < (u ++ '"' :: '"' :: '"' :: rest).length + 1 := by
    simp only [List.length_append]
    omega
  have hbody := hw.read (Nat.zero_le 2) hfuel hr
  simp only [string, hstart, hbody, Option.map_some]

theorem string_literalBlock (h : Opened u s) (hs : LiteralBlockText s)
    (hr : rest.head? ≠ some '\'') :
    string ('\'' :: '\'' :: '\'' :: (u ++ '\'' :: '\'' :: '\'' :: rest)) =
      some (String.ofList s, rest) := by
  have hlength := h.length_le
  have hstart : blockStart (u ++ '\'' :: '\'' :: '\'' :: rest) =
      s ++ '\'' :: '\'' :: '\'' :: rest := h.read hs.head_ne (by decide) (by decide)
  have hfuel : s.length < (u ++ '\'' :: '\'' :: '\'' :: rest).length + 1 := by
    simp only [List.length_append]
    omega
  have hbody := hs.read hfuel hr
  simp only [string, hstart, hbody, Option.map_some]

/-- **A string in any of its notations is read as what it stands for**, up to where something else
than a quote stands. -/
theorem StringText.read (h : StringText w s) (hd : rest.head? ≠ some '"')
    (hs : rest.head? ≠ some '\'') : string (w ++ rest) = some (String.ofList s, rest) := by
  cases h with
  | quoted h => simpa using string_quoted h hd
  | literal h => simpa using string_literal h hs
  | block hopen h => simpa using string_block hopen h hd
  | literalBlock hopen h => simpa using string_literalBlock hopen h hs

/-- A string starts with a quote. -/
theorem StringText.head (h : StringText w s) : ∃ u, w = '"' :: u ∨ w = '\'' :: u := by
  cases h with
  | quoted _ => exact ⟨_, Or.inl rfl⟩
  | literal _ => exact ⟨_, Or.inr rfl⟩
  | block _ _ => exact ⟨_, Or.inl rfl⟩
  | literalBlock _ _ => exact ⟨_, Or.inr rfl⟩

end Walkthrough.Toml
