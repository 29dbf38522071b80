import Walkthrough.Proofs.Document.Sections
import Walkthrough.Proofs.Text.Entity
import Walkthrough.Proofs.Text.Newline

/-!
# Line endings

Editors end lines in different ways. A text in which each line feed is replaced by another ending
has the same lines, and it is cut, trimmed and decoded at the same places. So it is read as the same
document, whose source has that ending.

* `Ending`, `Ending.write` — the endings beside the line feed, and a text written with one.
* `normalize_write` — all endings stand for a line feed.
* `trim_write`, `decode_write`, `sections_write` — where a text is cut, trimmed and decoded does not
  depend on its ending.
* `parse_rewrite` — neither does what is read.
-/

set_option autoImplicit false

namespace Walkthrough.Text

/-- A line ending other than a single line feed. -/
inductive Ending where
  | crlf
  | cr
  | lfcr
  deriving DecidableEq, Repr

namespace Ending

/-- The characters of an ending. -/
def chars : Ending → List Char
  | .crlf => ['\r', '\n']
  | .cr => ['\r']
  | .lfcr => ['\n', '\r']

/-- A character, or the ending for a line feed. -/
def writeChar (e : Ending) (c : Char) : List Char := if c = '\n' then e.chars else [c]

/-- A text with the ending for every line feed. -/
def write (e : Ending) (s : List Char) : List Char := s.flatMap e.writeChar

/-- The same for strings. -/
def rewrite (e : Ending) (text : String) : String := String.ofList (e.write text.toList)

variable {e : Ending}

theorem mem_chars {c : Char} (h : c ∈ e.chars) : c = '\n' ∨ c = '\r' := by
  cases e <;> simp [chars] at h <;> grind

@[simp] theorem write_cons (c : Char) (s : List Char) :
    e.write (c :: s) = e.writeChar c ++ e.write s := rfl

@[simp] theorem writeChar_lf : e.writeChar '\n' = e.chars := rfl

theorem writeChar_of_ne {c : Char} (h : c ≠ '\n') : e.writeChar c = [c] := if_neg h

theorem writeChar_ne_nil (c : Char) : e.writeChar c ≠ [] := by
  unfold writeChar
  split
  · cases e <;> exact List.cons_ne_nil _ _
  · exact List.cons_ne_nil _ _

theorem isBlank_of_mem_writeChar {c d : Char} (h : d ∈ e.writeChar c) : isBlank d = isBlank c := by
  unfold writeChar at h
  split at h
  · rename_i hc
    rcases mem_chars h with rfl | rfl <;> subst hc <;> rfl
  · rw [List.mem_singleton.1 h]

/-- What a written text begins with, if no line ends in it, the text begins with. -/
theorem write_eq_append {w s t : List Char} (hw : OneLine w) (h : e.write s = w ++ t) :
    ∃ u, s = w ++ u ∧ e.write u = t := by
  induction w generalizing s with
  | nil => exact ⟨s, rfl, h⟩
  | cons c w ih =>
      have hc : c ≠ '\n' ∧ c ≠ '\r' :=
        ⟨fun hc => hw.no_lf (hc ▸ List.mem_cons_self), fun hc => hw.no_cr (hc ▸ List.mem_cons_self)⟩
      cases s with
      | nil => cases h
      | cons d s =>
          by_cases hd : d = '\n'
          · -- the written text begins with an ending, which `w` does not
            subst hd
            have hmem : c ∈ e.chars := by
              rw [write_cons, writeChar_lf, List.cons_append] at h
              cases e <;> exact (List.cons.inj h).1 ▸ List.mem_cons_self
            rcases mem_chars hmem with hlf | hcr
            · exact absurd hlf hc.1
            · exact absurd hcr hc.2
          · rw [write_cons, writeChar_of_ne hd] at h
            obtain ⟨rfl, htail⟩ := List.cons.inj h
            have hrest : OneLine w :=
              ⟨fun hm => hw.no_lf (List.mem_cons_of_mem _ hm),
                fun hm => hw.no_cr (List.mem_cons_of_mem _ hm)⟩
            obtain ⟨u, rfl, hu⟩ := ih hrest htail
            exact ⟨u, rfl, hu⟩

/-! ## Lines -/

theorem lf_not_mem_write_cr (s : List Char) : '\n' ∉ write .cr s := by
  intro h
  obtain ⟨c, _, hc⟩ := List.mem_flatMap.1 h
  by_cases hlf : c = '\n'
  · rw [hlf] at hc
    cases List.mem_singleton.1 hc
  · rw [writeChar_of_ne hlf] at hc
    exact hlf (List.mem_singleton.1 hc).symm

/-- **Every ending stands for a line feed.** -/
theorem normalize_write {s : List Char} (h : '\r' ∉ s) : normalize (e.write s) = s := by
  induction s with
  | nil => rfl
  | cons c s ih =>
      obtain ⟨hc, hs⟩ := not_or.1 (mt List.mem_cons.2 h)
      by_cases hlf : c = '\n'
      · subst hlf
        cases e with
        | crlf =>
            show '\n' :: normalize (write .crlf s) = _
            rw [ih hs]
        | cr =>
            show normalize ('\r' :: write .cr s) = _
            have hhead : (write .cr s).head? ≠ some '\n' :=
              fun h => lf_not_mem_write_cr s (List.mem_of_head? h)
            rw [normalize_cr hhead, ih hs]
        | lfcr =>
            show '\n' :: normalize (write .lfcr s) = _
            rw [ih hs]
      · rw [write_cons, writeChar_of_ne hlf, List.singleton_append,
          normalize_cons hlf (Ne.symm hc), ih hs]

theorem lines_write {s : List Char} (h : '\r' ∉ s) : lines (e.write s) = lines s := by
  rw [lines, lines, normalize_write h, normalize_eq_self h]

/-! ## Parts of a text -/

theorem trim_write (s : List Char) : trim (e.write s) = e.write (trim s) :=
  trim_flatMap writeChar_ne_nil (fun _ _ => isBlank_of_mem_writeChar) s

/-- Entities have no line ending in them, so what is no entity is none in the written text. -/
theorem decode_write (s : List Char) : Entity.decode (e.write s) = e.write (Entity.decode s) := by
  fun_induction Entity.decode s with
  | case1 => rfl
  | case2 s ih =>
      show '<' :: Entity.decode (e.write s) = _
      rw [ih]
      rfl
  | case3 s ih =>
      show '>' :: Entity.decode (e.write s) = _
      rw [ih]
      rfl
  | case4 s ih =>
      show '&' :: Entity.decode (e.write s) = _
      rw [ih]
      rfl
  | case5 c s hlt hgt hamp ih =>
      by_cases hlf : c = '\n'
      · subst hlf
        rw [write_cons, write_cons, ← ih]
        cases e <;> rfl
      · rw [write_cons, write_cons, writeChar_of_ne hlf, ← ih]
        rw [List.singleton_append, List.singleton_append, Entity.decode]
        · intro u hc heq
          obtain ⟨v, rfl, _⟩ := write_eq_append (w := ['l', 't', ';']) ⟨by decide, by decide⟩ heq
          exact hlt v hc rfl
        · intro u hc heq
          obtain ⟨v, rfl, _⟩ := write_eq_append (w := ['g', 't', ';']) ⟨by decide, by decide⟩ heq
          exact hgt v hc rfl
        · intro u hc heq
          obtain ⟨v, rfl, _⟩ :=
            write_eq_append (w := ['a', 'm', 'p', ';']) ⟨by decide, by decide⟩ heq
          exact hamp v hc rfl

/-- No ending has to do with a mark that has no line ending in it. -/
theorem spares_writeChar {mark : List Char} (h : OneLine mark) : Spares e.writeChar mark := by
  intro c
  by_cases hlf : c = '\n'
  · subst hlf
    refine .inr ⟨writeChar_ne_nil '\n', h.no_lf, fun d hd => ?_⟩
    rcases mem_chars hd with rfl | rfl
    · exact h.no_lf
    · exact h.no_cr
  · exact .inl (writeChar_of_ne hlf)

end Ending

end Walkthrough.Text

namespace Walkthrough.Document

open Text

/-- The sections of a text are where they were. -/
theorem sections_write {e : Ending} {separator : List Char} (hne : separator ≠ [])
    (hseparator : OneLine separator) (text : List Char) :
    sections separator (e.write text) = Prod.map e.write e.write (sections separator text) :=
  sections_flatMap hne (Ending.spares_writeChar hseparator) text

/-- **The line ending of a text does not change its document.** Where each line feed of a text
without carriage returns is replaced by another ending, the same is read: the same fault, or the
same actions and the source with that ending. -/
theorem parse_rewrite {e : Ending} {separator text : String} (hseparator : OneLine separator.toList)
    (htext : '\r' ∉ text.toList) :
    parse separator (e.rewrite text) =
      (parse separator text).map fun d => { d with source := e.rewrite d.source } := by
  unfold parse readSections
  by_cases hne : separator.toList = []
  · rw [if_pos hne, if_pos hne]
    rfl
  · have hscript : '\r' ∉ (sections separator.toList text.toList).2 := mt mem_of_mem_script htext
    rw [if_neg hne, if_neg hne, Ending.rewrite, String.toList_ofList, sections_write hne hseparator]
    generalize sections separator.toList text.toList = parts at hscript ⊢
    obtain ⟨body, script⟩ := parts
    simp only [Prod.map, readScript, Ending.lines_write hscript, Ending.trim_write,
      Ending.decode_write]
    cases readLines Entity.decode 1 (lines script) with
    | error fault => rfl
    | ok actions => simp [Except.map, Ending.rewrite]

/-- Between blank lines, each ended by a line feed and a carriage return. -/
theorem parse_rewrite_lfcr :
    OneLine "@@".toList ∧ '\r' ∉ "a\n\nb &lt; c@@\n\nstep: x ::: y\n".toList ∧
      parse "@@" "a\n\r\n\rb &lt; c@@\n\r\n\rstep: x ::: y\n\r" =
        .ok ⟨"a\n\r\n\rb < c", [⟨"step", .text "x", some "y"⟩]⟩ := by
  have hseparator : OneLine "@@".toList := ⟨by decide, by decide⟩
  have htext : '\r' ∉ "a\n\nb &lt; c@@\n\nstep: x ::: y\n".toList := by decide
  have hread : parse "@@" "a\n\nb &lt; c@@\n\nstep: x ::: y\n" =
      .ok ⟨"a\n\nb < c", [⟨"step", .text "x", some "y"⟩]⟩ := by
    have hchars : "a\n\nb &lt; c@@\n\nstep: x ::: y\n".toList =
        ['a', '\n', '\n', 'b', ' ', '&', 'l', 't', ';', ' ', 'c', '@', '@', '\n', '\n', 's', 't',
          'e', 'p', ':', ' ', 'x', ' ', ':', ':', ':', ' ', 'y', '\n'] := by decide
    rw [parse, hchars]
    rfl
  have hsource : Ending.lfcr.rewrite "a\n\nb < c" = "a\n\r\n\rb < c" := by decide
  have hwritten : Ending.lfcr.rewrite "a\n\nb &lt; c@@\n\nstep: x ::: y\n" =
      "a\n\r\n\rb &lt; c@@\n\r\n\rstep: x ::: y\n\r" := by decide
  refine ⟨hseparator, htext, ?_⟩
  rw [← hwritten, parse_rewrite hseparator htext, hread, Except.map, hsource]

end Walkthrough.Document
