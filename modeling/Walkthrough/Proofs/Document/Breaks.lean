import Walkthrough.Proofs.Document.Ending

/-!
# Mixed line endings

A text that was put together in different editors may end each of its lines in another way. Whether
a carriage return or a line feed is an ending of its own or the second half of one depends on what
stands before it. But where a line is not empty the pairs do not reach across it, so each break
between lines is read as the one that it is.

* `Break`, `joinLines` — what may stand between two lines, and lines with a break of its own in each
  gap.
* `normalize_joinLines` — each break is read as one line feed.
* `filter_sublist_normalize`, `filter_normalize` — all characters but the carriage returns stay, and
  only line feeds come in.
* `normalize_mixed` — mixed endings become line feeds, and a script does not change by that.
-/

set_option autoImplicit false

namespace Walkthrough.Text

/-- What may stand between two lines: a single line feed, or another ending. -/
inductive Break where
  | lf
  | other (e : Ending)
  deriving DecidableEq, Repr

/-- The characters of a break. -/
def Break.chars : Break → List Char
  | .lf => ['\n']
  | .other e => e.chars

/-- The lines of a text with the breaks between them, the first one behind the first line. -/
def joinLines (breaks : Nat → Break) : List (List Char) → List Char
  | [] => []
  | [l] => l
  | l :: l' :: ls => l ++ ((breaks 0).chars ++ joinLines (fun i => breaks (i + 1)) (l' :: ls))

/-- Whether a character is not part of a line ending. -/
def isPlain (c : Char) : Bool := c ≠ '\n' && c ≠ '\r'

/-! ## Breaks between lines -/

/-- A break is one ending where no line feed and no carriage return follows. -/
theorem Break.normalize_append (b : Break) {s : List Char} (hlf : s.head? ≠ some '\n')
    (hcr : s.head? ≠ some '\r') : normalize (b.chars ++ s) = '\n' :: normalize s := by
  cases b with
  | lf => exact normalize_lf hcr
  | other e =>
      cases e with
      | crlf => rfl
      | cr => exact normalize_cr hlf
      | lfcr => rfl

variable {breaks : Nat → Break} {l : List Char} {ls : List (List Char)}

theorem joinLines_cons_cons (breaks : Nat → Break) (l l' : List Char) (ls : List (List Char)) :
    joinLines breaks (l :: l' :: ls) =
      l ++ ((breaks 0).chars ++ joinLines (fun i => breaks (i + 1)) (l' :: ls)) := rfl

/-- Joined lines begin as the first line does, which is not empty if there are others. -/
theorem mem_of_head?_joinLines (hne : ls ≠ [] → l ≠ []) {c : Char}
    (h : (joinLines breaks (l :: ls)).head? = some c) : c ∈ l := by
  cases ls with
  | nil => exact List.mem_of_head? h
  | cons l' ls =>
      rw [joinLines_cons_cons, List.head?_append_of_ne_nil _ (hne (List.cons_ne_nil _ _))] at h
      exact List.mem_of_head? h

/-- **Each break becomes one line feed.** Only the first and the last line may be empty: the breaks
on both sides of an empty line between them might be read as one. -/
theorem normalize_joinLines (hlines : ∀ l ∈ ls, OneLine l)
    (hinner : ∀ l ∈ ls.tail.dropLast, l ≠ []) :
    normalize (joinLines breaks ls) = ['\n'].intercalate ls := by
  induction ls generalizing breaks with
  | nil => rfl
  | cons l ls ih =>
      obtain ⟨hl, hls⟩ := List.forall_mem_cons.1 hlines
      cases ls with
      | nil =>
          rw [List.intercalate_singleton]
          exact normalize_eq_self hl.no_cr
      | cons l' ls =>
          have hl' := hls l' List.mem_cons_self
          have hne : ls ≠ [] → l' ≠ [] := by
            intro hmore
            refine hinner l' ?_
            rw [List.tail_cons, List.dropLast_cons_of_ne_nil hmore]
            exact List.mem_cons_self
          have hinner' : ∀ l ∈ (l' :: ls).tail.dropLast, l ≠ [] := by
            intro x hx
            refine hinner x ?_
            cases ls with
            | nil => cases hx
            | cons l'' ls => exact List.mem_cons_of_mem l' hx
          rw [joinLines_cons_cons]
          generalize hrest : joinLines (fun i => breaks (i + 1)) (l' :: ls) = rest
          have hhead : ∀ c, rest.head? = some c → c ∈ l' := by
            rw [← hrest]
            exact fun c => mem_of_head?_joinLines hne
          calc normalize (l ++ ((breaks 0).chars ++ rest))
            _ = l ++ normalize ((breaks 0).chars ++ rest) := normalize_oneLine_append hl _
            _ = l ++ '\n' :: normalize rest := by
              rw [Break.normalize_append]
              · exact fun h => hl'.no_lf (hhead _ h)
              · exact fun h => hl'.no_cr (hhead _ h)
            _ = l ++ '\n' :: ['\n'].intercalate (l' :: ls) := by rw [← hrest, ih hls hinner']
            _ = ['\n'].intercalate (l :: l' :: ls) := by simp

/-- An empty line between a line feed and a carriage return is lost. -/
example : normalize (joinLines (fun i => if i = 0 then .lf else .other .cr) [[], [], []]) =
    ['\n'].intercalate [[], []] := by decide

/-! ## All texts -/

/-- All characters but the carriage returns stay, in their order. -/
theorem filter_sublist_normalize (s : List Char) :
    (s.filter (· ≠ '\r')).Sublist (normalize s) := by
  fun_induction normalize s with
  | case1 => exact .slnil
  | case2 s ih => exact .cons_cons '\n' ih
  | case3 s ih => exact .cons_cons '\n' ih
  | case4 c s _ _ ih =>
      by_cases hcr : c = '\r'
      · simpa [hcr] using ih.cons '\n'
      · simpa [hcr] using ih

/-- No others come in but line feeds. -/
theorem filter_normalize (s : List Char) : (normalize s).filter isPlain = s.filter isPlain := by
  fun_induction normalize s with
  | case1 => rfl
  | case2 s ih => simpa [isPlain] using ih
  | case3 s ih => simpa [isPlain] using ih
  | case4 c s _ _ ih =>
      by_cases hcr : c = '\r'
      · simpa [hcr, isPlain] using ih
      · simp [hcr, List.filter_cons, ih]

theorem normalize_normalize (s : List Char) : normalize (normalize s) = normalize s :=
  normalize_eq_self (cr_not_mem_normalize s)

end Walkthrough.Text

namespace Walkthrough.Document

open Text

/-- **Mixed line endings are read as line feeds.** Lines that hold no ending are parted by any
breaks, and only the first and the last of them may be empty: what is read are these lines, parted
by line feeds. What is read of any text holds no carriage return, but all its other characters in
their order and beside them only line feeds, and is read as itself; so a script gives the same
actions, or the same fault on the same line, as it does with line feeds in place of its endings. -/
theorem normalize_mixed :
    (∀ (breaks : Nat → Break) (ls : List (List Char)), (∀ l ∈ ls, OneLine l) →
      (∀ l ∈ ls.tail.dropLast, l ≠ []) →
        normalize (joinLines breaks ls) = ['\n'].intercalate ls) ∧
    (∀ text, '\r' ∉ normalize text ∧ (text.filter (· ≠ '\r')).Sublist (normalize text) ∧
      (normalize text).filter isPlain = text.filter isPlain ∧
        normalize (normalize text) = normalize text) ∧
    ∀ script, parseScript (String.ofList (normalize script.toList)) = parseScript script := by
  refine ⟨?_, ?_, ?_⟩
  · intro breaks ls hlines hinner
    exact normalize_joinLines hlines hinner
  · intro text
    exact ⟨cr_not_mem_normalize text, filter_sublist_normalize text, filter_normalize text,
      normalize_normalize text⟩
  · intro script
    simp only [parseScript, readScript, lines, String.toList_ofList, normalize_normalize]

/-- Three lines between two empty ones, with all four breaks, and a script with a fault on its third
line. -/
theorem normalize_mixed_medley :
    (∀ l ∈ [[], ['a'], ['b'], ['c'], []], OneLine l) ∧
      (∀ l ∈ [['a'], ['b'], ['c']], l ≠ []) ∧
      normalize "\na\rb\r\nc\n\r".toList = ['\n'].intercalate [[], ['a'], ['b'], ['c'], []] ∧
      parseScript "a: 1\r\n\rb: \x7b" = parseScript "a: 1\n\nb: \x7b" := by
  obtain ⟨hjoin, _, hscript⟩ := normalize_mixed
  have hlines : ∀ l ∈ [[], ['a'], ['b'], ['c'], []], OneLine l := by
    intro l hl
    have hends : '\n' ∉ l ∧ '\r' ∉ l := by
      revert l
      decide
    exact ⟨hends.1, hends.2⟩
  have hinner : ∀ l ∈ [['a'], ['b'], ['c']], l ≠ [] := by decide
  have htext : "\na\rb\r\nc\n\r".toList =
      joinLines (fun i => [.lf, .other .cr, .other .crlf, .other .lfcr].getD i .lf)
        [[], ['a'], ['b'], ['c'], []] := by decide
  have hfaulty : String.ofList (normalize "a: 1\r\n\rb: \x7b".toList) = "a: 1\n\nb: \x7b" := by
    decide
  refine ⟨hlines, hinner, ?_, ?_⟩
  · rw [htext]
    exact hjoin _ _ hlines hinner
  · rw [← hfaulty]
    exact (hscript _).symm

end Walkthrough.Document
