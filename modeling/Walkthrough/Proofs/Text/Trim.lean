import Mathlib.Data.List.DropRight
import Walkthrough.Text.Blank

/-!
# Trimming

* `trimEnd_eq_rdropWhile` — taking the white space off the end is the library's way of doing so.
* `trim_eq_self_iff` — a text is trimmed if it neither begins nor ends with white space.
* `trim_trimmed_append` — a text is trimmed if it begins with a trimmed one and ends with another.
* `trim_flatMap` — writing white space as white space, and the rest without any, keeps what is
  trimmed.
-/

set_option autoImplicit false

namespace Walkthrough.Text

theorem trimEnd_concat (s : List Char) (c : Char) :
    trimEnd (s ++ [c]) = if isBlank c then trimEnd s else s ++ [c] := by
  induction s with
  | nil => simp [trimEnd]
  | cons d s ih =>
      rw [List.cons_append, trimEnd, ih]
      by_cases hc : isBlank c
      · rw [if_pos hc, if_pos hc, trimEnd]
      · rw [if_neg hc, if_neg hc]
        cases s <;> rfl

theorem trimEnd_eq_rdropWhile (s : List Char) : trimEnd s = s.rdropWhile isBlank := by
  induction s using List.reverseRecOn with
  | nil => rfl
  | append_singleton s c ih => rw [trimEnd_concat, List.rdropWhile_concat, ih]

theorem trimEnd_append_of_blank {s t : List Char} (h : ∀ c ∈ t, isBlank c = true) :
    trimEnd (s ++ t) = trimEnd s := by
  induction t using List.reverseRecOn with
  | nil => rw [List.append_nil]
  | append_singleton t c ih =>
      rw [← List.append_assoc, trimEnd_concat, if_pos (h c (by simp))]
      exact ih fun d hd => h d (List.mem_append_left _ hd)

theorem head?_trimEnd_cons {c : Char} (hc : isBlank c = false) (s : List Char) :
    (trimEnd (c :: s)).head? = some c := by
  rw [trimEnd]
  split
  · rw [hc]
    rfl
  · rfl

theorem trimStart_suffix (s : List Char) : trimStart s <:+ s := List.dropWhile_suffix _

theorem trimEnd_isPrefix (s : List Char) : trimEnd s <+: s := by
  rw [trimEnd_eq_rdropWhile]
  exact List.rdropWhile_prefix isBlank s

theorem trimStart_eq_self_iff {s : List Char} :
    trimStart s = s ↔ ∀ c ∈ s.head?, isBlank c = false := by
  cases s with
  | nil => simp [trimStart]
  | cons c s => simp [trimStart, List.dropWhile_eq_self_iff]

theorem trimEnd_eq_self_iff {s : List Char} :
    trimEnd s = s ↔ ∀ c ∈ s.getLast?, isBlank c = false := by
  induction s using List.reverseRecOn with
  | nil => simp [trimEnd]
  | append_singleton s c _ => simp [trimEnd_eq_rdropWhile]

/-- A text is trimmed if it neither begins nor ends with white space. -/
theorem trim_eq_self_iff {s : List Char} :
    trim s = s ↔ (∀ c ∈ s.head?, isBlank c = false) ∧ ∀ c ∈ s.getLast?, isBlank c = false := by
  rw [← trimStart_eq_self_iff, ← trimEnd_eq_self_iff, trim]
  constructor
  · intro h
    have hend := (trimEnd_isPrefix (trimStart s)).length_le
    rw [h] at hend
    have hstart := (trimStart_suffix s).eq_of_length_le hend
    rw [hstart] at h
    exact ⟨hstart, h⟩
  · rintro ⟨hstart, hend⟩
    rw [hstart, hend]

/-- A text without white space is trimmed. -/
theorem trim_eq_self_of_not_blank {s : List Char} (h : ∀ c ∈ s, isBlank c = false) : trim s = s :=
  trim_eq_self_iff.2 ⟨fun c hc => h c (List.mem_of_head? hc),
    fun c hc => h c (List.mem_of_getLast? hc)⟩

theorem trim_eq_nil_of_blank {s : List Char} (h : ∀ c ∈ s, isBlank c = true) : trim s = [] := by
  have hstart : trimStart s = [] := List.dropWhile_eq_nil_iff.2 h
  rw [trim, hstart, trimEnd]

/-- White space before a character that is none is taken off. -/
theorem head?_trim_append {s : List Char} {c : Char} (hs : ∀ d ∈ s, isBlank d = true)
    (hc : isBlank c = false) (t : List Char) :
    (trim (s ++ c :: t)).head? = some c := by
  have hstart : trimStart (s ++ c :: t) = c :: t := by
    rw [trimStart, List.dropWhile_append_of_pos hs, List.dropWhile_cons_of_neg (by simp [hc])]
  rw [trim, hstart, head?_trimEnd_cons hc]

/-- What stands between trimmed texts does not matter. -/
theorem trim_trimmed_append {s t u : List Char} (hs : trim s = s) (ht : trim t = t) (hs' : s ≠ [])
    (ht' : t ≠ []) :
    trim (s ++ u ++ t) = s ++ u ++ t := by
  rw [trim_eq_self_iff] at hs ht ⊢
  constructor
  · intro c hc
    rw [List.append_assoc, List.head?_append_of_ne_nil _ hs'] at hc
    exact hs.1 c hc
  · intro c hc
    rw [List.getLast?_append_of_ne_nil _ ht'] at hc
    exact ht.2 c hc

section

variable {g : Char → List Char}

theorem trimStart_flatMap (hne : ∀ c, g c ≠ []) (hg : ∀ c, ∀ d ∈ g c, isBlank d = isBlank c)
    (s : List Char) : trimStart (s.flatMap g) = (trimStart s).flatMap g := by
  induction s with
  | nil => rfl
  | cons c s ih =>
      by_cases hc : isBlank c = true
      · have hblank : ∀ d ∈ g c, isBlank d = true := fun d hd => (hg c d hd).trans hc
        rw [List.flatMap_cons, trimStart, List.dropWhile_append_of_pos hblank, trimStart,
          List.dropWhile_cons_of_pos hc]
        exact ih
      · have hself : trimStart (g c ++ s.flatMap g) = g c ++ s.flatMap g := by
          refine trimStart_eq_self_iff.2 fun d hd => ?_
          rw [List.head?_append_of_ne_nil _ (hne c)] at hd
          rw [hg c d (List.mem_of_head? hd)]
          simpa using hc
        rw [List.flatMap_cons, hself, trimStart, List.dropWhile_cons_of_neg hc, List.flatMap_cons]

theorem trimEnd_flatMap (hne : ∀ c, g c ≠ []) (hg : ∀ c, ∀ d ∈ g c, isBlank d = isBlank c)
    (s : List Char) : trimEnd (s.flatMap g) = (trimEnd s).flatMap g := by
  induction s using List.reverseRecOn with
  | nil => rfl
  | append_singleton s c ih =>
      rw [trimEnd_concat, List.flatMap_append, List.flatMap_singleton]
      by_cases hc : isBlank c = true
      · have hblank : ∀ d ∈ g c, isBlank d = true := fun d hd => (hg c d hd).trans hc
        rw [if_pos hc, trimEnd_append_of_blank hblank, ih]
      · rw [if_neg hc, List.flatMap_append, List.flatMap_singleton]
        refine trimEnd_eq_self_iff.2 fun d hd => ?_
        rw [List.getLast?_append_of_ne_nil _ (hne c)] at hd
        rw [hg c d (List.mem_of_getLast? hd)]
        simpa using hc

/-- A text whose white space is written as white space, and whose other characters are written
without any, has the white space at its ends where it had it before. -/
theorem trim_flatMap (hne : ∀ c, g c ≠ []) (hg : ∀ c, ∀ d ∈ g c, isBlank d = isBlank c)
    (s : List Char) : trim (s.flatMap g) = (trim s).flatMap g := by
  rw [trim, trimStart_flatMap hne hg, trimEnd_flatMap hne hg, trim]

end

end Walkthrough.Text
