import Walkthrough.Text.Blank
import Walkthrough.Text.Newline

/-!
# Lines

* `OneLine`, `Inline` — texts without line endings, and those that can be a part of a line.
* `lines_intercalate` — the lines of a text that is made of lines.
* `normalize_append`, `lines_append` — a line feed between two texts, neither of which has a
  carriage return next to it, parts their lines.
* `oneLine_of_mem_lines` — no line of a text has a line ending in it.
-/

set_option autoImplicit false

namespace Walkthrough.Text

/-- A text has no line ending in it. -/
structure OneLine (s : List Char) : Prop where
  no_lf : '\n' ∉ s
  no_cr : '\r' ∉ s

/-- A text that can be a part of a line: not empty, trimmed and without line endings. -/
structure Inline (s : List Char) : Prop where
  ne_nil : s ≠ []
  trimmed : trim s = s
  oneLine : OneLine s

theorem OneLine.append {s t : List Char} (hs : OneLine s) (ht : OneLine t) : OneLine (s ++ t) :=
  ⟨by simp [hs.no_lf, ht.no_lf], by simp [hs.no_cr, ht.no_cr]⟩

theorem OneLine.of_subset {s t : List Char} (ht : OneLine t) (h : s ⊆ t) : OneLine s :=
  ⟨fun hlf => ht.no_lf (h hlf), fun hcr => ht.no_cr (h hcr)⟩

/-- A text without carriage returns is normalised. -/
theorem normalize_eq_self {s : List Char} (h : '\r' ∉ s) : normalize s = s := by
  fun_induction normalize s with
  | case1 => rfl
  | case2 s ih => exact absurd List.mem_cons_self h
  | case3 s ih => exact absurd (List.mem_cons_of_mem _ List.mem_cons_self) h
  | case4 c s _ _ ih =>
      rw [List.mem_cons, not_or] at h
      rw [ih h.2, if_neg (Ne.symm h.1)]

theorem cr_not_mem_intercalate {ls : List (List Char)} (h : ∀ l ∈ ls, OneLine l) :
    '\r' ∉ ['\n'].intercalate ls := by
  induction ls with
  | nil => exact List.not_mem_nil
  | cons l ls ih =>
      have hl := (h l List.mem_cons_self).no_cr
      have hls := ih fun l hl => h l (List.mem_cons_of_mem _ hl)
      cases ls with
      | nil => simpa using hl
      | cons => simp [hl, hls]

/-- The lines of a text that is made of lines. -/
theorem lines_intercalate {ls : List (List Char)} (hne : ls ≠ []) (h : ∀ l ∈ ls, OneLine l) :
    lines (['\n'].intercalate ls) = ls := by
  rw [lines, normalize_eq_self (cr_not_mem_intercalate h),
    List.splitOn_intercalate '\n' (fun l hl => (h l hl).no_lf) hne]

/-! ## Endings next to other characters -/

/-- A line feed is an ending of its own where no carriage return follows. -/
theorem normalize_lf {s : List Char} (h : s.head? ≠ some '\r') :
    normalize ('\n' :: s) = '\n' :: normalize s := by
  rw [normalize]
  · rfl
  · exact nofun
  · rintro t _ rfl
    exact h rfl

/-- So is a carriage return where no line feed follows. -/
theorem normalize_cr {s : List Char} (h : s.head? ≠ some '\n') :
    normalize ('\r' :: s) = '\n' :: normalize s := by
  rw [normalize]
  · rfl
  · rintro t _ rfl
    exact h rfl
  · exact nofun

theorem normalize_cons {c : Char} (hlf : c ≠ '\n') (hcr : c ≠ '\r') (s : List Char) :
    normalize (c :: s) = c :: normalize s := by
  rw [normalize, if_neg hcr]
  · rintro _ rfl
    cases hcr rfl
  · rintro _ rfl
    cases hlf rfl

/-- A text without line endings is passed over. -/
theorem normalize_oneLine_append {w : List Char} (hw : OneLine w) (s : List Char) :
    normalize (w ++ s) = w ++ normalize s := by
  induction w with
  | nil => rfl
  | cons c w ih =>
      have hlf : c ≠ '\n' := fun h => hw.no_lf (h ▸ List.mem_cons_self)
      have hcr : c ≠ '\r' := fun h => hw.no_cr (h ▸ List.mem_cons_self)
      rw [List.cons_append, normalize_cons hlf hcr, ih (hw.of_subset (List.subset_cons_self c w)),
        List.cons_append]

/-- **A line feed between two texts ends a line of its own**, where neither text has a carriage
return next to it. -/
theorem normalize_append {a b : List Char} (ha : a.getLast? ≠ some '\r')
    (hb : b.head? ≠ some '\r') :
    normalize (a ++ '\n' :: b) = normalize a ++ '\n' :: normalize b := by
  fun_induction normalize a with
  | case1 => exact normalize_lf hb
  | case2 s ih =>
      have hs : s.getLast? ≠ some '\r' := by
        intro h
        exact ha (by simp [List.getLast?_cons, h])
      rw [List.cons_append, List.cons_append, normalize, ih hs, List.cons_append]
  | case3 s ih =>
      have hs : s.getLast? ≠ some '\r' := by
        intro h
        exact ha (by simp [List.getLast?_cons, h])
      rw [List.cons_append, List.cons_append, normalize, ih hs, List.cons_append]
  | case4 c s hcrlf hlfcr ih =>
      cases s with
      | nil =>
          have hc : c ≠ '\r' := by simpa using ha
          by_cases hlf : c = '\n'
          · rw [hlf, List.singleton_append, normalize_lf (by simp), normalize_lf hb]
            rfl
          · rw [List.singleton_append, normalize_cons hlf hc, normalize_lf hb, if_neg hc]
            rfl
      | cons d s =>
          have hs : (d :: s).getLast? ≠ some '\r' := by simpa [List.getLast?_cons] using ha
          rw [List.cons_append, normalize, ih hs, List.cons_append]
          · rintro t rfl heq
            obtain ⟨rfl, _⟩ := List.cons.inj heq
            exact hcrlf s rfl rfl
          · rintro t rfl heq
            obtain ⟨rfl, _⟩ := List.cons.inj heq
            exact hlfcr s rfl rfl

/-- The lines of a text with a line feed in it, where no carriage return stands next to it. -/
theorem lines_append {a b : List Char} (ha : a.getLast? ≠ some '\r') (hb : b.head? ≠ some '\r') :
    lines (a ++ '\n' :: b) = lines a ++ lines b := by
  rw [lines, normalize_append ha hb, List.splitOn_append_cons_self, lines, lines]

theorem cr_not_mem_normalize (s : List Char) : '\r' ∉ normalize s := by
  fun_induction normalize s with
  | case1 => exact List.not_mem_nil
  | case2 s ih => simpa using ih
  | case3 s ih => simpa using ih
  | case4 c s _ _ ih =>
      rw [List.mem_cons, not_or]
      refine ⟨?_, ih⟩
      split
      · decide
      · rename_i hc
        exact Ne.symm hc

/-- A piece between marks has no mark in it, and nothing that the text has not. -/
theorem of_mem_splitOn {x : Char} {s w : List Char} (h : w ∈ s.splitOn x) : x ∉ w ∧ w ⊆ s := by
  induction s generalizing w with
  | nil =>
      rw [List.splitOn_nil, List.mem_singleton] at h
      rw [h]
      exact ⟨List.not_mem_nil, List.nil_subset _⟩
  | cons c s ih =>
      rw [List.splitOn_cons_eq_if_modifyHead] at h
      obtain ⟨v, vs, hs⟩ := List.exists_cons_of_ne_nil (List.splitOn_ne_nil x s)
      rw [hs] at h ih
      have hkeep : ∀ w ∈ v :: vs, x ∉ w ∧ w ⊆ c :: s := fun w hw =>
        ⟨(ih hw).1, List.subset_cons_of_subset c (ih hw).2⟩
      split at h
      · rcases List.mem_cons.1 h with rfl | h
        · exact ⟨List.not_mem_nil, List.nil_subset _⟩
        · exact hkeep w h
      · rename_i hc
        rw [List.modifyHead_cons] at h
        rcases List.mem_cons.1 h with rfl | h
        · obtain ⟨hv, hsub⟩ := ih List.mem_cons_self
          have hx : x ≠ c := by
            rintro rfl
            simp at hc
          exact ⟨by simp [hx, hv], List.cons_subset_cons c hsub⟩
        · exact hkeep w (List.mem_cons_of_mem v h)

/-- The lines of a text have no line ending in them. -/
theorem oneLine_of_mem_lines {s l : List Char} (h : l ∈ lines s) : OneLine l := by
  obtain ⟨hlf, hsub⟩ := of_mem_splitOn h
  exact ⟨hlf, fun hcr => cr_not_mem_normalize s (hsub hcr)⟩

end Walkthrough.Text
