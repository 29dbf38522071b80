import Walkthrough.Json.Printer

/-!
# Compact JSON

* `Printed` — texts without control characters.
* `renderValue_printed` — compact JSON is one line, whatever is in its strings.
* `renderValue_obj` — the text of an object stands between braces.
-/

set_option autoImplicit false

namespace Walkthrough

/-- A text has no control character in it. -/
def Printed (s : List Char) : Prop := ∀ c ∈ s, 0x20 ≤ c.toNat

namespace Printed

@[simp] theorem nil : Printed [] := nofun

@[simp] theorem cons_iff {c : Char} {s : List Char} :
    Printed (c :: s) ↔ 0x20 ≤ c.toNat ∧ Printed s := List.forall_mem_cons

@[simp] theorem append_iff {s t : List Char} : Printed (s ++ t) ↔ Printed s ∧ Printed t :=
  List.forall_mem_append

theorem subset {s t : List Char} (ht : Printed t) (h : s ⊆ t) : Printed s := fun c hc => ht c (h hc)

theorem toDigits (n : Nat) : Printed (Nat.toDigits 10 n) := by
  intro c hc
  have hdigit := Nat.isDigit_of_mem_toDigits (by decide) (by decide) hc
  simp only [Char.isDigit, Bool.and_eq_true, decide_eq_true_eq] at hdigit
  have hc : '0'.toNat ≤ c.toNat := hdigit.1
  exact Nat.le_trans (by decide) hc

theorem digitChar (n : Nat) : 0x20 ≤ (Nat.digitChar n).toNat := by
  by_cases h : n < 16
  · exact (by decide : ∀ n < 16, 0x20 ≤ (Nat.digitChar n).toNat) n h
  · rw [Nat.digitChar_eq_star.2 (Nat.not_lt.1 h)]
    decide

theorem replicate_zero (n : Nat) : Printed (List.replicate n '0') := by
  intro c hc
  rw [List.eq_of_mem_replicate hc]
  decide

end Printed

/-! ## Numbers -/

namespace Decimal

theorem dropZeros_printed {digits : List Char} (h : Printed digits) (power : Int) :
    Printed (dropZeros digits power).1 := by
  refine h.subset fun c hc => ?_
  have hc := (List.dropWhile_suffix _).subset (List.mem_reverse.1 hc)
  exact List.mem_reverse.1 hc

theorem Binary.shortest_printed (b : Binary) : Printed b.shortest.1 := by
  unfold shortest
  exact dropZeros_printed (Printed.toDigits _) _

end Decimal

namespace Number

theorem renderFloat_printed (x : Float) : Printed (renderFloat x) := by
  have hsign : Printed (if UInt64.size / 2 ≤ x.toBits.toNat then ['-'] else []) := by
    split
    · simp
    · exact Printed.nil
  have hdigits := (Decimal.Binary.ofFloat x).shortest_printed
  unfold renderFloat
  dsimp only
  split
  · exact Printed.append_iff.2 ⟨hsign, by simp⟩
  · refine Printed.append_iff.2 ⟨hsign, ?_⟩
    revert hdigits
    obtain ⟨digits, power⟩ := (Decimal.Binary.ofFloat x).shortest
    intro hdigits
    have htake (n : Nat) : Printed (digits.take n) := hdigits.subset (List.take_subset n digits)
    have hdrop (n : Nat) : Printed (digits.drop n) := hdigits.subset (List.drop_subset n digits)
    split
    · simp [hdigits, Printed.replicate_zero]
    · split
      · simp [htake, hdrop]
      · split
        · simp [hdigits, Printed.replicate_zero]
        · have hexponent := Printed.toDigits ((digits.length + power : Int) - 1).natAbs
          have htail : Printed digits.tail := hdigits.subset (List.tail_sublist digits).subset
          split <;> split <;> simp [htake, htail, hexponent]

theorem render_printed : ∀ n : Number, Printed n.render
  | .int (.ofNat n) => by
      have hrender : (int (.ofNat n)).render = Nat.toDigits 10 n := String.toList_ofList
      rw [hrender]
      exact Printed.toDigits n
  | .int (.negSucc n) => by
      have hrender : (int (.negSucc n)).render = '-' :: Nat.toDigits 10 (n + 1) := by
        have hstring : toString (Int.negSucc n) = "-" ++ toString (n + 1) := rfl
        rw [render, hstring, String.toList_append]
        exact congrArg _ String.toList_ofList
      rw [hrender]
      exact Printed.cons_iff.2 ⟨by decide, Printed.toDigits _⟩
  | .float x => renderFloat_printed x

end Number

/-! ## Values -/

namespace Json

theorem renderChar_printed (c : Char) : Printed (renderChar c) := by
  unfold renderChar
  split
  case h_8 =>
    split
    · simp [Printed.digitChar]
    · rename_i h
      exact Printed.cons_iff.2 ⟨Nat.not_lt.1 h, .nil⟩
  all_goals simp

theorem renderString_printed (text : String) : Printed (renderString text) := by
  have hchars : Printed (text.toList.flatMap renderChar) := by
    intro c hc
    obtain ⟨d, _, hd⟩ := List.mem_flatMap.1 hc
    exact renderChar_printed d c hd
  simp [renderString, hchars]

mutual

/-- **Compact JSON has no control characters.** -/
theorem renderValue_printed : ∀ v : Json, Printed v.renderValue
  | .null => by simp [renderValue]
  | .bool true => by simp [renderValue]
  | .bool false => by simp [renderValue]
  | .num n => by
      rw [renderValue]
      exact n.render_printed
  | .str text => by
      rw [renderValue]
      exact renderString_printed text
  | .arr [] => by simp [renderValue]
  | .arr (item :: items) => by
      have hitem := renderValue_printed item
      have hitems := renderItems_printed items
      simp [renderValue, hitem, hitems]
  | .obj [] => by simp [renderValue]
  | .obj ((key, value) :: members) => by
      have hkey := renderString_printed key
      have hvalue := renderValue_printed value
      have hmembers := renderMembers_printed members
      simp [renderValue, hkey, hvalue, hmembers]

theorem renderItems_printed : ∀ items : List Json, Printed (renderItems items)
  | [] => by simp [renderItems]
  | item :: items => by
      have hitem := renderValue_printed item
      have hitems := renderItems_printed items
      simp [renderItems, hitem, hitems]

theorem renderMembers_printed : ∀ members : List (String × Json), Printed (renderMembers members)
  | [] => by simp [renderMembers]
  | (key, value) :: members => by
      have hkey := renderString_printed key
      have hvalue := renderValue_printed value
      have hmembers := renderMembers_printed members
      simp [renderMembers, hkey, hvalue, hmembers]

end

/-- The text of an object ends with the bracket that closes it. -/
theorem renderMembers_end :
    ∀ members : List (String × Json), ∃ s, renderMembers members = s ++ ['\x7d']
  | [] => ⟨[], by rw [renderMembers]; rfl⟩
  | (key, value) :: members => by
      obtain ⟨s, hs⟩ := renderMembers_end members
      refine ⟨',' :: renderString key ++ ':' :: renderValue value ++ s, ?_⟩
      rw [renderMembers, hs]
      simp

/-- The text of an object stands between braces. -/
theorem renderValue_obj (members : List (String × Json)) :
    ∃ s, (obj members).renderValue = '\x7b' :: s ++ ['\x7d'] := by
  cases members with
  | nil => exact ⟨[], by rw [renderValue]; rfl⟩
  | cons member members =>
      obtain ⟨key, value⟩ := member
      obtain ⟨s, hs⟩ := renderMembers_end members
      refine ⟨renderString key ++ ':' :: renderValue value ++ s, ?_⟩
      rw [renderValue, hs]
      simp

end Json

end Walkthrough
