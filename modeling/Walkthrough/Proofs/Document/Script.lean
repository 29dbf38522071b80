import Mathlib.Data.List.Forall2
import Walkthrough.Proofs.Document.Grammar
import Walkthrough.Proofs.Document.Sections

/-!
# Scripts, line by line

What a script comes to is made up of what its lines come to as scripts of their own. Nothing is
carried from a line to the next but the line number, and that only for a fault.

* `Fault.below` — a fault as many lines further down.
* `readLines_add`, `readLines_append` — lines that are counted from elsewhere, and lines after
  lines.
* `readLines_eq_ok_iff`, `readLines_eq_error_iff` — lines are read if each of them is; otherwise the
  first that is not is reported.
* `Joined` — what two scripts come to together.
* `parseScript_compositional` — the same for scripts.
-/

set_option autoImplicit false

namespace Walkthrough.Document

open Text

variable {decode : List Char → List Char}

/-- A fault that is found `n` lines further down. -/
def Fault.below (n : Nat) : Fault → Fault
  | .emptySeparator => .emptySeparator
  | .invalidOptions line name cause => .invalidOptions (n + line) name cause

/-! ## Numbers of lines -/

/-- Where the lines begin to be counted matters for faults only. -/
theorem readLines_add (decode : List Char → List Char) (n m : Nat) (ls : List (List Char)) :
    readLines decode (n + m) ls = (readLines decode m ls).mapError (Fault.below n) := by
  induction ls generalizing m with
  | nil => rfl
  | cons l ls ih =>
      rw [readLines, readLines]
      cases readLine decode l with
      | error fault => rfl
      | ok action =>
          cases action with
          | none => exact ih (m + 1)
          | some a =>
              simp only [Nat.add_assoc n m 1, ih (m + 1)]
              cases readLines decode (m + 1) ls <;> rfl

/-! ## Lines after lines -/

/-- Lines are read after others as they are read by themselves. -/
theorem readLines_append (decode : List Char → List Char) (n : Nat) (ls ms : List (List Char)) :
    readLines decode n (ls ++ ms) =
      (readLines decode n ls).bind fun as =>
        (readLines decode (n + ls.length) ms).map (as ++ ·) := by
  induction ls generalizing n with
  | nil =>
      rw [List.nil_append, List.length_nil, Nat.add_zero]
      cases h : readLines decode n ms <;> rfl
  | cons l ls ih =>
      have hlength : n + (ls.length + 1) = n + 1 + ls.length := by omega
      rw [List.cons_append, List.length_cons, hlength, readLines, readLines]
      cases readLine decode l with
      | error fault => rfl
      | ok action =>
          cases action with
          | none => exact ih (n + 1)
          | some a =>
              simp only [ih (n + 1)]
              cases readLines decode (n + 1) ls with
              | error fault => rfl
              | ok as => cases readLines decode (n + 1 + ls.length) ms <;> rfl

/-- What two scripts come to that are joined, the first of which has `n` lines: the fault of the
first; or that of the second, `n` lines further down; or the actions of both. -/
inductive Joined (n : Nat) :
    Except Fault (List Action) → Except Fault (List Action) → Except Fault (List Action) →
      Prop where
  | first {fault : Fault} {r : Except Fault (List Action)} :
      Joined n (.error fault) r (.error fault)
  | second {as : List Action} {line : Nat} {name : String} {cause : Json.Fault} :
      Joined n (.ok as) (.error (.invalidOptions line name cause))
        (.error (.invalidOptions (n + line) name cause))
  | both {as bs : List Action} : Joined n (.ok as) (.ok bs) (.ok (as ++ bs))

namespace Joined

variable {n : Nat} {r₁ r₂ r : Except Fault (List Action)}

theorem ok_iff (h : Joined n r₁ r₂ r) {cs : List Action} :
    r = .ok cs ↔ ∃ as bs, r₁ = .ok as ∧ r₂ = .ok bs ∧ cs = as ++ bs := by
  cases h with
  | first => simp
  | second => simp
  | both => simp [eq_comm]

theorem error_iff (h : Joined n r₁ r₂ r) {fault : Fault} :
    r = .error fault ↔
      r₁ = .error fault ∨ ∃ as line name cause, r₁ = .ok as ∧
        r₂ = .error (.invalidOptions line name cause) ∧
        fault = .invalidOptions (n + line) name cause := by
  cases h with
  | first => simp
  | second => simp [eq_comm]
  | both => simp

end Joined

theorem readLines_joined (decode : List Char → List Char) (ls ms : List (List Char)) :
    Joined ls.length (readLines decode 1 ls) (readLines decode 1 ms)
      (readLines decode 1 (ls ++ ms)) := by
  rw [readLines_append, Nat.add_comm, readLines_add]
  cases readLines decode 1 ls with
  | error fault => exact .first
  | ok as =>
      cases hms : readLines decode 1 ms with
      | error fault =>
          obtain ⟨line, name, cause, rfl⟩ := readLines_eq_error hms
          exact .second
      | ok bs => exact .both

/-! ## Each line by itself -/

theorem parseScript_ofList {l : List Char} (hl : OneLine l) :
    parseScript (String.ofList l) = readLines Entity.decode 1 [l] := by
  have hline := parseScript_oneLine (l := String.ofList l) (by simpa using hl)
  rw [hline, String.toList_ofList]

theorem readLines_cons_joined {l : List Char} (hl : OneLine l) (ls : List (List Char)) :
    Joined 1 (parseScript (String.ofList l)) (readLines Entity.decode 1 ls)
      (readLines Entity.decode 1 (l :: ls)) := by
  rw [parseScript_ofList hl]
  exact readLines_joined Entity.decode [l] ls

/-- Lines are read if and only if each of them is, and their actions are the actions of each. -/
theorem readLines_eq_ok_iff {ls : List (List Char)} (hls : ∀ l ∈ ls, OneLine l)
    {as : List Action} :
    readLines Entity.decode 1 ls = .ok as ↔
      ∃ parts, List.Forall₂ (fun l part => parseScript (String.ofList l) = .ok part) ls parts ∧
        as = parts.flatten := by
  induction ls generalizing as with
  | nil => simp [readLines, eq_comm]
  | cons l ls ih =>
      obtain ⟨hl, hls⟩ := List.forall_mem_cons.1 hls
      rw [(readLines_cons_joined hl ls).ok_iff]
      constructor
      · rintro ⟨part, rest, hpart, hrest, rfl⟩
        obtain ⟨parts, hparts, rfl⟩ := (ih hls).1 hrest
        exact ⟨part :: parts, .cons hpart hparts, rfl⟩
      · rintro ⟨_, hparts, rfl⟩
        cases hparts with
        | cons hpart hparts => exact ⟨_, _, hpart, (ih hls).2 ⟨_, hparts, rfl⟩, rfl⟩

theorem parseScript_line_fault {l : List Char} {fault : Fault} (hl : OneLine l)
    (h : parseScript (String.ofList l) = .error fault) :
    ∃ name cause, fault = .invalidOptions 1 name cause := by
  rw [parseScript_ofList hl, readLines] at h
  split at h
  · cases h
    exact ⟨_, _, rfl⟩
  · cases h
  · cases h

/-- The fault of lines is that of the first line that cannot be read. -/
theorem readLines_eq_error_iff {ls : List (List Char)} (hls : ∀ l ∈ ls, OneLine l)
    {fault : Fault} :
    readLines Entity.decode 1 ls = .error fault ↔
      ∃ before l after name cause, ls = before ++ l :: after ∧
        (∀ m ∈ before, ∃ part, parseScript (String.ofList m) = .ok part) ∧
        parseScript (String.ofList l) = .error (.invalidOptions 1 name cause) ∧
        fault = .invalidOptions (before.length + 1) name cause := by
  induction ls generalizing fault with
  | nil => simp [readLines]
  | cons l ls ih =>
      obtain ⟨hl, hls⟩ := List.forall_mem_cons.1 hls
      rw [(readLines_cons_joined hl ls).error_iff]
      constructor
      · rintro (hfault | ⟨part, line, name, cause, hpart, hrest, rfl⟩)
        · obtain ⟨name, cause, rfl⟩ := parseScript_line_fault hl hfault
          exact ⟨[], l, ls, name, cause, rfl, List.forall_mem_nil _, hfault, rfl⟩
        · obtain ⟨before, l', after, name', cause', rfl, hbefore, hl', heq⟩ := (ih hls).1 hrest
          cases heq
          refine ⟨l :: before, l', after, name, cause, rfl,
            List.forall_mem_cons.2 ⟨⟨part, hpart⟩, hbefore⟩, hl', ?_⟩
          rw [List.length_cons, Nat.add_comm 1]
      · rintro ⟨before, l', after, name, cause, heq, hbefore, hl', rfl⟩
        cases before with
        | nil =>
            cases heq
            exact .inl hl'
        | cons m before =>
            cases heq
            obtain ⟨⟨part, hpart⟩, hbefore⟩ := List.forall_mem_cons.1 hbefore
            refine .inr ⟨part, before.length + 1, name, cause, hpart,
              (ih hls).2 ⟨before, l', after, name, cause, rfl, hbefore, hl', rfl⟩, ?_⟩
            rw [List.length_cons, Nat.add_comm 1]

/-! ## Lines that yield nothing -/

/-- What is read of two parts does not depend on where the lines of the second are counted from. -/
theorem Joined.toOption_eq {n : Nat} {r₁ r₂ r : Except Fault (List Action)}
    (h : Joined n r₁ r₂ r) :
    r.toOption = r₁.toOption.bind fun as => r₂.toOption.map (as ++ ·) := by
  cases h <;> rfl

theorem readLines_of_not_action {n : Nat} {ls : List (List Char)}
    (h : ∀ l ∈ ls, ∀ p, ¬ ActionLine l p) : readLines decode n ls = .ok [] := by
  induction ls generalizing n with
  | nil => rfl
  | cons l ls ih =>
      obtain ⟨hl, hls⟩ := List.forall_mem_cons.1 h
      rw [readLines, readLine_of_not_action decode hl]
      exact ih hls

theorem readLines_insert {before extra after : List (List Char)}
    (h : ∀ l ∈ extra, ∀ p, ¬ ActionLine l p) :
    (readLines decode 1 (before ++ extra ++ after)).toOption =
      (readLines decode 1 (before ++ after)).toOption := by
  have hextra : (readLines decode 1 (before ++ extra)).toOption =
      (readLines decode 1 before).toOption := by
    rw [(readLines_joined decode before extra).toOption_eq, readLines_of_not_action h]
    cases readLines decode 1 before <;> simp [Except.toOption]
  rw [(readLines_joined decode (before ++ extra) after).toOption_eq,
    (readLines_joined decode before after).toOption_eq, hextra]

/-! ## Scripts -/

/-- **Scripts are read line by line.** Two scripts that are joined by a line feed, with no carriage
return next to it, come to what they come to by themselves. A script is read if and only if each of
its lines is as a script of its own, and its actions are those of its lines in their order; its
fault is that of the first line that cannot be read, with the number of this line. Blank lines,
comments and malformed lines, which are those that no parts of an action line fit, may be put in
anywhere and taken out again. -/
theorem parseScript_compositional :
    (∀ a b : String, a.toList.getLast? ≠ some '\r' → b.toList.head? ≠ some '\r' →
      Joined (lines a.toList).length (parseScript a) (parseScript b)
        (parseScript (a ++ "\n" ++ b))) ∧
    (∀ (s : String) (as : List Action), parseScript s = .ok as ↔
      ∃ parts, List.Forall₂ (fun l part => parseScript (String.ofList l) = .ok part)
        (lines s.toList) parts ∧ as = parts.flatten) ∧
    (∀ (s : String) (fault : Fault), parseScript s = .error fault ↔
      ∃ before l after name cause, lines s.toList = before ++ l :: after ∧
        (∀ m ∈ before, ∃ part, parseScript (String.ofList m) = .ok part) ∧
        parseScript (String.ofList l) = .error (.invalidOptions 1 name cause) ∧
        fault = .invalidOptions (before.length + 1) name cause) ∧
    (∀ (s t : String) (before extra after : List (List Char)),
      lines s.toList = before ++ after → lines t.toList = before ++ extra ++ after →
      (∀ l ∈ extra, ∀ p, ¬ ActionLine l p) →
      (parseScript t).toOption = (parseScript s).toOption) := by
  refine ⟨?_, ?_, ?_, ?_⟩
  · intro a b ha hb
    have hlines : lines (a ++ "\n" ++ b).toList = lines a.toList ++ lines b.toList := by
      rw [← lines_append ha hb]
      simp
    rw [parseScript, parseScript, parseScript, readScript, readScript, readScript, hlines]
    exact readLines_joined Entity.decode _ _
  · intro s as
    exact readLines_eq_ok_iff fun l hl => oneLine_of_mem_lines hl
  · intro s fault
    exact readLines_eq_error_iff fun l hl => oneLine_of_mem_lines hl
  · intro s t before extra after hs ht hextra
    rw [parseScript, parseScript, readScript, readScript, hs, ht]
    exact readLines_insert hextra

/-- A script with two kinds of line endings, the last line of which is empty. -/
def sampleOpening : String := "step: 1\r\n# note\n"

/-- A script that begins with an empty line and is broken in its third one. -/
def sampleRest : String := "\n\rwait: 2\ntip: \x7b"

/-- The third line of the rest is the sixth of the whole, and a comment and a line without a colon
make no difference. -/
theorem parseScript_opening_rest :
    (sampleOpening.toList.getLast? ≠ some '\r' ∧ sampleRest.toList.head? ≠ some '\r' ∧
      parseScript (sampleOpening ++ "\n" ++ sampleRest) =
        .error (.invalidOptions 6 "tip" .endInObject)) ∧
    (∀ l ∈ ["# note".toList, "no action".toList], ∀ p, ¬ ActionLine l p) ∧
      (parseScript "step: 1\r# note\rno action\rwait: 2").toOption =
        (parseScript "step: 1\nwait: 2").toOption := by
  have hchars : sampleOpening.toList =
      ['s', 't', 'e', 'p', ':', ' ', '1', '\r', '\n', '#', ' ', 'n', 'o', 't', 'e', '\n'] := by
    decide
  have hchars' : sampleRest.toList =
      ['\n', '\r', 'w', 'a', 'i', 't', ':', ' ', '2', '\n', 't', 'i', 'p', ':', ' ', '\x7b'] := by
    decide
  have hopening : parseScript sampleOpening = .ok [⟨"step", .text "1", none⟩] := by
    rw [parseScript, hchars]
    rfl
  have hrest : parseScript sampleRest = .error (.invalidOptions 3 "tip" .endInObject) := by
    rw [parseScript, hchars']
    rfl
  have hlength : (lines sampleOpening.toList).length = 3 := by decide
  have hextra : ∀ l ∈ ["# note".toList, "no action".toList], ∀ p, ¬ ActionLine l p := by
    rintro l hl p h
    rcases List.mem_pair.1 hl with rfl | rfl
    · exact h.noComment (by decide)
    · have hnone : command? (cutOutline (trim "no action".toList)).1 = none := by decide
      rw [h.cutOutline_eq, h.command?_eq] at hnone
      cases hnone
  have hlast : sampleOpening.toList.getLast? ≠ some '\r' := by decide
  have hhead : sampleRest.toList.head? ≠ some '\r' := by decide
  obtain ⟨hjoin, _, _, hinsert⟩ := parseScript_compositional
  refine ⟨⟨hlast, hhead, ?_⟩, hextra, ?_⟩
  · have hjoined := hjoin sampleOpening sampleRest hlast hhead
    rw [hopening, hrest, hlength] at hjoined
    generalize parseScript (sampleOpening ++ "\n" ++ sampleRest) = r at hjoined ⊢
    cases hjoined
    rfl
  · exact hinsert "step: 1\nwait: 2" "step: 1\r# note\rno action\rwait: 2" ["step: 1".toList] _
      ["wait: 2".toList] (by decide) (by decide) hextra

end Walkthrough.Document
