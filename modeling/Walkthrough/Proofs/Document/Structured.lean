import Walkthrough.Proofs.Document.Grammar
import Walkthrough.Proofs.Document.RoundTrip

/-!
# Objects as options

A line is cut at its outline mark before its options are looked at, so a mark within a string of an
object counts as well. An object in its compact form therefore comes back if and only if no mark is
written in it.

* `Unmarked.padded`, `Unmarked.of_encode` — marks of a text between spaces, and of a text before it
  is escaped.
* `unmarked_of_cutMark?` — what is not cut has no mark.
* `objectLine` — the line of a name and an object.
* `parseScript_objectLine` — an object without a mark comes back.
* `unmarked_of_parseScript` — one that comes back has no mark.
* `parseScript_objectLine_iff` — the two together.
-/

set_option autoImplicit false

namespace Walkthrough.Document

open Text

/-! ## Marks -/

/-- Where a text neither begins nor ends with a colon, no mark has to do with the spaces around
it. -/
theorem Unmarked.padded {s : List Char} (h : Unmarked s) (hne : s ≠ [])
    (hhead : s.head? ≠ some ':') (hlast : s.getLast? ≠ some ':') :
    Unmarked (' ' :: s ++ [' ']) := by
  intro t a b u heq ha
  cases t with
  | nil =>
      obtain ⟨c, s, rfl⟩ := List.exists_cons_of_ne_nil hne
      obtain ⟨_, htail⟩ := List.cons.inj heq
      obtain ⟨rfl, _⟩ := List.cons.inj htail
      exact absurd rfl hhead
  | cons d t =>
      obtain ⟨_, htail⟩ := List.cons.inj heq
      rcases List.eq_nil_or_concat' u with rfl | ⟨u, e, rfl⟩
      · -- a mark at the end would leave the text with a colon there
        have hs : s ++ [' '] = (t ++ [a, ':', ':', ':']) ++ [b] := by simpa using htail
        obtain ⟨rfl, _⟩ := List.append_singleton_inj.1 hs
        simp at hlast
      · have hs : s ++ [' '] = (t ++ a :: ':' :: ':' :: ':' :: b :: u) ++ [e] := by
          simpa using htail
        obtain ⟨hs, _⟩ := List.append_singleton_inj.1 hs
        exact h t a b u hs ha

/-- White space and colons are written as they are, so a mark is still one when it is escaped. -/
theorem Unmarked.of_encode {s : List Char} (h : Unmarked (Entity.encode s)) : Unmarked s := by
  intro t a b u hs ha
  by_contra hb
  have hb' : isBlank b = true := by simpa using hb
  have hencode : Entity.encode s =
      Entity.encode t ++ a :: ':' :: ':' :: ':' :: b :: Entity.encode u := by
    have hcolon : Entity.encodeChar ':' = [':'] := rfl
    rw [hs]
    simp [Entity.encodeChar_of_isBlank ha, Entity.encodeChar_of_isBlank hb', hcolon]
  exact hb (h _ a b _ hencode ha)

/-- A text that is not cut, and does not end with white space, has no mark in it. -/
theorem unmarked_of_cutMark? {s : List Char} (hs : Closed s) (h : cutMark? false s = none) :
    Unmarked s := by
  intro t a b u heq ha
  by_contra hb
  have hparts : s = (t ++ [a]) ++ ':' :: ':' :: ':' :: b :: u := by simpa using heq
  have hrest : outlineAt? (':' :: ':' :: ':' :: b :: u) = none := by
    refine cutMark?_eq_none h hparts ?_
    rw [endsBlank_concat]
    exact ha
  have hblank : Blanks (b :: u) := by
    have hb : isBlank b = true := by simpa using hb
    refine List.forall_mem_cons.2 ⟨hb, List.dropWhile_eq_nil_iff.1 ?_⟩
    by_contra hne
    have hne : trimStart u ≠ [] := hne
    simp [outlineAt?, hb, hne] at hrest
  have hlast : s.getLast? = (b :: u).getLast? := by
    have hs : s = (t ++ [a, ':', ':', ':']) ++ b :: u := by simpa using heq
    rw [hs, List.getLast?_append_of_ne_nil _ (List.cons_ne_nil b u)]
  have hclosed := hs _ (hlast.trans (List.getLast?_eq_some_getLast (List.cons_ne_nil b u)))
  rw [hblank _ (List.getLast_mem _)] at hclosed
  cases hclosed

/-! ## Lines -/

/-- The line of a name and an object in its compact form, escaped. -/
def objectLine (name : String) (members : List (String × Json)) : String :=
  name ++ ": " ++ encodeEntities (Json.obj members).render

/-- The action of a name and an object. -/
def objectAction (name : String) (members : List (String × Json)) : Action :=
  ⟨name, .structured (.obj members), none⟩

variable {name : String} {members : List (String × Json)}

/-- It is the line that is written for the action. -/
theorem toList_objectLine :
    (objectLine name members).toList = (objectAction name members).line := by
  simp [objectLine, objectAction, Action.line, encodeEntities, Json.render, Action.Options.written]

theorem objectAction_line :
    (objectAction name members).line =
      name.toList ++ ':' :: ' ' :: Entity.encode (Json.obj members).renderValue :=
  List.append_nil _

theorem oneLine_objectAction (hword : ∀ c ∈ name.toList, isWordChar c = true) :
    OneLine (objectAction name members).line := by
  have hmiddle : OneLine [':', ' '] := ⟨by decide, by decide⟩
  have hoptions := (Json.renderValue_obj_inline members).encode.oneLine
  rw [objectAction_line]
  exact (oneLine_of_isWordChar hword).append (hmiddle.append hoptions)

theorem trim_objectAction (hname : name ≠ "") (hword : ∀ c ∈ name.toList, isWordChar c = true) :
    trim (objectAction name members).line = (objectAction name members).line := by
  have hnamed : name.toList ≠ [] := by simpa using hname
  have hoptions := (Json.renderValue_obj_inline members).encode
  rw [objectAction_line]
  exact trim_word hword hnamed hoptions.trimmed hoptions.ne_nil

/-- A name and an object in which no mark is written can be held by a line. -/
theorem printable_objectAction (hname : name ≠ "")
    (hword : ∀ c ∈ name.toList, isWordChar c = true)
    (hjson : Json.parse (Json.obj members).render = .ok (.obj members))
    (hunmarked : Unmarked (Json.obj members).renderValue) :
    (objectAction name members).Printable := by
  obtain ⟨s, hs⟩ := Json.renderValue_obj members
  have hnamed : name.toList ≠ [] := by simpa using hname
  refine ⟨hnamed, hword, .structured hjson, hunmarked.padded ?_ ?_ ?_, nofun⟩
  · exact (Json.renderValue_obj_inline members).ne_nil
  · rw [hs]
    simp
  · rw [hs, List.getLast?_concat]
    simp

/-- **An object in which no mark is written comes back.** -/
theorem parseScript_objectLine (hname : name ≠ "") (hword : ∀ c ∈ name.toList, isWordChar c = true)
    (hjson : Json.parse (Json.obj members).render = .ok (.obj members))
    (hunmarked : Unmarked (Json.obj members).renderValue) :
    parseScript (objectLine name members) = .ok [objectAction name members] := by
  have hline : OneLine (objectLine name members).toList := by
    rw [toList_objectLine]
    exact oneLine_objectAction hword
  have hread := readLine_line (printable_objectAction hname hword hjson hunmarked)
  rw [parseScript_oneLine hline, toList_objectLine, readLines, hread]
  rfl

/-! ## What comes back -/

variable {decode : List Char → List Char} {l : List Char} {a : Action}

theorem readLine_of_readLines {n : Nat} (h : readLines decode n [l] = .ok [a]) :
    readLine decode l = .ok (some a) := by
  rw [readLines] at h
  split at h
  · cases h
  · cases h
  · rename_i a' ha
    cases h
    exact ha

/-- The outline of an action is what was cut off its line. -/
theorem outline_of_readLine (h : readLine decode l = .ok (some a)) :
    a.outline = (cutOutline (trim l)).2.map String.ofList := by
  unfold readLine at h
  simp only at h
  split at h
  · cases h
  · generalize cutOutline (trim l) = parts at h ⊢
    obtain ⟨command, outline⟩ := parts
    simp only at h
    split at h
    · cases h
    · split at h <;> cases h
      rfl

theorem cutMark?_of_cutOutline (h : (cutOutline l).2 = none) : cutMark? false l = none := by
  unfold cutOutline at h
  split at h
  · cases h
  · assumption

/-- **In an object that comes back no mark is written.** -/
theorem unmarked_of_parseScript (hname : name ≠ "") (hword : ∀ c ∈ name.toList, isWordChar c = true)
    (h : parseScript (objectLine name members) = .ok [objectAction name members]) :
    Unmarked (Json.obj members).renderValue := by
  have hline : OneLine (objectLine name members).toList := by
    rw [toList_objectLine]
    exact oneLine_objectAction hword
  have htrim : trim (objectAction name members).line = (objectAction name members).line :=
    trim_objectAction hname hword
  rw [parseScript_oneLine hline, toList_objectLine] at h
  have houtline := outline_of_readLine (readLine_of_readLines h)
  rw [htrim] at houtline
  have hcut := cutMark?_of_cutOutline (Option.map_eq_none_iff.1 houtline.symm)
  have hunmarked := unmarked_of_cutMark? (trim_eq_self_iff.1 htrim).2 hcut
  rw [objectAction_line] at hunmarked
  exact (hunmarked.of_append.of_append (s := [':', ' '])).of_encode

/-- **An object comes back exactly if no mark is written in it.** Of the script that consists of a
name and an object in its compact form, escaped, that action with these options and without an
outline is read, whatever the strings of the object hold, if and only if nowhere in the compact form
three colons stand between white space. -/
theorem parseScript_objectLine_iff (hname : name ≠ "")
    (hword : ∀ c ∈ name.toList, isWordChar c = true)
    (hjson : Json.parse (Json.obj members).render = .ok (.obj members)) :
    parseScript (name ++ ": " ++ encodeEntities (Json.obj members).render) =
        .ok [⟨name, .structured (.obj members), none⟩] ↔
      Unmarked (Json.obj members).renderValue := by
  constructor
  · intro h
    exact unmarked_of_parseScript hname hword h
  · intro h
    exact parseScript_objectLine hname hword hjson h

/-- An object whose only string has three colons in it, but no white space next to them. -/
theorem parseScript_objectLine_colons :
    "tip_1" ≠ "" ∧ (∀ c ∈ "tip_1".toList, isWordChar c = true) ∧
      Json.parse (Json.obj [("text", .str "a:::<b>")]).render =
        .ok (.obj [("text", .str "a:::<b>")]) ∧
      parseScript ("tip_1" ++ ": " ++ encodeEntities (Json.obj [("text", .str "a:::<b>")]).render) =
        .ok [⟨"tip_1", .structured (.obj [("text", .str "a:::<b>")]), none⟩] := by
  have hname : "tip_1" ≠ "" := by decide
  have hword : ∀ c ∈ "tip_1".toList, isWordChar c = true := List.all_eq_true.1 (by decide)
  have hchars : (Json.obj [("text", .str "a:::<b>")]).renderValue =
      ['\x7b', '"', 't', 'e', 'x', 't', '"', ':', '"', 'a', ':', ':', ':', '<', 'b', '>', '"',
        '\x7d'] := by decide +kernel
  have hjson : Json.parse (Json.obj [("text", .str "a:::<b>")]).render =
      .ok (.obj [("text", .str "a:::<b>")]) := by
    rw [Json.render, hchars, Json.parse, String.toList_ofList]
    rfl
  have hunmarked : Unmarked (Json.obj [("text", .str "a:::<b>")]).renderValue := by
    -- without white space there is no mark
    intro t a b u heq ha
    have hmem : a ∈ (Json.obj [("text", .str "a:::<b>")]).renderValue := by simp [heq]
    rw [hchars] at hmem
    have hplain := List.all_eq_true.1 (by decide : List.all _ fun c => !isBlank c) a hmem
    simp [ha] at hplain
  exact ⟨hname, hword, hjson, (parseScript_objectLine_iff hname hword hjson).2 hunmarked⟩

/-- **An object with a mark in its string does not come back**, though its compact form is read as
the same object. -/
theorem parseScript_objectLine_marked :
    Json.parse (Json.obj [("text", .str "a ::: b")]).render =
        .ok (.obj [("text", .str "a ::: b")]) ∧
      parseScript ("tip" ++ ": " ++ encodeEntities (Json.obj [("text", .str "a ::: b")]).render) ≠
        .ok [⟨"tip", .structured (.obj [("text", .str "a ::: b")]), none⟩] := by
  have hchars : (Json.obj [("text", .str "a ::: b")]).renderValue =
      ['\x7b', '"', 't', 'e', 'x', 't', '"', ':', '"', 'a', ' ', ':', ':', ':', ' ', 'b', '"',
        '\x7d'] := by decide +kernel
  constructor
  · rw [Json.render, hchars, Json.parse, String.toList_ofList]
    rfl
  · intro h
    have hunmarked := unmarked_of_parseScript (by decide) (List.all_eq_true.1 (by decide)) h
    rw [hchars] at hunmarked
    have hblank : isBlank ' ' = false :=
      hunmarked ['\x7b', '"', 't', 'e', 'x', 't', '"', ':', '"', 'a'] ' ' ' ' ['b', '"', '\x7d']
        rfl rfl
    cases hblank

end Walkthrough.Document
