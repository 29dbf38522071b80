import Mathlib.Data.List.Nodup
import Mathlib.Data.List.Pairwise
import Walkthrough.Config.Toml
import Walkthrough.Proofs.Toml.Written

/-!
# Configurations survive TOML

A configuration is a simple table, so every writer that keeps to TOML 1.0 has a text for it. A
reader of that text may give the members of a table in any order. Each field is set on its own, so
the order does not matter, and the configuration comes back.

* `Toml.foldlM_perm` — steps over a table that commute for different keys may come in any order;
  `Config.Editor.ofToml?_perm`, `Config.ofTable?_perm`: so may the fields of a configuration.
* `Config.ofTable?_sameTable` — every table with the members of a configuration gives it back.
* `Config.readToml_says` — so does every text that says its table.
* `Config.readToml_writeToml` — what `validate` accepts is written and read back;
  `Config.ofToml_toToml`: also by the writer and the reader of this library.
-/

set_option autoImplicit false

namespace Walkthrough

namespace Toml

/-! ## The order of members -/

/-- Steps that commute for different keys can be taken in any order. -/
theorem foldlM_perm {σ : Type} {f : σ → String × Toml → Option σ} {t t' : Table}
    (h : t.Perm t') (hkeys : (keys t').Nodup)
    (hcomm : ∀ p q : String × Toml, p.1 ≠ q.1 → ∀ s, (f s p).bind (f · q) = (f s q).bind (f · p))
    (s : σ) : t.foldlM f s = t'.foldlM f s := by
  rw [List.foldlM_eq_foldl, List.foldlM_eq_foldl]
  refine (h.symm.foldl_eq' (fun p hp q hq o => ?_) _).symm
  by_cases hpq : p.1 = q.1
  · rw [List.inj_on_of_nodup_map hkeys hp hq hpq]
  · cases o with
    | none => rfl
    | some s => exact hcomm p q hpq s

/-- Two fields that can be set in either order. -/
def Apart {σ : Type} (set set' : σ → Toml → Option σ) : Prop :=
  ∀ s v w, (set s v).bind (set' · w) = (set' s w).bind (set · v)

theorem Apart.symm {σ : Type} {set set' : σ → Toml → Option σ} (h : Apart set set') :
    Apart set' set := fun s v w => (h s w v).symm

theorem apart_map {σ α β : Type} {read : Toml → Option α} {read' : Toml → Option β}
    {put : σ → α → σ} {put' : σ → β → σ} (h : ∀ s a b, put' (put s a) b = put (put' s b) a) :
    Apart (fun s v => (read v).map (put s)) (fun s v => (read' v).map (put' s)) := by
  intro s v w
  cases hv : read v <;> cases hw : read' w <;> simp [hv, hw, h]

/-- Strings and flags are come by in one way only. -/
theorem Same.eq_of_isLeaf {v v' : Toml} (h : Same v v') (hleaf : isLeaf v' = true) : v = v' := by
  cases h with
  | text | flag => rfl
  | table => simp [isLeaf] at hleaf

theorem Paired.eq_of_isLeaf {t t' : Table} (h : Paired t t') (hleaf : ∀ p ∈ t', isLeaf p.2 = true) :
    t = t' := by
  induction t generalizing t' with
  | nil => cases h; rfl
  | cons p t ih =>
    cases h with
    | cons key hsame hrest =>
      rw [hsame.eq_of_isLeaf (hleaf _ List.mem_cons_self),
        ih hrest fun q hq => hleaf q (List.mem_cons_of_mem _ hq)]

end Toml

open Toml

namespace Config

variable {c : Config} {format : Format}

/-! ## The editor's options -/

namespace Editor

variable {e : Editor}

/-- The fields do not get in each other's way. -/
theorem fields_apart : fields.Pairwise fun p q => Apart p.2 q.2 := by
  simp only [fields, List.pairwise_cons, List.mem_cons, List.not_mem_nil, or_false,
    forall_eq_or_imp, forall_eq, List.Pairwise.nil, and_true, IsEmpty.forall_iff, implies_true]
  refine ⟨⟨?_, ?_, ?_, ?_, ?_, ?_, ?_⟩, ⟨?_, ?_, ?_, ?_, ?_, ?_⟩, ⟨?_, ?_, ?_, ?_, ?_⟩,
    ⟨?_, ?_, ?_, ?_⟩, ⟨?_, ?_, ?_⟩, ⟨?_, ?_⟩, ?_⟩ <;>
  exact apart_map fun _ _ _ => rfl

theorem mem_fields {name : String} {set : Editor → Toml → Option Editor}
    (h : fields.lookup name = some set) : (name, set) ∈ fields := by
  obtain ⟨front, back, hfields, -⟩ := List.lookup_eq_some_iff.mp h
  simp [hfields]

theorem apart_of_lookup {name name' : String} {set set' : Editor → Toml → Option Editor}
    (h : fields.lookup name = some set) (h' : fields.lookup name' = some set')
    (hne : name ≠ name') : Apart set set' := by
  have : Std.Symm fun p q : String × (Editor → Toml → Option Editor) => Apart p.2 q.2 :=
    ⟨fun _ _ => Apart.symm⟩
  exact fields_apart.forall (mem_fields h) (mem_fields h') fun heq => hne (congrArg Prod.fst heq)

/-- The order of a table does not matter for the editor's options. -/
theorem ofToml?_perm {o o' : Origin} {t t' : Table} (h : t.Perm t') (hkeys : (keys t').Nodup) :
    ofToml? (.table o t) = ofToml? (.table o' t') := by
  refine foldlM_perm h hkeys (fun p q hpq e => ?_) _
  cases hp : fields.lookup p.1 with
  | none => cases hq : fields.lookup q.1 <;> simp [hp, hq]
  | some set =>
    cases hq : fields.lookup q.1 with
    | none => simp [hp, hq]
    | some set' => simpa [hp, hq] using apart_of_lookup hp hq hpq e p.2 q.2

theorem isLeaf_of_mem_table {p : String × Toml} (h : p ∈ e.table) : isLeaf p.2 = true := by
  simp only [table, List.mem_cons, List.not_mem_nil, or_false] at h
  rcases h with rfl | rfl | rfl | rfl | rfl | rfl | rfl | rfl <;> rfl

theorem nodup_keys_table : (keys e.table).Nodup := by simp [keys, table]

/-- Every table with the editor's options gives them back. -/
theorem ofToml?_sameTable {o : Origin} {t : Table} (h : SameTable t e.table) :
    ofToml? (.table o t) = some e := by
  obtain ⟨u, hperm, hpaired⟩ := h
  obtain rfl := hpaired.eq_of_isLeaf fun p hp => isLeaf_of_mem_table hp
  calc ofToml? (.table o t) = ofToml? (.table o e.table) := ofToml?_perm hperm nodup_keys_table
    _ = some e := rfl

end Editor

/-! ## Configurations -/

/-- The order of a table does not matter for a configuration. -/
theorem ofTable?_perm {t t' : Table} (h : t.Perm t') (hkeys : (keys t').Nodup) :
    ofTable? t = ofTable? t' := by
  have hapart : Apart (fun (c : Config) v => v.asText?.map fun separator => { c with separator })
      fun c v => (Editor.ofToml? v).map fun editor => { c with editor } :=
    apart_map fun _ _ _ => rfl
  refine foldlM_perm h hkeys ?_ _
  rintro ⟨name, v⟩ ⟨name', w⟩ hne c
  by_cases hseparator : name = "separator"
  · subst hseparator
    by_cases heditor : name' = "editor"
    · subst heditor
      exact hapart c v w
    · simp [Ne.symm hne, heditor]
  · by_cases heditor : name = "editor"
    · subst heditor
      by_cases hseparator' : name' = "separator"
      · subst hseparator'
        exact hapart.symm c v w
      · simp [Ne.symm hne, hseparator']
    · simp [hseparator, heditor]

/-- Every table with the members of a configuration gives it back. -/
theorem ofTable?_sameTable {t : Table} (h : SameTable t c.table) : ofTable? t = some c := by
  obtain ⟨u, hperm, hpaired⟩ := h
  cases hpaired with
  | cons _ hseparator hrest =>
  cases hseparator
  cases hrest with
  | cons _ heditor hrest =>
  cases hrest
  cases heditor with
  | table hmembers hleaves =>
  rw [ofTable?_perm hperm (by simp [keys])]
  simp [ofTable?, asText?, Editor.ofToml?_sameTable ⟨_, hmembers, hleaves⟩]

theorem isSimple_table : isSimple c.table = true := by
  have hkeys := isBareKey_fields
  simp only [Editor.fields, List.map_cons, List.map_nil, List.all_cons, List.all_nil,
    Bool.and_eq_true] at hkeys
  simp [isSimple, hasBareKeys, keys, table, Editor.table, isLeaf, isSection, hkeys]

/-- Every text that says the table of an accepted configuration is read as that configuration. -/
theorem readToml_says (hreads : format.Reads) {text : String} (htext : Says text c.table)
    (h : c.validate = .ok ()) : readToml format text = .ok c := by
  obtain ⟨t, hread, hsame⟩ := hreads text c.table htext
  simp [readToml, hread, ofTable?_sameTable hsame, h]

/-- **Configurations survive TOML.** Whatever writer and reader there are, as long as they keep to
TOML 1.0: a configuration that is accepted has a text, and it is read from that text, whatever its
strings and flags are. -/
theorem readToml_writeToml (hwrites : format.Writes) (hreads : format.Reads)
    (h : c.validate = .ok ()) :
    ∃ text, c.writeToml format = .ok text ∧ readToml format text = .ok c := by
  obtain ⟨text, hwrite, htext⟩ := hwrites c.table isSimple_table
  exact ⟨text, by simp [writeToml, hwrite], readToml_says hreads htext h⟩

/-- Strings in three notations: the separator stands between double quotes because of its form feed,
the mode between single quotes because of its backslash, and the theme in a block because of its
line break, where the controls are escaped. -/
def motley : Config where
  separator := "a\x0c'"
  editor := { mode := "\\m", theme := "\t\r\n\x01\x7fa \x0c\x1f\u0085\x08\r" }

theorem readToml_writeToml_motley :
    standard.Writes ∧ standard.Reads ∧ motley.validate = .ok () ∧
      motley.writeToml standard = .ok ("separator = \"a\\f'\"\n\n[editor]\nmode = '\\m'\n" ++
        "theme = \"\"\"\n\\t\\r\n\\u0001\\u007Fa \\f\\u001F\u0085\\b\\r\"\"\"\n" ++
        "line_numbers = true\nline_wrapping = true\nread_only = false\nauto_refresh = true\n" ++
        "show_cursor_when_selecting = false\nprevent_cursor_movement = true\n") ∧
      ∃ text, motley.writeToml standard = .ok text ∧ readToml standard text = .ok motley := by
  have haccepted : motley.validate = .ok () := rfl
  exact ⟨standard_writes, standard_reads, haccepted, by decide +kernel,
    readToml_writeToml standard_writes standard_reads haccepted⟩

/-! ## The format of this library -/

theorem write?_table : standard.write c.table = some c.toToml :=
  (Option.some_get c.isSome_write?).symm

/-- The library has a text for every configuration. -/
theorem writeToml_standard : c.writeToml standard = .ok c.toToml := by
  simp [writeToml, write?_table]

theorem toToml_says : Says c.toToml c.table := by
  obtain ⟨text, hwrite, htext⟩ := standard_writes c.table isSimple_table
  rw [write?_table] at hwrite
  exact Option.some.inj hwrite ▸ htext

/-- What the library writes for an accepted configuration, it reads as that configuration. -/
theorem ofToml_toToml (h : c.validate = .ok ()) : ofToml c.toToml = .ok c :=
  readToml_says standard_reads toToml_says h

end Config

end Walkthrough
